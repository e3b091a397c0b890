import Paprika.Rollouts.Names

/-!
# Reading the hash back

The parser of each package looks for the marker of the stable (active) ReplicaSet first, anywhere in the name: in the name of
a canary (preview) it finds one that is part of the name of the rollout.

* `hashAfter_second` — when the name with the second marker is read;
* **`names_carry_hash_iff`** — which strategies and rollouts have names that carry the hash back.
-/

namespace Paprika.Rollouts

open Lib.Text List

variable {P : Type} {X : Externals P}

/-- A text that ends in a dash stands in front of what has none. -/
theorem infix_append_dash_free {stem a k : List Char} (hk : '-' ∉ k) :
    stem ++ ['-'] <:+: a ++ k ↔ stem ++ ['-'] <:+: a := by
  induction k using List.reverseRecOn generalizing a with
  | nil => rw [append_nil]
  | append_singleton k c ih =>
    have hc : '-' ≠ c := fun hc => hk (hc ▸ mem_append_right k mem_cons_self)
    rw [← append_assoc, infix_concat_iff, ih fun hmem => hk (mem_append_left _ hmem)]
    refine or_iff_right fun hsuffix => hc ?_
    obtain ⟨front, hfront⟩ := hsuffix
    rw [← append_assoc] at hfront
    exact cons.inj (append_inj_right' hfront rfl) |>.1

variable (ro : Rollout P) {m s m' s' hash : String}

theorem textAfterLast_eq_none (sep name : String) (hsep : sep.toList ≠ []) :
    textAfterLast sep name = none ↔ ¬sep.toList <:+: name.toList := by
  rw [textAfterLast, Option.map_eq_none_iff]
  constructor
  · rintro hnone ⟨front, rest, hname⟩
    obtain ⟨r, hr, -⟩ := afterLast_suffix hsep front rest
    rw [hname, hnone] at hr
    cases hr
  intro hno
  by_contra hsome
  obtain ⟨r, hr⟩ := Option.ne_none_iff_exists'.mp hsome
  obtain ⟨front, hfront⟩ := afterLast_split hr
  exact hno ⟨front, r, hfront.symm⟩

/-- The second marker is found where the first one is not part of the name of the rollout. -/
theorem hashAfter_second {stem : List Char} {c d : Char} (hm : IsMarker m s) (hm' : IsMarker m' s') (hs' : s'.toList = '-' :: stem)
    (hstem : '-' ∉ stem) (hc : s.toList.getLast? = some c) (hd : s'.toList.getLast? = some d) (hne : c ≠ d) (hh : '-' ∉ hash.toList) :
    hashAfter [m, m'] (rsName ro m' hash) = hash ↔ ¬m.toList <:+: ro.name.toList ++ ['-'] := by
  have hmarker : m.toList = s.toList ++ ['-'] := hm
  have hend : ∀ front, ro.name.toList ++ s'.toList ≠ front ++ s.toList := by
    intro front h
    have hlast := congrArg getLast? h
    rw [getLast?_append, getLast?_append, hc, hd] at hlast
    exact hne (Option.some.inj hlast).symm
  have hname : m.toList <:+: (rsName ro m' hash).toList ↔ m.toList <:+: ro.name.toList ++ ['-'] := by
    have hlast : ¬s.toList ++ ['-'] <:+ ro.name.toList ++ s'.toList ++ ['-'] := by
      rintro ⟨front, h⟩
      exact hend front (append_inj_left' (by rw [← h, append_assoc]) rfl)
    rw [rsName_toList ro hm', hmarker, append_cons _ _ hash.toList, infix_append_dash_free hh, infix_concat_iff,
      or_iff_right hlast, hs', append_cons _ _ stem, infix_append_dash_free hstem]
  rw [← hname, ← textAfterLast_eq_none _ _ (by simp [hmarker])]
  cases hfound : textAfterLast m (rsName ro m' hash) with
  | none => simp [hashAfter, hfound, textAfterLast_rsName ro hm' hh]
  | some found =>
    refine iff_of_false (fun heq => ?_) (Option.some_ne_none found)
    have hsame : found = hash := by simpa [hashAfter, hfound] using heq
    obtain ⟨-, front, hfront⟩ := textAfterLast_marker ro hm' hm hh (hsame ▸ hh) hfound
    exact hend front hfront

theorem hashAfter_nil (hm : IsMarker m s) (hh : '-' ∉ hash.toList) : hashAfter [] (rsName ro m hash) = hash := by
  have hlast : afterLast ([] ++ ['-']) (ro.name.toList ++ s.toList ++ ([] ++ ['-']) ++ hash.toList) = some hash.toList :=
    afterLast_append hh
  have hdash : textAfterLast "-" (rsName ro m hash) = some hash := by
    rw [textAfterLast, rsName_toList ro hm, append_cons]
    exact (congrArg (Option.map String.ofList) hlast).trans (by simp)
  simp [hashAfter, hdash]

/-- The parser of hashes in the package of the strategy. -/
def StrategyType.parser : StrategyType → String → String
  | .rolling => Rolling.hashFromRSName
  | .blueGreen => BlueGreen.hashFromRSName
  | .abTest => ABTest.hashFromRSName
  | .mirror => Mirror.hashFromRSName
  | .canary | .other _ => Canary.hashFromRSName

/-- The names of the ReplicaSets that `Sync` makes for a template. -/
def StrategyType.builtNames (hash : String) : StrategyType → List String
  | .rolling => [(Rolling.makeStableRS ro hash 0).name, (Rolling.makeCanaryRS ro hash 0).name]
  | .canary => [(Canary.makeStableRS ro hash 0).name, (Canary.makeCanaryRS ro hash 0).name]
  | .blueGreen => [(BlueGreen.makeActiveRS ro hash 0).name, (BlueGreen.makePreviewRS ro hash 0).name]
  | .abTest => [(ABTest.makeStableRS ro hash 0).name, (ABTest.makeCanaryRS ro hash 0).name]
  | .mirror => [(Mirror.makeStableRS ro hash 0).name, (Mirror.makeCanaryRS ro hash 0).name]
  | .other _ => []

/-- The marker of the stable ReplicaSet is part of the name of the rollout, but for the dash behind it. -/
def StrategyType.Misreads : StrategyType → Prop
  | .rolling | .other _ => False
  | t => t.markers.1.toList <:+: ro.name.toList ++ ['-']

/-- **Which names carry the hash back.** -/
theorem names_carry_hash_iff (t : StrategyType) (template : PodTemplateSpec P) :
    (∀ name ∈ t.builtNames ro (X.template template), t.parser name = X.template template) ↔ ¬t.Misreads ro := by
  have hh := template_dash_free X template
  have hpair : ∀ {f : String → String} {a b hash : String} {M : Prop}, f a = hash → (f b = hash ↔ ¬M) →
      ((∀ name ∈ [a, b], f name = hash) ↔ ¬M) := by
    intro f a b hash M ha hb
    simp [ha, hb]
  have hstable := hashAfter_rsName ro ["-canary-"] isMarker_stable hh
  have hcanary := hashAfter_second ro isMarker_stable isMarker_canary rfl (by decide) rfl rfl (by decide) hh
  cases t with
  | rolling => exact hpair (hashAfter_nil ro isMarker_dash hh) (iff_of_true (hashAfter_nil ro isMarker_canary hh) id)
  | blueGreen =>
    exact hpair (hashAfter_rsName ro ["-preview-"] isMarker_active hh)
      (hashAfter_second ro isMarker_active isMarker_preview rfl (by decide) rfl rfl (by decide) hh)
  | other => simp [StrategyType.builtNames, StrategyType.Misreads]
  | _ => exact hpair hstable hcanary

open Sample

/-- A rollout of the name `web-stable`. -/
def webStable : Rollout Nat := { (world (noStrategy .canary) 1 none (plain 1)).rollout with name := "web-stable" }

theorem marker_in_name_is_read : ¬∀ name ∈ StrategyType.canary.builtNames webStable (externals.currentHash webStable),
    StrategyType.canary.parser name = externals.currentHash webStable := by
  decide

end Paprika.Rollouts
