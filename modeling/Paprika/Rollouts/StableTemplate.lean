import Paprika.Rollouts.Presence

/-!
# The template of the stable ReplicaSet

Under Canary, BlueGreen, ABTest and Mirror every result but the one of an abort starts with an action on the
stable (active) ReplicaSet, and that action carries the Rollout's *current* template — also where its name is
built from the hash of the old one.  So the template stays with its hash exactly as long as the current template
is the stable one whenever a reconcile does not promote.

* **`template_intact_of_guarded`** — in a run of such reconciles the ReplicaSet of `StableRS` carries the template
  whose hash ends its name, and a reconcile that does not promote leaves `StableRS` alone;
* **`first_step_overwrites_stable`** — a canary rollout writes the new template into the stable ReplicaSet in the
  reconcile that creates the canary.
-/

namespace Paprika.Rollouts

open Lib.Run List Option

variable {P : Type} {X : Externals P}

/-! ### The property and the condition -/

/-- The ReplicaSet of `StableRS` carries the template whose hash ends its name. -/
def World.TemplateIntact (X : Externals P) (w : World P) : Prop :=
  w.status.stableRS ≠ "" →
    ∀ rs, w.replicaSets.lookup w.status.stableRS = some rs → X.template rs.written = w.stableHash

/-- A reconcile on an existing `StableRS` promotes, or finds the stable template; an aborting one finds the
stable ReplicaSet, which with replicas desired is always there. -/
def KeepsTemplate (X : Externals P) (w : World P) : Event P → Prop
  | .reconcile inp =>
    w.status.stableRS = "" ∨
      if isAborted w.effective (w.observed X inp) = true then
        0 < w.rollout.desiredReplicas ∨ (w.replicaSets.lookup w.status.stableRS).isSome = true
      else w.hash X = w.stableHash ∨ Promotes X w inp
  | _ => True

instance (w : World P) : ∀ e, Decidable (KeepsTemplate X w e)
  | .setTemplate _ => .isTrue trivial
  | .setAnnotations _ => .isTrue trivial
  | .setDeployment _ => .isTrue trivial
  | .setReady _ _ => .isTrue trivial
  | .reconcile _ => inferInstanceAs (Decidable (_ ∨ _))

/-! ### What the results write -/

section
variable {ro : Rollout P} {status status' : RolloutStatus} {inp : SyncInputs} {result : SyncResult P}

/-- The actions first write the current template under the name built from its hash, and then leave that
ReplicaSet's template alone. -/
structure Refreshes (X : Externals P) (ro : Rollout P) (actions : List (ReplicaSetAction P)) (name : String) :
    Prop where
  current : name = rsName ro ro.spec.strategy.type.markers.1 (X.currentHash ro)
  head : ∃ a rest, actions = a :: rest ∧ a.name = name ∧
    a.template = some ro.spec.template.podTemplateSpec ∧ ∀ b ∈ rest, b.template = none ∨ b.name ≠ name

/-- What a result short of an abort makes of the stable ReplicaSet: its actions refresh it, and without a promotion
it is the one there was. -/
structure Renews (X : Externals P) (ro : Rollout P) (status : RolloutStatus) (result : SyncResult P)
    (stable : String) : Prop where
  refreshes : Refreshes X ro result.replicaSets stable
  stays : result.action ≠ .promote → status.stableRS ≠ "" → stable = status.stableRS

/-- A result whose first action writes the current template under the name of its hash; that is the stable name
when the hash is the stable one. -/
theorem Renews.write {stable : String} {type : StrategyType} (ht : ro.spec.strategy.type = type)
    (h : Shapes ro status.tracked)
    {a : ReplicaSetAction P} {rest : List (ReplicaSetAction P)} (hacts : result.replicaSets = a :: rest)
    (hstable : stable = a.name) (hname : a.name = rsName ro type.markers.1 (X.currentHash ro))
    (ha : a.template = some ro.spec.template.podTemplateSpec)
    (hrest : ∀ b ∈ rest, b.template = none ∨ ∃ text, b.name = rsName ro type.markers.2 text)
    (hsame : result.action ≠ .promote → status.stableRS ≠ "" →
      X.currentHash ro = type.hashFromRSName status.stableRS) : Renews X ro status result stable := by
  subst ht hstable
  refine ⟨⟨hname, a, rest, hacts, rfl, ha, fun b hb => (hrest b hb).imp_right ?_⟩, fun hact hs => ?_⟩
  · rintro ⟨text, hb⟩
    rw [hb, hname]
    exact (rsName_markers_ne _ ro _ _).symm
  · rw [hname, hsame hact hs]
    exact h.rebuilt rfl hs

variable (hlive : status.stableRS ≠ "" → isAborted ro status = false)
include hlive

theorem Canary.sync_renews {steps : List CanaryStep} (ht : ro.spec.strategy.type = .canary)
    (h : Shapes ro status.tracked) (hout : Canary.Outcome X steps ro status inp status' result)
    (hguard : status.stableRS ≠ "" → X.currentHash ro = Canary.hashFromRSName status.stableRS ∨
      status.canaryRS ≠ "" ∧ Canary.Exhausted steps inp.now status) :
    Renews X ro status result (status'.tracked.trackAll result.replicaSets).stable := by
  cases hout with
  | create hs => exact .write ht h rfl rfl rfl rfl (forall_mem_nil _) fun _ h => absurd hs h
  | abort hs ha => rw [hlive hs] at ha; cases ha
  | createCanary hs ha hc hh =>
    rcases hguard hs with heq | ⟨hne, -⟩
    · exact absurd heq hh
    · exact absurd hc hne
  | step hs ha hc st hstep =>
    rcases hguard hs with heq | ⟨-, hex⟩
    · exact .write ht h rfl rfl (by rw [heq]; rfl) rfl (forall_mem_singleton.mpr (.inr ⟨_, rfl⟩)) fun _ _ => heq
    · rw [(Canary.advance_none_iff steps inp.now status).mpr hex] at hstep
      cases hstep
  | complete hs ha hstep hh => exact .write ht h rfl rfl rfl rfl (forall_mem_nil _) fun _ _ => hh.symm
  | promote hs ha hc hstep hh => exact .write ht h rfl rfl rfl rfl (forall_mem_nil _) fun hact => absurd rfl hact

theorem BlueGreen.sync_renews {cfg : BlueGreenStrategy} (ht : ro.spec.strategy.type = .blueGreen)
    (h : Shapes ro status.tracked) (hout : BlueGreen.Outcome X cfg ro status inp status' result)
    (hguard : status.stableRS ≠ "" → X.currentHash ro = BlueGreen.hashFromRSName status.stableRS ∨
      status.canaryRS ≠ "" ∧ (status.promotedAt = none ∨ status.previousActiveRS = "") ∧
        (BlueGreen.autoPromotes cfg status inp.now = true ∨ (ro.annotations promoteAnnotation).isSome = true)) :
    Renews X ro status result (status'.tracked.trackAll result.replicaSets).stable := by
  -- while the previous active drains the current template is the active one
  have hdrain : status.promotedAt ≠ none → status.previousActiveRS ≠ "" → status.stableRS ≠ "" →
      X.currentHash ro = BlueGreen.hashFromRSName status.stableRS := by
    intro hp hv hs
    rcases hguard hs with heq | ⟨-, hno, -⟩
    · exact heq
    · exact (hno.elim hp hv).elim
  cases hout with
  | create hs => exact .write ht h rfl rfl rfl rfl (forall_mem_nil _) fun _ h => absurd hs h
  | abort hs ha => rw [hlive hs] at ha; cases ha
  | drained hs ha hp hv hr => exact .write ht h rfl rfl rfl rfl (forall_mem_nil _) fun _ => hdrain hp hv
  | draining hs ha hp hv hr message hash oldTarget htarget =>
    exact .write ht h rfl rfl rfl rfl (forall_mem_singleton.mpr (.inl rfl)) fun _ => hdrain hp hv
  | activeMatches hs ha hd hc hh => exact .write ht h rfl rfl rfl rfl (forall_mem_nil _) fun _ _ => hh
  | previewed hs ha hd hc hh =>
    rcases hguard hs with heq | ⟨hne, -⟩
    · exact absurd heq hh
    · exact absurd hc hne
  | promote hs ha hd hc hwhy =>
    exact .write ht h rfl rfl rfl rfl (forall_mem_singleton.mpr (.inl rfl)) fun hact => absurd rfl hact
  | waiting hs ha hd hc hauto hmanual =>
    rcases hguard hs with heq | ⟨-, -, hwhy | hwhy⟩
    · exact .write ht h rfl rfl (by rw [heq]; rfl) rfl (forall_mem_singleton.mpr (.inr ⟨_, rfl⟩)) fun _ _ => heq
    · rw [hauto] at hwhy; cases hwhy
    · rw [hmanual] at hwhy; cases hwhy

theorem ABTest.sync_renews (ht : ro.spec.strategy.type = .abTest) (h : Shapes ro status.tracked)
    (hout : ABTest.Outcome X ro status result)
    (hguard : status.stableRS ≠ "" → X.currentHash ro = ABTest.hashFromRSName status.stableRS ∨
      status.canaryRS ≠ "" ∧ (ro.annotations promoteAnnotation).isSome = true) :
    Renews X ro status result (status.tracked.trackAll result.replicaSets).stable := by
  cases hout with
  | create hs => exact .write ht h rfl rfl rfl rfl (forall_mem_nil _) fun _ h => absurd hs h
  | abort hs ha => rw [hlive hs] at ha; cases ha
  | createCanary hs ha hc hh =>
    rcases hguard hs with heq | ⟨hne, -⟩
    · exact absurd heq hh
    · exact absurd hc hne
  | promote hs ha hmanual hc => exact .write ht h rfl rfl rfl rfl (forall_mem_nil _) fun hact => absurd rfl hact
  | routed hs ha hmanual message =>
    rcases hguard hs with heq | ⟨-, hwhy⟩
    · exact .write ht h rfl rfl (by rw [heq]; rfl) rfl (forall_mem_singleton.mpr (.inr ⟨_, rfl⟩)) fun _ _ => heq
    · rw [hmanual] at hwhy; cases hwhy

theorem Mirror.sync_renews (ht : ro.spec.strategy.type = .mirror) (h : Shapes ro status.tracked)
    (hout : Mirror.Outcome X ro status result)
    (hguard : status.stableRS ≠ "" → X.currentHash ro = Mirror.hashFromRSName status.stableRS ∨
      status.canaryRS ≠ "" ∧ (ro.annotations promoteAnnotation).isSome = true) :
    Renews X ro status result (status.tracked.trackAll result.replicaSets).stable := by
  cases hout with
  | create hs => exact .write ht h rfl rfl rfl rfl (forall_mem_nil _) fun _ h => absurd hs h
  | abort hs ha => rw [hlive hs] at ha; cases ha
  | promote hs ha hmanual hc => exact .write ht h rfl rfl rfl rfl (forall_mem_nil _) fun hact => absurd rfl hact
  | mirrored hs ha hp phase action message haction hphase =>
  rcases hguard hs with heq | ⟨hne, hwhy⟩
  · exact .write ht h rfl rfl (by rw [heq]; rfl) rfl (forall_mem_singleton.mpr (.inr ⟨_, rfl⟩)) fun _ _ => heq
  · rcases hp with hc | hmanual
    · exact absurd hc hne
    · rw [hmanual] at hwhy; cases hwhy
end

/-! ### One reconcile -/

section
variable [Inhabited P] {w : World P} {inp : ReconcileInput} {status : RolloutStatus} {result : SyncResult P}

omit [Inhabited P] in
/-- A guarded result short of an abort writes the current template to the stable ReplicaSet, which is the one
of that hash. -/
theorem renews_of_guard {strategy : Strategy} (hrolling : w.rollout.spec.strategy.type ≠ .rolling)
    (hnames : w.Names) (hs : newStrategy w.effective.spec.strategy = .ok strategy)
    (hsync : strategy.sync X w.effective (w.observed X inp) (w.inputs X inp) = .ok (status, result))
    (hlive : w.status.stableRS ≠ "" → isAborted w.effective (w.observed X inp) = false)
    (hguard : w.status.stableRS ≠ "" → w.hash X = w.stableHash ∨ Promotes X w inp) :
    Renews X w.effective (w.observed X inp) result (status.tracked.trackAll result.replicaSets).stable := by
  have htype := newStrategy_type hs
  have hshapes := hnames.observed X inp
  have hlive' : (w.observed X inp).stableRS ≠ "" → isAborted w.effective (w.observed X inp) = false := by
    rw [observed_stableRS]; exact hlive
  have hstrat := htype
  rw [effective_strategyType] at hstrat
  simp only [World.stableHash, Promotes, PromotesUnder, hstrat] at hguard
  have hnow : (w.inputs X inp).now = inp.now := rfl
  rw [← observed_stableRS X w inp, ← observed_canaryRS X w inp] at hguard
  cases strategy with
  | rolling cfg => exact absurd hstrat hrolling
  | canary cfg =>
    obtain ⟨c, hc, -, hout⟩ := Canary.sync_outcome hsync
    simp only [newStrategy, htype, Strategy.type, Except.ok.injEq, Strategy.canary.injEq] at hs
    have hsteps : c.steps = w.rollout.steps := by
      rw [← effective_steps, Rollout.steps, hs, hc]
      rfl
    rw [hsteps] at hout
    exact Canary.sync_renews hlive' htype hshapes hout hguard
  | blueGreen cfg =>
    simp only [newStrategy, htype, Strategy.type, Except.ok.injEq, Strategy.blueGreen.injEq] at hs
    have hcfg : w.effective.blueGreenCfg = cfg := hs
    rw [hcfg, ← observed_promotedAt X w inp, ← observed_previousActiveRS X w inp,
      ← effective_annotations w] at hguard
    exact BlueGreen.sync_renews hlive' htype hshapes (BlueGreen.sync_outcome hsync) hguard
  | abTest cfg =>
    obtain ⟨rfl, hout⟩ := ABTest.sync_outcome hsync
    rw [← effective_annotations w] at hguard
    exact ABTest.sync_renews hlive' htype hshapes hout hguard
  | mirror cfg =>
    obtain ⟨rfl, hout⟩ := Mirror.sync_outcome hsync
    rw [← effective_annotations w] at hguard
    exact Mirror.sync_renews hlive' htype hshapes hout hguard

/-- What the executed actions leave in the stable ReplicaSet survives the pruning. -/
theorem templateIntact_settled (hash : String)
    (hcarries : Carries X (w.executed inp result).cluster
      (status.tracked.trackAll result.replicaSets).stable hash)
    (hname : w.rollout.spec.strategy.type.hashFromRSName (status.tracked.trackAll result.replicaSets).stable
      = hash) : (w.settled X inp status result).TemplateIntact X := by
  intro _ rs hrs
  rw [settled_stableRS] at hrs
  have hlook := lookup_prune_some hrs
  rw [World.stableHash, settled_stableRS]
  exact (hcarries rs.written (by rw [writtenOf, hlook]; rfl)).trans hname.symm

/-- **One guarded reconcile** keeps the stable template, and the stable name unless it promotes. -/
theorem reconcile_intact (hrolling : w.rollout.spec.strategy.type ≠ .rolling) (hpres : Present w)
    (hf : inp.faults = Faults.none) (hguard : KeepsTemplate X w (.reconcile inp))
    (hintact : w.TemplateIntact X) :
    (step X w (.reconcile inp)).TemplateIntact X ∧
      ∀ ret, (reconcileLoaded X inp w).synced = some ret → ret.2.action ≠ .promote →
        w.status.stableRS ≠ "" → (step X w (.reconcile inp)).status.stableRS = w.status.stableRS := by
  have hnames := hpres.names hrolling
  rcases synced_cases (X := X) (w := w) hf with ⟨hnone, -, status, hq, heq⟩ |
    ⟨strategy, status, result, -, -, hs, hsync, hsynced, heq⟩
  · rw [heq, hnone]
    refine ⟨?_, fun ret h => (nomatch h)⟩
    show status.stableRS ≠ "" → ∀ rs, w.replicaSets.lookup status.stableRS = some rs →
      X.template rs.written = w.rollout.spec.strategy.type.hashFromRSName status.stableRS
    rw [hq.stableRS]
    exact hintact
  rw [heq, hsynced]
  by_cases habort : w.status.stableRS ≠ "" ∧ isAborted w.effective (w.observed X inp) = true
  · -- an abort names the two ReplicaSets without a template
    obtain ⟨hstable, ha⟩ := habort
    obtain ⟨rfl, hash, rfl⟩ := Strategy.sync_aborted hsync (by rw [observed_stableRS]; exact hstable) ha
    have hname : ((w.observed X inp).tracked.trackAll
        (abortResult w.effective (w.observed X inp) hash w.effective.desiredReplicas).replicaSets).stable
        = w.status.stableRS := by
      rw [abortResult_stable, observed_stableRS]
    have hlook : ∃ rs, w.replicaSets.lookup w.status.stableRS = some rs := by
      have hg := hguard.resolve_left hstable
      rw [if_pos ha] at hg
      rcases hg with hpos | hsome
      · exact hpres.stable_lookup hstable hpos
      · exact isSome_iff_exists.mp hsome
    obtain ⟨rs, hrs⟩ := hlook
    have hwrote : writtenOf w.replicaSets w.status.stableRS = some rs.written := by rw [writtenOf, hrs]; rfl
    refine ⟨templateIntact_settled w.stableHash ?_ (by rw [hname]; rfl), fun ret _ _ _ => ?_⟩
    · rw [hname]
      refine Carries.keptAll inp.createdAt ?_ ⟨?_, by rw [hwrote]; exact some_ne_none _⟩
      · intro a ha
        exact Or.inl (abortResult_template ha)
      · intro t ht
        rw [hwrote] at ht
        cases ht
        exact hintact hstable rs hrs
    · rw [settled_stableRS, hname]
  · have hlive : w.status.stableRS ≠ "" → isAborted w.effective (w.observed X inp) = false := by
      intro hne
      exact Bool.eq_false_iff.mpr fun ha => habort ⟨hne, ha⟩
    have hg : w.status.stableRS ≠ "" → w.hash X = w.stableHash ∨ Promotes X w inp := by
      intro hne
      have hg := hguard.resolve_left hne
      rw [hlive hne] at hg
      exact hg
    obtain ⟨hrefresh, hkeep⟩ := renews_of_guard hrolling hnames hs hsync hlive hg
    obtain ⟨hcur, a, rest, hacts, haname, hatemplate, hrest⟩ := hrefresh
    refine ⟨templateIntact_settled (w.hash X) ?_ ?_, fun ret hret hact hne => ?_⟩
    · rw [World.executed, hacts, executeAll_cons]
      rw [hacts] at haname hrest
      exact Carries.keptAll inp.createdAt hrest (Carries.written inp.createdAt haname hatemplate rfl)
    · rw [hcur, effective_strategyType]
      exact StrategyType.hashFromRSName_rsName _ _ (template_dash_free X _)
    · cases hret
      rw [settled_stableRS, ← observed_stableRS X w inp]
      exact hkeep hact (by rw [observed_stableRS]; exact hne)
end

/-! ### Along a run -/

variable [Inhabited P] {w : World P}

/-- The invariant of a guarded run. -/
structure Intact (X : Externals P) (w : World P) : Prop where
  rolling : w.rollout.spec.strategy.type ≠ .rolling
  present : Present w
  intact : w.TemplateIntact X

theorem step_intact {e : Event P} (h : Intact X w) (he : e.Clean) (hguard : KeepsTemplate X w e) :
    Intact X (step X w e) := by
  refine ⟨by rw [(step_sameSpec X w e).strategy]; exact h.rolling, step_present he h.present, ?_⟩
  cases e with
  | setTemplate t => exact h.intact
  | setAnnotations a => exact h.intact
  | setDeployment d => exact h.intact
  | setReady name ready =>
    intro hne rs hrs
    obtain ⟨f, hf, hlook⟩ := lookup_setReady w.replicaSets name w.status.stableRS ready
    rw [step, hlook] at hrs
    obtain ⟨rs', hrs', rfl⟩ := map_eq_some_iff.mp hrs
    rw [(hf rs').2.1]
    exact h.intact hne rs' hrs'
  | reconcile inp => exact (reconcile_intact h.rolling h.present he hguard h.intact).1

/-- **Stable template integrity**, in a run all of whose reconciles promote or find the stable template. -/
theorem template_intact_of_guarded (X : Externals P) {w : World P} (hfresh : Fresh w)
    (hrolling : w.rollout.spec.strategy.type ≠ .rolling) {es : List (Event P)} (hclean : ∀ e ∈ es, e.Clean)
    (hguarded : Guarded (step X) (KeepsTemplate X) w es) {pre post : List (Event P)}
    (hsplit : es = pre ++ post) :
    (after X w pre).TemplateIntact X ∧ ((after X w pre).status.stableRS ≠ "" → 0 < w.rollout.desiredReplicas →
        ∃ rs, (after X w pre).replicaSets.lookup (after X w pre).status.stableRS = some rs) ∧
      ∀ inp rest, post = .reconcile inp :: rest →
        ∀ ret, (reconcileLoaded X inp (after X w pre)).synced = some ret → ret.2.action ≠ .promote →
          (after X w pre).status.stableRS ≠ "" →
          (after X w (pre ++ [.reconcile inp])).status.stableRS = (after X w pre).status.stableRS ∧
          (after X w (pre ++ [.reconcile inp])).TemplateIntact X := by
  subst hsplit
  obtain ⟨hpre, hpost⟩ := guarded_append.mp hguarded
  have hintact : Intact X (after X w pre) := by
    refine guarded_invariant_on (motive := Intact X) ?_ ⟨hrolling, ?_, ?_⟩
      (fun e he => hclean e (mem_append_left _ he)) hpre
    · intro v e hv he hg
      exact step_intact hv he hg
    · exact Present.fresh hfresh
    · intro hne
      rw [hfresh.1] at hne
      exact absurd rfl hne
  refine ⟨hintact.intact, fun hs hpos => ?_, ?_⟩
  · rw [← (after_sameSpec X w pre).desiredReplicas] at hpos
    exact hintact.present.stable_lookup hs hpos
  rintro inp rest rfl ret hret hact hne
  have hf : inp.faults = Faults.none := hclean (.reconcile inp) (by simp)
  obtain ⟨hafter, hkeep⟩ := reconcile_intact hintact.rolling hintact.present hf hpost.1 hintact.intact
  rw [after_append]
  exact ⟨hkeep ret hret hact hne, hafter⟩

/-! ### A canary rollout that overwrites, and an A/B test that does not -/

open Sample

/-- A canary rollout with one step without a duration. -/
def oneStep : World Nat := world { noStrategy .canary with canary := some ⟨[⟨50, none⟩], "", ""⟩ } 4 none (plain 1)

/-- Revision 2 arrives; the next reconcile creates its canary. -/
def canaryCreated : List (Event Nat) := [reconcileAt 0, .setTemplate (plain 2), reconcileAt 1]

/-- **The new template is written into the stable ReplicaSet** by the reconcile that creates the canary: the
action on `ro-stable-1000000000` carries revision 2. -/
theorem first_step_overwrites_stable :
    Fresh oneStep ∧ oneStep.rollout.spec.strategy.type = .canary ∧ (∀ e ∈ canaryCreated, e.Clean) ∧
      ¬(after externals oneStep canaryCreated).TemplateIntact externals := by
  refine ⟨world_fresh .., rfl, ?_, ?_⟩
  · simp [canaryCreated, reconcileAt, Event.Clean, ReconcileInput.at]
  intro h
  have hwritten : ((after externals oneStep canaryCreated).replicaSets.lookup
      (after externals oneStep canaryCreated).status.stableRS).map
        (fun rs => externals.template rs.written) = some "2000000000" := by decide
  obtain ⟨rs, hrs, hhash⟩ := map_eq_some_iff.mp hwritten
  have := (h (by decide) rs hrs).symm.trans hhash
  exact absurd this (by decide)

def oneRoute : World Nat :=
  world { noStrategy .abTest with abTest := some ⟨[⟨"header", "x-user", "beta", "canary"⟩], "", ""⟩ } 4 none
    (plain 1)

/-- Revision 2 arrives together with the promote annotation. -/
def promotedAtOnce : List (Event Nat) :=
  [reconcileAt 0, reconcileAt 1, .setTemplate (plain 2), .setAnnotations (annotated promoteAnnotation),
   reconcileAt 2]

theorem prompt_promotion_keeps_template : (after externals oneRoute promotedAtOnce).TemplateIntact externals := by
  refine (template_intact_of_guarded externals (w := oneRoute) (world_fresh ..) (by decide) ?_ (by decide)
    (append_nil promotedAtOnce).symm).1
  simp [promotedAtOnce, reconcileAt, Event.Clean, ReconcileInput.at]

end Paprika.Rollouts
