import Paprika.Lib.Unstructured

/-!
# Traffic: the entries of a rule

Both routers write weights into a list of destinations: the `route` of an HTTP route of a VirtualService, the
`backendRefs` of a rule of an HTTPRoute.  What they do to one rule is the same up to where the list is, how an entry
names its service, and which entries a removal sets to 100; `Backend` holds these.

* `patchRule` — the body of `SetWeight`, and `patchRule_rel` what it does to the weights of a rule;
* `stripRule` — the body of `RemoveCanary`, and `stripRule_rel`.
-/

namespace Paprika.Traffic

open Lib.Unstructured List

/-- The two services of a rollout. -/
inductive Service
  | stable
  | canary
  deriving DecidableEq

/-- How a router reads a rule: the field of the list, the service that an entry names (`none` for any other), and
which of the kept entries a removal sets to 100.  The service does not depend on the weight. -/
structure Backend where
  key : String
  service : Fields → Except Unit (Option Service)
  service_weight : ∀ m v, service (setField "weight" v m) = service m
  resets : Option Service → Bool
  resets_stable : resets (some .stable) = true

/-- Why a call fails. -/
inductive RouterError
  | getFailed
  | unreadableRules
  | noMatchingRoutes
  | noMatchingService
  | unreadableEntry
  | updateFailed
  deriving DecidableEq

section
variable (B : Backend)

/-- `SetWeight` on one entry; the flag says whether the entry names one of the services. -/
def patchEntry (weight : Int) : Value → Value × Bool
  | .obj d =>
    match B.service d with
    | .ok (some .canary) => (.obj (setField "weight" (.num weight) d), true)
    | .ok (some .stable) => (.obj (setField "weight" (.num (100 - weight)) d), true)
    | .ok none | .error _ => (.obj d, false)
  | v => (v, false)

def patchEntries (weight : Int) (entries : List Value) : List Value × Bool :=
  (entries.map (fun e => (patchEntry B weight e).1), entries.any (fun e => (patchEntry B weight e).2))

/-- `SetWeight` on one rule. -/
def patchRule (weight : Int) : Value → Except RouterError (Value × Bool)
  | .obj rule =>
    match rule.lookup B.key with
    | some (.arr entries) =>
      let (patched, modified) := patchEntries B weight entries
      if modified then .ok (.obj (setField B.key (.arr patched) rule), true) else .ok (.obj rule, false)
    | _ => .ok (.obj rule, false)
  | v => .ok (v, false)

/-- The entries `RemoveCanary` keeps. -/
def keepEntries : List Value → Except RouterError (List Value)
  | [] => .ok []
  | .obj d :: rest =>
    match B.service d with
    | .error _ => .error .unreadableEntry
    | .ok (some .canary) => keepEntries rest
    | .ok s =>
      match keepEntries rest with
      | .error e => .error e
      | .ok keep => .ok (.obj (if B.resets s then setField "weight" (.num 100) d else d) :: keep)
  | v :: rest =>
    match keepEntries rest with
    | .error e => .error e
    | .ok keep => .ok (v :: keep)

/-- `RemoveCanary` on one rule; a nil slice is written as null. -/
def stripRule : Value → Except RouterError (Value × Bool)
  | .obj rule =>
    match rule.lookup B.key with
    | some (.arr entries) =>
      match keepEntries B entries with
      | .error e => .error e
      | .ok keep => .ok (.obj (setField B.key (if keep.isEmpty then .null else .arr keep) rule), true)
    | _ => .ok (.obj rule, false)
  | v => .ok (v, false)

/-! ### What a rule says -/

def entriesOf : Value → List Value
  | .obj rule =>
    match rule.lookup B.key with
    | some (.arr entries) => entries
    | _ => []
  | _ => []

/-- The service an entry names; an entry that cannot be read names none. -/
def serviceOf : Value → Option Service
  | .obj d =>
    match B.service d with
    | .ok s => s
    | .error _ => none
  | _ => none

def weightOf : Value → Option Value
  | .obj d => d.lookup "weight"
  | _ => none

/-- The weights that the entries give to a service, one for each entry that names it. -/
def weightsIn (s : Service) (entries : List Value) : List (Option Value) :=
  (entries.filter (fun e => serviceOf B e = some s)).map weightOf

def othersIn (entries : List Value) : List Value := entries.filter (fun e => serviceOf B e = none)

def weights (s : Service) (rule : Value) : List (Option Value) := weightsIn B s (entriesOf B rule)

/-- The destinations of a rule that belong to neither service. -/
def others (rule : Value) : List Value := othersIn B (entriesOf B rule)

/-- The rules agree on every field but the list. -/
def SameOutside (a b : Value) : Prop :=
  a = b ∨ ∃ ra rb, a = .obj ra ∧ b = .obj rb ∧ ∀ k, k ≠ B.key → rb.lookup k = ra.lookup k

variable {B}

theorem SameOutside.refl (a : Value) : SameOutside B a a := Or.inl rfl

variable {a b c e : Value} {entries : List Value} {w : Int}

theorem SameOutside.trans (hab : SameOutside B a b) (hbc : SameOutside B b c) : SameOutside B a c := by
  obtain rfl | ⟨ra, rb, rfl, rfl, hr⟩ := hab
  · exact hbc
  obtain rfl | ⟨rb', rc, hb, rfl, hr'⟩ := hbc
  · exact .inr ⟨ra, rb, rfl, rfl, hr⟩
  cases hb
  exact .inr ⟨ra, rc, rfl, rfl, fun k hk => (hr' k hk).trans (hr k hk)⟩

theorem sameOutside_setField (v : Value) (rule : Fields) : SameOutside B (.obj rule) (.obj (setField B.key v rule)) :=
  .inr ⟨rule, setField B.key v rule, rfl, rfl, fun _ hk => lookup_setField_of_ne hk v rule⟩

theorem entriesOf_setField (v : Value) (rule : Fields) : entriesOf B (.obj (setField B.key v rule)) =
      match v with
      | .arr entries => entries
      | _ => [] := by
  simp only [entriesOf, lookup_setField_self]
  cases v <;> rfl

theorem entriesOf_of_no_list {rule : Fields} (h : ∀ entries, rule.lookup B.key = some (.arr entries) → False) :
    entriesOf B (.obj rule) = [] := by
  cases hlist : rule.lookup B.key with
  | none => simp [entriesOf, hlist]
  | some v =>
    cases v with
    | arr entries => exact (h entries hlist).elim
    | null | bool | num | str | obj => simp [entriesOf, hlist]

theorem serviceOf_setField (v : Value) (d : Fields) :
    serviceOf B (.obj (setField "weight" v d)) = serviceOf B (.obj d) := by
  simp only [serviceOf, B.service_weight]

theorem weightOf_setField (v : Value) (d : Fields) : weightOf (.obj (setField "weight" v d)) = some v :=
  lookup_setField_self "weight" v d

/-! ### `SetWeight` on a rule -/

/-- The weight that `SetWeight` gives to a service. -/
def Service.share (weight : Int) : Service → Int
  | .stable => 100 - weight
  | .canary => weight

theorem patchEntry_of_service {s : Service} (h : serviceOf B e = some s) :
    serviceOf B (patchEntry B w e).1 = some s ∧ weightOf (patchEntry B w e).1 = some (.num (s.share w)) := by
  cases e with
  | obj d =>
    simp only [serviceOf] at h
    cases hserv : B.service d with
    | error e =>
      rw [hserv] at h
      cases h
    | ok t =>
    rw [hserv] at h
    obtain rfl : t = some s := h
    cases s <;>
      simp [patchEntry, hserv, serviceOf, B.service_weight, weightOf_setField, Service.share]
  | null | bool | num | str | arr => cases h

theorem patchEntry_of_other (h : serviceOf B e = none) : patchEntry B w e = (e, false) := by
  cases e with
  | obj d =>
    simp only [serviceOf] at h
    cases hserv : B.service d with
    | error e => simp [patchEntry, hserv]
    | ok t =>
      rw [hserv] at h
      obtain rfl : t = none := h
      simp [patchEntry, hserv]
  | null | bool | num | str | arr => rfl

theorem serviceOf_patchEntry (w : Int) (e : Value) : serviceOf B (patchEntry B w e).1 = serviceOf B e := by
  cases h : serviceOf B e with
  | none => rw [patchEntry_of_other h, h]
  | some s => exact (patchEntry_of_service h).1

theorem weightsIn_patchEntries (s : Service) (w : Int) (entries : List Value) :
    weightsIn B s (patchEntries B w entries).1 = (weightsIn B s entries).map (fun _ => some (.num (s.share w))) := by
  induction entries with
  | nil => rfl
  | cons e rest ih =>
    simp only [weightsIn, patchEntries, map_cons, filter_cons, serviceOf_patchEntry] at ih ⊢
    by_cases hs : serviceOf B e = some s
    · simp only [hs, decide_true, if_true, map_cons, (patchEntry_of_service hs).2]
      rw [ih]
    · simp only [hs, decide_false, Bool.false_eq_true, if_false]
      exact ih

theorem othersIn_patchEntries (w : Int) (entries : List Value) :
    othersIn B (patchEntries B w entries).1 = othersIn B entries := by
  induction entries with
  | nil => rfl
  | cons e rest ih =>
    simp only [othersIn, patchEntries, map_cons, filter_cons, serviceOf_patchEntry] at ih ⊢
    by_cases hs : serviceOf B e = none
    · simp only [hs, decide_true, if_true, patchEntry_of_other hs]
      rw [ih]
    · simp only [hs, decide_false, Bool.false_eq_true, if_false]
      exact ih

theorem weightsIn_of_not_modified (h : (patchEntries B w entries).2 = false)
    (s : Service) : weightsIn B s entries = [] := by
  have hnone : ∀ e ∈ entries, (patchEntry B w e).2 = false := by simpa [patchEntries] using h
  rw [weightsIn, map_eq_nil_iff, filter_eq_nil_iff]
  intro e he
  rw [decide_eq_true_eq]
  intro hs
  have hmodified : (patchEntry B w e).2 = true := by
    cases e with
    | obj d =>
      simp only [serviceOf] at hs
      cases hserv : B.service d with
      | error e =>
        rw [hserv] at hs
        cases hs
      | ok t =>
        rw [hserv] at hs
        obtain rfl : t = some s := hs
        cases s <;> simp [patchEntry, hserv]
    | null | bool | num | str | arr => cases hs
  exact absurd ((hnone e he).symm.trans hmodified) (by decide)

/-- What `SetWeight` does to a rule. -/
structure Reweighted (B : Backend) (w : Int) (a b : Value) : Prop where
  weights : ∀ s, weights B s b = (weights B s a).map (fun _ => some (.num (s.share w)))
  others : others B b = others B a
  outside : SameOutside B a b

theorem Reweighted.trans (hab : Reweighted B w a b) (hbc : Reweighted B w b c) : Reweighted B w a c where
  weights s := by
    rw [hbc.weights, hab.weights, map_map]
    rfl
  others := hbc.others.trans hab.others
  outside := hab.outside.trans hbc.outside

theorem Reweighted.of_none (h : ∀ s, Traffic.weights B s a = []) : Reweighted B w a a where
  weights s := by
    rw [h s]
    rfl
  others := rfl
  outside := SameOutside.refl a

theorem patchRule_rel {modified : Bool} (h : patchRule B w a = .ok (b, modified)) : Reweighted B w a b := by
  cases a with
  | obj rule =>
    simp only [patchRule] at h
    split at h
    · next entries hents =>
      have hold : entriesOf B (.obj rule) = entries := by simp [entriesOf, hents]
      split at h
      · cases h
        have hnew : entriesOf B (.obj (setField B.key (.arr (patchEntries B w entries).1) rule)) =
            (patchEntries B w entries).1 := entriesOf_setField _ _
        refine ⟨?_, ?_, sameOutside_setField _ _⟩
        · intro s
          rw [weights, weights, hnew, hold]
          exact weightsIn_patchEntries s w entries
        · rw [others, others, hnew, hold]
          exact othersIn_patchEntries w entries
      · next hmodified =>
        cases h
        apply Reweighted.of_none
        intro s
        rw [weights, hold]
        exact weightsIn_of_not_modified (by simpa using hmodified) s
    · next hents =>
      cases h
      apply Reweighted.of_none
      intro s
      rw [weights, entriesOf_of_no_list hents]
      rfl
  | null | bool | num | str | arr =>
    cases h
    exact Reweighted.of_none (fun _ => rfl)

/-! ### `RemoveCanary` on a rule -/

def keepEntry (B : Backend) : Value → Value
  | .obj d => if B.resets (serviceOf B (.obj d)) then .obj (setField "weight" (.num 100) d) else .obj d
  | v => v

theorem serviceOf_keepEntry (e : Value) : serviceOf B (keepEntry B e) = serviceOf B e := by
  cases e with
  | obj d =>
    rw [keepEntry]
    split
    · exact serviceOf_setField _ _
    · rfl
  | null | bool | num | str | arr => rfl

/-- The kept entries are those of any service but the canary, each as `keepEntry` leaves it. -/
theorem keepEntries_eq : ∀ {keep : List Value}, keepEntries B entries = .ok keep →
    keep = (entries.filter (fun e => serviceOf B e ≠ some .canary)).map (keepEntry B) := by
  induction entries with
  | nil =>
    intro keep h
    cases h
    rfl
  | cons e rest ih =>
    intro keep h
    cases e with
    | obj d =>
      simp only [keepEntries] at h
      cases hserv : B.service d with
      | error e =>
        rw [hserv] at h
        cases h
      | ok s =>
      rw [hserv] at h
      have hs : serviceOf B (.obj d) = s := by simp [serviceOf, hserv]
      by_cases hcanary : s = some .canary
      · subst hcanary
        simp only at h
        rw [filter_cons_of_neg (by simp [hs])]
        exact ih h
      have hrest : (match keepEntries B rest with
          | .error e => .error e
          | .ok keep => .ok (.obj (if B.resets s then setField "weight" (.num 100) d else d) :: keep)) =
          Except.ok keep := by
        cases s with
        | none => exact h
        | some s =>
          cases s with
          | stable => exact h
          | canary => exact absurd rfl hcanary
      cases hkeep : keepEntries B rest with
      | error e =>
        rw [hkeep] at hrest
        cases hrest
      | ok tail =>
      rw [hkeep] at hrest
      cases hrest
      rw [filter_cons_of_pos (by simpa [hs] using hcanary), map_cons, ← ih hkeep, keepEntry, hs]
      split <;> rfl
    | null | bool | num | str | arr =>
      simp only [keepEntries] at h
      cases hkeep : keepEntries B rest with
      | error e =>
        rw [hkeep] at h
        cases h
      | ok tail =>
      rw [hkeep] at h
      cases h
      rw [filter_cons_of_pos (by simp [serviceOf]), map_cons, ← ih hkeep]
      rfl

theorem weightsIn_keepEntries {keep : List Value} (h : keepEntries B entries = .ok keep) :
    weightsIn B .canary keep = [] ∧
      weightsIn B .stable keep = (weightsIn B .stable entries).map (fun _ => some (.num 100)) := by
  rw [keepEntries_eq h]
  clear h keep
  induction entries with
  | nil => exact ⟨rfl, rfl⟩
  | cons e rest ih =>
    obtain ⟨hcanary, hstable⟩ := ih
    cases hs : serviceOf B e with
    | none =>
      have hkept : serviceOf B (keepEntry B e) = none := (serviceOf_keepEntry e).trans hs
      constructor
      · simpa [weightsIn, filter_cons, hs, hkept] using hcanary
      · simpa [weightsIn, filter_cons, hs, hkept] using hstable
    | some s =>
    have hkept : serviceOf B (keepEntry B e) = some s := (serviceOf_keepEntry e).trans hs
    cases s with
    | canary =>
      constructor
      · simpa [weightsIn, filter_cons, hs] using hcanary
      · simpa [weightsIn, filter_cons, hs] using hstable
    | stable =>
    have hweight : weightOf (keepEntry B e) = some (.num 100) := by
      cases e with
      | obj d => rw [keepEntry, hs, B.resets_stable, if_pos rfl, weightOf_setField]
      | null | bool | num | str | arr => cases hs
    constructor
    · simpa [weightsIn, filter_cons, hs, hkept] using hcanary
    · simpa [weightsIn, filter_cons, hs, hkept, hweight] using hstable

theorem othersIn_keepEntries {keep : List Value} (h : keepEntries B entries = .ok keep) :
    othersIn B keep = (othersIn B entries).map (keepEntry B) := by
  rw [keepEntries_eq h]
  clear h keep
  induction entries with
  | nil => rfl
  | cons e rest ih =>
    cases hs : serviceOf B e with
    | none =>
      have hkept : serviceOf B (keepEntry B e) = none := (serviceOf_keepEntry e).trans hs
      simpa [othersIn, filter_cons, hs, hkept] using ih
    | some s =>
    have hkept : serviceOf B (keepEntry B e) = some s := (serviceOf_keepEntry e).trans hs
    cases s with
    | canary => simpa [othersIn, filter_cons, hs] using ih
    | stable => simpa [othersIn, filter_cons, hs, hkept] using ih

/-- A removal finds the other destinations as it would leave them. -/
def Settled (B : Backend) (rule : Value) : Prop :=
  B.resets none = true → ∀ d, .obj d ∈ others B rule → d.lookup "weight" = some (.num 100)

/-- What `RemoveCanary` does to a rule. -/
structure Stripped (B : Backend) (a b : Value) : Prop where
  canary : weights B .canary b = []
  stable : weights B .stable b = (weights B .stable a).map (fun _ => some (.num 100))
  others : Settled B a → others B b = others B a
  outside : SameOutside B a b

theorem Settled.congr (hothers : others B b = others B a) (h : Settled B a) : Settled B b := by
  intro hreset d hd
  rw [hothers] at hd
  exact h hreset d hd

theorem Stripped.trans (hab : Stripped B a b) (hbc : Stripped B b c) : Stripped B a c where
  canary := hbc.canary
  stable := by
    rw [hbc.stable, hab.stable, map_map]
    rfl
  others h := (hbc.others (h.congr (hab.others h))).trans (hab.others h)
  outside := hab.outside.trans hbc.outside

theorem Stripped.of_empty (h : entriesOf B a = []) : Stripped B a a := by
  refine ⟨?_, ?_, fun _ => rfl, SameOutside.refl a⟩
  · rw [weights, h]
    rfl
  · rw [weights, h]
    rfl

theorem keepEntry_of_settled (h : Settled B a) (he : e ∈ others B a) : keepEntry B e = e := by
  cases e with
  | obj d =>
    have hs : serviceOf B (.obj d) = none := by simpa [others, othersIn] using (mem_filter.mp he).2
    rw [keepEntry, hs]
    split
    · next hreset => rw [setField_eq_self (h hreset d he)]
    · rfl
  | null | bool | num | str | arr => rfl

theorem stripRule_rel {modified : Bool} (h : stripRule B a = .ok (b, modified)) : Stripped B a b := by
  cases a with
  | obj rule =>
    simp only [stripRule] at h
    split at h
    · next entries hents =>
      have hold : entriesOf B (.obj rule) = entries := by simp [entriesOf, hents]
      cases hkeep : keepEntries B entries with
      | error e =>
        rw [hkeep] at h
        cases h
      | ok keep =>
      rw [hkeep] at h
      cases h
      have hnew : entriesOf B (.obj (setField B.key (if keep.isEmpty then .null else .arr keep) rule)) = keep := by
        rw [entriesOf_setField]
        cases keep <;> rfl
      obtain ⟨hcanary, hstable⟩ := weightsIn_keepEntries hkeep
      refine ⟨?_, ?_, ?_, sameOutside_setField _ _⟩
      · rw [weights, hnew]
        exact hcanary
      · rw [weights, weights, hnew, hold]
        exact hstable
      · intro hset
        rw [others, hnew, othersIn_keepEntries hkeep, ← hold]
        calc (othersIn B (entriesOf B (.obj rule))).map (keepEntry B)
            = (othersIn B (entriesOf B (.obj rule))).map id :=
              map_congr_left (fun e he => keepEntry_of_settled hset he)
          _ = others B (.obj rule) := map_id _
    · next hents =>
      cases h
      apply Stripped.of_empty
      exact entriesOf_of_no_list hents
  | null | bool | num | str | arr =>
    cases h
    exact Stripped.of_empty rfl

/-- Every entry of the rule can be read. -/
def Readable (B : Backend) (rule : Value) : Prop := ∀ d, .obj d ∈ entriesOf B rule → ∃ s, B.service d = .ok s

theorem keepEntries_ok (h : ∀ d, .obj d ∈ entries → ∃ s, B.service d = .ok s) :
    ∃ keep, keepEntries B entries = .ok keep ∧ ∀ d, .obj d ∈ keep → ∃ s, B.service d = .ok s := by
  induction entries with
  | nil => exact ⟨[], rfl, by simp⟩
  | cons e rest ih =>
    obtain ⟨keep, hkeep, hread⟩ := ih (fun d hd => h d (mem_cons_of_mem e hd))
    cases e with
    | obj d =>
      obtain ⟨s, hs⟩ := h d mem_cons_self
      simp only [keepEntries, hs, hkeep]
      have hcons : ∀ d', (∃ t, B.service d' = .ok t) → ∀ d'', Value.obj d'' ∈ Value.obj d' :: keep →
          ∃ t, B.service d'' = .ok t := by
        intro d' hd' d'' hmem
        obtain heq | hmem := mem_cons.mp hmem
        · cases heq
          exact hd'
        · exact hread d'' hmem
      have hreset : ∃ t, B.service (if B.resets s then setField "weight" (.num 100) d else d) = .ok t := by
        split
        · exact ⟨s, by rw [B.service_weight, hs]⟩
        · exact ⟨s, hs⟩
      cases s with
      | none => exact ⟨_, rfl, hcons _ hreset⟩
      | some s =>
        cases s with
        | canary => exact ⟨keep, rfl, hread⟩
        | stable => exact ⟨_, rfl, hcons _ hreset⟩
    | null | bool | num | str | arr =>
      simp only [keepEntries, hkeep]
      refine ⟨_, rfl, ?_⟩
      intro d hd
      exact hread d (by simpa using hd)

theorem stripRule_ok (h : Readable B a) : ∃ b modified, stripRule B a = .ok (b, modified) ∧ Readable B b := by
  cases a with
  | obj rule =>
    simp only [stripRule]
    split
    · next entries hents =>
      have hold : entriesOf B (.obj rule) = entries := by simp [entriesOf, hents]
      rw [Readable, hold] at h
      obtain ⟨keep, hkeep, hread⟩ := keepEntries_ok h
      rw [hkeep]
      refine ⟨_, _, rfl, ?_⟩
      have hnew : entriesOf B (.obj (setField B.key (if keep.isEmpty then .null else .arr keep) rule)) = keep := by
        rw [entriesOf_setField]
        cases keep <;> rfl
      rw [Readable, hnew]
      exact hread
    · exact ⟨_, _, rfl, h⟩
  | null | bool | num | str | arr => exact ⟨_, _, rfl, h⟩
end

end Paprika.Traffic
