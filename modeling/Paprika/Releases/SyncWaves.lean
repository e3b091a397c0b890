import Mathlib.Data.List.Dedup
import Mathlib.Data.List.Sort
import Paprika.Lib.Run
import Paprika.Lib.Text

/-!
# Sync waves

`applyAllDocuments` of `release_controller.go` with its waves: every pass applies the waves from the lowest, and between
two waves waits for the documents of the lower one to be healthy.  How long a gate has waited is measured from a stamp
on the Release.  All gates share the stamp, and the success of any of them clears it.

`sync_waves`: in every pass a document is applied only after the documents of lower waves have been found healthy, and
a gate that has been pending for the timeout fails, provided that the first gate finds no stamp when it begins to wait,
no later gate waits as long as the timeout, and the reads and writes of the Release go through.
-/

namespace Paprika.Releases

open Lib.Run Lib.Text List

/-- A parsed document; its place in the manifests tells it from others of the same name. -/
structure WaveDocument where
  position : Nat
  kind : String
  name : String
  annotations : List (String × String)
  deriving DecidableEq, Repr

def syncWaveAnnotation : String := "paprika.io/sync-wave"

def argoSyncWaveAnnotation : String := "argocd.argoproj.io/sync-wave"

def hasSyncWaveAnnotation (docs : List WaveDocument) : Bool :=
  docs.any (fun d =>
    (d.annotations.lookup syncWaveAnnotation).isSome || (d.annotations.lookup argoSyncWaveAnnotation).isSome)

/-- `syncWaveOf`; `none` is a malformed value. -/
def syncWaveOf (d : WaveDocument) : Option Int :=
  let own := (d.annotations.lookup syncWaveAnnotation).getD ""
  let raw := if own = "" then (d.annotations.lookup argoSyncWaveAnnotation).getD "" else own
  if raw = "" then some 0 else atoi (trimSpace raw.toList)

def waveNumbers (docs : List WaveDocument) : List Int := (docs.filterMap syncWaveOf).dedup.insertionSort (· ≤ ·)

/-- `groupBySyncWave`; a malformed value fails. -/
def groupBySyncWave (docs : List WaveDocument) : Option (List (List WaveDocument)) :=
  if docs.all (fun d => (syncWaveOf d).isSome) then
    some ((waveNumbers docs).map (fun w => docs.filter (fun d => syncWaveOf d == some w)))
  else none

/-! ### One pass -/

/-- How `applyDocument` ends: a document that it does not know how to apply, or fails to replace, is skipped. -/
inductive ApplyOutcome
  | applied | skipped | failed
  deriving DecidableEq, Repr

/-- What a gate finds of a document: `getLiveObject` and `AssessObject`. -/
inductive Found
  | error | missing | healthy | degraded | other
  deriving DecidableEq, Repr

/-- What a pass is told: by document, and by gate whether the Release can be read and patched. -/
structure WavePass where
  now : Int
  apply : WaveDocument → ApplyOutcome
  found : WaveDocument → Found
  readable : Nat → Bool
  patched : Nat → Bool

inductive WaveAction
  | applied (d : WaveDocument)
  | healthy (d : WaveDocument)
  deriving DecidableEq, Repr

/-- How a pass ends; gates are counted from the lowest wave. -/
inductive WaveResult
  | done
  | failed
  | pending (gate : Nat)
  | timedOut (gate : Nat)
  deriving DecidableEq, Repr

/-- The annotation `paprika.io/wave-gate-started`; times are written in whole seconds and read in nanoseconds. -/
inductive Stamp
  | time (seconds : Int)
  | malformed
  deriving DecidableEq, Repr

def second : Int := 1000000000

/-- The documents of a wave are applied; whether none of them has failed. -/
def applyWave (p : WavePass) : List WaveDocument → List WaveAction × Bool
  | [] => ([], true)
  | d :: ds =>
    match p.apply d with
    | .failed => ([], false)
    | .skipped => applyWave p ds
    | .applied => (.applied d :: (applyWave p ds).1, (applyWave p ds).2)

inductive GateHealth
  | healthy | pending | failed
  deriving DecidableEq, Repr

/-- The loop of `gateSyncWave`. -/
def gateObjects (p : WavePass) : List WaveDocument → List WaveAction × GateHealth
  | [] => ([], .healthy)
  | d :: ds =>
    match p.found d with
    | .error | .degraded => ([], .failed)
    | .missing | .other => ((gateObjects p ds).1, if (gateObjects p ds).2 = .failed then .failed else .pending)
    | .healthy => (.healthy d :: (gateObjects p ds).1, (gateObjects p ds).2)

def clearWaveGateStamp (p : WavePass) (gate : Nat) (stamp : Option Stamp) : Option Stamp :=
  if p.readable gate && p.patched gate then none else stamp

def stampWaveGate (p : WavePass) (gate : Nat) (stamp : Option Stamp) : Option Stamp :=
  if p.patched gate then some (.time (p.now / second)) else stamp

def syncWavePendingOrTimeout (timeout : Int) (p : WavePass) (gate : Nat) (stamp : Option Stamp) :
    Option Stamp × WaveResult :=
  if !p.readable gate then (stamp, .pending gate)
  else if timeout = 0 then (stamp, .pending gate)
  else
    match stamp with
    | none | some .malformed => (stampWaveGate p gate stamp, .pending gate)
    | some (.time since) =>
      if timeout < p.now - since * second then (stamp, .timedOut gate) else (stamp, .pending gate)

def applyBySyncWaves (timeout : Int) (p : WavePass) :
    Nat → List (List WaveDocument) → Option Stamp → List WaveAction × Option Stamp × WaveResult
  | _, [], stamp => ([], stamp, .done)
  | _, [wave], stamp => ((applyWave p wave).1, stamp, if (applyWave p wave).2 then .done else .failed)
  | gate, wave :: next :: waves, stamp =>
    if !(applyWave p wave).2 then ((applyWave p wave).1, stamp, .failed)
    else
      match (gateObjects p wave).2 with
      | .failed => ((applyWave p wave).1 ++ (gateObjects p wave).1, stamp, .failed)
      | .pending => ((applyWave p wave).1 ++ (gateObjects p wave).1, syncWavePendingOrTimeout timeout p gate stamp)
      | .healthy =>
        let rest := applyBySyncWaves timeout p (gate + 1) (next :: waves) (clearWaveGateStamp p gate stamp)
        ((applyWave p wave).1 ++ (gateObjects p wave).1 ++ rest.1, rest.2)

/-- The waves of `applyAllDocuments`: without annotations all documents are one. -/
def waves (docs : List WaveDocument) : Option (List (List WaveDocument)) :=
  if hasSyncWaveAnnotation docs then groupBySyncWave docs else some [docs]

def applyAllDocuments (timeout : Int) (p : WavePass) (docs : List WaveDocument) (stamp : Option Stamp) :
    List WaveAction × Option Stamp × WaveResult :=
  match waves docs with
  | some ws => applyBySyncWaves timeout p 0 ws stamp
  | none => ([], stamp, .failed)

/-! ### Attempts -/

/-- The stamp on the Release; whether it is in an attempt; and the gate that has been pending in every pass of the
attempt since a pass at a time. -/
structure WaveAttempt where
  stamp : Option Stamp
  active : Bool
  streak : Option (Nat × Int)
  deriving DecidableEq, Repr

/-- A Release in its first attempt. -/
def WaveAttempt.create : WaveAttempt := { stamp := none, active := true, streak := none }

/-- A pass; the Release ends for another reason; a resync. -/
inductive WaveEvent
  | pass (p : WavePass)
  | finish
  | resync

/-- Since when the gate has been pending, if it was pending in the last pass. -/
def WaveAttempt.waitsSince (x : WaveAttempt) (gate : Nat) : Option Int :=
  x.streak.bind (fun s => if s.1 = gate then some s.2 else none)

def waveStep (timeout : Int) (docs : List WaveDocument) (x : WaveAttempt) : WaveEvent → WaveAttempt
  | .pass p =>
    if !x.active then x
    else
      let r := (applyAllDocuments timeout p docs x.stamp).2
      match r.2 with
      | .done => { stamp := r.1, active := true, streak := none }
      | .pending gate => { stamp := r.1, active := true, streak := some (gate, (x.waitsSince gate).getD p.now) }
      | .failed | .timedOut _ => { stamp := r.1, active := false, streak := none }
  | .finish => { x with active := false, streak := none }
  | .resync => if x.active then x else { x with active := true, streak := none }

def HealthyAfterApplied (d : WaveDocument) (h : List WaveAction) : Prop :=
  ∃ h₁ h₂ h₃, h = h₁ ++ .applied d :: h₂ ++ .healthy d :: h₃

/-- A document is applied only after the documents of lower waves have been found healthy. -/
def Ordered (docs : List WaveDocument) (h : List WaveAction) : Prop :=
  ∀ before d after, h = before ++ .applied d :: after → ∀ d' ∈ docs, ∀ w w', syncWaveOf d = some w →
    syncWaveOf d' = some w' → w' < w → HealthyAfterApplied d' before

/-- The gate has been pending in every pass since one at least the timeout ago. -/
def Due (timeout : Int) (x : WaveAttempt) (gate : Nat) (now : Int) : Prop :=
  timeout ≠ 0 ∧ ∃ since ∈ x.waitsSince gate, since + timeout ≤ now

/-- What a pass is to do: keep the order of the waves, and time out a gate if and only if it is due. -/
structure PassRight (timeout : Int) (docs : List WaveDocument) (x : WaveAttempt) (p : WavePass) : Prop where
  ordered : Ordered docs (applyAllDocuments timeout p docs x.stamp).1
  timedOut : ∀ gate, (applyAllDocuments timeout p docs x.stamp).2.2 = .timedOut gate → Due timeout x gate p.now
  pending : ∀ gate, (applyAllDocuments timeout p docs x.stamp).2.2 = .pending gate → ¬Due timeout x gate p.now

/-! ### The order of the waves -/

section
variable {timeout : Int} {p : WavePass} {docs : List WaveDocument}

theorem waveNumbers_sorted (docs : List WaveDocument) : (waveNumbers docs).Pairwise (· < ·) := by
  have hle : (waveNumbers docs).Pairwise (· ≤ ·) := pairwise_insertionSort _ _
  have hnd : (waveNumbers docs).Nodup := (perm_insertionSort _ _).nodup_iff.mpr (nodup_dedup _)
  exact (hle.and hnd).imp (fun h => lt_of_le_of_ne h.1 h.2)

theorem mem_waveNumbers {w : Int} : w ∈ waveNumbers docs ↔ ∃ d ∈ docs, syncWaveOf d = some w := by
  unfold waveNumbers
  rw [(perm_insertionSort _ _).mem_iff, mem_dedup, mem_filterMap]

variable {d : WaveDocument} {ds : List WaveDocument}

theorem mem_applyWave (h : .applied d ∈ (applyWave p ds).1) : d ∈ ds := by
  induction ds with
  | nil => cases h
  | cons e es ih =>
    unfold applyWave at h
    split at h
    · cases h
    · exact mem_cons_of_mem e (ih h)
    · obtain heq | h := mem_cons.mp h
      · injection heq with heq
        exact mem_cons.mpr (.inl heq)
      · exact mem_cons_of_mem e (ih h)

theorem applied_of_applyWave (hok : (applyWave p ds).2 = true) (hd : d ∈ ds)
    (hskip : p.apply d ≠ .skipped) : .applied d ∈ (applyWave p ds).1 := by
  induction ds with
  | nil => cases hd
  | cons e es ih =>
    unfold applyWave at hok ⊢
    cases happly : p.apply e with
    | failed => simp [happly] at hok
    | skipped =>
      simp only [happly] at hok ⊢
      obtain rfl | hd := mem_cons.mp hd
      · exact absurd happly hskip
      · exact ih hok hd
    | applied =>
      simp only [happly] at hok ⊢
      obtain rfl | hd := mem_cons.mp hd
      · exact mem_cons_self
      · exact mem_cons_of_mem _ (ih hok hd)

theorem applied_notMem_gateObjects : .applied d ∉ (gateObjects p ds).1 := by
  induction ds with
  | nil => exact not_mem_nil
  | cons e es ih =>
    unfold gateObjects
    split
    · exact not_mem_nil
    · exact not_mem_nil
    · exact ih
    · exact ih
    · simpa using ih

theorem healthy_of_gateObjects (hok : (gateObjects p ds).2 = .healthy)
    (hd : d ∈ ds) : p.found d = .healthy ∧ .healthy d ∈ (gateObjects p ds).1 := by
  induction ds with
  | nil => cases hd
  | cons e es ih =>
    unfold gateObjects at hok ⊢
    cases hfound : p.found e with
    | error | degraded => simp [hfound] at hok
    | missing | other =>
      simp only [hfound] at hok
      split at hok <;> cases hok
    | healthy =>
    simp only [hfound] at hok ⊢
    obtain rfl | hd := mem_cons.mp hd
    · exact ⟨hfound, mem_cons_self⟩
    · exact ⟨(ih hok hd).1, mem_cons_of_mem _ (ih hok hd).2⟩

/-- A document that has been applied in a part of the history and found healthy in a later one. -/
theorem healthyAfterApplied_append {a h rest : List WaveAction} (ha : .applied d ∈ a)
    (hh : .healthy d ∈ h) : HealthyAfterApplied d (a ++ h ++ rest) := by
  obtain ⟨a₁, a₂, rfl⟩ := append_of_mem ha
  obtain ⟨h₁, h₂, rfl⟩ := append_of_mem hh
  exact ⟨a₁, a₂ ++ h₁, h₂ ++ rest, by simp⟩

theorem HealthyAfterApplied.append_left {h : List WaveAction} (hd : HealthyAfterApplied d h)
    (a : List WaveAction) : HealthyAfterApplied d (a ++ h) := by
  obtain ⟨h₁, h₂, h₃, rfl⟩ := hd
  exact ⟨a ++ h₁, h₂, h₃, by simp⟩

def SkippedUnhealthy (p : WavePass) (ws : List (List WaveDocument)) : Prop :=
  ∀ wave ∈ ws.dropLast, ∀ d ∈ wave, p.apply d = .skipped → p.found d ≠ .healthy

/-- When a document is applied, it belongs to one of the waves, and all documents of the waves before that have been
found healthy. -/
theorem applied_applyBySyncWaves {before after : List WaveAction} :
    ∀ {ws : List (List WaveDocument)} {gate : Nat} {stamp : Option Stamp}, SkippedUnhealthy p ws →
      (applyBySyncWaves timeout p gate ws stamp).1 = before ++ .applied d :: after →
      ∃ lower wave higher, ws = lower ++ wave :: higher ∧ d ∈ wave ∧
        ∀ w ∈ lower, ∀ d' ∈ w, HealthyAfterApplied d' before := by
  intro ws
  induction ws generalizing before with
  | nil =>
    intro gate stamp _ h
    simp [applyBySyncWaves] at h
  | cons wave ws ih =>
    intro gate stamp hskipped h
    -- the document belongs to the first wave
    have hfirst : .applied d ∈ (applyWave p wave).1 → ∃ lower w higher, wave :: ws = lower ++ w :: higher ∧ d ∈ w ∧
        ∀ v ∈ lower, ∀ d' ∈ v, HealthyAfterApplied d' before :=
      fun hmem => ⟨[], wave, ws, rfl, mem_applyWave hmem, fun v hv => nomatch hv⟩
    -- the history ends at the gate of the first wave
    have hgate : (applyWave p wave).1 ++ (gateObjects p wave).1 = before ++ .applied d :: after →
        .applied d ∈ (applyWave p wave).1 := by
      intro h
      have hmem : .applied d ∈ (applyWave p wave).1 ++ (gateObjects p wave).1 := by
        rw [h]
        simp
      exact (mem_append.mp hmem).resolve_right applied_notMem_gateObjects
    cases ws with
    | nil =>
      apply hfirst
      show .applied d ∈ (applyWave p wave).1
      have h' : (applyWave p wave).1 = before ++ .applied d :: after := h
      rw [h']
      simp
    | cons next ws =>
    unfold applyBySyncWaves at h
    split at h
    · apply hfirst
      simp only at h
      rw [h]
      simp
    · next hok =>
      have hok : (applyWave p wave).2 = true := by simpa using hok
      split at h
      · exact hfirst (hgate h)
      · exact hfirst (hgate h)
      · next hhealthy =>
        simp only at h
        by_cases hmem : .applied d ∈ (applyWave p wave).1
        · exact hfirst hmem
        · -- the document is applied behind the gate
          obtain ⟨front, hpre, hrest⟩ : ∃ front, before = (applyWave p wave).1 ++ (gateObjects p wave).1 ++ front ∧
              (applyBySyncWaves timeout p (gate + 1) (next :: ws) (clearWaveGateStamp p gate stamp)).1 =
                front ++ .applied d :: after := by
            obtain ⟨front, hfront, hrest⟩ | ⟨back, hback, hrest⟩ := append_eq_append_iff.mp h
            · exact ⟨front, hfront, hrest⟩
            cases back with
            | nil => exact ⟨[], by simpa using hback.symm, by simpa using hrest.symm⟩
            | cons b back =>
            obtain ⟨rfl, -⟩ := List.cons.inj hrest
            have hin : .applied d ∈ (applyWave p wave).1 ++ (gateObjects p wave).1 := by
              rw [hback]
              simp
            exact absurd ((mem_append.mp hin).resolve_right applied_notMem_gateObjects) hmem
          have hskip' : SkippedUnhealthy p (next :: ws) := by
            intro w hw
            exact hskipped w (mem_cons_of_mem wave hw)
          obtain ⟨lower, w, higher, hws, hd, hlower⟩ := ih hskip' hrest
          refine ⟨wave :: lower, w, higher, by rw [hws]; rfl, hd, ?_⟩
          intro v hv d' hd'
          rw [hpre]
          obtain rfl | hv := mem_cons.mp hv
          · obtain ⟨hfound, hhealthymem⟩ := healthy_of_gateObjects hhealthy hd'
            have hskip : p.apply d' ≠ .skipped :=
              fun hs => hskipped v mem_cons_self d' hd' hs hfound
            exact healthyAfterApplied_append (applied_of_applyWave hok hd' hskip) hhealthymem
          · exact (hlower v hv d' hd').append_left _

theorem groupBySyncWave_some {ws : List (List WaveDocument)} (h : groupBySyncWave docs = some ws) :
    ws = (waveNumbers docs).map (fun w => docs.filter (fun d => syncWaveOf d == some w)) := by
  unfold groupBySyncWave at h
  split at h
  · exact (Option.some.inj h).symm
  · cases h

theorem syncWaveOf_eq_zero (h : hasSyncWaveAnnotation docs = false) (hd : d ∈ docs) : syncWaveOf d = some 0 := by
  have hnone : d.annotations.lookup syncWaveAnnotation = none ∧ d.annotations.lookup argoSyncWaveAnnotation = none := by
    have hd' := any_eq_false.mp h d hd
    simp only [Bool.or_eq_true, not_or, Bool.not_eq_true, Option.isSome_eq_false_iff, Option.isNone_iff_eq_none] at hd'
    exact hd'
  simp [syncWaveOf, hnone.1, hnone.2]

def SkipsHarmless (docs : List WaveDocument) (p : WavePass) : Prop :=
  ∀ d ∈ docs, p.apply d = .skipped → p.found d = .healthy → ∀ d' ∈ docs, ∀ w ∈ syncWaveOf d, ∀ w' ∈ syncWaveOf d',
    w' ≤ w

theorem SkipsHarmless.groups (h : SkipsHarmless docs p) {ws : List (List WaveDocument)}
    (hws : groupBySyncWave docs = some ws) : SkippedUnhealthy p ws := by
  intro wave hwave d hd hskip hfound
  rw [groupBySyncWave_some hws, ← map_dropLast] at hwave
  obtain ⟨w, hw, rfl⟩ := mem_map.mp hwave
  obtain ⟨hmem, hd⟩ := mem_filter.mp hd
  have hd : syncWaveOf d = some w := by simpa using hd
  have hne : waveNumbers docs ≠ [] := by
    intro hnil
    rw [hnil] at hw
    cases hw
  -- the last wave is above, and it is there because of a document
  obtain ⟨d', hmem', hlast⟩ := mem_waveNumbers.mp (getLast_mem hne)
  have hsplit := dropLast_append_getLast hne
  have hsort := waveNumbers_sorted docs
  rw [← hsplit] at hsort
  have hlt := (pairwise_append.mp hsort).2.2 w hw _ (mem_singleton.mpr rfl)
  exact absurd (h d hmem hskip hfound d' hmem' w hd _ hlast) (not_le.mpr hlt)

/-- **The order of the waves.**  In every pass a document is applied only after the documents of lower waves have been
applied and found healthy. -/
theorem ordered_applyAllDocuments (h : SkipsHarmless docs p) (stamp : Option Stamp) :
    Ordered docs (applyAllDocuments timeout p docs stamp).1 := by
  intro before d after hhist d' hd' w w' hw hw' hlt
  unfold applyAllDocuments waves at hhist
  cases hannotated : hasSyncWaveAnnotation docs with
  | false =>
    rw [hannotated] at hhist
    have hmem : .applied d ∈ (applyWave p docs).1 := by
      have hhist' : (applyWave p docs).1 = before ++ .applied d :: after := hhist
      rw [hhist']
      simp
    rw [syncWaveOf_eq_zero hannotated (mem_applyWave hmem)] at hw
    rw [syncWaveOf_eq_zero hannotated hd'] at hw'
    obtain rfl := Option.some.inj hw
    obtain rfl := Option.some.inj hw'
    exact absurd hlt (lt_irrefl _)
  | true =>
    rw [hannotated] at hhist
    simp only [if_true] at hhist
    cases hgroups : groupBySyncWave docs with
    | none => simp [hgroups] at hhist
    | some ws =>
    simp only [hgroups] at hhist
    obtain ⟨lower, wave, higher, hsplit, hd, hlower⟩ := applied_applyBySyncWaves (h.groups hgroups) hhist
    rw [groupBySyncWave_some hgroups] at hsplit
    obtain ⟨below, above, hnumbers, rfl, habove⟩ := map_eq_append_iff.mp hsplit
    obtain ⟨v, higherNumbers, rfl, rfl, -⟩ := map_eq_cons_iff.mp habove
    obtain ⟨-, hd⟩ := mem_filter.mp hd
    have hv : some w = some v := by rw [← hw]; simpa using hd
    obtain rfl := Option.some.inj hv
    have hsort := waveNumbers_sorted docs
    have hmem : w' ∈ waveNumbers docs := mem_waveNumbers.mpr ⟨d', hd', hw'⟩
    rw [hnumbers] at hsort hmem
    have hbelow : w' ∈ below := by
      obtain hmem | hmem := mem_append.mp hmem
      · exact hmem
      · obtain rfl | hmem := mem_cons.mp hmem
        · exact absurd hlt (lt_irrefl _)
        · have hgt := (pairwise_cons.mp (pairwise_append.mp hsort).2.1).1 w' hmem
          omega
    refine hlower _ (mem_map.mpr ⟨w', hbelow, rfl⟩) d' (mem_filter.mpr ⟨hd', ?_⟩)
    rw [hw']
    exact beq_self_eq_true _
end

/-! ### The gates in time -/

/-- The gate at which the pass has to wait, if it comes to one: the lower waves have been applied and are healthy, and
its own is not yet. -/
def waitingGate (p : WavePass) : Nat → List (List WaveDocument) → Option Nat
  | _, [] => none
  | _, [_] => none
  | gate, wave :: next :: waves =>
    if !(applyWave p wave).2 then none
    else
      match (gateObjects p wave).2 with
      | .failed => none
      | .pending => some gate
      | .healthy => waitingGate p (gate + 1) (next :: waves)

def waitsAt (p : WavePass) (docs : List WaveDocument) : Option Nat := (waves docs).bind (waitingGate p 0)

section
variable {timeout : Int} {p : WavePass} {docs : List WaveDocument}

def clearedFrom (p : WavePass) (gate : Nat) : Nat → Option Stamp → Option Stamp
  | 0, stamp => stamp
  | n + 1, stamp => clearedFrom p (gate + 1) n (clearWaveGateStamp p gate stamp)

theorem clearedFrom_none (gate n : Nat) : clearedFrom p gate n none = none := by
  induction n generalizing gate with
  | zero => rfl
  | succ n ih =>
    unfold clearedFrom clearWaveGateStamp
    rw [ite_self]
    exact ih (gate + 1)

variable {gate : Nat} {x : WaveAttempt}

theorem clearedFrom_of_cleared {n : Nat} {stamp : Option Stamp}
    (h : ∃ i, gate ≤ i ∧ i < gate + n ∧ p.readable i = true ∧ p.patched i = true) :
    clearedFrom p gate n stamp = none := by
  induction n generalizing gate stamp with
  | zero =>
    obtain ⟨i, h1, h2, -⟩ := h
    omega
  | succ n ih =>
    obtain ⟨i, h1, h2, hread, hpatch⟩ := h
    unfold clearedFrom
    by_cases heq : i = gate
    · subst heq
      have hclear : clearWaveGateStamp p i stamp = none := by simp [clearWaveGateStamp, hread, hpatch]
      rw [hclear, clearedFrom_none]
    · exact ih ⟨i, by omega, by omega, hread, hpatch⟩

/-- **A pass.**  It waits or times out at its gate, with the stamp that is left of the gates before that; without a gate
it does neither. -/
theorem applyBySyncWaves_result : ∀ (ws : List (List WaveDocument)) (gate : Nat) (stamp : Option Stamp),
    (∃ n, waitingGate p gate ws = some (gate + n) ∧ (applyBySyncWaves timeout p gate ws stamp).2 =
      syncWavePendingOrTimeout timeout p (gate + n) (clearedFrom p gate n stamp)) ∨
    (waitingGate p gate ws = none ∧ ((applyBySyncWaves timeout p gate ws stamp).2.2 = .done ∨
      (applyBySyncWaves timeout p gate ws stamp).2.2 = .failed)) := by
  intro ws
  induction ws with
  | nil => exact fun gate stamp => .inr ⟨rfl, .inl rfl⟩
  | cons wave ws ih =>
    intro gate stamp
    cases ws with
    | nil =>
      refine .inr ⟨rfl, ?_⟩
      show (if (applyWave p wave).2 = true then WaveResult.done else WaveResult.failed) = .done ∨
        (if (applyWave p wave).2 = true then WaveResult.done else WaveResult.failed) = .failed
      split
      · exact .inl rfl
      · exact .inr rfl
    | cons next ws =>
    unfold waitingGate applyBySyncWaves
    split
    · exact .inr ⟨rfl, .inr rfl⟩
    split
    · exact .inr ⟨rfl, .inr rfl⟩
    · exact .inl ⟨0, rfl, rfl⟩
    · obtain ⟨n, hgate, hres⟩ | ⟨hgate, hres⟩ := ih (gate + 1) (clearWaveGateStamp p gate stamp)
      · refine .inl ⟨n + 1, ?_, ?_⟩
        · rw [hgate]
          congr 1
          omega
        · rw [show gate + (n + 1) = gate + 1 + n by omega]
          exact hres
      · exact .inr ⟨hgate, hres⟩

theorem applyAllDocuments_result (timeout : Int) (stamp : Option Stamp) :
    (∃ gate, waitsAt p docs = some gate ∧ (applyAllDocuments timeout p docs stamp).2 =
      syncWavePendingOrTimeout timeout p gate (clearedFrom p 0 gate stamp)) ∨
    (waitsAt p docs = none ∧ ((applyAllDocuments timeout p docs stamp).2.2 = .done ∨
      (applyAllDocuments timeout p docs stamp).2.2 = .failed)) := by
  unfold waitsAt applyAllDocuments
  cases hwaves : waves docs with
  | none => exact .inr ⟨rfl, .inr rfl⟩
  | some ws =>
  obtain ⟨n, hgate, hres⟩ | h := applyBySyncWaves_result (p := p) ws 0 stamp
  · rw [Nat.zero_add] at hgate hres
    exact .inl ⟨n, hgate, hres⟩
  · exact .inr h

theorem syncWavePendingOrTimeout_time (hread : p.readable gate = true) (htimeout : timeout ≠ 0)
    (seconds : Int) : syncWavePendingOrTimeout timeout p gate (some (.time seconds)) = (some (.time seconds),
        if timeout < p.now - seconds * second then WaveResult.timedOut gate else WaveResult.pending gate) := by
  unfold syncWavePendingOrTimeout
  rw [hread, if_neg (by decide), if_neg htimeout]
  show (if timeout < p.now - seconds * second then (some (Stamp.time seconds), WaveResult.timedOut gate)
    else (some (Stamp.time seconds), WaveResult.pending gate)) = _
  split <;> rfl

theorem syncWavePendingOrTimeout_begins (hread : p.readable gate = true) (htimeout : timeout ≠ 0)
    {stamp : Option Stamp} (hstamp : ∀ seconds, stamp ≠ some (.time seconds)) :
    syncWavePendingOrTimeout timeout p gate stamp = (stampWaveGate p gate stamp, .pending gate) := by
  unfold syncWavePendingOrTimeout
  rw [hread, if_neg (by decide), if_neg htimeout]
  split
  · rfl
  · rfl
  · next seconds => exact absurd rfl (hstamp seconds)

/-- What a pass of an attempt has to meet: no document of a lower wave is skipped and nevertheless found healthy; and the
stamps of the gates it waits at are its own. -/
structure Timely (timeout : Int) (docs : List WaveDocument) (x : WaveAttempt) (p : WavePass) : Prop where
  skips : SkipsHarmless docs p
  release : timeout ≠ 0 → ∀ gate ∈ waitsAt p docs, p.readable gate = true ∧ p.patched gate = true
  begins : timeout ≠ 0 → waitsAt p docs = some 0 → x.waitsSince 0 = none → ∀ s ∈ x.stamp, s = .malformed
  first : timeout ≠ 0 → waitsAt p docs = some 0 → ∀ since ∈ x.waitsSince 0,
    (since + timeout ≤ p.now ↔ timeout < p.now - since / second * second)
  later : timeout ≠ 0 → ∀ gate ∈ waitsAt p docs, 0 < gate →
    (List.range gate).any (fun i => p.readable i && p.patched i) = true ∧
      ∀ since ∈ x.waitsSince gate, p.now < since + timeout

/-- The events of a run: every pass of an attempt is timely. -/
def TimelyEvent (timeout : Int) (docs : List WaveDocument) (x : WaveAttempt) : WaveEvent → Prop
  | .pass p => x.active = true → Timely timeout docs x p
  | .finish | .resync => True

/-- While the first gate waits, the stamp is of the pass in which it began. -/
def WaveInv (timeout : Int) (x : WaveAttempt) : Prop :=
  timeout ≠ 0 → ∀ since ∈ x.waitsSince 0, x.stamp = some (.time (since / second))

/-- The stamp a gate finds: the first gate that of the pass in which it began to wait, if it has been waiting, and
otherwise none. -/
theorem timely_gate (h : WaveInv timeout x) (ht : Timely timeout docs x p) (htimeout : timeout ≠ 0) (hgate : waitsAt p docs = some gate) :
    (∃ since ∈ x.waitsSince gate, (since + timeout ≤ p.now ↔ timeout < p.now - since / second * second) ∧
      gate = 0 ∧ clearedFrom p 0 gate x.stamp = some (.time (since / second))) ∨
    ((∀ since ∈ x.waitsSince gate, p.now < since + timeout) ∧ (gate = 0 → x.waitsSince 0 = none) ∧
      ∀ seconds, clearedFrom p 0 gate x.stamp ≠ some (.time seconds)) := by
  cases gate with
  | zero =>
    cases hwaits : x.waitsSince 0 with
    | some since => exact .inl ⟨since, rfl, ht.first htimeout hgate since hwaits, rfl, h htimeout since hwaits⟩
    | none =>
      refine .inr ⟨(fun since hsince => nomatch hsince), fun _ => rfl, fun seconds hstamp => ?_⟩
      have hmalformed := ht.begins htimeout hgate hwaits _ hstamp
      cases hmalformed
  | succ gate =>
  obtain ⟨hcleared, hlate⟩ := ht.later htimeout (gate + 1) hgate (Nat.succ_pos gate)
  simp only [any_eq_true, mem_range, Bool.and_eq_true] at hcleared
  obtain ⟨i, hi, hread, hpatch⟩ := hcleared
  refine .inr ⟨hlate, (fun hzero => nomatch hzero), fun seconds hstamp => ?_⟩
  rw [clearedFrom_of_cleared ⟨i, Nat.zero_le i, by omega, hread, hpatch⟩] at hstamp
  cases hstamp

/-- **What a timely pass does is right.** -/
theorem Timely.right (ht : Timely timeout docs x p) (h : WaveInv timeout x) : PassRight timeout docs x p := by
  have hres : ∀ gate, ((applyAllDocuments timeout p docs x.stamp).2.2 = .timedOut gate → Due timeout x gate p.now) ∧
      ((applyAllDocuments timeout p docs x.stamp).2.2 = .pending gate → ¬Due timeout x gate p.now) := by
    intro gate
    obtain ⟨g, hgate, hend⟩ | ⟨-, hend | hend⟩ := applyAllDocuments_result _ x.stamp
    · rw [hend]
      by_cases htimeout : timeout = 0
      · subst htimeout
        have hpend : (syncWavePendingOrTimeout 0 p g (clearedFrom p 0 g x.stamp)).2 = .pending g := by
          unfold syncWavePendingOrTimeout
          split
          · rfl
          · rfl
        rw [hpend]
        exact ⟨nofun, fun _ hdue => hdue.1 rfl⟩
      · have hread := (ht.release htimeout g hgate).1
        obtain ⟨since, hsince, hexact, rfl, hstamp⟩ | ⟨hlate, -, hstamp⟩ := timely_gate h ht htimeout hgate
        · rw [hstamp, syncWavePendingOrTimeout_time hread htimeout]
          simp only
          split
          · next hlt =>
            refine ⟨fun heq => ?_, nofun⟩
            injection heq with heq
            subst heq
            exact ⟨htimeout, since, hsince, hexact.mpr hlt⟩
          · next hlt =>
            refine ⟨nofun, fun heq hdue => ?_⟩
            injection heq with heq
            subst heq
            obtain ⟨-, since', hsince', hdue⟩ := hdue
            obtain rfl := Option.some.inj (hsince.symm.trans hsince')
            exact hlt (hexact.mp hdue)
        · rw [syncWavePendingOrTimeout_begins hread htimeout hstamp]
          refine ⟨nofun, fun heq hdue => ?_⟩
          injection heq with heq
          subst heq
          obtain ⟨-, since, hsince, hdue⟩ := hdue
          have hlt := hlate since hsince
          omega
    · rw [hend]
      exact ⟨nofun, nofun⟩
    · rw [hend]
      exact ⟨nofun, nofun⟩
  exact
    { ordered := ordered_applyAllDocuments ht.skips x.stamp
      timedOut := fun gate => (hres gate).1
      pending := fun gate => (hres gate).2 }

/-- **One step keeps the invariant.** -/
theorem WaveInv.step (h : WaveInv timeout x) {e : WaveEvent} (he : TimelyEvent timeout docs x e) :
    WaveInv timeout (waveStep timeout docs x e) := by
  cases e with
  | finish => exact fun _ since hsince => nomatch hsince
  | resync =>
    simp only [waveStep]
    split
    · exact h
    · exact fun _ since hsince => nomatch hsince
  | pass p =>
  simp only [waveStep]
  cases hactive : x.active with
  | false => exact h
  | true =>
  have ht := he hactive
  simp only [Bool.not_true, Bool.false_eq_true, if_false]
  split
  · exact fun _ since hsince => nomatch hsince
  · next gate hpend =>
    intro htimeout since hsince
    obtain ⟨rfl, hsince⟩ : gate = 0 ∧ (x.waitsSince gate).getD p.now = since := by
      simpa [WaveAttempt.waitsSince] using hsince
    obtain ⟨g, hgate, hend⟩ | ⟨-, hend | hend⟩ := applyAllDocuments_result timeout x.stamp
    · rw [hend] at hpend ⊢
      obtain ⟨hread, hpatch⟩ := ht.release htimeout g hgate
      obtain ⟨since', hsince', -, rfl, hstamp⟩ | ⟨hlate, hbegins, hstamp⟩ := timely_gate h ht htimeout hgate
      · rw [hstamp, syncWavePendingOrTimeout_time hread htimeout]
        have hsame : since' = since := by
          rw [← hsince, show x.waitsSince 0 = some since' from hsince']
          rfl
        rw [hsame]
      rw [syncWavePendingOrTimeout_begins hread htimeout hstamp] at hpend ⊢
      injection hpend with hzero
      subst hzero
      rw [hbegins rfl] at hsince
      simp only [stampWaveGate, hpatch, if_true]
      rw [← hsince]
      rfl
    · rw [hend] at hpend
      cases hpend
    · rw [hend] at hpend
      cases hpend
  · exact fun _ since hsince => nomatch hsince
  · exact fun _ since hsince => nomatch hsince
end

/-- **Sync waves**, of a Release whose passes are timely. -/
theorem sync_waves (timeout : Int) (docs : List WaveDocument) (es : List WaveEvent)
    (h : Guarded (waveStep timeout docs) (TimelyEvent timeout docs) .create es) (before : List WaveEvent) (p : WavePass)
    (after : List WaveEvent) (hes : es = before ++ .pass p :: after)
    (hactive : (run (waveStep timeout docs) .create before).active = true) :
    PassRight timeout docs (run (waveStep timeout docs) .create before) p := by
  subst hes
  obtain ⟨hbefore, hpass, -⟩ := guarded_append.mp h
  have hinv : WaveInv timeout (run (waveStep timeout docs) .create before) := by
    refine guarded_invariant (motive := WaveInv timeout) (fun x e hx he => hx.step he) ?_ hbefore
    exact fun _ since hsince => nomatch hsince
  exact (hpass hactive).right hinv

section

set_option synthInstance.maxSize 400 in
instance (timeout : Int) (docs : List WaveDocument) (x : WaveAttempt) (p : WavePass) :
    Decidable (Timely timeout docs x p) :=
  decidable_of_iff
    ((∀ d ∈ docs, p.apply d = .skipped → p.found d = .healthy → ∀ d' ∈ docs, ∀ w ∈ syncWaveOf d, ∀ w' ∈ syncWaveOf d',
        w' ≤ w) ∧
      (timeout ≠ 0 → ∀ gate ∈ waitsAt p docs, p.readable gate = true ∧ p.patched gate = true) ∧
      (timeout ≠ 0 → waitsAt p docs = some 0 → x.waitsSince 0 = none → ∀ s ∈ x.stamp, s = .malformed) ∧
      (timeout ≠ 0 → waitsAt p docs = some 0 → ∀ since ∈ x.waitsSince 0,
        (since + timeout ≤ p.now ↔ timeout < p.now - since / second * second)) ∧
      (timeout ≠ 0 → ∀ gate ∈ waitsAt p docs, 0 < gate →
        (List.range gate).any (fun i => p.readable i && p.patched i) = true ∧
          ∀ since ∈ x.waitsSince gate, p.now < since + timeout))
    ⟨fun h => ⟨h.1, h.2.1, h.2.2.1, h.2.2.2.1, h.2.2.2.2⟩, fun h => ⟨h.skips, h.release, h.begins, h.first, h.later⟩⟩

instance (timeout : Int) (docs : List WaveDocument) (x : WaveAttempt) (e : WaveEvent) :
    Decidable (TimelyEvent timeout docs x e) :=
  match e with
  | .pass .. => inferInstanceAs (Decidable (_ → _))
  | .finish | .resync => .isTrue trivial

def waveDocument (position : Nat) (wave : String) : WaveDocument :=
  { position := position, kind := "Deployment", name := "app-" ++ wave, annotations := [( syncWaveAnnotation, wave)] }

def threeWaves : List WaveDocument := [waveDocument 0 "0", waveDocument 1 "1", waveDocument 2 "2"]

def passAt (seconds : Int) (healthy : Nat) : WavePass :=
  { now := seconds * second
    apply := fun _ => .applied
    found := fun d => if d.position < healthy then .healthy else .other
    readable := fun _ => true
    patched := fun _ => true }

theorem sync_waves_first_gate : PassRight (10 * second) threeWaves
      (run (waveStep (10 * second) threeWaves) .create [.pass (passAt 0 0), .pass (passAt 5 0)]) (passAt 11 0) :=
  sync_waves (10 * second) threeWaves [.pass (passAt 0 0), .pass (passAt 5 0), .pass (passAt 11 0)] (by decide)
    [.pass (passAt 0 0), .pass (passAt 5 0)] (passAt 11 0) [] rfl (by decide)

/-- The second wave is pending for an hour, and the first one succeeds in every pass. -/
theorem later_gate_never_times_out : ¬∀ (before : List WaveEvent) (p : WavePass),
    (run (waveStep (10 * second) threeWaves) .create before).active = true →
    PassRight (10 * second) threeWaves (run (waveStep (10 * second) threeWaves) .create before) p := by
  intro h
  have hright := h [.pass (passAt 0 1), .pass (passAt 5 1)] (passAt 3600 1) (by decide)
  exact hright.pending 1 (by decide) ⟨by decide, 0, by decide, by decide⟩
end

end Paprika.Releases
