import Mathlib.Data.List.Permutation
import Paprika.Satellite.Replication

/-!
# Concurrent reports of one cluster

`acceptOnce` reads the Cluster, computes the next status and sends a JSON merge patch against the copy it read
(`client.MergeFrom` without an optimistic lock).  The patch carries exactly the fields whose JSON value differs from
that copy, a list being one value, so two overlapping calls can each write a part of the fence and of the application
list: see `interleaved_patches_mix_reports`.

* **`reports_serialise`** — as long as every patch meets the fence and the list its call read (or finds its own result
  already written, as a concurrent duplicate does), the outcome is that of the successful calls run one after another.
-/

namespace Paprika.Satellite

open Lib.Run SatelliteStatus

/-! ### The merge patch -/

/-- The merge patch from `base` to `modified`, applied to `current`.  `clusterUid`, `sessionId` and `sequence` are
always part of the encoded object; the other fields are left out when empty, so that an empty field of `modified`
against an empty or missing one of `base` is not part of the patch. -/
def mergePatch (base : Option SatelliteStatus) (modified : SatelliteStatus) (current : Option SatelliteStatus) :
    SatelliteStatus :=
  let was := base.getD zero
  let cur := current.getD zero
  { clusterUID :=
      if base.map (·.clusterUID) = some modified.clusterUID then cur.clusterUID else modified.clusterUID
    sessionID := if base.map (·.sessionID) = some modified.sessionID then cur.sessionID else modified.sessionID
    sequence := if base.map (·.sequence) = some modified.sequence then cur.sequence else modified.sequence
    reportDigest := if was.reportDigest = modified.reportDigest then cur.reportDigest else modified.reportDigest
    retiredSessions :=
      if was.retiredSessions = modified.retiredSessions then cur.retiredSessions else modified.retiredSessions
    lastSeen := if was.lastSeen = modified.lastSeen then cur.lastSeen else modified.lastSeen
    applications := if was.applications = modified.applications then cur.applications else modified.applications }

/-- The status without the arrival time. -/
def SatelliteStatus.untimed (st : SatelliteStatus) : SatelliteStatus := { st with lastSeen := none }

/-- Two statuses agree on the cluster, the fence and the application list. -/
def SameBaseline (a b : Option SatelliteStatus) : Prop :=
  a.map untimed = b.map untimed

instance (a b : Option SatelliteStatus) : Decidable (SameBaseline a b) := inferInstanceAs (Decidable (_ = _))

/-- The fields the fence and the baseline consist of. -/
def SatelliteStatus.fields (st : SatelliteStatus) : String × ℕ × String × List String × List SatelliteApplication :=
  (st.sessionID, st.sequence, st.reportDigest, st.retiredSessions, st.applications)

variable {a b : Option SatelliteStatus}

theorem SameBaseline.cases (h : SameBaseline a b) :
    (a = none ∧ b = none) ∨ ∃ st seen, a = some { st with lastSeen := seen } ∧ b = some st := by
  cases a with
  | none =>
    cases b with
    | none => exact Or.inl ⟨rfl, rfl⟩
    | some y => cases h
  | some x =>
  cases b with
  | none => cases h
  | some y =>
  have hxy : x.untimed = y.untimed := Option.some.inj h
  refine Or.inr ⟨y, x.lastSeen, ?_, rfl⟩
  obtain ⟨xu, xs, xn, xd, xr, xl, xa⟩ := x
  obtain ⟨yu, ys, yn, yd, yr, yl, ya⟩ := y
  simp only [untimed, mk.injEq, true_and] at hxy
  obtain ⟨rfl, rfl, rfl, rfl, rfl, rfl⟩ := hxy
  rfl

theorem SameBaseline.refl (a : Option SatelliteStatus) : SameBaseline a a := Eq.refl _

section
variable (h : SameBaseline a b)
include h

theorem SameBaseline.symm : SameBaseline b a := Eq.symm h

theorem SameBaseline.trans {c : Option SatelliteStatus} (h' : SameBaseline b c) : SameBaseline a c := Eq.trans h h'

theorem SameBaseline.fields : a.map fields = b.map fields := by
  rcases h.cases with ⟨rfl, rfl⟩ | ⟨st, seen, rfl, rfl⟩ <;> rfl

/-- The accept path does not read the arrival time of the status it merges into. -/
theorem prepareReport_congr {Ω : Type} {X : Externals Ω}
    (r : Report Ω) (now : Int) : prepareReport X none a r now = prepareReport X none b r now := by
  rcases h.cases with ⟨rfl, rfl⟩ | ⟨st, seen, rfl, rfl⟩ <;> rfl
end

theorem mergePatch_of_sameBaseline {base current : Option SatelliteStatus} (h : SameBaseline current base)
    (modified : SatelliteStatus) : SameBaseline (some (mergePatch base modified current)) (some modified) := by
  rcases h.cases with ⟨rfl, rfl⟩ | ⟨st, seen, rfl, rfl⟩
  · simp [SameBaseline, untimed, mergePatch]
  · simp [SameBaseline, untimed, mergePatch]

theorem mergePatch_of_written {modified : SatelliteStatus} {current : Option SatelliteStatus}
    (h : SameBaseline current (some modified)) (base : Option SatelliteStatus) :
    SameBaseline (some (mergePatch base modified current)) (some modified) := by
  rcases h.cases with ⟨_, hnone⟩ | ⟨st, seen, rfl, hst⟩
  · cases hnone
  · obtain rfl := Option.some.inj hst
    simp [SameBaseline, untimed, mergePatch]

/-! ### Overlapping calls -/

variable {Ω : Type}

/-- A call of `acceptOnce` between its read and its patch. -/
structure Call (Ω : Type) where
  report : Report Ω
  now : Int
  base : Option SatelliteStatus
  modified : SatelliteStatus
  deriving DecidableEq

/-- The Cluster status, the calls in flight and the reports of the calls that returned success, in the order in
which they took effect. -/
structure Replicas (Ω : Type) where
  status : Option SatelliteStatus
  inFlight : List (Call Ω)
  succeeded : List (Report Ω × Int)

/-- A call reads the status, or the patch of a call in flight is applied or fails. -/
inductive CallEvent (Ω : Type)
  | read (report : Report Ω) (now : Int)
  | patch (call : Call Ω) (applied : Bool)

section
variable [DecidableEq Ω] (X : Externals Ω)

def Replicas.step (s : Replicas Ω) : CallEvent Ω → Replicas Ω
  | .read r now =>
    match prepareReport X none s.status r now with
    | .error _ => s
    | .ok none => { s with succeeded := s.succeeded ++ [(r, now)] }
    | .ok (some (st, _)) => { s with inFlight := ⟨r, now, s.status, st⟩ :: s.inFlight }
  | .patch c applied =>
    if c ∈ s.inFlight then
      if applied then
        { status := some (mergePatch c.base c.modified s.status), inFlight := s.inFlight.erase c,
          succeeded := s.succeeded ++ [(c.report, c.now)] }
      else { s with inFlight := s.inFlight.erase c }
    else s

omit [DecidableEq Ω] in
/-- One call of `acceptOnce` with nothing in between. -/
def acceptSerially (status : Option SatelliteStatus) (call : Report Ω × Int) : Option SatelliteStatus :=
  match prepareReport X none status call.1 call.2 with
  | .ok (some (st, _)) => some st
  | _ => status

/-- The patch meets the fence and the list its call read, or its own result. -/
def MeetsItsCopy (s : Replicas Ω) : CallEvent Ω → Prop
  | .read _ _ => True
  | .patch c applied => applied = true → c ∈ s.inFlight →
      SameBaseline s.status c.base ∨ SameBaseline s.status (some c.modified)

instance (s : Replicas Ω) (e : CallEvent Ω) : Decidable (MeetsItsCopy s e) :=
  match e with
  | .read _ _ => .isTrue trivial
  | .patch .. => inferInstanceAs (Decidable (_ → _))
end

/-! ### Serialisation -/

section
variable {X : Externals Ω}

theorem acceptSerially_congr {a b : Option SatelliteStatus} (h : SameBaseline a b) (call : Report Ω × Int) :
    SameBaseline (acceptSerially X a call) (acceptSerially X b call) := by
  unfold acceptSerially
  rw [prepareReport_congr h]
  split
  · exact .refl _
  · exact h

/-- What holds of the calls in flight and of the status they have written so far. -/
structure Serialised (X : Externals Ω) (start : Option SatelliteStatus) (s : Replicas Ω) : Prop where
  computed : ∀ c ∈ s.inFlight, ∃ merged, prepareReport X none c.base c.report c.now = .ok (some (c.modified, merged))
  status : SameBaseline s.status (s.succeeded.foldl (acceptSerially X) start)

variable {start : Option SatelliteStatus} {s : Replicas Ω}

/-- A call whose patch meets its copy, or its own result, does what it does alone. -/
theorem acceptSerially_patch {c : Call Ω} {merged : List SatelliteApplication}
    (hc : prepareReport X none c.base c.report c.now = .ok (some (c.modified, merged)))
    (hmeets : SameBaseline s.status c.base ∨ SameBaseline s.status (some c.modified)) :
    SameBaseline (some (mergePatch c.base c.modified s.status))
      (acceptSerially X s.status (c.report, c.now)) := by
  rcases hmeets with hbase | hwrote
  · have halone : acceptSerially X s.status (c.report, c.now) = some c.modified := by
      unfold acceptSerially
      rw [prepareReport_congr hbase, hc]
    rw [halone]
    exact mergePatch_of_sameBaseline hbase c.modified
  · -- the report is already the one the fence stands at
    have hmodified := buildBaseline_ok (prepareReport_some hc).2
    have hdup : validateBaseline (some c.modified) c.report (X.digest c.report) = .ok true :=
      validateBaseline_ok_true.mpr
        ⟨c.modified, rfl, by rw [hmodified], by rw [hmodified], by rw [hmodified], by rw [hmodified]⟩
    have halone : acceptSerially X s.status (c.report, c.now) = s.status := by
      unfold acceptSerially
      rw [prepareReport_congr hwrote, prepareReport_none.mpr hdup]
    rw [halone]
    exact (mergePatch_of_written hwrote c.base).trans hwrote.symm

variable [DecidableEq Ω]

theorem Serialised.step (h : Serialised X start s) (e : CallEvent Ω) (hmeets : MeetsItsCopy s e) :
    Serialised X start (s.step X e) := by
  cases e with
  | read r now =>
    simp only [Replicas.step]
    split
    · exact h
    · next hprep =>
      refine ⟨h.computed, ?_⟩
      rw [List.foldl_append]
      show SameBaseline s.status (acceptSerially X (s.succeeded.foldl (acceptSerially X) start) (r, now))
      have halone : acceptSerially X s.status (r, now) = s.status := by
        unfold acceptSerially
        rw [hprep]
      rw [← halone]
      exact acceptSerially_congr h.status (r, now)
    · next st merged hprep =>
      refine ⟨?_, h.status⟩
      intro c hc
      rcases List.mem_cons.mp hc with rfl | hc
      · exact ⟨merged, hprep⟩
      · exact h.computed c hc
  | patch c applied =>
    simp only [Replicas.step]
    split
    · next hmem =>
      split
      · next happl =>
        obtain ⟨merged, hc⟩ := h.computed c hmem
        refine ⟨fun d hd => h.computed d (List.mem_of_mem_erase hd), ?_⟩
        rw [List.foldl_append]
        exact (acceptSerially_patch hc (hmeets happl hmem)).trans (acceptSerially_congr h.status _)
      · exact ⟨fun d hd => h.computed d (List.mem_of_mem_erase hd), h.status⟩
    · exact h
end

/-- **Reports serialise where patches meet their copies**: what is stored is that of the successful calls run one after
another, in the order in which they took effect. -/
theorem reports_serialise [DecidableEq Ω] (X : Externals Ω) (start : Option SatelliteStatus)
    (es : List (CallEvent Ω)) (h : Guarded (Replicas.step X) MeetsItsCopy ⟨start, [], []⟩ es) :
    let s := run (Replicas.step X) ⟨start, [], []⟩ es
    ∃ order : List (Report Ω × Int), order.Perm s.succeeded ∧ s.status.map fields =
        (order.foldl (acceptSerially X) start).map fields := by
  intro s
  have hinv : Serialised X start s :=
    guarded_invariant (motive := Serialised X start) (fun t e ht he => ht.step e he)
      ⟨fun c hc => by simp at hc, .refl _⟩ h
  exact ⟨s.succeeded, .refl _, hinv.status.fields⟩

/-! ### Two overlapping calls -/

section

/-- The status after the snapshot of session `i` replaced the sessions of `retired`. -/
def sampleStatus (i : ℕ) (retired : List String) (seen : Int) : SatelliteStatus :=
  { clusterUID := "kube-system-uid", sessionID := sampleSession i, sequence := 1,
    reportDigest := sampleExternals.digest (sampleSnapshot i), retiredSessions := retired, lastSeen := some seen,
    applications := [statusApplication (sampleApplication "Healthy")] }

/-- The delta of session `0`, computed from the status after its snapshot. -/
def sampleDeltaCall : Call Unit :=
  { report := sampleDelta 0, now := 8, base := some (sampleStatus 0 [] 6),
    modified := { sampleStatus 0 [] 8 with
      sequence := 2, reportDigest := sampleExternals.digest (sampleDelta 0),
      applications := [statusApplication (sampleApplication "Degraded")] } }

/-- The snapshot of session `1`, computed from the same copy. -/
def sampleSnapshotCall : Call Unit :=
  { report := sampleSnapshot 1, now := 9, base := some (sampleStatus 0 [] 6),
    modified := sampleStatus 1 [sampleSession 0] 9 }

/-- Two concurrent deliveries of one delta: both patches go through, and the outcome is that of one of them. -/
theorem reports_serialise_of_duplicates :
    let es : List (CallEvent Unit) := [.read (sampleDelta 0) 8, .read (sampleDelta 0) 8,
      .patch sampleDeltaCall true, .patch sampleDeltaCall true]
    let s := run (Replicas.step sampleExternals) ⟨some (sampleStatus 0 [] 6), [], []⟩ es
    Guarded (Replicas.step sampleExternals) MeetsItsCopy ⟨some (sampleStatus 0 [] 6), [], []⟩ es ∧
      s.succeeded.length = 2 ∧
      ∃ order : List (Report Unit × Int), order.Perm s.succeeded ∧ s.status.map fields =
          (order.foldl (acceptSerially sampleExternals) (some (sampleStatus 0 [] 6))).map
            fields := by
  intro es s
  have hmeets : Guarded (Replicas.step sampleExternals) MeetsItsCopy ⟨some (sampleStatus 0 [] 6), [], []⟩ es := by
    decide
  exact ⟨hmeets, by decide, reports_serialise sampleExternals (some (sampleStatus 0 [] 6)) es hmeets⟩

/-- The snapshot of session `1` is written before the delta of session `0`, which was computed from the same copy:
the fence then names session `1` with the sequence, the digest and the applications of session `0`. -/
theorem interleaved_patches_mix_reports : ¬∀ (start : Option SatelliteStatus) (es : List (CallEvent Unit)),
      let s := run (Replicas.step sampleExternals) ⟨start, [], []⟩ es
      ∃ order : List (Report Unit × Int), order.Perm s.succeeded ∧ s.status.map fields =
          (order.foldl (acceptSerially sampleExternals) start).map fields := by
  intro h
  obtain ⟨order, hperm, hfields⟩ := h (some (sampleStatus 0 [] 6))
    [.read (sampleDelta 0) 8, .read (sampleSnapshot 1) 9, .patch sampleSnapshotCall true, .patch sampleDeltaCall true]
  have hsucceeded : (run (Replicas.step sampleExternals) ⟨some (sampleStatus 0 [] 6), [], []⟩
      [.read (sampleDelta 0) 8, .read (sampleSnapshot 1) 9, .patch sampleSnapshotCall true,
       .patch sampleDeltaCall true]).succeeded = [(sampleSnapshot 1, 9), (sampleDelta 0, 8)] := by decide
  rw [hsucceeded] at hperm
  rcases List.perm_pair.mp hperm with rfl | rfl
  · revert hfields
    decide
  · revert hfields
    decide
end

end Paprika.Satellite
