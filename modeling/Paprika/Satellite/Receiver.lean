import Paprika.Satellite.Types

/-!
# The report handler

`internal/satellitecontrol`: validation of a report on its own (`validateReport`), validation against the persisted
fence (`validateBaseline`), the merge into the persisted application list (`buildBaseline`) and the decision of one
`acceptOnce` from what it read (`prepareReport`).

Three facts about the merge carry everything later: the persisted list reads back as the merged map
(`buildBaseline_applications`), an accepted report has advanced the fence by one or opened a session that is not
retired (`validateBaseline_ok_false`), and the fence written is the report's own (`buildBaseline_fence`).
-/

namespace Paprika.Satellite

open Lib.KeyedMap

/-- An error of the accept path: a `reportError` with its HTTP code, or any other error. -/
inductive ReportError
  | refused (code : Nat) (message : String)
  | other (message : String)
  deriving DecidableEq, Repr

/-- The HTTP code of an error of the accept path. -/
def ReportError.code : ReportError → Nat
  | .refused code _ => code
  | .other _ => 503

variable {Ω : Type} (X : Externals Ω)

/-! ### A report on its own -/

section

def validName (name : String) : Bool := X.isDNS1123Subdomain name

def validNamespace (name : String) : Bool := name != "" && X.isDNS1123Label name

def validOptionalName (name : String) : Bool := name == "" || validName X name

def validSessionIdentity (r : Report Ω) : Bool :=
  r.clusterUID != "" && r.clusterUID.utf8ByteSize ≤ 128 && r.sessionID != "" && r.sessionID.utf8ByteSize ≤ 128

def validReportIdentity (r : Report Ω) : Bool :=
  r.protocolVersion == protocolVersion && validNamespace X r.clusterNamespace &&
    validName X r.clusterName && r.clusterName.utf8ByteSize ≤ 63 && validSessionIdentity r &&
    0 < r.sequence && r.sequence < 9223372036854775808 && r.observedAt.isSome

def validReportLimits (r : Report Ω) : Bool :=
  r.displayName.utf8ByteSize ≤ 256 && r.version.utf8ByteSize ≤ 128 && r.kubernetesVersion.utf8ByteSize ≤ 128 &&
    r.applications.length ≤ maxApplications && r.deletedApplications.length ≤ maxApplications

def validApplication (a : Application) : Bool :=
  validNamespace X a.inNamespace && validName X a.name && validOptionalName X a.identity &&
    validOptionalName X a.project && a.health.utf8ByteSize ≤ 32 && a.phase.utf8ByteSize ≤ 32 &&
    a.sourceRevision.utf8ByteSize ≤ 256

/-- `strings.Cut(key, "/")`: the text before and after the first slash. -/
def cutSlash (key : String) : Option (String × String) :=
  match key.toList.span (· ≠ '/') with
  | (_, []) => none
  | (before, _ :: after) => some (String.ofList before, String.ofList after)

def validateDeletedKeys : List String → List String → Option String
  | [], _ => none
  | key :: keys, seen =>
    match cutSlash key with
    | none => some "invalid deletion"
    | some (ns, name) =>
      if !validNamespace X ns || !validName X name || seen.contains key then some "invalid deletion"
      else validateDeletedKeys keys (key :: seen)

/-- The loop of `validateApplicationChanges`, on the keys seen so far. -/
def validateApplicationsFrom (deleted : List String) : List Application → List String → Option String
  | [], seen => validateDeletedKeys X deleted seen
  | a :: as, seen =>
    if !validApplication X a || seen.contains a.key then some "invalid application"
    else validateApplicationsFrom deleted as (a.key :: seen)

def validateApplicationChanges (r : Report Ω) : Option String :=
  validateApplicationsFrom X r.deletedApplications r.applications []

def validPolicy (policy : String) : Bool :=
  ["Observe", "Apply", "Prune", "Delete", "SelfHeal", "Rollout", "*"].contains policy

def validOperatingState (state : String) : Bool :=
  ["Connecting", "Connected", "Autonomous", "OverrideHeld", "Disabled"].contains state

/-- `AutonomyMode.Valid`. -/
def validAutonomy (mode : String) : Bool := ["ObserveOnly", "Failover", "Delegated"].contains mode

def validatePolicyReport (r : Report Ω) : Option String :=
  if 8 < r.policies.length then some "report exceeds policy limit"
  else if !r.policies.all validPolicy then some "invalid management policy"
  else if r.autonomy != "" && !validAutonomy r.autonomy then some "invalid autonomy mode"
  else if r.operatingState != "" && !validOperatingState r.operatingState then some "invalid operating state"
  else none

/-- `validateReport`: the first error, if any. -/
def validateReport (r : Report Ω) : Option String :=
  if !validReportIdentity X r then some "invalid identity"
  else if !validReportLimits r then some "report exceeds limits"
  else if r.snapshot && (r.sequence != 1 || 0 < r.deletedApplications.length) then some "invalid snapshot"
  else (validateApplicationChanges X r).or ((X.validateAggregates r.aggregates).or (validatePolicyReport r))
end

/-! ### A report against the persisted fence -/

def requireSnapshot (r : Report Ω) : Except ReportError Unit :=
  if !r.snapshot || r.sequence != 1 then .error (.refused 409 "full snapshot required") else .ok ()

def validateSessionSequence (old : SatelliteStatus) (r : Report Ω) (digest : String) : Except ReportError Bool :=
  if r.sequence == old.sequence then
    if old.reportDigest == digest then .ok true else .error (.refused 409 "sequence payload mismatch")
  else if r.sequence != old.sequence + 1 || r.snapshot then .error (.refused 409 "full snapshot required")
  else .ok false

/-- `validateBaseline`: `true` for a duplicate of the last accepted report. -/
def validateBaseline (old : Option SatelliteStatus) (r : Report Ω) (digest : String) : Except ReportError Bool :=
  match old with
  | none => (requireSnapshot r).map (fun _ => false)
  | some old =>
    if old.clusterUID != r.clusterUID then .error (.refused 409 "cluster identity mismatch")
    else if old.sessionID == r.sessionID then validateSessionSequence old r digest
    else if old.retiredSessions.contains r.sessionID then .error (.refused 409 "retired reporting session")
    else (requireSnapshot r).map (fun _ => false)

/-! ### The merge -/

/-- The last `n` entries of a list: `l[len(l)-n:]` when it is longer. -/
def keepLast (n : Nat) (l : List String) : List String := l.drop (l.length - n)

def retiredSessions (old : Option SatelliteStatus) (r : Report Ω) : List String :=
  match old with
  | none => []
  | some old =>
    if old.sessionID != r.sessionID then keepLast 16 (old.retiredSessions ++ [old.sessionID])
    else old.retiredSessions

/-- The map `apps` that `buildBaseline` starts from. -/
def baselineApplications (old : Option SatelliteStatus) (r : Report Ω) : Map String SatelliteApplication :=
  match old with
  | none => ∅
  | some old => if r.snapshot then ∅ else ofValues SatelliteApplication.key old.applications

/-- The map `apps` of `buildBaseline` once the report is merged into it. -/
def mergedApplications (old : Option SatelliteStatus) (r : Report Ω) : Map String SatelliteApplication :=
  eraseAll (insertAll SatelliteApplication.key (baselineApplications old r) (r.applications.map statusApplication))
    r.deletedApplications

/-- `buildBaseline`, at the time `now`. -/
def buildBaseline (old : Option SatelliteStatus) (r : Report Ω) (digest : String) (now : Int) :
    Except ReportError SatelliteStatus :=
  let apps := mergedApplications old r
  if maxApplications < apps.keys.length then .error (.refused 413 "application inventory exceeds limit")
  else
    let state : SatelliteStatus :=
      { clusterUID := r.clusterUID, sessionID := r.sessionID, sequence := r.sequence, reportDigest := digest,
        retiredSessions := retiredSessions old r, lastSeen := some now, applications := sortedValues apps }
    if maxReportBytes < X.stateBytes state then .error (.refused 413 "application inventory exceeds byte limit")
    else .ok state

/-- What `acceptOnce` decides from what it read, up to the status write: an error, a duplicate (`none`), or the
status to write together with the merged list.  `previous` is the list read from `Handler.Store`, and `none` where no
store is configured. -/
def prepareReport (previous : Option (List SatelliteApplication)) (old : Option SatelliteStatus) (r : Report Ω)
    (now : Int) : Except ReportError (Option (SatelliteStatus × List SatelliteApplication)) :=
  match validateBaseline old r (X.digest r) with
  | .error e => .error e
  | .ok true => .ok none
  | .ok false =>
    let baseline := match previous with
      | none => old
      | some apps => some { old.getD SatelliteStatus.zero with applications := apps }
    match buildBaseline X baseline r (X.digest r) now with
    | .error e => .error e
    | .ok state =>
      match previous with
      | none => .ok (some (state, state.applications))
      | some _ => .ok (some ({ state with applications := [] }, state.applications))

/-! ### What the fence lets through -/

theorem requireSnapshot_ok {r : Report Ω} {b : Bool} :
    (requireSnapshot r).map (fun _ => false) = .ok b ↔ b = false ∧ r.snapshot = true ∧ r.sequence = 1 := by
  by_cases hsnap : r.snapshot = true
  · by_cases hseq : r.sequence = 1
    · simp [requireSnapshot, Except.map, hsnap, hseq, eq_comm]
    · simp [requireSnapshot, Except.map, hseq]
  · simp [requireSnapshot, Except.map, hsnap]

/-- The ways a report that is not a duplicate gets through the fence. -/
inductive Advances (old : Option SatelliteStatus) (r : Report Ω) : Prop
  | first (hold : old = none) (hsnapshot : r.snapshot = true) (hsequence : r.sequence = 1)
  | next (o : SatelliteStatus) (hold : old = some o) (hsession : o.sessionID = r.sessionID)
      (hsequence : r.sequence = o.sequence + 1) (hsnapshot : r.snapshot = false)
  | replaced (o : SatelliteStatus) (hold : old = some o) (hsession : o.sessionID ≠ r.sessionID)
      (hretired : r.sessionID ∉ o.retiredSessions) (hsnapshot : r.snapshot = true) (hsequence : r.sequence = 1)

section
variable {old : Option SatelliteStatus} {r : Report Ω} {digest : String}

theorem validateBaseline_ok_false (h : validateBaseline old r digest = .ok false) : Advances old r := by
  cases old with
  | none =>
    obtain ⟨_, hsnap, hseq⟩ := requireSnapshot_ok.mp h
    exact .first rfl hsnap hseq
  | some o =>
  simp only [validateBaseline, bne_iff_ne, ne_eq, ite_not, beq_iff_eq] at h
  split at h
  · split at h
    · next hsess =>
      unfold validateSessionSequence at h
      split at h
      · split at h <;> simp at h
      split at h
      · simp at h
      · next hrest =>
        simp at hrest
        exact .next o rfl hsess hrest.1 hrest.2
    · next hsess =>
      split at h
      · simp at h
      · next hretired =>
        obtain ⟨_, hsnap, hseq⟩ := requireSnapshot_ok.mp h
        exact .replaced o rfl hsess (by simpa using hretired) hsnap hseq
  · simp at h

/-- A report taken for a duplicate has the session, the sequence and the digest of the fence. -/
theorem validateBaseline_ok_true :
    validateBaseline old r digest = .ok true ↔ ∃ o, old = some o ∧ o.clusterUID = r.clusterUID ∧
      o.sessionID = r.sessionID ∧ o.sequence = r.sequence ∧ o.reportDigest = digest := by
  cases old with
  | none => simp [validateBaseline, requireSnapshot_ok]
  | some o =>
  simp only [validateBaseline, bne_iff_ne, ne_eq, ite_not, beq_iff_eq, Option.some.injEq, exists_eq_left']
  split
  · next huid =>
    split
    · next hsess =>
      unfold validateSessionSequence
      split
      · next hseq =>
        simp at hseq
        by_cases hdigest : o.reportDigest = digest <;> simp [huid, hsess, hseq, hdigest]
      · next hseq =>
        simp at hseq
        have hne : ¬o.sequence = r.sequence := fun heq => hseq heq.symm
        split <;> simp [hne]
    · next hsess =>
      split
      · simp [hsess]
      · rw [requireSnapshot_ok]
        simp [hsess]
  · next huid => simp [huid]

theorem not_advances_of_duplicate (h : validateBaseline old r digest = .ok true) : ¬Advances old r := by
  obtain ⟨o, hold, _, hsess, hsequence, _⟩ := validateBaseline_ok_true.mp h
  intro hadv
  cases hadv with
  | first hnone => rw [hold] at hnone; cases hnone
  | next o' hold' _ hnext =>
    obtain rfl := Option.some.inj (hold.symm.trans hold')
    omega
  | replaced o' hold' hother =>
    obtain rfl := Option.some.inj (hold.symm.trans hold')
    exact hother hsess
end

/-! ### What the merge writes -/

section
variable {X} {old : Option SatelliteStatus} {r : Report Ω} {digest : String} {now : Int} {st : SatelliteStatus}

/-- The status `buildBaseline` returns carries the fence of the report and the sorted merged map. -/
theorem buildBaseline_ok (h : buildBaseline X old r digest now = .ok st) :
    st = { clusterUID := r.clusterUID, sessionID := r.sessionID, sequence := r.sequence, reportDigest := digest,
           retiredSessions := retiredSessions old r, lastSeen := some now,
           applications := sortedValues (mergedApplications old r) } := by
  unfold buildBaseline at h
  dsimp only at h
  split at h
  · simp at h
  · split at h
    · simp at h
    · exact (Except.ok.inj h).symm

theorem keyed_baselineApplications (old : Option SatelliteStatus) (r : Report Ω) :
    Keyed SatelliteApplication.key (baselineApplications old r) := by
  unfold baselineApplications
  split
  · exact keyed_empty _
  · split
    · exact keyed_empty _
    · exact keyed_ofValues _ _

theorem keyed_mergedApplications (old : Option SatelliteStatus) (r : Report Ω) :
    Keyed SatelliteApplication.key (mergedApplications old r) :=
  keyed_eraseAll (keyed_insertAll (keyed_baselineApplications old r))

theorem lookup_sorted_mergedApplications (old : Option SatelliteStatus) (r : Report Ω) (k : String) :
    (ofValues SatelliteApplication.key (sortedValues (mergedApplications old r))).lookup k =
      (mergedApplications old r).lookup k :=
  lookup_ofValues_sortedValues (keyed_mergedApplications old r) k

/-- Without a store, a prepared status is the one `buildBaseline` made from a report that advances the fence. -/
theorem prepareReport_some {merged : List SatelliteApplication}
    (h : prepareReport X none old r now = .ok (some (st, merged))) :
    Advances old r ∧ buildBaseline X old r (X.digest r) now = .ok st := by
  unfold prepareReport at h
  split at h
  · simp at h
  · simp at h
  · next hvalid =>
    dsimp only at h
    split at h
    · simp at h
    · next state hstate =>
      simp only [Except.ok.injEq, Option.some.injEq, Prod.mk.injEq] at h
      obtain ⟨rfl, _⟩ := h
      exact ⟨validateBaseline_ok_false hvalid, hstate⟩

theorem prepareReport_none {previous : Option (List SatelliteApplication)} :
    prepareReport X previous old r now = .ok none ↔ validateBaseline old r (X.digest r) = .ok true := by
  unfold prepareReport
  split
  · next h => simp [h]
  · next h => simp [h]
  · next h =>
    rw [h]
    dsimp only
    split
    · simp
    · cases previous <;> simp

/-! ### Which codes a refusal has -/

variable {e : ReportError}

theorem requireSnapshot_error_code (h : (requireSnapshot r).map (fun _ => false) = .error e) : e.code = 409 := by
  unfold requireSnapshot at h
  split at h
  · rw [← Except.error.inj h]
    rfl
  · simp [Except.map] at h

theorem validateSessionSequence_error_code {o : SatelliteStatus}
    (h : validateSessionSequence o r digest = .error e) : e.code = 409 := by
  unfold validateSessionSequence at h
  split at h
  · split at h
    · simp at h
    · rw [← Except.error.inj h]
      rfl
  · split at h
    · rw [← Except.error.inj h]
      rfl
    · simp at h

theorem validateBaseline_error_code (h : validateBaseline old r digest = .error e) : e.code = 409 := by
  unfold validateBaseline at h
  split at h
  · exact requireSnapshot_error_code h
  split at h
  · rw [← Except.error.inj h]
    rfl
  split at h
  · exact validateSessionSequence_error_code h
  · split at h
    · rw [← Except.error.inj h]
      rfl
    · exact requireSnapshot_error_code h

theorem buildBaseline_error_code (h : buildBaseline X old r digest now = .error e) : e.code = 413 := by
  unfold buildBaseline at h
  dsimp only at h
  split at h
  · rw [← Except.error.inj h]
    rfl
  · split at h
    · rw [← Except.error.inj h]
      rfl
    · simp at h

theorem prepareReport_error_code {previous : Option (List SatelliteApplication)}
    (h : prepareReport X previous old r now = .error e) : e.code = 409 ∨ e.code = 413 := by
  unfold prepareReport at h
  split at h
  · next e' he =>
    rw [← Except.error.inj h]
    exact Or.inl (validateBaseline_error_code he)
  · simp at h
  · dsimp only at h
    split at h
    · next e' he =>
      rw [← Except.error.inj h]
      exact Or.inr (buildBaseline_error_code he)
    · split at h <;> simp at h
end

end Paprika.Satellite
