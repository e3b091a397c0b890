import Paprika.Satellite.Types

/-!
# The collector's publisher

The sending half of `internal/satellite/collector.go`: `buildPublication` turns what the watches observe into a
snapshot or a delta against the last acknowledged map, `acknowledge` and `retry` are the two ways a publication ends,
and `sendEncoded` reads the reply of the control plane.

The report a publication carries is always a delta from the map it was built against, the empty map for a snapshot
(`isDelta_applicationDelta`, `buildPublication_some`).
-/

namespace Paprika.Satellite

open Lib.KeyedMap

/-- The fields of `Collector` and its `Config` that reports carry. -/
structure Collector where
  clusterNamespace : String
  clusterName : String
  clusterUID : String
  displayName : String
  version : String
  kubernetesVersion : String
  managementPolicies : List String
  autonomy : String
  heartbeatInterval : Int

/-- What one round of the publisher reads: the watch state, the operating state and the clock. -/
structure Observation (Ω : Type) where
  current : ObservedApplications
  aggregates : Ω
  operatingState : String
  now : Int

/-- `publicationState`; `previous` is nil until a snapshot is acknowledged. -/
structure PublicationState (Ω : Type) where
  previous : Option ObservedApplications
  aggregates : Ω
  session : String
  sequence : Nat
  lastSent : Int

structure Publication (Ω : Type) where
  report : Report Ω
  current : ObservedApplications

variable {Ω : Type}

/-- A Go map that may be nil, read as a map. -/
def mapOf (previous : Option ObservedApplications) : Map String Application :=
  match previous with
  | none => ∅
  | some m => m.apps

def applicationDelta (previous current : Map String Application) : List Application × List String :=
  let changed := (current.entries.filter (fun e => previous.lookup e.1 ≠ some e.2)).map (fun e => e.2)
  let deleted := previous.keys.filter (fun k => (current.lookup k).isNone)
  (changed.insertionSort (fun a b => a.key ≤ b.key), deleted.insertionSort (· ≤ ·))

def PublicationState.needsReport [DecidableEq Ω] (s : PublicationState Ω) (aggregates : Ω) (changed deleted : Nat)
    (heartbeat now : Int) : Bool :=
  s.previous.isNone || 0 < changed || 0 < deleted || s.aggregates ≠ aggregates || heartbeat ≤ now - s.lastSent

/-- The start of `buildPublication`: without an acknowledged map a new session begins. -/
def PublicationState.startSession (s : PublicationState Ω) (freshSession : String) : PublicationState Ω :=
  match s.previous with
  | none => { s with session := freshSession, sequence := 1 }
  | some _ => s

/-- The report literal of `buildPublication`. -/
def Collector.report (C : Collector) (s : PublicationState Ω) (o : Observation Ω) (changed : List Application)
    (deleted : List String) : Report Ω :=
  { protocolVersion := protocolVersion, clusterNamespace := C.clusterNamespace, clusterName := C.clusterName,
    clusterUID := C.clusterUID, displayName := C.displayName, sessionID := s.session, sequence := s.sequence,
    snapshot := s.previous.isNone, observedAt := some o.now, version := C.version,
    kubernetesVersion := C.kubernetesVersion, aggregates := o.aggregates, policies := C.managementPolicies,
    autonomy := C.autonomy, operatingState := o.operatingState, applications := changed,
    deletedApplications := deleted }

/-- `buildPublication`.  `freshSession` is the identifier `newSessionID` returns if it is called. -/
def buildPublication [DecidableEq Ω] (C : Collector) (s : PublicationState Ω) (o : Observation Ω)
    (freshSession : String) : Except String (PublicationState Ω × Option (Publication Ω)) :=
  if maxApplications < o.current.apps.keys.length then
    .error "satellite observes more than 2000 applications"
  else
    let s := s.startSession freshSession
    let delta := applicationDelta (mapOf s.previous) o.current.apps
    if s.needsReport o.aggregates delta.1.length delta.2.length C.heartbeatInterval o.now then
      .ok (s, some { report := C.report s o delta.1 delta.2, current := o.current })
    else .ok (s, none)

def PublicationState.acknowledge (s : PublicationState Ω) (p : Publication Ω) (now : Int) : PublicationState Ω :=
  { s with previous := some p.current, aggregates := p.report.aggregates, sequence := s.sequence + 1, lastSent := now }

def PublicationState.retry (s : PublicationState Ω) : PublicationState Ω := { s with previous := none }

/-- What `Client.Send` returns: nil, `ErrResync` or another error. -/
inductive SendResult
  | delivered | resync | failed
  deriving DecidableEq, Repr

/-- `SendEncoded`, from the HTTP status of the reply. -/
def sendEncoded (code : Nat) : SendResult :=
  if code == 409 then .resync
  else if code < 200 || 300 ≤ code then .failed
  else .delivered

/-! ### What a publication carries -/

variable {current previous : Map String Application}

theorem mem_applicationDelta_changed {a : Application}
    (h : Keyed Application.key current) :
    a ∈ (applicationDelta previous current).1 ↔ current.lookup a.key = some a ∧ previous.lookup a.key ≠ some a := by
  simp only [applicationDelta, List.mem_insertionSort, List.mem_map, List.mem_filter, decide_eq_true_eq]
  constructor
  · intro hmem
    obtain ⟨⟨k, b⟩, ⟨hentry, hdiff⟩, hval⟩ := hmem
    simp only at hval hdiff
    subst hval
    have hlook : current.lookup k = some b := AList.mem_lookup_iff.mpr hentry
    rw [h k b hlook]
    exact ⟨hlook, hdiff⟩
  · intro hlook
    exact ⟨⟨a.key, a⟩, ⟨AList.mem_lookup_iff.mp hlook.1, hlook.2⟩, rfl⟩

theorem mem_applicationDelta_deleted {k : String} :
    k ∈ (applicationDelta previous current).2 ↔ k ∈ previous ∧ k ∉ current := by
  simp only [applicationDelta, List.mem_insertionSort, List.mem_filter, Option.isNone_iff_eq_none,
    AList.lookup_eq_none]
  rfl

theorem isDelta_applicationDelta (previous : Map String Application) (current : ObservedApplications) :
    IsDelta Application.key previous current.apps (applicationDelta previous current.apps).1
      (applicationDelta previous current.apps).2 where
  mem_changed _ := mem_applicationDelta_changed current.keyed
  mem_deleted _ := mem_applicationDelta_deleted

theorem startSession_previous (s : PublicationState Ω) (fresh : String) :
    (s.startSession fresh).previous = s.previous := by
  unfold PublicationState.startSession
  split <;> simp_all

variable {o : Observation Ω} {s s' : PublicationState Ω}

/-- A publication is the report of the state it was built from, with the delta from the acknowledged map. -/
theorem buildPublication_some [DecidableEq Ω] {C : Collector}
    {fresh : String} {p : Publication Ω} (h : buildPublication C s o fresh = .ok (s', some p)) :
    s' = s.startSession fresh ∧ p.report.clusterUID = C.clusterUID ∧ p.report.sessionID = s'.session ∧
      p.report.sequence = s'.sequence ∧ p.report.snapshot = s.previous.isNone ∧
      IsDelta Application.key (mapOf s.previous) p.current.apps p.report.applications
        p.report.deletedApplications := by
  unfold buildPublication at h
  split at h
  · simp at h
  dsimp only at h
  split at h
  · simp only [Except.ok.injEq, Prod.mk.injEq, Option.some.injEq] at h
    obtain ⟨rfl, rfl⟩ := h
    refine ⟨rfl, rfl, rfl, rfl, ?_, ?_⟩
    · show (s.startSession fresh).previous.isNone = s.previous.isNone
      rw [startSession_previous]
    · have hdelta := isDelta_applicationDelta (mapOf (s.startSession fresh).previous) o.current
      rw [startSession_previous] at hdelta
      simpa [Collector.report, startSession_previous] using hdelta
  · simp at h

/-- A publisher with nothing to report has an acknowledged map, and its state does not change. -/
theorem buildPublication_none [DecidableEq Ω] {C : Collector}
    {fresh : String} (h : buildPublication C s o fresh = .ok (s', none)) : s' = s := by
  unfold buildPublication at h
  split at h
  · simp at h
  dsimp only at h
  split at h
  · simp at h
  · next hneeds =>
    simp only [Except.ok.injEq, Prod.mk.injEq, and_true] at h
    cases hprev : s.previous with
    | none => simp [PublicationState.needsReport, startSession_previous, hprev] at hneeds
    | some m => rw [← h, PublicationState.startSession, hprev]

end Paprika.Satellite
