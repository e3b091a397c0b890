import Paprika.Fleet.Projection
import Paprika.Lib.Run
import Std.Data.String.ToNat

/-!
# Fleet: the satellite source

`ClusterSatelliteSource` keeps what every registered cluster observes and gives readers one list of snapshots with a
generation.  Observations come from an informer (`observe`, `remove`) and, where one is configured, from a store that
a read polls at most once a second.  A change advances the generation at once, or, within a quarter second of the last
advance, on the first read after that window; staleness is worked out by the reads themselves.

Contents are a function of what a read sees (`View.render`): every observation with its staleness, and the stored
reports.  The source recognises stored reports by their digest, which determines them (`storedApplications_of_digest`).
-/

namespace Paprika.Fleet

open Lib.KeyedMap Lib.Run Lib.Text List

/-! ### What a satellite reports -/

section
variable (isDNS1123Subdomain : String → Bool)

def satelliteApplicationIdentity (inNamespace name explicit : String) : ObjectKey :=
  { inNamespace := inNamespace
    name := if trimmed explicit ≠ "" ∧ isDNS1123Subdomain (trimmed explicit) then trimmed explicit else name }

def canonicalObjectIdentity (identity : ObjectKey) : String :=
  pathEscape identity.inNamespace ++ "/" ++ pathEscape identity.name

def satelliteTargetID (cluster app : ObjectKey) : String :=
  "satellite:" ++ canonicalObjectIdentity cluster ++ ":" ++ canonicalObjectIdentity app

def projectSatelliteStatusApplication (app : Satellite.SatelliteApplication) (cluster : ClusterSummary) :
    ApplicationSummary :=
  let health :=
    if app.health = "Missing" then .missing
    else if app.health = "Failed" then .failed
    else mapApplicationHealth app.health app.phase
  { ApplicationSummary.zero with
    identity := satelliteApplicationIdentity isDNS1123Subdomain app.inNamespace app.name app.identity
    project :=
      { inNamespace := app.inNamespace, name := if app.project = "" then defaultProjectName else app.project }
    satelliteOnly := true
    health := health
    sync := mapSyncState app.outOfSync app.syncKnown
    driftCount := app.outOfSync
    resourceCount := app.resourceCount
    sourceRevision := app.sourceRevision
    currentCluster := cluster.identity
    currentClusterLabel := cluster.displayName
    targets :=
      [{ stableID := satelliteTargetID cluster.identity { inNamespace := app.inNamespace, name := app.name }
         stage := ""
         ring := 0
         cluster := cluster.identity
         clusterLabel := cluster.displayName
         health := health
         clusterConnection := cluster.connection
         unmanagedInlineCluster := false }]
    attentionLabel := if app.outOfSync > 0 then pluralizeAttention app.outOfSync "resource" "out of sync" else ""
    attentionSeverity := if app.outOfSync > 0 then attentionSeverityCounts else 0 }
end

/-- `clusterSatelliteObservation`. -/
structure SatelliteObservation where
  snapshot : SatelliteSnapshot
  lastSeen : Option Int
  timeout : Int
  stale : Bool

def SatelliteObservation.key (o : SatelliteObservation) : ObjectKey := o.snapshot.cluster.identity

/-- `satelliteObservationStale`. -/
def SatelliteObservation.staleAt (o : SatelliteObservation) (now : Int) : Bool :=
  match o.lastSeen with
  | none => true
  | some seen => decide (now - seen > o.timeout)

/-- The order of the applications of an observation. -/
def applicationBefore (a b : ApplicationSummary) : Bool :=
  decide (a.identity < b.identity) ||
    (decide (a.identity = b.identity) &&
      decide ((a.targets.head?.map StageTargetSummary.stableID).getD "" ≤
        (b.targets.head?.map StageTargetSummary.stableID).getD ""))

def projectClusterSatelliteObservation (isDNS1123Subdomain : String → Bool) (cluster : Cluster) : SatelliteObservation :=
  let summary := projectClusterSummary cluster
  match cluster.state with
  | none =>
    { snapshot := { cluster := summary, applications := [] }, lastSeen := none, timeout := cluster.timeout, stale := false }
  | some state =>
    { snapshot :=
        { cluster := summary
          applications := (state.applications.map
            (fun app => projectSatelliteStatusApplication isDNS1123Subdomain app summary)).mergeSort applicationBefore }
      lastSeen := state.lastSeen
      timeout := cluster.timeout
      stale := false }

/-- `obsstore.Observation`, as far as the source reads it. -/
structure StoredReport where
  cluster : ObjectKey
  sequence : Nat
  sessionID : String
  applications : List Satellite.SatelliteApplication
  deriving DecidableEq

/-! ### The source -/

/-- Durations and instants in nanoseconds. -/
def minGenerationInterval : Int := 250000000

def storePoll : Int := 1000000000

/-- `observations` says whether a store is configured; `none` is the zero time. -/
structure Source where
  generation : Nat
  clusters : Map ObjectKey SatelliteObservation
  cacheVersion : Nat
  cached : List SatelliteSnapshot
  nextExpiry : Option Int
  lastBump : Option Int
  pendingBump : Bool
  observations : Bool
  lastStorePoll : Option Int
  storeDigest : List Char
  stored : List StoredReport

def Source.init (observations : Bool) : Source :=
  { generation := 0, clusters := ∅, cacheVersion := 0, cached := [], nextExpiry := none, lastBump := none,
    pendingBump := false, observations := observations, lastStorePoll := none, storeDigest := [], stored := [] }

namespace Source

variable (s : Source)

/-- The window of the last advance has passed. -/
def windowOver (now : Int) : Bool := s.lastBump.all (fun last => now - last ≥ minGenerationInterval)

def bump (now : Int) : Source :=
  if s.windowOver now then { s with generation := s.generation + 1, lastBump := some now, pendingBump := false }
  else { s with pendingBump := true }

def publishPending (now : Int) : Source :=
  if !s.pendingBump || !s.windowOver now then s
  else { s with generation := s.generation + 1, pendingBump := false, lastBump := some now }

/-- `advanceSatelliteExpiry`. -/
def advanceExpiry (nextExpiry : Option Int) (o : SatelliteObservation) : Option Int :=
  if o.stale then nextExpiry
  else
    let expires := o.lastSeen.getD 0 + o.timeout
    if nextExpiry.all (fun next => expires < next) then some expires else nextExpiry

/-- The cluster is known with the same contents: a heartbeat. -/
def isHeartbeat (o : SatelliteObservation) : Bool :=
  (s.clusters.lookup o.key).any (fun current => current.stale == o.stale && current.snapshot == o.snapshot)

def removeKey (key : ObjectKey) (now : Int) : Source :=
  if (s.clusters.lookup key).isSome then { s with clusters := s.clusters.erase key }.bump now else s

def record (o : SatelliteObservation) (now : Int) : Source :=
  let s' := { s with clusters := s.clusters.insert o.key o }
  if s.isHeartbeat o then { s' with nextExpiry := advanceExpiry s.nextExpiry o } else s'.bump now

def observe (isDNS1123Subdomain : String → Bool) (cluster : Cluster) (now : Int) : Source :=
  if (cluster.mode ≠ .agent ∧ cluster.mode ≠ .direct) ∨ cluster.satellite = false then s.removeKey cluster.key now
  else
    let o := projectClusterSatelliteObservation isDNS1123Subdomain cluster
    s.record { o with stale := o.staleAt now } now

end Source

def StoredReport.part (r : StoredReport) : String :=
  r.cluster.inNamespace ++ "/" ++ r.cluster.name ++ ":" ++ toString r.sequence ++ ":" ++ r.sessionID

def observationsDigest (stored : List StoredReport) : List Char :=
  ['|'].intercalate (((stored.map StoredReport.part).mergeSort (fun a b => decide (a ≤ b))).map String.toList)

namespace Source

variable (s : Source)

/-- A read at this time polls the store. -/
def pollDue (now : Int) : Bool := s.observations && s.lastStorePoll.all (fun last => now - last ≥ storePoll)

/-- What the store returns is taken up as new: its digest is not the known one, or the known one is empty. -/
def pollSees (now : Int) (listed : Option (List StoredReport)) : Bool :=
  s.pollDue now && listed.any (fun stored => !decide (observationsDigest stored = s.storeDigest ∧ s.storeDigest ≠ []))

/-- `listed` is what the store returns, `none` for an error. -/
def pollObservations (now : Int) (listed : Option (List StoredReport)) : Source :=
  if !s.pollDue now then s
  else
    let s := { s with lastStorePoll := some now }
    match listed with
    | none => s
    | some stored =>
      let digest := observationsDigest stored
      if digest = s.storeDigest ∧ s.storeDigest ≠ [] then s
      else { s with storeDigest := digest, stored := stored }.bump now

end Source

def storedApplications (stored : List StoredReport) (key : ObjectKey) : Option (List Satellite.SatelliteApplication) :=
  (stored.reverse.find? (fun r => r.cluster = key)).map StoredReport.applications

section
variable (isDNS1123Subdomain : String → Bool)

/-- `applyStoredApplications`, on one snapshot. -/
def applyStored (stored : List StoredReport) (snapshot : SatelliteSnapshot) : SatelliteSnapshot :=
  match storedApplications stored snapshot.cluster.identity with
  | none => snapshot
  | some applications =>
    { snapshot with
      applications := applications.map
        (fun app => projectSatelliteStatusApplication isDNS1123Subdomain app snapshot.cluster) }

def applyStoredApplications (observations : Bool) (stored : List StoredReport) (result : List SatelliteSnapshot) :
    List SatelliteSnapshot :=
  if !observations || stored.isEmpty then result else result.map (applyStored isDNS1123Subdomain stored)

/-- The snapshot that readers get of an observation. -/
def shown (snapshot : SatelliteSnapshot) (stale : Bool) : SatelliteSnapshot :=
  if stale ∧ snapshot.cluster.connection ≠ .disabled then
    { snapshot with cluster := { snapshot.cluster with connection := .unhealthy } }
  else snapshot

/-- The deadline has passed. -/
def Source.expired (s : Source) (now : Int) : Bool := s.nextExpiry.any (fun next => now > next)

/-- The scan of a read: work out staleness, and put the snapshots together, in the order of their clusters. -/
def Source.scan (s : Source) (now : Int) : Source :=
  let updated := mapValues (fun o => { o with stale := o.staleAt now }) s.clusters
  let changed := (sortedValues s.clusters).any (fun o => o.staleAt now != o.stale)
  let generation := if changed then s.generation + 1 else s.generation
  { s with
    clusters := updated
    generation := generation
    cacheVersion := generation
    cached := applyStoredApplications isDNS1123Subdomain s.observations s.stored
      ((sortedValues updated).map (fun o => shown o.snapshot o.stale))
    nextExpiry := (sortedValues updated).foldl Source.advanceExpiry none }

/-- `FleetSnapshots`; the reader gets the generation and the cached contents of the result. -/
def Source.fleetSnapshots (s : Source) (now : Int) (listed : Option (List StoredReport)) : Source :=
  let s := (s.publishPending now).pollObservations now listed
  if s.cacheVersion = s.generation ∧ s.expired now = false then s else s.scan isDNS1123Subdomain now
end

/-! ### What a read sees -/

/-- Every observation with its staleness, in the order of the clusters, and the stored reports. -/
structure View where
  observations : List (SatelliteSnapshot × Bool)
  stored : List StoredReport

def View.render (isDNS1123Subdomain : String → Bool) (observations : Bool) (v : View) : List SatelliteSnapshot :=
  applyStoredApplications isDNS1123Subdomain observations v.stored (v.observations.map (fun o => shown o.1 o.2))

/-- The observations with the staleness that is written down. -/
def Source.flagged (s : Source) : List (SatelliteSnapshot × Bool) :=
  (sortedValues s.clusters).map (fun o => (o.snapshot, o.stale))

/-- The observations with their staleness at this time. -/
def Source.observedAt (s : Source) (now : Int) : List (SatelliteSnapshot × Bool) :=
  (sortedValues s.clusters).map (fun o => (o.snapshot, o.staleAt now))

section
variable (isDNS1123Subdomain : String → Bool) (s : Source) (now : Int)

theorem cached_scan : (s.scan isDNS1123Subdomain now).cached =
    View.render isDNS1123Subdomain s.observations { observations := s.observedAt now, stored := s.stored } := by
  simp only [Source.scan, View.render, Source.observedAt, sortedValues_mapValues, map_map]
  rfl

theorem flagged_scan : (s.scan isDNS1123Subdomain now).flagged = s.observedAt now := by
  simp only [Source.scan, Source.flagged, Source.observedAt, sortedValues_mapValues, map_map]
  rfl

/-- A scan advances the generation exactly if an observation has become stale, or is no longer. -/
theorem generation_scan : (s.scan isDNS1123Subdomain now).generation =
    if s.flagged = s.observedAt now then s.generation else s.generation + 1 := by
  have hsame : (sortedValues s.clusters).any (fun o => o.staleAt now != o.stale) = false ↔
      s.flagged = s.observedAt now := by
    simp only [Source.flagged, Source.observedAt, map_inj_left, Prod.mk.injEq, true_and, any_eq_false,
      bne_iff_ne, ne_eq, not_not]
    exact forall₂_congr (fun _ _ => eq_comm)
  by_cases h : s.flagged = s.observedAt now
  · rw [if_pos h]
    simp only [Source.scan, hsame.mpr h]
    rfl
  have hchange : (sortedValues s.clusters).any (fun o => o.staleAt now != o.stale) = true := by
    by_contra hno
    exact h (hsame.mp (by simpa using hno))
  rw [if_neg h]
  simp only [Source.scan, hchange, if_true]

theorem foldl_advanceExpiry (os : List SatelliteObservation) : ∀ start : Option Int,
    (∀ e, start = some e → ∃ e', os.foldl Source.advanceExpiry start = some e' ∧ e' ≤ e) ∧
      ∀ o ∈ os, o.stale = false →
        ∃ e, os.foldl Source.advanceExpiry start = some e ∧ e ≤ o.lastSeen.getD 0 + o.timeout := by
  induction os with
  | nil =>
    intro start
    refine ⟨fun e he => ⟨e, he, le_refl e⟩, ?_⟩
    intro o ho
    cases ho
  | cons p rest ih =>
    intro start
    obtain ⟨hkeep, hrest⟩ := ih (Source.advanceExpiry start p)
    -- a deadline that is set stays at least as early
    have hstart : ∀ e, start = some e → ∃ e', Source.advanceExpiry start p = some e' ∧ e' ≤ e := by
      intro e he
      subst he
      rw [Source.advanceExpiry]
      split
      · exact ⟨e, rfl, le_refl e⟩
      · by_cases hlt : p.lastSeen.getD 0 + p.timeout < e
        · exact ⟨_, by simp [hlt], le_of_lt hlt⟩
        · exact ⟨e, by simp [hlt], le_refl e⟩
    have hnew : p.stale = false → ∃ e, Source.advanceExpiry start p = some e ∧ e ≤ p.lastSeen.getD 0 + p.timeout := by
      intro hfresh
      rw [Source.advanceExpiry, hfresh]
      cases start with
      | none => exact ⟨_, rfl, le_refl _⟩
      | some e =>
        by_cases hlt : p.lastSeen.getD 0 + p.timeout < e
        · exact ⟨_, by simp [hlt], le_refl _⟩
        · exact ⟨e, by simp [hlt], not_lt.mp hlt⟩
    refine ⟨?_, ?_⟩
    · intro e he
      obtain ⟨e', he', hle⟩ := hstart e he
      obtain ⟨e'', he'', hle'⟩ := hkeep e' he'
      exact ⟨e'', he'', le_trans hle' hle⟩
    intro o ho hfresh
    obtain rfl | ho := mem_cons.mp ho
    · obtain ⟨e, he, hle⟩ := hnew hfresh
      obtain ⟨e', he', hle'⟩ := hkeep e he
      exact ⟨e', he', le_trans hle' hle⟩
    · exact hrest o ho hfresh
end

/-! ### Stored reports and their digest -/

/-- What the store returns, under names that are free of the separators of the digest: one report for each cluster,
and under each session and sequence number always the same report. -/
structure Honest (reported : ObjectKey → Nat → String → List Satellite.SatelliteApplication)
    (stored : List StoredReport) : Prop where
  distinct : (stored.map StoredReport.cluster).Nodup
  names : ∀ r ∈ stored, '/' ∉ r.cluster.inNamespace.toList ∧ ':' ∉ r.cluster.name.toList ∧
    '|' ∉ r.cluster.inNamespace.toList ∧ '|' ∉ r.cluster.name.toList ∧ '|' ∉ r.sessionID.toList
  determined : ∀ r ∈ stored, r.applications = reported r.cluster r.sequence r.sessionID

section
variable {reported : ObjectKey → Nat → String → List Satellite.SatelliteApplication} {stored stored' : List StoredReport}

theorem notMem_toString {c : Char} (hc : c.isDigit = false) (n : Nat) : c ∉ (toString n).toList := by
  intro hmem
  have hmem' : c ∈ Nat.toDigits 10 n := by simpa using hmem
  have hdigit : c.isDigit = true := Nat.isDigit_of_mem_toDigits (by decide) (by decide) hmem'
  exact absurd (hc.symm.trans hdigit) (by decide)

theorem part_toList (r : StoredReport) : r.part.toList = r.cluster.inNamespace.toList ++ '/' ::
    (r.cluster.name.toList ++ ':' :: ((toString r.sequence).toList ++ ':' :: r.sessionID.toList)) := by
  simp [StoredReport.part]

theorem part_inj (h : Honest reported stored) (h' : Honest reported stored') {r r' : StoredReport} (hr : r ∈ stored)
    (hr' : r' ∈ stored') (hpart : r.part = r'.part) :
    r.cluster = r'.cluster ∧ r.sequence = r'.sequence ∧ r.sessionID = r'.sessionID := by
  have hlist := congrArg String.toList hpart
  rw [part_toList, part_toList] at hlist
  obtain ⟨hslash, hcolon, -⟩ := h.names r hr
  obtain ⟨hslash', hcolon', -⟩ := h'.names r' hr'
  obtain ⟨hns, hlist⟩ := append_cons_inj hslash hslash' hlist
  obtain ⟨hname, hlist⟩ := append_cons_inj hcolon hcolon' hlist
  obtain ⟨hseq, hsess⟩ := append_cons_inj (notMem_toString (by decide) _) (notMem_toString (by decide) _) hlist
  refine ⟨?_, Nat.repr_injective (String.toList_inj.mp hseq), String.toList_inj.mp hsess⟩
  cases hc : r.cluster
  cases hc' : r'.cluster
  rw [hc] at hns hname
  rw [hc'] at hns hname
  exact congrArg₂ ObjectKey.mk (String.toList_inj.mp hns) (String.toList_inj.mp hname)

theorem part_clean (h : Honest reported stored) {r : StoredReport} (hr : r ∈ stored) :
    '|' ∉ r.part.toList ∧ r.part.toList ≠ [] := by
  obtain ⟨-, -, hns, hname, hsess⟩ := h.names r hr
  rw [part_toList]
  constructor
  · simp only [mem_append, mem_cons, not_or]
    exact ⟨hns, by decide, hname, by decide, notMem_toString (by decide) _, by decide, hsess⟩
  · simp

theorem mem_parts (stored : List StoredReport) (x : List Char) :
    x ∈ ((stored.map StoredReport.part).mergeSort (fun a b => decide (a ≤ b))).map String.toList ↔
      ∃ r ∈ stored, r.part.toList = x := by
  simp [mem_mergeSort]

section
variable (h : Honest reported stored)
include h

theorem observationsDigest_clean :
    ∀ x ∈ ((stored.map StoredReport.part).mergeSort (fun a b => decide (a ≤ b))).map String.toList,
      '|' ∉ x ∧ x ≠ [] := by
  intro x hx
  obtain ⟨r, hr, rfl⟩ := (mem_parts stored x).mp hx
  exact part_clean h hr

/-- Reports with the same digest are for the same clusters, under the same session and sequence number. -/
theorem mem_of_digest (h' : Honest reported stored')
    (hdigest : observationsDigest stored = observationsDigest stored') {r : StoredReport} (hr : r ∈ stored) :
    ∃ r' ∈ stored', r'.cluster = r.cluster ∧ r'.applications = r.applications := by
  have hparts := intercalate_inj (observationsDigest_clean h) (observationsDigest_clean h') hdigest
  have hmem := (mem_parts stored r.part.toList).mpr ⟨r, hr, rfl⟩
  rw [hparts] at hmem
  obtain ⟨r', hr', hpart⟩ := (mem_parts stored' _).mp hmem
  obtain ⟨hcluster, hseq, hsess⟩ := part_inj h' h hr' hr (String.toList_inj.mp hpart)
  exact ⟨r', hr', hcluster, by rw [h'.determined r' hr', h.determined r hr, hcluster, hseq, hsess]⟩

theorem storedApplications_of_mem {r : StoredReport} (hr : r ∈ stored) :
    storedApplications stored r.cluster = some r.applications := by
  have honly : ∀ q ∈ stored, q.cluster = r.cluster → q = r := by
    intro q hq hcluster
    exact inj_on_of_nodup_map h.distinct hq hr hcluster
  cases hfind : stored.reverse.find? (fun q => q.cluster = r.cluster) with
  | none =>
    rw [List.find?_eq_none] at hfind
    exact absurd (by simp) (hfind r (mem_reverse.mpr hr))
  | some q =>
  have hcluster : q.cluster = r.cluster := by simpa using List.find?_some hfind
  obtain rfl := honly q (mem_reverse.mp (mem_of_find?_eq_some hfind)) hcluster
  rw [storedApplications, hfind]
  rfl
end

theorem storedApplications_eq_none {key : ObjectKey} (hnone : ∀ r ∈ stored, r.cluster ≠ key) :
    storedApplications stored key = none := by
  rw [storedApplications, Option.map_eq_none_iff, List.find?_eq_none]
  intro r hr
  simpa using hnone r (mem_reverse.mp hr)

section
variable (h : Honest reported stored) (h' : Honest reported stored')
  (hdigest : observationsDigest stored = observationsDigest stored')
include h h' hdigest

/-- **The digest determines the stored applications.** -/
theorem storedApplications_of_digest (key : ObjectKey) :
    storedApplications stored key = storedApplications stored' key := by
  by_cases hkey : ∃ r ∈ stored, r.cluster = key
  · obtain ⟨r, hr, rfl⟩ := hkey
    obtain ⟨r', hr', hcluster, happs⟩ := mem_of_digest h h' hdigest hr
    rw [storedApplications_of_mem h hr, ← hcluster, storedApplications_of_mem h' hr', happs]
  have hnone : ∀ r ∈ stored, r.cluster ≠ key := fun r hr heq => hkey ⟨r, hr, heq⟩
  rw [storedApplications_eq_none hnone, storedApplications_eq_none]
  intro r' hr' heq
  obtain ⟨r, hr, hcluster, -⟩ := mem_of_digest h' h hdigest.symm hr'
  exact hnone r hr (hcluster.trans heq)

theorem isEmpty_of_digest : stored.isEmpty = stored'.isEmpty := by
  cases stored with
  | nil =>
    cases stored' with
    | nil => rfl
    | cons r rest =>
      obtain ⟨q, hq, -⟩ := mem_of_digest h' h hdigest.symm (mem_cons_self (a := r) (l := rest))
      cases hq
  | cons r rest =>
    obtain ⟨q, hq, -⟩ := mem_of_digest h h' hdigest (mem_cons_self (a := r) (l := rest))
    cases stored' with
    | nil => cases hq
    | cons _ _ => rfl
end

theorem render_of_digest (isDNS1123Subdomain : String → Bool) (observations : Bool) (h : Honest reported stored)
    (h' : Honest reported stored') (hdigest : observationsDigest stored = observationsDigest stored')
    (seen : List (SatelliteSnapshot × Bool)) :
    View.render isDNS1123Subdomain observations { observations := seen, stored := stored } =
      View.render isDNS1123Subdomain observations { observations := seen, stored := stored' } := by
  simp only [View.render, applyStoredApplications, isEmpty_of_digest h h' hdigest]
  have happly : applyStored isDNS1123Subdomain stored = applyStored isDNS1123Subdomain stored' := by
    funext snapshot
    rw [applyStored, applyStored, storedApplications_of_digest h h' hdigest]
  rw [happly]
end

end Paprika.Fleet
