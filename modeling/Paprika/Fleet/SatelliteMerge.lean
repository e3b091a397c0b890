import Paprika.Fleet.SatelliteSource
import Paprika.Fleet.Snapshot

/-!
# Fleet: merging satellite snapshots

`MergeSatelliteSnapshots` joins what registered clusters observe to the local snapshot.  The observations of one cluster
are normalised, taken once for each physical instance, and joined under the identity they go by locally
(`coalesceSatelliteObservations`); each joined observation is then merged into the record of its identity, if it has
the same project, or becomes a record.  A local record whose own placement is observed gives up its own counts.
-/

namespace Paprika.Fleet

open Lib.InvertedIndex Lib.Text

/-! ### Severities -/

def unhealthySeverity : Health → Nat
  | .healthy => 0
  | .unspecified => 1
  | .unknown => 2
  | .progressing => 3
  | .degraded => 4
  | .missing => 5
  | .failed => 6

def satelliteSyncSeverity : SyncState → Nat
  | .outOfSync => 3
  | .unknown => 2
  | .unspecified => 1
  | .synced => 0

/-! ### Targets -/

/-- The order of `sortStageTargets`: by ring, stage, cluster and ID. -/
def stageTargetBefore (a b : StageTargetSummary) : Bool :=
  decide (toLex (a.ring, toLex (a.stage, toLex (a.cluster, a.stableID))) ≤
    toLex (b.ring, toLex (b.stage, toLex (b.cluster, b.stableID))))

def sortStageTargets (targets : List StageTargetSummary) : List StageTargetSummary := targets.mergeSort stageTargetBefore

/-- An observed target is about this one: the same cluster, and the same stage if it has one. -/
def StageTargetSummary.isObservedBy (current target : StageTargetSummary) : Bool :=
  decide (current.cluster = target.cluster) && (target.stage == "" || current.stage == target.stage)

/-- One round of the loop of `mergeSatelliteTargets`. -/
def mergeSatelliteTarget (satelliteOnly : Bool) (targets : List StageTargetSummary) (target : StageTargetSummary) :
    List StageTargetSummary :=
  if targets.any (fun current => current.isObservedBy target) then
    targets.map (fun current =>
      if current.isObservedBy target then
        { current with
          health :=
            if !satelliteOnly || decide (unhealthySeverity target.health > unhealthySeverity current.health) then
              target.health
            else current.health
          clusterLabel := target.clusterLabel
          clusterConnection := target.clusterConnection }
      else current)
  else targets ++ [target]

def mergeSatelliteTargets (current : ApplicationSummary) (targets : List StageTargetSummary) : ApplicationSummary :=
  { current with targets := sortStageTargets (targets.foldl (mergeSatelliteTarget current.satelliteOnly) current.targets) }

/-! ### Records -/

def maxUint32 : UInt32 := 4294967295

def saturatingAdd (left right : UInt32) : UInt32 :=
  if maxUint32 - left < right then maxUint32 else left + right

def mergeSatelliteApplication (current observed : ApplicationSummary) : ApplicationSummary :=
  let worse := decide (observed.attentionSeverity > current.attentionSeverity)
  mergeSatelliteTargets
    { current with
      resourceCount := saturatingAdd current.resourceCount observed.resourceCount
      driftCount := saturatingAdd current.driftCount observed.driftCount
      missingResourceCount := saturatingAdd current.missingResourceCount observed.missingResourceCount
      blockedGateCount := saturatingAdd current.blockedGateCount observed.blockedGateCount
      health :=
        if unhealthySeverity observed.health > unhealthySeverity current.health then observed.health else current.health
      sync :=
        if satelliteSyncSeverity observed.sync > satelliteSyncSeverity current.sync then observed.sync else current.sync
      lastTransitionUnixMS :=
        if observed.lastTransitionUnixMS > current.lastTransitionUnixMS then observed.lastTransitionUnixMS
        else current.lastTransitionUnixMS
      attentionLabel := if worse then observed.attentionLabel else current.attentionLabel
      attentionDetail := if worse then observed.attentionDetail else current.attentionDetail
      attentionResource := if worse then observed.attentionResource else current.attentionResource
      attentionSeverity := if worse then observed.attentionSeverity else current.attentionSeverity }
    observed.targets

/-! ### The observations of one cluster -/

section
variable (isDNS1123Subdomain : String → Bool)

def normalizeSatelliteTarget (app : ApplicationSummary) (cluster : ClusterSummary) (target : StageTargetSummary) :
    StageTargetSummary :=
  { target with
    cluster := cluster.identity
    clusterLabel := cluster.displayName
    clusterConnection := cluster.connection
    unmanagedInlineCluster := false
    stableID :=
      if target.stableID = "" then satelliteTargetID cluster.identity app.identity ++ ":" ++ pathEscape target.stage
      else target.stableID
    health := app.health }

def normalizeSatelliteObservation (app : ApplicationSummary) (cluster : ClusterSummary) : ApplicationSummary :=
  let app := { app with
    satelliteOnly := true
    currentCluster := cluster.identity
    currentClusterLabel := cluster.displayName
    repository := .zero
    repositoryConnection := .notConfigured
    effectiveObservabilitySource := .zero
    observabilityBindings := []
    observabilityConnection := .notConfigured }
  let app :=
    if cluster.connection ≠ .healthy then
      { app with
        health := .unknown
        sync := .unknown
        attentionLabel := "satellite unavailable"
        attentionDetail := "Cluster observations are stale until the satellite reconnects."
        attentionResource := ""
        attentionSeverity := attentionSeverityResource }
    else app
  let targets :=
    if app.targets = [] then
      [{ stableID := satelliteTargetID cluster.identity app.identity
         stage := app.currentStage
         ring := 0
         cluster := .zero
         clusterLabel := ""
         health := .unspecified
         clusterConnection := .unspecified
         unmanagedInlineCluster := false }]
    else app.targets
  { app with targets := targets.map (normalizeSatelliteTarget app cluster) }

/-- The physical instance that an observation is of: the ID of its first target. -/
def ApplicationSummary.instanceID (app : ApplicationSummary) : String :=
  (app.targets.head?.map StageTargetSummary.stableID).getD ""

/-- `localSatelliteAliases`: what each local application goes by on satellites, and the names that two of them share. -/
structure Aliases where
  canonical : Table ObjectKey ObjectKey
  ambiguous : IDSet

def logicalIdentity (id : ObjectKey) (app : ApplicationSummary) : ObjectKey :=
  satelliteApplicationIdentity isDNS1123Subdomain id.inNamespace id.name app.logicalIdentityName

def addAlias (applications : Table ObjectKey ApplicationSummary) (aliases : Aliases) (id : ObjectKey) : Aliases :=
  match applications.lookup id with
  | none => aliases
  | some app =>
    let logical := logicalIdentity isDNS1123Subdomain id app
    let shared := (aliases.canonical.lookup logical).any (fun previous => previous != id)
    { canonical := aliases.canonical.insert logical id
      ambiguous := if shared then insert logical aliases.ambiguous else aliases.ambiguous }

def localSatelliteAliases (applications : Table ObjectKey ApplicationSummary) : Aliases :=
  (sortedIDs applications.keys).foldl (addAlias isDNS1123Subdomain applications) { canonical := ∅, ambiguous := ∅ }

/-- The observation as it is joined, if it is complete and its name is not shared. -/
def acceptObservation (aliases : Aliases) (cluster : ClusterSummary) (observed : ApplicationSummary) :
    Option ApplicationSummary :=
  if !completeObjectKey observed.identity || !completeObjectKey observed.project then none
  else if observed.identity ∈ aliases.ambiguous then none
  else some (normalizeSatelliteObservation observed cluster)

/-- Join an observation to those with its identity, if the projects agree. -/
def joinObservation (groups : Table ObjectKey ApplicationSummary) (observed : ApplicationSummary) :
    Table ObjectKey ApplicationSummary :=
  match groups.lookup observed.identity with
  | some previous =>
    if previous.project = observed.project then
      groups.insert observed.identity (mergeSatelliteApplication previous observed)
    else groups
  | none => groups.insert observed.identity observed

def canonicalObservation (aliases : Aliases) (observed : ApplicationSummary) : ApplicationSummary :=
  { observed with identity := (aliases.canonical.lookup observed.identity).getD observed.identity }

/-- One round of the loop of `coalesceSatelliteObservations`, over the groups and the instances seen. -/
def coalesceObservation (aliases : Aliases) (cluster : ClusterSummary)
    (state : Table ObjectKey ApplicationSummary × Finset String) (observed : ApplicationSummary) :
    Table ObjectKey ApplicationSummary × Finset String :=
  match acceptObservation aliases cluster observed with
  | none => state
  | some observed =>
    if observed.instanceID ∈ state.2 then state
    else (joinObservation state.1 (canonicalObservation aliases observed), insert observed.instanceID state.2)

def sortedRecords (groups : Table ObjectKey ApplicationSummary) : List ApplicationSummary :=
  (sortedIDs groups.keys).filterMap (fun id => groups.lookup id)

def coalesceGroups (aliases : Aliases) (satellite : SatelliteSnapshot) : Table ObjectKey ApplicationSummary :=
  (satellite.applications.foldl (coalesceObservation aliases satellite.cluster) (∅, ∅)).1

def coalesceSatelliteObservations (aliases : Aliases) (satellite : SatelliteSnapshot) : List ApplicationSummary :=
  sortedRecords (coalesceGroups aliases satellite)
end

/-! ### Merging -/

/-- The loop of `MergeSatelliteSnapshots` over the clusters. -/
structure MergeState where
  groups : Table ObjectKey ApplicationSummary
  replacedLocal : IDSet
  clusters : Table ObjectKey ClusterSummary
  seenClusters : IDSet

def withoutOwnCounts (current base : ApplicationSummary) : ApplicationSummary :=
  { current with
    resourceCount := current.resourceCount - base.resourceCount
    driftCount := current.driftCount - base.driftCount
    missingResourceCount := current.missingResourceCount - base.missingResourceCount
    blockedGateCount := current.blockedGateCount - base.blockedGateCount }

section
variable (isDNS1123Subdomain : String → Bool) (u : Unicode)

def mergeSatellitePlacement (localApplications : Table ObjectKey ApplicationSummary) (cluster : ObjectKey)
    (state : MergeState) (observed : ApplicationSummary) : MergeState :=
  match state.groups.lookup observed.identity with
  | none => { state with groups := state.groups.insert observed.identity observed }
  | some current =>
    if current.project ≠ observed.project then state
    else
      let replaces := (localApplications.lookup observed.identity).any (fun base =>
        decide (observed.identity ∉ state.replacedLocal) && decide (base.currentCluster = cluster))
      let base := (localApplications.lookup observed.identity).getD .zero
      let current := if replaces then withoutOwnCounts current base else current
      { state with
        groups := state.groups.insert observed.identity (mergeSatelliteApplication current observed)
        replacedLocal := if replaces then insert observed.identity state.replacedLocal else state.replacedLocal }

/-- What one cluster observes, unless it is incomplete or a duplicate. -/
def mergeSatellite (localApplications : Table ObjectKey ApplicationSummary) (aliases : Aliases) (state : MergeState)
    (satellite : SatelliteSnapshot) : MergeState :=
  let identity := satellite.cluster.identity
  if !completeObjectKey identity then state
  else if identity ∈ state.seenClusters then state
  else
    (coalesceSatelliteObservations aliases satellite).foldl (mergeSatellitePlacement localApplications identity)
      { state with
        clusters := state.clusters.insert identity satellite.cluster
        seenClusters := insert identity state.seenClusters }

def orderedSatellites (satellites : List SatelliteSnapshot) : List SatelliteSnapshot :=
  satellites.mergeSort (fun a b => decide (a.cluster.identity ≤ b.cluster.identity))

def mergedState (snapshot : Snapshot) (satellites : List SatelliteSnapshot) : MergeState :=
  (orderedSatellites satellites).foldl
    (mergeSatellite snapshot.applications (localSatelliteAliases isDNS1123Subdomain snapshot.applications))
    { groups := snapshot.applications, replacedLocal := ∅, clusters := snapshot.clusters, seenClusters := ∅ }

def mergeSatelliteSnapshots (snapshot : Snapshot) (satellites : List SatelliteSnapshot) (generation : Nat) :
    Except String Snapshot := do
  let state := mergedState isDNS1123Subdomain snapshot satellites
  let result := (((newSnapshot generation).setTable .projects snapshot.projects).setTable .repositories
    snapshot.repositories).setTable .sources snapshot.sources
  let result := result.setTable .clusters state.clusters
  let result := (sortedRecords state.groups).foldl addApplicationMutable result
  validateSnapshot result
  return rebuildSearchIndex u result
end

end Paprika.Fleet
