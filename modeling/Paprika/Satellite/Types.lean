import Mathlib.Data.String.Basic
import Paprika.Lib.KeyedMap

/-!
# The satellite reporting protocol: data model

The types of `internal/satellite/protocol.go` and of `SatelliteStatus` in `api/clusters/v1alpha1/cluster_types.go`,
as far as the collector and the report handler read or write them.

* The aggregates of a report (inventory, capacity, node pools and provider type) are compared and copied but never
  looked into by the replication logic: their type `Ω` stays a parameter.
* A Go `map[string]Application` is a finite map (`KeyedMap.Map`); its entry order stands for the iteration order.
  The maps the projection hands to the collector are keyed by `Application.Key()`, which `ObservedApplications`
  carries as a field.
* `uint64` and `int64` sequence numbers are natural numbers: a report whose sequence is zero or at least `1<<63` is
  refused before anything is stored.

What the code takes from outside the repository is in `Externals`.
-/

namespace Paprika.Satellite

open Lib.KeyedMap

def protocolVersion : Int := 1

/-- `satellite.MaxReportBytes`, `1 << 20`. -/
def maxReportBytes : Nat := 1048576

def maxApplications : Nat := 2000

structure Application where
  inNamespace : String
  name : String
  identity : String
  project : String
  health : String
  phase : String
  outOfSync : UInt32
  syncKnown : Bool
  resourceCount : UInt32
  sourceRevision : String
  deriving DecidableEq, Repr

def Application.key (a : Application) : String := a.inNamespace ++ "/" ++ a.name

structure SatelliteApplication where
  inNamespace : String
  name : String
  identity : String
  project : String
  health : String
  phase : String
  outOfSync : UInt32
  syncKnown : Bool
  resourceCount : UInt32
  sourceRevision : String
  deriving DecidableEq, Repr

/-- The key `buildBaseline` files a persisted application under. -/
def SatelliteApplication.key (a : SatelliteApplication) : String := a.inNamespace ++ "/" ++ a.name

def statusApplication (a : Application) : SatelliteApplication :=
  { inNamespace := a.inNamespace, name := a.name, identity := a.identity, project := a.project,
    health := a.health, phase := a.phase, outOfSync := a.outOfSync, syncKnown := a.syncKnown,
    resourceCount := a.resourceCount, sourceRevision := a.sourceRevision }

@[simp] theorem statusApplication_key (a : Application) : (statusApplication a).key = a.key := rfl

/-- The application map of `observationState.snapshot`, keyed by `Application.Key()`. -/
structure ObservedApplications where
  apps : Map String Application
  keyed : Keyed Application.key apps

/-- `satellite.Report`.  `observedAt` is `none` for the zero time. -/
structure Report (Ω : Type) where
  protocolVersion : Int
  clusterNamespace : String
  clusterName : String
  clusterUID : String
  displayName : String
  sessionID : String
  sequence : Nat
  snapshot : Bool
  observedAt : Option Int
  version : String
  kubernetesVersion : String
  aggregates : Ω
  policies : List String
  autonomy : String
  operatingState : String
  applications : List Application
  deletedApplications : List String
  deriving DecidableEq

/-- `clusters.SatelliteStatus`: the fence (identity, session, sequence, digest, retired sessions) and the baseline. -/
structure SatelliteStatus where
  clusterUID : String
  sessionID : String
  sequence : Nat
  reportDigest : String
  retiredSessions : List String
  lastSeen : Option Int
  applications : List SatelliteApplication
  deriving DecidableEq, Repr

/-- The zero value `clusters.SatelliteStatus{}`. -/
def SatelliteStatus.zero : SatelliteStatus :=
  { clusterUID := "", sessionID := "", sequence := 0, reportDigest := "", retiredSessions := [],
    lastSeen := none, applications := [] }

/-- What lies outside the repository, or inside it but outside the replication logic. -/
structure Externals (Ω : Type) where
  /-- `len(validation.IsDNS1123Subdomain(name)) == 0`. -/
  isDNS1123Subdomain : String → Bool
  /-- `len(validation.IsDNS1123Label(name)) == 0`. -/
  isDNS1123Label : String → Bool
  /-- `validInventory`, `validateCapacity`, `validateNodePools` and `validateTopology`: the first error. -/
  validateAggregates : Ω → Option String
  /-- `hex(sha256(body))` of the encoded report. -/
  digest : Report Ω → String
  /-- `len(json.Marshal(state))`. -/
  stateBytes : SatelliteStatus → Nat

end Paprika.Satellite
