import Paprika.Fleet.Types
import Paprika.Lib.Text
import Paprika.Satellite.Types

/-!
# Fleet: projecting statuses

How the states that controllers and satellites report become the provider-neutral states of a summary.
-/

namespace Paprika.Fleet

open Lib.Text

/-- `strings.TrimSpace`. -/
def trimmed (s : String) : String := String.ofList (trimSpace s.toList)

/-- The reported health decides, and the phase where there is none. -/
def mapApplicationHealth (status phase : String) : Health :=
  match status with
  | "Healthy" => .healthy
  | "Progressing" => .progressing
  | "Degraded" => .degraded
  | "Unknown" => .unknown
  | _ =>
    match phase with
    | "Healthy" => .healthy
    | "Pending" | "Building" | "Promoting" | "Canarying" | "Verifying" => .progressing
    | "Degraded" | "RolledBack" => .degraded
    | "Failed" => .failed
    | _ => .unknown

def mapSyncState (drift : UInt32) (synced : Bool) : SyncState :=
  if drift > 0 then .outOfSync else if synced then .synced else .unknown

def pluralizeAttention (count : UInt32) (noun qualifier : String) : String :=
  toString count.toNat ++ " " ++ (if count ≠ 1 then noun ++ "s" else noun) ++ " " ++ qualifier

/-! ### Attention -/

def attentionSeverityResource : Nat := 2

def attentionSeverityCounts : Nat := 1

def defaultProjectName : String := "default"

/-! ### Clusters -/

inductive ClusterPhase
  | pending
  | healthy
  | unhealthy
  | disabled
  | other (phase : String)
  deriving DecidableEq

/-- `status.satellite`: what the last report of the cluster said. -/
structure SatelliteState where
  lastSeen : Option Int
  applications : List Satellite.SatelliteApplication

/-- A `Cluster` registration; `satellite` says whether `spec.satellite` is given, `timeout` is `SatelliteTimeout`. -/
structure Cluster where
  key : ObjectKey
  displayName : String
  mode : ClusterMode
  disabled : Bool
  phase : ClusterPhase
  satellite : Bool
  timeout : Int
  state : Option SatelliteState

def projectClusterSummary (cluster : Cluster) : ClusterSummary where
  identity := cluster.key
  displayName := if trimmed cluster.displayName = "" then cluster.key.name else trimmed cluster.displayName
  mode := cluster.mode
  connection :=
    if cluster.disabled || decide (cluster.phase = .disabled) then .disabled
    else
      match cluster.phase with
      | .healthy => .healthy
      | .unhealthy => .unhealthy
      | .pending | .disabled | .other _ => .unspecified

end Paprika.Fleet
