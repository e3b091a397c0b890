import Mathlib.Data.String.Basic
import Mathlib.Data.Prod.Lex

/-!
# Fleet: the read model

The records that the fleet index answers queries from: one `ApplicationSummary` for each Application, with the
placements it is targeted at, and summaries of the projects, repositories, clusters and optional sources around it.
-/

namespace Paprika.Fleet

/-- `types.NamespacedName`. -/
structure ObjectKey where
  inNamespace : String
  name : String

/-- The zero value `types.NamespacedName{}`. -/
def ObjectKey.zero : ObjectKey := { inNamespace := "", name := "" }

/-- `compareObjectKeys`: by namespace, then by name. -/
instance : LinearOrder ObjectKey :=
  LinearOrder.lift' (fun k : ObjectKey => toLex (k.inNamespace, k.name)) (by
    intro a b h
    obtain ⟨hnamespace, hname⟩ := Prod.mk.inj (toLex.injective h)
    cases a
    cases b
    exact congrArg₂ ObjectKey.mk hnamespace hname)

def completeObjectKey (key : ObjectKey) : Bool := key.inNamespace != "" && key.name != ""

/-! ### Enumerations -/

inductive Health
  | unspecified
  | healthy
  | progressing
  | degraded
  | failed
  | unknown
  | missing
  deriving DecidableEq

inductive SyncState
  | unspecified
  | synced
  | outOfSync
  | unknown
  deriving DecidableEq

inductive SourceType
  | unspecified
  | git
  | helm
  | kustomize
  | s3
  | oci
  | inlineSource
  deriving DecidableEq

inductive ReleaseState
  | unspecified
  | pending
  | promoting
  | canarying
  | verifying
  | complete
  | failed
  | rolledBack
  | superseded
  | awaitingApproval
  deriving DecidableEq

inductive RolloutState
  | unspecified
  | pending
  | progressing
  | paused
  | healthy
  | degraded
  | failed
  | rolledBack
  | aborted
  deriving DecidableEq

inductive ConnectionState
  | unspecified
  | healthy
  | unhealthy
  | disabled
  | notConfigured
  deriving DecidableEq

inductive ClusterMode
  | direct
  | agent
  | inCluster
  | other (mode : String)
  deriving DecidableEq

/-! ### Records -/

structure StageTargetSummary where
  stableID : String
  stage : String
  ring : Int
  cluster : ObjectKey
  clusterLabel : String
  health : Health
  clusterConnection : ConnectionState
  unmanagedInlineCluster : Bool
  deriving DecidableEq

structure ApplicationSummary where
  identity : ObjectKey
  satelliteOnly : Bool
  logicalIdentityName : String
  project : ObjectKey
  targets : List StageTargetSummary
  currentStage : String
  currentCluster : ObjectKey
  currentClusterLabel : String
  sourceType : SourceType
  sourceRevision : String
  health : Health
  sync : SyncState
  driftCount : UInt32
  missingResourceCount : UInt32
  releaseState : ReleaseState
  rolloutState : RolloutState
  resourceCount : UInt32
  repository : ObjectKey
  repositoryConnection : ConnectionState
  effectiveObservabilitySource : ObjectKey
  observabilityConnection : ConnectionState
  observabilityBindings : List ObjectKey
  blockedGateCount : UInt32
  lastTransitionUnixMS : Int
  attentionLabel : String
  attentionDetail : String
  attentionResource : String
  attentionSeverity : Nat
  deriving DecidableEq

/-- The zero value `ApplicationSummary{}`. -/
def ApplicationSummary.zero : ApplicationSummary :=
  { identity := .zero, satelliteOnly := false, logicalIdentityName := "", project := .zero, targets := [],
    currentStage := "", currentCluster := .zero, currentClusterLabel := "", sourceType := .unspecified,
    sourceRevision := "", health := .unspecified, sync := .unspecified, driftCount := 0, missingResourceCount := 0,
    releaseState := .unspecified, rolloutState := .unspecified, resourceCount := 0, repository := .zero,
    repositoryConnection := .unspecified, effectiveObservabilitySource := .zero,
    observabilityConnection := .unspecified, observabilityBindings := [], blockedGateCount := 0,
    lastTransitionUnixMS := 0, attentionLabel := "", attentionDetail := "", attentionResource := "",
    attentionSeverity := 0 }

structure ProjectSummary where
  identity : ObjectKey
  deriving DecidableEq

structure RepositorySummary where
  identity : ObjectKey
  connection : ConnectionState
  deriving DecidableEq

structure ClusterSummary where
  identity : ObjectKey
  displayName : String
  connection : ConnectionState
  mode : ClusterMode
  deriving DecidableEq

structure SourceSummary where
  identity : ObjectKey
  project : ObjectKey
  connection : ConnectionState
  deriving DecidableEq

/-- `SatelliteSnapshot`: what one registered cluster observes. -/
structure SatelliteSnapshot where
  cluster : ClusterSummary
  applications : List ApplicationSummary
  deriving DecidableEq

end Paprika.Fleet
