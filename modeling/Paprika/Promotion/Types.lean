import Paprika.Pipelines.Operations

/-!
# Promotion: data model

The parts of an Application that promotion reads and writes (`application_types.go`), and what one reconcile reads of
the rest of the cluster.

`Ω` stands for the settings of a specification that promotion only hashes and compares, and `H` for hashes of
specifications; no hash is the empty string of the source.  Times are whole seconds, the precision the API keeps.  The
name of a verification Pipeline is a digest in the source; here it is what the digest is taken of.
-/

namespace Paprika.Promotion

open Pipelines

/-- `ApplicationReference`. -/
structure Reference where
  name : String
  ns : String
  deriving DecidableEq, Repr

/-- The types of a `GateConfig`. -/
inductive GateType
  | smokeTest | duration
  deriving DecidableEq, Repr

structure GateConfig where
  type : GateType
  endpoint : String
  timeout : Int
  deriving DecidableEq, Repr

/-- `ApplicationBuildStep`, and `PipelineStep` as far as it is made of one. -/
structure TestStep where
  name : String
  image : String
  script : String
  depends : List String
  timeout : Int
  retry : Int
  deriving DecidableEq, Repr

/-- `ApplicationBuildSpec`, and the `PipelineSpec` made of one; its sources, parallelism and artifacts are `settings`. -/
structure Tests (Ω : Type) where
  steps : List TestStep
  settings : Ω
  deriving DecidableEq, Repr

/-- `ApplicationTriggerType`. -/
inductive TriggerType
  | gitOps | promotion | manual
  deriving DecidableEq, Repr

/-- `ApplicationTrigger`. -/
structure Trigger (Ω : Type) where
  type : TriggerType
  fromRef : Option Reference
  tests : Option (Tests Ω)
  gates : List GateConfig
  deriving DecidableEq, Repr

inductive SyncPolicy
  | auto | manual
  deriving DecidableEq, Repr

/-- `ApplicationSpec`; stages by their names. -/
structure Spec (Ω : Type) where
  trigger : Option (Trigger Ω)
  syncPolicy : SyncPolicy
  stages : List String
  settings : Ω
  deriving DecidableEq, Repr

inductive Phase
  | verifying | awaitingApproval | ready | promoting | complete | failed
  deriving DecidableEq, Repr

/-- What `promotionPipelineName` digests; an attempt counts together with the hash. -/
structure PipelineIdentity (Ω H : Type) where
  sourceApplicationUID : String
  sourceReleaseUID : String
  tests : Option (Tests Ω)
  attempt : Option (String × Option H)
  deriving DecidableEq, Repr

/-- The identity of a candidate: what `promotionCandidateMatches` compares. -/
structure SourceKey where
  application : Reference
  applicationUID : String
  release : String
  releaseUID : String
  revision : String
  deriving DecidableEq, Repr

/-- `ApplicationPromotionStatus`, with its five source fields in one. -/
structure Candidate (Ω H : Type) where
  source : SourceKey
  phase : Phase
  verificationPipelineRef : Option (PipelineIdentity Ω H)
  verificationConfigHash : Option H
  verificationAttempt : String
  consumedVerificationAttempts : List String
  verificationStartedAt : Option Int
  message : String
  deriving DecidableEq, Repr

/-- `ApplicationStatus`; `promotionReady` is the status of the `PromotionReady` condition, if it is set. -/
structure Status (Ω H : Type) where
  promotion : Option (Candidate Ω H)
  promotionReady : Option Bool
  acceptedDeployment : Option (Spec Ω)
  sourceRevision : String
  releaseRef : String
  deriving DecidableEq, Repr

/-- An `Application`; `approval` and `retry` are its annotations `paprika.io/promote` and `paprika.io/promotion-retry`. -/
structure Application (Ω H : Type) where
  name : Reference
  generation : Nat
  spec : Spec Ω
  approval : String
  retry : String
  status : Status Ω H
  deriving DecidableEq, Repr

/-! ### What a reconcile reads -/

/-- A read of the API. -/
inductive Lookup (α : Type)
  | failed
  | notFound
  | found (a : α)
  deriving DecidableEq, Repr

/-- The upstream Application, as far as promotion looks at it itself. -/
structure UpstreamObject where
  uid : String
  releaseRef : String
  deriving DecidableEq, Repr

/-- A `Release`, with its source revision; the zero value has an empty name and UID. -/
structure ReleaseObject where
  name : String
  uid : String
  revision : String
  deriving DecidableEq, Repr

def ReleaseObject.zero : ReleaseObject := { name := "", uid := "", revision := "" }

/-- One look at the upstream: the Application, its Release, and what the remaining checks of `promotionSourceReady`
report. -/
structure SourceObservation where
  application : Option UpstreamObject
  release : Lookup ReleaseObject
  unready : Option String
  deriving DecidableEq, Repr

/-- What `validatePromotionReferenceChain` finds. -/
inductive ChainVerdict
  | valid
  | unavailable
  | invalid (message : String)
  deriving DecidableEq, Repr

/-- A verification Pipeline that was found. -/
structure PipelineObject (Ω H : Type) where
  controlled : Bool
  attempt : String
  configHash : Option H
  sourceApplicationUID : String
  sourceReleaseUID : String
  revision : String
  spec : Tests Ω
  phase : PipelinePhase
  generation : Nat
  observedGeneration : Nat
  stepStatuses : List StepStatus
  deriving DecidableEq, Repr

/-- The current Release of the target with its promotion annotations; `active` is `ownedActivePromotionRelease`. -/
structure AdmittedRelease (H : Type) where
  active : Bool
  source : SourceKey
  configHash : Option H
  deriving DecidableEq, Repr

/-- Everything one reconcile is told: the upstream at the start, before an attempt becomes active and at the end, the
Pipelines by their names, the outcome of each gate by its position, `none` for passed, and the sync windows. -/
structure Observation (Ω H : Type) where
  chain : ChainVerdict
  source : SourceObservation
  incompatible : Option String
  currentRelease : Option (AdmittedRelease H)
  jobsUnstopped : PipelineIdentity Ω H → Option String
  attemptPipeline : PipelineIdentity Ω H → Lookup Unit
  sourceAtAttempt : SourceObservation
  uuid : String
  pipeline : PipelineIdentity Ω H → Lookup (PipelineObject Ω H)
  pipelineCreated : Bool
  gate : Nat → Option String
  sourceAtCompletion : SourceObservation
  windowAllows : Bool
  releaseWindowAllows : Bool
  releaseCleared : Bool

/-- The reasons of `promotionBlocked`. -/
inductive Reason
  | upstreamReferenceRequired | invalidUpstreamReference | invalidPromotionChain | upstreamUnavailable
  | upstreamCandidateChanged | upstreamNotReady | incompatiblePromotionSource | promotionVerificationFailed
  | promotionObservationPending | promotionVerificationPending | promotionGateFailed | promotionAwaitingApproval
  | invalidPromotionRetry | promotionRetryLimitReached | promotionAlreadyAdmitted | promotionRetryJobsUnstopped
  | promotionRetryReplayed
  deriving DecidableEq, Repr

/-- `promotionBlockedError`, or any other error, which only ends the reconcile. -/
inductive Failure
  | blocked (reason : Reason) (message : String)
  | other (message : String)
  deriving DecidableEq, Repr

end Paprika.Promotion
