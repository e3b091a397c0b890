import Mathlib.Data.List.Basic

/-!
# Releases: data model

The parts of `release_types.go` and `stage_types.go` on which the phases of a Release depend, what one reconcile of
`release_controller.go` is told by the rest of the cluster, and what it does.

Times are whole seconds, the precision the API keeps.  Conditions, events, metrics and the promotion history are
written on the way and read by no phase.
-/

namespace Paprika.Releases

/-- `ReleasePhase`; `unset` is the empty string of a Release that no reconcile has written yet. -/
inductive ReleasePhase
  | unset | pending | promoting | canarying | verifying | awaitingApproval | complete | failed | rolledBack | superseded
  deriving DecidableEq, Repr

structure ReleaseStatus where
  phase : ReleasePhase
  canaryWeight : Int
  canaryStepIndex : Nat
  canaryStepStartedAt : Option Int
  rolloutRef : String
  rolledBackTo : String
  hookAttempt : Nat
  deriving DecidableEq, Repr

/-- The zero value `ReleaseStatus{}`. -/
def ReleaseStatus.zero : ReleaseStatus :=
  { phase := .unset, canaryWeight := 0, canaryStepIndex := 0, canaryStepStartedAt := none, rolloutRef := "",
    rolledBackTo := "", hookAttempt := 0 }

/-- A `Release`; `rollsBack` says that `spec.onFailure.action` is `rollback`, and the two requests are the annotations
`paprika.io/resync-requested` and `paprika.io/rollback-requested`. -/
structure Release where
  name : String
  target : String
  rollsBack : Bool
  resyncRequested : Bool
  rollbackRequested : Bool
  status : ReleaseStatus
  deriving DecidableEq, Repr

def Release.create (name target : String) (rollsBack : Bool) : Release :=
  { name, target, rollsBack, resyncRequested := false, rollbackRequested := false, status := .zero }

/-- `AnalysisConfig`; checks by what identifies them. -/
structure AnalysisConfig where
  checks : List String
  rollbackOnFail : Bool
  deriving DecidableEq, Repr

structure CanaryConfig where
  steps : List Int
  intervalSeconds : Int
  progressDeadlineSeconds : Int
  analysis : Option AnalysisConfig
  deriving DecidableEq, Repr

/-- A `Stage`; of its rollout strategy and its traffic router only whether there is one. -/
structure Stage where
  rolloutStrategy : Bool
  canary : Option CanaryConfig
  trafficRouter : Bool
  deriving DecidableEq, Repr

/-- The phases of a `Rollout` that `reconcileRolloutManagedRelease` tells apart. -/
inductive RolloutPhase
  | healthy | failed | degraded | rolledBack | other
  deriving DecidableEq, Repr

/-- A read of the API. -/
inductive Lookup (α : Type)
  | error
  | notFound
  | found (a : α)
  deriving DecidableEq, Repr

/-- What `checkApprovalGates` reports. -/
inductive ApprovalGates
  | error | rejected | approved | waiting
  deriving DecidableEq, Repr

/-- How `promote` ends: without an error, with one of the errors after which the release waits, or with another. -/
inductive PromoteOutcome
  | done | policyWithheld | hookPhasePending | syncWavePending | conftestBlocked | failed
  deriving DecidableEq, Repr

/-- How `promoteCanary` ends. -/
inductive PromoteCanaryOutcome
  | done | conftestBlocked | failed
  deriving DecidableEq, Repr

/-- Everything one reconcile is told.  `stage` is the target stage as the handler of the phase reads it, `rollout` the phase of
the Rollout after the update; an error counts as not ready. -/
structure Observation where
  now : Int
  listed : Bool
  approval : ApprovalGates
  stage : Option Stage
  promote : PromoteOutcome
  policiesAllowRollout : Bool
  rollout : Lookup RolloutPhase
  rolloutWritten : Bool
  workloadsReady : Bool
  analyzer : Bool
  checkPasses : String → Bool
  weightApplied : Bool
  trafficRouted : Bool
  appliedAt : Int
  promotionAt : Int
  finalWorkloadsReady : Bool
  promoteCanary : PromoteCanaryOutcome
  verified : Bool
  rollback : Option String

/-- A reconcile that finds its stage without steps or strategy, its gates approved and everything it does done. -/
def quietObservation : Observation :=
  { now := 0
    listed := true
    approval := .approved
    stage := some { rolloutStrategy := false, canary := none, trafficRouter := false }
    promote := .done
    policiesAllowRollout := true
    rollout := .notFound
    rolloutWritten := true
    workloadsReady := true
    analyzer := true
    checkPasses := fun _ => true
    weightApplied := true
    trafficRouted := true
    appliedAt := 0
    promotionAt := 0
    finalWorkloadsReady := true
    promoteCanary := .done
    verified := true
    rollback := none }

/-- What a reconcile does, in its order: the writes of the status and of the annotations, any of which may fail, and on
the way what it reads of the Rollout, the canary weights it puts in force and the checks that pass. -/
inductive Action
  | status (s : ReleaseStatus)
  | clearResync
  | spendRetries
  | rolloutRead (p : RolloutPhase)
  | weightApplied (step : Nat) (weight : Int) (at_ : Int)
  | gatePassed (at_ : Int)
  | checksPassed (at_ : Int)
  deriving DecidableEq, Repr

end Paprika.Releases
