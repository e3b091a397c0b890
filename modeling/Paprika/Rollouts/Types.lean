import Mathlib.Data.List.AList

/-!
# The Rollout data model

The types of `api/rollouts/v1alpha1/rollout_types.go` and `internal/rollout/core/core.go`, as far as the
strategies and the controller read or write them, and the objects the controller keeps in the cluster
(ReplicaSets and Services).

Two conventions run through the whole development.

* `int32` values are integers; the operations that can leave the range wrap through `int32`.  Times and
  durations are integers in nanoseconds, the unit of `time.Duration`.
* A Go `map[string]string` that may be nil is an `Option Labels`; a map literal is a list of pairs.

What the code takes from outside the repository is collected in `Externals`: the template hash, of which
only the shape of its output is used, and the scaled value of an int-or-percent.
-/

namespace Paprika.Rollouts

/-- The contents of a Go `map[string]string`. -/
abbrev Labels := String → Option String

/-- `for k, v := range labels { m[k] = v }`. -/
def overlay (m : Labels) (labels : List (String × String)) : Labels :=
  labels.foldl (fun m kv => Function.update m kv.1 (some kv.2)) m

/-- Two's complement wrap-around of a 32-bit operation. -/
def int32 (x : Int) : Int := Int.bmod x 4294967296

/-- `RolloutPhase`; `unset` is the empty string of a fresh status. -/
inductive RolloutPhase
  | unset | pending | progressing | paused | healthy | degraded | failed | rolledBack | aborted
  deriving DecidableEq, Repr

inductive Action
  | none | createStable | promote | step | pause | rollback | complete | abort
  deriving DecidableEq, Repr

/-! ### Pod templates -/

/-- `corev1.PodTemplateSpec`: the label map, the annotations and the pod spec.  The pod spec is never
looked into, so its type stays a parameter. -/
structure PodTemplateSpec (P : Type) where
  labels : Option Labels
  annotations : Option Labels
  spec : P

/-- The zero value `corev1.PodTemplateSpec{}`. -/
def PodTemplateSpec.zero (P : Type) [Inhabited P] : PodTemplateSpec P := ⟨none, none, default⟩

structure RolloutTemplate (P : Type) where
  labels : Option Labels
  annotations : Option Labels
  spec : P

/-- `RolloutTemplate.PodTemplateSpec`.  The label map of the result is the map of the receiver, by
reference: see `executeReplicaSetActions` for what writes through it. -/
def RolloutTemplate.podTemplateSpec {P : Type} (t : RolloutTemplate P) : PodTemplateSpec P :=
  ⟨t.labels, t.annotations, t.spec⟩

def rolloutTemplateFromPodTemplate {P : Type} (t : PodTemplateSpec P) : RolloutTemplate P :=
  ⟨t.labels, t.annotations, t.spec⟩

/-! ### Strategy configuration -/

inductive IntOrString
  | int (value : Int)
  | str (value : String)
  deriving DecidableEq, Repr

structure RollingStrategy where
  maxUnavailable : Option IntOrString
  maxSurge : Option IntOrString

structure CanaryStep where
  setWeight : Int
  duration : Option Int
  deriving DecidableEq, Repr

structure CanaryStrategy where
  steps : List CanaryStep
  stableService : String
  canaryService : String

structure BlueGreenStrategy where
  previewService : String
  activeService : String
  autoPromotionSeconds : Option Int
  scaleDownDelaySeconds : Option Int
  previewReplicaCount : Option Int

structure ABTestRoute where
  type : String
  name : String
  value : String
  service : String

structure ABTestStrategy where
  routes : List ABTestRoute
  stableService : String
  canaryService : String

structure MirrorStrategy where
  mirrorPercent : Int
  stableService : String
  canaryService : String

/-- `RolloutStrategy.Type`; `other` is any text outside the enumeration. -/
inductive StrategyType
  | rolling | canary | blueGreen | abTest | mirror
  | other (text : String)
  deriving DecidableEq, Repr

structure RolloutStrategy where
  type : StrategyType
  rolling : Option RollingStrategy
  canary : Option CanaryStrategy
  blueGreen : Option BlueGreenStrategy
  abTest : Option ABTestStrategy
  mirror : Option MirrorStrategy

/-- `TrafficRouter.Provider`; `other` is any text outside the enumeration. -/
inductive Provider
  | istio | gatewayAPI
  | other (text : String)
  deriving DecidableEq, Repr

/-- `TrafficRouter`; of the two provider configurations only their presence matters here. -/
structure TrafficRouter where
  provider : Provider
  istio : Bool
  gatewayAPI : Bool

/-! ### The Rollout -/

structure RolloutTarget where
  kind : String
  name : String

structure RolloutSpec (P : Type) where
  target : RolloutTarget
  strategy : RolloutStrategy
  template : RolloutTemplate P
  replicas : Option Int
  revisionHistoryLimit : Option Int
  paused : Bool
  trafficRouter : Option TrafficRouter

/-- A Rollout without its status.  `finalizer` says whether `rolloutFinalizer` is on the object. -/
structure Rollout (P : Type) where
  name : String
  generation : Int
  annotations : Labels
  finalizer : Bool
  spec : RolloutSpec P

/-- `Spec.Replicas`, one when unset. -/
def Rollout.desiredReplicas {P : Type} (ro : Rollout P) : Int := ro.spec.replicas.getD 1

structure RolloutStatus where
  observedGeneration : Int
  phase : RolloutPhase
  currentStepIndex : Nat
  currentStepWeight : Int
  currentStepStartedAt : Option Int
  stableRS : String
  canaryRS : String
  activeService : String
  previewService : String
  promotedAt : Option Int
  previewHealthyAt : Option Int
  abort : Bool
  currentPodHash : String
  stableReadyReplicas : Int
  canaryReadyReplicas : Int
  previousActiveRS : String
  message : String

/-- The zero value, the status of a Rollout that was never reconciled. -/
def RolloutStatus.empty : RolloutStatus :=
  ⟨0, .unset, 0, 0, none, "", "", "", "", none, none, false, "", 0, 0, "", ""⟩

/-! ### What a strategy returns -/

/-- `core.SyncInputs`, with the reading of its clock. -/
structure SyncInputs where
  now : Int
  stableReadyReplicas : Int
  canaryReadyReplicas : Int

/-- `core.ReplicaSetAction`; a nil template leaves the ReplicaSet's pod template alone. -/
structure ReplicaSetAction (P : Type) where
  name : String
  replicas : Int
  template : Option (PodTemplateSpec P)
  labels : List (String × String)

structure SyncResult (P : Type) where
  phase : RolloutPhase
  action : Action
  message : String
  replicaSets : List (ReplicaSetAction P)

/-! ### What the cluster holds -/

/-- A ReplicaSet.  `template` is the pod template sent to the API server, with the action's labels merged
into it; `written` is the same template as `Sync` handed it over, before that merge.  Where the text speaks
of the template hash of a ReplicaSet it is the hash of `written`. -/
structure ReplicaSet (P : Type) where
  labels : List (String × String)
  template : PodTemplateSpec P
  written : PodTemplateSpec P
  replicas : Int
  ready : Int
  createdAt : Int

/-- The ReplicaSets of the rollout's namespace, by name. -/
abbrev Cluster (P : Type) := AList (fun _ : String => ReplicaSet P)

structure Service where
  labels : List (String × String)
  selector : List (String × String)
  portName : String
  port : Int
  targetPort : Int

/-! ### Label keys -/

def rolloutLabel : String := "rollouts.paprika.io/rollout"
def revisionLabel : String := "rollouts.paprika.io/revision"
def stableLabel : String := "rollouts.paprika.io/stable"
def canaryLabel : String := "rollouts.paprika.io/canary"
def activeLabel : String := "rollouts.paprika.io/active"
def previewLabel : String := "rollouts.paprika.io/preview"
def drainingLabel : String := "rollouts.paprika.io/draining"

def abortAnnotation : String := "paprika.io/abort"
def promoteAnnotation : String := "paprika.io/promote"

/-! ### Code outside the repository -/

/-- Ten lower-case hexadecimal digits. -/
def Hex10 (s : String) : Prop := s.toList.length = 10 ∧ ∀ c ∈ s.toList, c ∈ "0123456789abcdef".toList

/-- `hash.Template` (the first ten hexadecimal digits of the SHA-256 of the template's JSON) and
`intstr.GetScaledValueFromIntOrPercent`. -/
structure Externals (P : Type) where
  template : PodTemplateSpec P → String
  template_hex : ∀ t, Hex10 (template t)
  getScaledValueFromIntOrPercent : IntOrString → Int → Bool → Except String Int

variable {P : Type} (X : Externals P)

theorem template_dash_free (t : PodTemplateSpec P) : '-' ∉ (X.template t).toList := by
  intro h
  exact absurd ((X.template_hex t).2 _ h) (by decide)

def Externals.currentHash (ro : Rollout P) : String := X.template ro.spec.template.podTemplateSpec

end Paprika.Rollouts
