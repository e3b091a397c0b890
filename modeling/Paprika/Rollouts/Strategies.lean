import Paprika.Rollouts.Core

/-!
# The five strategies

`internal/rollout/{rolling,canary,bluegreen,abtest,mirror}`.  A strategy computes, from the Rollout, its
status and the observed inputs, the result the controller carries out.  `Sync` may write to the status it is
given: here it returns the status it leaves behind together with the result.  Every error return comes before
the first write.

Each package has its own `makeStableRS`/`makeCanaryRS` (`makeActiveRS`/`makePreviewRS`); they are the one
shape `revisionRS` at the package's marker and role labels.  All of them hand out the Rollout's *current* pod
template, also where the hash in the name is an older one.
-/

namespace Paprika.Rollouts

variable {P : Type}

/-- A ReplicaSet action for one revision: its name, its role labels set to `true`, and the current
template. -/
def revisionRS (ro : Rollout P) (marker : String) (roles : List String) (hash : String)
    (replicas : Int) : ReplicaSetAction P where
  name := rsName ro marker hash
  replicas := replicas
  template := some ro.spec.template.podTemplateSpec
  labels := roles.map (fun role => (role, "true")) ++ [(revisionLabel, hash), (rolloutLabel, ro.name)]

/-- The result of a first reconcile: create the stable (active) ReplicaSet. -/
def createResult (message : String) (rs : ReplicaSetAction P) : SyncResult P :=
  ⟨.progressing, .createStable, message, [rs]⟩

/-! ### Rolling -/

namespace Rolling

def hashFromRSName (name : String) : String := hashAfter [] name

def makeStableRS (ro : Rollout P) (hash : String) (replicas : Int) : ReplicaSetAction P :=
  revisionRS ro "-" [stableLabel] hash replicas

def makeCanaryRS (ro : Rollout P) (hash : String) (replicas : Int) : ReplicaSetAction P :=
  revisionRS ro "-canary-" [canaryLabel] hash replicas

/-- The hash of the in-flight canary ReplicaSet, empty when there is no distinct one. -/
def canaryHashFromStatus (status : RolloutStatus) : String :=
  if status.canaryRS = "" ∨ status.canaryRS = status.stableRS then "" else hashFromRSName status.canaryRS

/-- `resolveCount`: errors and negative values count as zero. -/
def resolveCount (X : Externals P) (v : Option IntOrString) (desired : Int) : Int :=
  match v with
  | none => 0
  | some v =>
    match X.getScaledValueFromIntOrPercent v desired true with
    | .error _ => 0
    | .ok resolved =>
      if resolved < 0 then 0 else if resolved > 2147483647 then 2147483647 else resolved

/-- The replica target of the old ReplicaSet: scale down as far as the availability floor allows. -/
def oldTarget (oldReady newReady floor : Int) : Int :=
  let available := int32 (newReady + oldReady)
  if available > floor then
    let scaleDownBy := min (int32 (available - floor)) oldReady
    max (int32 (oldReady - scaleDownBy)) 0
  else oldReady

/-- The replica target of the new ReplicaSet: fill the freed budget, never below what is ready. -/
def newTarget (desired surge newReady oldTarget : Int) : Int :=
  max (min (int32 (int32 (desired + surge) - oldTarget)) desired) newReady

def rollingUpdate (X : Externals P) (cfg : RollingStrategy) (ro : Rollout P) (status : RolloutStatus)
    (inp : SyncInputs) (hash currentHash : String) (desired : Int) : SyncResult P :=
  let surge := resolveCount X cfg.maxSurge desired
  let unavailable := resolveCount X cfg.maxUnavailable desired
  -- a spec with neither surge nor unavailability would deadlock
  let surge := if surge = 0 ∧ unavailable = 0 then 1 else surge
  let oldReady := min inp.stableReadyReplicas desired
  let newReady := inp.canaryReadyReplicas
  let floor := max (int32 (desired - unavailable)) 0
  let old := oldTarget oldReady newReady floor
  let new := newTarget desired surge newReady old
  if old = 0 ∧ newReady ≥ desired then
    { phase := .healthy
      action := .complete
      message := "Rolling update complete"
      replicaSets := [revisionRS ro "-canary-" [stableLabel] hash desired] }
  else
    { phase := .progressing
      action := .createStable
      message := s!"Rolling update in progress: new target={new} ready={newReady}, old target={old} ready={oldReady}"
      replicaSets :=
        [⟨status.stableRS, old, none,
          [(stableLabel, "true"), (revisionLabel, currentHash), (rolloutLabel, ro.name)]⟩,
         makeCanaryRS ro hash new] }

/-- The result when the stable ReplicaSet already carries the desired template: it keeps its name. -/
def convergedResult (ro : Rollout P) (status : RolloutStatus) (hash : String) (desired : Int) :
    SyncResult P where
  phase := .healthy
  action := .complete
  message := "Stable ReplicaSet matches desired template"
  replicaSets :=
    [⟨if status.stableRS = "" then ro.name ++ "-" ++ hash else status.stableRS, desired,
      some ro.spec.template.podTemplateSpec,
      [(stableLabel, "true"), (revisionLabel, hash), (rolloutLabel, ro.name)]⟩]

def sync (X : Externals P) (cfg : RollingStrategy) (ro : Rollout P) (status : RolloutStatus)
    (inp : SyncInputs) : Except String (RolloutStatus × SyncResult P) :=
  let desired := ro.desiredReplicas
  let hash := X.currentHash ro
  if status.stableRS = "" then
    .ok (status, createResult "Creating stable ReplicaSet" (makeStableRS ro hash desired))
  else if isAborted ro status then
    .ok (status, abortResult ro status (hashFromRSName status.stableRS) desired)
  else
    let currentHash := hashFromRSName status.stableRS
    let newRSHash := canaryHashFromStatus status
    if currentHash = hash ∧ (newRSHash = "" ∨ newRSHash = hash) then
      .ok (status, convergedResult ro status hash desired)
    else .ok (status, rollingUpdate X cfg ro status inp hash currentHash desired)

end Rolling

/-! ### Canary -/

namespace Canary

def hashFromRSName (name : String) : String := hashAfter ["-stable-", "-canary-"] name

def makeStableRS (ro : Rollout P) (hash : String) (replicas : Int) : ReplicaSetAction P :=
  revisionRS ro "-stable-" [stableLabel] hash replicas

def makeCanaryRS (ro : Rollout P) (hash : String) (replicas : Int) : ReplicaSetAction P :=
  revisionRS ro "-canary-" [canaryLabel] hash replicas

/-- The step-advancement switch of `Sync`: at most one step per reconcile.  A step without a duration is
left at once, one with a duration is stamped when entered and left once the duration has passed. -/
def advance (steps : List CanaryStep) (now : Int) (status : RolloutStatus) : RolloutStatus :=
  match steps[status.currentStepIndex]? with
  | none => status
  | some step =>
    if step.duration.getD 0 ≤ 0 then
      { status with currentStepIndex := status.currentStepIndex + 1, currentStepStartedAt := none }
    else
      match status.currentStepStartedAt with
      | none => { status with currentStepStartedAt := some now }
      | some startedAt =>
        if now - startedAt ≥ step.duration.getD 0 then
          { status with currentStepIndex := status.currentStepIndex + 1, currentStepStartedAt := none }
        else status

/-- The result that creates the canary ReplicaSet, before any step. -/
def createCanaryResult (ro : Rollout P) (hash stableHash : String) (desired : Int) : SyncResult P where
  phase := .progressing
  action := .step
  message := "Creating canary ReplicaSet"
  replicaSets := [makeStableRS ro stableHash desired, makeCanaryRS ro hash desired]

/-- The result computed with step `index`: its weight splits the replicas. -/
def stepResult (ro : Rollout P) (hash stableHash : String) (desired : Int) (index : Nat)
    (step : CanaryStep) : SyncResult P :=
  let stableWeight := max (int32 (100 - step.setWeight)) 0
  let canaryWeight := step.setWeight
  -- `/` on int32 truncates toward zero
  let stableReplicas := (int32 (desired * stableWeight)).tdiv 100
  let canaryReplicas := max (int32 (desired - stableReplicas)) 1
  { phase := .progressing
    action := .step
    message := s!"Canary step {index} at weight {canaryWeight}"
    replicaSets := [makeStableRS ro stableHash stableReplicas, makeCanaryRS ro hash canaryReplicas] }

/-- The result once every step is exhausted and the stable ReplicaSet already has the desired hash. -/
def completeResult (ro : Rollout P) (hash : String) (desired : Int) : SyncResult P where
  phase := .healthy
  action := .complete
  message := "Canary promoted; stable ReplicaSet matches desired template"
  replicaSets := [makeStableRS ro hash desired]

def promoteResult (ro : Rollout P) (hash : String) (desired : Int) : SyncResult P where
  phase := .progressing
  action := .promote
  message := "Promoting canary to stable"
  replicaSets := [makeStableRS ro hash desired]

def sync (X : Externals P) (cfg : Option CanaryStrategy) (ro : Rollout P) (status : RolloutStatus)
    (inp : SyncInputs) : Except String (RolloutStatus × SyncResult P) :=
  let steps := (cfg.map CanaryStrategy.steps).getD []
  if steps = [] then .error "canary strategy requires at least one step"
  else
    let desired := ro.desiredReplicas
    let hash := X.currentHash ro
    if status.stableRS = "" then
      .ok (status, createResult "Creating stable ReplicaSet" (makeStableRS ro hash desired))
    else if isAborted ro status then
      .ok (status, abortResult ro status (hashFromRSName status.stableRS) desired)
    else
      let stableHash := hashFromRSName status.stableRS
      if status.canaryRS = "" ∧ hash ≠ stableHash then
        .ok (status, createCanaryResult ro hash stableHash desired)
      else
        let status := advance steps inp.now status
        match steps[status.currentStepIndex]? with
        | none =>
          if stableHash = hash then .ok (status, completeResult ro hash desired)
          else .ok (status, promoteResult ro hash desired)
        | some step => .ok (status, stepResult ro hash stableHash desired status.currentStepIndex step)

end Canary

/-! ### BlueGreen -/

namespace BlueGreen

def hashFromRSName (name : String) : String := hashAfter ["-active-", "-preview-"] name

def makeActiveRS (ro : Rollout P) (hash : String) (replicas : Int) : ReplicaSetAction P :=
  revisionRS ro "-active-" [activeLabel, stableLabel] hash replicas

def makePreviewRS (ro : Rollout P) (hash : String) (replicas : Int) : ReplicaSetAction P :=
  revisionRS ro "-preview-" [previewLabel, canaryLabel] hash replicas

/-- An action on a former active ReplicaSet: no template, the draining label. -/
def drainingRS (ro : Rollout P) (name hash : String) (replicas : Int) : ReplicaSetAction P :=
  ⟨name, replicas, none, [(drainingLabel, "true"), (revisionLabel, hash), (rolloutLabel, ro.name)]⟩

def second : Int := 1000000000

/-- `drainResult`: `none` when the rollout is not in the drain phase. -/
def drainResult (cfg : BlueGreenStrategy) (ro : Rollout P) (status : RolloutStatus) (hash : String)
    (desired : Int) (inp : SyncInputs) : Option (RolloutStatus × SyncResult P) :=
  match status.promotedAt with
  | none => none
  | some promotedAt =>
    if status.previousActiveRS = "" then none
    else if inp.canaryReadyReplicas = 0 then
      some ({ status with previousActiveRS := "", promotedAt := none },
        { phase := .healthy
          action := .complete
          message := "Active ReplicaSet matches desired template; previous active drained"
          replicaSets := [makeActiveRS ro hash desired] })
    else
      let delay := cfg.scaleDownDelaySeconds.getD 30
      let oldTarget := if inp.now - promotedAt ≥ delay * second then 0 else desired
      some (status,
        { phase := .progressing
          action := .step
          message := s!"Draining previous active; target={oldTarget}"
          replicaSets :=
            [makeActiveRS ro hash desired,
             drainingRS ro status.previousActiveRS (hashFromRSName status.previousActiveRS) oldTarget] })

def promoteResult (ro : Rollout P) (status : RolloutStatus) (hash activeHash : String) (desired : Int)
    (inp : SyncInputs) : RolloutStatus × SyncResult P :=
  ({ status with
      promotedAt := some (status.promotedAt.getD inp.now)
      previousActiveRS :=
        if status.stableRS ≠ "" ∧ hashFromRSName status.stableRS ≠ hash then status.stableRS
        else status.previousActiveRS
      stableRS := rsName ro "-active-" hash
      canaryRS := ""
      previewHealthyAt := none },
   { phase := .progressing
     action := .promote
     message := "Promoting preview to active"
     replicaSets :=
       [makeActiveRS ro hash desired,
        drainingRS ro (rsName ro "-active-" activeHash) activeHash desired] })

def previewReplicas (cfg : BlueGreenStrategy) (desired : Int) : Int := cfg.previewReplicaCount.getD desired

/-- The preview has been healthy for `AutoPromotionSeconds`. -/
def autoPromotes (cfg : BlueGreenStrategy) (status : RolloutStatus) (now : Int) : Bool :=
  match cfg.autoPromotionSeconds, status.previewHealthyAt with
  | some seconds, some healthyAt => decide (seconds > 0) && decide (now - healthyAt ≥ seconds * second)
  | _, _ => false

def activeMatchesResult (ro : Rollout P) (hash : String) (desired : Int) : SyncResult P where
  phase := .healthy
  action := .complete
  message := "Active ReplicaSet matches desired template"
  replicaSets := [makeActiveRS ro hash desired]

/-- A paused result: the active ReplicaSet at full count beside the preview. -/
def pausedResult (ro : Rollout P) (message activeHash previewHash : String)
    (desired previewCount : Int) : SyncResult P where
  phase := .paused
  action := .pause
  message := message
  replicaSets := [makeActiveRS ro activeHash desired, makePreviewRS ro previewHash previewCount]

def sync (X : Externals P) (cfg : BlueGreenStrategy) (ro : Rollout P) (status : RolloutStatus)
    (inp : SyncInputs) : Except String (RolloutStatus × SyncResult P) :=
  if cfg.activeService = "" then .error "blueGreen strategy requires activeService"
  else
    let desired := ro.desiredReplicas
    let hash := X.currentHash ro
    if status.stableRS = "" then
      .ok (status, createResult "Creating active ReplicaSet" (makeActiveRS ro hash desired))
    else if isAborted ro status then
      .ok (status, abortResult ro status (hashFromRSName status.stableRS) desired)
    else
      let activeHash := hashFromRSName status.stableRS
      match drainResult cfg ro status hash desired inp with
      | some drained => .ok drained
      | none =>
        if status.canaryRS = "" then
          if hash = activeHash then .ok (status, activeMatchesResult ro hash desired)
          else
            .ok ({ status with previewHealthyAt := none },
              pausedResult ro "Preview ReplicaSet created; waiting for promotion" activeHash hash desired
                (previewReplicas cfg desired))
        else if autoPromotes cfg status inp.now then
          .ok (promoteResult ro status hash activeHash desired inp)
        else if (ro.annotations promoteAnnotation).isSome then
          .ok (promoteResult ro status hash activeHash desired inp)
        else
          .ok (status,
            pausedResult ro "Waiting for promotion" activeHash (hashFromRSName status.canaryRS) desired
              (previewReplicas cfg desired))

end BlueGreen

/-! ### ABTest -/

namespace ABTest

def hashFromRSName (name : String) : String := hashAfter ["-stable-", "-canary-"] name

def makeStableRS (ro : Rollout P) (hash : String) (replicas : Int) : ReplicaSetAction P :=
  revisionRS ro "-stable-" [stableLabel] hash replicas

def makeCanaryRS (ro : Rollout P) (hash : String) (replicas : Int) : ReplicaSetAction P :=
  revisionRS ro "-canary-" [canaryLabel] hash replicas

/-- The first failing check of one route. -/
def routeError (route : ABTestRoute) : Option String :=
  if route.type = "" then some "abTest route type is required"
  else if route.name = "" then some "abTest route name is required"
  else if route.value = "" then some "abTest route value is required"
  else if route.service ≠ "stable" ∧ route.service ≠ "canary" then
    some "abTest route service must be stable or canary"
  else none

def validate (cfg : ABTestStrategy) : Option String :=
  if cfg.routes.isEmpty then some "abTest strategy requires at least one route"
  else cfg.routes.findSome? routeError

def sync (X : Externals P) (cfg : ABTestStrategy) (ro : Rollout P) (status : RolloutStatus) :
    Except String (RolloutStatus × SyncResult P) :=
  match validate cfg with
  | some err => .error err
  | none =>
    let desired := ro.desiredReplicas
    let hash := X.currentHash ro
    if status.stableRS = "" then
      .ok (status, createResult "Creating stable ReplicaSet" (makeStableRS ro hash desired))
    else if isAborted ro status then
      .ok (status, abortResult ro status (hashFromRSName status.stableRS) desired)
    else
      let stableHash := hashFromRSName status.stableRS
      if status.canaryRS = "" ∧ hash ≠ stableHash then
        .ok (status, ⟨.progressing, .step, "Creating canary ReplicaSet",
          [makeStableRS ro stableHash desired, makeCanaryRS ro hash desired]⟩)
      else if (ro.annotations promoteAnnotation).isSome then
        .ok (status, ⟨.progressing, .promote, "Promoting canary to stable",
          [makeStableRS ro hash desired]⟩)
      else
        .ok (status, ⟨.paused, .pause, s!"A/B routes active: {cfg.routes.length}",
          [makeStableRS ro stableHash desired, makeCanaryRS ro hash desired]⟩)

end ABTest

/-! ### Mirror -/

namespace Mirror

def hashFromRSName (name : String) : String := hashAfter ["-stable-", "-canary-"] name

def makeStableRS (ro : Rollout P) (hash : String) (replicas : Int) : ReplicaSetAction P :=
  revisionRS ro "-stable-" [stableLabel] hash replicas

def makeCanaryRS (ro : Rollout P) (hash : String) (replicas : Int) : ReplicaSetAction P :=
  revisionRS ro "-canary-" [canaryLabel] hash replicas

def previewReplicas (desired : Int) : Int :=
  if desired > 1 then max (desired.tdiv 4) 1 else 1

/-- Unlike its siblings, `Sync` creates the canary ReplicaSet also when the template did not change. -/
def sync (X : Externals P) (cfg : MirrorStrategy) (ro : Rollout P) (status : RolloutStatus) :
    Except String (RolloutStatus × SyncResult P) :=
  if cfg.mirrorPercent < 1 ∨ cfg.mirrorPercent > 100 then
    .error "mirrorPercent must be between 1 and 100"
  else
    let desired := ro.desiredReplicas
    let hash := X.currentHash ro
    if status.stableRS = "" then
      .ok (status, createResult "Creating stable ReplicaSet" (makeStableRS ro hash desired))
    else if isAborted ro status then
      .ok (status, abortResult ro status (hashFromRSName status.stableRS) desired)
    else
      let stableHash := hashFromRSName status.stableRS
      if status.canaryRS = "" then
        .ok (status, ⟨.progressing, .step, "Creating canary ReplicaSet for mirroring",
          [makeStableRS ro stableHash desired, makeCanaryRS ro hash (previewReplicas desired)]⟩)
      else if (ro.annotations promoteAnnotation).isSome then
        .ok (status, ⟨.progressing, .promote, "Promoting canary to stable",
          [makeStableRS ro hash desired]⟩)
      else
        .ok (status, ⟨.paused, .pause, s!"Mirroring {cfg.mirrorPercent}% of traffic",
          [makeStableRS ro stableHash desired, makeCanaryRS ro hash (previewReplicas desired)]⟩)

end Mirror

/-! ### The strategy of a Rollout -/

/-- A constructed strategy with its configuration. -/
inductive Strategy
  | rolling (cfg : RollingStrategy)
  | canary (cfg : Option CanaryStrategy)
  | blueGreen (cfg : BlueGreenStrategy)
  | abTest (cfg : ABTestStrategy)
  | mirror (cfg : MirrorStrategy)

/-- `rollout.NewStrategy`; every constructor but Canary's replaces a nil configuration by the zero one. -/
def newStrategy (spec : RolloutStrategy) : Except String Strategy :=
  match spec.type with
  | .rolling => .ok (.rolling (spec.rolling.getD ⟨none, none⟩))
  | .canary => .ok (.canary spec.canary)
  | .blueGreen => .ok (.blueGreen (spec.blueGreen.getD ⟨"", "", none, none, none⟩))
  | .abTest => .ok (.abTest (spec.abTest.getD ⟨[], "", ""⟩))
  | .mirror => .ok (.mirror (spec.mirror.getD ⟨0, "", ""⟩))
  | .other text => .error s!"unknown strategy type: {text}"

def Strategy.sync (X : Externals P) (strategy : Strategy) (ro : Rollout P) (status : RolloutStatus)
    (inp : SyncInputs) : Except String (RolloutStatus × SyncResult P) :=
  match strategy with
  | .rolling cfg => Rolling.sync X cfg ro status inp
  | .canary cfg => Canary.sync X cfg ro status inp
  | .blueGreen cfg => BlueGreen.sync X cfg ro status inp
  | .abTest cfg => ABTest.sync X cfg ro status
  | .mirror cfg => Mirror.sync X cfg ro status

end Paprika.Rollouts
