import Mathlib.Data.List.Sort
import Paprika.Rollouts.Strategies

/-!
# The functions of one reconcile

`internal/controller/rollouts/rollout_controller.go`, function by function: latching an abort, defaulting,
adopting the target Deployment's template, observing readiness, executing the ReplicaSet actions, pruning,
keeping the Services, configuring traffic and folding the result into the status.

`executeReplicaSetActions` writes every action's labels into the label map of the template the action
carries.  That map is the one map of the Rollout in memory (`RolloutTemplate.podTemplateSpec` hands it out by
reference), so the function threads it: an action sees the labels of the actions before it, and so does
whoever hashes the template afterwards.  A nil map is replaced by a fresh one in the action's own copy only.
-/

namespace Paprika.Rollouts

variable {P : Type}

/-! ### Before the strategy -/

def latchAbort (X : Externals P) (ro : Rollout P) (status : RolloutStatus) : RolloutStatus :=
  if (ro.annotations abortAnnotation).isSome then { status with abort := true }
  else if !status.abort then status
  else if status.currentPodHash ≠ "" ∧ X.currentHash ro ≠ status.currentPodHash then
    { status with abort := false, currentStepIndex := 0, currentStepStartedAt := none }
  else status

/-- `x` unless it is empty. -/
def orDefault (x fallback : String) : String := if x = "" then fallback else x

def setServiceDefaults (s : RolloutStrategy) (name : String) : RolloutStrategy :=
  match s.type with
  | .canary =>
    { s with canary := s.canary.map fun c =>
        { c with stableService := orDefault c.stableService (name ++ "-stable")
                 canaryService := orDefault c.canaryService (name ++ "-canary") } }
  | .blueGreen =>
    { s with blueGreen := s.blueGreen.map fun c =>
        { c with activeService := orDefault c.activeService (name ++ "-active")
                 previewService := orDefault c.previewService (name ++ "-preview") } }
  | .abTest =>
    { s with abTest := s.abTest.map fun c =>
        { c with stableService := orDefault c.stableService (name ++ "-stable")
                 canaryService := orDefault c.canaryService (name ++ "-canary") } }
  | .mirror =>
    { s with mirror := s.mirror.map fun c =>
        { c with stableService := orDefault c.stableService (name ++ "-stable")
                 canaryService := orDefault c.canaryService (name ++ "-canary") } }
  | _ => s

def applyDefaults (ro : Rollout P) : Rollout P :=
  { ro with spec :=
    { ro.spec with
      replicas := some (ro.spec.replicas.getD 1)
      revisionHistoryLimit := some (ro.spec.revisionHistoryLimit.getD 10)
      strategy := setServiceDefaults ro.spec.strategy ro.name
      target := { ro.spec.target with kind := orDefault ro.spec.target.kind "Deployment" } } }

/-- The pod template of the target Deployment, its labels as the entries of the map. -/
structure Deployment (P : Type) where
  labels : List (String × String)
  annotations : Option Labels
  spec : P

def Deployment.template (deploy : Deployment P) : PodTemplateSpec P :=
  ⟨some fun key => deploy.labels.lookup key, deploy.annotations, deploy.spec⟩

/-- `resolveTarget` when the read succeeds: a Rollout that names a Deployment and sets no labels of its own
adopts the Deployment's template, provided that one has labels. -/
def resolveTarget (deployment : Option (Deployment P)) (ro : Rollout P) : Rollout P :=
  if ro.spec.target.kind ≠ "Deployment" ∨ ro.spec.target.name = "" then ro
  else
    match deployment with
    | none => ro
    | some deploy =>
      if ro.spec.template.labels.isNone ∧ deploy.labels ≠ [] then
        { ro with spec := { ro.spec with template := rolloutTemplateFromPodTemplate deploy.template } }
      else ro

/-! ### Observing readiness -/

/-- The outcome of reading a ReplicaSet: an error, not found, or the object. -/
abbrev Get (P : Type) := String → Except String (Option (ReplicaSet P))

/-- The ready count of a read that did not fail. -/
def readyOf (rs : Option (ReplicaSet P)) : Int := (rs.map ReplicaSet.ready).getD 0

def observeStable (get : Get P) (status : RolloutStatus) : Except String RolloutStatus :=
  if status.stableRS = "" then .ok status
  else
    match get status.stableRS with
    | .error err => .error s!"observing stable RS: {err}"
    | .ok rs => .ok { status with stableReadyReplicas := readyOf rs }

def observeCanary (get : Get P) (status : RolloutStatus) : Except String RolloutStatus :=
  if status.canaryRS = "" then .ok status
  else
    match get status.canaryRS with
    | .error err => .error s!"observing canary RS: {err}"
    | .ok rs => .ok { status with canaryReadyReplicas := readyOf rs }

/-- BlueGreen: stamp `PreviewHealthyAt` once, when the preview is fully ready. -/
def stampPreviewHealthy (ro : Rollout P) (now : Int) (status : RolloutStatus) : RolloutStatus :=
  match ro.spec.strategy.type, ro.spec.strategy.blueGreen with
  | .blueGreen, some cfg =>
    let previewCount := cfg.previewReplicaCount.getD ro.desiredReplicas
    if status.canaryRS ≠ "" ∧ status.canaryReadyReplicas ≥ previewCount ∧ status.previewHealthyAt = none
    then { status with previewHealthyAt := some now }
    else status
  | _, _ => status

/-- BlueGreen drain: the previous active ReplicaSet's readiness goes into `CanaryReadyReplicas`. -/
def observePrevious (get : Get P) (status : RolloutStatus) : Except String RolloutStatus :=
  if status.previousActiveRS = "" then .ok status
  else
    match get status.previousActiveRS with
    | .error err => .error s!"observing previous active RS: {err}"
    | .ok rs => .ok { status with canaryReadyReplicas := readyOf rs }

/-- `observeReadyReplicas`.  A failing read returns early; what was observed before it stays, and the
reconcile goes on with it. -/
def observeReadyReplicas (get : Get P) (ro : Rollout P) (now : Int) (status : RolloutStatus) : RolloutStatus :=
  match observeStable get status with
  | .error _ => status
  | .ok status =>
    match observeCanary get status with
    | .error _ => status
    | .ok status =>
      let status := stampPreviewHealthy ro now status
      match observePrevious get status with
      | .error _ => status
      | .ok status => status

/-! ### Executing the actions -/

/-- The cluster, and the label map of the Rollout's template in memory. -/
structure Exec (P : Type) where
  cluster : Cluster P
  labels : Option Labels

def executeAction [Inhabited P] (createdAt : Int) (action : ReplicaSetAction P) (x : Exec P) : Exec P :=
  match action.template with
  | none =>
    let rs : ReplicaSet P :=
      match x.cluster.lookup action.name with
      | none => ⟨action.labels, PodTemplateSpec.zero P, PodTemplateSpec.zero P, action.replicas, 0, createdAt⟩
      | some rs => { rs with replicas := action.replicas, labels := action.labels }
    { x with cluster := x.cluster.insert action.name rs }
  | some template =>
    -- the copied template struct still points at the shared map, unless that map is nil
    let merged := overlay (x.labels.getD fun _ => none) action.labels
    let sent : PodTemplateSpec P := { template with labels := some merged }
    let rs : ReplicaSet P :=
      match x.cluster.lookup action.name with
      | none => ⟨action.labels, sent, template, action.replicas, 0, createdAt⟩
      | some rs =>
        { rs with replicas := action.replicas, labels := action.labels, template := sent,
                  written := template }
    { cluster := x.cluster.insert action.name rs, labels := x.labels.map fun _ => merged }

/-- `executeReplicaSetActions`: the actions in list order, up to the first API call that fails. -/
def executeReplicaSetActions [Inhabited P] (fault : String → Option String) (createdAt : Int) :
    List (ReplicaSetAction P) → Exec P → Exec P × Option String
  | [], x => (x, none)
  | action :: actions, x =>
    match fault action.name with
    | some err => (x, some err)
    | none => executeReplicaSetActions fault createdAt actions (executeAction createdAt action x)

/-! ### Pruning -/

/-- The names `pruneReplicaSets` never deletes. -/
def isProtected (status : RolloutStatus) (name : String) : Bool :=
  name == status.stableRS || name == status.canaryRS || name == status.previousActiveRS

def pruneCandidates (ro : Rollout P) (status : RolloutStatus) (c : Cluster P) :
    List (Sigma fun _ : String => ReplicaSet P) :=
  c.entries.filter fun e =>
    e.2.labels.lookup rolloutLabel == some ro.name && !isProtected status e.1 && e.2.replicas == 0

/-- `pruneReplicaSets`: of the candidates, keep the newest `RevisionHistoryLimit`. -/
def pruneReplicaSets (ro : Rollout P) (status : RolloutStatus) (c : Cluster P) : Cluster P :=
  match ro.spec.revisionHistoryLimit with
  | none => c
  | some limit =>
    let cands := pruneCandidates ro status c
    if limit < 0 ∨ cands.length ≤ limit.toNat then c
    else
      let newestFirst := cands.mergeSort fun a b => decide (b.2.createdAt ≤ a.2.createdAt)
      (newestFirst.drop limit.toNat).foldl (fun c e => c.erase e.1) c

/-! ### Services -/

/-- Two services by name and role; equal names leave the second entry of the Go map literal. -/
def servicePair (first firstRole second secondRole : String) : List (String × String) :=
  if first = second then [(second, secondRole)] else [(first, firstRole), (second, secondRole)]

/-- `serviceNames`, without the entry of an empty name, which `ensureServices` skips. -/
def serviceNames (ro : Rollout P) : List (String × String) :=
  let strategy := ro.spec.strategy
  let names :=
    match strategy.type, strategy.blueGreen, strategy.canary, strategy.abTest, strategy.mirror with
    | .blueGreen, some c, _, _, _ => servicePair c.activeService "active" c.previewService "preview"
    | .canary, _, some c, _, _ => servicePair c.stableService "stable" c.canaryService "canary"
    | .abTest, _, _, some c, _ => servicePair c.stableService "stable" c.canaryService "canary"
    | .mirror, _, _, _, some c => servicePair c.stableService "stable" c.canaryService "canary"
    | _, _, _, _, _ => []
  names.filter fun e => e.1 ≠ ""

def serviceSelector (ro : Rollout P) (role : String) : List (String × String) :=
  [(rolloutLabel, ro.name), ("rollouts.paprika.io/" ++ role, "true")]

def ensureService (ro : Rollout P) (name role : String) (services : AList fun _ : String => Service) :
    AList fun _ : String => Service :=
  let selector := serviceSelector ro role
  match services.lookup name with
  | none =>
    services.insert name
      ⟨[(rolloutLabel, ro.name), ("rollouts.paprika.io/role", role)], selector, "http", 80, 8080⟩
  | some svc =>
    services.insert name { svc with selector := selector, portName := "http", port := 80, targetPort := 8080 }

def ensureServices (ro : Rollout P) (services : AList fun _ : String => Service) : AList fun _ : String => Service :=
  (serviceNames ro).foldl (fun services e => ensureService ro e.1 e.2 services) services

def updateServiceStatus (ro : Rollout P) (status : RolloutStatus) : RolloutStatus :=
  match ro.spec.strategy.type, ro.spec.strategy.blueGreen with
  | .blueGreen, some cfg =>
    { status with activeService := cfg.activeService, previewService := cfg.previewService }
  | _, _ => status

/-! ### Traffic -/

/-- A call on the traffic router.  `setWeight w` gives the canary service the weight `w` and the stable
service the rest. -/
inductive TrafficCall
  | setWeight (weight : Int)
  | removeCanary
  | setHeaderRoute (header value service : String)
  | removeHeaderRoute (header : String)
  | setMirror (percent : Int)
  | removeMirror
  deriving DecidableEq, Repr

/-- `buildRouter` and `traffic.NewRouter`: the provider of the router, if there is a dynamic client. -/
def buildRouter (dynamicClient : Bool) (cfg : TrafficRouter) : Except String (Option Provider) :=
  if !dynamicClient then .ok none
  else
    match cfg.provider with
    | .istio =>
      if cfg.istio then .ok (some .istio)
      else .error "traffic router provider istio requires non-nil istio config"
    | .gatewayAPI =>
      if cfg.gatewayAPI then .ok (some .gatewayAPI)
      else .error "traffic router provider gateway-api requires non-nil gateway-api config"
    | .other text => .error s!"unsupported traffic router provider: {text}"

/-- The actions after which the rollout is settled on the stable side. -/
def settles (action : Action) : Bool := action = .promote || action = .complete || action = .abort

def configureCanaryTraffic (status : RolloutStatus) (action : Action) : List TrafficCall :=
  if settles action then [.removeCanary]
  else if action = .step then [.setWeight status.currentStepWeight]
  else []

def configureBlueGreenTraffic (action : Action) : List TrafficCall :=
  if settles action then [.setWeight 100] else []

def configureABTestTraffic (cfg : ABTestStrategy) (provider : Provider) (action : Action) : List TrafficCall :=
  if provider = .gatewayAPI then []
  else if settles action then cfg.routes.map fun route => .removeHeaderRoute route.name
  else
    cfg.routes.map fun route =>
      .setHeaderRoute route.name route.value
        (if route.service = "canary" then cfg.canaryService else cfg.stableService)

def configureMirrorTraffic (cfg : MirrorStrategy) (provider : Provider) (action : Action) : List TrafficCall :=
  if provider = .gatewayAPI then []
  else if settles action ∨ action = .step then [.removeMirror]
  else [.setMirror cfg.mirrorPercent]

/-- `configureTraffic`: the router calls it makes, in order. -/
def configureTraffic (dynamicClient : Bool) (ro : Rollout P) (status : RolloutStatus) (action : Action) :
    List TrafficCall :=
  match ro.spec.trafficRouter with
  | none => []
  | some cfg =>
    match buildRouter dynamicClient cfg with
    | .error _ => []
    | .ok none => []
    | .ok (some provider) =>
      match ro.spec.strategy.type, ro.spec.strategy.abTest, ro.spec.strategy.mirror with
      | .canary, _, _ => configureCanaryTraffic status action
      | .blueGreen, _, _ => configureBlueGreenTraffic action
      | .abTest, some cfg, _ => configureABTestTraffic cfg provider action
      | .mirror, _, some cfg => configureMirrorTraffic cfg provider action
      | _, _, _ => []

/-! ### The status -/

/-- The label loop of `updateStatusFromResult`, one action. -/
def trackAction (status : RolloutStatus) (rs : ReplicaSetAction P) : RolloutStatus :=
  let is := fun label => rs.labels.lookup label == some "true"
  { status with
    stableRS := if is stableLabel || is activeLabel then rs.name else status.stableRS
    canaryRS := if is canaryLabel || is previewLabel then rs.name else status.canaryRS
    previousActiveRS := if is drainingLabel then rs.name else status.previousActiveRS }

/-- `updateStatusFromResult`; `labels` is the template's label map as the actions left it. -/
def updateStatusFromResult (X : Externals P) (ro : Rollout P) (labels : Option Labels)
    (result : SyncResult P) (status : RolloutStatus) : RolloutStatus :=
  let template : PodTemplateSpec P := { ro.spec.template.podTemplateSpec with labels := labels }
  let status :=
    { status with
      phase := result.phase
      message := result.message
      observedGeneration := ro.generation
      currentPodHash := X.template template }
  let status := result.replicaSets.foldl trackAction status
  match ro.spec.strategy.type, ro.spec.strategy.canary with
  | .canary, some cfg =>
    match cfg.steps[status.currentStepIndex]? with
    | some step => { status with currentStepWeight := step.setWeight }
    | none => status
  | _, _ => status

end Paprika.Rollouts
