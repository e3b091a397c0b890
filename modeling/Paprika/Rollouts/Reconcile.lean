import Paprika.Lib.Run
import Paprika.Rollouts.Controller

/-!
# The reconcile loop and its environment

`reconcileLoaded` puts the functions of `Controller` together in the order of the source, with its early
returns: the finalizer round, a paused rollout, and a failure at each stage, which `failRollout` records in
the status — with whatever the stages before it had already written there.

A `World` is the persisted Rollout with its status and the objects of its namespace.  What happens to it is
an `Event`: the user edits the template or the annotations, the target Deployment appears or changes, the
kubelet reports readiness, or the controller reconciles, at whatever clock readings and with whatever API
faults the environment chooses.  The spec fields other than the template do not change along a run.

In-memory changes to the Rollout (defaults, an adopted template, merged labels) are lost after each reconcile:
only the status is written back.
-/

namespace Paprika.Rollouts

open Lib.Run

variable {P : Type}

/-- The API calls of one reconcile that fail, with their error texts. -/
structure Faults where
  resolveTarget : Option String
  get : String → Option String
  execute : String → Option String
  ensureServices : Option String
  patchStatus : Option String

def Faults.none : Faults := ⟨.none, fun _ => .none, fun _ => .none, .none, .none⟩

/-- The environment of one reconcile: the clock reading of `observeReadyReplicas`, the one of `Sync`, the
API server's creation timestamp, and the failing calls. -/
structure ReconcileInput where
  observedAt : Int
  now : Int
  createdAt : Int
  faults : Faults

/-- A reconcile at one clock reading, with no failing call. -/
def ReconcileInput.at (now : Int) : ReconcileInput := ⟨now, now, now, Faults.none⟩

structure World (P : Type) where
  rollout : Rollout P
  status : RolloutStatus
  deployment : Option (Deployment P)
  replicaSets : Cluster P
  services : AList fun _ : String => Service
  dynamicClient : Bool

/-- What one reconcile did: the world it left, what `Sync` returned (with the status `Sync` left), and the
calls on the traffic router. -/
structure Reconciled (P : Type) where
  world : World P
  synced : Option (RolloutStatus × SyncResult P)
  calls : List TrafficCall

/-- `patchStatus`: a failing update leaves the persisted status as it was. -/
def patchStatus (faults : Faults) (w : World P) (status : RolloutStatus) : World P :=
  match faults.patchStatus with
  | some _ => w
  | none => { w with status := status }

def failRollout (faults : Faults) (w : World P) (status : RolloutStatus) (err : String) : World P :=
  patchStatus faults w { status with phase := .failed, message := err }

/-- Reading a ReplicaSet of the world. -/
def World.get (w : World P) (faults : Faults) : Get P := fun name =>
  match faults.get name with
  | some err => .error err
  | none => .ok (w.replicaSets.lookup name)

variable [Inhabited P]

/-- The second half of `reconcileLoaded`: from the strategy's result to the status update. -/
def carryOut (X : Externals P) (inp : ReconcileInput) (w : World P) (ro : Rollout P)
    (status : RolloutStatus) (result : SyncResult P) : Reconciled P :=
  let executed := executeReplicaSetActions inp.faults.execute inp.createdAt result.replicaSets
    ⟨w.replicaSets, ro.spec.template.labels⟩
  let synced := some (status, result)
  match executed.2 with
  | some err => ⟨failRollout inp.faults { w with replicaSets := executed.1.cluster } status err, synced, []⟩
  | none =>
    let w := { w with replicaSets := pruneReplicaSets ro status executed.1.cluster }
    match inp.faults.ensureServices with
    | some err => ⟨failRollout inp.faults w status err, synced, []⟩
    | none =>
      let w := { w with services := ensureServices ro w.services }
      let status := updateServiceStatus ro status
      let calls := configureTraffic w.dynamicClient ro status result.action
      let status := updateStatusFromResult X ro executed.1.labels result status
      ⟨patchStatus inp.faults w status, synced, calls⟩

def reconcileLoaded (X : Externals P) (inp : ReconcileInput) (w : World P) : Reconciled P :=
  if !w.rollout.finalizer then
    ⟨{ w with rollout := { w.rollout with finalizer := true } }, none, []⟩
  else if w.rollout.spec.paused then
    ⟨patchStatus inp.faults w { w.status with phase := .paused }, none, []⟩
  else
    let status := latchAbort X w.rollout w.status
    let ro := applyDefaults w.rollout
    match inp.faults.resolveTarget with
    | some err => ⟨failRollout inp.faults w status err, none, []⟩
    | none =>
      let ro := resolveTarget w.deployment ro
      match newStrategy ro.spec.strategy with
      | .error err => ⟨failRollout inp.faults w status err, none, []⟩
      | .ok strategy =>
        let status := observeReadyReplicas (w.get inp.faults) ro inp.observedAt status
        match strategy.sync X ro status
            ⟨inp.now, status.stableReadyReplicas, status.canaryReadyReplicas⟩ with
        | .error err => ⟨failRollout inp.faults w status err, none, []⟩
        | .ok (status, result) => carryOut X inp w ro status result

/-! ### Runs -/

/-- One thing that happens to the world. -/
inductive Event (P : Type)
  | setTemplate (template : RolloutTemplate P)
  | setAnnotations (annotations : Labels)
  | setDeployment (deployment : Option (Deployment P))
  | setReady (name : String) (ready : Int)
  | reconcile (inp : ReconcileInput)

/-- The ready count of a ReplicaSet moves within `0 … replicas`. -/
def setReady (c : Cluster P) (name : String) (ready : Int) : Cluster P :=
  match c.lookup name with
  | none => c
  | some rs => if 0 ≤ ready ∧ ready ≤ rs.replicas then c.insert name { rs with ready := ready } else c

def step (X : Externals P) (w : World P) : Event P → World P
  | .setTemplate template =>
    { w with rollout := { w.rollout with spec := { w.rollout.spec with template := template } } }
  | .setAnnotations annotations => { w with rollout := { w.rollout with annotations := annotations } }
  | .setDeployment deployment => { w with deployment := deployment }
  | .setReady name ready => { w with replicaSets := setReady w.replicaSets name ready }
  | .reconcile inp => (reconcileLoaded X inp w).world

/-- A Rollout that was never reconciled, in a namespace without ReplicaSets. -/
def Fresh (w : World P) : Prop := w.status = RolloutStatus.empty ∧ w.replicaSets = ∅

/-- The world after the events `es`. -/
abbrev after (X : Externals P) (w : World P) (es : List (Event P)) : World P := run (step X) w es

theorem after_append (X : Externals P) (w : World P) (es fs : List (Event P)) :
    after X w (es ++ fs) = after X (after X w es) fs := run_append ..

/-! ### The Rollout as `Sync` sees it -/

/-- The Rollout in memory after defaulting and adoption. -/
def World.effective (w : World P) : Rollout P := resolveTarget w.deployment (applyDefaults w.rollout)

/-- The hash of the template the strategies work with. -/
def World.hash (X : Externals P) (w : World P) : String := X.currentHash w.effective

/-- The status `Sync` is given. -/
def World.observed (X : Externals P) (w : World P) (inp : ReconcileInput) : RolloutStatus :=
  observeReadyReplicas (w.get inp.faults) w.effective inp.observedAt (latchAbort X w.rollout w.status)

/-- The inputs `Sync` is given. -/
def World.inputs (X : Externals P) (w : World P) (inp : ReconcileInput) : SyncInputs :=
  ⟨inp.now, (w.observed X inp).stableReadyReplicas, (w.observed X inp).canaryReadyReplicas⟩

/-! ### A concrete instance

Pod specs are numbers (think of an image tag), and the hash spells out the pod spec and which of the
controller's marker labels the template carries.  Integers are their own scaled value. -/

namespace Sample

def hexDigit (n : Nat) : Char := "0123456789abcdef".toList.getD (n % 16) '0'

theorem hexDigit_mem (n : Nat) : hexDigit n ∈ "0123456789abcdef".toList := by
  have h : ∀ i : Fin 16, "0123456789abcdef".toList.getD i.val '0' ∈ "0123456789abcdef".toList := by decide
  exact h ⟨n % 16, Nat.mod_lt _ (by decide)⟩

def marked (t : PodTemplateSpec Nat) (label : String) : Nat :=
  if (t.labels.bind fun m => m label).isSome then 1 else 0

def templateHash (t : PodTemplateSpec Nat) : String :=
  String.ofList [hexDigit t.spec, hexDigit (marked t stableLabel), hexDigit (marked t canaryLabel),
    hexDigit (marked t "app"), '0', '0', '0', '0', '0', '0']

def externals : Externals Nat where
  template := templateHash
  template_hex := by
    intro t
    refine ⟨by simp [templateHash], ?_⟩
    simp only [templateHash, String.toList_ofList, List.mem_cons, List.not_mem_nil, or_false]
    rintro c (rfl | rfl | rfl | rfl | rfl | rfl | rfl | rfl | rfl | rfl) <;>
      first | exact hexDigit_mem _ | decide
  getScaledValueFromIntOrPercent := fun v _ _ =>
    match v with
    | .int value => .ok value
    | .str text => .error text

/-- A template without labels, and one with the label `app`. -/
def plain (spec : Nat) : RolloutTemplate Nat := ⟨none, none, spec⟩

def labelled (spec : Nat) : RolloutTemplate Nat :=
  ⟨some fun key => if key = "app" then some "demo" else none, none, spec⟩

def noStrategy (type : StrategyType) : RolloutStrategy := ⟨type, none, none, none, none, none⟩

/-- A fresh rollout `ro` of the given strategy, with revision 1 as its template. -/
def world (strategy : RolloutStrategy) (replicas : Int) (router : Option TrafficRouter)
    (template : RolloutTemplate Nat) : World Nat where
  rollout := ⟨"ro", 1, fun _ => none, true,
    ⟨⟨"", ""⟩, strategy, template, some replicas, some 10, false, router⟩⟩
  status := RolloutStatus.empty
  deployment := none
  replicaSets := ∅
  services := ∅
  dynamicClient := true

/-- Annotations that hold exactly the given key. -/
def annotated (key : String) : Labels := fun k => if k = key then some "" else none

def reconcileAt (now : Int) : Event Nat := .reconcile (.at now)

theorem world_fresh (strategy : RolloutStrategy) (replicas : Int) (router : Option TrafficRouter)
    (template : RolloutTemplate Nat) : Fresh (world strategy replicas router template) := ⟨rfl, rfl⟩

end Sample

end Paprika.Rollouts
