import Paprika.Lib.KeyedMap

/-!
# Pipelines: data model and dependency graph

The types of `api/pipelines/v1alpha1/pipeline_types.go` and the graph of `internal/engine/workflow.go`, as far as the
workflow engine, the Pipeline controller and the step operations of the API read or write them.

Go iterates over the graph's map in no particular order; the model takes the entry order of the map, so that a batch
below stands for any order of its steps.  Timestamps and log references are written but never read here and are left
out.
-/

namespace Paprika.Pipelines

open Lib.KeyedMap

/-- `PipelinePhase`; `unset` is the empty string of a fresh status. -/
inductive PipelinePhase
  | unset | pending | running | succeeded | failed | cancelled
  deriving DecidableEq, Repr

inductive StepPhase
  | pending | running | succeeded | failed | skipped | cancelled
  deriving DecidableEq, Repr

/-- `LastExecutionID`: empty, `"run-" + name`, or `"retry-" + nanoseconds`. -/
inductive ExecutionID
  | unset
  | run
  | retry (nanos : Nat)
  deriving DecidableEq, Repr

structure PipelineStep where
  name : String
  depends : List String
  retry : Nat
  deriving DecidableEq, Repr

structure StepStatus where
  name : String
  phase : StepPhase
  deriving DecidableEq, Repr

structure PipelineStatus where
  phase : PipelinePhase
  observedGeneration : Nat
  lastExecutionID : ExecutionID
  stepStatuses : List StepStatus
  deriving DecidableEq, Repr

/-- The zero value `PipelineStatus{}`. -/
def PipelineStatus.zero : PipelineStatus :=
  { phase := .unset, observedGeneration := 0, lastExecutionID := .unset, stepStatuses := [] }

/-- `isTerminalPipelinePhase`, `checkTerminalPipelinePhase`. -/
def isTerminalPipelinePhase : PipelinePhase → Bool
  | .succeeded | .failed | .cancelled => true
  | .unset | .pending | .running => false

/-! ### The dependency graph -/

/-- `NewGraph`: a later step of the same name replaces an earlier one. -/
def newGraph (steps : List PipelineStep) : Map String PipelineStep := ofValues PipelineStep.name steps

/-- The errors of `TopologicalSort`. -/
inductive GraphError
  | unknownDependency (step dependency : String)
  | cycle (step : String)
  | stuck (remaining : Nat)
  deriving DecidableEq, Repr

/-- The nodes of the graph, in the order of iteration. -/
def nodesOf (g : Map String PipelineStep) : List PipelineStep := g.entries.map (fun e => e.2)

/-- `validateNoUnknownDeps`: the first unknown dependency, if any. -/
def validateNoUnknownDeps (g : Map String PipelineStep) : Option GraphError :=
  (nodesOf g).findSome? (fun n =>
    (n.depends.find? (fun dep => (g.lookup dep).isNone)).map (fun dep => .unknownDependency n.name dep))

/-- `detectCycle`: depth-first search along dependencies, returning the nodes visited so far.  Every call on a new
node marks it, so the number of nodes bounds the depth. -/
def detectCycle (g : Map String PipelineStep) : Nat → String → List String → List String →
    Except GraphError (List String)
  | 0, name, _, _ => .error (.cycle name)
  | fuel + 1, name, path, visited =>
    if path.contains name then .error (.cycle name)
    else if visited.contains name then .ok visited
    else
      ((g.lookup name).elim [] (·.depends)).foldlM
        (fun visited dep => detectCycle g fuel dep (name :: path) visited) (name :: visited)

def visitAllCycles (g : Map String PipelineStep) : Except GraphError (List String) :=
  g.keys.foldlM (fun visited name => detectCycle g (g.keys.length + 1) name [] visited) []

/-- The steps of `remaining` none of whose dependencies is in `remaining`. -/
def readySteps (remaining : List PipelineStep) : List PipelineStep :=
  remaining.filter (fun n => n.depends.all (fun dep => !(remaining.map (·.name)).contains dep))

/-- `buildBatches`.  Each round removes at least one step, so the number of steps bounds the rounds. -/
def buildBatches : Nat → List PipelineStep → Except GraphError (List (List PipelineStep))
  | 0, remaining => if remaining.isEmpty then .ok [] else .error (.stuck remaining.length)
  | fuel + 1, remaining =>
    if remaining.isEmpty then .ok []
    else
      let batch := readySteps remaining
      if batch.isEmpty then .error (.stuck remaining.length)
      else
        match buildBatches fuel (remaining.filter (fun n => !(batch.map (·.name)).contains n.name)) with
        | .error e => .error e
        | .ok batches => .ok (batch :: batches)

/-- `ResolveDAG`, through `TopologicalSort`. -/
def resolveDAG (steps : List PipelineStep) : Except GraphError (List (List PipelineStep)) :=
  let g := newGraph steps
  match validateNoUnknownDeps g with
  | some e => .error e
  | none =>
    match visitAllCycles g with
    | .error e => .error e
    | .ok _ => buildBatches (nodesOf g).length (nodesOf g)

end Paprika.Pipelines
