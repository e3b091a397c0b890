import Paprika.Pipelines.Graph
import Paprika.Pipelines.StatusWrites

/-!
# The workflow engine

`RunPipeline` of `internal/engine/workflow.go` under `reconcilePipeline`: one controller execution after another on one
generation of a Pipeline, each in any interleaving of the goroutines of a sub-batch, with any outcome of Job creations,
Jobs, watches and status writes, with a controller restart possible at any point, and with `RetryStep` and `SkipStep`
in between.

A goroutine blocks in its progress callback until the write of the status returns.  The callback takes its snapshot of
the execution's copy first and writes it afterwards, so snapshots of two goroutines can reach the API server in either
order.  `runStepJob` holds the lock while it reports a skipped step; the model lets the other goroutines go on.
-/

namespace Paprika.Pipelines

open Lib.Run

/-! ### One execution -/

/-- Where the goroutine of a step stands.  `reporting` and `retried` wait for a write of the snapshot they carry. -/
inductive StepStage
  /-- The step is reported running. -/
  | reporting (snapshot : List StepStatus)
  /-- About to create a Job. -/
  | creating
  /-- In `watchJob`. -/
  | watching
  /-- An attempt of `retryStep` is reported. -/
  | retried (phase : StepPhase) (snapshot : List StepStatus)
  deriving DecidableEq, Repr

/-- The goroutine of a step in `runStepJob`; attempt 0 is the first Job, the others are those of `retryStep`. -/
structure StepRun where
  step : PipelineStep
  attempt : Nat
  stage : StepStage
  deriving DecidableEq, Repr

/-- How `watchJob` returns: the Job completed or failed, or the watch was cut off before either was seen (it could not
be opened, its channel was closed, it timed out, or a failing sibling cancelled the context). -/
inductive JobResult
  | complete | failed | cutOff
  deriving DecidableEq, Repr

def JobResult.phase : JobResult → StepPhase
  | .complete => .succeeded
  | .failed | .cutOff => .failed

/-- The variables of `RunPipeline`: `copy` are the statuses of `pipelineCopy`, `queue` the sub-batches to come, `pending`
the steps of the current one not entered yet, and `returning` the last snapshots of goroutines that are otherwise done.
-/
structure ActiveRun where
  previous : List StepStatus
  copy : List StepStatus
  completed : List String
  stepStatuses : List StepStatus
  pending : List PipelineStep
  jobs : List StepRun
  queue : List (List PipelineStep)
  returning : List (List StepStatus)
  failed : Bool
  deriving DecidableEq, Repr

/-- `maxParallel`, with its default. -/
def effectiveParallel (maxParallel : Int) : Nat := if maxParallel ≤ 0 then 10 else maxParallel.toNat

/-- The loop of `executeBatch`: sub-batches of at most `n` steps.  Each takes at least one, so the length bounds them.
-/
def subBatches (n : Nat) : Nat → List PipelineStep → List (List PipelineStep)
  | 0, _ => []
  | fuel + 1, batch => if batch.isEmpty then [] else batch.take n :: subBatches n fuel (batch.drop n)

/-- Every batch in some order of its steps. -/
def reordered : List (List PipelineStep) → List (List PipelineStep) → Bool
  | [], [] => true
  | batch :: batches, other :: others => batch.isPerm other && reordered batches others
  | [], _ :: _ | _ :: _, [] => false

/-- The phases `runStepJob` does not run a step again from. -/
def isTerminalStepPhase : StepPhase → Bool
  | .succeeded | .failed | .skipped | .cancelled => true
  | .pending | .running => false

/-- The start of `RunPipeline`, from the statuses of the Pipeline and the batches of the graph. -/
def ActiveRun.start (maxParallel : Int) (previous : List StepStatus) (batches : List (List PipelineStep)) : ActiveRun :=
  { previous := previous, copy := previous, completed := [], stepStatuses := [], pending := [], jobs := [],
    queue := batches.flatMap (fun batch => subBatches (effectiveParallel maxParallel) batch.length batch),
    returning := [], failed := false }

/-- The goroutine appends its status and records the step as completed, if it is. -/
def ActiveRun.append (a : ActiveRun) (st : StepStatus) : ActiveRun :=
  { a with stepStatuses := a.stepStatuses ++ [st],
           completed := if st.phase = .succeeded then st.name :: a.completed else a.completed }

/-- The start of `runStepJob`, up to the first progress report. -/
def ActiveRun.enter (a : ActiveRun) (step : PipelineStep) : ActiveRun :=
  let a := { a with pending := a.pending.erase step }
  match (phaseOf a.previous step.name).filter isTerminalStepPhase with
  | some phase => a.append ⟨step.name, phase⟩
  | none =>
    if step.depends.all (fun dep => a.completed.contains dep) then
      let copy := updateStepStatus a.copy ⟨step.name, .running⟩
      { a with copy := copy, jobs := ⟨step, 0, .reporting copy⟩ :: a.jobs }
    else
      let copy := updateStepStatus a.copy ⟨step.name, .skipped⟩
      { a.append ⟨step.name, .skipped⟩ with copy := copy, returning := copy :: a.returning }

/-- The goroutine of `run` goes on as `next`. -/
def ActiveRun.resume (a : ActiveRun) (run next : StepRun) : ActiveRun :=
  { a with jobs := next :: a.jobs.erase run }

/-- The end of `runStepJob`: the status is appended and reported, and a failure ends the execution. -/
def ActiveRun.conclude (a : ActiveRun) (run : StepRun) (phase : StepPhase) : ActiveRun :=
  let copy := updateStepStatus a.copy ⟨run.step.name, phase⟩
  { a.append ⟨run.step.name, phase⟩ with
    copy := copy, jobs := a.jobs.erase run, returning := copy :: a.returning,
    failed := a.failed || phase == .failed }

/-- What follows the result of a watch. -/
def ActiveRun.observe (a : ActiveRun) (run : StepRun) (result : JobResult) : ActiveRun :=
  if run.attempt = 0 then
    if result = .complete then a.conclude run .succeeded
    else if 0 < run.step.retry then a.resume run { run with attempt := 1, stage := .creating }
    else a.conclude run .failed
  else
    -- `retryStep` reports every attempt
    let copy := updateStepStatus a.copy ⟨run.step.name, result.phase⟩
    { a with copy := copy, jobs := { run with stage := .retried result.phase copy } :: a.jobs.erase run }

/-- What follows the report of an attempt of `retryStep`. -/
def ActiveRun.afterRetry (a : ActiveRun) (run : StepRun) (phase : StepPhase) : ActiveRun :=
  if phase = .succeeded ∨ run.step.retry ≤ run.attempt then a.conclude run phase
  else a.resume run { run with attempt := run.attempt + 1, stage := .creating }

/-- `g.Wait` of the current sub-batch returns. -/
def ActiveRun.idle (a : ActiveRun) : Bool := a.pending.isEmpty && a.jobs.isEmpty && a.returning.isEmpty

/-- The status `reconcilePipeline` and `handlePipelineResult` write at the end. -/
def ActiveRun.result (a : ActiveRun) (status : PipelineStatus) : PipelineStatus :=
  if a.failed then { status with phase := .failed, stepStatuses := a.copy }
  else
    { status with
      phase := if a.stepStatuses.all (fun st => st.phase == .succeeded || st.phase == .skipped) then .succeeded
        else .failed,
      stepStatuses := a.stepStatuses }

/-! ### The Pipeline over its executions -/

/-- What has happened to the steps so far; a retry forgets the steps it resets.  `cutOff`: the watch of a Job was cut off;
`kept`: an execution started from the status Succeeded of the step, or ended with it. -/
structure Ledger where
  succeeded : List String
  failed : List String
  cutOff : List String
  skipped : List String
  kept : List String
  deriving DecidableEq, Repr

def Ledger.empty : Ledger := { succeeded := [], failed := [], cutOff := [], skipped := [], kept := [] }

def Ledger.observe (l : Ledger) (name : String) : JobResult → Ledger
  | .complete => { l with succeeded := name :: l.succeeded }
  | .failed => { l with failed := name :: l.failed }
  | .cutOff => { l with cutOff := name :: l.cutOff }

def Ledger.keep (l : Ledger) (statuses : List StepStatus) : Ledger :=
  { l with kept := (statuses.filter (fun st => st.phase == .succeeded)).map (·.name) ++ l.kept }

def Ledger.forget (l : Ledger) (affected : List String) : Ledger :=
  { succeeded := l.succeeded.filter (fun n => !affected.contains n)
    failed := l.failed.filter (fun n => !affected.contains n)
    cutOff := l.cutOff.filter (fun n => !affected.contains n)
    skipped := l.skipped.filter (fun n => !affected.contains n)
    kept := l.kept.filter (fun n => !affected.contains n) }

/-- One generation of a Pipeline, with its execution, if one is active. -/
structure Workflow where
  steps : List PipelineStep
  maxParallel : Int
  generation : Nat
  status : PipelineStatus
  active : Option ActiveRun
  ledger : Ledger

def Workflow.init (steps : List PipelineStep) (maxParallel : Int) (generation : Nat) : Workflow :=
  { steps := steps, maxParallel := maxParallel, generation := generation, status := .zero, active := none,
    ledger := .empty }

/-- What can happen next.  `written` says whether the status write of the event went through. -/
inductive WorkflowEvent
  /-- The controller reconciles the Pipeline; the graph came out in the order `batches`. -/
  | begin (batches : List (List PipelineStep)) (written : Bool)
  | enter (step : PipelineStep)
  /-- A progress write of a goroutine returns. -/
  | patched (run : StepRun) (written : Bool)
  /-- The last progress write of a goroutine returns, and the goroutine with it. -/
  | returned (snapshot : List StepStatus) (written : Bool)
  | create (run : StepRun) (created : Bool)
  | observe (run : StepRun) (result : JobResult)
  /-- The next sub-batch starts. -/
  | advance
  | finish (written : Bool)
  /-- The controller restarts. -/
  | crash
  | retryStep (name : String) (jobsStopped : Bool) (nanos : Nat)
  | skipStep (name : String)

/-- The status after a progress write. -/
def PipelineStatus.wrote (status : PipelineStatus) (snapshot : List StepStatus) (written : Bool) : PipelineStatus :=
  if written then { status with stepStatuses := snapshot } else status

/-- The status `startPipelineExecutionIfNeeded` leaves. -/
def Workflow.started (s : Workflow) : PipelineStatus :=
  if pipelineNeedsExecutionStart s.generation s.status then startedStatus s.generation s.status else s.status

/-- `RunPipeline` starts. -/
def Workflow.launch (s : Workflow) (a : ActiveRun) : Workflow :=
  { s with status := s.started, ledger := s.ledger.keep s.started.stepStatuses, active := some a }

/-- `reconcilePipeline` up to `RunPipeline`.  A graph that does not resolve fails the execution at once. -/
def Workflow.begin (s : Workflow) (batches : List (List PipelineStep)) (written : Bool) : Workflow :=
  if isTerminalPipelinePhase s.status.phase then s
  else if (pipelineNeedsExecutionStart s.generation s.status && !written) ||
      s.started.observedGeneration != s.generation then s
  else
    match resolveDAG s.steps with
    | .error _ => s.launch { ActiveRun.start s.maxParallel s.started.stepStatuses [] with failed := true }
    | .ok resolved =>
      if reordered resolved batches then s.launch (.start s.maxParallel s.started.stepStatuses batches) else s

/-- A step without an active execution. -/
def Workflow.idleStep (s : Workflow) : WorkflowEvent → Workflow
  | .begin batches written => s.begin batches written
  | .retryStep name jobsStopped nanos =>
    match retryStepStatus s.steps s.generation s.status name jobsStopped nanos with
    | .error _ => s
    | .ok status =>
      { s with status := status, ledger := s.ledger.forget (pipelineRetryAffectedSteps s.steps name) }
  | .skipStep name =>
    match skipStepStatus s.status name with
    | .error _ => s
    | .ok status => { s with status := status, ledger := { s.ledger with skipped := name :: s.ledger.skipped } }
  | .enter _ | .patched _ _ | .returned _ _ | .create _ _ | .observe _ _ | .advance | .finish _ | .crash => s

def Workflow.activeStep (s : Workflow) (a : ActiveRun) : WorkflowEvent → Workflow
  | .enter step => if step ∈ a.pending then { s with active := some (a.enter step) } else s
  | .patched run written =>
    if run ∈ a.jobs then
      match run.stage with
      | .reporting snapshot =>
        { s with status := s.status.wrote snapshot written,
                 active := some (a.resume run { run with stage := .creating }) }
      | .retried phase snapshot =>
        { s with status := s.status.wrote snapshot written, active := some (a.afterRetry run phase) }
      | .creating | .watching => s
    else s
  | .returned snapshot written =>
    if snapshot ∈ a.returning then
      { s with status := s.status.wrote snapshot written,
               active := some { a with returning := a.returning.erase snapshot } }
    else s
  | .create run created =>
    if run ∈ a.jobs ∧ run.stage = .creating then
      if created then { s with active := some (a.resume run { run with stage := .watching }) }
      else { s with active := some (a.conclude run .failed), ledger := s.ledger.observe run.step.name .failed }
    else s
  | .observe run result =>
    if run ∈ a.jobs ∧ run.stage = .watching then
      { s with active := some (a.observe run result), ledger := s.ledger.observe run.step.name result }
    else s
  | .advance =>
    match a.queue with
    | [] => s
    | part :: rest =>
      if a.idle && !a.failed then { s with active := some { a with pending := part, queue := rest } } else s
  | .finish written =>
    if a.idle && (a.failed || a.queue.isEmpty) then
      if written then
        { s with status := a.result s.status, active := none, ledger := s.ledger.keep (a.result s.status).stepStatuses }
      else { s with active := none }
    else s
  | .crash => { s with active := none }
  | .begin _ _ | .retryStep _ _ _ | .skipStep _ => s

def Workflow.step (s : Workflow) (e : WorkflowEvent) : Workflow :=
  match s.active with
  | none => s.idleStep e
  | some a => s.activeStep a e

/-- The state after the events `es`. -/
def Workflow.after (steps : List PipelineStep) (maxParallel : Int) (generation : Nat) (es : List WorkflowEvent) :
    Workflow :=
  run Workflow.step (.init steps maxParallel generation) es

def Workflow.CreatesJob (s : Workflow) (e : WorkflowEvent) (r : StepRun) : Prop :=
  e = .create r true ∧ r.stage = .creating ∧ ∃ a, s.active = some a ∧ r ∈ a.jobs

end Paprika.Pipelines
