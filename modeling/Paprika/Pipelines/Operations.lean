import Paprika.Pipelines.Types

/-!
# The step operations of the API

`RetryStep`, `SkipStep` and `CancelPipeline` of `internal/api/pipeline_handler.go`, as what each of them makes of the
status it has read.
-/

namespace Paprika.Pipelines

/-- The errors the operations return to the caller, with the values their messages name. -/
inductive OperationError
  | retryNeedsFailedPipeline (phase : PipelinePhase)
  | invalidSpecification (cause : GraphError)
  | cannotRetryStep (step : String) (phase : StepPhase)
  | jobsNotStopped
  | retryPrerequisite (dependency step : String)
  | stepAbsent (step : String)
  | cannotSkipStep (step : String) (phase : StepPhase)
  | stepNotFound (step : String)
  | alreadyTerminal (phase : PipelinePhase)
  deriving DecidableEq, Repr

def validatePipelineRetry (steps : List PipelineStep) (generation : Nat) (status : PipelineStatus) :
    Except OperationError Unit :=
  if status.phase ≠ .failed || status.observedGeneration ≠ generation then
    .error (.retryNeedsFailedPipeline status.phase)
  else match resolveDAG steps with
    | .error e => .error (.invalidSpecification e)
    | .ok _ => .ok ()

def validatePipelineRetryStep (status : PipelineStatus) (name : String) : Except OperationError Unit :=
  match status.stepStatuses.find? (fun st => st.name = name) with
  | none => .error (.stepNotFound name)
  | some st =>
    if st.phase ≠ .failed && st.phase ≠ .skipped then .error (.cannotRetryStep name st.phase)
    else .ok ()

/-- The map `phases` of `validatePipelineRetryDependencies`: a later entry of one name replaces an earlier one. -/
def phaseOf (statuses : List StepStatus) (name : String) : Option StepPhase :=
  (statuses.reverse.find? (fun st => st.name = name)).map (·.phase)

def validatePipelineRetryDependencies (steps : List PipelineStep) (status : PipelineStatus) (name : String) :
    Except OperationError Unit :=
  match steps.find? (fun step => step.name = name) with
  | none => .error (.stepAbsent name)
  | some step =>
    match step.depends.find? (fun dep => phaseOf status.stepStatuses dep ≠ some .succeeded) with
    | some dep => .error (.retryPrerequisite dep name)
    | none => .ok ()

/-- One pass of the loop of `pipelineRetryAffectedSteps`. -/
def affectedPass (steps : List PipelineStep) (affected : List String) : List String :=
  steps.foldl (fun affected step =>
    if step.depends.any (fun dep => affected.contains dep) && !affected.contains step.name then
      step.name :: affected
    else affected) affected

/-- The loop of `pipelineRetryAffectedSteps`: passes until nothing changes.  Every pass but the last adds a step. -/
def affectedLoop (steps : List PipelineStep) : Nat → List String → List String
  | 0, affected => affected
  | fuel + 1, affected =>
    let next := affectedPass steps affected
    if next.length = affected.length then affected else affectedLoop steps fuel next

def pipelineRetryAffectedSteps (steps : List PipelineStep) (name : String) : List String :=
  affectedLoop steps (steps.length + 1) [name]

/-- `resetPipelineRetry`, at the time `nanos`. -/
def resetPipelineRetry (steps : List PipelineStep) (status : PipelineStatus) (name : String) (nanos : Nat) :
    Except OperationError PipelineStatus :=
  match validatePipelineRetryDependencies steps status name with
  | .error e => .error e
  | .ok () =>
    let affected := pipelineRetryAffectedSteps steps name
    .ok { status with
      phase := .running, lastExecutionID := .retry nanos,
      stepStatuses := status.stepStatuses.map (fun st =>
        if affected.contains st.name then { name := st.name, phase := .pending } else st) }

/-- `RetryStep` on the status it read; `jobsStopped` is the answer of `ValidatePipelineJobsStopped`. -/
def retryStepStatus (steps : List PipelineStep) (generation : Nat) (status : PipelineStatus) (name : String)
    (jobsStopped : Bool) (nanos : Nat) : Except OperationError PipelineStatus :=
  match validatePipelineRetry steps generation status with
  | .error e => .error e
  | .ok () =>
    match validatePipelineRetryStep status name with
    | .error e => .error e
    | .ok () =>
      if jobsStopped then resetPipelineRetry steps status name nanos
      else .error .jobsNotStopped

/-- The loop of `SkipStep`: the first status of the name is marked, if it is pending. -/
def skipFirst (name : String) : List StepStatus → Except OperationError (List StepStatus)
  | [] => .error (.stepNotFound name)
  | st :: rest =>
    if st.name ≠ name then
      match skipFirst name rest with
      | .error e => .error e
      | .ok rest => .ok (st :: rest)
    else if st.phase ≠ .pending then .error (.cannotSkipStep name st.phase)
    else .ok ({ st with phase := .skipped } :: rest)

/-- `SkipStep` on the status it read. -/
def skipStepStatus (status : PipelineStatus) (name : String) : Except OperationError PipelineStatus :=
  match skipFirst name status.stepStatuses with
  | .error e => .error e
  | .ok statuses => .ok { status with stepStatuses := statuses }

/-- `CancelPipeline` on the status it read, with `cancelPipelineStatus`. -/
def cancelPipelineStatus (status : PipelineStatus) : Except OperationError PipelineStatus :=
  if isTerminalPipelinePhase status.phase then .error (.alreadyTerminal status.phase)
  else .ok { status with
    phase := .cancelled,
    stepStatuses := status.stepStatuses.map (fun st =>
      if st.phase = .running then { st with phase := .cancelled } else st) }

/-! ### What each operation changes -/

section
variable {steps : List PipelineStep} {generation nanos : Nat} {status st : PipelineStatus} {name : String}
  {jobsStopped : Bool}

theorem resetPipelineRetry_ok (h : resetPipelineRetry steps status name nanos = .ok st) :
    validatePipelineRetryDependencies steps status name = .ok () ∧
    st = { status with
      phase := .running, lastExecutionID := .retry nanos,
      stepStatuses := status.stepStatuses.map (fun st =>
        if (pipelineRetryAffectedSteps steps name).contains st.name then { name := st.name, phase := .pending }
        else st) } := by
  unfold resetPipelineRetry at h
  split at h
  · simp at h
  · next hdeps => exact ⟨hdeps, (Except.ok.inj h).symm⟩

theorem retryStepStatus_ok (h : retryStepStatus steps generation status name jobsStopped nanos = .ok st) :
    status.phase = .failed ∧ status.observedGeneration = generation ∧
      resetPipelineRetry steps status name nanos = .ok st := by
  unfold retryStepStatus at h
  split at h
  · simp at h
  · next hretry =>
    have hphase : status.phase = .failed ∧ status.observedGeneration = generation := by
      unfold validatePipelineRetry at hretry
      split at hretry
      · simp at hretry
      · next hcond => simpa using hcond
    split at h
    · simp at h
    · split at h
      · exact ⟨hphase.1, hphase.2, h⟩
      · simp at h

theorem skipFirst_ok {statuses statuses' : List StepStatus} (h : skipFirst name statuses = .ok statuses') :
    ∃ before after, statuses = before ++ ⟨name, .pending⟩ :: after ∧
      statuses' = before ++ ⟨name, .skipped⟩ :: after := by
  induction statuses generalizing statuses' with
  | nil => simp [skipFirst] at h
  | cons st rest ih =>
    rw [skipFirst] at h
    split at h
    · split at h
      · simp at h
      · next rest' hrest =>
        obtain ⟨before, after, rfl, rfl⟩ := ih hrest
        exact ⟨st :: before, after, rfl, (Except.ok.inj h).symm⟩
    · next hname =>
      split at h
      · simp at h
      · next hphase =>
        obtain ⟨stName, stPhase⟩ := st
        simp only [ne_eq, not_not] at hname hphase
        subst hname hphase
        exact ⟨[], rest, rfl, (Except.ok.inj h).symm⟩

theorem skipStepStatus_ok (h : skipStepStatus status name = .ok st) :
    ∃ before after, status.stepStatuses = before ++ ⟨name, .pending⟩ :: after ∧
      st = { status with stepStatuses := before ++ ⟨name, .skipped⟩ :: after } := by
  unfold skipStepStatus at h
  split at h
  · simp at h
  · next statuses hskip =>
    obtain ⟨before, after, hold, rfl⟩ := skipFirst_ok hskip
    exact ⟨before, after, hold, (Except.ok.inj h).symm⟩

theorem cancelPipelineStatus_ok (h : cancelPipelineStatus status = .ok st) :
    isTerminalPipelinePhase status.phase = false ∧
    st = { status with
      phase := .cancelled,
      stepStatuses := status.stepStatuses.map (fun st =>
        if st.phase = .running then { st with phase := .cancelled } else st) } := by
  unfold cancelPipelineStatus at h
  split at h
  · simp at h
  · next hphase => exact ⟨by simpa using hphase, (Except.ok.inj h).symm⟩
end

end Paprika.Pipelines
