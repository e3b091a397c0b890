import Paprika.Lib.Run
import Paprika.Pipelines.Operations

/-!
# Concurrent writers of a Pipeline status

Any number of controller executions of one Pipeline, each writing its own copy of the status through
`patchPipelineStatus`, against `RetryStep`, `SkipStep` and `CancelPipeline`, each a read followed by an update that
the API server refuses once the resource version has moved.

`patchPipelineStatus` re-reads, compares UID, generation, observed generation, phase and execution identity
(`pipelineStatusWriteMatches`) and overwrites the whole status.  Its own update is resource-version checked too, so the
check and the overwrite happen on one and the same status.  A retry changes the execution identity and a cancellation
the phase: both fence off every execution that read the Pipeline before.  A skipped step changes neither, and the next
write of a running execution puts the old phase back: `progress_overwrites_skip`.

* **`pipeline_status_writes_fenced`** — terminal phases are left by a retry of a failed Pipeline only; no execution
  that read the Pipeline before a retry or a cancellation writes after it; and where steps are skipped only while no
  execution of the current identity is in progress, none that read it before a skip writes after it.
-/

namespace Paprika.Pipelines

open Lib.Run List Option

/-! ### The controller's write -/

def pipelineNeedsExecutionStart (generation : Nat) (status : PipelineStatus) : Bool :=
  status.phase == .unset || status.phase == .pending || (status.observedGeneration == 0 && 0 < generation)

def pipelineInitialGenerationWrite (fresh : PipelineStatus) (generation : Nat) (desired : PipelineStatus) : Bool :=
  fresh.observedGeneration == 0 && desired.observedGeneration == generation &&
    !isTerminalPipelinePhase fresh.phase && desired.phase == .running

def pipelineExecutionIDWriteMatches (freshGeneration : Nat) (fresh : PipelineStatus) (generation : Nat)
    (desired : PipelineStatus) : Bool :=
  fresh.lastExecutionID == desired.lastExecutionID ||
    (pipelineNeedsExecutionStart freshGeneration fresh && fresh.lastExecutionID == .unset &&
      desired.phase == .running && desired.observedGeneration == generation)

/-- `pipelineStatusWriteMatches`, on one object (the UIDs are equal). -/
def pipelineStatusWriteMatches (freshGeneration : Nat) (fresh : PipelineStatus) (generation : Nat)
    (desired : PipelineStatus) : Bool :=
  freshGeneration == generation &&
    (fresh.observedGeneration == desired.observedGeneration ||
      pipelineInitialGenerationWrite fresh generation desired) &&
    (!isTerminalPipelinePhase fresh.phase || fresh.phase == desired.phase) &&
    pipelineExecutionIDWriteMatches freshGeneration fresh generation desired

/-- The status `startPipelineExecutionIfNeeded` writes. -/
def startedStatus (generation : Nat) (status : PipelineStatus) : PipelineStatus :=
  { phase := .running, observedGeneration := generation,
    lastExecutionID := if status.lastExecutionID = .unset then .run else status.lastExecutionID,
    stepStatuses := [] }

/-- The loop of `updateStepStatus`: the first status of the name is replaced, or the status appended. -/
def updateStepStatus (statuses : List StepStatus) (st : StepStatus) : List StepStatus :=
  match statuses with
  | [] => [st]
  | head :: rest => if head.name = st.name then st :: rest else head :: updateStepStatus rest st

/-! ### The state machine -/

/-- Where an execution stands: it has read the Pipeline, it runs the workflow, or it has returned. -/
inductive Stage
  | read | running | done
  deriving DecidableEq, Repr

/-- One reconcile of the Pipeline with its own copy. -/
structure Execution where
  generation : Nat
  copy : PipelineStatus
  stage : Stage
  deriving DecidableEq, Repr

/-- `RetryStep`, `SkipStep` and `CancelPipeline`.  `jobsStopped` is the answer of `ValidatePipelineJobsStopped`. -/
inductive Operation
  | retryStep (step : String) (jobsStopped : Bool)
  | skipStep (step : String)
  | cancelPipeline
  deriving DecidableEq, Repr

/-- An operation that has read the Pipeline and not yet updated it. -/
structure Request where
  operation : Operation
  steps : List PipelineStep
  generation : Nat
  status : PipelineStatus
  version : Nat
  deriving DecidableEq, Repr

/-- The Pipeline object with its resource version, the executions in the order of their reads, the operations in
flight, and a clock that moves on with every retry. -/
structure PipelineSystem where
  steps : List PipelineStep
  generation : Nat
  status : PipelineStatus
  version : Nat
  clock : Nat
  executions : List Execution
  requests : List Request

def PipelineSystem.init (steps : List PipelineStep) : PipelineSystem :=
  { steps := steps, generation := 1, status := .zero, version := 0, clock := 0, executions := [], requests := [] }

/-- What can happen next.  `reconcile` is a read of the Pipeline by a new execution, `start` its next step up to the
workflow, `progress` and `finish` are the writes of the workflow, `crash` is a controller restart. -/
inductive PipelineEvent
  | edit (steps : List PipelineStep)
  | reconcile
  | start (execution : Nat)
  | progress (execution : Nat) (step : StepStatus)
  | finish (execution : Nat) (succeeded : Bool) (statuses : List StepStatus)
  | crash (execution : Nat)
  | request (operation : Operation)
  | update (request : Request)

def Operation.apply (operation : Operation) (steps : List PipelineStep) (generation : Nat) (status : PipelineStatus)
    (nanos : Nat) : Except OperationError PipelineStatus :=
  match operation with
  | .retryStep step jobsStopped => retryStepStatus steps generation status step jobsStopped nanos
  | .skipStep step => skipStepStatus status step
  | .cancelPipeline => cancelPipelineStatus status

/-- The write an event makes, if it is one: the execution, what it is once the write went through, and what it is if
the write is refused.  A refused start or result ends the execution, a refused progress write is only logged. -/
def PipelineSystem.attempt (s : PipelineSystem) : PipelineEvent → Option (Nat × Execution × Execution)
  | .start i =>
    match s.executions[i]? with
    | some x =>
      if x.stage = .read then
        if isTerminalPipelinePhase x.copy.phase then some (i, { x with stage := .done }, { x with stage := .done })
        else if pipelineNeedsExecutionStart x.generation x.copy then
          some (i, { x with copy := startedStatus x.generation x.copy, stage := .running }, { x with stage := .done })
        else none
      else none
    | none => none
  | .progress i st =>
    match s.executions[i]? with
    | some x =>
      if x.stage = .running then
        let x' := { x with copy := { x.copy with stepStatuses := updateStepStatus x.copy.stepStatuses st } }
        some (i, x', x')
      else none
    | none => none
  | .finish i succeeded statuses =>
    match s.executions[i]? with
    | some x =>
      if x.stage = .running then
        some (i, { x with stage := .done, copy := { x.copy with
                   phase := if succeeded then .succeeded else .failed, stepStatuses := statuses } },
          { x with stage := .done })
      else none
    | none => none
  | .edit _ | .reconcile | .crash _ | .request _ | .update _ => none

/-- `patchPipelineStatus` for an execution. -/
def PipelineSystem.patch (s : PipelineSystem) (i : Nat) (written refused : Execution) : PipelineSystem :=
  if pipelineStatusWriteMatches s.generation s.status written.generation written.copy then
    { s with status := written.copy, version := s.version + 1, executions := s.executions.set i written }
  else { s with executions := s.executions.set i refused }

/-- The operation has gone through when its request meets the resource version it read. -/
def PipelineSystem.applied (s : PipelineSystem) (r : Request) : Option PipelineStatus :=
  if r ∈ s.requests ∧ r.version = s.version then
    (r.operation.apply r.steps r.generation r.status s.clock).toOption
  else none

def PipelineSystem.step (s : PipelineSystem) (e : PipelineEvent) : PipelineSystem :=
  match s.attempt e with
  | some (i, written, refused) => s.patch i written refused
  | none =>
    match e with
    | .edit steps => { s with steps := steps, generation := s.generation + 1, version := s.version + 1 }
    | .reconcile => { s with executions := s.executions ++ [⟨s.generation, s.status, .read⟩] }
    | .start i =>
      -- nothing to start: the workflow resumes from the persisted statuses
      match s.executions[i]? with
      | some x =>
        if x.stage = .read then
          { s with executions := s.executions.set i { x with
              stage := if x.copy.observedGeneration = x.generation then .running else .done } }
        else s
      | none => s
    | .crash i =>
      match s.executions[i]? with
      | some x => { s with executions := s.executions.set i { x with stage := .done } }
      | none => s
    | .request operation =>
      match operation.apply s.steps s.generation s.status s.clock with
      | .error _ => s
      | .ok _ => { s with requests := ⟨operation, s.steps, s.generation, s.status, s.version⟩ :: s.requests }
    | .update r =>
      match s.applied r with
      | some status =>
        { s with status := status, version := s.version + 1, clock := s.clock + 1, requests := s.requests.erase r }
      | none => { s with requests := s.requests.erase r }
    | .progress _ _ | .finish _ _ _ => s

/-! ### What a step does -/

/-- The identity an execution writes under: the one it read, or that of a first execution. -/
def Execution.identity (x : Execution) : ExecutionID :=
  if x.copy.lastExecutionID = .unset then .run else x.copy.lastExecutionID

/-- A status without identity has not been started, and retries are stamped before the clock. -/
structure PipelineStatus.Ok (clock : Nat) (st : PipelineStatus) : Prop where
  stamped : ∀ n, st.lastExecutionID = .retry n → n < clock
  unstarted : st.lastExecutionID = .unset → st.stepStatuses = [] ∧ st.phase ≠ .running

/-- An execution that runs the workflow has an identity. -/
structure Execution.Ok (clock : Nat) (x : Execution) : Prop where
  copy : x.copy.Ok clock
  running : x.stage = .running → x.copy.lastExecutionID ≠ .unset

/-- An execution before a write, against what it writes and what it is if the write is refused. -/
structure Writes (x written refused : Execution) : Prop where
  live : x.stage ≠ .done
  identity : written.copy.lastExecutionID = x.copy.lastExecutionID ∨ written.copy.lastExecutionID = x.identity
  phase : written.copy.phase ≠ .cancelled ∨ written.copy.phase = x.copy.phase
  refused_identity : refused.copy.lastExecutionID = x.copy.lastExecutionID
  refused_phase : refused.copy.phase = x.copy.phase
  ok : ∀ clock, x.Ok clock → written.Ok clock ∧ refused.Ok clock

theorem running_of_open {generation : Nat} {status : PipelineStatus}
    (hopen : isTerminalPipelinePhase status.phase = false)
    (hstart : pipelineNeedsExecutionStart generation status = false) : status.phase = .running := by
  unfold pipelineNeedsExecutionStart at hstart
  cases hphase : status.phase with
  | running => rfl
  | unset | pending => simp [hphase] at hstart
  | succeeded | failed | cancelled => simp [hphase, isTerminalPipelinePhase] at hopen

theorem startedStatus_id_ne_unset (generation : Nat) (st : PipelineStatus) :
    (startedStatus generation st).lastExecutionID ≠ .unset := by
  unfold startedStatus
  dsimp only
  split
  · simp
  · next h => exact h

theorem PipelineStatus.Ok.started {clock : Nat} {st : PipelineStatus} (h : st.Ok clock) (generation : Nat) :
    (startedStatus generation st).Ok clock := by
  refine ⟨?_, fun hunset => absurd hunset (startedStatus_id_ne_unset generation st)⟩
  intro n hn
  simp only [startedStatus] at hn
  split at hn
  · cases hn
  · exact h.stamped n hn

theorem attempt_writes {s : PipelineSystem} {e : PipelineEvent} {i : Nat} {written refused : Execution}
    (h : s.attempt e = some (i, written, refused)) :
    ∃ x, s.executions[i]? = some x ∧ Writes x written refused := by
  cases e with
  | start j =>
    simp only [PipelineSystem.attempt] at h
    split at h
    · next x hx =>
      split at h
      · next hstage =>
        have hlive : x.stage ≠ .done := by rw [hstage]; simp
        have hdone : ∀ clock, x.Ok clock → Execution.Ok clock { x with stage := .done } :=
          fun clock hok => ⟨hok.copy, fun hrunning => by cases hrunning⟩
        split at h
        · -- a terminal Pipeline is written back as it was read
          simp only [Option.some.injEq, Prod.mk.injEq] at h
          obtain ⟨rfl, rfl, rfl⟩ := h
          exact ⟨x, hx, hlive, .inl rfl, .inr rfl, rfl, rfl, fun clock hok => ⟨hdone clock hok, hdone clock hok⟩⟩
        split at h
        · simp only [Option.some.injEq, Prod.mk.injEq] at h
          obtain ⟨rfl, rfl, rfl⟩ := h
          refine ⟨x, hx, hlive, .inr rfl, .inl (by simp [startedStatus]), rfl, rfl, ?_⟩
          intro clock hok
          exact ⟨⟨hok.copy.started x.generation, fun _ => startedStatus_id_ne_unset _ _⟩, hdone clock hok⟩
        · simp at h
      · simp at h
    · simp at h
  | progress j st =>
    simp only [PipelineSystem.attempt] at h
    split at h
    · next x hx =>
      split at h
      · next hstage =>
        simp only [Option.some.injEq, Prod.mk.injEq] at h
        obtain ⟨rfl, rfl, rfl⟩ := h
        refine ⟨x, hx, by rw [hstage]; simp, .inl rfl, .inr rfl, rfl, rfl, ?_⟩
        intro clock hok
        have hid := hok.running hstage
        exact ⟨⟨⟨hok.copy.stamped, fun hunset => absurd hunset hid⟩, fun _ => hid⟩,
          ⟨⟨hok.copy.stamped, fun hunset => absurd hunset hid⟩, fun _ => hid⟩⟩
      · simp at h
    · simp at h
  | finish j succeeded statuses =>
    simp only [PipelineSystem.attempt] at h
    split at h
    · next x hx =>
      split at h
      · next hstage =>
        simp only [Option.some.injEq, Prod.mk.injEq] at h
        obtain ⟨rfl, rfl, rfl⟩ := h
        refine ⟨x, hx, by rw [hstage]; simp, .inl rfl, .inl (by cases succeeded <;> simp), rfl, rfl, ?_⟩
        intro clock hok
        have hid := hok.running hstage
        exact ⟨⟨⟨hok.copy.stamped, fun hunset => absurd hunset hid⟩, fun _ => hid⟩,
          ⟨hok.copy, fun _ => hid⟩⟩
      · simp at h
    · simp at h
  | edit _ => simp [PipelineSystem.attempt] at h
  | reconcile => simp [PipelineSystem.attempt] at h
  | crash _ => simp [PipelineSystem.attempt] at h
  | request _ => simp [PipelineSystem.attempt] at h
  | update _ => simp [PipelineSystem.attempt] at h

/-- The effects a step can have on the status, the clock and the executions. -/
inductive Effect (s s' : PipelineSystem) (e : PipelineEvent) : Prop
  /-- A write of an execution goes through. -/
  | written (i : Nat) (w f : Execution) (hattempt : s.attempt e = some (i, w, f))
      (hmatches : pipelineStatusWriteMatches s.generation s.status w.generation w.copy = true)
      (heq : s' = { s with status := w.copy, version := s.version + 1, executions := s.executions.set i w })
  /-- A write of an execution is refused. -/
  | refused (i : Nat) (w f : Execution) (hattempt : s.attempt e = some (i, w, f))
      (hmatches : pipelineStatusWriteMatches s.generation s.status w.generation w.copy = false)
      (heq : s' = { s with executions := s.executions.set i f })
  /-- A new execution reads the Pipeline. -/
  | read (heq : s' = { s with executions := s.executions ++ [⟨s.generation, s.status, .read⟩] })
  /-- An execution resumes the workflow or ends. -/
  | moved (i : Nat) (x : Execution) (stage : Stage) (hx : s.executions[i]? = some x)
      (hstage : stage = .done ∨ (x.stage = .read ∧ isTerminalPipelinePhase x.copy.phase = false ∧
        pipelineNeedsExecutionStart x.generation x.copy = false))
      (heq : s' = { s with executions := s.executions.set i { x with stage := stage } })
  /-- An operation goes through. -/
  | applied (r : Request) (st : PipelineStatus) (he : e = .update r) (happlied : s.applied r = some st)
      (heq : s' = { s with status := st, version := s.version + 1, clock := s.clock + 1,
                           requests := s.requests.erase r })
  /-- Nothing of the above: at most the specification or the operations in flight change. -/
  | other (hstatus : s'.status = s.status) (hclock : s'.clock = s.clock) (hexec : s'.executions = s.executions)
      (hversion : s.version ≤ s'.version)
      (hrequests : ∀ r ∈ s'.requests, r ∈ s.requests ∨ (r.status = s.status ∧ r.version = s.version))

theorem step_effect (s : PipelineSystem) (e : PipelineEvent) : Effect s (s.step e) e := by
  cases hatt : s.attempt e with
  | some out =>
    obtain ⟨i, w, f⟩ := out
    have hstep : s.step e = s.patch i w f := by simp only [PipelineSystem.step, hatt]
    cases hmatch : pipelineStatusWriteMatches s.generation s.status w.generation w.copy with
    | true => exact .written i w f hatt hmatch (by rw [hstep, PipelineSystem.patch, if_pos hmatch])
    | false =>
      refine .refused i w f hatt hmatch ?_
      rw [hstep, PipelineSystem.patch, hmatch]
      rfl
  | none =>
  have hkeep : ∀ r ∈ s.requests, r ∈ s.requests ∨ (r.status = s.status ∧ r.version = s.version) :=
    fun r hr => .inl hr
  cases e with
  | edit steps =>
    simp only [PipelineSystem.step, hatt]
    exact .other rfl rfl rfl (Nat.le_succ _) hkeep
  | reconcile =>
    simp only [PipelineSystem.step, hatt]
    exact .read rfl
  | start i =>
    simp only [PipelineSystem.step, hatt]
    split
    · next x hx =>
      split
      · next hstage =>
        simp only [PipelineSystem.attempt, hx, hstage, if_true] at hatt
        split at hatt
        · simp at hatt
        · next hterm =>
          split at hatt
          · simp at hatt
          · next hstart =>
            exact .moved i x _ hx (.inr ⟨hstage, by simpa using hterm, by simpa using hstart⟩) rfl
      · exact .other rfl rfl rfl (le_refl _) hkeep
    · exact .other rfl rfl rfl (le_refl _) hkeep
  | progress i st =>
    simp only [PipelineSystem.step, hatt]
    exact .other rfl rfl rfl (le_refl _) hkeep
  | finish i succeeded statuses =>
    simp only [PipelineSystem.step, hatt]
    exact .other rfl rfl rfl (le_refl _) hkeep
  | crash i =>
    simp only [PipelineSystem.step, hatt]
    split
    · next x hx => exact .moved i x .done hx (.inl rfl) rfl
    · exact .other rfl rfl rfl (le_refl _) hkeep
  | request operation =>
    simp only [PipelineSystem.step, hatt]
    split
    · exact .other rfl rfl rfl (le_refl _) hkeep
    refine .other rfl rfl rfl (le_refl _) ?_
    intro r hr
    rcases mem_cons.mp hr with rfl | hr
    · exact .inr ⟨rfl, rfl⟩
    · exact .inl hr
  | update r =>
    simp only [PipelineSystem.step, hatt]
    split
    · next st happl => exact .applied r st rfl happl rfl
    · exact .other rfl rfl rfl (le_refl _) (fun r hr => .inl (mem_of_mem_erase hr))

/-! ### The fence -/

section
variable {s : PipelineSystem} {e : PipelineEvent}

/-- What the fence lets through keeps a terminal phase, and keeps an identity once there is one. -/
theorem matches_spec {g g' : Nat} {fresh desired : PipelineStatus}
    (h : pipelineStatusWriteMatches g fresh g' desired = true) :
    (isTerminalPipelinePhase fresh.phase = true → fresh.phase = desired.phase) ∧
    (fresh.lastExecutionID ≠ .unset → fresh.lastExecutionID = desired.lastExecutionID) := by
  simp only [pipelineStatusWriteMatches, pipelineExecutionIDWriteMatches, Bool.and_eq_true, Bool.or_eq_true,
    Bool.not_eq_true', beq_iff_eq] at h
  obtain ⟨⟨_, hphase⟩, hid⟩ := h
  refine ⟨?_, ?_⟩
  · intro hterm
    rcases hphase with hnot | heq
    · rw [hnot] at hterm
      cases hterm
    · exact heq
  · intro hset
    rcases hid with heq | ⟨⟨⟨_, hunset⟩, _⟩, _⟩
    · exact heq
    · exact absurd hunset hset

/-- What every reachable state satisfies. -/
structure SystemInv (s : PipelineSystem) : Prop where
  status : s.status.Ok s.clock
  executions : ∀ x ∈ s.executions, x.Ok s.clock
  cancelled : ∀ x ∈ s.executions, x.copy.phase = .cancelled → s.status.phase = .cancelled
  requests : ∀ r ∈ s.requests, r.version ≤ s.version ∧ (r.version = s.version → r.status = s.status)

/-- An operation that goes through, on the status it meets. -/
inductive Applied (s : PipelineSystem) (st : PipelineStatus) (operation : Operation) : Prop
  | retried (step : String) (jobsStopped : Bool) (hop : operation = .retryStep step jobsStopped)
      (hfailed : s.status.phase = .failed) (hphase : st.phase = .running)
      (hid : st.lastExecutionID = .retry s.clock)
  | skipped (step : String) (hop : operation = .skipStep step) (hphase : st.phase = s.status.phase)
      (hid : st.lastExecutionID = s.status.lastExecutionID) (hsteps : s.status.stepStatuses ≠ [])
  | cancelled (hop : operation = .cancelPipeline) (hopen : isTerminalPipelinePhase s.status.phase = false)
      (hphase : st.phase = .cancelled) (hid : st.lastExecutionID = s.status.lastExecutionID)
      (hsteps : s.status.stepStatuses = [] → st.stepStatuses = [])

variable {r : Request} {st : PipelineStatus} {x : Execution}

theorem SystemInv.applied (h : SystemInv s) (happl : s.applied r = some st) : Applied s st r.operation := by
  unfold PipelineSystem.applied at happl
  split at happl
  · next hcond =>
    have hstatus := (h.requests r hcond.1).2 hcond.2
    cases hop : r.operation.apply r.steps r.generation r.status s.clock with
    | error _ =>
      rw [hop] at happl
      simp [Except.toOption] at happl
    | ok st' =>
    rw [hop] at happl
    obtain rfl : st' = st := some.inj happl
    cases hr : r.operation with
    | retryStep step jobsStopped =>
      rw [hr, hstatus] at hop
      obtain ⟨hfailed, _, hreset⟩ := retryStepStatus_ok hop
      have hst := (resetPipelineRetry_ok hreset).2
      exact .retried step jobsStopped rfl hfailed (by rw [hst]) (by rw [hst])
    | skipStep step =>
      rw [hr, hstatus] at hop
      obtain ⟨before, after, hold, hst⟩ := skipStepStatus_ok hop
      exact .skipped step rfl (by rw [hst]) (by rw [hst]) (by rw [hold]; simp)
    | cancelPipeline =>
      rw [hr, hstatus] at hop
      obtain ⟨hopen, hst⟩ := cancelPipelineStatus_ok hop
      exact .cancelled rfl hopen (by rw [hst]) (by rw [hst]) (by intro hnil; rw [hst]; simp [hnil])
  · simp at happl

theorem Execution.Ok.mono {clock clock' : Nat} (hle : clock ≤ clock') (h : x.Ok clock) : x.Ok clock' :=
  ⟨⟨fun n hn => lt_of_lt_of_le (h.copy.stamped n hn) hle, h.copy.unstarted⟩, h.running⟩

theorem systemInv_init (steps : List PipelineStep) : SystemInv (.init steps) where
  status := ⟨fun _ h => (by cases h), fun _ => ⟨rfl, by simp [PipelineSystem.init, PipelineStatus.zero]⟩⟩
  executions _ h := by simp [PipelineSystem.init] at h
  cancelled _ h := by simp [PipelineSystem.init] at h
  requests _ h := by simp [PipelineSystem.init] at h

section
variable (h : SystemInv s)
include h

/-- A status written without an operation does not disturb the operations in flight. -/
theorem SystemInv.requests_outdated (hr : r ∈ s.requests) (status : PipelineStatus) :
    r.version ≤ s.version + 1 ∧ (r.version = s.version + 1 → r.status = status) := by
  have hle := (h.requests r hr).1
  exact ⟨by omega, fun heq => by omega⟩

theorem SystemInv.set (i : Nat) (hx : x.Ok s.clock)
    (hcancel : x.copy.phase = .cancelled → s.status.phase = .cancelled) :
    SystemInv { s with executions := s.executions.set i x } := by
  refine ⟨h.status, ?_, ?_, h.requests⟩
  · intro y hy
    rcases mem_or_eq_of_mem_set hy with hy | rfl
    · exact h.executions y hy
    · exact hx
  · intro y hy hphase
    rcases mem_or_eq_of_mem_set hy with hy | rfl
    · exact h.cancelled y hy hphase
    · exact hcancel hphase

theorem SystemInv.write (i : Nat) (hx : x.Ok s.clock)
    (hmatch : pipelineStatusWriteMatches s.generation s.status x.generation x.copy = true) :
    SystemInv { s with status := x.copy, version := s.version + 1, executions := s.executions.set i x } := by
  refine ⟨hx.copy, ?_, ?_, fun r hr => h.requests_outdated hr _⟩
  · intro y hy
    rcases mem_or_eq_of_mem_set hy with hy | rfl
    · exact h.executions y hy
    · exact hx
  intro y hy hcancel
  rcases mem_or_eq_of_mem_set hy with hy | rfl
  · have hphase := h.cancelled y hy hcancel
    exact ((matches_spec hmatch).1 (by rw [hphase]; rfl)).symm.trans hphase
  · exact hcancel

theorem SystemInv.apply (happl : s.applied r = some st) :
    SystemInv { s with status := st, version := s.version + 1, clock := s.clock + 1, requests := s.requests.erase r } := by
  have hexec : ∀ x ∈ s.executions, x.Ok (s.clock + 1) := fun x hx => (h.executions x hx).mono (Nat.le_succ _)
  have hreq : ∀ q ∈ s.requests.erase r, q.version ≤ s.version + 1 ∧ (q.version = s.version + 1 → q.status = st) :=
    fun q hq => h.requests_outdated (mem_of_mem_erase hq) _
  have hstamped : ∀ n, s.status.lastExecutionID = .retry n → n < s.clock + 1 :=
    fun n hn => Nat.lt_succ_of_lt (h.status.stamped n hn)
  cases h.applied happl with
  | retried step jobsStopped _ hfailed hphase hid =>
    refine ⟨⟨?_, ?_⟩, hexec, ?_, hreq⟩
    · intro n hn
      rw [hid] at hn
      cases hn
      exact Nat.lt_succ_self _
    · intro hunset
      rw [hid] at hunset
      cases hunset
    · intro x hx hcancel
      rw [h.cancelled x hx hcancel] at hfailed
      cases hfailed
  | skipped step _ hphase hid hsteps =>
    refine ⟨⟨by rw [hid]; exact hstamped, ?_⟩, hexec, ?_, hreq⟩
    · intro hunset
      rw [hid] at hunset
      exact absurd (h.status.unstarted hunset).1 hsteps
    · intro x hx hcancel
      rw [hphase]
      exact h.cancelled x hx hcancel
  | cancelled _ hopen hphase hid hsteps =>
    refine ⟨⟨by rw [hid]; exact hstamped, ?_⟩, hexec, fun _ _ _ => hphase, hreq⟩
    intro hunset
    rw [hid] at hunset
    exact ⟨hsteps (h.status.unstarted hunset).1, by rw [hphase]; simp⟩

theorem SystemInv.step (e : PipelineEvent) : SystemInv (s.step e) := by
  cases step_effect s e with
  | written i w f hatt hmatch heq =>
    obtain ⟨x, hx, hwrite⟩ := attempt_writes hatt
    have hxmem : x ∈ s.executions := mem_of_getElem? hx
    rw [heq]
    exact h.write i (hwrite.ok s.clock (h.executions x hxmem)).1 hmatch
  | refused i w f hatt hmatch heq =>
    obtain ⟨x, hx, hwrite⟩ := attempt_writes hatt
    have hxmem : x ∈ s.executions := mem_of_getElem? hx
    rw [heq]
    refine h.set i (hwrite.ok s.clock (h.executions x hxmem)).2 ?_
    intro hcancel
    exact h.cancelled x hxmem (hwrite.refused_phase.symm.trans hcancel)
  | read heq =>
    rw [heq]
    refine ⟨h.status, ?_, ?_, h.requests⟩
    · intro y hy
      rcases mem_append.mp hy with hy | hy
      · exact h.executions y hy
      · rw [mem_singleton.mp hy]
        exact ⟨h.status, fun hrunning => by cases hrunning⟩
    intro y hy hcancel
    rcases mem_append.mp hy with hy | hy
    · exact h.cancelled y hy hcancel
    · rw [mem_singleton.mp hy] at hcancel
      exact hcancel
  | moved i x stage hx hstage heq =>
    have hxmem : x ∈ s.executions := mem_of_getElem? hx
    rw [heq]
    refine h.set i ⟨(h.executions x hxmem).copy, ?_⟩ (h.cancelled x hxmem)
    intro hrunning hunset
    rcases hstage with hdone | ⟨_, hopen, hstart⟩
    · rw [hdone] at hrunning
      cases hrunning
    · exact absurd (running_of_open hopen hstart) ((h.executions x hxmem).copy.unstarted hunset).2
  | applied r st he happl heq =>
    rw [heq]
    exact h.apply happl
  | other hstatus hclock hexec hver hrequests =>
    refine ⟨by rw [hstatus, hclock]; exact h.status, by rw [hexec, hclock]; exact h.executions,
      by rw [hexec, hstatus]; exact h.cancelled, ?_⟩
    intro r hr
    rw [hstatus]
    rcases hrequests r hr with hold | ⟨hrstatus, hrversion⟩
    · obtain ⟨hle, heq⟩ := h.requests r hold
      exact ⟨by omega, fun h' => heq (by omega)⟩
    · exact ⟨by omega, fun _ => hrstatus⟩
end

/-- The execution cannot write any more: it has returned, it writes under another identity, or the Pipeline was
cancelled behind its back. -/
def FencedOff (s : PipelineSystem) (x : Execution) : Prop :=
  x.stage = .done ∨ (x.identity ≠ s.status.lastExecutionID ∧ s.status.lastExecutionID ≠ .unset) ∨
    (s.status.phase = .cancelled ∧ x.copy.phase ≠ .cancelled)

theorem FencedOff.refuses {w f : Execution} (h : FencedOff s x) (hwrite : Writes x w f) :
    pipelineStatusWriteMatches s.generation s.status w.generation w.copy = false := by
  rw [Bool.eq_false_iff]
  intro hmatch
  obtain ⟨hphase, hid⟩ := matches_spec hmatch
  rcases h with hdone | ⟨hother, hset⟩ | ⟨hcancel, hnot⟩
  · exact hwrite.live hdone
  · have hsame := hid hset
    rcases hwrite.identity with heq | heq
    · refine hother ?_
      rw [hsame, heq, Execution.identity, if_neg (by rw [← heq, ← hsame]; exact hset)]
    · exact hother (heq.symm.trans hsame.symm)
  · have hsame := hphase (by rw [hcancel]; rfl)
    rcases hwrite.phase with hne | heq
    · exact hne (hsame.symm.trans hcancel)
    · exact hnot (heq.symm.trans (hsame.symm.trans hcancel))

theorem identity_eq {y : Execution} (h : y.copy.lastExecutionID = x.copy.lastExecutionID) :
    y.identity = x.identity := by
  rw [Execution.identity, Execution.identity, h]

/-- An execution was stamped before the clock, so the next retry has another identity. -/
theorem Execution.Ok.identity_ne_retry {clock : Nat} (h : x.Ok clock) : x.identity ≠ .retry clock := by
  unfold Execution.identity
  split
  · simp
  · intro heq
    exact absurd (h.copy.stamped clock heq) (lt_irrefl _)

def FencedOffAt (i : Nat) (s : PipelineSystem) : Prop := ∃ x, s.executions[i]? = some x ∧ FencedOff s x

/-- **Fenced off stays fenced off**, whatever happens next. -/
theorem FencedOffAt.step {i : Nat} (hinv : SystemInv s) (h : FencedOffAt i s) (e : PipelineEvent) :
    FencedOffAt i (s.step e) := by
  obtain ⟨x, hx, hoff⟩ := h
  have hxmem : x ∈ s.executions := mem_of_getElem? hx
  -- replacing the execution by one with its identity and phase, or a returned one, changes nothing
  have hset : ∀ (j : Nat) (y z : Execution), s.executions[j]? = some y →
      (z.stage = .done ∨ y.stage ≠ .done) → z.copy.lastExecutionID = y.copy.lastExecutionID →
      z.copy.phase = y.copy.phase → FencedOffAt i { s with executions := s.executions.set j z } := by
    intro j y z hy hstage hid hphase
    by_cases hij : j = i
    · subst hij
      obtain rfl : y = x := some.inj (hy.symm.trans hx)
      have hlt : j < s.executions.length := (List.getElem?_eq_some_iff.mp hx).1
      refine ⟨z, by simp [hlt], ?_⟩
      rcases hoff with hdone | ⟨hother, hset⟩ | ⟨hcancel, hnot⟩
      · rcases hstage with hz | hy
        · exact .inl hz
        · exact absurd hdone hy
      · exact .inr (.inl ⟨by rw [identity_eq hid]; exact hother, hset⟩)
      · exact .inr (.inr ⟨hcancel, by rw [hphase]; exact hnot⟩)
    · exact ⟨x, by simp [hij, hx], hoff⟩
  cases step_effect s e with
  | written j w f hatt hmatch heq =>
    obtain ⟨y, hy, hwrite⟩ := attempt_writes hatt
    have hij : j ≠ i := by
      intro hij
      subst hij
      obtain rfl : y = x := some.inj (hy.symm.trans hx)
      rw [hoff.refuses hwrite] at hmatch
      cases hmatch
    obtain ⟨hphase, hid⟩ := matches_spec hmatch
    rw [heq]
    refine ⟨x, by simp [hij, hx], ?_⟩
    rcases hoff with hdone | ⟨hother, hset⟩ | ⟨hcancel, hnot⟩
    · exact .inl hdone
    · exact .inr (.inl ⟨by rw [← hid hset]; exact hother, by rw [← hid hset]; exact hset⟩)
    · exact .inr (.inr ⟨(hphase (by rw [hcancel]; rfl)).symm.trans hcancel, hnot⟩)
  | refused j w f hatt hmatch heq =>
    obtain ⟨y, hy, hwrite⟩ := attempt_writes hatt
    rw [heq]
    exact hset j y f hy (.inr hwrite.live) hwrite.refused_identity hwrite.refused_phase
  | read heq =>
    have hlt : i < s.executions.length := (List.getElem?_eq_some_iff.mp hx).1
    rw [heq]
    exact ⟨x, by rw [List.getElem?_append_left hlt]; exact hx, hoff⟩
  | moved j y stage hy hstage heq =>
    rw [heq]
    refine hset j y { y with stage := stage } hy ?_ rfl rfl
    rcases hstage with hdone | ⟨hread, _⟩
    · exact .inl hdone
    · exact .inr (by rw [hread]; simp)
  | applied r st he happl heq =>
    rw [heq]
    refine ⟨x, hx, ?_⟩
    cases hinv.applied happl with
    | retried step jobsStopped _ hfailed hphase hid =>
      refine .inr (.inl ⟨?_, ?_⟩)
      · show x.identity ≠ st.lastExecutionID
        rw [hid]
        exact (hinv.executions x hxmem).identity_ne_retry
      · show st.lastExecutionID ≠ .unset
        rw [hid]
        simp
    | skipped step _ hphase hid _ => simpa only [FencedOff, hphase, hid] using hoff
    | cancelled _ hopen hphase hid _ =>
    rcases hoff with hdone | hother | ⟨hcancel, _⟩
    · exact .inl hdone
    · exact .inr (.inl (by simpa only [hid] using hother))
    · rw [hcancel] at hopen
      cases hopen
  | other hstatus hclock hexec hver hrequests =>
    refine ⟨x, by rw [hexec]; exact hx, ?_⟩
    simpa only [FencedOff, hstatus] using hoff

/-! ### The three guarantees -/

def Operation.isSkip : Operation → Bool
  | .skipStep _ => true
  | .retryStep _ _ | .cancelPipeline => false

/-- A step is skipped only while no execution of the current identity is in progress. -/
def SkipsWhenIdle (s : PipelineSystem) : PipelineEvent → Prop
  | .update r => r.operation.isSkip = true → (s.applied r).isSome = true →
      ∀ x ∈ s.executions, x.stage = .done ∨ x.identity ≠ s.status.lastExecutionID
  | _ => True

instance (s : PipelineSystem) (e : PipelineEvent) : Decidable (SkipsWhenIdle s e) :=
  match e with
  | .update .. => inferInstanceAs (Decidable (_ → _))
  | .edit _ | .reconcile | .start _ | .progress .. | .finish .. | .crash _ | .request _ => .isTrue trivial

theorem terminal_phase_kept (h : SystemInv s) (e : PipelineEvent)
    (hterm : isTerminalPipelinePhase s.status.phase = true) :
    (s.step e).status.phase = s.status.phase ∨
    (s.status.phase = .failed ∧ (s.step e).status.phase = .running ∧
      ∃ r step jobsStopped, e = .update r ∧ r.operation = .retryStep step jobsStopped) := by
  cases step_effect s e with
  | written i w f _ hmatch heq =>
    rw [heq]
    exact .inl ((matches_spec hmatch).1 hterm).symm
  | refused i w f _ _ heq => rw [heq]; exact .inl rfl
  | read heq => rw [heq]; exact .inl rfl
  | moved i x stage _ _ heq => rw [heq]; exact .inl rfl
  | other hstatus => rw [hstatus]; exact .inl rfl
  | applied r st he happl heq =>
  rw [heq]
  cases h.applied happl with
  | retried step jobsStopped hop hfailed hphase _ => exact .inr ⟨hfailed, hphase, r, step, jobsStopped, he, hop⟩
  | skipped _ _ hphase => exact .inl hphase
  | cancelled _ hopen =>
    rw [hopen] at hterm
    cases hterm

/-- An operation that goes through fences off every execution that has read the Pipeline, a skip only those that are
idle or of another identity. -/
theorem fencedOff_of_applied (h : SystemInv s) (happl : s.applied r = some st)
    (hidle : r.operation.isSkip = true →
      ∀ x ∈ s.executions, x.stage = .done ∨ x.identity ≠ s.status.lastExecutionID)
    {i : Nat} (hi : i < s.executions.length) : FencedOffAt i (s.step (.update r)) := by
  have hx : s.executions[i]? = some s.executions[i] := List.getElem?_eq_getElem hi
  have hmem : s.executions[i] ∈ s.executions := getElem_mem hi
  have hstep : s.step (.update r) = { s with status := st, version := s.version + 1, clock := s.clock + 1,
                                             requests := s.requests.erase r } := by
    simp only [PipelineSystem.step, PipelineSystem.attempt, happl]
  rw [hstep]
  refine ⟨s.executions[i], hx, ?_⟩
  cases h.applied happl with
  | retried step jobsStopped _ _ _ hid =>
    refine .inr (.inl ⟨?_, ?_⟩)
    · show Execution.identity _ ≠ st.lastExecutionID
      rw [hid]
      exact (h.executions _ hmem).identity_ne_retry
    · show st.lastExecutionID ≠ .unset
      rw [hid]
      simp
  | skipped step hop _ hid hsteps =>
    have hset : s.status.lastExecutionID ≠ .unset := fun hunset => hsteps (h.status.unstarted hunset).1
    rcases hidle (by rw [hop]; rfl) _ hmem with hdone | hother
    · exact .inl hdone
    refine .inr (.inl ⟨?_, ?_⟩)
    · show Execution.identity _ ≠ st.lastExecutionID
      rw [hid]
      exact hother
    · show st.lastExecutionID ≠ .unset
      rw [hid]
      exact hset
  | cancelled _ hopen hphase _ _ =>
    refine .inr (.inr ⟨hphase, ?_⟩)
    intro hcancel
    rw [h.cancelled _ hmem hcancel] at hopen
    cases hopen
end

/-- The state after the events `es`. -/
def PipelineSystem.after (steps : List PipelineStep) (es : List PipelineEvent) : PipelineSystem :=
  run PipelineSystem.step (.init steps) es

theorem systemInv_after (steps : List PipelineStep) (es : List PipelineEvent) : SystemInv (.after steps es) :=
  run_invariant _ (fun _ e h => h.step e) es _ (systemInv_init steps)

/-- After an operation of the given kind has gone through, every write of an execution that had read the Pipeline by
then is refused. -/
def NoStaleWrite (steps : List PipelineStep) (es : List PipelineEvent) (kind : Operation → Bool) : Prop :=
  ∀ before r between e later, es = before ++ .update r :: (between ++ e :: later) → kind r.operation = true →
    ((PipelineSystem.after steps before).applied r).isSome = true →
    ∀ i < (PipelineSystem.after steps before).executions.length, ∀ w f,
      (PipelineSystem.after steps (before ++ .update r :: between)).attempt e = some (i, w, f) →
      pipelineStatusWriteMatches (PipelineSystem.after steps (before ++ .update r :: between)).generation
        (PipelineSystem.after steps (before ++ .update r :: between)).status w.generation w.copy = false

theorem noStaleWrite_of_idle {steps : List PipelineStep} {es : List PipelineEvent} {kind : Operation → Bool}
    (hidle : ∀ before r later, es = before ++ .update r :: later → kind r.operation = true →
      r.operation.isSkip = true → ((PipelineSystem.after steps before).applied r).isSome = true →
      ∀ x ∈ (PipelineSystem.after steps before).executions,
        x.stage = .done ∨ x.identity ≠ (PipelineSystem.after steps before).status.lastExecutionID) :
    NoStaleWrite steps es kind := by
  intro before r between e later hes hkind happl i hi w f hatt
  have hinv := systemInv_after steps before
  obtain ⟨st, hst⟩ := isSome_iff_exists.mp happl
  have hoff : FencedOffAt i ((PipelineSystem.after steps before).step (.update r)) :=
    fencedOff_of_applied hinv hst (fun hskip => hidle before r _ hes hkind hskip happl) hi
  -- the fence stays up through everything in between
  have hlater : SystemInv (PipelineSystem.after steps (before ++ .update r :: between)) ∧
      FencedOffAt i (PipelineSystem.after steps (before ++ .update r :: between)) := by
    have hrun : PipelineSystem.after steps (before ++ .update r :: between) =
        run PipelineSystem.step ((PipelineSystem.after steps before).step (.update r)) between := by
      simp [PipelineSystem.after]
    rw [hrun]
    exact run_invariant PipelineSystem.step (motive := fun t => SystemInv t ∧ FencedOffAt i t)
      (fun t e ht => ⟨ht.1.step e, ht.2.step ht.1 e⟩) between _ ⟨hinv.step _, hoff⟩
  obtain ⟨x, hx, hwrite⟩ := attempt_writes hatt
  obtain ⟨y, hy, hyoff⟩ := hlater.2
  obtain rfl : x = y := some.inj (hx.symm.trans hy)
  exact hyoff.refuses hwrite

/-- **Status writes are fenced**, behind `SkipStep` in interleavings where steps are skipped only while no execution of the
current identity is in progress. -/
theorem pipeline_status_writes_fenced (steps : List PipelineStep) (es : List PipelineEvent) :
    (∀ before e later, es = before ++ e :: later →
      isTerminalPipelinePhase (PipelineSystem.after steps before).status.phase = true →
      (PipelineSystem.after steps (before ++ [e])).status.phase = (PipelineSystem.after steps before).status.phase ∨
      ((PipelineSystem.after steps before).status.phase = .failed ∧
        (PipelineSystem.after steps (before ++ [e])).status.phase = .running ∧
        ∃ r step jobsStopped, e = .update r ∧ r.operation = .retryStep step jobsStopped)) ∧
    NoStaleWrite steps es (fun operation => !operation.isSkip) ∧
    (Guarded PipelineSystem.step SkipsWhenIdle (.init steps) es → NoStaleWrite steps es (fun _ => true)) := by
  refine ⟨?_, ?_, ?_⟩
  · intro before e later _ hterminal
    have hrun : PipelineSystem.after steps (before ++ [e]) = (PipelineSystem.after steps before).step e := by
      simp [PipelineSystem.after]
    rw [hrun]
    exact terminal_phase_kept (systemInv_after steps before) e hterminal
  · refine noStaleWrite_of_idle ?_
    intro before r later _ hkind hskip
    rw [hskip] at hkind
    cases hkind
  · intro hguard
    refine noStaleWrite_of_idle ?_
    intro before r later hes _ hskip happlied
    rw [hes] at hguard
    exact (guarded_append.mp hguard).2.1 hskip happlied

/-! ### A retried step that is skipped -/

section

def sampleSteps : List PipelineStep := [⟨"build", [], 0⟩, ⟨"test", ["build"], 0⟩]

/-- The step `build` fails, the Pipeline with it, and the step is retried. -/
def sampleRetry : List PipelineEvent :=
  [.reconcile, .start 0, .progress 0 ⟨"build", .running⟩, .progress 0 ⟨"build", .failed⟩,
   .finish 0 false [⟨"build", .failed⟩], .request (.retryStep "build" true),
   .update ⟨.retryStep "build" true, sampleSteps, 1, ⟨.failed, 1, .run, [⟨"build", .failed⟩]⟩, 4⟩]

/-- The request to skip `build`, read right after the retry. -/
def sampleSkip : Request := ⟨.skipStep "build", sampleSteps, 1, ⟨.running, 1, .retry 0, [⟨"build", .pending⟩]⟩, 5⟩

/-- The step is skipped before the controller picks the retry up. -/
theorem pipeline_status_writes_fenced_of_idle_skip :
    let es := sampleRetry ++ [.request (.skipStep "build"), .update sampleSkip, .reconcile, .start 1]
    Guarded PipelineSystem.step SkipsWhenIdle (.init sampleSteps) es ∧ (PipelineSystem.after sampleSteps es).status =
        ⟨.running, 1, .retry 0, [⟨"build", .skipped⟩]⟩ ∧
      NoStaleWrite sampleSteps es (fun _ => true) := by
  intro es
  have hidle : Guarded PipelineSystem.step SkipsWhenIdle (.init sampleSteps) es := by decide
  exact ⟨hidle, by decide, (pipeline_status_writes_fenced sampleSteps es).2.2 hidle⟩

/-- The controller has picked the retry up when the step is skipped: its next progress write puts the step back. -/
theorem progress_overwrites_skip :
    ¬∀ (steps : List PipelineStep) (before between : List PipelineEvent) (r : Request) (e : PipelineEvent)
      (step : String), r.operation = .skipStep step →
      ((PipelineSystem.after steps before).applied r).isSome = true →
      (∃ i < (PipelineSystem.after steps before).executions.length, ∃ w f,
        (PipelineSystem.after steps (before ++ .update r :: between)).attempt e = some (i, w, f)) →
      phaseOf (PipelineSystem.after steps (before ++ .update r :: between)).status.stepStatuses step = some .skipped →
      phaseOf (PipelineSystem.after steps (before ++ .update r :: between ++ [e])).status.stepStatuses step =
        some .skipped := by
  intro h
  have hkept := h sampleSteps (sampleRetry ++ [.reconcile, .start 1, .request (.skipStep "build")]) [] sampleSkip
    (.progress 1 ⟨"build", .running⟩) "build" rfl (by decide) ⟨1, by decide, _, _, rfl⟩ (by decide)
  revert hkept
  decide
end

end Paprika.Pipelines
