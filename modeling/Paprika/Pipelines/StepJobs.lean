import Mathlib.Data.List.Basic

/-!
# The Jobs of a pipeline

The engine creates the Jobs of every pipeline in its own namespace, with the name and the namespace of the pipeline as labels.
`CancelPipeline` deletes by the name label in the namespace of the pipeline, `RetryStep` looks for it in the namespace of the
control plane, and the finalizer asks for both labels, or for the name on a Job without the other label.

* **`job_selections_agree_iff`** — when each of them selects the Jobs of the pipeline and no others.
-/

namespace Paprika.Pipelines.StepJobs

open List

structure PipelineKey where
  ns : String
  name : String
  deriving DecidableEq, Repr

/-- What `pipelineRetryJobTerminal` reads of the status of a Job. -/
structure JobStatus where
  active : Nat
  deleting : Bool
  completeOrFailed : Bool
  deriving DecidableEq, Repr

structure StepJob where
  name : String
  ns : String
  labels : List (String × String)
  status : JobStatus
  deriving DecidableEq, Repr

def stepPipelineLabelKey : String := "paprika.io/pipeline"

def stepPipelineNamespaceLabelKey : String := "paprika.io/pipeline-namespace"

def stepNameLabelKey : String := "paprika.io/step"

def stepJobLabels (pipelineName pipelineNamespace stepName : String) : List (String × String) :=
  [(stepPipelineLabelKey, pipelineName), (stepNameLabelKey, stepName)] ++
    if pipelineNamespace ≠ "" then [(stepPipelineNamespaceLabelKey, pipelineNamespace)] else []

/-- A Job that an execution of a pipeline has created, with the time in its name and what has become of it. -/
structure Execution where
  pipeline : PipelineKey
  step : String
  unixNano : Nat
  status : JobStatus
  deriving DecidableEq, Repr

/-- `createStepJob` of an engine that runs in the namespace `engineNamespace`. -/
def createStepJob (engineNamespace : String) (x : Execution) : StepJob where
  name := s!"paprika-step-{x.step}-{x.unixNano}"
  ns := engineNamespace
  labels := stepJobLabels x.pipeline.name x.pipeline.ns x.step
  status := x.status

/-! ### The selections -/

def named (job : StepJob) (pipelineName : String) : Bool := job.labels.lookup stepPipelineLabelKey == some pipelineName

/-- What `deletePipelineJobs` of `CancelPipeline` deletes. -/
def deletePipelineJobs (p : PipelineKey) (jobs : List StepJob) : List StepJob :=
  jobs.filter fun job => job.ns == p.ns && named job p.name

def pipelineRetryJobTerminal (job : StepJob) : Bool :=
  job.status.active == 0 && !job.status.deleting && job.status.completeOrFailed

/-- The Jobs that `ValidatePipelineJobsStopped` lists. -/
def priorJobs (controlPlaneNamespace : String) (p : PipelineKey) (jobs : List StepJob) : List StepJob :=
  jobs.filter fun job => job.ns == controlPlaneNamespace && named job p.name

def validatePipelineJobsStopped (controlPlaneNamespace : String) (p : PipelineKey) (jobs : List StepJob) :
    Except String Unit :=
  if controlPlaneNamespace = "" then
    .error "retry requires a configured Kubernetes client and operator execution namespace to establish prior Job completion"
  else
    match (priorJobs controlPlaneNamespace p jobs).find? fun job => !pipelineRetryJobTerminal job with
    | some job => .error
        s!"prior Job {job.ns}/{job.name} is active, nonterminal or terminating; retry requires all prior Jobs to have stopped"
    | none => .ok ()

/-- What `deleteStepJobs` of the finalizer deletes: by the two selectors of `stepJobSelectors`, one after the other. -/
def deleteStepJobs (controllerNamespace : String) (p : PipelineKey) (jobs : List StepJob) : List StepJob :=
  if controllerNamespace = "" then []
  else
    (jobs.filter fun job => job.ns == controllerNamespace && named job p.name &&
        job.labels.lookup stepPipelineNamespaceLabelKey == some p.ns) ++
      jobs.filter fun job => job.ns == controllerNamespace && named job p.name &&
        (job.labels.lookup stepPipelineNamespaceLabelKey).isNone

/-- Where the engine, the API server and the controller look for Jobs. -/
structure Namespaces where
  engine : String
  controlPlane : String
  controller : String

/-- Each of the operations on a pipeline selects, of the Jobs there are, those of the pipeline. -/
structure Agree (spaces : Namespaces) (executions : List Execution) (p : PipelineKey) : Prop where
  cancel : ∀ x ∈ executions,
    createStepJob spaces.engine x ∈ deletePipelineJobs p (executions.map (createStepJob spaces.engine)) ↔ x.pipeline = p
  retry : ∀ x ∈ executions,
    createStepJob spaces.engine x ∈ priorJobs spaces.controlPlane p (executions.map (createStepJob spaces.engine)) ↔ x.pipeline = p
  finalize : ∀ x ∈ executions,
    createStepJob spaces.engine x ∈ deleteStepJobs spaces.controller p (executions.map (createStepJob spaces.engine)) ↔ x.pipeline = p

variable {engineNamespace ns : String} {x : Execution} {p : PipelineKey}

@[simp] theorem named_createStepJob (name : String) :
    named (createStepJob engineNamespace x) name = true ↔ x.pipeline.name = name := by
  simp [named, createStepJob, stepJobLabels]

theorem lookup_namespace : (createStepJob engineNamespace x).labels.lookup stepPipelineNamespaceLabelKey =
    if x.pipeline.ns = "" then none else some x.pipeline.ns := by
  have hpipeline : (stepPipelineNamespaceLabelKey == stepPipelineLabelKey) = false := by decide
  have hstep : (stepPipelineNamespaceLabelKey == stepNameLabelKey) = false := by decide
  simp only [createStepJob, stepJobLabels, cons_append, nil_append, lookup_cons, hpipeline, hstep]
  split_ifs <;> simp_all

section
variable {executions : List Execution} (hx : x ∈ executions)

include hx

theorem mem_deletePipelineJobs : createStepJob engineNamespace x ∈
    deletePipelineJobs p (executions.map (createStepJob engineNamespace)) ↔ engineNamespace = p.ns ∧ x.pipeline.name = p.name := by
  rw [deletePipelineJobs, mem_filter, Bool.and_eq_true, named_createStepJob, beq_iff_eq]
  exact and_iff_right (mem_map_of_mem hx)

theorem mem_priorJobs : createStepJob engineNamespace x ∈ priorJobs ns p (executions.map (createStepJob engineNamespace)) ↔
    engineNamespace = ns ∧ x.pipeline.name = p.name := by
  rw [priorJobs, mem_filter, Bool.and_eq_true, named_createStepJob, beq_iff_eq]
  exact and_iff_right (mem_map_of_mem hx)

theorem mem_deleteStepJobs : createStepJob engineNamespace x ∈
    deleteStepJobs ns p (executions.map (createStepJob engineNamespace)) ↔
      ns ≠ "" ∧ engineNamespace = ns ∧ x.pipeline.name = p.name ∧ (x.pipeline.ns = "" ∨ x.pipeline.ns = p.ns) := by
  have hmem := mem_map_of_mem (f := createStepJob engineNamespace) hx
  have hns : (createStepJob engineNamespace x).ns = engineNamespace := rfl
  rw [deleteStepJobs]
  split_ifs with hempty
  · simp [hempty]
  · simp only [mem_append, mem_filter, Bool.and_eq_true, beq_iff_eq, named_createStepJob, lookup_namespace, hns, hmem,
      true_and]
    split_ifs <;> simp_all [and_assoc]
end

/-- **When cancelling, retrying and deleting select the same Jobs**, for every pipeline of a set. -/
theorem job_selections_agree_iff (spaces : Namespaces) (pipelines : List PipelineKey) (executions : List Execution)
    (hown : ∀ x ∈ executions, x.pipeline ∈ pipelines) :
    (∀ p ∈ pipelines, Agree spaces executions p) ↔
      ∀ x ∈ executions, spaces.engine ≠ "" ∧ x.pipeline.ns = spaces.engine ∧ spaces.controlPlane = spaces.engine ∧
        spaces.controller = spaces.engine ∧ ∀ p ∈ pipelines, p.name = x.pipeline.name → p = x.pipeline := by
  constructor
  · intro h x hx
    have hself := h x.pipeline (hown x hx)
    have hcancel := (mem_deletePipelineJobs hx).mp ((hself.cancel x hx).mpr rfl)
    have hretry := (mem_priorJobs hx).mp ((hself.retry x hx).mpr rfl)
    have hfinalize := (mem_deleteStepJobs hx).mp ((hself.finalize x hx).mpr rfl)
    refine ⟨hfinalize.2.1 ▸ hfinalize.1, hcancel.1.symm, hretry.1.symm, hfinalize.2.1.symm, fun p hp hname => ?_⟩
    exact (((h p hp).retry x hx).mp ((mem_priorJobs hx).mpr ⟨hretry.1, hname.symm⟩)).symm
  · intro h p hp
    refine ⟨fun x hx => ?_, fun x hx => ?_, fun x hx => ?_⟩
    all_goals obtain ⟨hne, hns, hcontrol, hcontroller, hunique⟩ := h x hx
    · rw [mem_deletePipelineJobs hx]
      exact ⟨fun hsel => (hunique p hp hsel.2.symm).symm, fun hsame => ⟨by rw [← hsame, hns], by rw [hsame]⟩⟩
    · rw [mem_priorJobs hx]
      exact ⟨fun hsel => (hunique p hp hsel.2.symm).symm, fun hsame => ⟨hcontrol.symm, by rw [hsame]⟩⟩
    · rw [mem_deleteStepJobs hx]
      exact ⟨fun hsel => (hunique p hp hsel.2.2.1.symm).symm,
        fun hsame => ⟨hcontroller ▸ hne, hcontroller.symm, by rw [hsame], Or.inr (by rw [hsame])⟩⟩

/-- The Job of a step of the pipeline `tenant/checks`, as long as it runs. -/
def tenantJob : Execution := ⟨⟨"tenant", "checks"⟩, "unit", 1, ⟨1, false, false⟩⟩

theorem job_selections_agree_iff_sample :
    (∀ p ∈ [(⟨"tenant", "checks"⟩ : PipelineKey)], Agree ⟨"tenant", "tenant", "tenant"⟩ [tenantJob] p) ↔
      ∀ x ∈ [tenantJob], "tenant" ≠ "" ∧ x.pipeline.ns = "tenant" ∧ "tenant" = "tenant" ∧ "tenant" = "tenant" ∧
        ∀ p ∈ [(⟨"tenant", "checks"⟩ : PipelineKey)], p.name = x.pipeline.name → p = x.pipeline :=
  job_selections_agree_iff ⟨"tenant", "tenant", "tenant"⟩ [⟨"tenant", "checks"⟩] [tenantJob] (by decide)

/-- The Jobs of a pipeline outside the namespace of the engine outlive its cancellation. -/
theorem cancelled_pipeline_keeps_jobs :
    ¬Agree ⟨"paprika-system", "paprika-system", "paprika-system"⟩ [tenantJob] ⟨"tenant", "checks"⟩ := by
  intro h
  have hdeleted := (h.cancel tenantJob mem_cons_self).mpr rfl
  revert hdeleted
  decide

end Paprika.Pipelines.StepJobs
