import Paprika.Pipelines.ExecutionInvariant

/-!
# A pipeline run respects its dependencies

Over any sequence of executions of one generation, with restarts, retries and skipped steps in between:

* **`dag_execution_respects_dependencies`** — a Job is created only for a step all of whose dependencies have succeeded
  and were not reset since, never for a step whose status is Succeeded or from whose Succeeded status an execution has
  started; a step is Failed only after a Job of its own could not be created or failed, or the watch of its Job was cut
  off; and a Succeeded Pipeline has no failed step and no skipped one that does not go back to `SkipStep`.
* **`cut_off_sibling_is_failed`** — a failing step cancels the watch of its sibling, which is then Failed while its Job
  goes on (`watchJob` answers Failed on a cancelled context); and of two progress writes the later one can carry the
  older snapshot, so that a step reported Succeeded runs again after a restart.
-/

namespace Paprika.Pipelines

open Lib.Run List Bool

/-! ### The sub-batches of an execution -/

theorem effectiveParallel_pos (maxParallel : Int) : 0 < effectiveParallel maxParallel := by
  unfold effectiveParallel
  split
  · omega
  · omega

section
variable {n fuel : Nat} {batch : List PipelineStep} {done : List String} {rest batches others : List (List PipelineStep)}

theorem subBatches_flatten (hn : 0 < n) (hfuel : batch.length ≤ fuel) : (subBatches n fuel batch).flatten = batch := by
  induction fuel generalizing batch with
  | zero =>
    have : batch = [] := eq_nil_of_length_eq_zero (by omega)
    rw [this]
    rfl
  | succ fuel ih =>
    rw [subBatches]
    split
    · next hempty =>
      rw [isEmpty_iff.mp hempty]
      rfl
    · next hempty =>
      have hpos : 0 < batch.length := length_pos_iff.mpr (fun h => hempty (isEmpty_iff.mpr h))
      have hdrop : (batch.drop n).length ≤ fuel := by
        rw [length_drop]
        omega
      rw [flatten_cons, ih hdrop, take_append_drop]

theorem subBatches_layered (hn : 0 < n) (hfuel : batch.length ≤ fuel)
    (hbatch : ∀ step ∈ batch, ∀ dep ∈ step.depends, dep ∈ done)
    (hrest : Layered (done ++ batch.map (·.name)) rest) : Layered done (subBatches n fuel batch ++ rest) := by
  induction fuel generalizing batch done with
  | zero =>
    have : batch = [] := eq_nil_of_length_eq_zero (by omega)
    rw [this, map_nil, append_nil] at hrest
    exact hrest
  | succ fuel ih =>
    rw [subBatches]
    split
    · next hempty =>
      rw [isEmpty_iff.mp hempty, map_nil, append_nil] at hrest
      exact hrest
    · next hempty =>
      have hpos : 0 < batch.length := length_pos_iff.mpr (fun h => hempty (isEmpty_iff.mpr h))
      have hdrop : (batch.drop n).length ≤ fuel := by
        rw [length_drop]
        omega
      refine ⟨fun step hstep => hbatch step (mem_of_mem_take hstep), ih hdrop ?_ ?_⟩
      · intro step hstep dep hdep
        exact mem_append.mpr (.inl (hbatch step (mem_of_mem_drop hstep) dep hdep))
      · rw [append_assoc, ← map_append, take_append_drop]
        exact hrest

theorem reordered_spec (h : reordered batches others = true) : List.Forall₂ List.Perm batches others := by
  induction batches generalizing others with
  | nil =>
    cases others with
    | nil => exact List.Forall₂.nil
    | cons _ _ => simp [reordered] at h
  | cons batch batches ih =>
    cases others with
    | nil => simp [reordered] at h
    | cons other others =>
      rw [reordered, and_eq_true, isPerm_iff] at h
      exact List.Forall₂.cons h.1 (ih h.2)

theorem flatten_perm_of_reordered (h : List.Forall₂ List.Perm batches others) : batches.flatten.Perm others.flatten := by
  induction h with
  | nil => exact List.Perm.refl _
  | cons hperm _ ih =>
    rw [flatten_cons, flatten_cons]
    exact hperm.append ih

theorem queue_layered (hn : 0 < n) (h : List.Forall₂ List.Perm batches others) (hlayered : Layered done batches) :
    Layered done (others.flatMap (fun batch => subBatches n batch.length batch)) := by
  induction h generalizing done with
  | nil => trivial
  | @cons batch other batches others hperm _ ih =>
    rw [flatMap_cons]
    refine subBatches_layered hn (le_refl _) ?_ ?_
    · exact fun step hstep => hlayered.1 step (hperm.mem_iff.mpr hstep)
    · refine ih (hlayered.2.mono ?_)
      exact (((hperm.map (·.name)).append_left done)).subset

theorem queue_flatten (hn : 0 < n) (others : List (List PipelineStep)) :
    (others.flatMap (fun batch => subBatches n batch.length batch)).flatten = others.flatten := by
  induction others with
  | nil => rfl
  | cons other others ih => rw [flatMap_cons, flatten_append, subBatches_flatten hn (le_refl _), ih, flatten_cons]
end

/-! ### The invariant of the Pipeline -/

/-- The invariant over all executions. -/
structure WorkflowInv (s : Workflow) : Prop where
  sound : Sound s.steps s.ledger s.status.stepStatuses
  excused : ∀ n, ⟨n, .skipped⟩ ∈ s.status.stepStatuses → Excused s.steps s.ledger s.status.stepStatuses [] n
  succeeded : s.status.phase = .succeeded → (∀ x ∈ s.status.stepStatuses, x.phase = .succeeded ∨ x.phase = .skipped) ∧
    ∀ n ∈ nodeNames s.steps, n ∈ s.status.stepStatuses.map (·.name)
  fresh : pipelineNeedsExecutionStart s.generation s.status = true → s.status.stepStatuses = []
  active : ∀ a, s.active = some a → ActiveInv s.steps s.ledger s.status.stepStatuses a ∧
    isTerminalPipelinePhase s.status.phase = false ∧ pipelineNeedsExecutionStart s.generation s.status = false

theorem workflowInv_init (steps : List PipelineStep) (maxParallel : Int) (generation : Nat) :
    WorkflowInv (.init steps maxParallel generation) where
  sound :=
    { nodup := nodup_nil
      known := fun x hx => absurd hx not_mem_nil
      succeeded := fun n hn => absurd hn not_mem_nil
      failed := fun n hn => absurd hn not_mem_nil
      cancelled := fun n => not_mem_nil
      kept := fun n hn => absurd hn not_mem_nil }
  excused := fun n hn => absurd hn not_mem_nil
  succeeded := fun hphase => by cases hphase
  fresh := fun _ => rfl
  active := fun a ha => by cases ha

section
variable {s : Workflow} {a : ActiveRun} {steps : List PipelineStep} {l : Ledger} {statuses : List StepStatus}
  {persisted : List StepStatus} {run : StepRun}

theorem Sound.keep (h : Sound steps l statuses) : Sound steps (l.keep statuses) statuses where
  nodup := h.nodup
  known := h.known
  succeeded := h.succeeded
  failed := h.failed
  cancelled := h.cancelled
  kept := by
    intro n hn
    rcases mem_append.mp hn with hnew | hold
    · obtain ⟨⟨name, phase⟩, hx, rfl⟩ := mem_map.mp hnew
      obtain ⟨hx, hphase⟩ := mem_filter.mp hx
      have hphase : phase = .succeeded := by simpa using hphase
      subst hphase
      exact hx
    · exact h.kept n hold

theorem activeInv_start {maxParallel : Int} {queue : List (List PipelineStep)} {failed : Bool}
    (hsound : Sound steps l statuses)
    (hexcused : ∀ n, ⟨n, .skipped⟩ ∈ statuses → Excused steps l statuses [] n)
    (hlayout : Layout steps [] [] [] queue failed) :
    ActiveInv steps l statuses { ActiveRun.start maxParallel statuses [] with queue := queue, failed := failed } where
  snapshots := by
    intro S hS
    have hSeq : S = statuses := by
      rcases hS with rfl | rfl | hreturning | ⟨r, hr, _⟩
      · rfl
      · rfl
      · exact absurd hreturning not_mem_nil
      · exact absurd hr not_mem_nil
    subst hSeq
    exact ⟨hsound, hexcused, fun step _ p => Iff.rfl, fun r hr => absurd hr not_mem_nil⟩
  previous := hsound.nodup
  layout := hlayout
  settled := fun x hx => absurd hx not_mem_nil
  completed := fun n hn => absurd hn not_mem_nil
  satisfied := fun r hr => absurd hr not_mem_nil
  excused := hexcused
  reported := fun r hr => absurd hr not_mem_nil

theorem layout_start (statuses : List StepStatus) {batches resolved : List (List PipelineStep)} (hresolved : resolveDAG steps = .ok resolved)
    (hbatches : reordered resolved batches = true) (maxParallel : Int) :
    Layout steps [] [] [] (ActiveRun.start maxParallel statuses batches).queue false := by
  have hpos := effectiveParallel_pos maxParallel
  have hsame := reordered_spec hbatches
  have hflatten : (ActiveRun.start maxParallel statuses batches).queue.flatten = batches.flatten :=
    queue_flatten hpos batches
  have hperm : batches.flatten.Perm (nodesOf (newGraph steps)) :=
    (flatten_perm_of_reordered hsame).symm.trans (resolveDAG_perm hresolved)
  refine ⟨?_, ?_, ?_, fun step hstep => absurd hstep not_mem_nil, ?_⟩
  · rw [hflatten]
    exact ((hperm.map (·.name)).nodup_iff).mpr (nodesOf_nodup steps)
  · intro _ n hn
    rw [hflatten]
    exact ((hperm.map (·.name)).mem_iff).mpr hn
  · intro step hstep
    rw [hflatten] at hstep
    exact hperm.mem_iff.mp hstep
  · exact queue_layered hpos hsame (resolveDAG_layered hresolved)

theorem layout_failed (steps : List PipelineStep) : Layout steps [] [] [] [] true where
  nodup := List.nodup_nil
  covers := fun hf => by cases hf
  known := fun step hstep => absurd hstep not_mem_nil
  ready := fun step hstep => absurd hstep not_mem_nil
  layered := trivial

section
variable (h : WorkflowInv s) (hopen : isTerminalPipelinePhase s.status.phase = false)
include h hopen

theorem WorkflowInv.started :
    s.started.stepStatuses = s.status.stepStatuses ∧ isTerminalPipelinePhase s.started.phase = false ∧
      pipelineNeedsExecutionStart s.generation s.started = false := by
  unfold Workflow.started
  split
  · next hneeds =>
    refine ⟨(h.fresh hneeds).symm, rfl, ?_⟩
    simp [pipelineNeedsExecutionStart, startedStatus]
  · next hneeds => exact ⟨rfl, hopen, by simpa using hneeds⟩

theorem WorkflowInv.launch
    {queue : List (List PipelineStep)} {failed : Bool} (hlayout : Layout s.steps [] [] [] queue failed) :
    WorkflowInv (s.launch { ActiveRun.start s.maxParallel s.started.stepStatuses [] with
      queue := queue, failed := failed }) := by
  obtain ⟨hsame, hphase, hneeds⟩ := h.started hopen
  have hsound : Sound s.steps (s.ledger.keep s.started.stepStatuses) s.started.stepStatuses := by
    rw [hsame]
    exact h.sound.keep
  have hexcused : ∀ n, ⟨n, .skipped⟩ ∈ s.started.stepStatuses →
      Excused s.steps (s.ledger.keep s.started.stepStatuses) s.started.stepStatuses [] n := by
    rw [hsame]
    exact h.excused
  refine ⟨hsound, hexcused, ?_, ?_, ?_⟩
  · intro hsucc
    have hsucc : s.started.phase = .succeeded := hsucc
    rw [hsucc] at hphase
    cases hphase
  · intro hfresh
    have hfresh : pipelineNeedsExecutionStart s.generation s.started = true := hfresh
    rw [hneeds] at hfresh
    cases hfresh
  · intro a ha
    cases ha
    exact ⟨activeInv_start hsound hexcused hlayout, hphase, hneeds⟩
end

theorem WorkflowInv.begin (h : WorkflowInv s) (batches : List (List PipelineStep)) (written : Bool) :
    WorkflowInv (s.begin batches written) := by
  unfold Workflow.begin
  split
  · exact h
  · next hopen =>
    have hopen : isTerminalPipelinePhase s.status.phase = false := by simpa using hopen
    split
    · exact h
    split
    · exact h.launch hopen (layout_failed s.steps)
    · next resolved hresolved =>
      split
      · next hbatches => exact h.launch hopen (layout_start s.started.stepStatuses hresolved hbatches s.maxParallel)
      · exact h

/-- The statuses `resetPipelineRetry` leaves. -/
def resetEntries (affected : List String) (statuses : List StepStatus) : List StepStatus :=
  statuses.map (fun st => if affected.contains st.name then { name := st.name, phase := .pending } else st)

theorem resetEntries_names (affected : List String) (statuses : List StepStatus) :
    (resetEntries affected statuses).map (·.name) = statuses.map (·.name) := by
  rw [resetEntries, map_map]
  refine map_congr_left ?_
  intro x _
  simp only [Function.comp_apply]
  split
  · rfl
  · rfl

theorem mem_resetEntries {affected : List String} {n : String} {p : StepPhase} (hp : p ≠ .pending) :
    ⟨n, p⟩ ∈ resetEntries affected statuses ↔ ⟨n, p⟩ ∈ statuses ∧ n ∉ affected := by
  rw [resetEntries, mem_map]
  constructor
  · intro hmem
    obtain ⟨x, hx, heq⟩ := hmem
    split at heq
    · cases heq
      exact absurd rfl hp
    · next hnot =>
      subst heq
      exact ⟨hx, by simpa using hnot⟩
  · intro hmem
    exact ⟨⟨n, p⟩, hmem.1, by simp [hmem.2]⟩

variable {status : PipelineStatus}

/-- A retry takes the reset steps out of the ledger and sets their entries to pending. -/
theorem WorkflowInv.retryStep (h : WorkflowInv s) (hidle : s.active = none) {name : String} {jobsStopped : Bool}
    {nanos : Nat}
    (hretry : retryStepStatus s.steps s.generation s.status name jobsStopped nanos = .ok status) :
    WorkflowInv { s with status := status, ledger := s.ledger.forget (pipelineRetryAffectedSteps s.steps name) } := by
  obtain ⟨hfailed, hgen, hreset⟩ := retryStepStatus_ok hretry
  obtain ⟨_, rfl⟩ := resetPipelineRetry_ok hreset
  generalize haffected : pipelineRetryAffectedSteps s.steps name = affected
  have hforget : ∀ (xs : List String) n, n ∈ xs.filter (fun n => !affected.contains n) ↔ n ∈ xs ∧ n ∉ affected := by
    intro xs n
    simp [mem_filter]
  refine ⟨⟨?_, ?_, ?_, ?_, ?_, ?_⟩, ?_, ?_, ?_, ?_⟩
  · show ((resetEntries affected s.status.stepStatuses).map (·.name)).Nodup
    rw [resetEntries_names]
    exact h.sound.nodup
  · intro x hx
    obtain ⟨y, hy, rfl⟩ := mem_map.mp hx
    split
    · exact h.sound.known y hy
    · exact h.sound.known y hy
  · intro n hn
    obtain ⟨hmem, hnot⟩ := (mem_resetEntries (by simp)).mp hn
    exact (hforget _ n).mpr ⟨h.sound.succeeded n hmem, hnot⟩
  · intro n hn
    obtain ⟨hmem, hnot⟩ := (mem_resetEntries (by simp)).mp hn
    exact (h.sound.failed n hmem).imp (fun hf => (hforget _ n).mpr ⟨hf, hnot⟩) (fun hc => (hforget _ n).mpr ⟨hc, hnot⟩)
  · intro n hn
    exact h.sound.cancelled n ((mem_resetEntries (by simp)).mp hn).1
  · intro n hn
    obtain ⟨hmem, hnot⟩ := (hforget _ n).mp hn
    exact (mem_resetEntries (by simp)).mpr ⟨h.sound.kept n hmem, hnot⟩
  · -- the excuse of a step that is not affected is not affected either
    intro n hn
    obtain ⟨hmem, hnot⟩ := (mem_resetEntries (by simp)).mp hn
    obtain ⟨t, hreach, ht⟩ := h.excused n hmem
    have htnot : t ∉ affected := by
      intro htmem
      rw [← haffected] at htmem hnot
      exact hnot (affected_reaches hreach htmem)
    refine ⟨t, hreach, ?_⟩
    rcases ht with hskipped | ⟨hfailed, hempty⟩
    · exact .inl ((hforget _ t).mpr ⟨hskipped, htnot⟩)
    · exact .inr ⟨(mem_resetEntries (by simp)).mpr ⟨hfailed, htnot⟩, hempty⟩
  · exact fun hphase => by cases hphase
  · intro hfresh
    exfalso
    simp [pipelineNeedsExecutionStart, hgen] at hfresh
    omega
  · intro a ha
    have ha : s.active = some a := ha
    rw [hidle] at ha
    cases ha

theorem WorkflowInv.skipStep (h : WorkflowInv s) (hidle : s.active = none) {name : String}
    (hskip : skipStepStatus s.status name = .ok status) :
    WorkflowInv { s with status := status, ledger := { s.ledger with skipped := name :: s.ledger.skipped } } := by
  obtain ⟨before, after, hold, rfl⟩ := skipStepStatus_ok hskip
  have hgrows : s.ledger.Grows { s.ledger with skipped := name :: s.ledger.skipped } :=
    { Ledger.Grows.refl s.ledger with skipped := subset_cons_self _ _ }
  have hsound := h.sound.grow hgrows
  have hother : ∀ n p, ⟨n, p⟩ ∈ before ++ ⟨name, .skipped⟩ :: after →
      ⟨n, p⟩ ∈ s.status.stepStatuses ∨ (n = name ∧ p = .skipped) := by
    intro n p hmem
    rw [hold]
    simp only [mem_append, mem_cons, StepStatus.mk.injEq] at hmem ⊢
    rcases hmem with hmem | hmem | hmem
    · exact .inl (.inl hmem)
    · exact .inr hmem
    · exact .inl (.inr (.inr hmem))
  have hkeeps : ∀ n p, p ≠ .pending → ⟨n, p⟩ ∈ s.status.stepStatuses → ⟨n, p⟩ ∈ before ++ ⟨name, .skipped⟩ :: after := by
    intro n p hp hmem
    rw [hold] at hmem
    simp only [mem_append, mem_cons, StepStatus.mk.injEq] at hmem ⊢
    rcases hmem with hmem | hmem | hmem
    · exact .inl hmem
    · exact absurd hmem.2 hp
    · exact .inr (.inr hmem)
  have hnames : (before ++ (⟨name, .skipped⟩ : StepStatus) :: after).map (·.name) =
      s.status.stepStatuses.map (·.name) := by
    rw [hold, map_append, map_append, map_cons, map_cons]
  have hpend : (⟨name, .pending⟩ : StepStatus) ∈ s.status.stepStatuses := by
    rw [hold]
    exact mem_append.mpr (.inr mem_cons_self)
  refine ⟨⟨?_, ?_, ?_, ?_, ?_, ?_⟩, ?_, ?_, ?_, ?_⟩
  · show ((before ++ (⟨name, .skipped⟩ : StepStatus) :: after).map (·.name)).Nodup
    rw [hnames]
    exact hsound.nodup
  · intro x hx
    have hx : x.name ∈ (before ++ (⟨name, .skipped⟩ : StepStatus) :: after).map (·.name) := mem_map_of_mem hx
    rw [hnames] at hx
    obtain ⟨y, hy, hname⟩ := mem_map.mp hx
    rw [← hname]
    exact hsound.known y hy
  · intro n hn
    rcases hother n _ hn with hmem | ⟨_, hphase⟩
    · exact hsound.succeeded n hmem
    · cases hphase
  · intro n hn
    rcases hother n _ hn with hmem | ⟨_, hphase⟩
    · exact hsound.failed n hmem
    · cases hphase
  · intro n hn
    rcases hother n _ hn with hmem | ⟨_, hphase⟩
    · exact hsound.cancelled n hmem
    · cases hphase
  · exact fun n hn => hkeeps n _ (by simp) (hsound.kept n hn)
  · intro n hn
    rcases hother n _ hn with hmem | ⟨rfl, _⟩
    · obtain ⟨t, hreach, ht⟩ := (h.excused n hmem).grow hgrows
      exact ⟨t, hreach, ht.imp_right (fun hf => ⟨hkeeps t _ (by simp) hf.1, hf.2⟩)⟩
    · exact ⟨n, Relation.ReflTransGen.refl, .inl mem_cons_self⟩
  · intro hphase
    rcases (h.succeeded hphase).1 _ hpend with hcontra | hcontra
    · cases hcontra
    · cases hcontra
  · intro hfresh
    have hfresh : s.status.stepStatuses = [] := h.fresh hfresh
    rw [hfresh] at hpend
    cases hpend
  · intro a ha
    have ha : s.active = some a := ha
    rw [hidle] at ha
    cases ha

/-! ### The steps of an execution -/

section
variable (h : ActiveInv steps l persisted a)
include h

theorem ActiveInv.not_kept (hrun : run ∈ a.jobs)
    (hres : run.result ≠ some .succeeded) : run.step.name ∉ l.kept :=
  fun hkept => h.copy.running run hrun hres (h.copy.sound.kept _ hkept)

theorem ActiveInv.enter {step : PipelineStep} (hstep : step ∈ a.pending) :
    ActiveInv steps l persisted (a.enter step) := by
  unfold ActiveRun.enter
  dsimp only
  split
  · next phase hphase =>
    obtain ⟨hfound, hterm⟩ := Option.filter_eq_some_iff.mp hphase
    exact h.enter_keep hstep (mem_of_phaseOf hfound) hterm
  · next hnone =>
    have hprev : ∀ p, ⟨step.name, p⟩ ∈ a.previous → isTerminalStepPhase p = false := by
      intro p hp
      have hnone : (phaseOf a.previous step.name).filter isTerminalStepPhase = none := hnone
      rw [phaseOf_of_mem h.previous hp, Option.filter_some] at hnone
      by_contra hterm
      rw [not_eq_false] at hterm
      rw [hterm] at hnone
      cases hnone
    split
    · next hdeps =>
      refine h.enter_run hstep hprev ?_
      intro dep hdep
      simpa using all_eq_true.mp hdeps dep hdep
    · next hdeps =>
      rw [not_eq_true, all_eq_false] at hdeps
      obtain ⟨dep, hdep, hnot⟩ := hdeps
      exact h.enter_skip hstep hprev hdep (by simpa using hnot)

theorem ActiveInv.create_failed (hrun : run ∈ a.jobs)
    (hres : run.result ≠ some .succeeded) :
    ActiveInv steps (l.observe run.step.name .failed) persisted (a.conclude run .failed) := by
  have hgrown := h.grow (l.grows_observe run.step.name .failed)
  refine hgrown.conclude hrun (.inr rfl) (fun hp => by cases hp) ?_ ?_
  · exact fun _ => .inl mem_cons_self
  · exact fun hkept => absurd hkept (hgrown.not_kept hrun hres)

theorem ActiveInv.observe (hrun : run ∈ a.jobs) (hstage : run.stage = .watching)
    (result : JobResult) : ActiveInv steps (l.observe run.step.name result) persisted (a.observe run result) := by
  have hres : run.result ≠ some .succeeded := by simp [StepRun.result, hstage]
  have hgrown := h.grow (l.grows_observe run.step.name result)
  have hkept : ∀ p, run.step.name ∈ (l.observe run.step.name result).kept → p = StepPhase.succeeded :=
    fun p hkept => absurd hkept (hgrown.not_kept hrun hres)
  -- the ledger backs the phase of the result
  have hsucc : result.phase = .succeeded → run.step.name ∈ (l.observe run.step.name result).succeeded := by
    intro hphase
    cases result with
    | complete => exact mem_cons_self
    | failed => cases hphase
    | cutOff => cases hphase
  have hfailed : result.phase = .failed → run.step.name ∈ (l.observe run.step.name result).failed ∨
      run.step.name ∈ (l.observe run.step.name result).cutOff := by
    intro hphase
    cases result with
    | complete => cases hphase
    | failed => exact .inl mem_cons_self
    | cutOff => exact .inr mem_cons_self
  unfold ActiveRun.observe
  split
  · split
    · next hcomp =>
      refine hgrown.conclude hrun (.inl rfl) (fun _ => ?_) (fun hp => by cases hp) (hkept _)
      exact hsucc (by rw [hcomp]; rfl)
    · next hnot =>
      split
      · exact hgrown.resume hrun rfl hres rfl rfl
      refine hgrown.conclude hrun (.inr rfl) (fun hp => by cases hp) (fun _ => hfailed ?_) (hkept _)
      cases result with
      | complete => exact absurd rfl hnot
      | failed => rfl
      | cutOff => rfl
  · refine hgrown.report hrun hres ?_ hsucc hfailed (hkept _)
    cases result with
    | complete => exact .inl rfl
    | failed => exact .inr rfl
    | cutOff => exact .inr rfl

theorem ActiveInv.afterRetry (hrun : run ∈ a.jobs) {phase : StepPhase}
    (hres : run.result = some phase) : ActiveInv steps l persisted (a.afterRetry run phase) := by
  obtain ⟨hcopy, hphase⟩ := h.reported run hrun phase hres
  unfold ActiveRun.afterRetry
  split
  · refine h.conclude hrun hphase (fun hp => ?_) (fun hp => ?_) (fun hkept => ?_)
    · exact h.copy.sound.succeeded _ (hp ▸ hcopy)
    · exact h.copy.sound.failed _ (hp ▸ hcopy)
    · exact phase_unique h.copy.sound.nodup hcopy (h.copy.sound.kept _ hkept)
  · next hnot =>
    refine h.resume hrun rfl ?_ rfl rfl
    rw [hres]
    intro heq
    exact hnot (.inl (Option.some.inj heq))

theorem ActiveInv.all_done (hidle : a.idle = true)
    (hfailed : a.failed = false) (hqueue : a.queue = []) : ∀ n ∈ nodeNames steps, n ∈ a.stepStatuses.map (·.name) := by
  simp only [ActiveRun.idle, and_eq_true, List.isEmpty_iff] at hidle
  obtain ⟨⟨hpend, hjobs⟩, _⟩ := hidle
  intro n hn
  have hcovers := h.layout.covers hfailed n hn
  rw [hjobs, hpend, hqueue] at hcovers
  simpa only [List.map_nil, List.append_nil, List.flatten_nil] using hcovers

theorem ActiveInv.mem_stepStatuses (hidle : a.idle = true)
    (hfailed : a.failed = false) (hqueue : a.queue = []) {x : StepStatus} : x ∈ a.stepStatuses ↔ x ∈ a.copy := by
  constructor
  · exact fun hx => (h.settled x hx).1
  · intro hx
    have hdone := h.all_done hidle hfailed hqueue x.name (h.copy.sound.known x hx)
    obtain ⟨y, hy, hname⟩ := mem_map.mp hdone
    rwa [← inj_on_of_nodup_map h.copy.sound.nodup (h.settled y hy).1 hx hname]
end

/-- The result of an execution needs no start: it has ended, and the generation has been observed. -/
theorem ActiveRun.needsNoStart_result (a : ActiveRun) {generation : Nat}
    (h : pipelineNeedsExecutionStart generation status = false) :
    pipelineNeedsExecutionStart generation (a.result status) = false := by
  have hgen : (a.result status).observedGeneration = status.observedGeneration := by
    unfold ActiveRun.result
    split <;> rfl
  have hended : (a.result status).phase = .succeeded ∨ (a.result status).phase = .failed := by
    unfold ActiveRun.result
    split
    · exact .inr rfl
    · dsimp only
      split
      · exact .inl rfl
      · exact .inr rfl
  unfold pipelineNeedsExecutionStart at h ⊢
  rw [hgen, (or_eq_false_iff.mp h).2]
  obtain hphase | hphase := hended
  · rw [hphase]
    rfl
  · rw [hphase]
    rfl

theorem ActiveInv.result (h : ActiveInv steps l persisted a) (hidle : a.idle = true)
    (hend : a.failed = true ∨ a.queue = []) (status : PipelineStatus) :
    Sound steps l (a.result status).stepStatuses ∧ (∀ n, ⟨n, .skipped⟩ ∈ (a.result status).stepStatuses →
        Excused steps l (a.result status).stepStatuses [] n) ∧
      ((a.result status).phase = .succeeded →
        (∀ x ∈ (a.result status).stepStatuses, x.phase = .succeeded ∨ x.phase = .skipped) ∧
        ∀ n ∈ nodeNames steps, n ∈ (a.result status).stepStatuses.map (·.name)) := by
  cases hfailed : a.failed with
  | true =>
    simp only [ActiveRun.result, hfailed, if_true]
    exact ⟨h.copy.sound, h.copy.excused, fun hp => by cases hp⟩
  | false =>
  have hqueue : a.queue = [] := by
    rcases hend with hcontra | hqueue
    · rw [hfailed] at hcontra
      cases hcontra
    · exact hqueue
  have hmem : ∀ x, x ∈ a.stepStatuses ↔ x ∈ a.copy := fun x => h.mem_stepStatuses hidle hfailed hqueue
  simp only [ActiveRun.result, hfailed, false_eq_true, if_false]
  refine ⟨?_, ?_, ?_⟩
  · have hnd := h.layout.nodup
    rw [append_assoc] at hnd
    exact
      { nodup := (nodup_append.mp hnd).1
        known := fun x hx => h.copy.sound.known x ((hmem x).mp hx)
        succeeded := fun n hn => h.copy.sound.succeeded n ((hmem _).mp hn)
        failed := fun n hn => h.copy.sound.failed n ((hmem _).mp hn)
        cancelled := fun n hn => h.copy.sound.cancelled n ((hmem _).mp hn)
        kept := fun n hn => (hmem _).mpr (h.copy.sound.kept n hn) }
  · intro n hn
    obtain ⟨t, hreach, ht⟩ := h.copy.excused n ((hmem _).mp hn)
    exact ⟨t, hreach, ht.imp_right (fun hf => ⟨(hmem _).mpr hf.1, hf.2⟩)⟩
  · intro hphase
    split at hphase
    · next hall =>
      refine ⟨?_, h.all_done hidle hfailed hqueue⟩
      intro x hx
      simpa using all_eq_true.mp hall x hx
    · cases hphase

theorem WorkflowInv.goOn (h : WorkflowInv s) (ha : s.active = some a) {a' : ActiveRun}
    (hphase : status.phase = s.status.phase) (hgen : status.observedGeneration = s.status.observedGeneration)
    (hinv : ActiveInv s.steps l status.stepStatuses a') :
    WorkflowInv { s with status := status, active := some a', ledger := l } := by
  obtain ⟨_, hopen, hneeds⟩ := h.active a ha
  have hneeds' : pipelineNeedsExecutionStart s.generation status = false := by
    rw [← hneeds, pipelineNeedsExecutionStart, pipelineNeedsExecutionStart, hphase, hgen]
  have hpers := hinv.snapshots status.stepStatuses (.inr (.inl rfl))
  refine ⟨hpers.sound, hpers.excused, ?_, ?_, ?_⟩
  · intro hsucc
    have hsucc : status.phase = .succeeded := hsucc
    rw [← hphase, hsucc] at hopen
    cases hopen
  · intro hfresh
    have hfresh : pipelineNeedsExecutionStart s.generation status = true := hfresh
    rw [hneeds'] at hfresh
    cases hfresh
  · intro b hb
    cases hb
    exact ⟨hinv, by rw [hphase]; exact hopen, hneeds'⟩

theorem ActiveInv.wrote (h : ActiveInv steps l persisted a) {snapshot : List StepStatus}
    (hstatus : status.stepStatuses = persisted) (hseen : a.Seen persisted snapshot) (written : Bool) :
    ActiveInv steps l (status.wrote snapshot written).stepStatuses a := by
  unfold PipelineStatus.wrote
  split
  · exact h.write hseen
  · rw [hstatus]
    exact h

theorem wrote_phase (status : PipelineStatus) (snapshot : List StepStatus) (written : Bool) :
    (status.wrote snapshot written).phase = status.phase ∧
      (status.wrote snapshot written).observedGeneration = status.observedGeneration := by
  unfold PipelineStatus.wrote
  split
  · exact ⟨rfl, rfl⟩
  · exact ⟨rfl, rfl⟩

theorem WorkflowInv.activeStep (h : WorkflowInv s) (ha : s.active = some a) (e : WorkflowEvent) :
    WorkflowInv (s.activeStep a e) := by
  have hinv := (h.active a ha).1
  cases e with
  | enter step =>
    simp only [Workflow.activeStep]
    split
    · next hstep => exact h.goOn ha rfl rfl (hinv.enter hstep)
    · exact h
  | patched run written =>
    simp only [Workflow.activeStep]
    split
    · next hrun =>
      split
      · next snapshot hstage =>
        have hseen : a.Seen s.status.stepStatuses snapshot :=
          .inr (.inr (.inr ⟨run, hrun, by rw [StepRun.snapshot, hstage]⟩))
        obtain ⟨hphase, hgen⟩ := wrote_phase s.status snapshot written
        have hres : run.result ≠ some .succeeded := by simp [StepRun.result, hstage]
        exact h.goOn ha hphase hgen ((hinv.wrote rfl hseen written).resume hrun rfl hres rfl rfl)
      · next phase snapshot hstage =>
        have hseen : a.Seen s.status.stepStatuses snapshot :=
          .inr (.inr (.inr ⟨run, hrun, by rw [StepRun.snapshot, hstage]⟩))
        obtain ⟨hphase, hgen⟩ := wrote_phase s.status snapshot written
        have hres : run.result = some phase := by rw [StepRun.result, hstage]
        exact h.goOn ha hphase hgen ((hinv.wrote rfl hseen written).afterRetry hrun hres)
      · exact h
      · exact h
    · exact h
  | returned snapshot written =>
    simp only [Workflow.activeStep]
    split
    · next hmem =>
      have hseen : a.Seen s.status.stepStatuses snapshot := .inr (.inr (.inl hmem))
      obtain ⟨hphase, hgen⟩ := wrote_phase s.status snapshot written
      exact h.goOn ha hphase hgen ((hinv.wrote rfl hseen written).returned snapshot)
    · exact h
  | create run created =>
    simp only [Workflow.activeStep]
    split
    · next hrun =>
      have hres : run.result ≠ some .succeeded := by simp [StepRun.result, hrun.2]
      split
      · exact h.goOn ha rfl rfl (hinv.resume hrun.1 rfl hres rfl rfl)
      · exact h.goOn ha rfl rfl (hinv.create_failed hrun.1 hres)
    · exact h
  | observe run result =>
    simp only [Workflow.activeStep]
    split
    · next hrun => exact h.goOn ha rfl rfl (hinv.observe hrun.1 hrun.2 result)
    · exact h
  | advance =>
    simp only [Workflow.activeStep]
    split
    · exact h
    · next part rest hqueue =>
      split
      · next hidle =>
        rw [and_eq_true] at hidle
        exact h.goOn ha rfl rfl (hinv.advance hidle.1 hqueue)
      · exact h
  | finish written =>
    simp only [Workflow.activeStep]
    split
    · next hend =>
      rw [and_eq_true, or_eq_true, List.isEmpty_iff] at hend
      split
      · obtain ⟨hsound, hexcused, hsucc⟩ := hinv.result hend.1 hend.2 s.status
        refine ⟨hsound.keep, hexcused, hsucc, ?_, fun b hb => by cases hb⟩
        intro hfresh
        have hneeds := a.needsNoStart_result (h.active a ha).2.2
        exact absurd (hneeds.symm.trans hfresh) (by decide)
      · exact { h with active := fun b hb => by cases hb }
    · exact h
  | crash => exact { h with active := fun b hb => by cases hb }
  | begin batches written => exact h
  | retryStep name jobsStopped nanos => exact h
  | skipStep name => exact h

/-- **Every step keeps the invariant.** -/
theorem WorkflowInv.step (h : WorkflowInv s) (e : WorkflowEvent) : WorkflowInv (s.step e) := by
  unfold Workflow.step
  cases ha : s.active with
  | some a => exact h.activeStep ha e
  | none =>
  cases e with
  | begin batches written => exact h.begin batches written
  | retryStep name jobsStopped nanos =>
    simp only [Workflow.idleStep]
    split
    · exact h
    · next status hretry => exact h.retryStep ha hretry
  | skipStep name =>
    simp only [Workflow.idleStep]
    split
    · exact h
    · next status hskip => exact h.skipStep ha hskip
  | enter _ => exact h
  | patched _ _ => exact h
  | returned _ _ => exact h
  | create _ _ => exact h
  | observe _ _ => exact h
  | advance => exact h
  | finish _ => exact h
  | crash => exact h
end

theorem begin_steps (s : Workflow) (batches : List (List PipelineStep)) (written : Bool) :
    (s.begin batches written).steps = s.steps := by
  unfold Workflow.begin
  split
  · rfl
  split
  · rfl
  split
  · rfl
  · split
    · rfl
    · rfl

theorem step_steps (s : Workflow) (e : WorkflowEvent) : (s.step e).steps = s.steps := by
  unfold Workflow.step
  split
  · cases e <;> simp only [Workflow.idleStep, begin_steps] <;> split <;> rfl
  · cases e <;> simp only [Workflow.activeStep] <;> (repeat' split) <;> rfl

theorem after_steps (steps : List PipelineStep) (maxParallel : Int) (generation : Nat) (es : List WorkflowEvent) :
    (Workflow.after steps maxParallel generation es).steps = steps :=
  run_invariant Workflow.step (motive := fun s => s.steps = steps) (fun s e hs => (step_steps s e).trans hs) es _ rfl

theorem workflowInv_after (steps : List PipelineStep) (maxParallel : Int) (generation : Nat)
    (es : List WorkflowEvent) : WorkflowInv (.after steps maxParallel generation es) :=
  run_invariant _ (fun _ e h => h.step e) es _ (workflowInv_init steps maxParallel generation)

/-- **Runs respect dependencies.**  Jobs are created behind succeeded dependencies only, and for steps that have not
succeeded; failures have a Job, and a Succeeded Pipeline has steps that succeeded or were skipped. -/
theorem dag_execution_respects_dependencies (steps : List PipelineStep) (maxParallel : Int) (generation : Nat)
    (es : List WorkflowEvent) :
    (∀ before e later r, es = before ++ e :: later →
      (Workflow.after steps maxParallel generation before).CreatesJob e r →
      (∀ dep ∈ r.step.depends, dep ∈ (Workflow.after steps maxParallel generation before).ledger.succeeded) ∧
      ⟨r.step.name, .succeeded⟩ ∉ (Workflow.after steps maxParallel generation before).status.stepStatuses ∧
      r.step.name ∉ (Workflow.after steps maxParallel generation before).ledger.kept) ∧
    (∀ n, ⟨n, .failed⟩ ∈ (Workflow.after steps maxParallel generation es).status.stepStatuses →
      n ∈ (Workflow.after steps maxParallel generation es).ledger.failed ∨
      n ∈ (Workflow.after steps maxParallel generation es).ledger.cutOff) ∧
    ((Workflow.after steps maxParallel generation es).status.phase = .succeeded →
      (∀ n, ⟨n, .failed⟩ ∉ (Workflow.after steps maxParallel generation es).status.stepStatuses) ∧
      ∀ step ∈ steps, ⟨step.name, .succeeded⟩ ∈ (Workflow.after steps maxParallel generation es).status.stepStatuses ∨
        (⟨step.name, .skipped⟩ ∈ (Workflow.after steps maxParallel generation es).status.stepStatuses ∧
          ∃ t ∈ (Workflow.after steps maxParallel generation es).ledger.skipped,
            Relation.ReflTransGen (DependsOn steps) step.name t)) := by
  refine ⟨?_, ?_, ?_⟩
  · intro before e later r _ hcreates
    obtain ⟨_, hstage, a, ha, hr⟩ := hcreates
    obtain ⟨hinv, _⟩ := (workflowInv_after steps maxParallel generation before).active a ha
    have hresult : r.result ≠ some .succeeded := by simp [StepRun.result, hstage]
    have hpersisted := hinv.snapshots _ (.inr (.inl rfl))
    exact ⟨hinv.satisfied r hr, hpersisted.running r hr hresult, hinv.not_kept hr hresult⟩
  · exact (workflowInv_after steps maxParallel generation es).sound.failed
  · intro hphase
    have hinv := workflowInv_after steps maxParallel generation es
    obtain ⟨hends, hall⟩ := hinv.succeeded hphase
    have hnone : ∀ n, ⟨n, .failed⟩ ∉ (Workflow.after steps maxParallel generation es).status.stepStatuses := by
      intro n hn
      rcases hends _ hn with hcontra | hcontra
      · cases hcontra
      · cases hcontra
    refine ⟨hnone, ?_⟩
    intro step hstep
    have hsteps : (Workflow.after steps maxParallel generation es).steps = steps := after_steps ..
    rw [hsteps] at hall
    obtain ⟨⟨name, phase⟩, hx, hname⟩ := mem_map.mp (hall step.name (mem_nodeNames hstep))
    have hname : name = step.name := hname
    subst hname
    rcases hends _ hx with hsucceeded | hskipped
    · have hsucceeded : phase = .succeeded := hsucceeded
      rw [hsucceeded] at hx
      exact .inl hx
    have hskipped : phase = .skipped := hskipped
    rw [hskipped] at hx
    refine .inr ⟨hx, ?_⟩
    obtain ⟨t, hreach, ht⟩ := hinv.excused step.name hx
    rw [hsteps] at hreach
    rcases ht with hmarked | ⟨hfailed, _⟩
    · exact ⟨t, hmarked, hreach⟩
    · exact absurd hfailed (hnone t)

/-! ### Two steps in parallel -/

section

def sampleParallel : List PipelineStep := [⟨"lint", [], 0⟩, ⟨"unit", [], 0⟩]

/-- The snapshots of a run of both steps. -/
def sampleStatuses (lint unit : StepPhase) : List StepStatus := [⟨"lint", lint⟩, ⟨"unit", unit⟩]

/-- Both steps run, each with its Job. -/
def sampleRunning : List WorkflowEvent :=
  let lint : PipelineStep := ⟨"lint", [], 0⟩
  let unit : PipelineStep := ⟨"unit", [], 0⟩
  [.begin [sampleParallel] true, .advance, .enter lint,
   .patched ⟨lint, 0, .reporting [⟨"lint", .running⟩]⟩ true, .create ⟨lint, 0, .creating⟩ true, .enter unit,
   .patched ⟨unit, 0, .reporting (sampleStatuses .running .running)⟩ true, .create ⟨unit, 0, .creating⟩ true]

/-- The Job of `lint` fails, which cancels the watch of `unit`. -/
def sampleCutOff : List WorkflowEvent :=
  sampleRunning ++
  [.observe ⟨⟨"lint", [], 0⟩, 0, .watching⟩ .failed, .returned (sampleStatuses .failed .running) true,
   .observe ⟨⟨"unit", [], 0⟩, 0, .watching⟩ .cutOff, .returned (sampleStatuses .failed .failed) true, .finish true]

/-- Both Jobs complete; the later write carries the older snapshot, and the controller restarts. -/
def sampleOvertaken : List WorkflowEvent :=
  [.returned (sampleStatuses .running .succeeded) true, .crash, .begin [sampleParallel] true, .advance,
   .enter ⟨"lint", [], 0⟩, .patched ⟨⟨"lint", [], 0⟩, 0, .reporting (sampleStatuses .running .succeeded)⟩ true]

/-- A failing step makes its sibling Failed, whose Job goes on; and a step whose status was Succeeded runs again. -/
theorem cut_off_sibling_is_failed :
    (¬∀ (steps : List PipelineStep) (maxParallel : Int) (generation : Nat) (es : List WorkflowEvent) (n : String),
      ⟨n, .failed⟩ ∈ (Workflow.after steps maxParallel generation es).status.stepStatuses →
      n ∈ (Workflow.after steps maxParallel generation es).ledger.failed) ∧
    ¬∀ (steps : List PipelineStep) (maxParallel : Int) (generation : Nat) (before between : List WorkflowEvent)
      (e : WorkflowEvent) (r : StepRun),
      ⟨r.step.name, .succeeded⟩ ∈ (Workflow.after steps maxParallel generation before).status.stepStatuses →
      (∀ name jobsStopped nanos, .retryStep name jobsStopped nanos ∉ between) →
      ¬(Workflow.after steps maxParallel generation (before ++ between)).CreatesJob e r := by
  refine ⟨?_, ?_⟩
  · intro h
    have hfailed := h sampleParallel 0 1 sampleCutOff "unit" (by decide)
    revert hfailed
    decide
  intro h
  refine h sampleParallel 0 1 (sampleRunning ++
    [.observe ⟨⟨"unit", [], 0⟩, 0, .watching⟩ .complete, .observe ⟨⟨"lint", [], 0⟩, 0, .watching⟩ .complete,
     .returned (sampleStatuses .succeeded .succeeded) true]) sampleOvertaken
    (.create ⟨⟨"lint", [], 0⟩, 0, .creating⟩ true) ⟨⟨"lint", [], 0⟩, 0, .creating⟩ (by decide) ?_ ?_
  · simp [sampleOvertaken]
  · exact ⟨rfl, rfl, _, rfl, by decide⟩
end

end Paprika.Pipelines
