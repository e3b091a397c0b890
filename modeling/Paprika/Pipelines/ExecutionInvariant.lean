import Paprika.Pipelines.Snapshots

/-!
# The invariant of an execution

What holds of an active execution between any two of its steps (`ActiveInv`), and that each step of a goroutine keeps
it: entering a step, going on with a Job, concluding, reporting an attempt, returning, and the next sub-batch.
-/

namespace Paprika.Pipelines

open List

/-- The phase an attempt of `retryStep` has reported. -/
def StepRun.result (r : StepRun) : Option StepPhase :=
  match r.stage with
  | .retried phase _ => some phase
  | .reporting _ | .creating | .watching => none

/-- The snapshot a goroutine waits to write. -/
def StepRun.snapshot (r : StepRun) : Option (List StepStatus) :=
  match r.stage with
  | .reporting snapshot | .retried _ snapshot => some snapshot
  | .creating | .watching => none

/-- The lists of statuses around: the copy, the one the API server has, and those about to be written. -/
def ActiveRun.Seen (a : ActiveRun) (persisted S : List StepStatus) : Prop :=
  S = a.copy ∨ S = persisted ∨ S ∈ a.returning ∨ ∃ r ∈ a.jobs, r.snapshot = some S

/-- What is true of each of these lists.  A step that has not been entered has the phase it had before the execution,
and a step that runs is succeeded only if `retryStep` has reported so. -/
structure Snapshot (steps : List PipelineStep) (l : Ledger) (a : ActiveRun) (S : List StepStatus) : Prop where
  sound : Sound steps l S
  excused : ∀ n, ⟨n, .skipped⟩ ∈ S → Excused steps l S [] n
  unentered : ∀ step ∈ a.pending ++ a.queue.flatten, ∀ p, ⟨step.name, p⟩ ∈ S ↔ ⟨step.name, p⟩ ∈ a.previous
  running : ∀ r ∈ a.jobs, r.result ≠ some .succeeded → ⟨r.step.name, .succeeded⟩ ∉ S

def ActiveRun.running (a : ActiveRun) : List String := a.jobs.map (fun r => r.step.name)

/-- The invariant of an active execution. -/
structure ActiveInv (steps : List PipelineStep) (l : Ledger) (persisted : List StepStatus) (a : ActiveRun) :
    Prop where
  snapshots : ∀ S, a.Seen persisted S → Snapshot steps l a S
  previous : (a.previous.map (·.name)).Nodup
  layout : Layout steps (a.stepStatuses.map (·.name)) (a.jobs.map (·.step)) a.pending a.queue a.failed
  settled : ∀ x ∈ a.stepStatuses, x ∈ a.copy ∧ isTerminalStepPhase x.phase = true ∧
    (x.phase = .succeeded → x.name ∈ a.completed)
  completed : ∀ n ∈ a.completed, n ∈ l.succeeded
  satisfied : ∀ r ∈ a.jobs, ∀ dep ∈ r.step.depends, dep ∈ l.succeeded
  excused : ∀ n, ⟨n, .skipped⟩ ∈ a.copy → Excused steps l a.copy a.running n
  reported : ∀ r ∈ a.jobs, ∀ p, r.result = some p → ⟨r.step.name, p⟩ ∈ a.copy ∧ (p = .succeeded ∨ p = .failed)

section
variable {steps : List PipelineStep} {l l' : Ledger} {persisted persisted' S : List StepStatus} {a a' : ActiveRun}
  {run next : StepRun} {phase : StepPhase} {step : PipelineStep}

section
variable (h : ActiveInv steps l persisted a)
include h

theorem ActiveInv.copy : Snapshot steps l a a.copy := h.snapshots a.copy (.inl rfl)

theorem ActiveInv.pending (hstep : step ∈ a.pending) :
    step ∈ nodesOf (newGraph steps) ∧ step.name ∉ a.stepStatuses.map (·.name) := by
  have hmem : step ∈ a.jobs.map (·.step) ++ a.pending ++ a.queue.flatten :=
    mem_append_left _ (mem_append_right _ hstep)
  exact ⟨h.layout.known step hmem, fun hdone => h.layout.disjoint.1 step.name hdone step hmem rfl⟩

theorem ActiveInv.runs (hrun : run ∈ a.jobs) :
    run.step ∈ nodesOf (newGraph steps) ∧ run.step.name ∉ a.stepStatuses.map (·.name) := by
  have hmem : run.step ∈ a.jobs.map (·.step) ++ a.pending ++ a.queue.flatten :=
    mem_append_left _ (mem_append_left _ (mem_map_of_mem hrun))
  exact ⟨h.layout.known run.step hmem, fun hdone => h.layout.disjoint.1 run.step.name hdone run.step hmem rfl⟩

theorem ActiveInv.open_of_pending (hstep : step ∈ a.pending)
    (hprev : ∀ p, ⟨step.name, p⟩ ∈ a.previous → isTerminalStepPhase p = false) {p : StepPhase}
    (hp : isTerminalStepPhase p = true) : ⟨step.name, p⟩ ∉ a.copy := by
  intro hcopy
  rw [hprev p ((h.copy.unentered step (mem_append_left _ hstep) p).mp hcopy)] at hp
  cases hp
end

theorem Snapshot.grow (h : Snapshot steps l a S) (hl : l.Grows l') : Snapshot steps l' a S where
  sound := h.sound.grow hl
  excused := fun n hn => (h.excused n hn).grow hl
  unentered := h.unentered
  running := h.running

theorem ActiveInv.grow (h : ActiveInv steps l persisted a) (hl : l.Grows l') : ActiveInv steps l' persisted a where
  snapshots := fun S hS => (h.snapshots S hS).grow hl
  previous := h.previous
  layout := h.layout
  settled := h.settled
  completed := fun n hn => hl.succeeded (h.completed n hn)
  satisfied := fun r hr dep hdep => hl.succeeded (h.satisfied r hr dep hdep)
  excused := fun n hn => (h.excused n hn).grow hl
  reported := h.reported

theorem ActiveInv.write (h : ActiveInv steps l persisted a) (hS : a.Seen persisted S) : ActiveInv steps l S a where
  snapshots := by
    intro S' hS'
    rcases hS' with rfl | rfl | hreturning | hjob
    · exact h.copy
    · exact h.snapshots S' hS
    · exact h.snapshots S' (.inr (.inr (.inl hreturning)))
    · exact h.snapshots S' (.inr (.inr (.inr hjob)))
  previous := h.previous
  layout := h.layout
  settled := h.settled
  completed := h.completed
  satisfied := h.satisfied
  excused := h.excused
  reported := h.reported

/-- A list that says so of an execution says so of a later one, in which fewer steps are unentered and each that runs
ran before or was not succeeded when it was entered. -/
theorem Snapshot.later (h : Snapshot steps l a S) (hprev : a'.previous = a.previous)
    (hsub : a'.pending ++ a'.queue.flatten ⊆ a.pending ++ a.queue.flatten)
    (hjobs : ∀ r ∈ a'.jobs, r.result ≠ some .succeeded →
      (∃ r₀ ∈ a.jobs, r₀.step = r.step ∧ r₀.result ≠ some .succeeded) ∨
      (r.step ∈ a.pending ∧ ⟨r.step.name, .succeeded⟩ ∉ a.previous)) : Snapshot steps l a' S where
  sound := h.sound
  excused := h.excused
  unentered := by
    intro step hstep p
    rw [hprev]
    exact h.unentered step (hsub hstep) p
  running := by
    intro r hr hres
    rcases hjobs r hr hres with ⟨r₀, hr₀, hstep, hresult₀⟩ | ⟨hpend, hnot⟩
    · rw [← hstep]
      exact h.running r₀ hr₀ hresult₀
    · rw [h.unentered r.step (mem_append.mpr (.inl hpend))]
      exact hnot

variable {name : String} {running : List String}

/-- The copy after an update is a snapshot again: the entry is that of no unentered step, and succeeded only if every
goroutine of that step has reported so. -/
theorem Snapshot.update (h : Snapshot steps l a S) (hsound : Sound steps l (updateStepStatus S ⟨name, phase⟩))
    (hexcused : ∀ n, ⟨n, .skipped⟩ ∈ updateStepStatus S ⟨name, phase⟩ →
      Excused steps l (updateStepStatus S ⟨name, phase⟩) running n)
    (hname : ∀ step ∈ a.pending ++ a.queue.flatten, step.name ≠ name)
    (hrunning : ∀ r ∈ a.jobs, r.result ≠ some .succeeded → r.step.name = name → phase ≠ .succeeded) :
    Snapshot steps l a (updateStepStatus S ⟨name, phase⟩) where
  sound := hsound
  excused := fun n hn => (hexcused n hn).mono (nil_subset _)
  unentered := by
    intro step hstep p
    rw [mem_updateStepStatus h.sound.nodup, ← h.unentered step hstep p]
    constructor
    · intro hp
      rcases hp with heq | ⟨hp, _⟩
      · cases heq
        exact absurd rfl (hname step hstep)
      · exact hp
    · exact fun hp => .inr ⟨hp, hname step hstep⟩
  running := by
    intro r hr hres hmem
    rcases (mem_updateStepStatus h.sound.nodup).mp hmem with heq | ⟨hmem, _⟩
    · have hparts := StepStatus.mk.inj heq
      exact hrunning r hr hres hparts.1 hparts.2.symm
    · exact h.running r hr hres hmem

/-! ### Steps that leave the copy alone -/

section
variable (h : ActiveInv steps l persisted a)
include h

theorem ActiveInv.resume (hrun : run ∈ a.jobs) (hstep : next.step = run.step)
    (hres : run.result ≠ some .succeeded) (hnext : next.result = none) (hsnapshot : next.snapshot = none) :
    ActiveInv steps l persisted (a.resume run next) where
  snapshots := by
    intro S hS
    have hseen : a.Seen persisted S := by
      rcases hS with hcopy | hpers | hreturning | ⟨r, hr, hsnap⟩
      · exact .inl hcopy
      · exact .inr (.inl hpers)
      · exact .inr (.inr (.inl hreturning))
      · rcases mem_cons.mp hr with rfl | hr
        · rw [hsnapshot] at hsnap
          cases hsnap
        · exact .inr (.inr (.inr ⟨r, mem_of_mem_erase hr, hsnap⟩))
    refine (h.snapshots S hseen).later rfl (List.Subset.refl _) ?_
    intro r hr hrresult
    rcases mem_cons.mp hr with rfl | hr
    · exact .inl ⟨run, hrun, hstep.symm, hres⟩
    · exact .inl ⟨r, mem_of_mem_erase hr, rfl, hrresult⟩
  previous := h.previous
  layout := by
    have hperm : ((a.resume run next).jobs.map (·.step)).Perm (a.jobs.map (·.step)) := by
      have := ((perm_cons_erase hrun).map (·.step)).symm
      simpa only [ActiveRun.resume, map_cons, hstep] using this
    refine h.layout.move ?_ ?_ (List.Subset.refl _) (List.Subset.refl _) (fun hf => hf)
    · exact ((hperm.append_right _).map _).append_left _
    · exact (hperm.append_right _).subset
  settled := h.settled
  completed := h.completed
  satisfied := by
    intro r hr
    rcases mem_cons.mp hr with rfl | hr
    · rw [hstep]
      exact h.satisfied run hrun
    · exact h.satisfied r (mem_of_mem_erase hr)
  excused := by
    intro n hn
    refine (h.excused n hn).mono ?_
    intro m hm
    obtain ⟨r, hr, rfl⟩ := mem_map.mp hm
    rcases mem_cons.mp hr with rfl | hr
    · rw [hstep]
      exact mem_map_of_mem hrun
    · exact mem_map_of_mem (mem_of_mem_erase hr)
  reported := by
    intro r hr p hp
    rcases mem_cons.mp hr with rfl | hr
    · rw [hnext] at hp
      cases hp
    · exact h.reported r (mem_of_mem_erase hr) p hp

theorem ActiveInv.returned (S : List StepStatus) :
    ActiveInv steps l persisted { a with returning := a.returning.erase S } where
  snapshots := by
    intro S' hS'
    have hseen : a.Seen persisted S' := by
      rcases hS' with hcopy | hpers | hreturning | hjob
      · exact .inl hcopy
      · exact .inr (.inl hpers)
      · exact .inr (.inr (.inl (mem_of_mem_erase hreturning)))
      · exact .inr (.inr (.inr hjob))
    exact (h.snapshots S' hseen).later rfl (List.Subset.refl _) (fun r hr hres => .inl ⟨r, hr, rfl, hres⟩)
  previous := h.previous
  layout := h.layout
  settled := h.settled
  completed := h.completed
  satisfied := h.satisfied
  excused := h.excused
  reported := h.reported

/-- The next sub-batch starts once every goroutine of the current one has returned. -/
theorem ActiveInv.advance (hidle : a.idle = true) {part : List PipelineStep}
    {rest : List (List PipelineStep)} (hqueue : a.queue = part :: rest) :
    ActiveInv steps l persisted { a with pending := part, queue := rest } := by
  simp only [ActiveRun.idle, Bool.and_eq_true, List.isEmpty_iff] at hidle
  obtain ⟨⟨hpend, hjobs⟩, _⟩ := hidle
  have hlayout := h.layout
  rw [hjobs, hpend, hqueue, List.map_nil] at hlayout
  refine { h with snapshots := ?_, layout := ?_ }
  · intro S hS
    refine (h.snapshots S hS).later rfl ?_ (fun r hr hres => .inl ⟨r, hr, rfl, hres⟩)
    rw [hpend, hqueue, nil_append, flatten_cons]
    exact List.Subset.refl _
  · show Layout steps _ (a.jobs.map (·.step)) part rest a.failed
    rw [hjobs, map_nil]
    exact hlayout.advance

theorem ActiveInv.enter_keep (hstep : step ∈ a.pending)
    (hprev : ⟨step.name, phase⟩ ∈ a.previous) (hterm : isTerminalStepPhase phase = true) :
    ActiveInv steps l persisted
      ({ a with pending := a.pending.erase step } |>.append ⟨step.name, phase⟩) := by
  have hcopy : ⟨step.name, phase⟩ ∈ a.copy :=
    (h.copy.unentered step (mem_append.mpr (.inl hstep)) phase).mpr hprev
  refine { h with snapshots := ?_, layout := ?_, settled := ?_, completed := ?_ }
  · intro S hS
    refine (h.snapshots S hS).later rfl ?_ (fun r hr hres => .inl ⟨r, hr, rfl, hres⟩)
    intro other hother
    rcases mem_append.mp hother with hpend | hlater
    · exact mem_append.mpr (.inl (mem_of_mem_erase hpend))
    · exact mem_append.mpr (.inr hlater)
  · simpa only [ActiveRun.append, map_append, map_cons, map_nil] using h.layout.done_of_pending hstep
  · intro x hx
    rcases mem_append.mp hx with hx | hx
    · obtain ⟨hmem, hend, hcompl⟩ := h.settled x hx
      refine ⟨hmem, hend, ?_⟩
      intro hsucc
      simp only [ActiveRun.append]
      split
      · exact mem_cons_of_mem _ (hcompl hsucc)
      · exact hcompl hsucc
    · rw [mem_singleton] at hx
      subst hx
      refine ⟨hcopy, hterm, ?_⟩
      intro hsucc
      have hphase : phase = .succeeded := hsucc
      simp only [ActiveRun.append, hphase, if_true]
      exact mem_cons_self
  · intro n hn
    simp only [ActiveRun.append] at hn
    split at hn
    · next hphase =>
      rcases mem_cons.mp hn with rfl | hn
      · exact h.copy.sound.succeeded step.name (hphase ▸ hcopy)
      · exact h.completed n hn
    · exact h.completed n hn

/-! ### Steps that update the copy -/

/-- The copy is updated at a step that is not unentered any more; the new list may be about to be written. -/
theorem ActiveInv.snapshots_update
    (hprev : a'.previous = a.previous) (hcopy : a'.copy = updateStepStatus a.copy ⟨name, phase⟩)
    (hsub : a'.pending ++ a'.queue.flatten ⊆ a.pending ++ a.queue.flatten)
    (hjobs : ∀ r ∈ a'.jobs, r.result ≠ some .succeeded →
      (∃ r₀ ∈ a.jobs, r₀.step = r.step ∧ r₀.result ≠ some .succeeded) ∨
      (r.step ∈ a.pending ∧ ⟨r.step.name, .succeeded⟩ ∉ a.previous))
    (hreturning : ∀ S ∈ a'.returning, S = a'.copy ∨ S ∈ a.returning)
    (hsnapshots : ∀ r ∈ a'.jobs, r.snapshot = some a'.copy ∨ r ∈ a.jobs)
    (hsound : Sound steps l a'.copy)
    (hexcused : ∀ n, ⟨n, .skipped⟩ ∈ a'.copy → Excused steps l a'.copy running n)
    (hname : ∀ step ∈ a'.pending ++ a'.queue.flatten, step.name ≠ name)
    (hrunning : ∀ r ∈ a'.jobs, r.result ≠ some .succeeded → r.step.name = name → phase ≠ .succeeded) :
    ∀ S, a'.Seen persisted S → Snapshot steps l a' S := by
  have hlater : ∀ S, Snapshot steps l a S → Snapshot steps l a' S := fun S hS => hS.later hprev hsub hjobs
  have hnew : Snapshot steps l a' a'.copy := by
    rw [hcopy] at hsound hexcused ⊢
    exact (hlater _ h.copy).update hsound hexcused hname hrunning
  intro S hS
  rcases hS with rfl | rfl | hmem | ⟨r, hr, hsnap⟩
  · exact hnew
  · exact hlater _ (h.snapshots S (.inr (.inl rfl)))
  · rcases hreturning S hmem with rfl | hold
    · exact hnew
    · exact hlater _ (h.snapshots S (.inr (.inr (.inl hold))))
  · rcases hsnapshots r hr with hcopy' | hold
    · rw [hcopy', Option.some.injEq] at hsnap
      rw [← hsnap]
      exact hnew
    · exact hlater _ (h.snapshots S (.inr (.inr (.inr ⟨r, hold, hsnap⟩))))

theorem ActiveInv.enter_run (hstep : step ∈ a.pending)
    (hprev : ∀ p, ⟨step.name, p⟩ ∈ a.previous → isTerminalStepPhase p = false)
    (hdeps : ∀ dep ∈ step.depends, dep ∈ a.completed) :
    ActiveInv steps l persisted
      { a with pending := a.pending.erase step, copy := updateStepStatus a.copy ⟨step.name, .running⟩,
               jobs := ⟨step, 0, .reporting (updateStepStatus a.copy ⟨step.name, .running⟩)⟩ :: a.jobs } := by
  have hnd := h.copy.sound.nodup
  have hmem : step ∈ a.pending ++ a.queue.flatten := mem_append_left _ hstep
  have hlayout := h.layout.running_of_pending hstep
  have hknown : step.name ∈ nodeNames steps := mem_map_of_mem (h.pending hstep).1
  have hsound : Sound steps l (updateStepStatus a.copy ⟨step.name, .running⟩) := by
    refine h.copy.sound.update hknown (fun hp => by cases hp) (fun hp => by cases hp) (fun hp => by cases hp) ?_
    exact fun hkept => absurd (h.copy.sound.kept _ hkept) (h.open_of_pending hstep hprev rfl)
  have hexcused : ∀ n, ⟨n, .skipped⟩ ∈ updateStepStatus a.copy ⟨step.name, .running⟩ →
      Excused steps l (updateStepStatus a.copy ⟨step.name, .running⟩) (step.name :: a.running) n := by
    intro n hn
    rcases (mem_updateStepStatus hnd).mp hn with heq | ⟨hn, _⟩
    · cases heq
    refine (h.excused n hn).update hnd ?_
    intro t ht hrunning
    have hne : t ≠ step.name := by
      rintro rfl
      exact h.open_of_pending hstep hprev rfl ht
    refine ⟨hne, ?_⟩
    rw [mem_cons]
    exact not_or.mpr ⟨hne, hrunning⟩
  refine { h with snapshots := ?_, layout := hlayout, settled := ?_, satisfied := ?_, excused := hexcused,
                  reported := ?_ }
  · refine h.snapshots_update rfl rfl ?_ ?_ (fun S hS => .inr hS) ?_ hsound hexcused ?_ (fun r hr _ _ => by simp)
    · intro other hother
      rcases mem_append.mp hother with hpend | hlater
      · exact mem_append.mpr (.inl (mem_of_mem_erase hpend))
      · exact mem_append.mpr (.inr hlater)
    · intro r hr hres
      rcases mem_cons.mp hr with rfl | hr
      · refine .inr ⟨hstep, ?_⟩
        intro hsucc
        have := hprev .succeeded hsucc
        cases this
      · exact .inl ⟨r, hr, rfl, hres⟩
    · intro r hr
      rcases mem_cons.mp hr with rfl | hr
      · exact .inl rfl
      · exact .inr hr
    · intro other hother
      exact hlayout.disjoint.2 step mem_cons_self other hother
  · intro x hx
    obtain ⟨hcopy, hend, hcompl⟩ := h.settled x hx
    refine ⟨(mem_updateStepStatus hnd).mpr (.inr ⟨hcopy, ?_⟩), hend, hcompl⟩
    exact ne_of_mem_of_not_mem (mem_map_of_mem hx) (h.pending hstep).2
  · intro r hr dep hdep
    rcases mem_cons.mp hr with rfl | hr
    · exact h.completed dep (hdeps dep hdep)
    · exact h.satisfied r hr dep hdep
  · intro r hr p hp
    rcases mem_cons.mp hr with rfl | hr
    · cases hp
    · obtain ⟨hcopy, hp'⟩ := h.reported r hr p hp
      refine ⟨(mem_updateStepStatus hnd).mpr (.inr ⟨hcopy, ?_⟩), hp'⟩
      exact (h.layout.disjoint.2 r.step (mem_map_of_mem hr) step hmem).symm

theorem ActiveInv.excused_of_dependency (hstep : step ∈ a.pending) {dep : String}
    (hdep : dep ∈ step.depends) (hnot : dep ∉ a.completed) : Excused steps l a.copy a.running step.name := by
  have hedge : DependsOn steps step.name dep := ⟨step, mem_nodesOf (h.pending hstep).1, rfl, hdep⟩
  have hdone := h.layout.ready step hstep dep hdep
  obtain ⟨⟨name, p⟩, hx, hname⟩ := mem_map.mp hdone
  have hname : name = dep := hname
  subst hname
  obtain ⟨hcopy, hend, hcompl⟩ := h.settled ⟨name, p⟩ hx
  cases p with
  | succeeded => exact absurd (hcompl rfl) hnot
  | failed =>
    refine ⟨name, Relation.ReflTransGen.single hedge, .inr ⟨hcopy, ?_⟩⟩
    intro hrunning
    obtain ⟨r, hr, hrname⟩ := mem_map.mp hrunning
    refine (h.runs hr).2 ?_
    rw [hrname]
    exact hdone
  | skipped =>
    obtain ⟨t, hreach, ht⟩ := h.excused name hcopy
    exact ⟨t, Relation.ReflTransGen.head hedge hreach, ht⟩
  | cancelled => exact absurd hcopy (h.copy.sound.cancelled name)
  | pending => cases hend
  | running => cases hend

/-- Appending the status of a step that has just become settled keeps what is known of the done steps. -/
theorem ActiveInv.settled_append
    (hterm : isTerminalStepPhase phase = true) (hname : name ∉ a.stepStatuses.map (·.name)) :
    ∀ x ∈ (a.append ⟨name, phase⟩).stepStatuses, x ∈ updateStepStatus a.copy ⟨name, phase⟩ ∧
      isTerminalStepPhase x.phase = true ∧ (x.phase = .succeeded → x.name ∈ (a.append ⟨name, phase⟩).completed) := by
  have hnd := h.copy.sound.nodup
  intro x hx
  rcases mem_append.mp hx with hx | hx
  · obtain ⟨hcopy, hend, hcompl⟩ := h.settled x hx
    refine ⟨(mem_updateStepStatus hnd).mpr (.inr ⟨hcopy, ?_⟩), hend, ?_⟩
    · intro heq
      have heq : x.name = name := heq
      exact hname (heq ▸ mem_map_of_mem hx)
    intro hsucc
    simp only [ActiveRun.append]
    split
    · exact mem_cons_of_mem _ (hcompl hsucc)
    · exact hcompl hsucc
  · rw [mem_singleton] at hx
    subst hx
    refine ⟨(mem_updateStepStatus hnd).mpr (.inl rfl), hterm, ?_⟩
    intro hsucc
    have hphase : phase = .succeeded := hsucc
    simp only [ActiveRun.append, hphase, if_true]
    exact mem_cons_self

theorem ActiveInv.completed_append (hsucc : phase = .succeeded → name ∈ l.succeeded) :
    ∀ n ∈ (a.append ⟨name, phase⟩).completed, n ∈ l.succeeded := by
  intro n hn
  simp only [ActiveRun.append] at hn
  split at hn
  · next hphase =>
    rcases mem_cons.mp hn with rfl | hn
    · exact hsucc hphase
    · exact h.completed n hn
  · exact h.completed n hn

theorem ActiveInv.enter_skip (hstep : step ∈ a.pending)
    (hprev : ∀ p, ⟨step.name, p⟩ ∈ a.previous → isTerminalStepPhase p = false) {dep : String}
    (hdep : dep ∈ step.depends) (hnot : dep ∉ a.completed) :
    ActiveInv steps l persisted
      { a with pending := a.pending.erase step, copy := updateStepStatus a.copy ⟨step.name, .skipped⟩,
               stepStatuses := a.stepStatuses ++ [⟨step.name, .skipped⟩],
               returning := updateStepStatus a.copy ⟨step.name, .skipped⟩ :: a.returning } := by
  have hnd := h.copy.sound.nodup
  have hmem : step ∈ a.pending ++ a.queue.flatten := mem_append_left _ hstep
  obtain ⟨hknown, hundone⟩ := h.pending hstep
  have hlayout := h.layout.done_of_pending hstep
  have hsound : Sound steps l (updateStepStatus a.copy ⟨step.name, .skipped⟩) := by
    refine h.copy.sound.update (mem_map_of_mem hknown) (fun hp => by cases hp)
      (fun hp => by cases hp) (fun hp => by cases hp) ?_
    exact fun hkept => absurd (h.copy.sound.kept _ hkept) (h.open_of_pending hstep hprev rfl)
  have hother : ∀ t, ⟨t, .failed⟩ ∈ a.copy → t ∉ a.running → t ≠ step.name ∧ t ∉ a.running := by
    intro t ht hrunning
    refine ⟨?_, hrunning⟩
    rintro rfl
    exact h.open_of_pending hstep hprev rfl ht
  have hexcused : ∀ n, ⟨n, .skipped⟩ ∈ updateStepStatus a.copy ⟨step.name, .skipped⟩ →
      Excused steps l (updateStepStatus a.copy ⟨step.name, .skipped⟩) a.running n := by
    intro n hn
    rcases (mem_updateStepStatus hnd).mp hn with heq | ⟨hn, _⟩
    · rw [(StepStatus.mk.inj heq).1]
      exact (h.excused_of_dependency hstep hdep hnot).update hnd hother
    · exact (h.excused n hn).update hnd hother
  refine { h with snapshots := ?_, layout := ?_, settled := ?_, excused := hexcused, reported := ?_ }
  · refine h.snapshots_update rfl rfl ?_ (fun r hr hres => .inl ⟨r, hr, rfl, hres⟩)
      (fun S hS => mem_cons.mp hS) (fun r hr => .inr hr) hsound hexcused ?_ (fun r hr _ _ => by simp)
    · intro other hother
      rcases mem_append.mp hother with hpend | hlater
      · exact mem_append.mpr (.inl (mem_of_mem_erase hpend))
      · exact mem_append.mpr (.inr hlater)
    · intro other hother
      refine hlayout.disjoint.1 step.name (mem_append.mpr (.inr mem_cons_self)) other ?_
      rw [append_assoc]
      exact mem_append.mpr (.inr hother)
  · simpa only [map_append, map_cons, map_nil] using hlayout
  · exact h.settled_append rfl hundone
  · intro r hr p hp
    obtain ⟨hcopy, hp'⟩ := h.reported r hr p hp
    refine ⟨(mem_updateStepStatus hnd).mpr (.inr ⟨hcopy, ?_⟩), hp'⟩
    exact (h.layout.disjoint.2 r.step (mem_map_of_mem hr) step hmem).symm

/-- The entry of a running step may be overwritten with a phase the ledger backs. -/
theorem ActiveInv.sound_update (hrun : run ∈ a.jobs)
    (hphase : phase = .succeeded ∨ phase = .failed) (hsucc : phase = .succeeded → run.step.name ∈ l.succeeded)
    (hfailed : phase = .failed → run.step.name ∈ l.failed ∨ run.step.name ∈ l.cutOff)
    (hkept : run.step.name ∈ l.kept → phase = .succeeded) :
    Sound steps l (updateStepStatus a.copy ⟨run.step.name, phase⟩) := by
  refine h.copy.sound.update (mem_map_of_mem (h.runs hrun).1) hsucc hfailed ?_ hkept
  rcases hphase with rfl | rfl
  · simp
  · simp

theorem ActiveInv.excused_update (hrun : run ∈ a.jobs)
    (hsub : running ⊆ a.running) (hphase : phase = .succeeded ∨ phase = .failed) :
    ∀ n, ⟨n, .skipped⟩ ∈ updateStepStatus a.copy ⟨run.step.name, phase⟩ →
      Excused steps l (updateStepStatus a.copy ⟨run.step.name, phase⟩) running n := by
  have hnd := h.copy.sound.nodup
  intro n hn
  rcases (mem_updateStepStatus hnd).mp hn with heq | ⟨hn, _⟩
  · rcases hphase with rfl | rfl
    · cases heq
    · cases heq
  refine (h.excused n hn).update hnd ?_
  intro t _ ht
  refine ⟨?_, fun hmem => ht (hsub hmem)⟩
  rintro rfl
  exact ht (mem_map_of_mem hrun)

theorem ActiveInv.eq_run (hrun : run ∈ a.jobs) : ∀ r ∈ a.jobs.erase run, r.step.name ≠ run.step.name := by
  have hnd := h.layout.nodup
  rw [append_assoc] at hnd
  have hjobs := (nodup_append.mp hnd).2.1
  rw [map_append, append_assoc] at hjobs
  have hnames := (nodup_append.mp hjobs).1
  rw [map_map] at hnames
  have hperm := ((perm_cons_erase hrun).map (PipelineStep.name ∘ StepRun.step)).nodup_iff.mp hnames
  rw [map_cons, nodup_cons] at hperm
  intro r hr heq
  apply hperm.1
  have hmem : r.step.name ∈ (a.jobs.erase run).map (PipelineStep.name ∘ StepRun.step) := mem_map.mpr ⟨r, hr, rfl⟩
  rw [heq] at hmem
  exact hmem

theorem ActiveInv.conclude (hrun : run ∈ a.jobs)
    (hphase : phase = .succeeded ∨ phase = .failed) (hsucc : phase = .succeeded → run.step.name ∈ l.succeeded)
    (hfailed : phase = .failed → run.step.name ∈ l.failed ∨ run.step.name ∈ l.cutOff)
    (hkept : run.step.name ∈ l.kept → phase = .succeeded) : ActiveInv steps l persisted (a.conclude run phase) := by
  have hnd := h.copy.sound.nodup
  have hsub : (a.jobs.erase run).map (fun r => r.step.name) ⊆ a.running := map_subset _ erase_subset
  have hsound := h.sound_update hrun hphase hsucc hfailed hkept
  have hexcused := h.excused_update hrun hsub hphase
  have hterm : isTerminalStepPhase phase = true := by
    rcases hphase with rfl | rfl
    · rfl
    · rfl
  have hundone := (h.runs hrun).2
  refine { previous := h.previous, snapshots := ?_, layout := ?_, settled := h.settled_append hterm hundone,
           completed := h.completed_append hsucc, satisfied := ?_, excused := hexcused, reported := ?_ }
  · refine h.snapshots_update rfl rfl (List.Subset.refl _) ?_ (fun S hS => mem_cons.mp hS)
      (fun r hr => .inr (mem_of_mem_erase hr)) hsound hexcused ?_ ?_
    · exact fun r hr hres => .inl ⟨r, mem_of_mem_erase hr, rfl, hres⟩
    · exact fun other hother => h.layout.disjoint.2 run.step (mem_map_of_mem hrun) other hother
    · exact fun r hr _ hname => absurd hname (h.eq_run hrun r hr)
  · have hperm : (a.jobs.map (·.step)).Perm (run.step :: (a.jobs.erase run).map (·.step)) :=
      (perm_cons_erase hrun).map _
    have hlayout : Layout steps _ _ a.pending a.queue (a.failed || phase == .failed) :=
      h.layout.done_of_running hperm (fun hf => (Bool.or_eq_false_iff.mp hf).1)
    simpa only [ActiveRun.conclude, ActiveRun.append, map_append, map_cons, map_nil] using hlayout
  · exact fun r hr => h.satisfied r (mem_of_mem_erase hr)
  · intro r hr p hp
    obtain ⟨hcopy, hp'⟩ := h.reported r (mem_of_mem_erase hr) p hp
    exact ⟨(mem_updateStepStatus hnd).mpr (.inr ⟨hcopy, h.eq_run hrun r hr⟩), hp'⟩

theorem ActiveInv.report (hrun : run ∈ a.jobs)
    (hres : run.result ≠ some .succeeded)
    (hphase : phase = .succeeded ∨ phase = .failed) (hsucc : phase = .succeeded → run.step.name ∈ l.succeeded)
    (hfailed : phase = .failed → run.step.name ∈ l.failed ∨ run.step.name ∈ l.cutOff)
    (hkept : run.step.name ∈ l.kept → phase = .succeeded) :
    ActiveInv steps l persisted
      { a with copy := updateStepStatus a.copy ⟨run.step.name, phase⟩,
               jobs := { run with stage := .retried phase (updateStepStatus a.copy ⟨run.step.name, phase⟩) } ::
                 a.jobs.erase run } := by
  have hnd := h.copy.sound.nodup
  have hsub : run.step.name :: (a.jobs.erase run).map (fun r => r.step.name) ⊆ a.running := by
    refine cons_subset.mpr ⟨mem_map_of_mem hrun, map_subset _ erase_subset⟩
  have hsound := h.sound_update hrun hphase hsucc hfailed hkept
  have hexcused := h.excused_update hrun hsub hphase
  refine { h with snapshots := ?_, layout := ?_, settled := ?_, satisfied := ?_, excused := hexcused, reported := ?_ }
  · refine h.snapshots_update rfl rfl (List.Subset.refl _) ?_ (fun S hS => .inr hS) ?_ hsound hexcused ?_ ?_
    · intro r hr hr'
      rcases mem_cons.mp hr with rfl | hr
      · exact .inl ⟨run, hrun, rfl, hres⟩
      · exact .inl ⟨r, mem_of_mem_erase hr, rfl, hr'⟩
    · intro r hr
      rcases mem_cons.mp hr with rfl | hr
      · exact .inl rfl
      · exact .inr (mem_of_mem_erase hr)
    · exact fun other hother => h.layout.disjoint.2 run.step (mem_map_of_mem hrun) other hother
    · intro r hr hr' hname
      rcases mem_cons.mp hr with rfl | hr
      · intro hphase'
        exact hr' (by rw [hphase']; rfl)
      · exact absurd hname (h.eq_run hrun r hr)
  · have hperm : (run.step :: (a.jobs.erase run).map (·.step)).Perm (a.jobs.map (·.step)) :=
      ((perm_cons_erase hrun).map StepRun.step).symm
    refine h.layout.move ?_ ?_ (List.Subset.refl _) (List.Subset.refl _) (fun hf => hf)
    · exact ((hperm.append_right _).map _).append_left _
    · exact (hperm.append_right _).subset
  · intro x hx
    obtain ⟨hcopy, hend, hcompl⟩ := h.settled x hx
    refine ⟨(mem_updateStepStatus hnd).mpr (.inr ⟨hcopy, ?_⟩), hend, hcompl⟩
    exact ne_of_mem_of_not_mem (mem_map_of_mem hx) (h.runs hrun).2
  · intro r hr
    rcases mem_cons.mp hr with rfl | hr
    · exact h.satisfied run hrun
    · exact h.satisfied r (mem_of_mem_erase hr)
  · intro r hr p hp
    rcases mem_cons.mp hr with rfl | hr
    · cases hp
      exact ⟨(mem_updateStepStatus hnd).mpr (.inl rfl), hphase⟩
    · obtain ⟨hcopy, hp'⟩ := h.reported r (mem_of_mem_erase hr) p hp
      exact ⟨(mem_updateStepStatus hnd).mpr (.inr ⟨hcopy, h.eq_run hrun r hr⟩), hp'⟩
end

end

end Paprika.Pipelines
