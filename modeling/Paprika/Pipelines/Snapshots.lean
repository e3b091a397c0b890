import Paprika.Pipelines.Workflow

/-!
# What a snapshot of the statuses says

Every list of statuses that an execution takes as its copy, and so every list that can reach the API server, is
`Sound`: its entries are backed by the ledger, and a skipped step is `Excused` by a step it reaches along its
dependencies.  The module also has the `Layout` of an execution: which steps are done, running, pending or to come, and
that each depends on earlier ones only.
-/

namespace Paprika.Pipelines

open Lib.KeyedMap List

/-! ### Single entries -/

section
variable {statuses : List StepStatus} {st x : StepStatus} {name : String} {phase : StepPhase}

section
variable (hnd : (statuses.map (·.name)).Nodup)
include hnd

theorem mem_updateStepStatus : x ∈ updateStepStatus statuses st ↔ x = st ∨ (x ∈ statuses ∧ x.name ≠ st.name) := by
  induction statuses with
  | nil => simp [updateStepStatus]
  | cons head rest ih =>
    rw [map_cons, nodup_cons] at hnd
    rw [updateStepStatus]
    split
    · next hname =>
      -- the other entries have other names
      have hother : ∀ y ∈ rest, y.name ≠ st.name := by
        intro y hy hyname
        apply hnd.1
        rw [hname, ← hyname]
        exact mem_map_of_mem hy
      constructor
      · intro hx
        rcases mem_cons.mp hx with hx | hx
        · exact .inl hx
        · exact .inr ⟨mem_cons_of_mem head hx, hother x hx⟩
      intro hx
      rcases hx with hx | ⟨hx, hne⟩
      · exact mem_cons.mpr (.inl hx)
      · rcases mem_cons.mp hx with rfl | hx
        · exact absurd hname hne
        · exact mem_cons_of_mem st hx
    · next hname =>
      rw [mem_cons, ih hnd.2, mem_cons]
      constructor
      · intro hx
        rcases hx with rfl | hx | ⟨hx, hne⟩
        · exact .inr ⟨.inl rfl, hname⟩
        · exact .inl hx
        · exact .inr ⟨.inr hx, hne⟩
      intro hx
      rcases hx with hx | ⟨hx | hx, hne⟩
      · exact .inr (.inl hx)
      · exact .inl hx
      · exact .inr (.inr ⟨hx, hne⟩)

theorem updateStepStatus_nodup : ((updateStepStatus statuses st).map (·.name)).Nodup := by
  induction statuses with
  | nil => simp [updateStepStatus]
  | cons head rest ih =>
    rw [updateStepStatus]
    split
    · next hname =>
      rw [map_cons] at hnd ⊢
      rw [← hname]
      exact hnd
    · next hname =>
      rw [map_cons, nodup_cons] at hnd ⊢
      refine ⟨?_, ih hnd.2⟩
      intro hmem
      obtain ⟨y, hy, hyname⟩ := mem_map.mp hmem
      rcases (mem_updateStepStatus hnd.2).mp hy with rfl | ⟨hy, _⟩
      · exact hname hyname.symm
      · exact hnd.1 (hyname ▸ mem_map_of_mem hy)

theorem phase_unique {p q : StepPhase} (hp : ⟨name, p⟩ ∈ statuses)
    (hq : ⟨name, q⟩ ∈ statuses) : p = q := by
  have := inj_on_of_nodup_map hnd hp hq rfl
  exact (StepStatus.mk.inj this).2
end

theorem mem_of_phaseOf (h : phaseOf statuses name = some phase) : ⟨name, phase⟩ ∈ statuses := by
  rw [phaseOf, Option.map_eq_some_iff] at h
  obtain ⟨y, hy, rfl⟩ := h
  have hname : y.name = name := by simpa using List.find?_some hy
  have hmem := mem_reverse.mp (mem_of_find?_eq_some hy)
  rw [← hname]
  exact hmem

theorem phaseOf_of_mem (hnd : (statuses.map (·.name)).Nodup) (h : ⟨name, phase⟩ ∈ statuses) :
    phaseOf statuses name = some phase := by
  cases hfound : phaseOf statuses name with
  | none =>
    rw [phaseOf, Option.map_eq_none_iff, List.find?_eq_none] at hfound
    have := hfound ⟨name, phase⟩ (mem_reverse.mpr h)
    simp at this
  | some q => rw [phase_unique hnd (mem_of_phaseOf hfound) h]
end

/-! ### Sound statuses -/

def nodeNames (steps : List PipelineStep) : List String := (nodesOf (newGraph steps)).map (·.name)

theorem mem_nodeNames {steps : List PipelineStep} {step : PipelineStep} (h : step ∈ steps) :
    step.name ∈ nodeNames steps := by
  rw [nodeNames, nodesOf_names]
  exact AList.mem_keys.mp (key_mem_insertAll h)

/-- A skipped step is excused by a step it reaches along its dependencies: one that `SkipStep` marked, or one that is
failed here and not among `running`. -/
def Excused (steps : List PipelineStep) (l : Ledger) (statuses : List StepStatus) (running : List String)
    (name : String) : Prop :=
  ∃ t, Relation.ReflTransGen (DependsOn steps) name t ∧ (t ∈ l.skipped ∨ (⟨t, .failed⟩ ∈ statuses ∧ t ∉ running))

/-- The entries are those of distinct nodes, and the ledger backs them. -/
structure Sound (steps : List PipelineStep) (l : Ledger) (statuses : List StepStatus) : Prop where
  nodup : (statuses.map (·.name)).Nodup
  known : ∀ x ∈ statuses, x.name ∈ nodeNames steps
  succeeded : ∀ n, ⟨n, .succeeded⟩ ∈ statuses → n ∈ l.succeeded
  failed : ∀ n, ⟨n, .failed⟩ ∈ statuses → n ∈ l.failed ∨ n ∈ l.cutOff
  cancelled : ∀ n, ⟨n, .cancelled⟩ ∉ statuses
  kept : ∀ n ∈ l.kept, ⟨n, .succeeded⟩ ∈ statuses

/-- The ledger `l'` has what `l` has, and keeps the same steps. -/
structure Ledger.Grows (l l' : Ledger) : Prop where
  succeeded : l.succeeded ⊆ l'.succeeded
  failed : l.failed ⊆ l'.failed
  cutOff : l.cutOff ⊆ l'.cutOff
  skipped : l.skipped ⊆ l'.skipped
  kept : l'.kept ⊆ l.kept

theorem Ledger.Grows.refl (l : Ledger) : l.Grows l :=
  ⟨List.Subset.refl _, List.Subset.refl _, List.Subset.refl _, List.Subset.refl _, List.Subset.refl _⟩

theorem Ledger.grows_observe (l : Ledger) (name : String) (result : JobResult) : l.Grows (l.observe name result) := by
  cases result with
  | complete => exact { Ledger.Grows.refl l with succeeded := subset_cons_self _ _ }
  | failed => exact { Ledger.Grows.refl l with failed := subset_cons_self _ _ }
  | cutOff => exact { Ledger.Grows.refl l with cutOff := subset_cons_self _ _ }

section
variable {steps : List PipelineStep} {l l' : Ledger} {statuses : List StepStatus} {running running' : List String}
  {name m : String} {phase : StepPhase}

theorem Sound.grow (h : Sound steps l statuses) (hl : l.Grows l') : Sound steps l' statuses where
  nodup := h.nodup
  known := h.known
  succeeded := fun n hn => hl.succeeded (h.succeeded n hn)
  failed := fun n hn => (h.failed n hn).imp (fun hf => hl.failed hf) (fun hc => hl.cutOff hc)
  cancelled := h.cancelled
  kept := fun n hn => h.kept n (hl.kept hn)

theorem Sound.update (h : Sound steps l statuses) (hname : name ∈ nodeNames steps)
    (hsucc : phase = .succeeded → name ∈ l.succeeded)
    (hfailed : phase = .failed → name ∈ l.failed ∨ name ∈ l.cutOff) (hcancel : phase ≠ .cancelled)
    (hkept : name ∈ l.kept → phase = .succeeded) : Sound steps l (updateStepStatus statuses ⟨name, phase⟩) where
  nodup := updateStepStatus_nodup h.nodup
  known := by
    intro x hx
    rcases (mem_updateStepStatus h.nodup).mp hx with rfl | ⟨hx, _⟩
    · exact hname
    · exact h.known x hx
  succeeded := by
    intro n hn
    rcases (mem_updateStepStatus h.nodup).mp hn with heq | ⟨hn, _⟩
    · cases heq
      exact hsucc rfl
    · exact h.succeeded n hn
  failed := by
    intro n hn
    rcases (mem_updateStepStatus h.nodup).mp hn with heq | ⟨hn, _⟩
    · cases heq
      exact hfailed rfl
    · exact h.failed n hn
  cancelled := by
    intro n hn
    rcases (mem_updateStepStatus h.nodup).mp hn with heq | ⟨hn, _⟩
    · cases heq
      exact hcancel rfl
    · exact h.cancelled n hn
  kept := by
    intro n hn
    rw [mem_updateStepStatus h.nodup]
    by_cases hnm : n = name
    · subst hnm
      exact .inl (by rw [hkept hn])
    · exact .inr ⟨h.kept n hn, hnm⟩

section
variable (h : Excused steps l statuses running m)
include h

theorem Excused.grow (hl : l.Grows l') : Excused steps l' statuses running m := by
  obtain ⟨t, hreach, ht⟩ := h
  exact ⟨t, hreach, ht.imp_left (fun hskipped => hl.skipped hskipped)⟩

/-- The excuse of a step survives the update of an entry that is running or not failed. -/
theorem Excused.update (hnd : (statuses.map (·.name)).Nodup)
    (hother : ∀ t, ⟨t, .failed⟩ ∈ statuses → t ∉ running → t ≠ name ∧ t ∉ running') :
    Excused steps l (updateStepStatus statuses ⟨name, phase⟩) running' m := by
  obtain ⟨t, hreach, ht⟩ := h
  refine ⟨t, hreach, ?_⟩
  rcases ht with hskipped | ⟨hfailed, hnot⟩
  · exact .inl hskipped
  · obtain ⟨hne, hnot'⟩ := hother t hfailed hnot
    exact .inr ⟨(mem_updateStepStatus hnd).mpr (.inr ⟨hfailed, hne⟩), hnot'⟩

theorem Excused.mono (hsub : running' ⊆ running) : Excused steps l statuses running' m := by
  obtain ⟨t, hreach, ht⟩ := h
  exact ⟨t, hreach, ht.imp_right (fun hf => ⟨hf.1, fun hmem => hf.2 (hsub hmem)⟩)⟩
end

end

/-! ### The layout of an execution -/

/-- Every step of the graph is done, running, pending or to come, in one of these once, and depends on earlier ones. -/
structure Layout (steps : List PipelineStep) (done : List String) (running pending : List PipelineStep)
    (queue : List (List PipelineStep)) (failed : Bool) : Prop where
  nodup : (done ++ (running ++ pending).map (·.name) ++ queue.flatten.map (·.name)).Nodup
  covers : failed = false →
    ∀ n ∈ nodeNames steps, n ∈ done ++ (running ++ pending).map (·.name) ++ queue.flatten.map (·.name)
  known : ∀ step ∈ running ++ pending ++ queue.flatten, step ∈ nodesOf (newGraph steps)
  ready : ∀ step ∈ pending, ∀ dep ∈ step.depends, dep ∈ done
  layered : Layered (done ++ (running ++ pending).map (·.name)) queue

section
variable {steps running running' pending pending' : List PipelineStep} {done done' : List String}
  {queue : List (List PipelineStep)} {failed failed' : Bool} {step : PipelineStep}

section
variable (h : Layout steps done running pending queue failed)
include h

theorem Layout.move
    (hperm : (done' ++ (running' ++ pending').map (·.name)).Perm (done ++ (running ++ pending).map (·.name)))
    (hsub : running' ++ pending' ⊆ running ++ pending) (hpend : pending' ⊆ pending) (hdone : done ⊆ done')
    (hfailed : failed' = false → failed = false) : Layout steps done' running' pending' queue failed' where
  nodup := ((hperm.append_right _).nodup_iff).mpr h.nodup
  covers := fun hf n hn => ((hperm.append_right _).mem_iff).mpr (h.covers (hfailed hf) n hn)
  known := by
    intro step hstep
    apply h.known
    rcases mem_append.mp hstep with hcur | hlater
    · exact mem_append.mpr (.inl (hsub hcur))
    · exact mem_append.mpr (.inr hlater)
  ready := fun step hstep dep hdep => hdone (h.ready step (hpend hstep) dep hdep)
  layered := h.layered.mono (fun x hx => hperm.symm.subset hx)

theorem Layout.done_of_pending (hstep : step ∈ pending) :
    Layout steps (done ++ [step.name]) running (pending.erase step) queue failed := by
  refine h.move ?_ ?_ erase_subset (subset_append_left _ _) (fun hf => hf)
  · have hnames := (perm_cons_erase hstep).map (·.name)
    simp only [perm_iff_count, map_append, map_cons, count_append, count_cons,
      count_nil] at hnames ⊢
    intro n
    have := hnames n
    omega
  · intro other hother
    rcases mem_append.mp hother with hrun | hpend
    · exact mem_append.mpr (.inl hrun)
    · exact mem_append.mpr (.inr (erase_subset hpend))

theorem Layout.running_of_pending (hstep : step ∈ pending) :
    Layout steps done (step :: running) (pending.erase step) queue failed := by
  refine h.move ?_ ?_ erase_subset (List.Subset.refl _) (fun hf => hf)
  · have hnames := (perm_cons_erase hstep).map (·.name)
    simp only [perm_iff_count, map_append, map_cons, count_append, count_cons,
      cons_append] at hnames ⊢
    intro n
    have := hnames n
    omega
  intro other hother
  rcases mem_append.mp hother with hrun | hpend
  · rcases mem_cons.mp hrun with rfl | hrun
    · exact mem_append.mpr (.inr hstep)
    · exact mem_append.mpr (.inl hrun)
  · exact mem_append.mpr (.inr (erase_subset hpend))

theorem Layout.done_of_running (hperm : running.Perm (step :: running')) (hfailed : failed' = false → failed = false) :
    Layout steps (done ++ [step.name]) running' pending queue failed' := by
  refine h.move ?_ ?_ (List.Subset.refl _) (subset_append_left _ _) hfailed
  · have hnames := hperm.map (·.name)
    simp only [perm_iff_count, map_append, map_cons, count_append, count_cons,
      count_nil] at hnames ⊢
    intro n
    have := hnames n
    omega
  · intro other hother
    rcases mem_append.mp hother with hrun | hpend
    · exact mem_append.mpr (.inl (hperm.symm.subset (mem_cons_of_mem step hrun)))
    · exact mem_append.mpr (.inr hpend)
end

theorem Layout.advance {part : List PipelineStep} {rest : List (List PipelineStep)}
    (h : Layout steps done [] [] (part :: rest) failed) : Layout steps done [] part rest failed := by
  have hlayered : (∀ step ∈ part, ∀ dep ∈ step.depends, dep ∈ done) ∧ Layered (done ++ part.map (·.name)) rest := by
    have := h.layered
    simp only [map_nil, append_nil] at this
    exact this
  refine ⟨?_, ?_, ?_, hlayered.1, ?_⟩
  · have := h.nodup
    simpa only [nil_append, map_nil, append_nil, flatten_cons, map_append,
      append_assoc] using this
  · intro hf n hn
    have := h.covers hf n hn
    simpa only [nil_append, map_nil, append_nil, flatten_cons, map_append,
      append_assoc] using this
  · intro step hstep
    apply h.known
    simpa only [nil_append, flatten_cons] using hstep
  · simpa only [nil_append] using hlayered.2

theorem Layout.disjoint (h : Layout steps done running pending queue failed) :
    (∀ n ∈ done, ∀ step ∈ running ++ pending ++ queue.flatten, step.name ≠ n) ∧
    (∀ step ∈ running, ∀ other ∈ pending ++ queue.flatten, other.name ≠ step.name) := by
  have hnd := h.nodup
  rw [append_assoc, ← map_append] at hnd
  obtain ⟨_, hlater, hdone⟩ := nodup_append.mp hnd
  refine ⟨?_, ?_⟩
  · intro n hn step hstep heq
    exact hdone n hn step.name (mem_map_of_mem hstep) heq.symm
  · intro step hstep other hother
    rw [append_assoc, map_append] at hlater
    exact fun heq => (nodup_append.mp hlater).2.2 step.name (mem_map_of_mem hstep) other.name
      (mem_map_of_mem hother) heq.symm
end

end Paprika.Pipelines
