import Mathlib.Data.List.Perm.Subperm
import Paprika.Pipelines.Operations

/-!
# The dependency graph, in order and in reverse

What the workflow engine relies on: `ResolveDAG` splits the steps into batches, each of which depends on earlier
batches only (`resolveDAG_layered`), and so do the sub-batches of at most `MaxParallel` steps.  And what a retry relies
on: `pipelineRetryAffectedSteps` is closed under dependents (`affected_closed`), also along a path (`affected_reaches`).
-/

namespace Paprika.Pipelines

open Lib.KeyedMap List

/-! ### Dependents -/

def DependsOn (steps : List PipelineStep) (s d : String) : Prop := ∃ step ∈ steps, step.name = s ∧ d ∈ step.depends

section
variable {steps : List PipelineStep} {affected : List String} {name s d : String}

theorem affectedPass_cons (step : PipelineStep) (steps : List PipelineStep) (affected : List String) :
    affectedPass (step :: steps) affected =
      affectedPass steps (if step.depends.any (fun dep => affected.contains dep) && !affected.contains step.name then
        step.name :: affected else affected) := rfl

theorem affectedPass_nodup (h : affected.Nodup) : (affectedPass steps affected).Nodup := by
  induction steps generalizing affected with
  | nil => exact h
  | cons step steps ih =>
    rw [affectedPass_cons]
    apply ih
    split
    · next hnew =>
      simp only [Bool.and_eq_true, Bool.not_eq_true', contains_eq_mem, decide_eq_false_iff_not] at hnew
      exact nodup_cons.mpr ⟨hnew.2, h⟩
    · exact h

theorem affectedPass_subset {names : List String} (hsteps : ∀ step ∈ steps, step.name ∈ names)
    (h : affected ⊆ names) : affectedPass steps affected ⊆ names := by
  induction steps generalizing affected with
  | nil => exact h
  | cons step steps ih =>
    rw [affectedPass_cons]
    apply ih (fun other hother => hsteps other (mem_cons_of_mem step hother))
    split
    · exact cons_subset.mpr ⟨hsteps step mem_cons_self, h⟩
    · exact h

theorem length_le_affectedPass : affected.length ≤ (affectedPass steps affected).length := by
  induction steps generalizing affected with
  | nil => exact le_refl _
  | cons step steps ih =>
    rw [affectedPass_cons]
    split
    · have := @ih (step.name :: affected)
      simp only [length_cons] at this
      omega
    · exact ih

theorem affectedPass_fixed (h : (affectedPass steps affected).length = affected.length) :
    ∀ step ∈ steps, ∀ dep ∈ step.depends, dep ∈ affected → step.name ∈ affected := by
  induction steps with
  | nil => simp
  | cons step steps ih =>
    rw [affectedPass_cons] at h
    split at h
    · have := @length_le_affectedPass steps (step.name :: affected)
      simp only [length_cons] at this
      omega
    · next hnot =>
      intro other hother dep hdep hmem
      rcases mem_cons.mp hother with rfl | hlater
      · by_contra hname
        apply hnot
        simp only [Bool.and_eq_true, any_eq_true, Bool.not_eq_true', contains_eq_mem,
          decide_eq_true_eq, decide_eq_false_iff_not]
        exact ⟨⟨dep, hdep, hmem⟩, hname⟩
      · exact ih h other hlater dep hdep hmem

/-- The loop ends in a pass that adds nothing: each earlier pass adds the name of a step. -/
theorem affectedLoop_closed {names : List String} (hsteps : ∀ step ∈ steps, step.name ∈ names) {fuel : Nat}
    (hnd : affected.Nodup) (hsub : affected ⊆ names) (hfuel : names.length < affected.length + fuel) :
    ∀ step ∈ steps, ∀ dep ∈ step.depends, dep ∈ affectedLoop steps fuel affected →
      step.name ∈ affectedLoop steps fuel affected := by
  induction fuel generalizing affected with
  | zero =>
    have := (subperm_of_subset hnd hsub).length_le
    omega
  | succ fuel ih =>
    rw [affectedLoop]
    split
    · next hfixed => exact affectedPass_fixed hfixed
    · next hgrown =>
      have hlen := @length_le_affectedPass steps affected
      exact ih (affectedPass_nodup hnd) (affectedPass_subset hsteps hsub) (by omega)

/-- **The affected steps are closed under dependents.** -/
theorem affected_closed (h : DependsOn steps s d) (hd : d ∈ pipelineRetryAffectedSteps steps name) :
    s ∈ pipelineRetryAffectedSteps steps name := by
  obtain ⟨step, hstep, rfl, hdep⟩ := h
  have hnames : ∀ step ∈ steps, step.name ∈ name :: steps.map (·.name) :=
    fun step hstep => mem_cons_of_mem _ (mem_map_of_mem hstep)
  refine affectedLoop_closed hnames (nodup_singleton name) ?_ ?_ step hstep d hdep hd
  · exact cons_subset.mpr ⟨mem_cons_self, nil_subset _⟩
  · simp only [length_cons, length_map, length_nil]
    omega

theorem affected_reaches (h : Relation.ReflTransGen (DependsOn steps) s d)
    (hd : d ∈ pipelineRetryAffectedSteps steps name) : s ∈ pipelineRetryAffectedSteps steps name := by
  induction h using Relation.ReflTransGen.head_induction_on with
  | refl => exact hd
  | head hfirst _ ih => exact affected_closed hfirst ih

theorem affectedPass_reaches {rest : List PipelineStep} (hrest : rest ⊆ steps)
    (h : ∀ x ∈ affected, Relation.ReflTransGen (DependsOn steps) x name) :
    affected ⊆ affectedPass rest affected ∧
      ∀ x ∈ affectedPass rest affected, Relation.ReflTransGen (DependsOn steps) x name := by
  induction rest generalizing affected with
  | nil => exact ⟨Subset.refl _, h⟩
  | cons step rest ih =>
    obtain ⟨hstep, hrest⟩ := cons_subset.mp hrest
    rw [affectedPass_cons]
    split
    · next hnew =>
      rw [Bool.and_eq_true, any_eq_true] at hnew
      obtain ⟨⟨dep, hdep, hmem⟩, -⟩ := hnew
      obtain ⟨hsub, hall⟩ := ih hrest (forall_mem_cons.mpr
        ⟨.head ⟨step, hstep, rfl, hdep⟩ (h dep (contains_iff_mem.mp hmem)), h⟩)
      exact ⟨(cons_subset.mp hsub).2, hall⟩
    · exact ih hrest h

theorem affectedLoop_reaches {fuel : Nat} (h : ∀ x ∈ affected, Relation.ReflTransGen (DependsOn steps) x name) :
    affected ⊆ affectedLoop steps fuel affected ∧
      ∀ x ∈ affectedLoop steps fuel affected, Relation.ReflTransGen (DependsOn steps) x name := by
  induction fuel generalizing affected with
  | zero => exact ⟨Subset.refl _, h⟩
  | succ fuel ih =>
    rw [affectedLoop]
    split
    · exact ⟨Subset.refl _, h⟩
    · obtain ⟨hsub, hall⟩ := affectedPass_reaches (Subset.refl steps) h
      exact ⟨fun x hx => (ih hall).1 (hsub hx), (ih hall).2⟩

/-- **A retry affects the step and what depends on it, through any number of steps, and nothing else.** -/
theorem retry_affects_dependents (steps : List PipelineStep) (name s : String) :
    s ∈ pipelineRetryAffectedSteps steps name ↔ Relation.ReflTransGen (DependsOn steps) s name := by
  obtain ⟨hsub, hall⟩ : [name] ⊆ pipelineRetryAffectedSteps steps name ∧
      ∀ x ∈ pipelineRetryAffectedSteps steps name, Relation.ReflTransGen (DependsOn steps) x name :=
    affectedLoop_reaches (forall_mem_singleton.mpr .refl)
  exact ⟨hall s, fun h => affected_reaches h (hsub mem_cons_self)⟩
end

/-! ### Batches -/

/-- Each part depends on the steps already done and on earlier parts only. -/
def Layered (done : List String) : List (List PipelineStep) → Prop
  | [] => True
  | part :: rest => (∀ step ∈ part, ∀ dep ∈ step.depends, dep ∈ done) ∧ Layered (done ++ part.map (·.name)) rest

theorem Layered.mono {done done' : List String} {parts : List (List PipelineStep)} (h : Layered done parts)
    (hsub : done ⊆ done') : Layered done' parts := by
  induction parts generalizing done done' with
  | nil => trivial
  | cons part rest ih =>
    refine ⟨fun step hstep dep hdep => hsub (h.1 step hstep dep hdep), ih h.2 ?_⟩
    intro x hx
    rcases mem_append.mp hx with hx | hx
    · exact mem_append.mpr (.inl (hsub hx))
    · exact mem_append.mpr (.inr hx)

section
variable {steps remaining : List PipelineStep} {batches : List (List PipelineStep)}

theorem nodup_filter_names (hnd : (remaining.map (·.name)).Nodup) (keep : PipelineStep → Bool) :
    ((remaining.filter keep).map (·.name)).Nodup :=
  hnd.sublist (List.Sublist.map _ filter_sublist)

theorem remaining_without_ready (hnd : (remaining.map (·.name)).Nodup) :
    remaining.filter (fun n => !((readySteps remaining).map (·.name)).contains n.name) =
      remaining.filter (fun n => !(n.depends.all (fun dep => !(remaining.map (·.name)).contains dep))) := by
  refine filter_congr ?_
  intro n hn
  have hmem : n.name ∈ (readySteps remaining).map (·.name) ↔ n ∈ readySteps remaining := by
    constructor
    · intro h
      obtain ⟨m, hm, hname⟩ := mem_map.mp h
      have hmr : m ∈ remaining := (mem_filter.mp hm).1
      rwa [← inj_on_of_nodup_map hnd hmr hn hname]
    · exact fun h => mem_map_of_mem h
  have hready : n ∈ readySteps remaining ↔
      n.depends.all (fun dep => !(remaining.map (·.name)).contains dep) = true := by
    simp only [readySteps, mem_filter, hn, true_and]
  have hiff := hmem.trans hready
  rw [Bool.eq_iff_iff, Bool.not_eq_true', Bool.not_eq_true', contains_eq_mem, decide_eq_false_iff_not, hiff,
    Bool.not_eq_true]

theorem readySteps_append_perm (remaining : List PipelineStep) : (readySteps remaining ++
      remaining.filter (fun n => !(n.depends.all (fun dep => !(remaining.map (·.name)).contains dep)))).Perm
        remaining :=
  filter_append_perm _ _

theorem buildBatches_succ_ok {fuel : Nat} (h : buildBatches (fuel + 1) remaining = .ok batches) :
    (remaining = [] ∧ batches = []) ∨
    ∃ rest, buildBatches fuel (remaining.filter
        (fun n => !((readySteps remaining).map (·.name)).contains n.name)) = .ok rest ∧
      batches = readySteps remaining :: rest := by
  simp only [buildBatches] at h
  split at h
  · next hempty => exact .inl ⟨isEmpty_iff.mp hempty, (Except.ok.inj h).symm⟩
  split at h
  · simp at h
  · split at h
    · simp at h
    · next rest hrest => exact .inr ⟨rest, hrest, (Except.ok.inj h).symm⟩

theorem buildBatches_zero_ok (h : buildBatches 0 remaining = .ok batches) : remaining = [] ∧ batches = [] := by
  rw [buildBatches] at h
  split at h
  · next hempty => exact ⟨isEmpty_iff.mp hempty, (Except.ok.inj h).symm⟩
  · simp at h

theorem buildBatches_perm {fuel : Nat} (hnd : (remaining.map (·.name)).Nodup)
    (h : buildBatches fuel remaining = .ok batches) : batches.flatten.Perm remaining := by
  induction fuel generalizing remaining batches with
  | zero =>
    obtain ⟨rfl, rfl⟩ := buildBatches_zero_ok h
    exact List.Perm.refl _
  | succ fuel ih =>
    rcases buildBatches_succ_ok h with ⟨rfl, rfl⟩ | ⟨rest, hrest, rfl⟩
    · exact List.Perm.refl _
    · have hperm := ih (nodup_filter_names hnd _) hrest
      rw [remaining_without_ready hnd] at hperm
      rw [flatten_cons]
      exact (hperm.append_left _).trans (readySteps_append_perm remaining)

theorem buildBatches_layered {fuel : Nat} {done : List String} (hnd : (remaining.map (·.name)).Nodup)
    (hdeps : ∀ step ∈ remaining, ∀ dep ∈ step.depends, dep ∈ done ∨ dep ∈ remaining.map (·.name))
    (h : buildBatches fuel remaining = .ok batches) : Layered done batches := by
  induction fuel generalizing remaining batches done with
  | zero =>
    obtain ⟨rfl, rfl⟩ := buildBatches_zero_ok h
    trivial
  | succ fuel ih =>
    rcases buildBatches_succ_ok h with ⟨rfl, rfl⟩ | ⟨rest, hrest, rfl⟩
    · trivial
    refine ⟨?_, ?_⟩
    · intro step hstep dep hdep
      obtain ⟨hmem, hall⟩ := mem_filter.mp hstep
      have hgone := all_eq_true.mp hall dep hdep
      rcases hdeps step hmem dep hdep with hdone | hremains
      · exact hdone
      · simp [hremains] at hgone
    refine ih (nodup_filter_names hnd _) ?_ hrest
    intro step hstep dep hdep
    -- a dependency that remains is in this batch or stays for a later one
    rcases hdeps step (mem_filter.mp hstep).1 dep hdep with hdone | hremains
    · exact .inl (mem_append.mpr (.inl hdone))
    · by_cases hbatch : dep ∈ (readySteps remaining).map (·.name)
      · exact .inl (mem_append.mpr (.inr hbatch))
      · obtain ⟨n, hn, rfl⟩ := mem_map.mp hremains
        exact .inr (mem_map_of_mem (mem_filter.mpr ⟨hn, by simpa using hbatch⟩))
end

/-! ### The nodes of the graph -/

section
variable {steps : List PipelineStep} {batches : List (List PipelineStep)}

theorem nodesOf_names (steps : List PipelineStep) :
    (nodesOf (newGraph steps)).map (·.name) = (newGraph steps).keys := by
  have hkeyed := keyed_ofValues PipelineStep.name steps
  rw [nodesOf, map_map, AList.keys, List.keys]
  refine map_congr_left ?_
  intro e he
  exact hkeyed e.1 e.2 (AList.mem_lookup_iff.mpr he)

theorem nodesOf_nodup (steps : List PipelineStep) : ((nodesOf (newGraph steps)).map (·.name)).Nodup := by
  rw [nodesOf_names]
  exact (newGraph steps).keys_nodup

theorem mem_nodesOf {n : PipelineStep} (h : n ∈ nodesOf (newGraph steps)) : n ∈ steps := by
  obtain ⟨e, he, rfl⟩ := mem_map.mp h
  have hlook : (newGraph steps).lookup e.1 = some e.2 := AList.mem_lookup_iff.mpr he
  exact (mem_of_lookup_insertAll hlook).resolve_left (by simp)

theorem validateNoUnknownDeps_spec {g : Map String PipelineStep} (h : validateNoUnknownDeps g = none) :
    ∀ step ∈ nodesOf g, ∀ dep ∈ step.depends, dep ∈ g.keys := by
  intro step hstep dep hdep
  have hnone := List.findSome?_eq_none_iff.mp h step hstep
  rw [Option.map_eq_none_iff, List.find?_eq_none] at hnone
  have hfound := hnone dep hdep
  rw [Bool.not_eq_true, Option.isNone_eq_false_iff, AList.lookup_isSome] at hfound
  exact AList.mem_keys.mpr hfound

section
variable (h : resolveDAG steps = .ok batches)
include h

theorem resolveDAG_ok : validateNoUnknownDeps (newGraph steps) = none ∧
      buildBatches (nodesOf (newGraph steps)).length (nodesOf (newGraph steps)) = .ok batches := by
  simp only [resolveDAG] at h
  split at h
  · simp at h
  · next hdeps =>
    split at h
    · simp at h
    · exact ⟨hdeps, h⟩

theorem resolveDAG_perm : batches.flatten.Perm (nodesOf (newGraph steps)) :=
  buildBatches_perm (nodesOf_nodup steps) (resolveDAG_ok h).2

/-- **Every batch depends on earlier batches only.** -/
theorem resolveDAG_layered : Layered [] batches := by
  obtain ⟨hdeps, hbatches⟩ := resolveDAG_ok h
  refine buildBatches_layered (nodesOf_nodup steps) ?_ hbatches
  intro step hstep dep hdep
  rw [nodesOf_names]
  exact .inr (validateNoUnknownDeps_spec hdeps step hstep dep hdep)
end

end

end Paprika.Pipelines
