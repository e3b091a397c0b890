import Mathlib.Data.Fintype.Order
import Mathlib.Data.List.GetD
import Mathlib.Order.Bounds.Basic
import Paprika.Pipelines.Graph

/-!
# The batches of a pipeline

`ResolveDAG` splits the steps into batches.  A later step of the same name replaces an earlier one without a word, and
then the batches are those of the steps that are left (`nodesOf`).

**`dag_batches`** — there is an error exactly if a dependency is unknown or some step depends on itself, and otherwise
the steps are spread over the batches, each in that of its longest chain of dependencies.
-/

namespace Paprika.Pipelines

open Lib.KeyedMap List Relation

variable {steps nodes : List PipelineStep} {name : String} {n : Nat}

/-- There is a chain of dependencies of this length. -/
def Chain (nodes : List PipelineStep) : Nat → String → Prop
  | 0, name => name ∈ nodes.map (·.name)
  | n + 1, name => ∃ dep, DependsOn nodes name dep ∧ Chain nodes n dep

/-! ### The steps that are left -/

theorem lookup_newGraph (steps : List PipelineStep) (name : String) :
    (newGraph steps).lookup name = steps.reverse.find? (·.name = name) := by
  induction steps using reverseRecOn with
  | nil => rfl
  | append_singleton steps step ih =>
    have hinsert : newGraph (steps ++ [step]) = (newGraph steps).insert step.name step :=
      insertAll_append PipelineStep.name ∅ steps [step]
    rw [hinsert, reverse_append, reverse_singleton, singleton_append, find?_cons]
    by_cases hname : step.name = name
    · subst hname
      simp [AList.lookup_insert]
    · simp [hname, AList.lookup_insert_ne (Ne.symm hname), ih]

theorem mem_nodesOf_iff {step : PipelineStep} :
    step ∈ nodesOf (newGraph steps) ↔ steps.reverse.find? (·.name = step.name) = some step := by
  rw [← lookup_newGraph, nodesOf, mem_map]
  constructor
  · rintro ⟨e, he, rfl⟩
    have hlook := AList.mem_lookup_iff.mpr he
    rwa [keyed_ofValues PipelineStep.name steps e.1 e.2 hlook]
  · exact fun h => ⟨⟨step.name, step⟩, AList.mem_lookup_iff.mp h, rfl⟩

theorem nodesOf_perm (h : (steps.map (·.name)).Nodup) : nodesOf (newGraph steps) ~ steps := by
  refine (perm_ext_iff_of_nodup (nodesOf_nodup steps).of_map h.of_map).mpr fun step => ?_
  have hinj := inj_on_of_nodup_map h
  rw [mem_nodesOf_iff, ← lookup_newGraph, newGraph, lookup_ofValues_eq_some fun x hx y hy => hinj hx hy]
  exact and_iff_left rfl

/-! ### Cycles -/

theorem exists_of_foldlM_error {α β ε : Type} {f : β → α → Except ε β} {e : ε} {xs : List α} : ∀ {b : β},
    xs.foldlM f b = .error e → ∃ x ∈ xs, ∃ b, f b x = .error e := by
  induction xs with
  | nil => exact nofun
  | cons x xs ih =>
    intro b h
    rw [foldlM_cons] at h
    cases hx : f b x with
    | error e' =>
      rw [hx] at h
      exact ⟨x, mem_cons_self, b, hx.trans h⟩
    | ok b' =>
      rw [hx] at h
      obtain ⟨y, hy, b'', h⟩ := ih h
      exact ⟨y, mem_cons_of_mem x hy, b'', h⟩

/-- **A search that fails has found a cycle.**  The steps of its path are distinct, so that it cannot run too deep. -/
theorem cycle_of_detectCycle {g : Map String PipelineStep} {e : GraphError}
    (hknown : ∀ step ∈ nodesOf g, ∀ dep ∈ step.depends, dep ∈ g.keys)
    (hkeyed : ∀ k step, g.lookup k = some step → step.name = k) :
    ∀ {fuel : Nat} {name : String} {path visited : List String}, detectCycle g fuel name path visited = .error e →
      path.length + fuel = g.keys.length + 1 → path.Nodup → path ⊆ g.keys → name ∈ g.keys →
      (∀ p ∈ path, TransGen (DependsOn (nodesOf g)) p name) → ∃ name, TransGen (DependsOn (nodesOf g)) name name := by
  intro fuel
  induction fuel with
  | zero =>
    intro name path visited _ hlen hnd hsub
    have := (hnd.subperm hsub).length_le
    omega
  | succ fuel ih =>
    intro name path visited h hlen hnd hsub hname hreach
    rw [detectCycle] at h
    split at h
    · next hin => exact ⟨name, hreach name (by simpa using hin)⟩
    · next hout =>
      split at h
      · cases h
      obtain ⟨dep, hdep, visited', h⟩ := exists_of_foldlM_error h
      obtain ⟨step, hstep⟩ := Option.isSome_iff_exists.mp (AList.lookup_isSome.mpr (AList.mem_keys.mp hname))
      rw [hstep] at hdep
      have hnode : step ∈ nodesOf g := mem_map.mpr ⟨_, AList.mem_lookup_iff.mp hstep, rfl⟩
      have hedge : DependsOn (nodesOf g) name dep := ⟨step, hnode, hkeyed name step hstep, hdep⟩
      refine ih h (by rw [length_cons]; omega) (nodup_cons.mpr ⟨by simpa using hout, hnd⟩)
        (cons_subset.mpr ⟨hname, hsub⟩) (hknown step hnode dep hdep) ?_
      exact forall_mem_cons.mpr ⟨.single hedge, fun p hp => (hreach p hp).tail hedge⟩

/-- **Where nothing depends on itself, some step is ready.** -/
theorem exists_ready (hacyclic : ∀ name, ¬TransGen (DependsOn nodes) name name) (hne : nodes ≠ []) :
    readySteps nodes ≠ [] := by
  obtain ⟨first, hfirst⟩ := exists_mem_of_ne_nil nodes hne
  let below (a b : {name // name ∈ nodes.map (·.name)}) : Prop := TransGen (DependsOn nodes) b a
  have : Std.Irrefl below := ⟨fun a => hacyclic a⟩
  have : IsTrans _ below := ⟨fun a b c hab hbc => hbc.trans hab⟩
  obtain ⟨⟨name, hname⟩, -, hmin⟩ :=
    (Finite.wellFounded_of_trans_of_irrefl below).has_min Set.univ ⟨⟨first.name, mem_map_of_mem hfirst⟩, trivial⟩
  obtain ⟨step, hstep, rfl⟩ := mem_map.mp hname
  refine ne_nil_of_mem (mem_filter.mpr ⟨hstep, all_eq_true.mpr fun dep hdep => ?_⟩)
  by_contra hin
  exact hmin ⟨dep, by simpa using hin⟩ trivial (.single ⟨step, hstep, rfl, hdep⟩)

/-! ### Chains -/

def waiting (nodes : List PipelineStep) : List PipelineStep :=
  nodes.filter fun n => !((readySteps nodes).map (·.name)).contains n.name

theorem mem_waiting (hnd : (nodes.map (·.name)).Nodup) {step : PipelineStep} :
    step ∈ waiting nodes ↔ step ∈ nodes ∧ ∃ dep ∈ step.depends, dep ∈ nodes.map (·.name) := by
  rw [waiting, remaining_without_ready hnd]
  simp

theorem Chain.mem (h : Chain nodes n name) : name ∈ nodes.map (·.name) := by
  cases n with
  | zero => exact h
  | succ n =>
    obtain ⟨_, ⟨step, hstep, rfl, -⟩, -⟩ := h
    exact mem_map_of_mem hstep

theorem Chain.succ {dep : String} (h : Chain nodes n dep) (hedge : DependsOn nodes name dep) :
    Chain nodes (n + 1) name :=
  ⟨dep, hedge, h⟩

/-- **A chain is one shorter** when the ready steps are done. -/
theorem chain_succ_iff (hnd : (nodes.map (·.name)).Nodup) : ∀ {n : Nat} {name : String},
    Chain nodes (n + 1) name ↔ Chain (waiting nodes) n name := by
  intro n
  induction n with
  | zero =>
    intro name
    constructor
    · rintro ⟨dep, ⟨step, hstep, rfl, hin⟩, hdep⟩
      exact mem_map_of_mem ((mem_waiting hnd).mpr ⟨hstep, dep, hin, hdep⟩)
    · intro h
      obtain ⟨step, hstep, rfl⟩ := mem_map.mp h
      obtain ⟨hstep, dep, hin, hdep⟩ := (mem_waiting hnd).mp hstep
      exact ⟨dep, ⟨step, hstep, rfl, hin⟩, hdep⟩
  | succ n ih =>
    intro name
    refine exists_congr fun dep => ?_
    rw [ih]
    refine and_congr_left fun hchain => exists_congr fun step => and_congr_left fun ⟨_, hin⟩ => ?_
    rw [mem_waiting hnd]
    exact (and_iff_left ⟨dep, hin, map_subset _ (filter_subset_self _) hchain.mem⟩).symm

/-- **The batch of a step is the length of its longest chain.** -/
theorem batch_isGreatest {fuel : Nat} : ∀ {nodes : List PipelineStep} {batches : List (List PipelineStep)},
    (nodes.map (·.name)).Nodup → buildBatches fuel nodes = .ok batches →
    ∀ i, ∀ step ∈ batches.getD i [], IsGreatest {n | Chain nodes n step.name} i := by
  induction fuel with
  | zero =>
    intro nodes batches _ h i step hstep
    obtain ⟨-, rfl⟩ := buildBatches_zero_ok h
    cases hstep
  | succ fuel ih =>
    intro nodes batches hnd h i step hstep
    obtain ⟨-, rfl⟩ | ⟨rest, hrest, rfl⟩ := buildBatches_succ_ok h
    · cases hstep
    cases i with
    | zero =>
      refine ⟨mem_map_of_mem (mem_of_mem_filter hstep), ?_⟩
      rintro (_ | n) hn
      · exact Nat.le_refl 0
      · obtain ⟨other, hother, hname⟩ := mem_map.mp ((chain_succ_iff hnd).mp hn).mem
        have hready : step ∈ readySteps nodes := hstep
        have hout := of_mem_filter hother
        rw [hname, contains_iff_mem.mpr (mem_map_of_mem hready)] at hout
        cases hout
    | succ i =>
    obtain ⟨hchain, hlongest⟩ := ih (nodup_filter_names hnd _) hrest i step hstep
    refine ⟨(chain_succ_iff hnd).mpr hchain, ?_⟩
    rintro (_ | n) hn
    · exact Nat.zero_le _
    · exact Nat.succ_le_succ (hlongest ((chain_succ_iff hnd).mp hn))

theorem Chain.of_transGen {a b : String} (hpath : TransGen (DependsOn nodes) a b) :
    ∀ {n : Nat}, Chain nodes n b → ∃ m > n, Chain nodes m a := by
  induction hpath with
  | single hedge => exact fun h => ⟨_, Nat.lt_succ_self _, h.succ hedge⟩
  | tail _ hedge ih =>
    intro n h
    obtain ⟨m, hm, hchain⟩ := ih (h.succ hedge)
    exact ⟨m, by omega, hchain⟩

/-! ### The result -/

theorem buildBatches_of_acyclic (fuel : Nat) : ∀ {nodes : List PipelineStep},
    (∀ name, ¬TransGen (DependsOn nodes) name name) → nodes.length ≤ fuel →
    ∃ batches, buildBatches fuel nodes = .ok batches := by
  induction fuel with
  | zero =>
    intro nodes _ hlen
    obtain rfl := length_eq_zero_iff.mp (Nat.le_zero.mp hlen)
    exact ⟨[], rfl⟩
  | succ fuel ih =>
    intro nodes hacyclic hlen
    by_cases hnil : nodes = []
    · subst hnil
      exact ⟨[], rfl⟩
    obtain ⟨first, hfirst⟩ := exists_mem_of_ne_nil _ (exists_ready hacyclic hnil)
    have hfewer : (waiting nodes).length < nodes.length := by
      refine length_filter_lt_length_iff_exists.mpr ⟨first, mem_of_mem_filter hfirst, ?_⟩
      rw [contains_iff_mem.mpr (mem_map_of_mem hfirst)]
      exact Bool.false_ne_true
    have hrest : ∀ name, ¬TransGen (DependsOn (waiting nodes)) name name := fun name h =>
      hacyclic name (TransGen.mono (fun _ _ ⟨step, hstep, hedge⟩ => ⟨step, mem_of_mem_filter hstep, hedge⟩) _ _ h)
    obtain ⟨batches, hbatches⟩ := ih hrest (by omega)
    refine ⟨readySteps nodes :: batches, ?_⟩
    rw [buildBatches, if_neg (by simpa using hnil)]
    dsimp only
    rw [if_neg (by simpa using ne_nil_of_mem hfirst), ← waiting, hbatches]

end Paprika.Pipelines
