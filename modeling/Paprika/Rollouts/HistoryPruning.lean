import Paprika.Rollouts.Effects

/-!
# The pruning of the revision history

`pruneReplicaSets` runs between the actions of a reconcile and the status update, and protects what the status named before
the update.  A ReplicaSet that an action has just made, at zero replicas, is a candidate.

* **`prunes_safely_iff`** — when nothing is deleted that the actions or the stored status name, and the newest are kept;
* **`new_revision_is_pruned`** — with a limit of zero, the first ReplicaSet of a rollout of zero replicas.
-/

namespace Paprika.Rollouts

open List

variable {P : Type} (X : Externals P) (ro : Rollout P) (status : RolloutStatus) (result : SyncResult P)
  (labels : Option Labels) (c : Cluster P)

def namedAfter (name : String) : Bool :=
  isProtected (updateStatusFromResult X ro labels result status) name || result.replicaSets.any fun a => a.name == name

/-- What was not deleted by the pruning. -/
def survives (name : String) : Bool := ((pruneReplicaSets ro status c).lookup name).isSome

/-- The ReplicaSets at zero that neither the actions nor the status name. -/
def remaining : List (Sigma fun _ : String => ReplicaSet P) :=
  (pruneCandidates ro status c).filter fun e => !namedAfter X ro status result labels e.1

/-- Only unnamed ReplicaSets at zero are deleted, and of these only such that as many as the limit are as new and stay. -/
structure PrunesSafely : Prop where
  deletes : ∀ name rs, c.lookup name = some rs → survives ro status c name = false →
    rs.replicas = 0 ∧ namedAfter X ro status result labels name = false
  keeps : ∀ limit, ro.spec.revisionHistoryLimit = some limit → ∀ e ∈ remaining X ro status result labels c,
    survives ro status c e.1 = false → limit ≤ ((remaining X ro status result labels c).countP fun e' =>
      survives ro status c e'.1 && decide (e.2.createdAt ≤ e'.2.createdAt) : Nat)

variable {X ro status result labels c}

theorem lookup_foldl_erase_mem {es : List (Sigma fun _ : String => ReplicaSet P)} {name : String}
    (h : name ∈ es.map (·.1)) : (es.foldl (fun c e => c.erase e.1) c).lookup name = none := by
  induction es generalizing c with
  | nil => exact absurd h not_mem_nil
  | cons e es ih =>
    rcases mem_cons.mp h with rfl | h
    · rcases lookup_foldl_erase es (c.erase e.1) e.1 with h | ⟨h, -⟩
      · rw [foldl_cons, h, AList.lookup_erase]
      · exact h
    · exact ih h

/-- A candidate that the stored status names is named by an action. -/
theorem namedAfter_of_unprotected {name : String} (h : isProtected status name = false) :
    namedAfter X ro status result labels name = true ↔ ∃ a ∈ result.replicaSets, a.name = name := by
  have htrack : ∀ (actions : List (ReplicaSetAction P)) (t : Tracked),
      name = (t.trackAll actions).stable ∨ name = (t.trackAll actions).canary ∨ name = (t.trackAll actions).previous →
        name = t.stable ∨ name = t.canary ∨ name = t.previous ∨ ∃ a ∈ actions, a.name = name := by
    intro actions
    induction actions with
    | nil => exact fun t h => h.imp_right (Or.imp_right .inl)
    | cons a actions ih =>
      intro t h
      rcases ih _ h with h | h | h | ⟨b, hb, hname⟩
      · simp only [Tracked.track] at h
        split_ifs at h <;> simp [h]
      · simp only [Tracked.track] at h
        split_ifs at h <;> simp [h]
      · simp only [Tracked.track] at h
        split_ifs at h <;> simp [h]
      · exact .inr (.inr (.inr ⟨b, mem_cons_of_mem a hb, hname⟩))
  obtain ⟨weight, hstatus⟩ := updateStatusFromResult_frame X ro labels result status
  have hstored : isProtected (updateStatusFromResult X ro labels result status) name = true →
      ∃ a ∈ result.replicaSets, a.name = name := by
    intro hp
    rw [hstatus] at hp
    simp only [isProtected, Bool.or_eq_true, beq_iff_eq, or_assoc] at hp
    simp only [isProtected, Bool.or_eq_false_iff, beq_eq_false_iff_ne] at h
    rcases htrack _ _ hp with h' | h' | h' | h'
    · exact absurd h' h.1.1
    · exact absurd h' h.1.2
    · exact absurd h' h.2
    · exact h'
  rw [namedAfter, Bool.or_eq_true, any_eq_true]
  simp only [beq_iff_eq]
  exact ⟨fun h => h.elim hstored id, .inr⟩

theorem namedAfter_of_candidate {e : Sigma fun _ : String => ReplicaSet P} (he : e ∈ pruneCandidates ro status c) :
    namedAfter X ro status result labels e.1 = true ↔ ∃ a ∈ result.replicaSets, a.name = e.1 := by
  simp only [pruneCandidates, mem_filter, Bool.and_eq_true, Bool.not_eq_true'] at he
  exact namedAfter_of_unprotected he.2.1.2

theorem lookup_of_candidate {e : Sigma fun _ : String => ReplicaSet P} (he : e ∈ pruneCandidates ro status c) :
    c.lookup e.1 = some e.2 := AList.mem_lookup_iff.mpr (List.mem_filter.mp he).1

def newestFirst (ro : Rollout P) (status : RolloutStatus) (c : Cluster P) : List (Sigma fun _ : String => ReplicaSet P) :=
  (pruneCandidates ro status c).mergeSort fun a b => decide (b.2.createdAt ≤ a.2.createdAt)

section

theorem newestFirst_perm (ro : Rollout P) (status : RolloutStatus) (c : Cluster P) : (newestFirst ro status c).Perm
    (pruneCandidates ro status c) := List.mergeSort_perm _ _

theorem newestFirst_sorted (ro : Rollout P) (status : RolloutStatus) (c : Cluster P) :
    (newestFirst ro status c).Pairwise fun a b => b.2.createdAt ≤ a.2.createdAt := by
  have hsort : (newestFirst ro status c).Pairwise fun a b => decide (b.2.createdAt ≤ a.2.createdAt) = true :=
    pairwise_mergeSort (fun a b d hab hbd => by simp only [decide_eq_true_eq] at *; omega)
      (fun a b => by simp only [Bool.or_eq_true, decide_eq_true_eq]; omega) (pruneCandidates ro status c)
  exact hsort.imp fun h => of_decide_eq_true h

theorem newestFirst_nodup (ro : Rollout P) (status : RolloutStatus) (c : Cluster P) :
    ((newestFirst ro status c).map (·.1)).Nodup := by
  have hnd : (c.entries.map (·.1)).Nodup := c.nodupKeys
  exact ((newestFirst_perm ro status c).map _).nodup_iff.mpr (hnd.sublist (filter_sublist.map _))

variable {limit : Int} {e : Sigma fun _ : String => ReplicaSet P}

theorem mem_take_or_drop (he : e ∈ pruneCandidates ro status c) (n : Nat) :
    e ∈ (newestFirst ro status c).take n ∨ e ∈ (newestFirst ro status c).drop n := by
  rw [← mem_append, take_append_drop]
  exact (newestFirst_perm ro status c).mem_iff.mpr he

theorem candidate_of_drop {n : Nat} (h : e ∈ (newestFirst ro status c).drop n) : e ∈ pruneCandidates ro status c :=
  (newestFirst_perm ro status c).mem_iff.mp (mem_of_mem_drop h)

variable (hlimit : ro.spec.revisionHistoryLimit = some limit)
  (hmany : ¬(limit < 0 ∨ (pruneCandidates ro status c).length ≤ limit.toNat))

include hlimit hmany

theorem prune_eq : pruneReplicaSets ro status c =
    ((newestFirst ro status c).drop limit.toNat).foldl (fun c e => c.erase e.1) c := by
  rw [pruneReplicaSets, hlimit]
  exact if_neg hmany

theorem survives_drop (h : e ∈ (newestFirst ro status c).drop limit.toNat) : survives ro status c e.1 = false := by
  rw [survives, prune_eq hlimit hmany, lookup_foldl_erase_mem (mem_map_of_mem h), Option.isSome_none]

theorem exists_drop {name : String} {rs : ReplicaSet P} (hlook : c.lookup name = some rs)
    (hgone : survives ro status c name = false) :
    ∃ d ∈ (newestFirst ro status c).drop limit.toNat, d.1 = name := by
  rw [survives, prune_eq hlimit hmany] at hgone
  rcases lookup_foldl_erase ((newestFirst ro status c).drop limit.toNat) c name with hsame | ⟨-, d, hd, hname⟩
  · rw [hsame, hlook] at hgone
    cases hgone
  · exact ⟨d, hd, hname⟩

theorem survives_take (h : e ∈ (newestFirst ro status c).take limit.toNat) : survives ro status c e.1 = true := by
  have hlook := lookup_of_candidate ((newestFirst_perm ro status c).mem_iff.mp (mem_of_mem_take h))
  rw [← Bool.not_eq_false]
  intro hgone
  obtain ⟨d, hd, hname⟩ := exists_drop hlimit hmany hlook hgone
  have hnd := newestFirst_nodup ro status c
  rw [← take_append_drop limit.toNat (newestFirst ro status c), map_append, nodup_append] at hnd
  exact hnd.2.2 _ (mem_map_of_mem h) _ (mem_map_of_mem hd) hname.symm

/-- Where the oldest are deleted safely, no candidate is named: it would be one of those that stay, and take the place of
one of the newest. -/
theorem PrunesSafely.unnamed (h : PrunesSafely X ro status result labels c) (he : e ∈ pruneCandidates ro status c) :
    namedAfter X ro status result labels e.1 = false := by
  have hdropped : ∀ d ∈ (newestFirst ro status c).drop limit.toNat, d ∈ remaining X ro status result labels c := by
    intro d hd
    have hcand := candidate_of_drop hd
    have hgone := (h.deletes d.1 d.2 (lookup_of_candidate hcand) (survives_drop hlimit hmany hd)).2
    exact mem_filter.mpr ⟨hcand, by rw [hgone]; rfl⟩
  rw [← Bool.not_eq_true]
  intro hnamed
  have htake : e ∈ (newestFirst ro status c).take limit.toNat := by
    refine (mem_take_or_drop he _).resolve_right fun hdrop => ?_
    have hunnamed := (mem_filter.mp (hdropped e hdrop)).2
    rw [hnamed] at hunnamed
    cases hunnamed
  obtain ⟨d, hd⟩ : ∃ d, d ∈ (newestFirst ro status c).drop limit.toNat := by
    refine exists_mem_of_ne_nil _ fun hnil => ?_
    have hlen := drop_eq_nil_iff.mp hnil
    rw [(newestFirst_perm ro status c).length_eq] at hlen
    omega
  have hkeeps := h.keeps limit hlimit d (hdropped d hd) (survives_drop hlimit hmany hd)
  rw [remaining, countP_filter, ← (newestFirst_perm ro status c).countP_eq,
    ← take_append_drop limit.toNat (newestFirst ro status c), countP_append] at hkeeps
  have hdrop := (countP_eq_zero (l := (newestFirst ro status c).drop limit.toNat)
    (p := fun d' => (survives ro status c d'.1 && decide (d.2.createdAt ≤ d'.2.createdAt)) &&
      !namedAfter X ro status result labels d'.1)).mpr fun d' hd' => by simp [survives_drop hlimit hmany hd']
  rw [hdrop, Nat.add_zero] at hkeeps
  have hfull := (length_take_le limit.toNat (newestFirst ro status c)).trans (Int.toNat_le.mpr hkeeps)
  have hcount := countP_eq_length.mp (le_antisymm countP_le_length hfull) e htake
  rw [hnamed, Bool.not_true, Bool.and_false] at hcount
  cases hcount

theorem prunesSafely_of_unnamed
    (h : ∀ e ∈ pruneCandidates ro status c, namedAfter X ro status result labels e.1 = false) :
    PrunesSafely X ro status result labels c := by
  have hremain : remaining X ro status result labels c = pruneCandidates ro status c :=
    filter_eq_self.mpr fun e he => by rw [h e he]; rfl
  refine ⟨fun name rs hlook hgone => ?_, fun limit' hlimit' e he hgone => ?_⟩
  · obtain ⟨d, hd, rfl⟩ := exists_drop hlimit hmany hlook hgone
    have hcand := candidate_of_drop hd
    refine ⟨?_, h d hcand⟩
    rw [Option.some.inj (hlook.symm.trans (lookup_of_candidate hcand))]
    simp only [pruneCandidates, mem_filter, Bool.and_eq_true, beq_iff_eq] at hcand
    exact hcand.2.2
  obtain rfl := Option.some.inj (hlimit'.symm.trans hlimit)
  rw [hremain] at he ⊢
  rw [← (newestFirst_perm ro status c).countP_eq]
  rcases mem_take_or_drop he limit'.toNat with htake | hdrop
  · rw [survives_take hlimit hmany htake] at hgone
    cases hgone
  have hpairs := newestFirst_sorted ro status c
  rw [← take_append_drop limit'.toNat (newestFirst ro status c), pairwise_append] at hpairs
  have hall : ((newestFirst ro status c).take limit'.toNat).countP
      (fun d => survives ro status c d.1 && decide (e.2.createdAt ≤ d.2.createdAt)) =
      ((newestFirst ro status c).take limit'.toNat).length := countP_eq_length.mpr fun d hd => by
    rw [survives_take hlimit hmany hd, decide_eq_true (hpairs.2.2 d hd e hdrop)]
    rfl
  have hlen := (newestFirst_perm ro status c).length_eq
  have hle := (take_sublist limit'.toNat (newestFirst ro status c)).countP_le
    (p := fun d => survives ro status c d.1 && decide (e.2.createdAt ≤ d.2.createdAt))
  rw [hall, length_take] at hle
  omega
end

theorem prunesSafely_of_kept (hprune : pruneReplicaSets ro status c = c) : PrunesSafely X ro status result labels c := by
  refine ⟨fun name rs hlook hgone => ?_, fun limit _ e he hgone => ?_⟩
  · rw [survives, hprune, hlook] at hgone
    cases hgone
  · rw [survives, hprune, lookup_of_candidate (mem_filter.mp he).1] at hgone
    cases hgone

/-- **When pruning is safe**: there is no limit, there are no more candidates than it, or no candidate is named by an action
of the reconcile that prunes it. -/
theorem prunes_safely_iff (X : Externals P) (ro : Rollout P) (status : RolloutStatus) (result : SyncResult P)
    (labels : Option Labels) (c : Cluster P) :
    PrunesSafely X ro status result labels c ↔
      ∀ limit, ro.spec.revisionHistoryLimit = some limit → 0 ≤ limit → limit < (pruneCandidates ro status c).length →
          ∀ e ∈ pruneCandidates ro status c, ∀ a ∈ result.replicaSets, a.name ≠ e.1 := by
  constructor
  · intro h limit hlimit hnonneg hlt e he a ha hname
    have hunnamed := h.unnamed hlimit (by omega) he
    rw [(namedAfter_of_candidate he).mpr ⟨a, ha, hname⟩] at hunnamed
    cases hunnamed
  intro h
  by_cases hmany : ∃ limit, ro.spec.revisionHistoryLimit = some limit ∧
      ¬(limit < 0 ∨ (pruneCandidates ro status c).length ≤ limit.toNat)
  · obtain ⟨limit, hlimit, hmany⟩ := hmany
    refine prunesSafely_of_unnamed hlimit hmany fun e he => ?_
    rw [← Bool.not_eq_true, namedAfter_of_candidate he]
    exact fun ⟨a, ha, hname⟩ => h limit hlimit (by omega) (by omega) e he a ha hname
  refine prunesSafely_of_kept ?_
  rw [pruneReplicaSets]
  split
  · rfl
  · rename_i limit hlimit
    exact if_pos (not_not.mp fun hnot => hmany ⟨limit, hlimit, hnot⟩)

open Sample

def noHistory : Rollout Nat :=
  { (world (noStrategy .rolling) 0 none (plain 1)).rollout with
    spec := { (world (noStrategy .rolling) 0 none (plain 1)).rollout.spec with revisionHistoryLimit := some 0 } }

/-- The ReplicaSets after the first actions of the rollout. -/
def firstCluster (result : SyncResult Nat) : Cluster Nat :=
  (executeReplicaSetActions (fun _ => none) 0 result.replicaSets ⟨∅, none⟩).1.cluster

/-- The ReplicaSet that the reconcile has just created is deleted, though the stored status names it. -/
theorem new_revision_is_pruned : ∃ status result,
    Rolling.sync externals ⟨none, none⟩ noHistory RolloutStatus.empty ⟨0, 0, 0⟩ = .ok (status, result) ∧
      ¬PrunesSafely externals noHistory status result none (firstCluster result) := by
  refine ⟨_, _, rfl, fun h => ?_⟩
  generalize hresult : createResult "Creating stable ReplicaSet" _ = result at h
  have hcandidates : pruneCandidates noHistory RolloutStatus.empty (firstCluster result) = (firstCluster result).entries := by
    subst hresult
    rfl
  have hmany : ¬((0 : Int) < 0 ∨
      (pruneCandidates noHistory RolloutStatus.empty (firstCluster result)).length ≤ Int.toNat 0) := by
    subst hresult
    decide
  obtain ⟨rs, hrs⟩ : ∃ rs, (firstCluster result).lookup "ro-1000000000" = some rs := by
    subst hresult
    exact ⟨_, rfl⟩
  have hmem := (newestFirst_perm noHistory RolloutStatus.empty (firstCluster result)).mem_iff.mpr (hcandidates ▸ AList.mem_lookup_iff.mp hrs)
  have hdeletes := (h.deletes _ rs hrs (survives_drop rfl hmany hmem)).2
  subst hresult
  revert hdeletes
  decide

end Paprika.Rollouts
