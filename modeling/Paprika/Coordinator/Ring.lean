import Mathlib.Data.List.Sort

/-!
# The hash ring

`ring.go` and `shard_filter.go`: every member has a number of virtual nodes on a ring of 64-bit hashes, and a key belongs
to the member of the first node from its own hash on, around the ring.

* `Ring.Rebuild`, `Ring.Lookup`, `RingShardFilter.Matches` — from the source;
* `Distinct` — no two virtual nodes of the members have one hash;
* **`lookup_congr`** — the owner of a key does not depend on the order in which the members were listed;
* **`moves_with_members`** — a key leaves its owner only if that one leaves or a new member takes it over.
-/

namespace Paprika.Coordinator

open List Option

structure RingNode where
  position : Nat
  member : String
  deriving DecidableEq

structure Ring where
  nodes : List RingNode
  members : List String
  replicas : Nat

def defaultReplicas : Nat := 16

/-- FNV-1a on 64 bits. -/
def hashKey (key : String) : Nat :=
  (key.toUTF8.data.toList.foldl (fun (h : UInt64) b => (h ^^^ b.toUInt64) * 1099511628211) 14695981039346656037).toNat

def hashMember (member : String) (idx : Nat) : Nat := hashKey (member ++ ":" ++ toString idx)

def virtualNodes (replicas : Nat) (member : String) : List RingNode :=
  (List.range replicas).map fun i => ⟨hashMember member i, member⟩

/-- The members in their order, each once; `seen` are the members that were met already. -/
def unique : List String → List String → List String
  | _, [] => []
  | seen, m :: ms => if m ∈ seen then unique seen ms else m :: unique (m :: seen) ms

theorem unique_cons {seen ms : List String} {m : String} :
    unique seen (m :: ms) = if m ∈ seen then unique seen ms else m :: unique (m :: seen) ms := rfl

theorem mem_unique {ms : List String} {m : String} : ∀ {seen : List String}, m ∈ unique seen ms ↔ m ∈ ms ∧ m ∉ seen := by
  induction ms with
  | nil => exact ⟨fun h => absurd h not_mem_nil, fun h => absurd h.1 not_mem_nil⟩
  | cons k ms ih =>
    intro seen
    rw [unique_cons]
    split_ifs with hseen
    · rw [ih, mem_cons]
      constructor
      · exact fun h => ⟨.inr h.1, h.2⟩
      · rintro ⟨rfl | hm, hnot⟩
        · exact absurd hseen hnot
        · exact ⟨hm, hnot⟩
    rw [mem_cons, ih, mem_cons, mem_cons]
    constructor
    · rintro (rfl | ⟨hm, hnot⟩)
      · exact ⟨.inl rfl, hseen⟩
      · exact ⟨.inr hm, fun h => hnot (.inr h)⟩
    · rintro ⟨hm, hnot⟩
      by_cases hk : m = k
      · exact .inl hk
      · exact .inr ⟨hm.resolve_left hk, fun h => h.elim hk hnot⟩

theorem nodup_unique {ms : List String} : ∀ {seen : List String}, (unique seen ms).Nodup := by
  induction ms with
  | nil => exact fun {_} => nodup_nil
  | cons k ms ih =>
    intro seen
    rw [unique_cons]
    split_ifs
    · exact ih
    · refine nodup_cons.mpr ⟨?_, ih⟩
      intro hk
      exact (mem_unique.mp hk).2 mem_cons_self

/-- Whether a node stands before another one, as `sort.Slice` is told. -/
def RingNode.le (a b : RingNode) : Prop := a.position ≤ b.position

instance : DecidableRel RingNode.le := fun _ _ => inferInstanceAs (Decidable (_ ≤ _))

instance : Std.Total RingNode.le := ⟨fun a b => Nat.le_total a.position b.position⟩

instance : IsTrans RingNode RingNode.le := ⟨fun _ _ _ hab hbc => Nat.le_trans hab hbc⟩

namespace Ring

/-- `Rebuild`; a member that is listed twice counts once. -/
def Rebuild (r : Ring) (members : List String) : Ring :=
  { r with
    nodes := ((unique [] members).flatMap (virtualNodes r.replicas)).insertionSort RingNode.le
    members := unique [] members }

def Len (r : Ring) : Nat := r.members.length

/-- `Lookup`: the first node from the hash of the key on, or the first of all. -/
def Lookup (r : Ring) (key : String) : Option String :=
  ((r.nodes.find? fun n => hashKey key ≤ n.position).or r.nodes.head?).map (·.member)

end Ring

def NewRing (members : List String) (replicas : Nat) : Ring :=
  (⟨[], [], if replicas < 1 then defaultReplicas else replicas⟩ : Ring).Rebuild members

/-- `RingShardFilter.Matches` of the replica `self`; an empty ring matches everything. -/
def Ring.Matches (r : Ring) (self namespace_ : String) : Bool :=
  if r.Len = 0 then true
  else
    match r.Lookup namespace_ with
    | none => true
    | some owner => owner == self

/-- No two virtual nodes of these members have one hash. -/
def Distinct (replicas : Nat) (members : List String) : Prop :=
  ∀ m ∈ members, ∀ n ∈ members, ∀ i ∈ List.range replicas, ∀ j ∈ List.range replicas,
    hashMember m i = hashMember n j → m = n ∧ i = j

instance (replicas : Nat) (members : List String) : Decidable (Distinct replicas members) :=
  inferInstanceAs (Decidable (∀ _, _))

/-! ### What a ring depends on -/

variable {r : Ring} {members others : List String} {key : String}

theorem mem_virtualNodes {replicas : Nat} {member : String} {n : RingNode} :
    n ∈ virtualNodes replicas member ↔ ∃ i ∈ List.range replicas, n = ⟨hashMember member i, member⟩ :=
  mem_map.trans (exists_congr fun _ => and_congr_right fun _ => eq_comm)

theorem mem_nodes_rebuild {n : RingNode} :
    n ∈ (r.Rebuild members).nodes ↔ ∃ m ∈ members, n ∈ virtualNodes r.replicas m := by
  refine (mem_insertionSort _).trans (mem_flatMap.trans ?_)
  simp only [mem_unique, not_mem_nil, not_false_eq_true, and_true]

theorem mem_members_rebuild {m : String} : m ∈ (r.Rebuild members).members ↔ m ∈ members :=
  mem_unique.trans (and_iff_left not_mem_nil)

theorem filter_virtualNodes (replicas : Nat) (ms : List String) :
    (ms.flatMap (virtualNodes replicas)).filter (fun n => n.member ∈ others) =
      (ms.filter (· ∈ others)).flatMap (virtualNodes replicas) := by
  induction ms with
  | nil => rfl
  | cons m ms ih =>
    rw [flatMap_cons, filter_append, ih, filter_cons]
    have hmember : ∀ n ∈ virtualNodes replicas m, n.member = m := by
      intro n hn
      obtain ⟨i, -, rfl⟩ := mem_virtualNodes.mp hn
      rfl
    split_ifs with hm
    · rw [flatMap_cons, filter_eq_self.mpr fun n hn => by rw [hmember n hn]; exact hm]
    · rw [filter_eq_nil_iff.mpr fun n hn => by rw [hmember n hn]; exact hm, nil_append]

section
variable (hdist : Distinct r.replicas members)
include hdist

/-- **The nodes of some of the members** are where they were among all of them. -/
theorem nodes_filter (h : ∀ m ∈ others, m ∈ members) :
    (r.Rebuild others).nodes = (r.Rebuild members).nodes.filter (fun n => n.member ∈ others) := by
  have hperm : ((unique [] others).flatMap (virtualNodes r.replicas)).Perm
      (((unique [] members).flatMap (virtualNodes r.replicas)).filter (fun n => n.member ∈ others)) := by
    rw [filter_virtualNodes]
    refine List.Perm.flatMap_right _ ((perm_ext_iff_of_nodup nodup_unique (nodup_unique.filter _)).mpr ?_)
    intro m
    rw [mem_filter, mem_unique, mem_unique, decide_eq_true_eq]
    exact ⟨fun hm => ⟨⟨h m hm.1, hm.2⟩, hm.1⟩, fun hm => ⟨hm.2, hm.1.2⟩⟩
  have hsorted : ((r.Rebuild others).nodes).Perm ((r.Rebuild members).nodes.filter (fun n => n.member ∈ others)) :=
    ((perm_insertionSort RingNode.le _).trans hperm).trans ((perm_insertionSort RingNode.le _).symm.filter _)
  refine List.Perm.eq_of_pairwise (?_ : ∀ a b : RingNode, _ → _ → RingNode.le a b → RingNode.le b a → a = b)
    (pairwise_insertionSort RingNode.le _) ((pairwise_insertionSort RingNode.le _).filter _) hsorted
  intro a b ha hb hab hba
  -- two nodes at one position are the same virtual node
  obtain ⟨m, hm, hma⟩ := mem_nodes_rebuild.mp ha
  obtain ⟨n, hn, hnb⟩ := mem_nodes_rebuild.mp (mem_of_mem_filter hb)
  obtain ⟨i, hi, rfl⟩ := mem_virtualNodes.mp hma
  obtain ⟨j, hj, rfl⟩ := mem_virtualNodes.mp hnb
  obtain ⟨rfl, rfl⟩ := hdist m (h m hm) n hn i hi j hj (Nat.le_antisymm hab hba)
  rfl

theorem lookup_congr (h : ∀ m, m ∈ members ↔ m ∈ others) (key : String) :
    (r.Rebuild members).Lookup key = (r.Rebuild others).Lookup key := by
  rw [Ring.Lookup, Ring.Lookup, nodes_filter hdist (fun m => (h m).mpr), filter_eq_self.mpr]
  intro n hn
  obtain ⟨m, hm, hnode⟩ := mem_nodes_rebuild.mp hn
  obtain ⟨i, -, rfl⟩ := mem_virtualNodes.mp hnode
  exact decide_eq_true ((h m).mp hm)

/-- A key stays with its owner among any members of which the owner is one. -/
theorem lookup_of_subset {owner : String} (h : ∀ m ∈ others, m ∈ members)
    (howner : (r.Rebuild members).Lookup key = some owner) (hin : owner ∈ others) :
    (r.Rebuild others).Lookup key = some owner := by
  obtain ⟨n, hn, rfl⟩ := map_eq_some_iff.mp howner
  rw [Ring.Lookup, nodes_filter hdist h, find?_filter, head?_filter]
  refine map_eq_some_iff.mpr ⟨n, ?_, rfl⟩
  rcases or_eq_some_iff.mp hn with hfind | ⟨hfind, hhead⟩
  · obtain ⟨hfrom, before, after, hsplit, hbefore⟩ := find?_eq_some_iff_append.mp hfind
    refine or_eq_some_iff.mpr (.inl (find?_eq_some_iff_append.mpr ⟨?_, before, after, hsplit, ?_⟩))
    · simpa [hin] using hfrom
    · intro a ha
      have hpast := hbefore a ha
      simp only [Bool.not_eq_true', decide_eq_false_iff_not] at hpast ⊢
      exact fun h => hpast (of_decide_eq_true h.2)
  · obtain ⟨ns, hns⟩ := head?_eq_some_iff.mp hhead
    refine or_eq_some_iff.mpr (.inr ⟨find?_eq_none.mpr fun a ha => ?_, ?_⟩)
    · simp [find?_eq_none.mp hfind a ha]
    · rw [hns]
      exact find?_cons_of_pos (decide_eq_true hin)
end

theorem mem_of_lookup {owner : String} (h : (r.Rebuild members).Lookup key = some owner) : owner ∈ members := by
  obtain ⟨n, hn, rfl⟩ := map_eq_some_iff.mp h
  have hmem : n ∈ (r.Rebuild members).nodes := by
    rcases or_eq_some_iff.mp hn with hfind | ⟨-, hhead⟩
    · exact mem_of_find?_eq_some hfind
    · exact mem_of_head? hhead
  obtain ⟨m, hm, hnode⟩ := mem_nodes_rebuild.mp hmem
  obtain ⟨i, -, rfl⟩ := mem_virtualNodes.mp hnode
  exact hm

/-- **Only the keys of who leaves, and those that who joins takes over, change their owner.** -/
theorem moves_with_members (r : Ring) (before after : List String) (key old new : String)
    (hdistinct : Distinct r.replicas (before ++ after)) (hold : (r.Rebuild before).Lookup key = some old)
    (hnew : (r.Rebuild after).Lookup key = some new) (hmoved : old ≠ new) :
    old ∈ before ∧ old ∉ after ∨ new ∈ after ∧ new ∉ before := by
  by_contra hstay
  rw [not_or] at hstay
  have holdAfter : old ∈ after := by_contra fun h => hstay.1 ⟨mem_of_lookup hold, h⟩
  have hnewBefore : new ∈ before := by_contra fun h => hstay.2 ⟨mem_of_lookup hnew, h⟩
  -- both own the key among those that stay
  have hdist : ∀ ms, ms ⊆ before ++ after → Distinct r.replicas ms :=
    fun ms hms m hm n hn => hdistinct m (hms hm) n (hms hn)
  have holdStays : (r.Rebuild (before.filter (· ∈ after))).Lookup key = some old :=
    lookup_of_subset (hdist before (subset_append_left _ _)) (fun m hm => mem_of_mem_filter hm) hold
      (mem_filter.mpr ⟨mem_of_lookup hold, decide_eq_true holdAfter⟩)
  have hnewStays : (r.Rebuild (before.filter (· ∈ after))).Lookup key = some new :=
    lookup_of_subset (hdist after (subset_append_right _ _)) (fun m hm => of_decide_eq_true (mem_filter.mp hm).2) hnew
      (mem_filter.mpr ⟨hnewBefore, decide_eq_true (mem_of_lookup hnew)⟩)
  exact hmoved (some.inj (holdStays.symm.trans hnewStays))

/-- `pod-b` leaves, and its key goes to `pod-a`. -/
theorem pod_leaves :
    "pod-b" ∈ ["pod-a", "pod-b"] ∧ "pod-b" ∉ ["pod-a"] ∨ "pod-a" ∈ ["pod-a"] ∧ "pod-a" ∉ ["pod-a", "pod-b"] :=
  moves_with_members (NewRing [] 2) ["pod-a", "pod-b"] ["pod-a"] "default" "pod-b" "pod-a" (by decide)
    (by decide) (by decide) (by decide)

theorem exists_lookup (hreps : 0 < r.replicas) {m : String} (hm : m ∈ members) (key : String) :
    ∃ owner, (r.Rebuild members).Lookup key = some owner := by
  have hnode : (⟨hashMember m 0, m⟩ : RingNode) ∈ (r.Rebuild members).nodes :=
    mem_nodes_rebuild.mpr ⟨m, hm, mem_virtualNodes.mpr ⟨0, mem_range.mpr hreps, rfl⟩⟩
  rw [Ring.Lookup]
  cases hnodes : (r.Rebuild members).nodes with
  | nil =>
    rw [hnodes] at hnode
    cases hnode
  | cons n ns =>
    cases hfind : (n :: ns).find? fun n => hashKey key ≤ n.position with
    | none => exact ⟨n.member, rfl⟩
    | some found => exact ⟨found.member, rfl⟩

theorem matches_rebuild {m self : String} (hm : m ∈ members) {owner : String}
    (howner : (r.Rebuild members).Lookup key = some owner) :
    (r.Rebuild members).Matches self key = true ↔ owner = self := by
  have hlen : (r.Rebuild members).Len ≠ 0 := by
    intro hzero
    have hempty := length_eq_zero_iff.mp hzero
    have hin : m ∈ (r.Rebuild members).members := mem_members_rebuild.mpr hm
    rw [hempty] at hin
    cases hin
  rw [Ring.Matches, if_neg hlen, howner]
  exact beq_iff_eq

end Paprika.Coordinator
