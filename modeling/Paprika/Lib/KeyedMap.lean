import Mathlib.Algebra.GroupWithZero.Nat
import Mathlib.Data.List.AList
import Mathlib.Data.List.Sort

/-!
# Finite maps of values that know their key

A store that keeps each value under a key computed from the value itself (`key : α → κ`).  The module has the
bulk operations such stores use and what they do to `lookup`:

* `insertAll`, `eraseAll` — insert a list of values, erase a list of keys;
* `sortedValues` — the values in the order of their keys, and `ofValues`, which reads such a list back;
* `keep` — the entries that a test accepts;
* **`lookup_patch`** — the law of deltas: inserting what is new or different and erasing what is gone turns one map
  into the other, also when the store keeps an image `f x` of each value `x`.

Maps are compared through `lookup`, never through the order of their entries.
-/

namespace Paprika.Lib.KeyedMap

open List Option

/-- A finite map, in some order of its entries. -/
abbrev Map (κ α : Type*) := AList (fun _ : κ => α)

variable {κ α β : Type*} [DecidableEq κ]

/-- Every value is stored under its own key. -/
def Keyed (key : α → κ) (m : Map κ α) : Prop := ∀ k x, m.lookup k = some x → key x = k

/-- Insert the values of a list, in order. -/
def insertAll (key : α → κ) (m : Map κ α) (xs : List α) : Map κ α := xs.foldl (fun m x => m.insert (key x) x) m

def eraseAll (m : Map κ α) (ks : List κ) : Map κ α := ks.foldl (fun m k => m.erase k) m

def ofValues (key : α → κ) (xs : List α) : Map κ α := insertAll key ∅ xs

def sortedValues [LinearOrder κ] (m : Map κ α) : List α :=
  (m.keys.insertionSort (· ≤ ·)).filterMap (fun k => m.lookup k)

theorem insertAll_append (key : α → κ) (m : Map κ α) (xs ys : List α) :
    insertAll key m (xs ++ ys) = insertAll key (insertAll key m xs) ys := List.foldl_append

theorem keyed_empty (key : α → κ) : Keyed key (∅ : Map κ α) := by
  intro k x h
  simp at h

/-! ### What the bulk operations do to a lookup -/

section
variable {key : α → κ} {k : κ}
variable {ks : List κ} {m : Map κ α} {xs : List α}

theorem lookup_insertAll_of_forall_ne (h : ∀ x ∈ xs, key x ≠ k) : (insertAll key m xs).lookup k = m.lookup k := by
  induction xs generalizing m with
  | nil => rfl
  | cons x xs ih =>
    have hx : k ≠ key x := (h x mem_cons_self).symm
    show (insertAll key (m.insert (key x) x) xs).lookup k = m.lookup k
    rw [ih (fun y hy => h y (mem_cons_of_mem x hy)), AList.lookup_insert_ne hx]

/-- A value that is the only one of its key in the list is what the map holds afterwards. -/
theorem lookup_insertAll_of_mem {x : α} (hx : x ∈ xs) (hk : key x = k)
    (hunique : ∀ y ∈ xs, key y = k → y = x) : (insertAll key m xs).lookup k = some x := by
  induction xs generalizing m with
  | nil => simp at hx
  | cons y ys ih =>
    show (insertAll key (m.insert (key y) y) ys).lookup k = some x
    by_cases hlater : x ∈ ys
    · exact ih hlater (fun z hz => hunique z (mem_cons_of_mem y hz))
    have hy : x = y := by
      rcases mem_cons.mp hx with h | h
      · exact h
      · exact absurd h hlater
    subst hy
    have hne : ∀ z ∈ ys, key z ≠ k := by
      intro z hz hzk
      have := hunique z (mem_cons_of_mem x hz) hzk
      exact hlater (this ▸ hz)
    rw [lookup_insertAll_of_forall_ne hne, ← hk, AList.lookup_insert]

theorem lookup_eraseAll_of_eq_none (h : m.lookup k = none) : (eraseAll m ks).lookup k = none := by
  induction ks generalizing m with
  | nil => exact h
  | cons j ks ih =>
    refine ih ?_
    by_cases hj : k = j
    · rw [hj, AList.lookup_erase]
    · rw [AList.lookup_erase_ne hj, h]

theorem lookup_eraseAll_of_mem (h : k ∈ ks) : (eraseAll m ks).lookup k = none := by
  induction ks generalizing m with
  | nil => simp at h
  | cons j ks ih =>
    show (eraseAll (m.erase j) ks).lookup k = none
    rcases mem_cons.mp h with hj | hlater
    · exact lookup_eraseAll_of_eq_none (by rw [hj, AList.lookup_erase])
    · exact ih hlater

theorem lookup_eraseAll_of_notMem (h : k ∉ ks) : (eraseAll m ks).lookup k = m.lookup k := by
  induction ks generalizing m with
  | nil => rfl
  | cons j ks ih =>
    have hj : k ≠ j := fun heq => h (mem_cons.mpr (Or.inl heq))
    have hks : k ∉ ks := fun hmem => h (mem_cons_of_mem j hmem)
    show (eraseAll (m.erase j) ks).lookup k = m.lookup k
    rw [ih hks, AList.lookup_erase_ne hj]

theorem mem_insertAll_of_mem (h : k ∈ m) : k ∈ insertAll key m xs := by
  induction xs generalizing m with
  | nil => exact h
  | cons x xs ih => exact ih ((AList.mem_insert _).mpr (Or.inr h))

theorem key_mem_insertAll {x : α} (hx : x ∈ xs) : key x ∈ insertAll key m xs := by
  induction xs generalizing m with
  | nil => simp at hx
  | cons y ys ih =>
    rcases mem_cons.mp hx with rfl | hlater
    · show key x ∈ insertAll key (m.insert (key x) x) ys
      exact mem_insertAll_of_mem ((AList.mem_insert _).mpr (Or.inl rfl))
    · exact ih hlater

theorem lookup_insertAll_congr {n : Map κ α} (h : ∀ k, m.lookup k = n.lookup k) (k : κ) :
    (insertAll key m xs).lookup k = (insertAll key n xs).lookup k := by
  induction xs generalizing m n with
  | nil => exact h k
  | cons x xs ih =>
    refine ih ?_
    intro j
    by_cases hj : j = key x
    · rw [hj, AList.lookup_insert, AList.lookup_insert]
    · rw [AList.lookup_insert_ne hj, AList.lookup_insert_ne hj, h j]

theorem lookup_eraseAll_congr {n : Map κ α} (h : ∀ k, m.lookup k = n.lookup k) (k : κ) :
    (eraseAll m ks).lookup k = (eraseAll n ks).lookup k := by
  by_cases hk : k ∈ ks
  · rw [lookup_eraseAll_of_mem hk, lookup_eraseAll_of_mem hk]
  · rw [lookup_eraseAll_of_notMem hk, lookup_eraseAll_of_notMem hk, h k]
end

/-! ### Writing a map as a list and reading it back -/

section
variable {m : Map κ α}

theorem mem_sortedValues [LinearOrder κ] {x : α} : x ∈ sortedValues m ↔ ∃ k, m.lookup k = some x := by
  simp only [sortedValues, mem_filterMap, mem_insertionSort]
  constructor
  · intro h
    obtain ⟨k, _, hk⟩ := h
    exact ⟨k, hk⟩
  intro h
  obtain ⟨k, hk⟩ := h
  refine ⟨k, ?_, hk⟩
  rw [← AList.mem_keys, ← AList.lookup_isSome, hk]
  rfl

theorem lookup_ofValues_sortedValues [LinearOrder κ] {key : α → κ} (hm : Keyed key m) (k : κ) :
    (ofValues key (sortedValues m)).lookup k = m.lookup k := by
  have hvalue : ∀ x ∈ sortedValues m, key x = k → m.lookup k = some x := by
    intro x hx hk
    obtain ⟨j, hj⟩ := mem_sortedValues.mp hx
    rw [← hk, hm j x hj, hj]
  cases hlook : m.lookup k with
  | none =>
    have hne : ∀ x ∈ sortedValues m, key x ≠ k := by
      intro x hx hk
      rw [hvalue x hx hk] at hlook
      simp at hlook
    rw [ofValues, lookup_insertAll_of_forall_ne hne, AList.lookup_empty]
  | some x =>
  refine lookup_insertAll_of_mem (mem_sortedValues.mpr ⟨k, hlook⟩) (hm k x hlook) ?_
  intro y hy hk
  have hy' := hvalue y hy hk
  rw [hlook] at hy'
  exact (some.inj hy').symm

theorem keyed_insertAll {key : α → κ} {xs : List α} (hm : Keyed key m) : Keyed key (insertAll key m xs) := by
  induction xs generalizing m with
  | nil => exact hm
  | cons x xs ih =>
    refine ih ?_
    intro k y hy
    by_cases hk : k = key x
    · subst hk
      rw [AList.lookup_insert] at hy
      rw [← some.inj hy]
    · rw [AList.lookup_insert_ne hk] at hy
      exact hm k y hy

theorem keyed_eraseAll {key : α → κ} {ks : List κ} (hm : Keyed key m) : Keyed key (eraseAll m ks) := by
  intro k x hx
  by_cases hk : k ∈ ks
  · rw [lookup_eraseAll_of_mem hk] at hx
    simp at hx
  · rw [lookup_eraseAll_of_notMem hk] at hx
    exact hm k x hx
end

theorem keyed_ofValues (key : α → κ) (xs : List α) : Keyed key (ofValues key xs) := keyed_insertAll (keyed_empty key)

section
variable {key : α → κ} {xs : List α} {k : κ}

theorem lookup_ofValues_eq_some (hinj : ∀ x ∈ xs, ∀ y ∈ xs, key x = key y → x = y)
    {x : α} : (ofValues key xs).lookup k = some x ↔ x ∈ xs ∧ key x = k := by
  constructor
  · intro h
    have hk : key x = k := keyed_ofValues key xs k x h
    by_cases hmem : ∃ y ∈ xs, key y = k
    · obtain ⟨y, hy, hyk⟩ := hmem
      have hlook := lookup_insertAll_of_mem (m := ∅) hy hyk (fun z hz hzk => hinj z hz y hy (hzk.trans hyk.symm))
      obtain rfl : y = x := some.inj (hlook.symm.trans h)
      exact ⟨hy, hyk⟩
    · have hne : ∀ y ∈ xs, key y ≠ k := fun y hy hyk => hmem ⟨y, hy, hyk⟩
      rw [ofValues, lookup_insertAll_of_forall_ne hne] at h
      simp at h
  · intro h
    obtain ⟨hx, hk⟩ := h
    exact lookup_insertAll_of_mem hx hk (fun y hy hyk => hinj y hy x hx (hyk.trans hk.symm))

theorem mem_ofValues : k ∈ ofValues key xs ↔ ∃ x ∈ xs, key x = k := by
  constructor
  · intro h
    by_cases hmem : ∃ x ∈ xs, key x = k
    · exact hmem
    · have hne : ∀ x ∈ xs, key x ≠ k := fun x hx hxk => hmem ⟨x, hx, hxk⟩
      rw [← AList.lookup_isSome, ofValues, lookup_insertAll_of_forall_ne hne] at h
      simp at h
  · intro h
    obtain ⟨x, hx, rfl⟩ := h
    exact key_mem_insertAll hx

theorem mem_of_lookup_insertAll {x : α} : ∀ {m : Map κ α},
    (insertAll key m xs).lookup k = some x → m.lookup k = some x ∨ x ∈ xs := by
  induction xs with
  | nil => exact fun h => .inl h
  | cons y ys ih =>
    intro m h
    rcases ih h with hold | hlater
    · by_cases hk : k = key y
      · rw [hk, AList.lookup_insert] at hold
        exact .inr (some.inj hold ▸ mem_cons_self)
      · rw [AList.lookup_insert_ne hk] at hold
        exact .inl hold
    · exact .inr (mem_cons_of_mem y hlater)
end

/-! ### Sorted values of a changed map -/

/-- Change every value and keep the keys. -/
def mapValues (f : α → β) (m : Map κ α) : Map κ β where
  entries := m.entries.map (fun e => ⟨e.1, f e.2⟩)
  nodupKeys := by
    have hkeys : List.keys (m.entries.map (fun e => (⟨e.1, f e.2⟩ : Sigma fun _ : κ => β))) = m.keys := by
      simp [List.keys, AList.keys, Function.comp_def]
    rw [List.NodupKeys, hkeys]
    exact m.keys_nodup

omit [DecidableEq κ] in
theorem keys_mapValues (f : α → β) (m : Map κ α) : (mapValues f m).keys = m.keys := by
  simp [mapValues, List.keys, AList.keys, Function.comp_def]

theorem lookup_mapValues (f : α → β) (m : Map κ α) (k : κ) : (mapValues f m).lookup k = (m.lookup k).map f := by
  show List.dlookup k (m.entries.map (fun e => (⟨e.1, f e.2⟩ : Sigma fun _ : κ => β))) = (List.dlookup k m.entries).map f
  induction m.entries with
  | nil => rfl
  | cons e rest ih =>
    obtain ⟨j, x⟩ := e
    by_cases hj : k = j
    · subst hj
      simp
    · have hleft := dlookup_cons_ne (rest.map (fun e => (⟨e.1, f e.2⟩ : Sigma fun _ : κ => β))) ⟨j, f x⟩ hj
      have hright := dlookup_cons_ne rest (⟨j, x⟩ : Sigma fun _ : κ => α) hj
      rw [map_cons, hright, ← ih]
      exact hleft

theorem mapValues_insert (f : α → β) (m : Map κ α) (k : κ) (x : α) :
    mapValues f (m.insert k x) = (mapValues f m).insert k (f x) := by
  refine AList.ext ?_
  simp only [mapValues, AList.entries_insert, map_cons, List.kerase, eraseP_map]
  rfl

/-- A change of the values that keeps their keys may be made before they are inserted. -/
theorem mapValues_insertAll {key : α → κ} {key' : β → κ} {f : α → β} (hf : ∀ x, key' (f x) = key x) (xs : List α) :
    ∀ m : Map κ α, mapValues f (insertAll key m xs) = insertAll key' (mapValues f m) (xs.map f) := by
  induction xs with
  | nil => intro m; rfl
  | cons x xs ih =>
    intro m
    show mapValues f (insertAll key (m.insert (key x) x) xs) =
      insertAll key' ((mapValues f m).insert (key' (f x)) (f x)) (xs.map f)
    rw [ih, mapValues_insert, hf]

omit [DecidableEq κ] in
theorem mapValues_mapValues {γ : Type*} (g : β → γ) (f : α → β) (m : Map κ α) :
    mapValues g (mapValues f m) = mapValues (fun x => g (f x)) m := by
  refine AList.ext ?_
  simp [mapValues, Function.comp_def]

def keep (p : κ → α → Bool) (m : Map κ α) : Map κ α where
  entries := m.entries.filter fun e => p e.1 e.2
  nodupKeys := m.nodupKeys.sublist List.filter_sublist

omit [DecidableEq κ] in
theorem keep_sublist (p : κ → α → Bool) (m : Map κ α) : (keep p m).entries.Sublist m.entries := List.filter_sublist

theorem erase_sublist (m : Map κ α) (k : κ) : (m.erase k).entries.Sublist m.entries := List.kerase_sublist k m.entries

omit [DecidableEq κ] in
theorem sum_le_of_sublist {l₁ l₂ : List Nat} (h : l₁.Sublist l₂) : l₁.sum ≤ l₂.sum := by
  induction h with
  | slnil => exact Nat.le_refl _
  | cons a _ ih =>
    rw [sum_cons]
    omega
  | cons_cons a _ ih =>
    rw [sum_cons, sum_cons]
    omega

theorem lookup_keep (p : κ → α → Bool) (m : Map κ α) (k : κ) : (keep p m).lookup k = (m.lookup k).filter (p k) := by
  refine Option.ext fun x => ?_
  rw [filter_eq_some_iff]
  show x ∈ (keep p m).lookup k ↔ x ∈ m.lookup k ∧ p k x = true
  rw [AList.mem_lookup_iff, AList.mem_lookup_iff]
  simp [keep]

theorem entries_perm {m n : Map κ α} (h : ∀ k, m.lookup k = n.lookup k) : m.entries.Perm n.entries := by
  refine lookup_ext m.nodupKeys n.nodupKeys ?_
  intro k x
  show x ∈ m.lookup k ↔ x ∈ n.lookup k
  rw [h k]

theorem sortedValues_mapValues [LinearOrder κ] (f : α → β) (m : Map κ α) :
    sortedValues (mapValues f m) = (sortedValues m).map f := by
  rw [sortedValues, keys_mapValues, sortedValues, map_filterMap]
  congr 1
  funext k
  exact lookup_mapValues f m k

/-- Replacing a value by one that looks the same does not change what the sorted values look like. -/
theorem map_sortedValues_insert [LinearOrder κ] {f : α → β} {m : Map κ α} {k : κ} {x y : α} (h : m.lookup k = some y)
    (hf : f x = f y) : (sortedValues (m.insert k x)).map f = (sortedValues m).map f := by
  have hmem : k ∈ m.keys := by
    rw [← AList.mem_keys, ← AList.lookup_isSome, h]
    rfl
  have hkeys : (m.insert k x).keys.insertionSort (· ≤ ·) = m.keys.insertionSort (· ≤ ·) := by
    refine List.Perm.eq_of_pairwise (?_ : ∀ a b : κ, _ → _ → a ≤ b → b ≤ a → a = b) ?_ ?_ ?_
    · exact fun a b _ _ hab hba => le_antisymm hab hba
    · exact pairwise_insertionSort _ _
    · exact pairwise_insertionSort _ _
    · rw [AList.keys_insert]
      exact (perm_insertionSort _ _).trans
        ((perm_cons_erase hmem).symm.trans (perm_insertionSort _ _).symm)
  rw [sortedValues, hkeys, sortedValues, map_filterMap, map_filterMap]
  congr 1
  funext j
  by_cases hj : j = k
  · rw [hj, AList.lookup_insert, h]
    exact congrArg some hf
  · rw [AList.lookup_insert_ne hj]

/-! ### Deltas -/

/-- What a delta from `m` to `n` must contain: the values of `n` that `m` does not hold, and the keys of `m` that
`n` does not have. -/
structure IsDelta (key : α → κ) (m n : Map κ α) (changed : List α) (deleted : List κ) : Prop where
  mem_changed : ∀ x, x ∈ changed ↔ n.lookup (key x) = some x ∧ m.lookup (key x) ≠ some x
  mem_deleted : ∀ k, k ∈ deleted ↔ k ∈ m ∧ k ∉ n

/-- **Patching.**  A store that holds the image under `f` of the map `m` holds the image of `n` once a delta from
`m` to `n` is applied to it. -/
theorem lookup_patch {key : α → κ} {key' : β → κ} {f : α → β} (hf : ∀ x, key' (f x) = key x)
    {m n : Map κ α} {stored : Map κ β} (hstored : ∀ k, stored.lookup k = (m.lookup k).map f)
    (hn : Keyed key n) {changed : List α} {deleted : List κ} (h : IsDelta key m n changed deleted) (k : κ) :
    (eraseAll (insertAll key' stored (changed.map f)) deleted).lookup k = (n.lookup k).map f := by
  -- a changed value is what the new map holds under its key
  have hchange : ∀ x ∈ changed, key x = k → n.lookup k = some x := by
    intro x hx hk
    rw [← hk]
    exact ((h.mem_changed x).mp hx).1
  by_cases hdel : k ∈ deleted
  · have hgone := ((h.mem_deleted k).mp hdel).2
    rw [lookup_eraseAll_of_mem hdel, AList.lookup_eq_none.mpr hgone]
    rfl
  rw [lookup_eraseAll_of_notMem hdel]
  cases hlook : n.lookup k with
  | none =>
    have hm : m.lookup k = none := by
      rw [AList.lookup_eq_none]
      intro hmem
      exact hdel ((h.mem_deleted k).mpr ⟨hmem, AList.lookup_eq_none.mp hlook⟩)
    have hne : ∀ y ∈ changed.map f, key' y ≠ k := by
      intro y hy hk
      obtain ⟨x, hx, rfl⟩ := mem_map.mp hy
      rw [hf] at hk
      rw [hchange x hx hk] at hlook
      simp at hlook
    rw [lookup_insertAll_of_forall_ne hne, hstored, hm]
  | some x =>
    have hk : key x = k := hn k x hlook
    have honly : ∀ y ∈ changed, key y = k → y = x := by
      intro y hy hyk
      have := hchange y hy hyk
      rw [hlook] at this
      exact (some.inj this).symm
    by_cases hsame : m.lookup k = some x
    · have hne : ∀ y ∈ changed.map f, key' y ≠ k := by
        intro y hy hyk
        obtain ⟨z, hz, rfl⟩ := mem_map.mp hy
        rw [hf] at hyk
        have hdiff := ((h.mem_changed z).mp hz).2
        rw [hyk, honly z hz hyk] at hdiff
        exact hdiff hsame
      rw [lookup_insertAll_of_forall_ne hne, hstored, hsame]
    · have hmem : x ∈ changed := (h.mem_changed x).mpr (by rw [hk]; exact ⟨hlook, hsame⟩)
      refine lookup_insertAll_of_mem (mem_map_of_mem hmem) (by rw [hf, hk]) ?_
      intro y hy hyk
      obtain ⟨z, hz, rfl⟩ := mem_map.mp hy
      rw [hf] at hyk
      rw [honly z hz hyk]

end Paprika.Lib.KeyedMap
