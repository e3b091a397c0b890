import Mathlib.Data.Finmap

/-!
# Inverted indexes

A table of records, and for each key the set of the records that have it (`Index`).  An index is exact (`Inverse`) if a
record is in a posting exactly when it has that key, and no posting is empty.

* **`Inverse.unique`** — a table has one exact index;
* **`Inverse.put`** — an exact index stays exact if a record that is changed or deleted leaves the postings of the keys
  it no longer has and enters those of the keys it did not have before (`syncKeys`);
* `Inverse.add` — and if a new record enters the postings of its keys.
-/

namespace Paprika.Lib.InvertedIndex

open Option

/-- A finite map. -/
abbrev Table (κ α : Type*) := Finmap (fun _ : κ => α)

/-- The postings, each a set of record names. -/
abbrev Index (κ ι : Type*) := Table κ (Finset ι)

variable {κ ι α β : Type*} [DecidableEq κ] [DecidableEq ι]

/-! ### Tables -/

def mapValues (f : α → β) (m : Table κ α) : Table κ β :=
  Finmap.keysLookupEquiv.symm ⟨(m.keys, fun k => (m.lookup k).map f), by
    intro k
    rw [Option.isSome_map, Finmap.lookup_isSome, Finmap.mem_keys]⟩

@[simp] theorem lookup_mapValues (f : α → β) (m : Table κ α) (k : κ) :
    (mapValues f m).lookup k = (m.lookup k).map f := by
  rw [mapValues, Finmap.keysLookupEquiv_symm_apply_lookup]

theorem lookup_insert_eq (m : Table κ α) (k j : κ) (x : α) :
    (m.insert k x).lookup j = if j = k then some x else m.lookup j := by
  by_cases h : j = k
  · rw [if_pos h, h, Finmap.lookup_insert]
  · rw [if_neg h, Finmap.lookup_insert_of_ne _ h]

theorem lookup_erase_eq (m : Table κ α) (k j : κ) : (m.erase k).lookup j = if j = k then none else m.lookup j := by
  by_cases h : j = k
  · rw [if_pos h, h, Finmap.lookup_erase]
  · rw [if_neg h, Finmap.lookup_erase_ne h]

/-- Insert a value or erase the key. -/
def put (m : Table κ α) (k : κ) : Option α → Table κ α
  | some x => m.insert k x
  | none => m.erase k

theorem lookup_put (m : Table κ α) (k j : κ) (x : Option α) :
    (put m k x).lookup j = if j = k then x else m.lookup j := by
  cases x with
  | none => exact lookup_erase_eq m k j
  | some x => exact lookup_insert_eq m k j x

theorem put_self {m : Table κ α} {k : κ} {x : Option α} (h : m.lookup k = x) : put m k x = m := by
  apply Finmap.ext_lookup
  intro j
  rw [lookup_put]
  by_cases hj : j = k
  · rw [if_pos hj, hj, h]
  · rw [if_neg hj]

theorem mapValues_congr {f g : α → β} {m : Table κ α} (h : ∀ k x, m.lookup k = some x → f x = g x) :
    mapValues f m = mapValues g m := by
  apply Finmap.ext_lookup
  intro k
  rw [lookup_mapValues, lookup_mapValues]
  cases hk : m.lookup k with
  | none => rfl
  | some x => exact congrArg some (h k x hk)

/-! ### Postings -/

/-- The posting of a key, empty where the index has none. -/
def posting (index : Index κ ι) (k : κ) : Finset ι := (index.lookup k).getD ∅

/-- No posting is kept for nothing. -/
def Tight (index : Index κ ι) : Prop := ∀ k, index.lookup k ≠ some ∅

def addKey (index : Index κ ι) (k : κ) (i : ι) : Index κ ι := index.insert k (insert i (posting index k))

def removeKey (index : Index κ ι) (k : κ) (i : ι) : Index κ ι :=
  let rest := (posting index k).erase i
  if rest = ∅ then index.erase k else index.insert k rest

def addKeys (index : Index κ ι) (ks : List κ) (i : ι) : Index κ ι := ks.foldl (fun index k => addKey index k i) index

def removeKeys (index : Index κ ι) (ks : List κ) (i : ι) : Index κ ι :=
  ks.foldl (fun index k => removeKey index k i) index

/-- Leave the postings of the keys that are gone, and enter those of the new ones. -/
def syncKeys (index : Index κ ι) (old new : List κ) (i : ι) : Index κ ι :=
  addKeys (removeKeys index (old.filter (· ∉ new)) i) (new.filter (· ∉ old)) i

theorem posting_addKey (index : Index κ ι) (k j : κ) (i : ι) :
    posting (addKey index k i) j = if j = k then insert i (posting index j) else posting index j := by
  rw [posting, addKey, lookup_insert_eq]
  by_cases h : j = k
  · rw [if_pos h, if_pos h, h]
    rfl
  · rw [if_neg h, if_neg h]
    rfl

theorem posting_removeKey (index : Index κ ι) (k j : κ) (i : ι) :
    posting (removeKey index k i) j = if j = k then (posting index j).erase i else posting index j := by
  rw [removeKey]
  by_cases hempty : (posting index k).erase i = ∅
  · rw [if_pos hempty, posting, lookup_erase_eq]
    by_cases h : j = k
    · rw [if_pos h, if_pos h, h, hempty]
      rfl
    · rw [if_neg h, if_neg h]
      rfl
  rw [if_neg hempty, posting, lookup_insert_eq]
  by_cases h : j = k
  · rw [if_pos h, if_pos h, h]
    rfl
  · rw [if_neg h, if_neg h]
    rfl

omit [DecidableEq ι] in
theorem tight_empty : Tight (∅ : Index κ ι) := by
  intro k
  rw [Finmap.lookup_empty]
  exact some_ne_none _ ∘ Eq.symm

theorem Tight.addKey {index : Index κ ι} (h : Tight index) (k : κ) (i : ι) : Tight (addKey index k i) := by
  intro j hj
  rw [InvertedIndex.addKey, lookup_insert_eq] at hj
  split at hj
  · exact Finset.insert_ne_empty _ _ (some.inj hj)
  · exact h j hj

theorem Tight.removeKey {index : Index κ ι} (h : Tight index) (k : κ) (i : ι) : Tight (removeKey index k i) := by
  intro j hj
  rw [InvertedIndex.removeKey] at hj
  split at hj
  · rw [lookup_erase_eq] at hj
    split at hj
    · cases hj
    · exact h j hj
  · next hne =>
    rw [lookup_insert_eq] at hj
    split at hj
    · exact hne (some.inj hj)
    · exact h j hj

theorem posting_addKeys (ks : List κ) (i : ι) : ∀ (index : Index κ ι) (j : κ),
    posting (addKeys index ks i) j = if j ∈ ks then insert i (posting index j) else posting index j := by
  induction ks with
  | nil => intro index j; simp [addKeys]
  | cons k ks ih =>
    intro index j
    show posting (addKeys (addKey index k i) ks i) j = _
    rw [ih, posting_addKey]
    by_cases hk : j = k
    · by_cases hks : j ∈ ks <;> simp [hk]
    · simp [hk]

theorem posting_removeKeys (ks : List κ) (i : ι) : ∀ (index : Index κ ι) (j : κ),
    posting (removeKeys index ks i) j = if j ∈ ks then (posting index j).erase i else posting index j := by
  induction ks with
  | nil => intro index j; simp [removeKeys]
  | cons k ks ih =>
    intro index j
    show posting (removeKeys (removeKey index k i) ks i) j = _
    rw [ih, posting_removeKey]
    by_cases hk : j = k
    · by_cases hks : j ∈ ks <;> simp [hk]
    · simp [hk]

theorem Tight.addKeys {ks : List κ} {i : ι} : ∀ {index : Index κ ι}, Tight index → Tight (addKeys index ks i) := by
  induction ks with
  | nil => exact id
  | cons k ks ih => exact fun h => ih (h.addKey k i)

theorem Tight.removeKeys {ks : List κ} {i : ι} :
    ∀ {index : Index κ ι}, Tight index → Tight (removeKeys index ks i) := by
  induction ks with
  | nil => exact id
  | cons k ks ih => exact fun h => ih (h.removeKey k i)

theorem mem_posting_syncKeys (index : Index κ ι) (old new : List κ) (i j : ι) (k : κ) :
    j ∈ posting (syncKeys index old new i) k ↔
      if j = i then k ∈ new ∧ k ∉ old ∨ (k ∈ new ∨ k ∉ old) ∧ i ∈ posting index k else j ∈ posting index k := by
  simp only [syncKeys, posting_addKeys, posting_removeKeys, List.mem_filter, decide_eq_true_eq]
  by_cases hj : j = i
  · subst hj
    by_cases hnew : k ∈ new <;> by_cases hold : k ∈ old <;> simp [hnew, hold]
  · by_cases hnew : k ∈ new <;> by_cases hold : k ∈ old <;> simp [hj, hnew, hold]

theorem syncKeys_self (index : Index κ ι) (ks : List κ) (i : ι) : syncKeys index ks ks i = index := by
  have hnone : ks.filter (· ∉ ks) = [] := by
    rw [List.filter_eq_nil_iff]
    intro k hk
    simpa using hk
  rw [syncKeys, hnone]
  rfl

theorem syncKeys_nil_left (index : Index κ ι) (ks : List κ) (i : ι) : syncKeys index [] ks i = addKeys index ks i := by
  simp [syncKeys, removeKeys]

theorem syncKeys_nil_right (index : Index κ ι) (ks : List κ) (i : ι) :
    syncKeys index ks [] i = removeKeys index ks i := by
  simp [syncKeys, addKeys]

/-! ### Exact indexes -/

section
variable {keys : ι → α → List κ} {records : Table ι α} {index : Index κ ι}

/-- The index is the exact inverse of the records. -/
structure Inverse (keys : ι → α → List κ) (records : Table ι α) (index : Index κ ι) : Prop where
  mem : ∀ k i, i ∈ posting index k ↔ ∃ r, records.lookup i = some r ∧ k ∈ keys i r
  tight : Tight index

theorem Tight.lookup_eq (h : Tight index) (k : κ) :
    index.lookup k = if posting index k = ∅ then none else some (posting index k) := by
  rw [posting]
  cases hlook : index.lookup k with
  | none => rfl
  | some ids =>
    have hne : ids ≠ ∅ := fun hempty => h k (by rw [hlook, hempty])
    rw [getD_some, if_neg hne]

/-- **A table has one exact index.** -/
theorem Inverse.unique {index' : Index κ ι} (h : Inverse keys records index) (h' : Inverse keys records index') :
    index = index' := by
  have hposting : ∀ k, posting index k = posting index' k := by
    intro k
    ext i
    rw [h.mem, h'.mem]
  apply Finmap.ext_lookup
  intro k
  rw [h.tight.lookup_eq, h'.tight.lookup_eq, hposting]

theorem inverse_empty : Inverse keys (∅ : Table ι α) (∅ : Index κ ι) := by
  refine ⟨?_, tight_empty⟩
  intro k i
  simp [posting]

/-- The keys that a record has, none where there is no record. -/
def keysOf (keys : ι → α → List κ) (records : Table ι α) (i : ι) : List κ := ((records.lookup i).map (keys i)).getD []

omit [DecidableEq κ] in
theorem mem_keysOf {i : ι} {k : κ} : k ∈ keysOf keys records i ↔ ∃ r, records.lookup i = some r ∧ k ∈ keys i r := by
  rw [keysOf]
  cases records.lookup i with
  | none => simp
  | some r => simp

section
variable (h : Inverse keys records index)
include h

theorem Inverse.upsert (i : ι) (r : α) :
    Inverse keys (records.insert i r) (syncKeys index (keysOf keys records i) (keys i r) i) := by
  refine ⟨?_, h.tight.removeKeys.addKeys⟩
  intro k j
  rw [mem_posting_syncKeys]
  by_cases hj : j = i
  · subst hj
    rw [if_pos rfl, h.mem, ← mem_keysOf, Finmap.lookup_insert]
    simp only [Option.some.injEq, exists_eq_left']
    tauto
  · rw [if_neg hj, h.mem, lookup_insert_eq, if_neg hj]

theorem Inverse.delete (i : ι) : Inverse keys (records.erase i) (syncKeys index (keysOf keys records i) [] i) := by
  refine ⟨?_, h.tight.removeKeys.addKeys⟩
  intro k j
  rw [mem_posting_syncKeys]
  by_cases hj : j = i
  · subst hj
    rw [if_pos rfl, h.mem, ← mem_keysOf, Finmap.lookup_erase]
    simp
  · rw [if_neg hj, h.mem, lookup_erase_eq, if_neg hj]

theorem Inverse.put (i : ι) (x : Option α) :
    Inverse keys (put records i x) (syncKeys index (keysOf keys records i) ((x.map (keys i)).getD []) i) := by
  cases x with
  | none => exact h.delete i
  | some r => exact h.upsert i r

theorem Inverse.add {i : ι} (hi : records.lookup i = none) (r : α) :
    Inverse keys (records.insert i r) (addKeys index (keys i r) i) := by
  refine ⟨?_, h.tight.addKeys⟩
  intro k j
  rw [posting_addKeys, lookup_insert_eq]
  by_cases hj : j = i
  · subst hj
    rw [if_pos rfl]
    split
    · next hk => simp [hk]
    · next hk => simp [h.mem, hi, hk]
  · rw [if_neg hj, ← h.mem]
    split
    · simp [hj]
    · rfl
end

end

end Paprika.Lib.InvertedIndex
