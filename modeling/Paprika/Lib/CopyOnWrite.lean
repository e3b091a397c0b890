import Paprika.Lib.InvertedIndex

/-!
# Copy on write

A heap of tables and of inverted indexes whose tables and postings are shared, and an editing session that copies before
it writes.  The indexes come in a family `F`, each with its own type of keys, and so do the tables (`T`).  A session
clones a top-level table the first time it writes to it, and a posting the first time it changes it; afterwards it
writes in place.

* `Session.Owned` — what a session may write in place it has allocated itself, and no two postings share a cell;
* **`Session.Owned.view_base`** — whatever the session does, the heap it started from reads as before;
* **`Session.Owned.sync`**, **`Session.Owned.writeTable`** — seen from outside the session adds names to postings and
  takes them out, and changes tables.
-/

namespace Paprika.Lib.CopyOnWrite

open Function

set_option linter.unusedSectionVars false

open Lib.InvertedIndex

variable {F T κ ι : Type} {Key : F → Type} {Value : T → Type}

/-- Cells by their address; from `fresh` on they are unused. -/
structure Heap (Key : F → Type) (ι κ : Type) (Value : T → Type) where
  indexes : (f : F) → Nat → Table (Key f) Nat
  postings : Nat → Finset ι
  tables : (t : T) → Nat → Table κ (Value t)
  fresh : Nat

/-- The top-level cells of a version. -/
structure Refs (F T : Type) where
  index : F → Nat
  table : T → Nat

/-- What a version holds. -/
@[ext] structure Contents (Key : F → Type) (ι κ : Type) (Value : T → Type) where
  index : (f : F) → Index (Key f) ι
  table : (t : T) → Table κ (Value t)

section
variable [∀ f, DecidableEq (Key f)]

/-- What a version reads as. -/
def Heap.view (h : Heap Key ι κ Value) (r : Refs F T) : Contents Key ι κ Value :=
  { index := fun f => mapValues h.postings (h.indexes f (r.index f))
    table := fun t => h.tables t (r.table t) }

/-- Every cell of the version is allocated. -/
structure Heap.Allocated (h : Heap Key ι κ Value) (r : Refs F T) : Prop where
  index : ∀ f, r.index f < h.fresh
  table : ∀ t, r.table t < h.fresh
  postings : ∀ f k a, (h.indexes f (r.index f)).lookup k = some a → a < h.fresh
end

/-- An editing session. -/
structure Session (Key : F → Type) (ι κ : Type) (Value : T → Type) where
  heap : Heap Key ι κ Value
  refs : Refs F T
  tableCloned : T → Bool
  indexCloned : F → Bool
  touched : (f : F) → Finset (Key f)

section
variable [DecidableEq F] [DecidableEq T] [∀ f, DecidableEq (Key f)] [DecidableEq ι]

def Session.start (h : Heap Key ι κ Value) (r : Refs F T) : Session Key ι κ Value :=
  { heap := h, refs := r, tableCloned := fun _ => false, indexCloned := fun _ => false, touched := fun _ => ∅ }

namespace Session

variable (s : Session Key ι κ Value)

/-- Clone a table before the first write to it. -/
def ensureTable (t : T) : Session Key ι κ Value :=
  if s.tableCloned t then s
  else
    { s with
      heap := { s.heap with
        tables := Function.update s.heap.tables t
          (Function.update (s.heap.tables t) s.heap.fresh (s.heap.tables t (s.refs.table t)))
        fresh := s.heap.fresh + 1 }
      refs := { s.refs with table := Function.update s.refs.table t s.heap.fresh }
      tableCloned := Function.update s.tableCloned t true }

def writeTable (t : T) (g : Table κ (Value t) → Table κ (Value t)) : Session Key ι κ Value :=
  { s with heap := { s.heap with
      tables := Function.update s.heap.tables t
        (Function.update (s.heap.tables t) (s.refs.table t) (g (s.heap.tables t (s.refs.table t)))) } }

/-- Clone the top level of an index before the first write to it. -/
def ensureIndex (f : F) : Session Key ι κ Value :=
  if s.indexCloned f then s
  else
    { s with
      heap := { s.heap with
        indexes := Function.update s.heap.indexes f
          (Function.update (s.heap.indexes f) s.heap.fresh (s.heap.indexes f (s.refs.index f)))
        fresh := s.heap.fresh + 1 }
      refs := { s.refs with index := Function.update s.refs.index f s.heap.fresh }
      indexCloned := Function.update s.indexCloned f true }

/-- The cell of a posting. -/
def ref (p : Sigma Key) : Option Nat := (s.heap.indexes p.1 (s.refs.index p.1)).lookup p.2

/-- A new cell for a posting. -/
def alloc (ids : Finset ι) : Session Key ι κ Value :=
  { s with heap := { s.heap with
      postings := Function.update s.heap.postings s.heap.fresh ids, fresh := s.heap.fresh + 1 } }

/-- Change a posting in place. -/
def writePosting (a : Nat) (g : Finset ι → Finset ι) : Session Key ι κ Value :=
  { s with heap := { s.heap with postings := Function.update s.heap.postings a (g (s.heap.postings a)) } }

/-- Write to the top level of an index in place. -/
def writeIndex (f : F) (g : Table (Key f) Nat → Table (Key f) Nat) : Session Key ι κ Value :=
  { s with heap := { s.heap with
      indexes := Function.update s.heap.indexes f
        (Function.update (s.heap.indexes f) (s.refs.index f) (g (s.heap.indexes f (s.refs.index f)))) } }

/-- Clone a posting before the first change of it: the session and the cell to change, if there is one. -/
def claim (f : F) (k : Key f) : Session Key ι κ Value × Option Nat :=
  if k ∈ s.touched f then (s, s.ref ⟨f, k⟩)
  else
    ({ s.alloc (((s.ref ⟨f, k⟩).map s.heap.postings).getD ∅) with
        touched := Function.update s.touched f (insert k (s.touched f)) },
      some s.heap.fresh)

/-- Put a name in a posting, in a new cell if there is none yet. -/
def addTo (f : F) (k : Key f) (i : ι) : Option Nat → Session Key ι κ Value
  | some a => (s.writePosting a (insert i)).writeIndex f (fun m => m.insert k a)
  | none => ((s.alloc ∅).writePosting s.heap.fresh (insert i)).writeIndex f (fun m => m.insert k s.heap.fresh)

/-- Take a name out of a posting, and drop the posting if nothing is left. -/
def removeFrom (f : F) (k : Key f) (i : ι) : Option Nat → Session Key ι κ Value
  | some a =>
    let s := s.writePosting a (fun ids => ids.erase i)
    if s.heap.postings a = ∅ then s.writeIndex f (fun m => m.erase k) else s.writeIndex f (fun m => m.insert k a)
  | none => s.writeIndex f (fun m => m.erase k)

/-- Add a name to a posting or remove it. -/
def mutate (f : F) (k : Key f) (i : ι) (add : Bool) : Session Key ι κ Value :=
  let (s, cell) := (s.ensureIndex f).claim f k
  if add then s.addTo f k i cell else s.removeFrom f k i cell

/-- What the session has made of its version. -/
def view : Contents Key ι κ Value := s.heap.view s.refs

end Session
end

/-! ### What a session owns -/

section
variable [DecidableEq F] [DecidableEq T] [∀ f, DecidableEq (Key f)] [DecidableEq ι]
  {h : Heap Key ι κ Value} {s : Session Key ι κ Value} {P : Sigma Key → Prop}

/-- The session writes to cells of its own: it leaves every cell of the heap it started from alone, a touched posting is
in a new cell and an untouched one in an old cell, and no two postings share a new cell.  `P` says for which postings. -/
structure Session.Owned (h : Heap Key ι κ Value) (s : Session Key ι κ Value) (P : Sigma Key → Prop) : Prop where
  fresh : h.fresh ≤ s.heap.fresh
  framePostings : ∀ a < h.fresh, s.heap.postings a = h.postings a
  frameIndex : ∀ f, ∀ a < h.fresh, s.heap.indexes f a = h.indexes f a
  frameTable : ∀ t, ∀ a < h.fresh, s.heap.tables t a = h.tables t a
  table : ∀ t, s.refs.table t < s.heap.fresh ∧ (s.tableCloned t = true → h.fresh ≤ s.refs.table t)
  index : ∀ f, s.refs.index f < s.heap.fresh ∧ (s.indexCloned f = true → h.fresh ≤ s.refs.index f)
  untouched : ∀ f, s.indexCloned f = false → s.touched f = ∅
  cells : ∀ p, P p → ∀ a, s.ref p = some a → a < s.heap.fresh ∧ (p.2 ∈ s.touched p.1 ↔ h.fresh ≤ a)
  separate : ∀ p q, P p → P q → ∀ a, s.ref p = some a → s.ref q = some a → h.fresh ≤ a → p = q

def Session.seen (s : Session Key ι κ Value) (p : Sigma Key) : Option (Finset ι) := (s.ref p).map s.heap.postings

theorem lookup_view (s : Session Key ι κ Value) (f : F) (k : Key f) : (s.view.index f).lookup k = s.seen ⟨f, k⟩ := by
  rw [Session.view, Heap.view, lookup_mapValues]
  rfl

theorem owned_start {r : Refs F T} (hr : h.Allocated r) : (Session.start h r).Owned h (fun _ => True) where
  fresh := le_refl _
  framePostings _ _ := rfl
  frameIndex _ _ _ := rfl
  frameTable _ _ _ := rfl
  table t := ⟨hr.table t, fun hcloned => by cases hcloned⟩
  index f := ⟨hr.index f, fun hcloned => by cases hcloned⟩
  untouched _ _ := rfl
  cells p _ a ha := by
    have hlt : a < h.fresh := hr.postings p.1 p.2 a ha
    refine ⟨hlt, ?_⟩
    show p.2 ∈ (∅ : Finset (Key p.1)) ↔ h.fresh ≤ a
    simp only [Finset.notMem_empty, false_iff]
    omega
  separate p q _ _ a ha _ hle := by
    have hlt : a < h.fresh := hr.postings p.1 p.2 a ha
    omega

/-- **The heap that the session started from reads as before.** -/
theorem Session.Owned.view_base (hs : s.Owned h P) {r : Refs F T} (hr : h.Allocated r) : s.heap.view r = h.view r := by
  apply Contents.ext
  · funext f
    show mapValues s.heap.postings (s.heap.indexes f (r.index f)) = mapValues h.postings (h.indexes f (r.index f))
    rw [hs.frameIndex f _ (hr.index f)]
    apply mapValues_congr
    intro k a ha
    exact hs.framePostings a (hr.postings f k a ha)
  · funext t
    exact hs.frameTable t _ (hr.table t)

/-! ### Tables -/

theorem Session.Owned.ensureTable (hs : s.Owned h P) (t : T) :
    (s.ensureTable t).Owned h P ∧ (s.ensureTable t).view = s.view ∧ (s.ensureTable t).tableCloned t = true := by
  rw [Session.ensureTable]
  split
  · next hcloned => exact ⟨hs, rfl, hcloned⟩
  refine ⟨⟨Nat.le_succ_of_le hs.fresh, hs.framePostings, hs.frameIndex, ?_, ?_, ?_, hs.untouched, ?_, hs.separate⟩, ?_, ?_⟩
  · intro t' a ha
    show update s.heap.tables t _ t' a = _
    have hne : a ≠ s.heap.fresh := by
      have := hs.fresh
      omega
    by_cases ht : t' = t
    · subst ht
      rw [update_self, update_of_ne hne]
      exact hs.frameTable t' a ha
    · rw [update_of_ne ht]
      exact hs.frameTable t' a ha
  · intro t'
    obtain ⟨hlt, howned⟩ := hs.table t'
    show update s.refs.table t s.heap.fresh t' < s.heap.fresh + 1 ∧
      (update s.tableCloned t true t' = true → h.fresh ≤ update s.refs.table t s.heap.fresh t')
    by_cases ht : t' = t
    · subst ht
      rw [update_self, update_self]
      exact ⟨Nat.lt_succ_self _, fun _ => hs.fresh⟩
    · rw [update_of_ne ht, update_of_ne ht]
      exact ⟨by omega, howned⟩
  · intro f
    obtain ⟨hlt, howned⟩ := hs.index f
    exact ⟨Nat.lt_succ_of_lt hlt, howned⟩
  · intro p hp a ha
    obtain ⟨hlt, htouch⟩ := hs.cells p hp a ha
    exact ⟨Nat.lt_succ_of_lt hlt, htouch⟩
  · apply Contents.ext
    · rfl
    funext t'
    show update s.heap.tables t _ t' (update s.refs.table t s.heap.fresh t') =
      s.heap.tables t' (s.refs.table t')
    by_cases ht : t' = t
    · subst ht
      rw [update_self, update_self, update_self]
    · rw [update_of_ne ht, update_of_ne ht]
  · exact update_self ..

theorem Session.Owned.writeTable (hs : s.Owned h P) {t : T} (hcloned : s.tableCloned t = true)
    (g : Table κ (Value t) → Table κ (Value t)) :
    (s.writeTable t g).Owned h P ∧
      (s.writeTable t g).view = { s.view with table := Function.update s.view.table t (g (s.view.table t)) } := by
  have hle := (hs.table t).2 hcloned
  refine ⟨⟨hs.fresh, hs.framePostings, hs.frameIndex, ?_, hs.table, hs.index, hs.untouched, hs.cells, hs.separate⟩, ?_⟩
  · intro t' a ha
    show update s.heap.tables t _ t' a = _
    have hne : a ≠ s.refs.table t := by omega
    by_cases ht : t' = t
    · subst ht
      rw [update_self, update_of_ne hne]
      exact hs.frameTable t' a ha
    · rw [update_of_ne ht]
      exact hs.frameTable t' a ha
  · apply Contents.ext
    · rfl
    funext t'
    show update s.heap.tables t _ t' (s.refs.table t') = update s.view.table t _ t'
    by_cases ht : t' = t
    · subst ht
      rw [update_self, update_self, update_self]
      rfl
    · rw [update_of_ne ht, update_of_ne ht]
      rfl

/-! ### Postings -/

theorem Session.Owned.ensureIndex (hs : s.Owned h P) (f : F) :
    (s.ensureIndex f).Owned h P ∧ (s.ensureIndex f).view = s.view ∧ (s.ensureIndex f).indexCloned f = true := by
  rw [Session.ensureIndex]
  split
  · next hcloned => exact ⟨hs, rfl, hcloned⟩
  have href : ∀ f', update s.heap.indexes f
      (update (s.heap.indexes f) s.heap.fresh (s.heap.indexes f (s.refs.index f))) f'
        (update s.refs.index f s.heap.fresh f') = s.heap.indexes f' (s.refs.index f') := by
    intro f'
    by_cases hf : f' = f
    · subst hf
      rw [update_self, update_self, update_self]
    · rw [update_of_ne hf, update_of_ne hf]
  refine ⟨⟨Nat.le_succ_of_le hs.fresh, hs.framePostings, ?_, hs.frameTable, ?_, ?_, ?_, ?_, ?_⟩, ?_, ?_⟩
  · intro f' a ha
    show update s.heap.indexes f _ f' a = _
    have hne : a ≠ s.heap.fresh := by
      have := hs.fresh
      omega
    by_cases hf : f' = f
    · subst hf
      rw [update_self, update_of_ne hne]
      exact hs.frameIndex f' a ha
    · rw [update_of_ne hf]
      exact hs.frameIndex f' a ha
  · intro t
    obtain ⟨hlt, howned⟩ := hs.table t
    exact ⟨Nat.lt_succ_of_lt hlt, howned⟩
  · intro f'
    obtain ⟨hlt, howned⟩ := hs.index f'
    show update s.refs.index f s.heap.fresh f' < s.heap.fresh + 1 ∧
      (update s.indexCloned f true f' = true → h.fresh ≤ update s.refs.index f s.heap.fresh f')
    by_cases hf : f' = f
    · subst hf
      rw [update_self, update_self]
      exact ⟨Nat.lt_succ_self _, fun _ => hs.fresh⟩
    · rw [update_of_ne hf, update_of_ne hf]
      exact ⟨by omega, howned⟩
  · intro f' hnot
    have hnot' : update s.indexCloned f true f' = false := hnot
    by_cases hf : f' = f
    · subst hf
      rw [update_self] at hnot'
      cases hnot'
    · rw [update_of_ne hf] at hnot'
      exact hs.untouched f' hnot'
  · intro p hp a ha
    obtain ⟨hlt, htouch⟩ := hs.cells p hp a ((congrArg (Finmap.lookup p.2) (href p.1)).symm.trans ha)
    exact ⟨Nat.lt_succ_of_lt hlt, htouch⟩
  · intro p q hp hq a ha hb
    exact hs.separate p q hp hq a ((congrArg (Finmap.lookup p.2) (href p.1)).symm.trans ha)
      ((congrArg (Finmap.lookup q.2) (href q.1)).symm.trans hb)
  · apply Contents.ext
    · funext f'
      exact congrArg (mapValues s.heap.postings) (href f')
    · rfl
  · exact update_self ..

theorem ref_writeIndex (s : Session Key ι κ Value) (f : F) (g : Table (Key f) Nat → Table (Key f) Nat) (p : Sigma Key) :
    (s.writeIndex f g).ref p =
      if hf : p.1 = f then (g (s.heap.indexes f (s.refs.index f))).lookup (hf ▸ p.2) else s.ref p := by
  obtain ⟨f', k⟩ := p
  show Finmap.lookup k (update s.heap.indexes f _ f' (s.refs.index f')) = _
  by_cases hf : f' = f
  · subst hf
    rw [update_self, update_self, dif_pos rfl]
  · rw [update_of_ne hf, dif_neg hf]
    rfl

theorem ref_change (s : Session Key ι κ Value) {f : F} {k : Key f} {g : Table (Key f) Nat → Table (Key f) Nat}
    {a : Option Nat} (hg : ∀ m j, (g m).lookup j = if j = k then a else m.lookup j) (p : Sigma Key) :
    (s.writeIndex f g).ref p = if p = ⟨f, k⟩ then a else s.ref p := by
  obtain ⟨f', j⟩ := p
  rw [ref_writeIndex]
  by_cases hf : f' = f
  · subst hf
    rw [dif_pos rfl, hg]
    by_cases hj : j = k
    · rw [if_pos hj, hj, if_pos rfl]
    · rw [if_neg hj, if_neg (fun heq => hj (by cases heq; rfl))]
      rfl
  · rw [dif_neg hf, if_neg (fun heq => hf (congrArg Sigma.fst heq))]

theorem ref_link (s : Session Key ι κ Value) (f : F) (k : Key f) (a : Nat) (p : Sigma Key) :
    (s.writeIndex f (fun m => m.insert k a)).ref p = if p = ⟨f, k⟩ then some a else s.ref p :=
  ref_change s (fun m j => lookup_insert_eq m k j a) p

theorem ref_unlink (s : Session Key ι κ Value) (f : F) (k : Key f) (p : Sigma Key) :
    (s.writeIndex f (fun m => m.erase k)).ref p = if p = ⟨f, k⟩ then none else s.ref p :=
  ref_change s (fun m j => lookup_erase_eq m k j) p
end

section
variable [DecidableEq F] [DecidableEq T] [∀ f, DecidableEq (Key f)] [DecidableEq ι]
  {h : Heap Key ι κ Value} {s : Session Key ι κ Value} {f : F} {k : Key f} {a : Nat}

/-- The session may change the posting in this cell in place: it is a new one, and no other posting is in it. -/
structure Session.Free (h : Heap Key ι κ Value) (s : Session Key ι κ Value) (p : Sigma Key) (a : Nat) : Prop where
  new : h.fresh ≤ a
  allocated : a < s.heap.fresh
  alone : ∀ q, q ≠ p → s.ref q ≠ some a

/-- The session while it changes one posting, which it has already taken for touched. -/
structure Session.Claiming (h : Heap Key ι κ Value) (s : Session Key ι κ Value) (f : F) (k : Key f) : Prop where
  owned : s.Owned h (fun q => q ≠ ⟨f, k⟩)
  cloned : s.indexCloned f = true
  touched : k ∈ s.touched f

theorem Session.Claiming.alloc (hs : s.Claiming h f k) (ids : Finset ι) :
    (s.alloc ids).Claiming h f k ∧ (s.alloc ids).Free h ⟨f, k⟩ s.heap.fresh ∧
      (s.alloc ids).heap.postings s.heap.fresh = ids ∧
      ∀ q, q ≠ ⟨f, k⟩ → (s.alloc ids).seen q = s.seen q := by
  have hown := hs.owned
  have hnot : ∀ q, q ≠ ⟨f, k⟩ → s.ref q ≠ some s.heap.fresh := by
    intro q hq href
    have := (hown.cells q hq _ href).1
    omega
  refine ⟨⟨⟨Nat.le_succ_of_le hown.fresh, ?_, hown.frameIndex, hown.frameTable, ?_, ?_, hown.untouched, ?_,
    hown.separate⟩, hs.cloned, hs.touched⟩, ⟨hown.fresh, Nat.lt_succ_self _, hnot⟩, update_self .., ?_⟩
  · intro a ha
    have hne : a ≠ s.heap.fresh := by
      have := hown.fresh
      omega
    show update s.heap.postings s.heap.fresh ids a = _
    rw [update_of_ne hne]
    exact hown.framePostings a ha
  · intro t
    obtain ⟨hlt, howned⟩ := hown.table t
    exact ⟨Nat.lt_succ_of_lt hlt, howned⟩
  · intro f'
    obtain ⟨hlt, howned⟩ := hown.index f'
    exact ⟨Nat.lt_succ_of_lt hlt, howned⟩
  · intro q hq a ha
    obtain ⟨hlt, htouch⟩ := hown.cells q hq a ha
    exact ⟨Nat.lt_succ_of_lt hlt, htouch⟩
  · intro q hq
    show (s.ref q).map (update s.heap.postings s.heap.fresh ids) = (s.ref q).map s.heap.postings
    cases href : s.ref q with
    | none => rfl
    | some a =>
      have hne : a ≠ s.heap.fresh := fun heq => hnot q hq (heq ▸ href)
      exact congrArg some (update_of_ne hne ..)

theorem Session.Claiming.writePosting (hs : s.Claiming h f k) (ha : s.Free h ⟨f, k⟩ a) (g : Finset ι → Finset ι) :
    (s.writePosting a g).Claiming h f k ∧ (s.writePosting a g).Free h ⟨f, k⟩ a ∧
      (s.writePosting a g).heap.postings a = g (s.heap.postings a) ∧
      ∀ q, q ≠ ⟨f, k⟩ → (s.writePosting a g).seen q = s.seen q := by
  have hown := hs.owned
  refine ⟨⟨⟨hown.fresh, ?_, hown.frameIndex, hown.frameTable, hown.table, hown.index, hown.untouched, hown.cells,
    hown.separate⟩, hs.cloned, hs.touched⟩, ⟨ha.new, ha.allocated, ha.alone⟩, update_self .., ?_⟩
  · intro b hb
    have hne : b ≠ a := by
      have := ha.new
      omega
    show update s.heap.postings a _ b = _
    rw [update_of_ne hne]
    exact hown.framePostings b hb
  · intro q hq
    show (s.ref q).map (update s.heap.postings a _) = (s.ref q).map s.heap.postings
    cases href : s.ref q with
    | none => rfl
    | some b =>
      have hne : b ≠ a := fun heq => ha.alone q hq (heq ▸ href)
      exact congrArg some (update_of_ne hne ..)

theorem Session.Claiming.finish (hs : s.Claiming h f k) {g : Table (Key f) Nat → Table (Key f) Nat} {new : Option Nat}
    (href : ∀ q, (s.writeIndex f g).ref q = if q = ⟨f, k⟩ then new else s.ref q)
    (hnew : ∀ a, new = some a → s.Free h ⟨f, k⟩ a) :
    (s.writeIndex f g).Owned h (fun _ => True) ∧
      ∀ q, (s.writeIndex f g).seen q = if q = ⟨f, k⟩ then new.map s.heap.postings else s.seen q := by
  have hown := hs.owned
  refine ⟨⟨hown.fresh, hown.framePostings, ?_, hown.frameTable, hown.table, hown.index, hown.untouched, ?_, ?_⟩, ?_⟩
  · intro f' a ha
    have hle := (hown.index f).2 hs.cloned
    have hne : a ≠ s.refs.index f := by omega
    show update s.heap.indexes f _ f' a = _
    by_cases hf : f' = f
    · subst hf
      rw [update_self, update_of_ne hne]
      exact hown.frameIndex f' a ha
    · rw [update_of_ne hf]
      exact hown.frameIndex f' a ha
  · intro q _ a ha
    rw [href] at ha
    by_cases hq : q = ⟨f, k⟩
    · rw [if_pos hq] at ha
      subst hq
      have hfree := hnew a ha
      exact ⟨hfree.allocated, fun _ => hfree.new, fun _ => hs.touched⟩
    · rw [if_neg hq] at ha
      exact hown.cells q hq a ha
  · intro p q _ _ a hp hq hle
    rw [href] at hp hq
    by_cases hp' : p = ⟨f, k⟩
    · by_cases hq' : q = ⟨f, k⟩
      · rw [hp', hq']
      · rw [if_pos hp'] at hp
        rw [if_neg hq'] at hq
        exact absurd hq ((hnew a hp).alone q hq')
    rw [if_neg hp'] at hp
    by_cases hq' : q = ⟨f, k⟩
    · rw [if_pos hq'] at hq
      exact absurd hp ((hnew a hq).alone p hp')
    · rw [if_neg hq'] at hq
      exact hown.separate p q hp' hq' a hp hq hle
  · intro q
    rw [Session.seen, href]
    split <;> rfl

/-- Claiming a posting gives a cell of its own that holds it, or none if it is empty. -/
theorem Session.Owned.claim (hs : s.Owned h (fun _ => True)) (hcloned : s.indexCloned f = true) :
    (s.claim f k).1.Claiming h f k ∧
      (∀ q, q ≠ ⟨f, k⟩ → (s.claim f k).1.seen q = s.seen q) ∧ (s.claim f k).1.view.table = s.view.table ∧
      (∀ a, (s.claim f k).2 = some a →
        (s.claim f k).1.Free h ⟨f, k⟩ a ∧ (s.claim f k).1.heap.postings a = (s.seen ⟨f, k⟩).getD ∅) ∧
      ((s.claim f k).2 = none → s.seen ⟨f, k⟩ = none) := by
  have hbut : s.Owned h (fun q => q ≠ ⟨f, k⟩) :=
    { hs with
      cells := fun q _ => hs.cells q trivial
      separate := fun p q _ _ => hs.separate p q trivial trivial }
  rw [Session.claim]
  by_cases htouch : k ∈ s.touched f
  · rw [if_pos htouch]
    refine ⟨⟨hbut, hcloned, htouch⟩, fun _ _ => rfl, rfl, ?_, ?_⟩
    · intro a ha
      obtain ⟨hlt, hiff⟩ := hs.cells ⟨f, k⟩ trivial a ha
      have hnew := hiff.mp htouch
      refine ⟨⟨hnew, hlt, ?_⟩, ?_⟩
      · intro q hq href
        exact hq (hs.separate q ⟨f, k⟩ trivial trivial a href ha hnew)
      · have ha' : s.ref ⟨f, k⟩ = some a := ha
        rw [Session.seen, ha']
        rfl
    · intro hnone
      have hnone' : s.ref ⟨f, k⟩ = none := hnone
      rw [Session.seen, hnone']
      rfl
  · rw [if_neg htouch]
    -- take the posting for touched first, then allocate its clone
    have hmark : ({ s with touched := update s.touched f (insert k (s.touched f)) } :
        Session Key ι κ Value).Claiming h f k := by
      refine ⟨{ hbut with untouched := ?_, cells := ?_ }, hcloned, ?_⟩
      · intro f' hnot
        have hne : f' ≠ f := by
          intro heq
          rw [heq] at hnot
          exact absurd (hcloned.symm.trans hnot) (by decide)
        show update s.touched f _ f' = ∅
        rw [update_of_ne hne]
        exact hs.untouched f' hnot
      · intro q hq a ha
        obtain ⟨hlt, hiff⟩ := hs.cells q trivial a ha
        refine ⟨hlt, ?_⟩
        rw [← hiff]
        obtain ⟨f', j⟩ := q
        show j ∈ update s.touched f _ f' ↔ j ∈ s.touched f'
        by_cases hf : f' = f
        · subst hf
          rw [update_self, Finset.mem_insert]
          have hj : j ≠ k := fun heq => hq (by rw [heq])
          simp [hj]
        · rw [update_of_ne hf]
      · show k ∈ update s.touched f _ f
        rw [update_self]
        exact Finset.mem_insert_self k _
    obtain ⟨hclaiming, hfree, hcont, hseen⟩ := hmark.alloc (((s.ref ⟨f, k⟩).map s.heap.postings).getD ∅)
    refine ⟨hclaiming, hseen, rfl, ?_, ?_⟩
    · intro a ha
      cases ha
      exact ⟨hfree, hcont⟩
    · intro hnone
      cases hnone

/-- What a posting becomes. -/
def changed (add : Bool) (i : ι) (old : Option (Finset ι)) : Option (Finset ι) :=
  if add then some (insert i (old.getD ∅))
  else if (old.getD ∅).erase i = ∅ then none else some ((old.getD ∅).erase i)

/-- **Adding and removing keeps to the session's own cells, and changes one posting.** -/
theorem Session.Owned.mutate (hs : s.Owned h (fun _ => True)) (f : F) (k : Key f) (i : ι) (add : Bool) :
    (s.mutate f k i add).Owned h (fun _ => True) ∧ (s.mutate f k i add).view.table = s.view.table ∧
      ∀ q, (s.mutate f k i add).seen q = if q = ⟨f, k⟩ then changed add i (s.seen q) else s.seen q := by
  obtain ⟨hensured, hview, hcloned⟩ := hs.ensureIndex f
  have hsame : ∀ q, (s.ensureIndex f).seen q = s.seen q := by
    intro q
    rw [← lookup_view, ← lookup_view, hview]
  obtain ⟨hclaim, hother, htable, hsome, hnone⟩ := hensured.claim hcloned (k := k)
  rw [hsame] at hsome hnone
  have htable' : ((s.ensureIndex f).claim f k).1.view.table = s.view.table := htable.trans (by rw [hview])
  have hother' : ∀ q, q ≠ ⟨f, k⟩ → ((s.ensureIndex f).claim f k).1.seen q = s.seen q :=
    fun q hq => (hother q hq).trans (hsame q)
  rw [Session.mutate]
  generalize (s.ensureIndex f).claim f k = claimed at hclaim htable' hother' hsome hnone
  obtain ⟨c, cell⟩ := claimed
  cases add with
  | true =>
    cases cell with
    | some a =>
      obtain ⟨hfree, hold⟩ := hsome a rfl
      obtain ⟨hwrite, hfree', hcont, hseen⟩ := hclaim.writePosting hfree (insert i)
      obtain ⟨howned, hres⟩ := hwrite.finish (ref_link _ f k a) (by intro b hb; cases hb; exact hfree')
      refine ⟨howned, htable', ?_⟩
      intro q
      refine (hres q).trans ?_
      by_cases hq : q = ⟨f, k⟩
      · rw [if_pos hq, if_pos hq, hq, changed, if_pos rfl, ← hold]
        exact congrArg some hcont
      · rw [if_neg hq, if_neg hq, hseen q hq, hother' q hq]
    | none =>
      obtain ⟨halloc, hfree, hempty, hseen⟩ := hclaim.alloc ∅
      obtain ⟨hwrite, hfree', hcont, hseen'⟩ := halloc.writePosting hfree (insert i)
      obtain ⟨howned, hres⟩ := hwrite.finish (ref_link _ f k _) (by intro b hb; cases hb; exact hfree')
      refine ⟨howned, htable', ?_⟩
      intro q
      refine (hres q).trans ?_
      by_cases hq : q = ⟨f, k⟩
      · rw [if_pos hq, if_pos hq, hq, changed, if_pos rfl, hnone rfl]
        exact congrArg some (hcont.trans (by rw [hempty]; rfl))
      · rw [if_neg hq, if_neg hq, hseen' q hq, hseen q hq, hother' q hq]
  | false =>
    cases cell with
    | some a =>
      obtain ⟨hfree, hold⟩ := hsome a rfl
      obtain ⟨hwrite, hfree', hcont, hseen⟩ := hclaim.writePosting hfree (fun ids => ids.erase i)
      rw [hold] at hcont
      show (Session.removeFrom c f k i (some a)).Owned h (fun _ => True) ∧
        (Session.removeFrom c f k i (some a)).view.table = s.view.table ∧
        ∀ q, (Session.removeFrom c f k i (some a)).seen q =
          if q = ⟨f, k⟩ then changed false i (s.seen q) else s.seen q
      rw [Session.removeFrom, hcont]
      by_cases hempty : ((s.seen ⟨f, k⟩).getD ∅).erase i = ∅
      · obtain ⟨howned, hres⟩ := hwrite.finish (ref_unlink _ f k) (by intro b hb; cases hb)
        rw [if_pos hempty]
        refine ⟨howned, htable', ?_⟩
        intro q
        refine (hres q).trans ?_
        by_cases hq : q = ⟨f, k⟩
        · rw [if_pos hq, if_pos hq, hq, changed, if_neg (by decide), if_pos hempty]
          rfl
        · rw [if_neg hq, if_neg hq, hseen q hq, hother' q hq]
      · obtain ⟨howned, hres⟩ := hwrite.finish (ref_link _ f k a) (by intro b hb; cases hb; exact hfree')
        rw [if_neg hempty]
        refine ⟨howned, htable', ?_⟩
        intro q
        refine (hres q).trans ?_
        by_cases hq : q = ⟨f, k⟩
        · rw [if_pos hq, if_pos hq, hq, changed, if_neg (by decide), if_neg hempty]
          exact congrArg some hcont
        · rw [if_neg hq, if_neg hq, hseen q hq, hother' q hq]
    | none =>
      obtain ⟨howned, hres⟩ := hclaim.finish (ref_unlink _ f k) (by intro b hb; cases hb)
      refine ⟨howned, htable', ?_⟩
      intro q
      refine (hres q).trans ?_
      by_cases hq : q = ⟨f, k⟩
      · rw [if_pos hq, if_pos hq, hq, hnone rfl]
        rfl
      · rw [if_neg hq, if_neg hq, hother' q hq]

theorem lookup_changed (index : Index (Key f) ι) (k j : Key f) (i : ι) (add : Bool) :
    (if add then addKey index k i else removeKey index k i).lookup j =
      if j = k then changed add i (index.lookup j) else index.lookup j := by
  cases add with
  | true =>
    rw [if_pos rfl, addKey, lookup_insert_eq]
    by_cases hj : j = k
    · rw [if_pos hj, if_pos hj, hj]
      rfl
    · rw [if_neg hj, if_neg hj]
  | false =>
  simp only [Bool.false_eq_true, if_false, removeKey, changed]
  by_cases hj : j = k
  · rw [if_pos hj, hj, posting]
    by_cases hempty : ((index.lookup k).getD ∅).erase i = ∅
    · rw [if_pos hempty, if_pos hempty, Finmap.lookup_erase]
    · rw [if_neg hempty, if_neg hempty, Finmap.lookup_insert]
  · rw [if_neg hj]
    by_cases hempty : (posting index k).erase i = ∅
    · rw [if_pos hempty, Finmap.lookup_erase_ne hj]
    · rw [if_neg hempty, Finmap.lookup_insert_of_ne _ hj]

theorem tableCloned_mutate (s : Session Key ι κ Value) (f : F) (k : Key f) (i : ι) (add : Bool) :
    (s.mutate f k i add).tableCloned = s.tableCloned := by
  have hensure : (s.ensureIndex f).tableCloned = s.tableCloned := by
    rw [Session.ensureIndex]
    split <;> rfl
  have hclaim : ((s.ensureIndex f).claim f k).1.tableCloned = s.tableCloned := by
    rw [Session.claim]
    split
    · exact hensure
    · exact hensure
  rw [Session.mutate]
  generalize (s.ensureIndex f).claim f k = claimed at hclaim
  obtain ⟨c, cell⟩ := claimed
  cases add with
  | true => cases cell <;> exact hclaim
  | false =>
  cases cell with
  | none => exact hclaim
  | some a =>
  show (Session.removeFrom c f k i (some a)).tableCloned = s.tableCloned
  rw [Session.removeFrom]
  split
  · exact hclaim
  · exact hclaim

theorem Session.Owned.view_mutate (hs : s.Owned h (fun _ => True)) (f : F) (k : Key f) (i : ι) (add : Bool) :
    (s.mutate f k i add).view = { s.view with
      index := Function.update s.view.index f
        (if add then addKey (s.view.index f) k i else removeKey (s.view.index f) k i) } := by
  obtain ⟨-, htable, hseen⟩ := hs.mutate f k i add
  apply Contents.ext
  · funext f'
    apply Finmap.ext_lookup
    intro j
    rw [lookup_view, hseen]
    show _ = Finmap.lookup j (update s.view.index f _ f')
    by_cases hf : f' = f
    · subst hf
      rw [update_self, lookup_changed, lookup_view]
      by_cases hj : j = k
      · rw [if_pos hj, if_pos (by rw [hj])]
      · rw [if_neg hj, if_neg (fun heq => hj (by cases heq; rfl))]
    · rw [update_of_ne hf, if_neg (fun heq => hf (congrArg Sigma.fst heq)), ← lookup_view]
  · exact htable
end

section
variable [DecidableEq F] [DecidableEq T] [∀ f, DecidableEq (Key f)] [DecidableEq ι] {h : Heap Key ι κ Value}

/-- Add a name to some postings of an index, or take it out of them. -/
def Session.mutateAll (s : Session Key ι κ Value) (f : F) (ks : List (Key f)) (i : ι) (add : Bool) :
    Session Key ι κ Value :=
  ks.foldl (fun s k => s.mutate f k i add) s

theorem Session.Owned.mutateAll (f : F) (ks : List (Key f)) (i : ι) (add : Bool) :
    ∀ {s : Session Key ι κ Value}, s.Owned h (fun _ => True) → (s.mutateAll f ks i add).Owned h (fun _ => True) ∧
      (s.mutateAll f ks i add).view = { s.view with
        index := Function.update s.view.index f
          (if add then addKeys (s.view.index f) ks i else removeKeys (s.view.index f) ks i) } := by
  induction ks with
  | nil =>
    intro s hs
    refine ⟨hs, ?_⟩
    apply Contents.ext
    · show s.view.index = update s.view.index f _
      cases add with
      | true => exact (update_eq_self f s.view.index).symm
      | false => exact (update_eq_self f s.view.index).symm
    · rfl
  | cons k ks ih =>
    intro s hs
    obtain ⟨howned, hview⟩ := ih (hs.mutate f k i add).1
    refine ⟨howned, ?_⟩
    show ((s.mutate f k i add).mutateAll f ks i add).view = _
    rw [hview, hs.view_mutate]
    apply Contents.ext
    · show update (update s.view.index f _) f _ = update s.view.index f _
      rw [update_idem]
      congr 1
      cases add with
      | true =>
        simp only [update_self, if_true]
        rfl
      | false =>
        simp only [update_self, Bool.false_eq_true, if_false]
        rfl
    · rfl

theorem tableCloned_mutateAll (f : F) (ks : List (Key f)) (i : ι) (add : Bool) :
    ∀ s : Session Key ι κ Value, (s.mutateAll f ks i add).tableCloned = s.tableCloned := by
  induction ks with
  | nil => exact fun _ => rfl
  | cons k ks ih => exact fun s => (ih (s.mutate f k i add)).trans (tableCloned_mutate s f k i add)

/-- Leave the postings of the keys that are gone, and enter those of the new ones. -/
def Session.sync (s : Session Key ι κ Value) (f : F) (old new : List (Key f)) (i : ι) : Session Key ι κ Value :=
  (s.mutateAll f (old.filter (· ∉ new)) i false).mutateAll f (new.filter (· ∉ old)) i true

theorem Session.Owned.sync {s : Session Key ι κ Value} (hs : s.Owned h (fun _ => True)) (f : F)
    (old new : List (Key f)) (i : ι) : (s.sync f old new i).Owned h (fun _ => True) ∧
      (s.sync f old new i).view = { s.view with
        index := Function.update s.view.index f (syncKeys (s.view.index f) old new i) } := by
  obtain ⟨hremove, hview⟩ := hs.mutateAll f (old.filter (· ∉ new)) i false
  obtain ⟨hadded, hview'⟩ := hremove.mutateAll f (new.filter (· ∉ old)) i true
  refine ⟨hadded, hview'.trans ?_⟩
  rw [hview]
  apply Contents.ext
  · show update (update s.view.index f _) f _ = update s.view.index f _
    rw [update_idem]
    simp only [update_self, if_true, Bool.false_eq_true, if_false]
    rfl
  · rfl

theorem tableCloned_sync (s : Session Key ι κ Value) (f : F) (old new : List (Key f)) (i : ι) :
    (s.sync f old new i).tableCloned = s.tableCloned :=
  (tableCloned_mutateAll f _ i true _).trans (tableCloned_mutateAll f _ i false s)
end

end Paprika.Lib.CopyOnWrite
