import Mathlib.Data.List.Perm.Basic

/-!
# Semaphores and who holds their slots

A buffered channel that is only used to count: a send takes a slot, unless all are taken, and a receive gives one back.

* `Accounts` — as many slots are taken as processes hold one;
* `accounts_take`, `accounts_give`, `accounts_keep` — what one process does, the others standing still, keeps it;
* `countP_le` — of the holders there are no more than slots.
-/

namespace Paprika.Lib

open List

structure Semaphore where
  capacity : Nat
  length : Nat
  deriving DecidableEq

namespace Semaphore

variable {α : Type*} {s t : Semaphore} {holds : α → Bool} {ps : List α} {i : Nat} {a : α}

def make (capacity : Nat) : Semaphore := { capacity := capacity, length := 0 }

/-- A send that does not wait. -/
def take (s : Semaphore) : Option Semaphore :=
  if s.length < s.capacity then some { s with length := s.length + 1 } else none

/-- A receive, which waits for a slot that is taken. -/
def give (s : Semaphore) : Option Semaphore := if s.length = 0 then none else some { s with length := s.length - 1 }

theorem take_some (h : s.take = some t) : s.length < s.capacity ∧ t = { s with length := s.length + 1 } := by
  rw [take] at h
  split_ifs at h with hroom
  exact ⟨hroom, (Option.some.inj h).symm⟩

theorem give_some (h : s.give = some t) : s.length ≠ 0 ∧ t = { s with length := s.length - 1 } := by
  rw [give] at h
  split_ifs at h with hempty
  exact ⟨hempty, (Option.some.inj h).symm⟩

/-! ### Counting -/

section
variable (hi : i < ps.length)
include hi

theorem countP_keep (ha : holds a = holds ps[i]) : (ps.set i a).countP holds = ps.countP holds := by
  have hle := boole_getElem_le_countP (p := holds) hi
  rw [countP_set hi, ha]
  omega

theorem countP_gain (hold : holds ps[i] = false) (ha : holds a = true) :
    (ps.set i a).countP holds = ps.countP holds + 1 := by
  rw [countP_set hi, hold, ha]
  rfl

theorem countP_lose (hold : holds ps[i] = true) (ha : holds a = false) :
    (ps.set i a).countP holds = ps.countP holds - 1 := by
  rw [countP_set hi, hold, ha]
  rfl

theorem countP_pos (hold : holds ps[i] = true) : 0 < ps.countP holds :=
  countP_pos_iff.mpr ⟨ps[i], getElem_mem hi, hold⟩
end

theorem countP_concat (ha : holds a = false) : (ps ++ [a]).countP holds = ps.countP holds := by
  rw [countP_append, countP_cons_of_neg (by rw [ha]; decide)]
  rfl

theorem countP_eraseIdx (hi : i < ps.length) (hold : holds ps[i] = false) :
    (ps.eraseIdx i).countP holds = ps.countP holds := by
  have hperm := (getElem_cons_eraseIdx_perm hi).countP_eq holds
  rw [← hperm, countP_cons_of_neg (by rw [hold]; decide)]

/-! ### Accounts -/

/-- One slot is taken for each process that holds one, and no more than there are. -/
structure Accounts (s : Semaphore) (holds : α → Bool) (ps : List α) : Prop where
  exact : s.length = ps.countP holds
  bounded : s.length ≤ s.capacity

theorem accounts_make (capacity : Nat) (h : ∀ p ∈ ps, holds p = false) : (make capacity).Accounts holds ps := by
  refine ⟨?_, Nat.zero_le _⟩
  refine (countP_eq_zero.mpr ?_).symm
  intro p hp
  rw [h p hp]
  decide

section
variable (h : s.Accounts holds ps)
include h

theorem accounts_append (ha : holds a = false) : s.Accounts holds (ps ++ [a]) :=
  ⟨h.exact.trans (countP_concat ha).symm, h.bounded⟩

theorem accounts_keep (hi : i < ps.length) (ha : holds a = holds ps[i]) :
    s.Accounts holds (ps.set i a) := ⟨h.exact.trans (countP_keep hi ha).symm, h.bounded⟩

theorem accounts_take (hi : i < ps.length) (ht : s.take = some t) (hold : holds ps[i] = false)
    (ha : holds a = true) : t.Accounts holds (ps.set i a) := by
  obtain ⟨hroom, rfl⟩ := take_some ht
  refine ⟨?_, hroom⟩
  show s.length + 1 = _
  rw [countP_gain hi hold ha, h.exact]

theorem accounts_give (hi : i < ps.length) (ht : s.give = some t) (hold : holds ps[i] = true)
    (ha : holds a = false) : t.Accounts holds (ps.set i a) := by
  obtain ⟨-, rfl⟩ := give_some ht
  have hbounded := h.bounded
  refine ⟨?_, ?_⟩
  · show s.length - 1 = _
    rw [countP_lose hi hold ha, h.exact]
  · show s.length - 1 ≤ s.capacity
    omega

theorem give_isSome (hi : i < ps.length) (hold : holds ps[i] = true) : s.give.isSome = true := by
  have hpos := countP_pos hi hold
  have hexact := h.exact
  rw [give, if_neg (by omega)]
  rfl

theorem countP_le {p : α → Bool} (hp : ∀ a ∈ ps, p a = true → holds a = true) : ps.countP p ≤ s.capacity :=
  calc ps.countP p ≤ ps.countP holds := countP_mono_left hp
    _ = s.length := h.exact.symm
    _ ≤ s.capacity := h.bounded
end

end Semaphore

end Paprika.Lib
