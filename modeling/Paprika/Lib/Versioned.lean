import Mathlib.Data.List.Basic

/-!
# Versioned objects

An object as an API server keeps it: every write makes a new version, a reader may get an old one, and an update names
the version it was made from and is refused when there is a newer one.

* `Versioned.Holds` — a copy is one of the versions, and no write takes that from it;
* **`Versioned.Holds.eq_current`** — the copy that an update goes through with is the current version.
-/

namespace Paprika.Lib

/-- All versions, the past ones newest first. -/
structure Versioned (α : Type*) where
  current : α
  past : List α

/-- A version as a reader keeps it. -/
structure Copy (α : Type*) where
  version : Nat
  value : α

namespace Versioned

variable {α : Type*} {s : Versioned α} {c : Copy α} {a : α}

/-- An object that has just been created. -/
def create (a : α) : Versioned α := { current := a, past := [] }

/-- The number of the current version. -/
def version (s : Versioned α) : Nat := s.past.length

def versions (s : Versioned α) : List α := s.current :: s.past

/-- A read that is `behind` versions old; where there is none as old as that, the current version. -/
def read (s : Versioned α) (behind : Nat) : Copy α :=
  match s.versions[behind]? with
  | some a => { version := s.version - behind, value := a }
  | none => { version := s.version, value := s.current }

def write (s : Versioned α) (a : α) : Versioned α := { current := a, past := s.current :: s.past }

def update (s : Versioned α) (c : Copy α) (a : α) : Versioned α := if c.version = s.version then s.write a else s

@[simp] theorem current_write : (s.write a).current = a := rfl

theorem update_eq (h : c.version = s.version) : s.update c a = s.write a := by
  unfold update
  rw [if_pos h]

theorem update_ne (h : c.version ≠ s.version) : s.update c a = s := by
  unfold update
  rw [if_neg h]

theorem mem_versions_update {b : α} (h : b ∈ (s.update c a).versions) :
    b ∈ s.versions ∨ (b = a ∧ c.version = s.version) := by
  by_cases hver : c.version = s.version
  · rw [update_eq hver] at h
    obtain rfl | h := List.mem_cons.mp h
    · exact .inr ⟨rfl, hver⟩
    · exact .inl h
  · rw [update_ne hver] at h
    exact .inl h

def Holds (s : Versioned α) (c : Copy α) : Prop :=
  ∃ behind, s.versions[behind]? = some c.value ∧ c.version + behind = s.version

theorem holds_read (s : Versioned α) (behind : Nat) : s.Holds (s.read behind) := by
  unfold read
  split
  · next a ha =>
    have hlt : behind < s.versions.length := (List.getElem?_eq_some_iff.mp ha).1
    have hle : behind ≤ s.version := by
      rw [versions, List.length_cons] at hlt
      exact Nat.le_of_lt_succ hlt
    refine ⟨behind, ha, ?_⟩
    show s.version - behind + behind = s.version
    omega
  · exact ⟨0, rfl, rfl⟩

theorem Holds.write (h : s.Holds c) (a : α) : (s.write a).Holds c := by
  obtain ⟨behind, hvalue, hver⟩ := h
  refine ⟨behind + 1, hvalue, ?_⟩
  show c.version + (behind + 1) = s.past.length + 1
  rw [← Nat.add_assoc, hver]
  rfl

theorem Holds.update (h : s.Holds c) (d : Copy α) (a : α) : (s.update d a).Holds c := by
  by_cases hver : d.version = s.version
  · rw [update_eq hver]
    exact h.write a
  · rw [update_ne hver]
    exact h

theorem Holds.mem (h : s.Holds c) : c.value ∈ s.versions := by
  obtain ⟨behind, hvalue, -⟩ := h
  exact List.mem_of_getElem? hvalue

@[simp] theorem version_write : (s.write a).version = s.version + 1 := rfl

theorem holds_current (s : Versioned α) : s.Holds { version := s.version, value := s.current } := ⟨0, rfl, rfl⟩

theorem Holds.eq_current (h : s.Holds c) (hver : s.version ≤ c.version) : c.value = s.current := by
  obtain ⟨behind, hvalue, hbehind⟩ := h
  have hzero : behind = 0 := by omega
  rw [hzero] at hvalue
  exact (Option.some.inj hvalue).symm

theorem Holds.of_write (h : (s.write a).Holds c) : c.value = a ∨ s.Holds c := by
  obtain ⟨behind, hvalue, hbehind⟩ := h
  cases behind with
  | zero => exact .inl (Option.some.inj hvalue).symm
  | succ n =>
    refine .inr ⟨n, hvalue, ?_⟩
    rw [version_write] at hbehind
    omega

end Versioned

end Paprika.Lib
