import Paprika.Lib.Versioned

/-!
# Objects behind an API

The object under one name, which may be absent, and the requests for it.  A request may fail before it takes effect, or
after it did without the client being told; a read may be answered by a cache that is behind.

* `ApiObject` — a versioned object; absence and a later creation are versions of it as well, so that no copy of an object
  that was deleted passes for one of its successor;
* `get`, `create`, `update`, `delete` — what a request replies and what it leaves;
* `create_cases` — what a creation can do.
-/

namespace Paprika.Lib

abbrev ApiObject (α : Type*) := Versioned (Option α)

namespace ApiObject

variable {α : Type*}

/-- How a request ends: it is answered, a read by the version so many versions ago, it fails without effect, or it takes
effect and reports an error. -/
inductive Outcome where
  | ok (behind : Nat)
  | failed
  | lost
  deriving DecidableEq

inductive Reply where
  | ok
  | alreadyExists
  | conflict
  | error
  deriving DecidableEq

inductive Fetched (α : Type*) where
  | error
  | notFound
  | found (version : Nat) (a : α)

def get (s : ApiObject α) : Outcome → Fetched α
  | .ok behind =>
    match (s.read behind).value with
    | none => .notFound
    | some a => .found (s.read behind).version a
  | _ => .error

def create (s : ApiObject α) (a : α) : Outcome → Reply × ApiObject α
  | .ok _ => if s.current.isSome then (.alreadyExists, s) else (.ok, s.write (some a))
  | .failed => (.error, s)
  | .lost => (.error, if s.current.isSome then s else s.write (some a))

/-- An update of a part of the object, which is not what is in it otherwise, from a copy of a version. -/
def update (s : ApiObject α) (version : Nat) (f : α → α) (o : Outcome) : Reply × ApiObject α :=
  match s.current with
  | none => (.error, s)
  | some a =>
    match o with
    | .failed => (.error, s)
    | .ok _ => if version = s.version then (.ok, s.write (some (f a))) else (.conflict, s)
    | .lost => (.error, if version = s.version then s.write (some (f a)) else s)

def delete (s : ApiObject α) : Outcome → ApiObject α
  | .failed => s
  | _ => if s.current.isSome then s.write none else s

theorem create_cases (s : ApiObject α) (a : α) (o : Outcome) :
    ((s.create a o).1 = .ok ∧ s.current = none ∧ (s.create a o).2 = s.write (some a)) ∨
      ((s.create a o).1 = .alreadyExists ∧ s.current.isSome = true ∧ (s.create a o).2 = s) ∨
      ((s.create a o).1 = .error ∧ o = .lost ∧ s.current = none ∧ (s.create a o).2 = s.write (some a)) ∨
      ((s.create a o).1 = .error ∧ (o = .failed ∨ (o = .lost ∧ s.current.isSome = true)) ∧ (s.create a o).2 = s) := by
  cases hcur : s.current with
  | none =>
    cases o with
    | ok behind => exact .inl (by simp [create, hcur])
    | failed => exact .inr (.inr (.inr (by simp [create])))
    | lost => exact .inr (.inr (.inl (by simp [create, hcur])))
  | some b =>
    cases o with
    | ok behind => exact .inr (.inl (by simp [create, hcur]))
    | failed => exact .inr (.inr (.inr (by simp [create])))
    | lost => exact .inr (.inr (.inr (by simp [create, hcur])))

end ApiObject

end Paprika.Lib
