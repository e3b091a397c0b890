import Paprika.Lib.Text

/-!
# Governance: patterns and lists

`match.go`: `globMatch` reads a pattern with stars, and `checkList` and `checkDenyList` ask whether a list of patterns
allows or denies a value.

* `checkList_eq_none`, `checkDenyList_eq_none` — what it means that there is no complaint;
* `Listed` — the two questions together.
-/

namespace Paprika.Governance

open Lib

/-- A format with its arguments. -/
structure Message where
  format : String
  args : List String
  deriving DecidableEq, Repr

def stringEqual (a b : String) : Bool := a == b

/-! ### Patterns -/

/-- The loop of `globMatch` over the parts behind the first star. -/
def globParts : List (List Char) → List Char → Bool
  | [], _ => true
  | part :: rest, s =>
    match Text.index part s with
    | none => false
    | some idx =>
      -- The last part has to end the text where it is found first.
      if rest.isEmpty && !part.isEmpty && decide (idx + part.length < s.length) then false
      else globParts rest (s.drop (idx + part.length))

def globMatch (pattern s : String) : Bool :=
  if pattern == "" then s == ""
  else if pattern == "*" then true
  else
    match Text.split ['*'] pattern.toList with
    | [] => false
    | [_] => pattern == s
    | first :: rest =>
      if !first.isPrefixOf s.toList then false else globParts rest (s.toList.drop first.length)

/-! ### Lists -/

def checkList (items : List String) (value : String) (test : String → String → Bool) (message : Message) :
    Option Message :=
  if items.isEmpty then none
  else if items.any (fun item => test item value) then none
  else some message

def checkDenyList (items : List String) (value : String) (test : String → String → Bool) (message : Message) :
    Option Message :=
  if items.any (fun item => test item value) then some message else none

variable {items deny allow : List String} {value : String} {test : String → String → Bool} {message : Message}

theorem checkList_eq_none :
    checkList items value test message = none ↔ items = [] ∨ ∃ item ∈ items, test item value = true := by
  rw [checkList]
  cases items with
  | nil => simp
  | cons item rest =>
  rw [List.isEmpty_cons, if_neg Bool.false_ne_true, ← List.any_eq_true]
  by_cases hany : (item :: rest).any (fun item => test item value) = true
  · simp [hany]
  · simp [hany]

theorem checkDenyList_eq_none :
    checkDenyList items value test message = none ↔ ∀ item ∈ items, test item value = false := by
  rw [checkDenyList]
  by_cases hany : items.any (fun item => test item value) = true
  · rw [if_pos hany]
    obtain ⟨item, hmem, hitem⟩ := List.any_eq_true.mp hany
    constructor
    · intro h
      cases h
    · intro h
      rw [h item hmem] at hitem
      cases hitem
  · rw [if_neg hany]
    simpa using hany

/-- No pattern of the deny list matches, and one of the allow list does where there is one. -/
structure Listed (deny allow : List String) (value : String) : Prop where
  notDenied : ∀ pattern ∈ deny, globMatch pattern value = false
  allowed : allow = [] ∨ ∃ pattern ∈ allow, globMatch pattern value = true

end Paprika.Governance
