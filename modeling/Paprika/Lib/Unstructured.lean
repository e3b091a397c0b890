import Mathlib.Data.List.Basic

/-!
# Unstructured objects

Objects whose type is not known to the program: a `Value` is what JSON can say, and a map is the list of its fields.
`nestedField` and `nestedString` read below a path of fields as the helpers of an object library do, where a missing
field is an answer and a field of another type is an error; `setField` writes one field.

`visit` applies a function to some positions of a list, one after another and perhaps more than once to the same
position; **`visit_rel`** is what can be said of the list afterwards.
-/

namespace Paprika.Lib.Unstructured

open List

/-- What JSON can say; numbers are whole numbers. -/
inductive Value
  | null
  | bool (b : Bool)
  | num (n : Int)
  | str (s : String)
  | arr (entries : List Value)
  | obj (fields : List (String × Value))

abbrev Fields := List (String × Value)

/-! ### Fields -/

/-- Write one field and keep the others. -/
def setField (key : String) (v : Value) : Fields → Fields
  | [] => [(key, v)]
  | (k, old) :: rest => if k = key then (key, v) :: rest else (k, old) :: setField key v rest

@[simp] theorem lookup_setField_self (key : String) (v : Value) (m : Fields) : (setField key v m).lookup key = some v := by
  induction m with
  | nil => simp [setField]
  | cons kv rest ih =>
    obtain ⟨k, old⟩ := kv
    rw [setField]
    by_cases hk : k = key
    · simp [hk]
    · have hne : (key == k) = false := by simpa using Ne.symm hk
      simp [hk, hne, lookup_cons, ih]

variable {k key : String}

theorem lookup_setField_of_ne (hne : k ≠ key) (v : Value) (m : Fields) : (setField key v m).lookup k = m.lookup k := by
  have hkkey : (k == key) = false := beq_eq_false_iff_ne.mpr hne
  induction m with
  | nil => simp [setField, lookup_cons, hkkey]
  | cons kv rest ih =>
    obtain ⟨j, old⟩ := kv
    rw [setField]
    by_cases hj : j = key
    · simp [hj, lookup_cons, hkkey]
    · simp only [hj, if_false, lookup_cons, ih]

theorem setField_eq_self {v : Value} {m : Fields} (h : m.lookup key = some v) : setField key v m = m := by
  induction m with
  | nil => cases h
  | cons kv rest ih =>
    obtain ⟨k, old⟩ := kv
    rw [setField]
    by_cases hk : k = key
    · obtain rfl : old = v := by simpa [lookup_cons, hk] using h
      simp [hk]
    · have hne : (key == k) = false := beq_eq_false_iff_ne.mpr (Ne.symm hk)
      rw [if_neg hk, ih (by simpa [lookup_cons, hne] using h)]

/-- The value below a path of fields: `.ok none` where a field is missing or null on the way, an error where something
on the way is not a map. -/
def nestedField (m : Fields) : List String → Except Unit (Option Value)
  | [] => .ok (some (.obj m))
  | [key] => .ok (m.lookup key)
  | key :: path =>
    match m.lookup key with
    | none | some .null => .ok none
    | some (.obj inner) => nestedField inner path
    | some _ => .error ()

def nestedString (m : Fields) (path : List String) : Except Unit (Option String) :=
  match nestedField m path with
  | .error e => .error e
  | .ok none => .ok none
  | .ok (some (.str s)) => .ok (some s)
  | .ok (some _) => .error ()

theorem nestedField_setField (hne : k ≠ key) (v : Value) (m : Fields) (path : List String) :
    nestedField (setField key v m) (k :: path) = nestedField m (k :: path) := by
  cases path with
  | nil => simp only [nestedField, lookup_setField_of_ne hne]
  | cons next rest => simp only [nestedField, lookup_setField_of_ne hne]

theorem nestedString_setField (hne : k ≠ key) (v : Value) (m : Fields) (path : List String) :
    nestedString (setField key v m) (k :: path) = nestedString m (k :: path) := by
  simp only [nestedString, nestedField_setField hne]

/-! ### Visiting positions of a list -/

section
variable {α E : Type}

/-- Apply `f` to the entries at the given positions, in order; the flag says whether one of them was modified.  A
position the list does not have is skipped. -/
def visit (f : α → Except E (α × Bool)) : List Nat → List α × Bool → Except E (List α × Bool)
  | [], s => .ok s
  | idx :: rest, s =>
    match s.1[idx]? with
    | none => visit f rest s
    | some a =>
      match f a with
      | .error e => .error e
      | .ok (b, modified) => visit f rest (s.1.set idx b, s.2 || modified)

variable {f : α → Except E (α × Bool)} {R : α → α → Prop}

/-- **Visiting.**  The list keeps its length and its other entries, and every visited entry is related to what it was,
for every transitive relation that `f` makes. -/
theorem visit_rel (htrans : ∀ a b c, R a b → R b c → R a c) (hf : ∀ a b modified, f a = .ok (b, modified) → R a b)
    {idxs : List Nat} : ∀ {s t : List α × Bool}, visit f idxs s = .ok t →
      t.1.length = s.1.length ∧ (∀ i, i ∉ idxs → t.1[i]? = s.1[i]?) ∧
        ∀ i ∈ idxs, ∀ a, s.1[i]? = some a → ∃ b, t.1[i]? = some b ∧ R a b := by
  induction idxs with
  | nil =>
    intro s t h
    cases h
    simp
  | cons idx rest ih =>
    intro s t h
    rw [visit] at h
    cases hidx : s.1[idx]? with
    | none =>
      simp only [hidx] at h
      obtain ⟨hlen, hother, hvisited⟩ := ih h
      refine ⟨hlen, ?_, ?_⟩
      · intro i hi
        exact hother i (fun hmem => hi (mem_cons_of_mem idx hmem))
      intro i hi a ha
      obtain rfl | hi := mem_cons.mp hi
      · rw [hidx] at ha
        cases ha
      · exact hvisited i hi a ha
    | some old =>
      simp only [hidx] at h
      cases hfold : f old with
      | error e =>
        simp only [hfold] at h
        cases h
      | ok new =>
      obtain ⟨new, modified⟩ := new
      simp only [hfold] at h
      obtain ⟨hlen, hother, hvisited⟩ := ih h
      have hlt : idx < s.1.length := (List.getElem?_eq_some_iff.mp hidx).1
      have hset : (s.1.set idx new)[idx]? = some new := by simp [hlt]
      have hold : R old new := hf old new modified hfold
      refine ⟨by simpa using hlen, ?_, ?_⟩
      · intro i hi
        have hne : idx ≠ i := fun heq => hi (heq ▸ mem_cons_self)
        rw [hother i (fun hmem => hi (mem_cons_of_mem idx hmem)), List.getElem?_set_ne hne]
      intro i hi a ha
      by_cases heq : idx = i
      · subst heq
        obtain rfl : old = a := Option.some.inj (hidx.symm.trans ha)
        -- the same position may be visited again
        by_cases hagain : idx ∈ rest
        · obtain ⟨b, hb, hrel⟩ := hvisited idx hagain new hset
          exact ⟨b, hb, htrans _ _ _ hold hrel⟩
        · exact ⟨new, (hother idx hagain).trans hset, hold⟩
      · have hi : i ∈ rest := (mem_cons.mp hi).resolve_left (Ne.symm heq)
        exact hvisited i hi a (by rw [List.getElem?_set_ne heq, ha])

theorem visit_ok {P : α → Prop} (hf : ∀ a, P a → ∃ b modified, f a = .ok (b, modified) ∧ P b) {idxs : List Nat} :
    ∀ {s : List α × Bool}, (∀ i ∈ idxs, ∀ a, s.1[i]? = some a → P a) → ∃ t, visit f idxs s = .ok t := by
  induction idxs with
  | nil => exact fun _ => ⟨_, rfl⟩
  | cons idx rest ih =>
    intro s h
    rw [visit]
    cases hidx : s.1[idx]? with
    | none => exact ih (fun i hi => h i (mem_cons_of_mem idx hi))
    | some old =>
    obtain ⟨new, modified, hfold, hnew⟩ := hf old (h idx mem_cons_self old hidx)
    simp only [hfold]
    refine ih ?_
    intro i hi a ha
    by_cases heq : idx = i
    · subst heq
      have hlt : idx < s.1.length := (List.getElem?_eq_some_iff.mp hidx).1
      simp only [List.getElem?_set_self hlt, Option.some.injEq] at ha
      exact ha ▸ hnew
    · rw [List.getElem?_set_ne heq] at ha
      exact h i (mem_cons_of_mem idx hi) a ha
end

end Paprika.Lib.Unstructured
