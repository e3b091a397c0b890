import Mathlib.Data.List.Count
import Mathlib.Data.List.Infix
import Paprika.Lib.Text

/-!
# Entries written one after another

A key, a separator, a value and an end mark for each entry, as `key=value` on a line of its own.

* `written_inj` — no separator in a key and no end mark in a value: the text tells the entries;
* `written_as_one` — otherwise one entry can be written as the same text, if there are two separators.
-/

namespace Paprika.Lib.Entries

open Lib.Text List

variable {α : Type*} {sep stop : α}

def written (sep stop : α) (es : List (List α × List α)) : List α := es.flatMap fun e => e.1 ++ sep :: (e.2 ++ [stop])

/-- An entry that can be read off. -/
def Plain (sep stop : α) (e : List α × List α) : Prop := sep ∉ e.1 ∧ stop ∉ e.2

theorem written_cons (e : List α × List α) (es : List (List α × List α)) :
    written sep stop (e :: es) = e.1 ++ sep :: (e.2 ++ stop :: written sep stop es) := by
  simp [written]

theorem written_append (es fs : List (List α × List α)) :
    written sep stop (es ++ fs) = written sep stop es ++ written sep stop fs := List.flatMap_append

theorem written_ne_nil (e : List α × List α) (es : List (List α × List α)) : written sep stop (e :: es) ≠ [] := by
  rw [written_cons]
  exact append_ne_nil_of_right_ne_nil _ (cons_ne_nil _ _)

theorem written_inj {es fs : List (List α × List α)} (hes : ∀ e ∈ es, Plain sep stop e)
    (hfs : ∀ f ∈ fs, Plain sep stop f) (h : written sep stop es = written sep stop fs) : es = fs := by
  induction es generalizing fs with
  | nil =>
    cases fs with
    | nil => rfl
    | cons f fs => exact absurd h.symm (written_ne_nil f fs)
  | cons e es ih =>
    cases fs with
    | nil => exact absurd h (written_ne_nil e es)
    | cons f fs =>
    have he := hes e mem_cons_self
    have hf := hfs f mem_cons_self
    rw [written_cons, written_cons] at h
    obtain ⟨hkey, hrest⟩ := append_cons_inj he.1 hf.1 h
    obtain ⟨hvalue, htail⟩ := append_cons_inj he.2 hf.2 hrest
    have hes' := fun x hx => hes x (mem_cons_of_mem e hx)
    have hfs' := fun x hx => hfs x (mem_cons_of_mem f hx)
    rw [Prod.ext hkey hvalue, ih hes' hfs' htail]

/-- What is written ends with the end mark. -/
theorem written_eq_concat {es : List (List α × List α)} (hne : es ≠ []) :
    ∃ body, written sep stop es = body ++ [stop] := by
  obtain rfl | ⟨front, e, rfl⟩ := eq_nil_or_concat es
  · exact absurd rfl hne
  · refine ⟨written sep stop front ++ (e.1 ++ sep :: e.2), ?_⟩
    rw [concat_eq_append, written_append, written_cons]
    simp [written]

/-! ### Without a promise -/

section
variable [DecidableEq α]

theorem length_le_count (es : List (List α × List α)) : es.length ≤ (written sep stop es).count sep := by
  induction es with
  | nil => exact Nat.zero_le _
  | cons e es ih =>
    rw [written_cons, length_cons, count_append, count_cons_self, count_append]
    have htail : (written sep stop es).count sep ≤ (stop :: written sep stop es).count sep := count_le_count_cons
    omega

/-- Around one separator there is one entry. -/
theorem eq_of_count_le_one {es fs : List (List α × List α)} (hcount : (written sep stop es).count sep ≤ 1)
    (h : written sep stop fs = written sep stop es) : fs = es := by
  have hes : es.length ≤ (written sep stop es).count sep := length_le_count es
  have hfs : fs.length ≤ (written sep stop fs).count sep := length_le_count fs
  rw [h] at hfs
  cases es with
  | nil =>
    cases fs with
    | nil => rfl
    | cons f fs => exact absurd h (written_ne_nil f fs)
  | cons e es =>
  cases fs with
  | nil => exact absurd h.symm (written_ne_nil e es)
  | cons f fs =>
  rw [length_cons] at hes hfs
  obtain rfl : es = [] := length_eq_zero_iff.mp (by omega)
  obtain rfl : fs = [] := length_eq_zero_iff.mp (by omega)
  have hnone : ∀ d : List α × List α, (written sep stop [d]).count sep ≤ 1 → sep ∉ d.1 := by
    intro d hd hmem
    rw [written_cons, count_append, count_cons_self] at hd
    have hpos := count_pos_iff.mpr hmem
    omega
  have hf : sep ∉ f.1 := hnone f (by rw [h]; exact hcount)
  rw [written_cons, written_cons] at h
  obtain ⟨hkey, hrest⟩ := append_cons_inj hf (hnone e hcount) h
  rw [Prod.ext hkey (append_cancel_right hrest)]

/-- Cut at either of two separators, the text is one entry, and these two entries differ. -/
theorem written_as_one (hne : sep ≠ stop) {es : List (List α × List α)} (hcount : 2 ≤ (written sep stop es).count sep) :
    ∃ f, written sep stop [f] = written sep stop es ∧ [f] ≠ es := by
  have hes : es ≠ [] := by
    rintro rfl
    exact absurd hcount (by simp [written])
  obtain ⟨body, hbody⟩ : ∃ body, written sep stop es = body ++ [stop] := written_eq_concat hes
  rw [hbody, count_append, count_singleton, if_neg (by simpa using hne.symm), Nat.add_zero] at hcount
  have hmem : sep ∈ body := count_pos_iff.mp (by omega)
  obtain ⟨a, rest, rfl, ha⟩ := eq_append_cons_of_mem hmem
  rw [count_append, count_eq_zero_of_not_mem ha, count_cons_self] at hcount
  obtain ⟨b, c, rfl⟩ := append_of_mem (count_pos_iff.mp (show 0 < rest.count sep by omega))
  by_cases hfirst : [(a, b ++ sep :: c)] = es
  · refine ⟨(a ++ sep :: b, c), ?_, ?_⟩
    · rw [hbody]
      simp [written]
    · intro hsecond
      have hkey : a ++ sep :: b = a := congrArg Prod.fst (List.cons.inj (hsecond.trans hfirst.symm)).1
      exact absurd (append_right_eq_self.mp hkey) (cons_ne_nil _ _)
  · refine ⟨(a, b ++ sep :: c), ?_, hfirst⟩
    rw [hbody]
    simp [written]
end

end Paprika.Lib.Entries
