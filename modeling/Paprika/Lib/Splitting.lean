import Mathlib.Data.List.DropRight
import Mathlib.Data.List.Infix
import Paprika.Lib.Text

/-!
# Cutting texts at a separator

* `split_append` — a text up to the first separator, and what follows; no part has a separator in it;
* `trimSpace_within`, `trimSpace_mono` — trimming a text and a text around it.
-/

namespace Paprika.Lib.Text

open List

variable {sep s t x y : List Char}

/-! ### Parts -/

theorem splitFrom_skip (part l : List Char) : splitFrom sep l.length part (l ++ y) = splitFrom sep 0 part y := by
  induction l with
  | nil => rfl
  | cons c l ih => exact ih

/-- The first separator is where the text before it ends. -/
theorem split_append (hsep : sep ≠ []) (h : ∀ k < x.length, ¬sep <+: (x ++ sep ++ y).drop k) :
    split sep (x ++ sep ++ y) = x :: split sep y := by
  obtain ⟨c, cs, rfl⟩ := exists_cons_of_ne_nil hsep
  have hfrom : ∀ (x part : List Char), (∀ k < x.length, ¬(c :: cs) <+: (x ++ (c :: cs) ++ y).drop k) →
      splitFrom (c :: cs) 0 part (x ++ (c :: cs) ++ y) = (part.reverse ++ x) :: split (c :: cs) y := by
    intro x
    induction x with
    | nil =>
      intro part _
      have hp : (c :: cs).isPrefixOf (c :: (cs ++ y)) = true := isPrefixOf_iff_prefix.mpr ⟨y, rfl⟩
      rw [append_nil]
      show splitFrom (c :: cs) 0 part (c :: (cs ++ y)) = _
      rw [splitFrom, if_pos hp]
      exact congrArg _ (splitFrom_skip [] cs)
    | cons d x ih =>
      intro part hno
      have hp : ¬(c :: cs).isPrefixOf (d :: (x ++ (c :: cs) ++ y)) = true := by
        rw [ isPrefixOf_iff_prefix]
        exact hno 0 (Nat.succ_pos _)
      show splitFrom (c :: cs) 0 part (d :: (x ++ (c :: cs) ++ y)) = _
      rw [splitFrom, if_neg hp, ih (d :: part) fun k hk => hno (k + 1) (Nat.succ_lt_succ hk)]
      simp
  exact hfrom x [] h

theorem split_cons_of_not_mem {c : Char} (h : c ∉ x) (y : List Char) : split [c] (x ++ c :: y) = x :: split [c] y := by
  have hno : ∀ k < x.length, ¬[c] <+: (x ++ [c] ++ y).drop k := by
    intro k hk hp
    rw [append_assoc, drop_append_of_le_length (Nat.le_of_lt hk), drop_eq_getElem_cons hk, cons_append] at hp
    exact h ((cons_prefix_cons.mp hp).1 ▸ getElem_mem hk)
  simpa using split_append (cons_ne_nil _ _) hno

theorem split_eq_singleton (h : ¬sep <:+: s) : split sep s = [s] := by
  have hfrom : ∀ (s part : List Char), ¬sep <:+: s → splitFrom sep 0 part s = [part.reverse ++ s] := by
    intro s
    induction s with
    | nil =>
      intro part _
      rw [splitFrom, append_nil]
    | cons d s ih =>
      intro part hno
      have hp : ¬sep.isPrefixOf (d :: s) = true := by
        rw [ isPrefixOf_iff_prefix]
        exact fun hp => hno hp.isInfix
      rw [splitFrom, if_neg hp, ih (d :: part) fun h => hno (infix_cons h)]
      simp
  exact hfrom s [] h

theorem not_infix_of_mem_split (hsep : sep ≠ []) (h : t ∈ split sep s) : ¬sep <:+: t := by
  have hfrom : ∀ (s : List Char) (n : Nat) (part : List Char), (n = 0 → ∀ k < part.length, ¬sep <+: (part.reverse ++ s).drop k) →
      (n ≠ 0 → part = []) → t ∈ splitFrom sep n part s → ¬sep <:+: t := by
    have hend : ∀ (part s : List Char), (∀ k < part.length, ¬sep <+: (part.reverse ++ s).drop k) → ¬sep <:+: part.reverse := by
      rintro part s hno ⟨a, b, hab⟩
      have hlen := congrArg List.length hab
      have hpos := length_pos_of_ne_nil hsep
      simp only [length_append, length_reverse] at hlen
      refine hno a.length (by omega) ⟨b ++ s, ?_⟩
      rw [← hab, append_assoc, append_assoc, drop_left]
    intro s
    induction s with
    | nil =>
      intro n part hno hpart ht
      cases n with
      | zero =>
        obtain rfl := mem_singleton.mp ht
        exact hend part [] (hno rfl)
      | succ n =>
        obtain rfl := mem_singleton.mp ht
        rw [hpart (Nat.succ_ne_zero n)]
        exact fun h => hsep (infix_nil.mp h)
    | cons c s ih =>
      intro n part hno hpart ht
      cases n with
      | succ n =>
        obtain rfl := hpart (Nat.succ_ne_zero n)
        exact ih n [] (fun _ k hk => absurd hk (Nat.not_lt_zero k)) (fun _ => rfl) ht
      | zero =>
      rw [splitFrom] at ht
      split_ifs at ht with hp
      · rcases mem_cons.mp ht with rfl | ht
        · exact hend part (c :: s) (hno rfl)
        · exact ih _ [] (fun _ k hk => absurd hk (Nat.not_lt_zero k)) (fun _ => rfl) ht
      refine ih 0 (c :: part) (fun _ k hk => ?_) (fun h => absurd rfl h) ht
      rw [reverse_cons, append_assoc, singleton_append]
      rcases Nat.lt_succ_iff_lt_or_eq.mp hk with hk | rfl
      · exact hno rfl k hk
      · rw [← length_reverse, drop_left]
        exact fun h => hp ( isPrefixOf_iff_prefix.mpr h)
  exact hfrom s 0 [] (fun _ k hk => absurd hk (Nat.not_lt_zero k)) (fun h => absurd rfl h) h

/-! ### White space at the ends -/

theorem trimSpace_within (s : List Char) : trimSpace s <:+: s :=
  ( rdropWhile_prefix isSpace _).isInfix.trans (dropWhile_suffix isSpace).isInfix

theorem dropWhile_of_mem {p : Char → Bool} {c : Char} (hc : p c = false) (x y : List Char) :
    ∃ u, (x ++ c :: y).dropWhile p = u ++ c :: y := by
  induction x with
  | nil => exact ⟨[], dropWhile_cons_of_neg (by rw [hc]; exact Bool.false_ne_true)⟩
  | cons d x ih =>
    by_cases hd : p d = true
    · rw [cons_append, dropWhile_cons_of_pos hd]
      exact ih
    · exact ⟨d :: x, dropWhile_cons_of_neg hd⟩

/-- Nothing goes that stands between characters that are no white space. -/
theorem infix_trimSpace {c d : Char} (hc : isSpace c = false) (hd : isSpace d = false) (h : c :: t <:+: s)
    (hlast : (c :: t).getLast? = some d) : c :: t <:+: trimSpace s := by
  obtain ⟨x, y, rfl⟩ := h
  obtain ⟨u, hu⟩ := dropWhile_of_mem hc x (t ++ y)
  obtain ⟨front, hfront⟩ := List.getLast?_eq_some_iff.mp hlast
  have htext : x ++ (c :: t) ++ y = x ++ c :: (t ++ y) := by simp
  have hback : (u ++ c :: (t ++ y)).reverse = y.reverse ++ d :: (u ++ front).reverse := by
    rw [show u ++ c :: (t ++ y) = u ++ (c :: t) ++ y by simp, hfront]
    simp
  obtain ⟨v, hv⟩ := dropWhile_of_mem hd y.reverse (u ++ front).reverse
  refine ⟨u, v.reverse, ?_⟩
  rw [htext, trimSpace, hu, hback, hv, hfront]
  simp

theorem trimSpace_ends (h : trimSpace s ≠ []) : ∃ c t d, trimSpace s = c :: t ∧ isSpace c = false ∧ isSpace d = false ∧
    (c :: t).getLast? = some d := by
  obtain ⟨c, t, hct⟩ := exists_cons_of_ne_nil h
  have hlast := rdropWhile_last_not isSpace (s.dropWhile isSpace) h
  refine ⟨c, t, (trimSpace s).getLast h, hct, ?_, Bool.eq_false_iff.mpr hlast, ?_⟩
  · obtain ⟨v, hv⟩ := rdropWhile_prefix isSpace (s.dropWhile isSpace)
    change trimSpace s ++ v = s.dropWhile isSpace at hv
    rw [hct] at hv
    have hne : s.dropWhile isSpace ≠ [] := by
      rw [← hv]
      exact cons_ne_nil c (t ++ v)
    have hhead := head_dropWhile_not isSpace hne
    simp only [← hv, cons_append, head_cons] at hhead
    exact hhead
  · rw [← hct, List.getLast?_eq_getLast_of_ne_nil h]

theorem trimSpace_mono (h : s <:+: t) : trimSpace s <:+: trimSpace t := by
  by_cases hs : trimSpace s = []
  · rw [hs]
    exact nil_infix
  · obtain ⟨c, r, d, hcr, hc, hd, hlast⟩ := trimSpace_ends hs
    rw [hcr]
    exact infix_trimSpace hc hd (hcr ▸ (trimSpace_within s).trans h) hlast

theorem trimSpace_idem (s : List Char) : trimSpace (trimSpace s) = trimSpace s := by
  by_cases hs : trimSpace s = []
  · rw [hs]
    rfl
  · obtain ⟨c, r, d, hcr, hc, hd, hlast⟩ := trimSpace_ends hs
    rw [hcr]
    exact infix_antisymm (trimSpace_within _) (infix_trimSpace hc hd infix_rfl hlast)

end Paprika.Lib.Text
