import Paprika.Governance.Match
import Paprika.Lib.Splitting

/-!
# What a pattern describes

`globMatch` looks for the parts between the stars one after the other, each where it stands first.  No other choice does
better, except for the last part: it has to end the text, and the first place where it stands need not be the end.

* `globParts_iff` — when the loop finds the parts;
* **`globs_exact_iff`** — which texts are matched that a pattern describes, and what follows for the lists.
-/

namespace Paprika.Governance

open Lib List

/-- The text is the pattern with some text in the place of each star. -/
def Describes : List Char → List Char → Prop
  | [], s => s = []
  | c :: pattern, s =>
    if c = '*' then ∃ front back, s = front ++ back ∧ Describes pattern back
    else ∃ back, s = c :: back ∧ Describes pattern back

/-- The pattern does not end in a star, and it describes the text and a shorter beginning of it. -/
structure Overlooked (pattern s : List Char) : Prop where
  last : pattern.getLast? ≠ some '*'
  describes : Describes pattern s
  early : ∃ t, t <+: s ∧ Describes pattern t ∧ t ≠ s

/-! ### The parts of a pattern -/

/-- The pattern is the parts with stars between them. -/
inductive Parts : List Char → List (List Char) → Prop
  | last {part : List Char} : '*' ∉ part → Parts part [part]
  | more {part pattern : List Char} {rest : List (List Char)} :
      '*' ∉ part → Parts pattern rest → Parts (part ++ '*' :: pattern) (part :: rest)

/-- The parts stand one behind the other, with any text before each, and the last one ends the text. -/
def Follow : List (List Char) → List Char → Prop
  | [], s => s = []
  | part :: rest, s => ∃ front back, s = front ++ (part ++ back) ∧ Follow rest back

variable {pattern s part front back : List Char} {parts rest : List (List Char)}

theorem parts_split (pattern : List Char) : Parts pattern (Text.split ['*'] pattern) := by
  induction hn : pattern.length using Nat.strong_induction_on generalizing pattern with
  | _ n ih =>
  by_cases hstar : '*' ∈ pattern
  · obtain ⟨part, rest, rfl, hpart⟩ := eq_append_cons_of_mem hstar
    rw [Text.split_cons_of_not_mem hpart]
    refine .more hpart (ih rest.length ?_ rest rfl)
    rw [← hn, length_append, length_cons]
    omega
  · rw [Text.split_of_not_mem hstar]
    exact .last hstar

theorem Parts.ne_nil (h : Parts pattern parts) : parts ≠ [] := by cases h <;> exact cons_ne_nil _ _

theorem describes_nil : Describes [] s ↔ s = [] := .rfl

theorem describes_cons {c : Char} : Describes (c :: pattern) s ↔
    if c = '*' then ∃ front back, s = front ++ back ∧ Describes pattern back
    else ∃ back, s = c :: back ∧ Describes pattern back := .rfl

theorem describes_append (hpart : '*' ∉ part) :
    Describes (part ++ pattern) s ↔ ∃ back, s = part ++ back ∧ Describes pattern back := by
  induction part generalizing s with
  | nil => simp
  | cons c part ih =>
    rw [cons_append, describes_cons, if_neg (ne_of_not_mem_cons hpart).symm]
    have hrest : '*' ∉ part := not_mem_of_not_mem_cons hpart
    constructor
    · rintro ⟨back, rfl, hback⟩
      obtain ⟨rest, rfl, hdescribes⟩ := (ih hrest).mp hback
      exact ⟨rest, rfl, hdescribes⟩
    · rintro ⟨back, rfl, hback⟩
      exact ⟨part ++ back, rfl, (ih hrest).mpr ⟨back, rfl, hback⟩⟩

theorem describes_part (hpart : '*' ∉ part) : Describes part s ↔ s = part := by
  have h : Describes (part ++ []) s ↔ ∃ back, s = part ++ back ∧ Describes [] back := describes_append hpart
  rw [append_nil] at h
  rw [h]
  simp [describes_nil]

/-- Behind a star the parts follow. -/
theorem Parts.describes_iff (h : Parts pattern parts) : Describes ('*' :: pattern) s ↔ Follow parts s := by
  induction h generalizing s with
  | last hpart => simp [describes_cons, Follow, describes_part hpart]
  | more hpart _ ih =>
    rw [describes_cons, if_pos rfl, Follow]
    simp only [describes_append hpart, ih]
    constructor
    · rintro ⟨front, _, rfl, back, rfl, hback⟩
      exact ⟨front, back, rfl, hback⟩
    · rintro ⟨front, back, rfl, hback⟩
      exact ⟨front, _, rfl, back, rfl, hback⟩

theorem Parts.last_iff (h : Parts pattern parts) :
    parts.getLast? = some [] ↔ ('*' :: pattern).getLast? = some '*' := by
  induction h with
  | @last part hpart =>
    by_cases hnil : part = []
    · simp [hnil]
    · rw [getLast?_cons_of_ne_nil hnil]
      refine iff_of_false (by simpa using hnil) fun hlast => hpart (mem_of_getLast? hlast)
  | @more part pattern rest hpart hrest ih =>
    have hne : part ++ '*' :: pattern ≠ [] := append_ne_nil_of_right_ne_nil _ (cons_ne_nil _ _)
    rw [getLast?_cons_of_ne_nil hrest.ne_nil, ih, getLast?_cons_of_ne_nil hne, getLast?_append_of_ne_nil _ (cons_ne_nil _ _)]

/-! ### The loop -/

theorem Follow.append (h : Follow rest back) (hne : rest ≠ []) (front : List Char) : Follow rest (front ++ back) := by
  obtain ⟨part, rest, rfl⟩ := exists_cons_of_ne_nil hne
  obtain ⟨before, behind, rfl, hrest⟩ := h
  exact ⟨front ++ before, behind, (append_assoc ..).symm, hrest⟩

/-- The first place of a part is in front of every other one. -/
theorem index_spec (part s : List Char) :
    (Text.index part s = none ∧ ¬part <:+: s) ∨ ∃ front back, s = front ++ (part ++ back) ∧
      Text.index part s = some front.length ∧ ∀ f b, s = f ++ (part ++ b) → front.length ≤ f.length := by
  induction s with
  | nil =>
    cases part with
    | nil => exact .inr ⟨[], [], rfl, rfl, fun f b _ => Nat.zero_le _⟩
    | cons c part => exact .inl ⟨rfl, by simp⟩
  | cons c s ih =>
    rw [Text.index]
    by_cases hp : part.isPrefixOf (c :: s) = true
    · rw [if_pos hp]
      obtain ⟨back, hback⟩ := isPrefixOf_iff_prefix.mp hp
      exact .inr ⟨[], back, hback.symm, rfl, fun f b _ => Nat.zero_le _⟩
    rw [if_neg hp]
    rw [ isPrefixOf_iff_prefix] at hp
    rcases ih with ⟨hnone, hno⟩ | ⟨front, back, hs, hsome, hfirst⟩
    · exact .inl ⟨by rw [hnone]; rfl, fun h => (infix_cons_iff.mp h).elim hp hno⟩
    · refine .inr ⟨c :: front, back, by rw [hs]; rfl, by rw [hsome]; rfl, fun f b hfb => ?_⟩
      cases f with
      | nil => exact absurd ⟨b, hfb.symm⟩ hp
      | cons d f => exact Nat.succ_le_succ (hfirst f b (cons.inj hfb).2)

/-- What follows a part somewhere in a beginning of the text follows its first place. -/
theorem Follow.first {t u : List Char} (hne : rest ≠ []) (h : Follow (part :: rest) t) (ht : t ++ u = front ++ (part ++ back))
    (hfirst : ∀ f b, t ++ u = f ++ (part ++ b) → front.length ≤ f.length) :
    ∃ b, t = front ++ (part ++ b) ∧ b ++ u = back ∧ Follow rest b := by
  obtain ⟨f, b, rfl, hrest⟩ := h
  have hle := hfirst f (b ++ u) (by simp)
  have hsame : front ++ part ++ back = f ++ part ++ (b ++ u) := by simpa using ht.symm
  have hfront : front ++ part <+: front ++ part ++ back := prefix_append _ _
  obtain ⟨m, hm⟩ := prefix_of_prefix_length_le hfront ⟨b ++ u, hsame.symm⟩ (by rw [length_append, length_append]; omega)
  refine ⟨m ++ b, ?_, ?_, hrest.append hne m⟩
  · rw [← append_assoc, ← append_assoc, ← append_assoc, ← hm]
  · rw [← hm, append_assoc _ m] at hsame
    rw [append_cancel_left hsame, append_assoc]

/-- **The loop finds the parts** where they follow, unless the last one is wanted and they also follow in a shorter text. -/
theorem globParts_iff (hne : parts ≠ []) : globParts parts s = true ↔
    Follow parts s ∧ (parts.getLast? ≠ some [] → ∀ t, t <+: s → Follow parts t → t = s) := by
  induction parts generalizing s with
  | nil => exact absurd rfl hne
  | cons part rest ih =>
    rw [globParts]
    rcases index_spec part s with ⟨hnone, hno⟩ | ⟨front, back, rfl, hsome, hfirst⟩
    · rw [hnone]
      refine iff_of_false Bool.false_ne_true fun h => ?_
      obtain ⟨f, b, rfl, -⟩ := h.1
      exact hno ⟨f, b, by simp⟩
    rw [hsome]
    have hdrop : (front ++ (part ++ back)).drop (front.length + part.length) = back := by
      rw [← append_assoc, ← length_append, drop_left]
    dsimp only
    rw [hdrop]
    by_cases hrest : rest = []
    · subst hrest
      by_cases hlong : part ≠ [] ∧ back ≠ []
      · -- The part ends the text that is cut behind its first place.
        have hshort : front ++ part ≠ front ++ (part ++ back) := by simpa using hlong.2
        rw [if_pos (by simp [hlong.1, length_pos_of_ne_nil hlong.2])]
        refine iff_of_false Bool.false_ne_true fun h => hshort (h.2 (by simpa using hlong.1) _ ?_ ⟨front, [], by simp, rfl⟩)
        exact ⟨back, append_assoc ..⟩
      rw [if_neg (by simpa [length_pos_iff] using hlong)]
      refine iff_of_true rfl ⟨?_, fun hpart t ht hfollows => ?_⟩
      · by_cases hpart : part = []
        · exact ⟨front ++ back, [], by simp [hpart], rfl⟩
        · exact ⟨front, back, rfl, not_not.mp fun hback => hlong ⟨hpart, hback⟩⟩
      have hback : back = [] := not_not.mp fun hback => hlong ⟨by simpa using hpart, hback⟩
      obtain ⟨u, hu⟩ := ht
      obtain ⟨f, b, rfl, rfl⟩ := hfollows
      have hle := hfirst f u (by rw [← hu]; simp)
      refine IsPrefix.eq_of_length_le ⟨u, hu⟩ ?_
      simp only [hback, length_append]
      omega
    · rw [if_neg (by simp [hrest]), ih hrest, getLast?_cons_of_ne_nil hrest]
      have hfollow : Follow (part :: rest) (front ++ (part ++ back)) ↔ Follow rest back := by
        refine ⟨fun h => ?_, fun h => ⟨front, back, rfl, h⟩⟩
        obtain ⟨b, -, hb, hrest⟩ := h.first (u := []) hrest (append_nil _) (by simpa using hfirst)
        rwa [← hb, append_nil]
      rw [hfollow]
      refine and_congr_right fun _ => imp_congr_right fun _ => ⟨fun h t ht hfollows => ?_, fun h t ht hfollows => ?_⟩
      · obtain ⟨u, hu⟩ := ht
        obtain ⟨b, rfl, hb, hb'⟩ := hfollows.first hrest hu (by rwa [hu])
        rw [h b ⟨u, hb⟩ hb']
      · have hsame := h (front ++ (part ++ t)) ((prefix_append_right_inj _).mpr ((prefix_append_right_inj _).mpr ht))
          ⟨front, t, rfl, hfollows⟩
        exact append_cancel_left (append_cancel_left hsame)

theorem globMatch_iff (pattern s : String) :
    globMatch pattern s = true ↔ Describes pattern.toList s.toList ∧ ¬Overlooked pattern.toList s.toList := by
  have hoverlooked : Describes pattern.toList s.toList ∧ ¬Overlooked pattern.toList s.toList ↔ Describes pattern.toList s.toList ∧
      (pattern.toList.getLast? ≠ some '*' → ∀ t, t <+: s.toList → Describes pattern.toList t → t = s.toList) := by
    refine and_congr_right fun hdescribes => ⟨fun h hlast t ht ht' => ?_, fun h hover => ?_⟩
    · by_contra hne
      exact h ⟨hlast, hdescribes, t, ht, ht', hne⟩
    · obtain ⟨t, ht, ht', hne⟩ := hover.early
      exact hne (h hover.last t ht ht')
  rw [hoverlooked, globMatch]
  by_cases hempty : pattern = ""
  · subst hempty
    simp only [String.toList_empty, describes_nil, if_pos, beq_self_eq_true, beq_iff_eq, ← String.toList_inj]
    exact ⟨fun h => ⟨h, fun _ t _ ht => by rw [ht, h]⟩, fun h => h.1⟩
  by_cases hstar : pattern = "*"
  · simp [hstar, describes_nil, describes_cons]
  rw [if_neg (by simpa using hempty), if_neg (by simpa using hstar)]
  have hparts := parts_split pattern.toList
  generalize hsplit : Text.split ['*'] pattern.toList = parts at hparts ⊢
  generalize hpattern : pattern.toList = p at hparts ⊢
  cases hparts with
  | last hpart =>
    simp only [describes_part hpart]
    rw [beq_iff_eq, ← String.toList_inj, hpattern]
    exact ⟨fun h => ⟨h.symm, fun _ t _ ht => by rw [ht, h]⟩, fun h => h.1.symm⟩
  | @more part p rest hpart hrest =>
  obtain ⟨q, qs, rfl⟩ := exists_cons_of_ne_nil hrest.ne_nil
  dsimp only
  have hlast : (part ++ '*' :: p).getLast? = some '*' ↔ (q :: qs).getLast? = some [] := by
    rw [hrest.last_iff, getLast?_append_of_ne_nil _ (cons_ne_nil _ _)]
  by_cases hfirst : part <+: s.toList
  · obtain ⟨u, hu⟩ := hfirst
    have hfollow : ∀ t, Describes (part ++ '*' :: p) (part ++ t) ↔ Follow (q :: qs) t := by
      simp [describes_append hpart, hrest.describes_iff]
    rw [← hu, if_neg (by simp [ isPrefixOf_iff_prefix]), drop_left, globParts_iff (cons_ne_nil _ _), hfollow, Ne, Ne, hlast]
    refine and_congr_right fun _ => imp_congr_right fun _ => ⟨fun h t ht hdescribes => ?_, fun h t ht hfollows => ?_⟩
    · obtain ⟨b, rfl, hb⟩ := (describes_append hpart).mp hdescribes
      rw [h b ((prefix_append_right_inj _).mp ht) (hrest.describes_iff.mp hb)]
    · exact append_cancel_left (h (part ++ t) ((prefix_append_right_inj _).mpr ht) ((hfollow t).mpr hfollows))
  · rw [← isPrefixOf_iff_prefix] at hfirst
    rw [if_pos (by rw [Bool.eq_false_iff.mpr hfirst]; rfl)]
    refine iff_of_false Bool.false_ne_true fun h => hfirst ?_
    obtain ⟨back, hback, -⟩ := (describes_append hpart).mp h.1
    exact isPrefixOf_iff_prefix.mpr ⟨back, hback.symm⟩

variable {items : List String} {s : String} {message : Message}

theorem checkDenyList_describes : checkDenyList items s globMatch message = some message ↔
    ∃ item ∈ items, Describes item.toList s.toList ∧ ¬Overlooked item.toList s.toList := by
  simp only [← globMatch_iff, checkDenyList]
  by_cases hany : items.any (fun item => globMatch item s) = true
  · exact iff_of_true (if_pos hany) (any_eq_true.mp hany)
  · rw [if_neg hany]
    exact iff_of_false (Option.some_ne_none _).symm fun h => hany (any_eq_true.mpr h)

/-- **Which texts are matched.**  Of the texts that a pattern describes it misses those where it is overlooked; a list
refuses, or admits, a value that one of its patterns describes, where one of them is not overlooked. -/
theorem globs_exact_iff (pattern s : String) (items : List String) (message : Message) :
    ((globMatch pattern s = true ↔ Describes pattern.toList s.toList) ↔ ¬Overlooked pattern.toList s.toList) ∧
    (((∃ item ∈ items, Describes item.toList s.toList) → checkDenyList items s globMatch message = some message) ↔
      ((∃ item ∈ items, Describes item.toList s.toList) →
        ∃ item ∈ items, Describes item.toList s.toList ∧ ¬Overlooked item.toList s.toList)) ∧
    (((∃ item ∈ items, Describes item.toList s.toList) → checkList items s globMatch message = none) ↔
      ((∃ item ∈ items, Describes item.toList s.toList) →
        ∃ item ∈ items, Describes item.toList s.toList ∧ ¬Overlooked item.toList s.toList)) := by
  refine ⟨?_, ?_, ?_⟩
  · rw [globMatch_iff]
    exact ⟨fun h hover => (h.mpr hover.describes).2 hover, fun h => and_iff_left h⟩
  · rw [checkDenyList_describes]
  · refine imp_congr_right fun ⟨item, hitem, _⟩ => ?_
    simp only [checkList_eq_none, globMatch_iff]
    exact or_iff_right (ne_nil_of_mem hitem)

theorem glob_misses_end : ¬(globMatch "*a" "aba" = true ↔ Describes "*a".toList "aba".toList) := by
  have hdescribes : Describes "*a".toList "aba".toList := ⟨['a', 'b'], ['a'], rfl, [], rfl, rfl⟩
  exact fun h => absurd (h.mpr hdescribes) (by decide)

end Paprika.Governance
