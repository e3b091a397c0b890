import Mathlib.Data.List.Basic

/-!
# Texts as lists of characters

`trimSpace` cuts the white space at both ends, `fields` is the words between white space, `split` cuts a text at a
separator, `index` finds one, and `atoi` reads a decimal number.

`afterLast sep s` is what follows the last occurrence of `sep` in `s`, found as `strings.LastIndex` finds it.
For a separator that begins and ends with a dash, a dash-free tail is recovered exactly
(`afterLast_append`), and a dash-free tail determines the separator before it (`tail_unique`).
-/

namespace Paprika.Lib.Text

open List

/-! ### White space -/

/-- The white space of Unicode. -/
def isSpace (c : Char) : Bool :=
  let n := c.toNat
  (0x09 ≤ n && n ≤ 0x0D) || n == 0x20 || n == 0x85 || n == 0xA0 || n == 0x1680 || (0x2000 ≤ n && n ≤ 0x200A) ||
    n == 0x2028 || n == 0x2029 || n == 0x202F || n == 0x205F || n == 0x3000

def trimSpace (s : List Char) : List Char := ((s.dropWhile isSpace).reverse.dropWhile isSpace).reverse

variable {s sep : List Char}

theorem trimSpace_eq_self (h : ∀ c ∈ s, isSpace c = false) : trimSpace s = s := by
  have hdrop : ∀ t : List Char, (∀ c ∈ t, isSpace c = false) → t.dropWhile isSpace = t := by
    intro t ht
    cases t with
    | nil => rfl
    | cons c t => rw [dropWhile_cons, ht c mem_cons_self, if_neg Bool.false_ne_true]
  unfold trimSpace
  rw [hdrop s h, hdrop s.reverse (fun c hc => h c (mem_reverse.mp hc)), reverse_reverse]

/-! ### Splitting -/

/-- `strings.Fields` with the part of a word read so far, backwards. -/
def fieldsFrom : List Char → List Char → List (List Char)
  | part, [] => if part.isEmpty then [] else [part.reverse]
  | part, c :: cs =>
    if isSpace c then if part.isEmpty then fieldsFrom [] cs else part.reverse :: fieldsFrom [] cs
    else fieldsFrom (c :: part) cs

/-- `strings.Fields`: the words between white space. -/
def fields (s : List Char) : List (List Char) := fieldsFrom [] s

/-- `strings.Split` with the characters of a separator still to be skipped and the part read so far, backwards. -/
def splitFrom (sep : List Char) : Nat → List Char → List Char → List (List Char)
  | _, part, [] => [part.reverse]
  | n + 1, part, _ :: cs => splitFrom sep n part cs
  | 0, part, c :: cs =>
    if sep.isPrefixOf (c :: cs) then part.reverse :: splitFrom sep (sep.length - 1) [] cs
    else splitFrom sep 0 (c :: part) cs

/-- `strings.Split`, for a separator that is not empty. -/
def split (sep s : List Char) : List (List Char) := splitFrom sep 0 [] s

theorem split_of_not_mem {c : Char} (h : c ∉ s) : split (c :: sep) s = [s] := by
  have hfrom : ∀ (t part : List Char), c ∉ t → splitFrom (c :: sep) 0 part t = [part.reverse ++ t] := by
    intro t
    induction t with
    | nil =>
      intro part _
      rw [splitFrom, append_nil]
    | cons d t ih =>
      intro part ht
      have hne : (c :: sep).isPrefixOf (d :: t) = false := by
        rw [Bool.eq_false_iff, Ne, isPrefixOf_iff_prefix]
        intro hp
        exact ht (by rw [(cons_prefix_cons.mp hp).1]; exact mem_cons_self)
      rw [splitFrom, hne, if_neg Bool.false_ne_true, ih (d :: part) (fun hmem => ht (mem_cons_of_mem d hmem))]
      simp
  exact hfrom s [] h

/-! ### Searching -/

/-- `strings.Index`: where the first occurrence of `sep` starts. -/
def index (sep : List Char) : List Char → Option Nat
  | [] => if sep.isEmpty then some 0 else none
  | c :: cs => if sep.isPrefixOf (c :: cs) then some 0 else (index sep cs).map (· + 1)

/-! ### Numbers -/

/-- The digits of `strconv.Atoi`, for a 64-bit integer. -/
def atoiDigits (negative : Bool) (digits : List Char) : Option Int :=
  let n : Nat := digits.foldl (fun n c => 10 * n + (c.toNat - 48)) 0
  if digits.isEmpty || !digits.all Char.isDigit then none
  else if negative then if n ≤ 9223372036854775808 then some (-n) else none
  else if n ≤ 9223372036854775807 then some n
  else none

def atoi (s : List Char) : Option Int :=
  match s with
  | '-' :: digits => atoiDigits true digits
  | '+' :: digits => atoiDigits false digits
  | digits => atoiDigits false digits

/-! ### Path segments -/

/-- The characters that `url.PathEscape` leaves alone. -/
def isPathSafe (c : Char) : Bool := c.isAlphanum || "-_.~$&+:=@".toList.contains c

def hexDigit (n : Nat) : Char := if n < 10 then Char.ofNat (48 + n) else Char.ofNat (55 + n)

/-- `url.PathEscape`, byte by byte of the UTF-8 encoding. -/
def pathEscape (s : String) : String :=
  String.ofList (s.toList.flatMap (fun c =>
    if isPathSafe c then [c]
    else (String.utf8EncodeChar c).flatMap (fun b => ['%', hexDigit (b.toNat / 16), hexDigit (b.toNat % 16)])))

/-! ### Parts with separators -/

/-- What stands before the first separator, and what stands behind it, are determined. -/
theorem append_cons_inj {α : Type*} {sep : α} {a b s t : List α} (ha : sep ∉ a) (hb : sep ∉ b)
    (h : a ++ sep :: s = b ++ sep :: t) : a = b ∧ s = t := by
  induction a generalizing b with
  | nil =>
    cases b with
    | nil => exact ⟨rfl, (List.cons.inj h).2⟩
    | cons c b =>
      have hc : sep = c := (List.cons.inj h).1
      exact absurd (hc ▸ mem_cons_self) hb
  | cons c a ih =>
    cases b with
    | nil =>
      have hc : c = sep := (List.cons.inj h).1
      exact absurd (hc ▸ mem_cons_self) ha
    | cons d b =>
    obtain ⟨hcd, hrest⟩ := List.cons.inj h
    obtain ⟨hab, hst⟩ := ih (fun hmem => ha (mem_cons_of_mem c hmem))
      (fun hmem => hb (mem_cons_of_mem d hmem)) hrest
    exact ⟨by rw [hcd, hab], hst⟩

theorem intercalate_inj {sep : Char} {xs ys : List (List Char)} (hx : ∀ x ∈ xs, sep ∉ x ∧ x ≠ [])
    (hy : ∀ y ∈ ys, sep ∉ y ∧ y ≠ []) (h : [sep].intercalate xs = [sep].intercalate ys) : xs = ys := by
  have hempty : ∀ zs : List (List Char), (∀ z ∈ zs, sep ∉ z ∧ z ≠ []) → [sep].intercalate zs = [] → zs = [] := by
    intro zs hz hnil
    by_contra hne
    have hsplit := splitOn_intercalate sep (fun z hzmem => (hz z hzmem).1) hne
    rw [hnil] at hsplit
    have hmem : [] ∈ zs := by
      rw [← hsplit]
      simp
    exact (hz [] hmem).2 rfl
  by_cases hxnil : xs = []
  · subst hxnil
    exact (hempty ys hy (by rw [← h]; rfl)).symm
  by_cases hynil : ys = []
  · subst hynil
    exact hempty xs hx (by rw [h]; rfl)
  rw [← splitOn_intercalate sep (fun x hmem => (hx x hmem).1) hxnil, h,
    splitOn_intercalate sep (fun y hmem => (hy y hmem).1) hynil]

/-! ### The last separator -/

/-- What follows the last occurrence of `sep`, if there is one. -/
def afterLast (sep : List Char) : List Char → Option (List Char)
  | [] => none
  | c :: cs =>
    match afterLast sep cs with
    | some rest => some rest
    | none => if sep.isPrefixOf (c :: cs) then some ((c :: cs).drop sep.length) else none

theorem afterLast_split {rest : List Char} (h : afterLast sep s = some rest) : ∃ front, s = front ++ sep ++ rest := by
  induction s with
  | nil => simp [afterLast] at h
  | cons c cs ih =>
    rw [afterLast] at h
    cases hcs : afterLast sep cs with
    | some r =>
      rw [hcs] at h
      obtain ⟨front, hfront⟩ := ih (by simpa [hcs] using h)
      exact ⟨c :: front, by simp [hfront]⟩
    | none =>
    rw [hcs] at h
    by_cases hp : sep.isPrefixOf (c :: cs)
    · simp only [hp, if_true, Option.some.injEq] at h
      obtain ⟨t, ht⟩ := isPrefixOf_iff_prefix.mp hp
      refine ⟨[], ?_⟩
      rw [← h, ← ht]
      simp
    · simp [hp] at h

/-- The answer is the *last* occurrence: any occurrence leaves at least as long a remainder. -/
theorem afterLast_suffix (hsep : sep ≠ []) (front rest : List Char) :
    ∃ r, afterLast sep (front ++ sep ++ rest) = some r ∧ r <:+ rest := by
  suffices hlen : ∃ r, afterLast sep (front ++ sep ++ rest) = some r ∧ r.length ≤ rest.length by
    obtain ⟨r, hr, hle⟩ := hlen
    obtain ⟨f, hf⟩ := afterLast_split hr
    refine ⟨r, hr, suffix_of_suffix_length_le ⟨f ++ sep, ?_⟩ ⟨front ++ sep, rfl⟩ hle⟩
    rw [hf]
  induction front with
  | nil =>
    obtain ⟨c, cs, hcs⟩ := exists_cons_of_ne_nil hsep
    have htext : [] ++ sep ++ rest = c :: (cs ++ rest) := by simp [hcs]
    rw [htext, afterLast]
    cases hrec : afterLast sep (cs ++ rest) with
    | some r =>
      obtain ⟨f, hf⟩ := afterLast_split hrec
      have hlen := congrArg List.length hf
      have hsl := congrArg List.length hcs
      simp only [length_append, length_cons] at hlen hsl
      exact ⟨r, rfl, by omega⟩
    | none =>
    have hp : sep.isPrefixOf (c :: (cs ++ rest)) = true := by
      rw [ isPrefixOf_iff_prefix, ← htext]
      exact ⟨rest, by simp⟩
    refine ⟨rest, ?_, Nat.le_refl _⟩
    simp only [hp, if_true]
    rw [← htext, nil_append, drop_left]
  | cons d front ih =>
    obtain ⟨r, hr, hle⟩ := ih
    refine ⟨r, ?_, hle⟩
    rw [cons_append, cons_append, afterLast, hr]

/-- Two dash-free tails behind a dash are the same tail, behind the same front. -/
theorem tail_unique {a b k r : List Char} (hk : '-' ∉ k) (hr : '-' ∉ r)
    (h : a ++ '-' :: k = b ++ '-' :: r) : a = b ∧ k = r := by
  rcases append_eq_append_iff.mp h with ⟨m, hm, hk'⟩ | ⟨m, hm, hr'⟩
  · cases m with
    | nil => simp_all
    | cons x m =>
      obtain ⟨-, hkm⟩ := cons_eq_cons.mp hk'
      exact absurd (by rw [hkm]; simp) hk
  cases m with
  | nil => simp_all
  | cons x m =>
    obtain ⟨-, hrm⟩ := cons_eq_cons.mp hr'
    exact absurd (by rw [hrm]; simp) hr

/-- **Recovering a dash-free tail.**  Behind a separator that ends in a dash, the text after the last
occurrence of that separator is the tail itself, whatever stands in front. -/
theorem afterLast_append {front k : List Char} (hk : '-' ∉ k) :
    afterLast (sep ++ ['-']) (front ++ (sep ++ ['-']) ++ k) = some k := by
  have hne : sep ++ ['-'] ≠ [] := by simp
  obtain ⟨r, hr, hsuf⟩ := afterLast_suffix hne front k
  obtain ⟨b, hb⟩ := afterLast_split hr
  have hdash : '-' ∉ r := fun hmem => hk (hsuf.subset hmem)
  have heq : (front ++ sep) ++ '-' :: k = (b ++ sep) ++ '-' :: r := by simpa using hb
  rw [hr, (tail_unique hk hdash heq).2]

/-! ### Marks -/

theorem marks_injective : Function.Injective fun i => String.ofList (replicate (i + 1) 'x') := by
  intro i j hij
  have hlength := congrArg (fun s : String => s.toList.length) hij
  simpa using hlength

end Paprika.Lib.Text
