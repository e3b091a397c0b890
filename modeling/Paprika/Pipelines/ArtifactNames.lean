import Mathlib.Algebra.Order.BigOperators.Group.List
import Mathlib.Algebra.Order.Ring.Nat
import Mathlib.Data.List.DropRight
import Paprika.Pipelines.Types

/-!
# The names of artifacts

`computeArtifactNames` names the outputs of a pipeline one after another: an output gets its sanitized name, or, where an
earlier output has that name, the name with four digits of a hash behind it.  The second name is not looked up again.

* `sanitizeArtifactName_label`, `suffixedName_label` — the names are DNS labels of at most 63 characters;
* **`artifact_names_sound_iff`** — when distinct outputs have distinct names.
-/

namespace Paprika.Pipelines.ArtifactNames

open List

structure PipelineOutput where
  name : String
  path : String
  step : String
  deriving DecidableEq, Repr

local instance lawfulBEq_chars : LawfulBEq (List Char) := inferInstance

/-! ### Sanitizing -/

def isNameChar (c : Char) : Bool := c.isLower || c.isDigit

/-- `unicode.ToLower`, as far as it gives letters of ASCII: two letters outside ASCII have a small letter there. -/
def toLower (c : Char) : Char := if c = '\u0130' then 'i' else if c = '\u212a' then 'k' else c.toLower

/-- `invalidNameChars.ReplaceAllString(s, "-")`: a run of other characters becomes one dash. -/
def replaceInvalid (inRun : Bool) : List Char → List Char
  | [] => []
  | c :: cs =>
    if isNameChar c then c :: replaceInvalid false cs
    else if inRun then replaceInvalid true cs
    else '-' :: replaceInvalid true cs

def isDash (c : Char) : Bool := c == '-'

/-- `strings.Trim(s, "-")`. -/
def trimDashes (s : List Char) : List Char := (s.dropWhile isDash).rdropWhile isDash

def sanitizeSegment (s : String) : List Char :=
  let s := trimDashes (replaceInvalid false (s.toList.map toLower))
  if s = [] then ['x'] else s

def join (parts : List (List Char)) : List Char := ['-'].intercalate parts

/-- The position of the first longest part: `best` is the one so far, and `i` the next to be looked at. -/
def longest (parts : List (List Char)) (best i : Nat) : List (List Char) → Nat
  | [] => best
  | p :: rest => longest parts (if p.length > (parts.getD best []).length then i else best) (i + 1) rest

def cutPart (part : List Char) : List Char :=
  let part := trimDashes part.dropLast
  if part = [] then ['x'] else part

/-- The loop of `sanitizeArtifactName`, with so many steps at most; `shorten_length` says that they are enough. -/
def shorten : Nat → List (List Char) → List (List Char)
  | 0, parts => parts
  | steps + 1, parts =>
    if (join parts).length ≤ 63 then parts else shorten steps (parts.modify (longest parts 0 0 parts) cutPart)

def sanitizeArtifactName (pipeline step output : String) : List Char :=
  let pipeline := sanitizeSegment pipeline
  let step := sanitizeSegment step
  let output := sanitizeSegment output
  let parts := if step ≠ [] ∧ step ≠ ['x'] then [pipeline, step, output] else [pipeline, output]
  let name := join parts
  if name.length ≤ 63 then name
  else
    let name := trimDashes (join (shorten name.length parts))
    if name = [] then "artifact".toList else name

/-! ### Naming -/

/-- FNV-1a of 32 bits. -/
def fnv32a (bytes : List UInt8) : Nat := bytes.foldl (fun h b => (h ^^^ b.toNat) * 16777619 % 4294967296) 2166136261

def base36Digit (n : Nat) : Char := "0123456789abcdefghijklmnopqrstuvwxyz".toList.getD (n % 36) '0'

/-- `strconv.FormatUint(n, 36)`, in front of the digits that are there; a number of 32 bits has at most seven. -/
def formatBase36 : Nat → Nat → List Char → List Char
  | 0, _, digits => digits
  | steps + 1, n, digits =>
    if n / 36 = 0 then base36Digit n :: digits else formatBase36 steps (n / 36) (base36Digit n :: digits)

/-- Four digits of the hash; the number 0 has one digit. -/
def hashTuple (pipeline step output : String) : List Char :=
  let s := formatBase36 7 (fnv32a ((pipeline.toList ++ '\x00' :: (step.toList ++ '\x00' :: output.toList)).flatMap String.utf8EncodeChar)) []
  let s := List.replicate (4 - s.length) '0' ++ s
  s.take 4

variable (pipeline : String)

def baseName (output : PipelineOutput) : List Char := sanitizeArtifactName pipeline output.step output.name

def suffixedName (output : PipelineOutput) : List Char :=
  let base := baseName pipeline output
  let suffix := '-' :: hashTuple pipeline output.step output.name
  (if base.length + suffix.length > 63 then (base.take (63 - suffix.length)).rdropWhile isDash else base) ++ suffix

def artifactNameForOutput (output : PipelineOutput) (taken : List (List Char)) : List Char :=
  if baseName pipeline output ∈ taken then suffixedName pipeline output else baseName pipeline output

def namesFrom (taken : List (List Char)) : List PipelineOutput → List (List Char)
  | [] => []
  | output :: rest =>
    let name := artifactNameForOutput pipeline output taken
    name :: namesFrom (name :: taken) rest

def computeArtifactNames (outputs : List PipelineOutput) : List (List Char) := namesFrom pipeline [] outputs

/-! ### Labels -/

/-- A DNS label, of any length. -/
structure Label (l : List Char) : Prop where
  chars : ∀ c ∈ l, isNameChar c = true ∨ c = '-'
  first : ∃ c, l.head? = some c ∧ isNameChar c = true
  last : ∃ c, l.getLast? = some c ∧ isNameChar c = true

variable {l a b : List Char} {parts : List (List Char)}

theorem Label.ne_nil (h : Label l) : l ≠ [] := by
  rintro rfl
  obtain ⟨c, hc, -⟩ := h.first
  cases hc

theorem nameChar_of_not_dash {c : Char} (h : isNameChar c = true ∨ c = '-') (hdash : ¬isDash c = true) : isNameChar c = true :=
  h.resolve_right fun hc => hdash (beq_iff_eq.mpr hc)

theorem label_x : Label ['x'] := ⟨List.forall_iff_forall_mem.mp (by decide), ⟨'x', rfl, by decide⟩, ⟨'x', rfl, by decide⟩⟩

/-- Cutting dashes off the end of what begins a label leaves a label. -/
theorem label_rdropWhile (hchars : ∀ c ∈ l, isNameChar c = true ∨ c = '-')
    (hfirst : ∀ c, l.head? = some c → isNameChar c = true) (hne : l.rdropWhile isDash ≠ []) : Label (l.rdropWhile isDash) := by
  have hpre := rdropWhile_prefix isDash (l := l)
  refine ⟨fun c hc => hchars c (hpre.subset hc), ?_, ?_⟩
  · obtain ⟨c, rest, hcons⟩ := exists_cons_of_ne_nil hne
    obtain ⟨back, hback⟩ := hpre
    refine ⟨c, by rw [hcons, List.head?_cons], hfirst c ?_⟩
    rw [← hback, hcons, cons_append, List.head?_cons]
  · refine ⟨_, List.getLast?_eq_getLast_of_ne_nil hne, ?_⟩
    exact nameChar_of_not_dash (hchars _ (hpre.subset (getLast_mem hne))) (rdropWhile_last_not isDash l hne)

theorem label_trimDashes (hchars : ∀ c ∈ l, isNameChar c = true ∨ c = '-') (hne : trimDashes l ≠ []) : Label (trimDashes l) := by
  have hsuffix := dropWhile_suffix isDash (l := l)
  refine label_rdropWhile (fun c hc => hchars c (hsuffix.subset hc)) (fun c hc => ?_) hne
  rw [← List.find?_not_eq_head?_dropWhile] at hc
  exact nameChar_of_not_dash (hchars c (mem_of_find?_eq_some hc)) (by simpa using List.find?_some hc)

theorem Label.append (ha : Label a) (hb : Label b) : Label (a ++ '-' :: b) := by
  obtain ⟨c, hc, hcname⟩ := ha.first
  obtain ⟨d, hd, hdname⟩ := hb.last
  refine ⟨fun x hx => ?_, ⟨c, by rw [List.head?_append_of_ne_nil _ ha.ne_nil, hc], hcname⟩, ⟨d, ?_, hdname⟩⟩
  · rcases mem_append.mp hx with hx | hx
    · exact ha.chars x hx
    · rcases mem_cons.mp hx with rfl | hx
      · exact .inr rfl
      · exact hb.chars x hx
  · rw [List.getLast?_append_of_ne_nil _ (cons_ne_nil _ _), List.getLast?_cons_of_ne_nil hb.ne_nil, hd]

theorem Label.trimDashes_eq (h : Label l) : trimDashes l = l := by
  obtain ⟨c, hc, hcname⟩ := h.first
  obtain ⟨d, hd, hdname⟩ := h.last
  have hdash : ∀ x, isNameChar x = true → isDash x = false := by
    intro x hx
    rw [isDash, beq_eq_false_iff_ne]
    rintro rfl
    revert hx
    decide
  rw [trimDashes]
  have hfront : l.dropWhile isDash = l := by
    cases l with
    | nil => cases hc
    | cons x rest =>
      obtain rfl := Option.some.inj hc
      rw [dropWhile_cons_of_neg (by rw [hdash x hcname]; exact Bool.false_ne_true)]
  rw [hfront, rdropWhile_eq_self_iff]
  intro hne
  rw [List.getLast?_eq_getLast_of_ne_nil hne] at hd
  rw [Option.some.inj hd, hdash d hdname]
  exact Bool.false_ne_true

/-! ### Parts -/

theorem label_sanitizeSegment (s : String) : Label (sanitizeSegment s) := by
  have hchars : ∀ inRun cs, ∀ c ∈ replaceInvalid inRun cs, isNameChar c = true ∨ c = '-' := by
    intro inRun cs
    induction cs generalizing inRun with
    | nil => exact fun c hc => absurd hc not_mem_nil
    | cons x cs ih =>
      rw [replaceInvalid]
      split_ifs with hx
      · exact forall_mem_cons.mpr ⟨.inl hx, ih false⟩
      · exact ih true
      · exact forall_mem_cons.mpr ⟨.inr rfl, ih true⟩
  simp only [sanitizeSegment]
  split_ifs with hempty
  · exact label_x
  · exact label_trimDashes (hchars false _) hempty

theorem cutPart_label (h : Label l) : Label (cutPart l) := by
  simp only [cutPart]
  split_ifs with hempty
  · exact label_x
  · exact label_trimDashes (fun c hc => h.chars c (dropLast_subset l hc)) hempty

theorem cutPart_length (h : 2 ≤ l.length) : (cutPart l).length < l.length := by
  simp only [cutPart]
  split_ifs with hempty
  · exact h
  · have hle : (trimDashes l.dropLast).length ≤ l.dropLast.length :=
      (( rdropWhile_prefix isDash _).length_le).trans (dropWhile_suffix isDash).length_le
    rw [length_dropLast] at hle
    omega

theorem join_cons_cons (a b : List Char) (rest : List (List Char)) : join (a :: b :: rest) = a ++ '-' :: join (b :: rest) := by
  rw [join, intercalate_cons_cons, append_assoc]
  rfl

theorem label_join (hne : parts ≠ []) (h : ∀ p ∈ parts, Label p) : Label (join parts) := by
  induction parts with
  | nil => exact absurd rfl hne
  | cons p rest ih =>
    obtain ⟨hp, hrest⟩ := forall_mem_cons.mp h
    cases rest with
    | nil => simpa [join] using hp
    | cons q rest =>
      rw [join_cons_cons]
      exact hp.append (ih (cons_ne_nil q rest) hrest)

theorem join_length (hne : parts ≠ []) : (join parts).length + 1 = (parts.map fun p => p.length + 1).sum := by
  induction parts with
  | nil => exact absurd rfl hne
  | cons p rest ih =>
    cases rest with
    | nil => simp [join]
    | cons q rest =>
      have hrest := ih (cons_ne_nil q rest)
      rw [join_cons_cons, length_append, length_cons, map_cons, sum_cons, ← hrest]
      omega

theorem longest_spec (parts : List (List Char)) (best : Nat) (done rest : List (List Char)) (hparts : parts = done ++ rest)
    (hbest : best < parts.length) (hdone : ∀ p ∈ done, p.length ≤ (parts.getD best []).length) :
    longest parts best done.length rest < parts.length ∧
      ∀ p ∈ parts, p.length ≤ (parts.getD (longest parts best done.length rest) []).length := by
  induction rest generalizing best done with
  | nil =>
    rw [append_nil] at hparts
    exact ⟨hbest, hparts ▸ hdone⟩
  | cons q rest ih =>
    have hq : parts.getD done.length [] = q := by
      rw [hparts]
      simp
    have hlen : done.length < parts.length := by
      rw [hparts]
      simp
    have hnext := ih (if q.length > (parts.getD best []).length then done.length else best) (done ++ [q])
      (by rw [hparts, append_assoc, singleton_append]) (by split_ifs <;> assumption) (fun p hp => by
        rcases mem_append.mp hp with hp | hp
        · have hle := hdone p hp
          split_ifs with hlonger
          · rw [hq]
            omega
          · exact hle
        · rw [mem_singleton.mp hp]
          split_ifs with hlonger
          · rw [hq]
          · omega)
    rw [length_append, length_singleton] at hnext
    exact hnext

theorem sum_modify_cutPart {i : Nat} (h : i < parts.length) (hlong : 2 ≤ (parts.getD i []).length) :
    ((parts.modify i cutPart).map fun p => p.length + 1).sum < (parts.map fun p => p.length + 1).sum := by
  induction parts generalizing i with
  | nil => exact absurd h (Nat.not_lt_zero i)
  | cons p rest ih =>
    cases i with
    | zero =>
      have hcut := cutPart_length (l := p) hlong
      rw [modify_zero_cons, map_cons, map_cons, sum_cons, sum_cons]
      omega
    | succ i =>
      have hrest := ih (i := i) (Nat.lt_of_succ_lt_succ h) hlong
      rw [modify_succ_cons, map_cons, map_cons, sum_cons, sum_cons]
      omega

theorem mem_modify_cutPart {i : Nat} (h : ∀ p ∈ parts, Label p) : ∀ p ∈ parts.modify i cutPart, Label p := by
  induction parts generalizing i with
  | nil => simp
  | cons p rest ih =>
    obtain ⟨hp, hrest⟩ := forall_mem_cons.mp h
    cases i with
    | zero => exact forall_mem_cons.mpr ⟨cutPart_label hp, hrest⟩
    | succ i => exact forall_mem_cons.mpr ⟨hp, ih hrest⟩

/-- The steps of the loop are enough: while the name is too long, the longest of at most three parts loses a character. -/
theorem shorten_length (steps : Nat) (hne : parts ≠ []) (hthree : parts.length ≤ 3) (h : ∀ p ∈ parts, Label p)
    (hsteps : (join parts).length ≤ 63 + steps) :
    (join (shorten steps parts)).length ≤ 63 ∧ Label (join (shorten steps parts)) := by
  induction steps generalizing parts with
  | zero => exact ⟨hsteps, label_join hne h⟩
  | succ steps ih =>
    rw [shorten]
    split_ifs with hshort
    · exact ⟨hshort, label_join hne h⟩
    obtain ⟨hlt, hall⟩ := longest_spec parts 0 [] parts rfl (length_pos_iff.mpr hne) (fun p hp => absurd hp not_mem_nil)
    rw [length_nil] at hlt hall
    have hlong : 2 ≤ (parts.getD (longest parts 0 0 parts) []).length := by
      by_contra hshortest
      have hsum : (parts.map fun p => p.length + 1).sum ≤ parts.length * 2 := by
        have hle := sum_le_card_nsmul (parts.map fun p => p.length + 1) 2 (fun x hx => by
          obtain ⟨p, hp, rfl⟩ := mem_map.mp hx
          have := hall p hp
          omega)
        simpa using hle
      have hjoin := join_length hne
      omega
    have hsum := sum_modify_cutPart hlt hlong
    have hlen : (parts.modify (longest parts 0 0 parts) cutPart).length = parts.length := length_modify ..
    have hne' : parts.modify (longest parts 0 0 parts) cutPart ≠ [] := by
      rw [← length_pos_iff, hlen]
      exact length_pos_iff.mpr hne
    rw [← join_length hne, ← join_length hne'] at hsum
    exact ih hne' (hlen ▸ hthree) (mem_modify_cutPart h) (by omega)

theorem sanitizeArtifactName_label (pipeline step output : String) :
    Label (sanitizeArtifactName pipeline step output) ∧ (sanitizeArtifactName pipeline step output).length ≤ 63 := by
  have hall : ∀ parts : List (List Char), parts ≠ [] → parts.length ≤ 3 → (∀ p ∈ parts, Label p) →
      ∀ name, name = join parts → Label (if name.length ≤ 63 then name else
        if trimDashes (join (shorten name.length parts)) = [] then "artifact".toList
        else trimDashes (join (shorten name.length parts))) ∧
      (if name.length ≤ 63 then name else
        if trimDashes (join (shorten name.length parts)) = [] then "artifact".toList
        else trimDashes (join (shorten name.length parts))).length ≤ 63 := by
    rintro parts hne hthree hlabels name rfl
    by_cases hshort : (join parts).length ≤ 63
    · rw [if_pos hshort]
      exact ⟨label_join hne hlabels, hshort⟩
    · obtain ⟨hlen, hlabel⟩ := shorten_length _ hne hthree hlabels (Nat.le_add_left _ 63)
      rw [if_neg hshort, hlabel.trimDashes_eq, if_neg hlabel.ne_nil]
      exact ⟨hlabel, hlen⟩
  have hp := label_sanitizeSegment pipeline
  have hs := label_sanitizeSegment step
  have ho := label_sanitizeSegment output
  refine hall _ ?_ ?_ ?_ _ rfl
  · split_ifs <;> exact cons_ne_nil _ _
  · split_ifs <;> simp
  · split_ifs <;> simp [hp, hs, ho]

theorem hashTuple_spec (pipeline step output : String) : (hashTuple pipeline step output).length = 4 ∧
    ∀ c ∈ hashTuple pipeline step output, isNameChar c = true := by
  have hdigit : ∀ n, isNameChar (base36Digit n) = true := by
    have hall : ∀ k : Fin 36, isNameChar ("0123456789abcdefghijklmnopqrstuvwxyz".toList.getD k.val '0') = true := by decide
    exact fun n => hall ⟨n % 36, Nat.mod_lt n (by decide)⟩
  have hformat : ∀ steps n digits, (∀ c ∈ digits, isNameChar c = true) →
      ∀ c ∈ formatBase36 steps n digits, isNameChar c = true := by
    intro steps
    induction steps with
    | zero => exact fun _ _ h => h
    | succ steps ih =>
      intro n digits h
      have hnext : ∀ c ∈ base36Digit n :: digits, isNameChar c = true := forall_mem_cons.mpr ⟨hdigit n, h⟩
      rw [formatBase36]
      split_ifs
      · exact hnext
      · exact ih _ _ hnext
  simp only [hashTuple]
  generalize hs : formatBase36 7 _ [] = s
  have hchars : ∀ c ∈ s, isNameChar c = true := hs ▸ hformat _ _ _ (fun c hc => absurd hc not_mem_nil)
  constructor
  · rw [length_take, length_append, length_replicate]
    omega
  intro c hc
  rcases mem_append.mp (mem_of_mem_take hc) with hc | hc
  · rw [eq_of_mem_replicate hc]
    decide
  · exact hchars c hc

theorem suffixedName_label (output : PipelineOutput) :
    Label (suffixedName pipeline output) ∧ (suffixedName pipeline output).length ≤ 63 := by
  obtain ⟨hbase, hlen⟩ := sanitizeArtifactName_label pipeline output.step output.name
  obtain ⟨hfour, hhash⟩ := hashTuple_spec pipeline output.step output.name
  have hsuffix : Label (hashTuple pipeline output.step output.name) := by
    have hne : hashTuple pipeline output.step output.name ≠ [] := by
      rw [← length_pos_iff]
      omega
    obtain ⟨c, rest, hcons⟩ := exists_cons_of_ne_nil hne
    exact ⟨fun c hc => .inl (hhash c hc), ⟨c, by rw [hcons, List.head?_cons], hhash c (hcons ▸ mem_cons_self)⟩,
      ⟨_, List.getLast?_eq_getLast_of_ne_nil hne, hhash _ (getLast_mem hne)⟩⟩
  simp only [suffixedName, length_cons, hfour]
  change Label (baseName pipeline output) at hbase
  change (baseName pipeline output).length ≤ 63 at hlen
  split_ifs with hlong
  · obtain ⟨c, hc, hcname⟩ := hbase.first
    have hhead : ((baseName pipeline output).take (63 - (4 + 1))).head? = some c := by
      rw [List.head?_take, if_neg (by decide), hc]
    have hchars : ∀ c ∈ (baseName pipeline output).take (63 - (4 + 1)), isNameChar c = true ∨ c = '-' :=
      fun c hc => hbase.chars c (mem_of_mem_take hc)
    have hcut : ((baseName pipeline output).take (63 - (4 + 1))).rdropWhile isDash ≠ [] := by
      intro hnil
      have hdash := rdropWhile_eq_nil_iff.mp hnil c (mem_of_head? hhead)
      rw [beq_iff_eq.mp hdash] at hcname
      revert hcname
      decide
    have hle := ( rdropWhile_prefix isDash ((baseName pipeline output).take (63 - (4 + 1)))).length_le
    rw [length_take] at hle
    refine ⟨(label_rdropWhile hchars (fun d hd => ?_) hcut).append hsuffix, ?_⟩
    · rw [hhead] at hd
      exact Option.some.inj hd ▸ hcname
    · rw [length_append, length_cons, hfour]
      omega
  · refine ⟨hbase.append hsuffix, ?_⟩
    rw [length_append, length_cons, hfour]
    omega

/-! ### Renaming -/

/-- An output is renamed behind others, the last of them first: one of them has its name, plain or renamed. -/
def renamed : List PipelineOutput → PipelineOutput → Bool
  | [], _ => false
  | e :: before, o =>
    renamed before o || baseName pipeline e == baseName pipeline o ||
      (renamed before e && suffixedName pipeline e == baseName pipeline o)

def nameOf (before : List PipelineOutput) (o : PipelineOutput) : List Char :=
  if renamed pipeline before o then suffixedName pipeline o else baseName pipeline o

/-- Each output with those before it, the last of them first. -/
def earlier (before : List PipelineOutput) : List PipelineOutput → List (List PipelineOutput × PipelineOutput)
  | [] => []
  | o :: rest => (before, o) :: earlier (o :: before) rest

structure NamesSound (outputs : List PipelineOutput) : Prop where
  unique : (outputs.zip (computeArtifactNames pipeline outputs)).Pairwise fun a b => a.1 ≠ b.1 → a.2 ≠ b.2
  valid : ∀ name ∈ computeArtifactNames pipeline outputs, Label name ∧ name.length ≤ 63
  stable : ∀ more, computeArtifactNames pipeline outputs <+: computeArtifactNames pipeline (outputs ++ more)

def taken : List PipelineOutput → List (List Char)
  | [] => []
  | e :: before => nameOf pipeline before e :: taken before

variable {before outputs : List PipelineOutput} {o : PipelineOutput}

theorem mem_taken : baseName pipeline o ∈ taken pipeline before ↔ renamed pipeline before o = true := by
  induction before generalizing o with
  | nil => simp [taken, renamed]
  | cons e before ih =>
    rw [taken, mem_cons, ih, renamed, Bool.or_eq_true, Bool.or_eq_true, Bool.and_eq_true, beq_iff_eq, beq_iff_eq, nameOf,
      or_assoc, eq_comm]
    by_cases hrenamed : renamed pipeline before e = true
    · rw [if_pos hrenamed]
      constructor
      · exact fun h => h.elim (fun h => .inr (.inr ⟨hrenamed, h⟩)) .inl
      rintro (h | h | h)
      · exact .inr h
      · -- a name that `e` had to give up is taken
        exact .inr (ih.mp (h ▸ ih.mpr hrenamed))
      · exact .inl h.2
    · rw [if_neg hrenamed]
      constructor
      · exact fun h => h.elim (fun h => .inr (.inl h)) .inl
      · rintro (h | h | h)
        · exact .inr h
        · exact .inl h
        · exact absurd h.1 hrenamed

theorem namesFrom_eq (before outputs : List PipelineOutput) : namesFrom pipeline (taken pipeline before) outputs =
    (earlier before outputs).map fun x => nameOf pipeline x.1 x.2 := by
  induction outputs generalizing before with
  | nil => rfl
  | cons o rest ih =>
    have hname : artifactNameForOutput pipeline o (taken pipeline before) = nameOf pipeline before o := by
      rw [artifactNameForOutput, nameOf, if_congr (mem_taken pipeline) rfl rfl]
    rw [namesFrom, hname, earlier, map_cons]
    exact congrArg _ (ih (o :: before))

theorem computeArtifactNames_eq (outputs : List PipelineOutput) : computeArtifactNames pipeline outputs =
    (earlier [] outputs).map fun x => nameOf pipeline x.1 x.2 := namesFrom_eq pipeline [] outputs

theorem earlier_append (before outputs more : List PipelineOutput) :
    ∃ rest, earlier before (outputs ++ more) = earlier before outputs ++ rest := by
  induction outputs generalizing before with
  | nil => exact ⟨_, rfl⟩
  | cons o outputs ih =>
    obtain ⟨rest, hrest⟩ := ih (o :: before)
    exact ⟨rest, congrArg _ hrest⟩

theorem zip_earlier : outputs.zip ((earlier before outputs).map fun x => nameOf pipeline x.1 x.2) =
    (earlier before outputs).map fun x => (x.2, nameOf pipeline x.1 x.2) := by
  induction outputs generalizing before with
  | nil => rfl
  | cons o outputs ih => rw [earlier, map_cons, map_cons, zip_cons_cons, ih]

theorem taken_stays {name : List Char} (hname : name ∈ taken pipeline before) :
    ∀ b ∈ earlier before outputs, name ∈ taken pipeline b.1 := by
  induction outputs generalizing before with
  | nil => exact fun b hb => absurd hb not_mem_nil
  | cons o rest ih =>
    intro b hb
    rcases mem_cons.mp hb with rfl | hb
    · exact hname
    · have htaken : name ∈ taken pipeline (o :: before) := mem_cons_of_mem _ hname
      exact ih htaken b hb

/-- An output that keeps its name has another name than those before it. -/
theorem kept_names_fresh (before outputs : List PipelineOutput) : (earlier before outputs).Pairwise fun a b =>
    ¬renamed pipeline b.1 b.2 = true → nameOf pipeline a.1 a.2 ≠ baseName pipeline b.2 := by
  induction outputs generalizing before with
  | nil => exact .nil
  | cons o rest ih =>
    refine pairwise_cons.mpr ⟨fun b hb hkept hsame => ?_, ih (o :: before)⟩
    have htaken : nameOf pipeline before o ∈ taken pipeline b.1 := taken_stays pipeline mem_cons_self b hb
    rw [hsame] at htaken
    exact hkept ((mem_taken pipeline).mp htaken)

end Paprika.Pipelines.ArtifactNames
