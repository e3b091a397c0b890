import Paprika.Insights.QueryTemplate

/-!
# Query templates in the browser

`drilldown.ts`: the browser checks and expands a template in one pass over its UTF-16 code units.

* `interpolateLiterals`, `interpolateQueryLiterals` — from the source;
* `Stands` — a code unit that comes from a character, `Alike` — the states of the two scanners;
* `validateTemplate_skip`, `interpolateFrom_skip` — what the two scanners do with what they have passed over.
-/

namespace Paprika.Insights

open Lib.Text Option Bool

/-! ### The scanner -/

def unitIs (u : UInt16) (c : Char) : Bool := u.toNat == c.toNat

def unitIn (u : UInt16) (chars : String) : Bool := chars.toList.any fun c => unitIs u c

/-- `\s`. -/
def spaceUnit (u : UInt16) : Bool :=
  let n := u.toNat
  (0x09 ≤ n && n ≤ 0x0D) || n == 0x20 || n == 0xA0 || n == 0x1680 || (0x2000 ≤ n && n ≤ 0x200A) || n == 0x2028 ||
    n == 0x2029 || n == 0x202F || n == 0x205F || n == 0x3000 || n == 0xFEFF

def letterUnit (u : UInt16) : Bool := (97 ≤ u.toNat && u.toNat ≤ 122) || (65 ≤ u.toNat && u.toNat ≤ 90)

def digitUnit (u : UInt16) : Bool := 48 ≤ u.toNat && u.toNat ≤ 57

/-- `^[A-Za-z_][A-Za-z0-9_]*$` -/
def identifierUnits : List UInt16 → Bool
  | [] => false
  | u :: us => (letterUnit u || unitIs u '_') && us.all fun v => letterUnit v || digitUnit v || unitIs v '_'

def reservedNames : List (List UInt16) := ["__proto__", "prototype", "constructor"].map fun s => utf16 s.toList

def variableNameSchema (name : List UInt16) : Bool :=
  1 ≤ name.length && name.length ≤ 64 && identifierUnits name && !reservedNames.contains name

def nameOf (name : List UInt16) : String := String.ofList (name.map fun u => Char.ofNat u.toNat)

namespace QueryTemplateState

def scanQuote (s : QueryTemplateState UInt16) (quote char : UInt16) : QueryTemplateState UInt16 :=
  if unitIs quote '`' = false ∧ s.escaped = true then { s with escaped := false }
  else if unitIs quote '`' = false ∧ unitIs char '\\' = true then { s with escaped := true }
  else if char = quote then { s with quote := none }
  else s

/-- What `interpolateLiterals` does with a code unit outside placeholders, and whether it passes over the next one. -/
def scan (s : QueryTemplateState UInt16) (char : UInt16) (next : Option UInt16) : QueryTemplateState UInt16 × Bool :=
  match s.comment with
  | some .line => if unitIn char "\n\r" then ({ s with comment := none }, false) else (s, false)
  | some .block =>
    if unitIs char '*' && next.any (unitIs · '/') then ({ s with comment := none }, true) else (s, false)
  | none =>
    match s.quote with
    | some quote => (s.scanQuote quote char, false)
    | none =>
      if unitIn char "\"'`" then ({ s with quote := some char }, false)
      else if unitIs char '#' || (unitIs char '/' && next.any (unitIs · '/')) then
        ({ s with comment := some .line }, false)
      else if unitIs char '/' && next.any (unitIs · '*') then ({ s with comment := some .block }, true)
      else (s, false)

end QueryTemplateState

def isCloseUnit (u : UInt16) : Bool := unitIs u '}'

/-- `JSON.stringify`, of a code unit that is not a lone surrogate. -/
def stringifyUnit (u : UInt16) : List UInt16 :=
  if unitIn u "\"\\" then [92, u]
  else if u.toNat = 8 then [92, 98]
  else if u.toNat = 9 then [92, 116]
  else if u.toNat = 10 then [92, 110]
  else if u.toNat = 12 then [92, 102]
  else if u.toNat = 13 then [92, 114]
  else if u.toNat < 32 then utf16 ('\\' :: 'u' :: hexDigits u.toNat)
  else [u]

def stringify {F : Numbers} : Value F → List UInt16
  | .text s => 34 :: (utf16 s.toList).flatMap stringifyUnit ++ [34]
  | .number n => utf16 (F.format n).toList

def Value.isNumber {F : Numbers} : Value F → Bool
  | .text _ => false
  | .number _ => true

def placeholderBoundaries (previous following : Option UInt16) (numeric : Bool) : Bool :=
  let before := if numeric then "[(=~!<>:,|&+-*/%^@" else "[(=~!<>:,|&"
  previous.all (fun u => spaceUnit u || unitIn u before) &&
    following.all fun u => spaceUnit u || unitIn u ",\x7d)]|&!<>=:+-*/%^"

/-- The loop of `interpolateLiterals` at a code unit that follows `previous`, with so many code units to be passed over. -/
def interpolateFrom {F : Numbers} (values : String → Option (Value F)) :
    Nat → Option UInt16 → QueryTemplateState UInt16 → List UInt16 → Except QueryError (List UInt16)
  | _, _, _, [] => .ok []
  | skip + 1, _, s, char :: rest => interpolateFrom values skip (some char) s rest
  | 0, previous, s, char :: rest =>
    if unitIs char '{' && rest.head?.any (unitIs · '{') then
      match untilClose isCloseUnit rest.tail with
      | none => .error (.template .unfinished)
      | some (name, following) =>
        if !variableNameSchema name then .error (.template (.undeclared (nameOf name)))
        else if s.quote.isSome || s.comment.isSome then .error (.template .notLiteral)
        else if !placeholderBoundaries previous following.head? ((values (nameOf name)).any Value.isNumber) then
          .error (.template .fragment)
        else match values (nameOf name) with
          | none => .error .noValue
          | some value => (interpolateFrom values (name.length + 3) (some char) s rest).map (stringify value ++ ·)
    else
      let (s', passed) := s.scan char rest.head?
      (interpolateFrom values (if passed then 1 else 0) (some char) s' rest).map
        (char :: (if passed then rest.head?.toList else []) ++ ·)

def interpolateLiterals {F : Numbers} (query : String) (values : String → Option (Value F)) :
    Except QueryError (List UInt16) :=
  if maxQueryUnits < stringUnits query then .error .templateLimit
  else match interpolateFrom values 0 none {} (utf16 query.toList) with
    | .error e => .error e
    | .ok output => if maxQueryUnits < output.length then .error .expandedLimit else .ok output

def variableValueSchema (value : String) : Bool := stringUnits value ≤ 1024

/-- A finite number, or a text of at most 1,024 code units. -/
def Value.bounded {F : Numbers} : Value F → Bool
  | .text s => variableValueSchema s
  | .number _ => true

def interpolateQueryLiterals {F : Numbers} (query : String) (values : List (String × Value F)) :
    Except QueryError (List UInt16) :=
  if 20 < values.length then .error .parameterType
  else if values.all (fun e => variableNameSchema (utf16 e.1.toList) && e.2.bounded) then
    interpolateLiterals query fun name => values.lookup name
  else .error .boundedText

/-! ### Code units and characters -/

/-- The code unit is the character, or one of the two surrogates of it. -/
def Stands (u : UInt16) (c : Char) : Prop :=
  u.toNat = c.toNat ∨ (0xD800 ≤ u.toNat ∧ u.toNat ≤ 0xDFFF ∧ 0x10000 ≤ c.toNat)

theorem utf16Char_cases (c : Char) : (∃ u, utf16Char c = [u] ∧ u.toNat = c.toNat) ∨
    ∃ a b, utf16Char c = [a, b] ∧ Stands a c ∧ Stands b c ∧ 0x10000 ≤ c.toNat := by
  have hvalid : c.toNat < 0x110000 := by
    have h := c.valid
    rcases h with h | h
    · have : c.toNat < 0xD800 := h
      omega
    · exact h.2
  rw [utf16Char]
  split_ifs with hc
  · exact .inl ⟨_, rfl, UInt16.toNat_ofNat_of_lt' hc⟩
  have ha : 0xD800 + (c.toNat - 0x10000) / 0x400 < 65536 := by omega
  have hb : 0xDC00 + (c.toNat - 0x10000) % 0x400 < 65536 := by omega
  refine .inr ⟨_, _, rfl, .inr ?_, .inr ?_, by omega⟩
  · rw [UInt16.toNat_ofNat_of_lt' ha]
    omega
  · rw [UInt16.toNat_ofNat_of_lt' hb]
    omega

theorem utf16_cons (c : Char) (s : List Char) : utf16 (c :: s) = utf16Char c ++ utf16 s := List.flatMap_cons

theorem utf16_append (s t : List Char) : utf16 (s ++ t) = utf16 s ++ utf16 t := List.flatMap_append

variable {c : Char} {name : List Char} {s : QueryTemplateState Char} {t : QueryTemplateState UInt16} {u : UInt16}

theorem Stands.unitIs (h : Stands u c) {d : Char} (hd : d.toNat < 0xD800) : unitIs u d = decide (c = d) := by
  rw [Insights.unitIs, beq_eq_decide]
  refine decide_eq_decide.mpr ?_
  rcases h with h | ⟨hlow, hhigh, hc⟩
  · rw [h]
    exact Char.toNat_inj
  constructor
  · intro heq
    omega
  · intro heq
    rw [heq] at hc
    omega

theorem Stands.unitIn (h : Stands u c) {chars : String}
    (hchars : ∀ d ∈ chars.toList, d.toNat < 0xD800) : unitIn u chars = chars.toList.contains c := by
  rw [Insights.unitIn, List.contains_eq_any_beq]
  have hany : ∀ l : List Char, (∀ d ∈ l, d.toNat < 0xD800) → (l.any fun d => Insights.unitIs u d) = l.any fun d => c == d := by
    intro l
    induction l with
    | nil =>
      intro _
      rfl
    | cons d l ih =>
      intro hl
      rw [List.any_cons, List.any_cons, h.unitIs (hl d List.mem_cons_self), ih fun e he => hl e (List.mem_cons_of_mem _ he),
        beq_eq_decide]
  exact hany chars.toList hchars

theorem Stands.spaceUnit (h : Stands u c) : spaceUnit u = (c.toNat == 0xFEFF || (c.toNat != 0x85 && isSpace c)) := by
  rw [Bool.eq_iff_iff]
  simp only [Insights.spaceUnit, isSpace, Bool.or_eq_true, Bool.and_eq_true, decide_eq_true_eq, beq_iff_eq, bne_iff_ne]
  rcases h with h | ⟨hlow, hhigh, hc⟩
  · rw [h]
    omega
  · omega

def StandsFor : Option UInt16 → Option Char → Prop
  | none, none => True
  | some u, some c => Stands u c
  | _, _ => False

theorem StandsFor.any {next : Option UInt16} {next' : Option Char} (h : StandsFor next next') {d : Char}
    (hd : d.toNat < 0xD800) : next.any (unitIs · d) = decide (next' = some d) := by
  rcases next with - | u
  · rcases next' with - | c
    · rfl
    · exact h.elim
  rcases next' with - | c
  · exact h.elim
  · have hstands : Stands u c := h
    rw [any_some, hstands.unitIs hd]
    exact decide_eq_decide.mpr ⟨congrArg some, some.inj⟩

theorem head_utf16 (text : List Char) : StandsFor (utf16 text).head? text.head? := by
  cases text with
  | nil => exact trivial
  | cons c rest =>
  rw [utf16_cons]
  rcases utf16Char_cases c with ⟨u, hu, hsame⟩ | ⟨a, b, hab, ha, -, -⟩
  · rw [hu]
    exact .inl hsame
  · rw [hab]
    exact ha

theorem placeholderBoundaries_eq {previous following : Option UInt16} {previous' following' : Option Char}
    (hp : StandsFor previous previous') (hf : StandsFor following following') (kind : ParameterType) :
    placeholderBoundaries previous following (decide (kind = .number)) =
      validPlaceholderBoundaries previous' following' kind := by
  have hall : ∀ (next : Option UInt16) (next' : Option Char) (chars : String), StandsFor next next' →
      (∀ d ∈ chars.toList, d.toNat < 0xD800) →
      next.all (fun u => spaceUnit u || unitIn u chars) = next'.all fun c => literalBoundary c chars := by
    intro next next' chars hnext hchars
    rcases next with - | u
    · rcases next' with - | c
      · rfl
      · exact hnext.elim
    · rcases next' with - | c
      · exact hnext.elim
      · have hstands : Stands u c := hnext
        rw [all_some, all_some, hstands.spaceUnit, hstands.unitIn hchars, literalBoundary]
  have hafter : ∀ d ∈ (",\x7d)]|&!<>=:+-*/%^" : String).toList, d.toNat < 0xD800 :=
    List.forall_iff_forall_mem.mp (by decide)
  cases kind with
  | string =>
    have hpre : ∀ d ∈ ("[(=~!<>:,|&" : String).toList, d.toNat < 0xD800 :=
      List.forall_iff_forall_mem.mp (by decide)
    simp only [placeholderBoundaries, validPlaceholderBoundaries, hall _ _ _ hf hafter]
    exact congrArg (· && _) (hall _ _ _ hp hpre)
  | number =>
    have hpre : ∀ d ∈ ("[(=~!<>:,|&+-*/%^@" : String).toList, d.toNat < 0xD800 :=
      List.forall_iff_forall_mem.mp (by decide)
    simp only [placeholderBoundaries, validPlaceholderBoundaries, hall _ _ _ hf hafter]
    exact congrArg (· && _) (hall _ _ _ hp hpre)

/-! ### Names -/

def nameChar (c : Char) : Bool := isLetter c || isDigit c || c == '_'

theorem nameChar_lt (h : nameChar c = true) : c.toNat < 128 := by
  simp only [nameChar, isLetter, isDigit, or_eq_true, and_eq_true, decide_eq_true_eq, beq_iff_eq] at h
  have hle : ∀ a : Char, c ≤ a → c.toNat ≤ a.toNat := fun a ha => ha
  rcases h with ((⟨-, h⟩ | ⟨-, h⟩) | ⟨-, h⟩) | rfl
  · exact Nat.lt_of_le_of_lt (hle _ h) (by decide)
  · exact Nat.lt_of_le_of_lt (hle _ h) (by decide)
  · exact Nat.lt_of_le_of_lt (hle _ h) (by decide)
  · decide

theorem nameUnit_eq (h : u.toNat = c.toNat) : letterUnit u = isLetter c ∧ digitUnit u = isDigit c := by
  have hle : ∀ a b : Char, (a ≤ b) = (a.toNat ≤ b.toNat) := fun a b => rfl
  constructor
  · simp only [letterUnit, isLetter, h, hle]
    rfl
  · simp only [digitUnit, isDigit, h, hle]
    rfl

theorem utf16_ascii (h : ∀ c ∈ name, c.toNat < 128) : utf16 name = name.map fun c => UInt16.ofNat c.toNat := by
  induction name with
  | nil => rfl
  | cons c name ih =>
    have hc := h c List.mem_cons_self
    rw [utf16_cons, ih fun d hd => h d (List.mem_cons_of_mem _ hd), utf16Char, if_pos (by omega)]
    rfl

theorem variableIdentifier_chars (h : variableIdentifier name = true) :
    ∃ c cs, name = c :: cs ∧ (isLetter c || c == '_') = true ∧ cs.length ≤ 63 ∧ (cs.all nameChar) = true := by
  rcases name with - | ⟨c, cs⟩
  · cases h
  · rw [variableIdentifier, and_eq_true, and_eq_true] at h
    exact ⟨c, cs, rfl, h.1.1, of_decide_eq_true h.1.2, h.2⟩

theorem ascii_of_name (h : variableIdentifier name = true) : ∀ c ∈ name, c.toNat < 128 := by
  obtain ⟨c, cs, rfl, hc, -, hcs⟩ := variableIdentifier_chars h
  intro d hd
  rcases List.mem_cons.mp hd with rfl | hd
  · refine nameChar_lt ?_
    rw [nameChar]
    rw [Bool.or_eq_true] at hc
    rcases hc with hc | hc
    · rw [hc, Bool.true_or, Bool.true_or]
    · rw [hc, Bool.or_true]
  · exact nameChar_lt (List.all_eq_true.mp hcs d hd)

theorem nameOf_utf16 (h : ∀ c ∈ name, c.toNat < 128) : nameOf (utf16 name) = String.ofList name := by
  have hchar : ∀ c ∈ name, Char.ofNat (UInt16.ofNat c.toNat).toNat = c := by
    intro c hc
    rw [UInt16.toNat_ofNat_of_lt' (Nat.lt_trans (h c hc) (by decide)), Char.ofNat_toNat]
  rw [nameOf, utf16_ascii h, List.map_map]
  exact congrArg String.ofList ((List.map_congr_left hchar).trans (List.map_id name))

theorem variableNameSchema_of_valid (h : validVariableName (String.ofList name) = true) :
    variableNameSchema (utf16 name) = true := by
  rw [validVariableName, String.toList_ofList, and_eq_true, not_eq_true'] at h
  obtain ⟨hidentifier, hreserved⟩ := h
  have hascii := ascii_of_name hidentifier
  have hnot : reservedNames.contains (utf16 name) = false := by
    refine eq_false_iff.mpr fun hmem => ?_
    obtain ⟨r, hr, heq⟩ := List.mem_map.mp (List.contains_iff_mem.mp hmem)
    have hname : String.ofList name = r := by
      have hrascii : ∀ c ∈ r.toList, c.toNat < 128 := by
        have hall : ∀ r ∈ ["__proto__", "prototype", "constructor"], r.toList.Forall (·.toNat < 128) := by decide
        exact List.forall_iff_forall_mem.mp (hall r hr)
      rw [← nameOf_utf16 hascii, ← heq, nameOf_utf16 hrascii, String.ofList_toList]
    have hkey : reservedObjectKey r = true := by
      have hall : ∀ r ∈ ["__proto__", "prototype", "constructor"], reservedObjectKey r = true := by decide
      exact hall r hr
    rw [hname, hkey] at hreserved
    cases hreserved
  obtain ⟨c, cs, rfl, hc, hlen, hcs⟩ := variableIdentifier_chars hidentifier
  have hunit : ∀ d ∈ c :: cs, (UInt16.ofNat d.toNat).toNat = d.toNat := by
    intro d hd
    exact UInt16.toNat_ofNat_of_lt' (Nat.lt_trans (hascii d hd) (by decide))
  have hunder : ∀ d ∈ c :: cs, unitIs (UInt16.ofNat d.toNat) '_' = (d == '_') := by
    intro d hd
    rw [Stands.unitIs (.inl (hunit d hd)) (by decide), beq_eq_decide]
  rw [variableNameSchema, hnot, utf16_ascii hascii, List.map_cons, identifierUnits, List.length_cons, List.length_map]
  have hfirst : (letterUnit (UInt16.ofNat c.toNat) || unitIs (UInt16.ofNat c.toNat) '_') = true := by
    rw [(nameUnit_eq (hunit c List.mem_cons_self)).1, hunder c List.mem_cons_self]
    exact hc
  have hrest : ((cs.map fun c => UInt16.ofNat c.toNat).all fun v => letterUnit v || digitUnit v || unitIs v '_') = true := by
    rw [List.all_map, List.all_eq_true]
    intro d hd
    have hmem := List.mem_cons_of_mem c hd
    show (letterUnit _ || digitUnit _ || unitIs _ '_') = true
    rw [(nameUnit_eq (hunit d hmem)).1, (nameUnit_eq (hunit d hmem)).2, hunder d hmem]
    exact List.all_eq_true.mp hcs d hd
  rw [hfirst, hrest]
  simp only [Bool.and_true, Bool.not_false, Bool.and_eq_true, decide_eq_true_eq]
  omega

/-! ### The two scanners -/

/-- The states of the scanners of the server and of the browser. -/
structure Alike (s : QueryTemplateState Char) (t : QueryTemplateState UInt16) : Prop where
  comment : t.comment = s.comment
  escaped : t.escaped = s.escaped
  quote : StandsFor t.quote s.quote
  plain : ∀ q, s.quote = some q → q.toNat < 0xD800

theorem alike_init : Alike {} {} := by
  refine ⟨rfl, rfl, trivial, ?_⟩
  intro q hq
  cases hq

theorem Alike.setComment (h : Alike s t)
    (comment : Option Comment) : Alike { s with comment := comment } { t with comment := comment } :=
  ⟨rfl, h.escaped, h.quote, h.plain⟩

theorem Alike.setEscaped (h : Alike s t)
    (escaped : Bool) : Alike { s with escaped := escaped } { t with escaped := escaped } :=
  ⟨h.comment, rfl, h.quote, h.plain⟩

theorem Alike.unquote (h : Alike s t) : Alike { s with quote := none } { t with quote := none } := by
  refine ⟨h.comment, h.escaped, trivial, ?_⟩
  intro q hq
  cases hq

theorem Stands.eq_iff {v : UInt16} {q : Char} (hu : Stands u c) (hv : Stands v q) (hq : q.toNat < 0xD800) :
    u = v ↔ c = q := by
  have hv' : v.toNat = q.toNat := hv.elim id fun hbig => by omega
  have hiff := hu.unitIs hq
  rw [Insights.unitIs, beq_eq_decide, decide_eq_decide] at hiff
  rw [← hiff, ← hv']
  exact UInt16.toNat_inj.symm

theorem Alike.advanceQuote (h : Alike s t) {v : UInt16}
    {q : Char} (hu : Stands u c) (hv : Stands v q) (hq : q.toNat < 0xD800) :
    Alike (s.advanceQuote q c) (t.scanQuote v u) := by
  have htick : unitIs v '`' = false ↔ q ≠ '`' := by rw [hv.unitIs (by decide), decide_eq_false_iff_not]
  have hslash : unitIs u '\\' = true ↔ c = '\\' := by rw [hu.unitIs (by decide), decide_eq_true_eq]
  simp only [QueryTemplateState.advanceQuote, QueryTemplateState.scanQuote, htick, hslash, hu.eq_iff hv hq, h.escaped]
  split_ifs
  · exact h.setEscaped false
  · exact h.setEscaped true
  · have hclosed := h.unquote
    rw [h.escaped] at hclosed
    exact hclosed
  · exact h

theorem Alike.advance (h : Alike s t)
    {next : Option UInt16} {next' : Option Char} (hu : Stands u c) (hnext : StandsFor next next') :
    Alike (s.advance c next').1 (t.scan u next).1 ∧ (t.scan u next).2 = (s.advance c next').2 := by
  have hline : unitIn u "\n\r" = decide (c = '\n' ∨ c = '\r') := by
    rw [hu.unitIn (List.forall_iff_forall_mem.mp (by decide))]
    simp
  have hquotes : unitIn u "\"'`" = decide (c = '"' ∨ c = '\'' ∨ c = '`') := by
    rw [hu.unitIn (List.forall_iff_forall_mem.mp (by decide))]
    simp
  have hstar : unitIs u '*' = decide (c = '*') := hu.unitIs (by decide)
  have hslash : unitIs u '/' = decide (c = '/') := hu.unitIs (by decide)
  have hhash : unitIs u '#' = decide (c = '#') := hu.unitIs (by decide)
  have hnextSlash : next.any (unitIs · '/') = decide (next' = some '/') := hnext.any (by decide)
  have hnextStar : next.any (unitIs · '*') = decide (next' = some '*') := hnext.any (by decide)
  obtain ⟨quote, comment, escaped⟩ := s
  obtain ⟨quote', comment', escaped'⟩ := t
  obtain rfl : comment' = comment := h.comment
  obtain rfl : escaped' = escaped := h.escaped
  rw [QueryTemplateState.advance, QueryTemplateState.scan]
  rcases comment' with - | - | -
  · have hquote : StandsFor quote' quote := h.quote
    rcases quote with - | q
    · rcases quote' with - | v
      · simp only [QueryTemplateState.startLiteral, hquotes, hhash, hslash, hnextSlash, hnextStar, decide_eq_true_eq,
          or_eq_true, and_eq_true]
        split_ifs with hopen
        · refine ⟨⟨rfl, rfl, hu, ?_⟩, rfl⟩
          intro q hq
          obtain rfl := some.inj hq
          rcases hopen with rfl | rfl | rfl <;> decide
        · exact ⟨h.setComment (some .line), rfl⟩
        · exact ⟨h.setComment (some .block), rfl⟩
        · exact ⟨h, rfl⟩
      · exact hquote.elim
    · rcases quote' with - | v
      · exact hquote.elim
      · exact ⟨h.advanceQuote hu hquote (h.plain q rfl), rfl⟩
  · simp only [hline, decide_eq_true_eq]
    split_ifs
    · exact ⟨h.setComment none, rfl⟩
    · exact ⟨h, rfl⟩
  · simp only [hstar, hnextSlash, decide_eq_true_eq, and_eq_true]
    split_ifs
    · exact ⟨h.setComment none, rfl⟩
    · exact ⟨h, rfl⟩

/-- A character of two code units is none that the scanner knows, so that it may come twice. -/
theorem advance_twice (hc : 0x10000 ≤ c.toNat) (hplain : ∀ q, s.quote = some q → q.toNat < 0xD800) :
    ∃ s', ∀ next, s.advance c next = (s', false) ∧ s'.advance c next = (s', false) := by
  have hne : ∀ d : Char, d.toNat < 0x10000 → c ≠ d := by
    rintro d hd rfl
    omega
  have hnewline : ¬(c = '\n' ∨ c = '\r') := not_or.mpr ⟨hne _ (by decide), hne _ (by decide)⟩
  have hquotes : ¬(c = '"' ∨ c = '\'' ∨ c = '`') :=
    not_or.mpr ⟨hne _ (by decide), not_or.mpr ⟨hne _ (by decide), hne _ (by decide)⟩⟩
  have hstar : c ≠ '*' := hne _ (by decide)
  have hslash : c ≠ '/' := hne _ (by decide)
  have hhash : c ≠ '#' := hne _ (by decide)
  have hback : c ≠ '\\' := hne _ (by decide)
  obtain ⟨quote, comment, escaped⟩ := s
  rcases comment with - | - | -
  · rcases quote with - | q
    · refine ⟨⟨none, none, escaped⟩, fun next => ?_⟩
      simp [QueryTemplateState.advance, QueryTemplateState.startLiteral, hquotes, hhash, hslash]
    have hq : c ≠ q := hne q (Nat.lt_trans (hplain q rfl) (by decide))
    by_cases hescaped : q ≠ '`' ∧ escaped = true
    · refine ⟨⟨some q, none, false⟩, fun next => ?_⟩
      simp [QueryTemplateState.advance, QueryTemplateState.advanceQuote, hescaped, hback, hq]
    · refine ⟨⟨some q, none, escaped⟩, fun next => ?_⟩
      simp [QueryTemplateState.advance, QueryTemplateState.advanceQuote, hescaped, hback, hq]
  · refine ⟨⟨quote, some .line, escaped⟩, fun next => ?_⟩
    simp [QueryTemplateState.advance, hnewline]
  · refine ⟨⟨quote, some .block, escaped⟩, fun next => ?_⟩
    simp [QueryTemplateState.advance, hstar]

section
variable {F : Numbers} (types : String → Option ParameterType) (values : String → Option (Value F))

theorem validateTemplate_skip (s : QueryTemplateState Char) (passed : List Char) (last : Char) (rest : List Char) :
    ∀ previous, validateTemplate types (passed.length + 1) previous s (passed ++ last :: rest) =
      validateTemplate types 0 (some last) s rest := by
  induction passed with
  | nil => exact fun _ => rfl
  | cons c passed ih => exact fun _ => ih (some c)

theorem interpolateFrom_skip (t : QueryTemplateState UInt16) (passed : List UInt16) (last : UInt16) (rest : List UInt16) :
    ∀ previous, interpolateFrom values (passed.length + 1) previous t (passed ++ last :: rest) =
      interpolateFrom values 0 (some last) t rest := by
  induction passed with
  | nil => exact fun _ => rfl
  | cons u passed ih => exact fun _ => ih (some u)

variable {types values}

theorem untilClose_eq {text name following : List Char} (h : untilClose isClose text = some (name, following)) :
    text = name ++ '}' :: '}' :: following := by
  fun_induction untilClose isClose text generalizing name with
  | case1 => cases h
  | case2 c => cases h
  | case3 c d rest hclose =>
    obtain ⟨rfl, rfl⟩ := Prod.mk.inj (some.inj h)
    obtain ⟨hc, hd⟩ := and_eq_true_iff.mp hclose
    obtain rfl : c = '}' := beq_iff_eq.mp hc
    obtain rfl : d = '}' := beq_iff_eq.mp hd
    rfl
  | case4 c d rest hclose ih =>
    obtain ⟨⟨name', following'⟩, hfound, heq⟩ := map_eq_some_iff.mp h
    obtain ⟨rfl, rfl⟩ := Prod.mk.inj heq
    rw [ih hfound]
    rfl
end

end Paprika.Insights
