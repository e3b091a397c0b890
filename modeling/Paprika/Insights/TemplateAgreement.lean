import Paprika.Insights.QueryValues

/-!
# Server and browser expand alike

The server checks a template over its characters and then expands it; the browser does both in one pass over UTF-16 code
units.

* `templateText` — the two passes of the server as one; its equations are the steps of the browser's loop;
* **`interpolateFrom_eq`** — from states that are alike both loops fail or both find the same text;
* **`interpolate_agree`** — where parameters have values of their types, server and browser fail both or expand alike.
-/

namespace Paprika.Insights

open Lib.KeyedMap List

/-! ### Placeholders -/

variable {u : UInt16}

theorem untilClose_cons {us : List UInt16} (h : (isCloseUnit u && us.head?.any isCloseUnit) = false) :
    untilClose isCloseUnit (u :: us) = (untilClose isCloseUnit us).map fun found => (u :: found.1, found.2) := by
  cases us with
  | nil => rfl
  | cons v us =>
    rw [head?_cons, Option.any_some] at h
    rw [untilClose, h, if_neg Bool.false_ne_true]

variable {c : Char}

/-- The code units of a character that is no brace of an end are passed over. -/
theorem untilClose_utf16Char {us : List UInt16} (h : (isClose c && us.head?.any isCloseUnit) = false) :
    untilClose isCloseUnit (utf16Char c ++ us) =
      (untilClose isCloseUnit us).map fun found => (utf16Char c ++ found.1, found.2) := by
  have hclose : ∀ u : UInt16, Stands u c → isCloseUnit u = isClose c := by
    intro u hu
    exact hu.unitIs (by decide)
  rcases utf16Char_cases c with ⟨u, hu, hsame⟩ | ⟨a, b, hab, ha, hb, hbig⟩
  · rw [hu, singleton_append, untilClose_cons]
    · rfl
    · rw [hclose u (.inl hsame)]
      exact h
  have hnot : isClose c = false := by
    refine Bool.eq_false_iff.mpr fun heq => ?_
    obtain rfl : c = '}' := beq_iff_eq.mp heq
    exact absurd hbig (by decide)
  rw [hab, cons_append, singleton_append, untilClose_cons, untilClose_cons, Option.map_map]
  · rfl
  · rw [hclose b hb, hnot, Bool.false_and]
  · rw [hclose a ha, hnot, Bool.false_and]

/-- A placeholder ends among the code units where it ends among the characters. -/
theorem untilClose_utf16 {text : List Char} :
    untilClose isCloseUnit (utf16 text) = (untilClose isClose text).map (Prod.map utf16 utf16) := by
  fun_induction untilClose isClose text with
  | case1 => rfl
  | case2 c =>
    rw [utf16_cons, untilClose_utf16Char (Bool.and_false _)]
    rfl
  | case3 c d rest hclosed =>
    obtain ⟨hc, hd⟩ := Bool.and_eq_true_iff.mp hclosed
    have hbrace : ∀ e : Char, isClose e = true → utf16Char e = [125] := by
      intro e he
      obtain rfl : e = '}' := beq_iff_eq.mp he
      decide
    rw [utf16_cons, utf16_cons, hbrace c hc, hbrace d hd]
    rfl
  | case4 c d rest hopen ih =>
    have hhead : (utf16 (d :: rest)).head?.any isCloseUnit = isClose d := by
      show _ = decide (d = '}')
      have hany := (head_utf16 (d :: rest)).any (show ('}' : Char).toNat < 0xD800 by decide)
      rw [show (utf16 (d :: rest)).head?.any isCloseUnit = _ from hany]
      exact decide_eq_decide.mpr ⟨Option.some.inj, congrArg some⟩
    rw [utf16_cons, untilClose_utf16Char (by rw [hhead]; exact Bool.eq_false_iff.mpr hopen), ih, Option.map_map,
      Option.map_map]
    rfl

theorem ascii_of_identifierUnits {name : List Char} (h : identifierUnits (utf16 name) = true) : ∀ c ∈ name, c.toNat < 128 := by
  have hsmall : ∀ u ∈ utf16 name, u.toNat < 128 := by
    intro u hu
    cases hname : utf16 name with
    | nil =>
      rw [hname] at hu
      cases hu
    | cons v vs =>
    rw [hname, identifierUnits, Bool.and_eq_true, all_eq_true] at h
    rw [hname] at hu
    have hunit : (letterUnit u || digitUnit u || unitIs u '_') = true := by
      rcases mem_cons.mp hu with rfl | hu
      · rw [Bool.or_eq_true] at h
        rcases h.1 with hletter | hunder
        · rw [hletter, Bool.true_or, Bool.true_or]
        · rw [hunder, Bool.or_true]
      · exact h.2 u hu
    simp only [letterUnit, digitUnit, unitIs, Bool.or_eq_true, Bool.and_eq_true, decide_eq_true_eq, beq_iff_eq] at hunit
    have hunderscore : ('_' : Char).toNat = 95 := rfl
    omega
  intro c hc
  rcases utf16Char_cases c with ⟨u, hu, hsame⟩ | ⟨a, b, hab, ha, -, hbig⟩
  · rw [← hsame]
    exact hsmall u (mem_flatMap.mpr ⟨c, hc, by rw [hu]; exact mem_cons_self⟩)
  · have hlow := hsmall a (mem_flatMap.mpr ⟨c, hc, by rw [hab]; exact mem_cons_self⟩)
    rcases ha with hsame | hsurrogate
    · omega
    · omega

theorem variableNameSchema_utf16 (name : List Char) :
    variableNameSchema (utf16 name) = validVariableName (String.ofList name) := by
  rw [Bool.eq_iff_iff]
  refine ⟨?_, variableNameSchema_of_valid⟩
  intro h
  simp only [variableNameSchema, Bool.and_eq_true, decide_eq_true_eq, Bool.not_eq_true'] at h
  obtain ⟨⟨⟨-, hlen⟩, hidentifier⟩, hreserved⟩ := h
  have hascii := ascii_of_identifierUnits hidentifier
  have hunit : ∀ d ∈ name, (UInt16.ofNat d.toNat).toNat = d.toNat := by
    intro d hd
    exact UInt16.toNat_ofNat_of_lt' (Nat.lt_trans (hascii d hd) (by decide))
  have hunder : ∀ d ∈ name, unitIs (UInt16.ofNat d.toNat) '_' = (d == '_') := by
    intro d hd
    exact Stands.unitIs (.inl (hunit d hd)) (by decide)
  rw [utf16_ascii hascii] at hidentifier hlen
  rw [validVariableName, String.toList_ofList, Bool.and_eq_true]
  constructor
  · cases name with
    | nil => cases hidentifier
    | cons c cs =>
    rw [map_cons, identifierUnits, Bool.and_eq_true, (nameUnit_eq (hunit c mem_cons_self)).1,
      hunder c mem_cons_self] at hidentifier
    rw [length_map, length_cons] at hlen
    rw [variableIdentifier, hidentifier.1, Bool.true_and, Bool.and_eq_true, decide_eq_true_eq, all_eq_true]
    refine ⟨by omega, ?_⟩
    intro d hd
    have hall := all_eq_true.mp hidentifier.2 _ (mem_map_of_mem hd)
    have hmem := mem_cons_of_mem c hd
    rwa [(nameUnit_eq (hunit d hmem)).1, (nameUnit_eq (hunit d hmem)).2, hunder d hmem] at hall
  · rw [Bool.not_eq_true']
    refine Bool.eq_false_iff.mpr fun hkey => ?_
    have hmem : String.ofList name ∈ ["__proto__", "prototype", "constructor"] := by
      simpa [reservedObjectKey, or_assoc] using hkey
    have hunits := mem_map_of_mem hmem (f := fun s : String => utf16 s.toList)
    rw [String.toList_ofList] at hunits
    rw [reservedNames, contains_iff_mem.mpr hunits] at hreserved
    cases hreserved

/-! ### Literals -/

/-- A character that is no quote, no backslash and no control character stands for itself. -/
theorem escapeChar_plain (hquotes : ¬(c = '"' ∨ c = '\\')) (hcontrol : 32 ≤ c.toNat) : escapeChar c = [c] := by
  have hne : ∀ d : Char, d.toNat < 32 → c ≠ d := by
    rintro d hd rfl
    omega
  rw [escapeChar, if_neg hquotes, if_neg (hne _ (by decide)), if_neg (hne _ (by decide)), if_neg (hne _ (by decide)),
    if_neg (hne _ (by decide)), if_neg (hne _ (by decide)), if_neg (by omega)]

theorem stringifyUnit_plain (hquotes : unitIn u "\"\\" = false) (hcontrol : 32 ≤ u.toNat) :
    stringifyUnit u = [u] := by
  rw [stringifyUnit, hquotes, if_neg Bool.false_ne_true, if_neg (by omega), if_neg (by omega), if_neg (by omega),
    if_neg (by omega), if_neg (by omega), if_neg (by omega)]

theorem stringifyUnit_of (h : u.toNat = c.toNat) : stringifyUnit u = utf16 (escapeChar c) := by
  have hu : Stands u c := .inl h
  have hquotes : unitIn u "\"\\" = decide (c = '"' ∨ c = '\\') := by
    rw [hu.unitIn (forall_iff_forall_mem.mp (by decide))]
    simp
  have hself : utf16Char c = [u] := by rw [utf16Char, if_pos (by rw [← h]; exact u.toNat_lt), ← h, UInt16.ofNat_toNat]
  by_cases hquote : c = '"' ∨ c = '\\'
  · rw [stringifyUnit, hquotes, decide_eq_true hquote, if_pos rfl, escapeChar, if_pos hquote, utf16_cons, utf16_cons, hself]
    rfl
  by_cases hcontrol : c.toNat < 32
  · -- one of the 32 control characters
    have hall : ∀ n : Nat, n < 32 → stringifyUnit (UInt16.ofNat n) = utf16 (escapeChar (Char.ofNat n)) := by decide
    have hcode := hall c.toNat hcontrol
    rwa [Char.ofNat_toNat, ← h, UInt16.ofNat_toNat] at hcode
  · rw [escapeChar_plain hquote (by omega), stringifyUnit_plain (by rw [hquotes, decide_eq_false hquote]) (by omega),
      utf16_cons, hself]
    rfl

theorem stringify_eq {F : Numbers} (value : Value F) : stringify value = utf16 (dashboardLiteral value) := by
  cases value with
  | number n => rfl
  | text s =>
  have hall : ∀ cs : List Char, (utf16 cs).flatMap stringifyUnit = utf16 (cs.flatMap escapeChar) := by
    intro cs
    induction cs with
    | nil => rfl
    | cons c cs ih =>
      rw [utf16_cons, flatMap_append, ih, flatMap_cons, utf16_append]
      congr 1
      rcases utf16Char_cases c with ⟨u, hu, hsame⟩ | ⟨a, b, hab, ha, hb, hbig⟩
      · rw [hu, flatMap_singleton, stringifyUnit_of hsame]
      have hquote : ¬(c = '"' ∨ c = '\\') := by
        rintro (rfl | rfl)
        · exact absurd hbig (by decide)
        · exact absurd hbig (by decide)
      have hunit : ∀ u, Stands u c → stringifyUnit u = [u] := by
        intro u hu
        have hlt := u.toNat_lt
        refine stringifyUnit_plain ?_ ?_
        · rw [hu.unitIn (forall_iff_forall_mem.mp (by decide))]
          simpa using hquote
        · rcases hu with hsame | hsurrogate
          · omega
          · omega
      have hself : utf16 [c] = [a, b] := by
        rw [utf16_cons, hab]
        rfl
      rw [hab, escapeChar_plain hquote (by omega), hself, flatMap_cons, flatMap_singleton, hunit a ha,
        hunit b hb]
      rfl
  have hquote : utf16Char '"' = [34] := by decide
  show 34 :: (utf16 s.toList).flatMap stringifyUnit ++ [34] = utf16 ('"' :: (s.toList.flatMap escapeChar ++ ['"']))
  rw [hall, utf16_cons, utf16_append, hquote]
  rfl

/-! ### The two passes of the server as one -/

section
variable {F : Numbers} (types : String → Option ParameterType) (values : String → Option (Value F))

/-- What the server's expansion makes of the rest of a template that its check accepts. -/
def templateText (previous : Option Char) (s : QueryTemplateState Char) (text : List Char) : Option (List Char) :=
  match validateTemplate types 0 previous s text with
  | .error _ => none
  | .ok () => (expand values 0 text).toOption

theorem expand_skip (passed : List Char) (last : Char) (rest : List Char) :
    expand values (passed.length + 1) (passed ++ last :: rest) = expand values 0 rest := by
  induction passed with
  | nil => rfl
  | cons c passed ih => exact ih

variable {types values} {previous : Option Char} {s : QueryTemplateState Char}

theorem validateTemplate_open (inner : List Char) : validateTemplate types 0 previous s ('{' :: '{' :: inner) =
    match validateTemplatePlaceholder types s previous inner with
    | .error e => .error e
    | .ok name => validateTemplate types (name.length + 3) (some '{') s ('{' :: inner) := if_pos ⟨rfl, rfl⟩

theorem validateTemplate_other {rest : List Char} (hopen : ¬(c = '{' ∧ rest.head? = some '{')) :
    validateTemplate types 0 previous s (c :: rest) =
      validateTemplate types (if (s.advance c rest.head?).2 then 1 else 0) (some c) (s.advance c rest.head?).1 rest :=
  if_neg hopen

theorem expand_other {rest : List Char} (hopen : ¬(c = '{' ∧ rest.head? = some '{')) :
    expand values 0 (c :: rest) = (expand values 0 rest).map (c :: ·) := if_neg hopen

theorem toOption_map {ε α β : Type} (f : α → β) (r : Except ε α) : (r.map f).toOption = r.toOption.map f := by
  cases r with
  | error e => rfl
  | ok a => rfl

variable {inner : List Char}

theorem templateText_error {e : TemplateError}
    (h : validateTemplatePlaceholder types s previous inner = .error e) :
    templateText types values previous s ('{' :: '{' :: inner) = none := by
  rw [templateText, validateTemplate_open, h]

theorem templateText_placeholder {name following : List Char} {value : Value F}
    (h : validateTemplatePlaceholder types s previous (name ++ '}' :: '}' :: following) = .ok name)
    (hclose : untilClose isClose (name ++ '}' :: '}' :: following) = some (name, following))
    (hvalue : values (String.ofList name) = some value) :
    templateText types values previous s ('{' :: '{' :: (name ++ '}' :: '}' :: following)) =
      (templateText types values (some '}') s following).map (dashboardLiteral value ++ ·) := by
  have hopen : '{' = '{' ∧ ('{' :: (name ++ '}' :: '}' :: following)).head? = some '{' := ⟨rfl, rfl⟩
  have hsplit : '{' :: (name ++ '}' :: '}' :: following) = '{' :: name ++ ['}'] ++ '}' :: following := by simp
  have hlen : name.length + 3 = ('{' :: name ++ ['}']).length + 1 := by simp
  have hcheck : validateTemplate types 0 previous s ('{' :: '{' :: (name ++ '}' :: '}' :: following)) =
      validateTemplate types 0 (some '}') s following := by
    rw [validateTemplate_open, h]
    simp only
    rw [hsplit, hlen, validateTemplate_skip]
  have hexpand : expand values 0 ('{' :: '{' :: (name ++ '}' :: '}' :: following)) =
      (expand values 0 following).map (dashboardLiteral value ++ ·) := by
    rw [expand, if_pos hopen, tail_cons, hclose]
    simp only [hvalue]
    rw [hsplit, hlen, expand_skip]
  rw [templateText, templateText, hcheck, hexpand]
  cases validateTemplate types 0 (some '}') s following with
  | error e => rfl
  | ok u => exact toOption_map _ _

theorem templateText_plain {rest : List Char} (hopen : ¬(c = '{' ∧ rest.head? = some '{'))
    (hpassed : (s.advance c rest.head?).2 = false) : templateText types values previous s (c :: rest) =
      (templateText types values (some c) (s.advance c rest.head?).1 rest).map (c :: ·) := by
  rw [templateText, templateText, validateTemplate_other hopen, expand_other hopen]
  simp only [hpassed, Bool.false_eq_true, if_false]
  cases validateTemplate types 0 (some c) (s.advance c rest.head?).1 rest with
  | error e => rfl
  | ok u => exact toOption_map _ _

/-- The end of a comment's opening or of its closing is passed over by the check, and not by the expansion. -/
theorem templateText_passed {d : Char} (hopen : ¬(c = '{' ∧ (d :: inner).head? = some '{'))
    (hd : d ≠ '{') (hpassed : (s.advance c (some d)).2 = true) : templateText types values previous s (c :: d :: inner) =
      (templateText types values (some d) (s.advance c (some d)).1 inner).map ([c, d] ++ ·) := by
  have hopen' : ¬(d = '{' ∧ inner.head? = some '{') := fun h => hd h.1
  rw [templateText, templateText, validateTemplate_other hopen, expand_other hopen, expand_other hopen']
  simp only [head?_cons, hpassed, if_true]
  rw [validateTemplate]
  cases validateTemplate types 0 (some d) (s.advance c (some d)).1 inner with
  | error e => rfl
  | ok u =>
    simp only [toOption_map, Option.map_map]
    rfl
end

/-! ### The loop of the browser -/

section
variable {F : Numbers} {types : String → Option ParameterType} {values : String → Option (Value F)}
  {previous : Option UInt16} {previous' : Option Char} {s : QueryTemplateState Char} {t : QueryTemplateState UInt16}

/-- Each declared parameter has a value of its type, and nothing else has one. -/
structure Typed (types : String → Option ParameterType) (values : String → Option (Value F)) : Prop where
  declared : ∀ name kind, types name = some kind → ∃ value, values name = some value ∧ value.isNumber = decide (kind = .number)
  only : ∀ name, types name = none → values name = none

theorem Alike.quoted (h : Alike s t) : t.quote.isSome = s.quote.isSome := by
  have hquote := h.quote
  cases hs : s.quote with
  | none =>
    rw [hs] at hquote
    cases ht : t.quote with
    | none => rfl
    | some v =>
      rw [ht] at hquote
      exact hquote.elim
  | some q =>
  rw [hs] at hquote
  cases ht : t.quote with
  | none =>
    rw [ht] at hquote
    exact hquote.elim
  | some v => rfl

theorem interpolateFrom_open (inner : List UInt16) : interpolateFrom values 0 previous t (123 :: 123 :: inner) =
    match untilClose isCloseUnit inner with
    | none => .error (.template .unfinished)
    | some (name, following) =>
      if !variableNameSchema name then .error (.template (.undeclared (nameOf name)))
      else if t.quote.isSome || t.comment.isSome then .error (.template .notLiteral)
      else if !placeholderBoundaries previous following.head? ((values (nameOf name)).any Value.isNumber) then
        .error (.template .fragment)
      else match values (nameOf name) with
        | none => .error .noValue
        | some value =>
          (interpolateFrom values (name.length + 3) (some 123) t (123 :: inner)).map (stringify value ++ ·) := by
  exact if_pos rfl

theorem interpolateFrom_placeholder_eq (htyped : Typed types values) (halike : Alike s t)
    (hprev : StandsFor previous previous') (inner : List Char)
    (ih : ∀ following, following.length < inner.length →
      (interpolateFrom values 0 (some 125) t (utf16 following)).toOption =
        (templateText types values (some '}') s following).map utf16) :
    (interpolateFrom values 0 previous t (utf16 ('{' :: '{' :: inner))).toOption =
      (templateText types values previous' s ('{' :: '{' :: inner)).map utf16 := by
  have hbrace : utf16Char '{' = [123] ∧ utf16Char '}' = [125] := by decide
  have hutf16 : utf16 ('{' :: '{' :: inner) = 123 :: 123 :: utf16 inner := by
    rw [utf16_cons, utf16_cons, hbrace.1]
    rfl
  rw [hutf16, interpolateFrom_open]
  cases hclose : untilClose isClose inner with
  | none =>
    rw [untilClose_utf16, hclose, Option.map_none, templateText_error (e := .unfinished) (by rw [validateTemplatePlaceholder, hclose])]
    rfl
  | some found =>
  obtain ⟨name, following⟩ := found
  rw [untilClose_utf16, hclose, Option.map_some, Prod.map_apply]
  simp only [variableNameSchema_utf16]
  cases hvalid : validVariableName (String.ofList name) with
  | false =>
    have herror : validateTemplatePlaceholder types s previous' inner = .error (.undeclared (String.ofList name)) := by
      rw [validateTemplatePlaceholder, hclose]
      cases hkind : types (String.ofList name) with
      | none => simp only [hkind]
      | some kind => simp only [hkind, hvalid, Bool.not_false, if_true]
    rw [templateText_error herror]
    rfl
  | true =>
  have hascii : ∀ c ∈ name, c.toNat < 128 := by
    rw [validVariableName, String.toList_ofList, Bool.and_eq_true] at hvalid
    exact ascii_of_name hvalid.1
  have hunits : (utf16 name).length = name.length := by rw [utf16_ascii hascii, length_map]
  rw [nameOf_utf16 hascii, halike.quoted, halike.comment, hunits]
  simp only [Bool.not_true, Bool.false_eq_true, if_false]
  cases hkind : types (String.ofList name) with
  | none =>
    have herror : validateTemplatePlaceholder types s previous' inner =
        .error (.undeclared (String.ofList name)) := by
      rw [validateTemplatePlaceholder, hclose]
      simp only [hkind]
    rw [templateText_error herror, htyped.only _ hkind]
    split_ifs
    · rfl
    · rfl
    · rfl
  | some kind =>
  obtain ⟨value, hvalue, hnumber⟩ := htyped.declared _ _ hkind
  rw [hvalue, Option.any_some, hnumber, placeholderBoundaries_eq hprev (head_utf16 following)]
  by_cases hliteral : (s.quote.isSome || s.comment.isSome) = true
  · have herror : validateTemplatePlaceholder types s previous' inner = .error .notLiteral := by
      rw [validateTemplatePlaceholder, hclose]
      simp only [hkind, hvalid, Bool.not_true, Bool.false_eq_true, if_false, hliteral, if_true]
    rw [if_pos hliteral, templateText_error herror]
    rfl
  rw [if_neg hliteral]
  cases hboundary : validPlaceholderBoundaries previous' following.head? kind with
  | false =>
    have herror : validateTemplatePlaceholder types s previous' inner = .error .fragment := by
      rw [validateTemplatePlaceholder, hclose]
      simp only [hkind, hvalid, Bool.not_true, Bool.false_eq_true, if_false, hliteral, hboundary,
        Bool.not_false, if_true]
    rw [templateText_error herror]
    rfl
  | true =>
  have hok : validateTemplatePlaceholder types s previous' inner = .ok name := by
    rw [validateTemplatePlaceholder, hclose]
    simp only [hkind, hvalid, Bool.not_true, Bool.false_eq_true, if_false, hliteral, hboundary]
  obtain rfl := untilClose_eq hclose
  have htail : utf16 (name ++ '}' :: '}' :: following) = utf16 name ++ 125 :: 125 :: utf16 following := by
    simp [utf16_cons, utf16_append, hbrace]
  have hsame : (123 : UInt16) :: (utf16 name ++ 125 :: 125 :: utf16 following) =
      123 :: utf16 name ++ [125] ++ 125 :: utf16 following := by simp
  have hlen : name.length + 3 = ((123 : UInt16) :: utf16 name ++ [125]).length + 1 := by
    rw [length_append, length_cons, length_singleton, hunits]
  have hshort : following.length < (name ++ '}' :: '}' :: following).length := by
    rw [length_append, length_cons, length_cons]
    omega
  rw [templateText_placeholder hok hclose hvalue]
  simp only [Bool.not_true, Bool.false_eq_true, if_false]
  rw [htail, hsame, hlen, interpolateFrom_skip, toOption_map, ih following hshort, Option.map_map,
    Option.map_map]
  refine congrArg (fun f => Option.map f _) (funext fun out => ?_)
  show stringify value ++ utf16 out = utf16 (dashboardLiteral value ++ out)
  rw [stringify_eq, utf16_append]

theorem interpolateFrom_unit {rest : List UInt16}
    (hopen : (unitIs u '{' && rest.head?.any (unitIs · '{')) = false) :
    (interpolateFrom values 0 previous t (u :: rest)).toOption =
      (interpolateFrom values (if (t.scan u rest.head?).2 then 1 else 0) (some u) (t.scan u rest.head?).1 rest).toOption.map
        (u :: (if (t.scan u rest.head?).2 then rest.head?.toList else []) ++ ·) := by
  have hstep := toOption_map (u :: (if (t.scan u rest.head?).2 then rest.head?.toList else []) ++ ·)
    (interpolateFrom values (if (t.scan u rest.head?).2 then 1 else 0) (some u) (t.scan u rest.head?).1 rest)
  rw [← hstep]
  exact congrArg Except.toOption (if_neg (Bool.eq_false_iff.mp hopen))

/-- **The loop of the browser does what the check and the expansion of the server do**, from states that are alike.  By
induction on the number of characters. -/
theorem interpolateFrom_eq (htyped : Typed types values) : ∀ (n : Nat) (text : List Char), text.length ≤ n →
    ∀ (previous : Option UInt16) (previous' : Option Char) (s : QueryTemplateState Char) (t : QueryTemplateState UInt16),
      Alike s t → StandsFor previous previous' →
      (interpolateFrom values 0 previous t (utf16 text)).toOption =
        (templateText types values previous' s text).map utf16 := by
  intro n
  induction n with
  | zero =>
    intro text hlen previous previous' s t _ _
    obtain rfl : text = [] := length_eq_zero_iff.mp (Nat.le_zero.mp hlen)
    rfl
  | succ n ih =>
    intro text hlen previous previous' s t halike hprev
    rcases text with - | ⟨c, rest⟩
    · rfl
    rw [length_cons, Nat.succ_le_succ_iff] at hlen
    have hhead := head_utf16 rest
    by_cases hopen : c = '{' ∧ rest.head? = some '{'
    · obtain ⟨rfl, hrest⟩ := hopen
      rcases rest with - | ⟨d, inner⟩
      · cases hrest
      obtain rfl : d = '{' := Option.some.inj hrest
      refine interpolateFrom_placeholder_eq htyped halike hprev inner ?_
      intro following hshort
      have hclosed : StandsFor (some 125) (some '}') := .inl rfl
      rw [length_cons] at hlen
      exact ih following (by omega) _ _ s t halike hclosed
    · have hopen' : ∀ u, Stands u c → (unitIs u '{' && (utf16 rest).head?.any (unitIs · '{')) = false := by
        intro u hu
        rw [hu.unitIs (by decide), hhead.any (by decide), ← Bool.decide_and, decide_eq_false_iff_not]
        exact hopen
      rw [utf16_cons]
      rcases utf16Char_cases c with ⟨u, hu, hsame⟩ | ⟨a, b, hab, ha, hb, hbig⟩
      · rw [hu, singleton_append]
        have hstands : Stands u c := .inl hsame
        obtain ⟨halike', hpassed⟩ := halike.advance hstands hhead
        rw [interpolateFrom_unit (hopen' u hstands), hpassed]
        cases hskip : (s.advance c rest.head?).2 with
        | false =>
          rw [templateText_plain hopen hskip, Option.map_map]
          simp only [Bool.false_eq_true, if_false]
          rw [ih rest hlen (some u) (some c) _ _ halike' hstands, Option.map_map]
          refine congrArg (fun f => Option.map f _) (funext fun out => ?_)
          show u :: utf16 out = utf16 (c :: out)
          rw [utf16_cons, hu]
          rfl
        | true =>
        rcases rest with - | ⟨d, inner⟩
        · rcases next_of_passed hskip with hnext | hnext
          · cases hnext
          · cases hnext
        have hd : d = '/' ∨ d = '*' := (next_of_passed hskip).imp Option.some.inj Option.some.inj
        have hsmall : d.toNat < 128 := by
          rcases hd with rfl | rfl
          · decide
          · decide
        have hbrace : d ≠ '{' := by
          rcases hd with rfl | rfl
          · decide
          · decide
        have hunit : utf16Char d = [UInt16.ofNat d.toNat] := by rw [utf16Char, if_pos (by omega)]
        have hlast : StandsFor (some (UInt16.ofNat d.toNat)) (some d) :=
          .inl (UInt16.toNat_ofNat_of_lt' (Nat.lt_trans hsmall (by decide)))
        rw [templateText_passed hopen hbrace hskip, Option.map_map]
        rw [utf16_cons, hunit, singleton_append] at halike' ⊢
        simp only [head?_cons, if_true] at halike' ⊢
        rw [length_cons] at hlen
        rw [interpolateFrom, ih inner (by omega) _ _ _ _ halike' hlast, Option.map_map]
        refine congrArg (fun f => Option.map f _) (funext fun out => ?_)
        show u :: UInt16.ofNat d.toNat :: utf16 out = utf16 ([c, d] ++ out)
        rw [utf16_append, utf16_cons, utf16_cons, hu, hunit]
        rfl
      · -- the second surrogate changes nothing
        obtain ⟨s', htwice⟩ := advance_twice hbig halike.plain
        have hnot : ∀ u, Stands u c → unitIs u '{' = false := by
          intro u hu
          rw [hu.unitIs (by decide), decide_eq_false_iff_not]
          rintro rfl
          exact absurd hbig (by decide)
        have hfirst := halike.advance ha (show StandsFor (some b) (some c) from hb)
        rw [(htwice (some c)).1] at hfirst
        have hsecond := hfirst.1.advance hb hhead
        rw [(htwice rest.head?).2] at hsecond
        have hskip : (s.advance c rest.head?).2 = false := by rw [(htwice rest.head?).1]
        rw [templateText_plain hopen hskip, (htwice rest.head?).1, Option.map_map, hab, cons_append,
          singleton_append, interpolateFrom_unit (by rw [hnot a ha, Bool.false_and]), head?_cons, hfirst.2]
        simp only [Bool.false_eq_true, if_false]
        rw [interpolateFrom_unit (by rw [hnot b hb, Bool.false_and]), hsecond.2]
        simp only [Bool.false_eq_true, if_false]
        rw [ih rest hlen (some b) (some c) _ _ hsecond.1 hb, Option.map_map, Option.map_map]
        refine congrArg (fun f => Option.map f _) (funext fun out => ?_)
        show a :: b :: utf16 out = utf16 (c :: out)
        rw [utf16_cons, hab]
        rfl

/-- Both fail, or both have the same text. -/
def Agree (server : Except QueryError String) (browser : Except QueryError (List UInt16)) : Prop :=
  browser.toOption = server.toOption.map fun text => utf16 text.toList

/-- **The expansions of the server and of the browser agree** on every template, once its parameters have values. -/
theorem interpolate_agree (htyped : Typed types values) (template : String) :
    Agree (interpolateDashboardLiterals template types values) (interpolateLiterals (trimJS template) values) := by
  have hloops := interpolateFrom_eq htyped (trimJS template).toList.length (trimJS template).toList (Nat.le_refl _) none none {}
    {} alike_init trivial
  rw [templateText] at hloops
  rw [Agree, interpolateDashboardLiterals, interpolateLiterals, validateSavedQueryTemplate]
  by_cases hlong : maxQueryUnits < stringUnits (trimJS template)
  · rw [if_pos hlong, if_pos hlong]
    rfl
  rw [if_neg hlong, if_neg hlong]
  cases hcheck : validateTemplate types 0 none {} (trimJS template).toList with
  | error e =>
    rw [hcheck] at hloops
    cases hbrowser : interpolateFrom values 0 none {} (utf16 (trimJS template).toList) with
    | error e' => rfl
    | ok out =>
      rw [hbrowser] at hloops
      cases hloops
  | ok u =>
  rw [hcheck] at hloops
  cases hexpand : expand values 0 (trimJS template).toList with
  | error e =>
    rw [hexpand] at hloops
    cases hbrowser : interpolateFrom values 0 none {} (utf16 (trimJS template).toList) with
    | error e' => rfl
    | ok out =>
      rw [hbrowser] at hloops
      cases hloops
  | ok output =>
  rw [hexpand] at hloops
  cases hbrowser : interpolateFrom values 0 none {} (utf16 (trimJS template).toList) with
  | error e' =>
    rw [hbrowser] at hloops
    cases hloops
  | ok out =>
  rw [hbrowser] at hloops
  obtain rfl : out = utf16 output := Option.some.inj hloops
  simp only
  by_cases hexpanded : maxQueryUnits < (utf16 output).length
  · rw [if_pos hexpanded, if_pos hexpanded]
    rfl
  · rw [if_neg hexpanded, if_neg hexpanded]
    show some (utf16 output) = some (utf16 (String.ofList output).toList)
    rw [String.toList_ofList]
end

end Paprika.Insights
