import Paprika.Lib.Text

/-!
# Query templates

`saved_query_schema.go` and `dashboard_query_resolver.go`: a template names parameters as `{{name}}`.  Placeholders stand for
whole literals, so none occurs in a string, a comment or a token.  The server checks a template first and then expands it.

* `stringUnits`, `trimJS`, `validVariableName`, `savedQueryNumericLiteral` — the lexical functions;
* `validateSavedQueryTemplate` — the check, `interpolateDashboardLiterals` — check and expansion;
* `next_of_passed` — the check passes over a character before a comment only.
-/

namespace Paprika.Insights

open Lib.Text

/-! ### Texts -/

/-- The UTF-16 code units of a character. -/
def utf16Char (c : Char) : List UInt16 :=
  if c.toNat < 0x10000 then [UInt16.ofNat c.toNat]
  else [UInt16.ofNat (0xD800 + (c.toNat - 0x10000) / 0x400), UInt16.ofNat (0xDC00 + (c.toNat - 0x10000) % 0x400)]

def utf16 (s : List Char) : List UInt16 := s.flatMap utf16Char

/-- JavaScript's string length. -/
def stringUnits (s : String) : Nat := (utf16 s.toList).length

/-- The characters that `trimJS` cuts off. -/
def jsSpace (c : Char) : Bool :=
  let n := c.toNat
  (0x09 ≤ n && n ≤ 0x0D) || n == 0x20 || n == 0xA0 || n == 0x1680 || (0x2000 ≤ n && n ≤ 0x200A) || n == 0x2028 ||
    n == 0x2029 || n == 0x202F || n == 0x205F || n == 0x3000 || n == 0xFEFF

def trimJS (s : String) : String := String.ofList ((s.toList.dropWhile jsSpace).reverse.dropWhile jsSpace).reverse

def isLetter (c : Char) : Bool := ('a' ≤ c && c ≤ 'z') || ('A' ≤ c && c ≤ 'Z')

def isDigit (c : Char) : Bool := '0' ≤ c && c ≤ '9'

def reservedObjectKey (key : String) : Bool := key == "__proto__" || key == "prototype" || key == "constructor"

/-- `variableIdentifier`: `^[A-Za-z_][A-Za-z0-9_]{0,63}$`. -/
def variableIdentifier : List Char → Bool
  | [] => false
  | c :: cs => (isLetter c || c == '_') && cs.length ≤ 63 && cs.all fun d => isLetter d || isDigit d || d == '_'

def validVariableName (name : String) : Bool := variableIdentifier name.toList && !reservedObjectKey name

/-- `(?:[eE][+-]?\d+)?$` -/
def exponentPart : List Char → Bool
  | [] => true
  | e :: '+' :: digits => (e == 'e' || e == 'E') && !digits.isEmpty && digits.all isDigit
  | e :: '-' :: digits => (e == 'e' || e == 'E') && !digits.isEmpty && digits.all isDigit
  | e :: digits => (e == 'e' || e == 'E') && !digits.isEmpty && digits.all isDigit

/-- `(?:\.\d+)?` and the exponent. -/
def fractionPart : List Char → Bool
  | '.' :: rest => !(rest.takeWhile isDigit).isEmpty && exponentPart (rest.dropWhile isDigit)
  | rest => exponentPart rest

/-- `(?:0|[1-9]\d*)` and the fraction. -/
def integerPart : List Char → Bool
  | [] => false
  | '0' :: rest => fractionPart rest
  | c :: rest => isDigit c && fractionPart (rest.dropWhile isDigit)

/-- `^-?(?:0|[1-9]\d*)(?:\.\d+)?(?:[eE][+-]?\d+)?$`, the grammar of the server and of the browser. -/
def savedQueryNumericLiteral (s : String) : Bool :=
  match s.toList with
  | '-' :: rest => integerPart rest
  | rest => integerPart rest

/-! ### The check of a template -/

inductive ParameterType where
  | string
  | number
  deriving DecidableEq

inductive Comment where
  | line
  | block
  deriving DecidableEq

/-- `queryTemplateState`, over the characters of the server or the code units of the browser. -/
structure QueryTemplateState (α : Type) where
  quote : Option α := none
  comment : Option Comment := none
  escaped : Bool := false

inductive TemplateError where
  | unfinished
  | undeclared (name : String)
  | notLiteral
  | fragment
  deriving DecidableEq

def literalBoundary (c : Char) (punctuation : String) : Bool :=
  c.toNat == 0xFEFF || (c.toNat != 0x85 && isSpace c) || punctuation.toList.contains c

def validPlaceholderBoundaries (previous following : Option Char) (kind : ParameterType) : Bool :=
  let before := match kind with
    | .string => "[(=~!<>:,|&"
    | .number => "[(=~!<>:,|&+-*/%^@"
  previous.all (fun c => literalBoundary c before) && following.all fun c => literalBoundary c ",\x7d)]|&!<>=:+-*/%^"

namespace QueryTemplateState

def advanceQuote (s : QueryTemplateState Char) (quote char : Char) : QueryTemplateState Char :=
  if quote ≠ '`' ∧ s.escaped = true then { s with escaped := false }
  else if quote ≠ '`' ∧ char = '\\' then { s with escaped := true }
  else if char = quote then { s with quote := none }
  else s

/-- The new state, and whether the next character is passed over. -/
def startLiteral (s : QueryTemplateState Char) (char : Char) (next : Option Char) : QueryTemplateState Char × Bool :=
  if char = '"' ∨ char = '\'' ∨ char = '`' then ({ s with quote := some char }, false)
  else if char = '#' ∨ (char = '/' ∧ next = some '/') then ({ s with comment := some .line }, false)
  else if char = '/' ∧ next = some '*' then ({ s with comment := some .block }, true)
  else (s, false)

def advance (s : QueryTemplateState Char) (char : Char) (next : Option Char) : QueryTemplateState Char × Bool :=
  match s.comment with
  | some .line => if char = '\n' ∨ char = '\r' then ({ s with comment := none }, false) else (s, false)
  | some .block => if char = '*' ∧ next = some '/' then ({ s with comment := none }, true) else (s, false)
  | none =>
    match s.quote with
    | some quote => (s.advanceQuote quote char, false)
    | none => s.startLiteral char next

end QueryTemplateState

/-- What stands before the first `}}`, and what follows it. -/
def untilClose {α : Type} (close : α → Bool) : List α → Option (List α × List α)
  | [] => none
  | [_] => none
  | c :: d :: rest =>
    if close c && close d then some ([], rest) else (untilClose close (d :: rest)).map fun found => (c :: found.1, found.2)

def isClose (c : Char) : Bool := c == '}'

/-- `validateTemplatePlaceholder`: the name of the placeholder that `text` is the rest of. -/
def validateTemplatePlaceholder (types : String → Option ParameterType) (s : QueryTemplateState Char) (previous : Option Char)
    (text : List Char) : Except TemplateError (List Char) :=
  match untilClose isClose text with
  | none => .error .unfinished
  | some (name, following) =>
    match types (String.ofList name) with
    | none => .error (.undeclared (String.ofList name))
    | some kind =>
      if !validVariableName (String.ofList name) then .error (.undeclared (String.ofList name))
      else if s.quote.isSome || s.comment.isSome then .error .notLiteral
      else if !validPlaceholderBoundaries previous following.head? kind then .error .fragment
      else .ok name

/-- `validateSavedQueryTemplate`, at a character that follows `previous`, with so many characters to be passed over. -/
def validateTemplate (types : String → Option ParameterType) :
    Nat → Option Char → QueryTemplateState Char → List Char → Except TemplateError Unit
  | _, _, _, [] => .ok ()
  | skip + 1, _, s, char :: rest => validateTemplate types skip (some char) s rest
  | 0, previous, s, char :: rest =>
    if char = '{' ∧ rest.head? = some '{' then
      match validateTemplatePlaceholder types s previous rest.tail with
      | .error e => .error e
      | .ok name => validateTemplate types (name.length + 3) (some char) s rest
    else
      let (s', passed) := s.advance char rest.head?
      validateTemplate types (if passed then 1 else 0) (some char) s' rest

def validateSavedQueryTemplate (query : String) (types : String → Option ParameterType) : Except TemplateError Unit :=
  validateTemplate types 0 none {} query.toList

/-! ### Expansion -/

/-- Finite numbers: `parse` reads a JSON number, unless it is out of range, and `format` writes one, as `JSON.stringify`
does. -/
structure Numbers where
  Number : Type
  parse : String → Option Number
  format : Number → String

inductive Value (F : Numbers) where
  | text (s : String)
  | number (n : F.Number)

/-- `%04x` of a number below 256. -/
def hexDigits (n : Nat) : List Char := ['0', '0', Nat.digitChar (n / 16), Nat.digitChar (n % 16)]

/-- `dashboardStringLiteral`, of a character. -/
def escapeChar (c : Char) : List Char :=
  if c = '"' ∨ c = '\\' then ['\\', c]
  else if c = '\x08' then ['\\', 'b']
  else if c = '\x0c' then ['\\', 'f']
  else if c = '\n' then ['\\', 'n']
  else if c = '\r' then ['\\', 'r']
  else if c = '\t' then ['\\', 't']
  else if c.toNat < 0x20 then '\\' :: 'u' :: hexDigits c.toNat
  else [c]

def dashboardStringLiteral (value : String) : List Char := '"' :: value.toList.flatMap escapeChar ++ ['"']

def dashboardLiteral {F : Numbers} : Value F → List Char
  | .text s => dashboardStringLiteral s
  | .number n => (F.format n).toList

inductive QueryError where
  | templateLimit
  | template (e : TemplateError)
  | noValue
  | unknownParameter
  | missingVariable
  | observation
  | boundedText
  | parameterType
  | default
  | binding
  | schema
  | unavailable
  | kind
  | expandedLimit
  deriving DecidableEq

/-- The expansion of a template that was checked; the characters of a placeholder are passed over. -/
def expand {F : Numbers} (values : String → Option (Value F)) : Nat → List Char → Except QueryError (List Char)
  | _, [] => .ok []
  | skip + 1, _ :: rest => expand values skip rest
  | 0, char :: rest =>
    if char = '{' ∧ rest.head? = some '{' then
      match untilClose isClose rest.tail with
      | none => .error (.template .unfinished)
      | some (name, _) =>
        match values (String.ofList name) with
        | none => .error .noValue
        | some value => (expand values (name.length + 3) rest).map (dashboardLiteral value ++ ·)
    else (expand values 0 rest).map (char :: ·)

def maxQueryUnits : Nat := 8192

def interpolateDashboardLiterals {F : Numbers} (template : String) (types : String → Option ParameterType)
    (values : String → Option (Value F)) : Except QueryError String :=
  let template := trimJS template
  if maxQueryUnits < stringUnits template then .error .templateLimit
  else match validateSavedQueryTemplate template types with
    | .error e => .error (.template e)
    | .ok () =>
      match expand values 0 template.toList with
      | .error e => .error e
      | .ok output =>
        if maxQueryUnits < (utf16 output).length then .error .expandedLimit else .ok (String.ofList output)

theorem next_of_passed {s : QueryTemplateState Char} {char : Char} {next : Option Char}
    (h : (s.advance char next).2 = true) : next = some '/' ∨ next = some '*' := by
  rw [QueryTemplateState.advance] at h
  rcases hcomment : s.comment with - | - | -
  · cases hquote : s.quote with
    | none =>
      simp only [hcomment, hquote, QueryTemplateState.startLiteral] at h
      split_ifs at h with _ _ hblock
      exact Or.inr hblock.2
    | some quote =>
      simp only [hcomment, hquote] at h
      cases h
  · simp only [hcomment] at h
    split_ifs at h
  · simp only [hcomment] at h
    split_ifs at h with hend
    exact Or.inl hend.2

end Paprika.Insights
