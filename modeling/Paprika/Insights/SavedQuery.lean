import Paprika.Insights.BrowserTemplate
import Paprika.Insights.Documents

/-!
# Saved queries

A saved query is a JSON document with a template and its parameters.  The server checks it when it is written, the browser
when it is used (`schema.ts`).

* `Json` — a document, with Unicode text; of a name that an object repeats, the last value counts;
* `dashboardParameterValue`, `savedQueryParameterValue` — the value of a parameter for the server and for the browser, which
  are the same (`savedQueryParameterValue_eq`);
* `savedQuerySchema` — the check of the browser.
-/

namespace Paprika.Insights

open Lib.KeyedMap

inductive Json where
  | null
  | bool (b : Bool)
  | num (literal : String)
  | str (s : String)
  | arr (items : List Json)
  | obj (members : List (String × Json))

/-- Numbers, of which `isOne` tells 1, and URLs: `newURL` says that `new URL` reads an `https:` URL with a host name and
without a user name and a password. -/
structure Platform extends Numbers where
  isOne : Number → Bool
  parse_one : (parse "1").any isOne = true
  newURL : String → Bool

variable {F : Numbers} (P : Platform)

/-! ### Values -/

/-- A JSON string or number that is read into a variable. -/
def literalValue (F : Numbers) : Json → Option (Value F)
  | .str s => some (.text s)
  | .num literal => (F.parse literal).map .number
  | _ => none

def maxValueUnits : Nat := 1024

/-- `validateQueryLiteral`, of any kind for `none`. -/
def validateQueryLiteral (F : Numbers) (raw : Json) (kind : Option ParameterType) : Bool :=
  match literalValue F raw with
  | some (.text s) => kind != some .number && stringUnits s ≤ maxValueUnits
  | some (.number _) => kind != some .string
  | none => false

/-- `dashboardParameterValue` and `dashboardNumericParameterValue`. -/
def dashboardParameterValue : ParameterType → Option (Value F) → Except QueryError (Value F)
  | .string, some (.text s) => if stringUnits s ≤ maxValueUnits then .ok (.text s) else .error .boundedText
  | .string, _ => .error .boundedText
  | .number, some (.text s) =>
    if savedQueryNumericLiteral s then
      match F.parse s with
      | some n => .ok (.number n)
      | none => .error .parameterType
    else .error .parameterType
  | .number, some (.number n) => .ok (.number n)
  | .number, none => .error .parameterType

def savedQueryParameterValue (type : ParameterType) (value : Value F) : Except QueryError (Value F) :=
  match type with
  | .string =>
    match value with
    | .text s => if maxValueUnits < stringUnits s then .error .boundedText else .ok value
    | .number _ => .error .boundedText
  | .number =>
    match value with
    | .text s =>
      if !savedQueryNumericLiteral s then .error .parameterType
      else match F.parse s with
        | none => .error .parameterType
        | some n => .ok (.number n)
    | .number n => .ok (.number n)

theorem savedQueryParameterValue_eq (type : ParameterType) (value : Value F) :
    savedQueryParameterValue type value = dashboardParameterValue type (some value) := by
  cases type with
  | string =>
    cases value with
    | text s =>
      simp only [savedQueryParameterValue, dashboardParameterValue]
      split_ifs
      · omega
      · rfl
      · rfl
      · omega
    | number n => rfl
  | number =>
  cases value with
  | text s =>
    cases hliteral : savedQueryNumericLiteral s <;> cases hparse : F.parse s <;>
      simp [savedQueryParameterValue, dashboardParameterValue, hliteral, hparse]
  | number n => rfl

theorem isNumber_of_value {type : ParameterType} {value : Option (Value F)} {checked : Value F}
    (h : dashboardParameterValue type value = .ok checked) : checked.isNumber = decide (type = .number) ∧
      checked.bounded = true := by
  rcases type with - | -
  · rcases value with - | s | n
    · cases h
    · rw [dashboardParameterValue] at h
      split_ifs at h with hs
      obtain rfl := Except.ok.inj h
      exact ⟨rfl, decide_eq_true hs⟩
    · cases h
  · have hnumber : ∃ n, checked = .number n := by
      rcases value with - | s | n
      · cases h
      · rw [dashboardParameterValue] at h
        cases hparse : F.parse s with
        | none =>
          rw [hparse] at h
          split_ifs at h
        | some n =>
          rw [hparse] at h
          split_ifs at h
          exact ⟨n, (Except.ok.inj h).symm⟩
      · exact ⟨n, (Except.ok.inj h).symm⟩
    obtain ⟨n, rfl⟩ := hnumber
    exact ⟨rfl, rfl⟩

theorem dashboardParameterValue_none (type : ParameterType) (checked : Value F) :
    dashboardParameterValue type none ≠ .ok checked := by
  intro h
  cases type with
  | string => cases h
  | number => cases h

theorem value_of_literal {raw : Json} {kind : ParameterType} (h : validateQueryLiteral F raw (some kind) = true) :
    ∃ value, literalValue F raw = some value ∧ dashboardParameterValue kind (some value) = .ok value ∧
      value.isNumber = decide (kind = .number) := by
  rw [validateQueryLiteral] at h
  cases hvalue : literalValue F raw with
  | none =>
    rw [hvalue] at h
    cases h
  | some value =>
  rw [hvalue] at h
  refine ⟨value, rfl, ?_⟩
  cases value with
  | text s =>
    obtain ⟨hkind, hs⟩ := Bool.and_eq_true_iff.mp h
    cases kind with
    | number => cases hkind
    | string =>
      rw [dashboardParameterValue, if_pos (of_decide_eq_true hs)]
      exact ⟨rfl, rfl⟩
  | number n =>
    cases kind with
    | string => cases h
    | number => exact ⟨rfl, rfl⟩

/-! ### Saved queries -/

structure SavedQueryParameter where
  name : String
  label : String
  type : ParameterType
  defaultValue : Option Json

structure SavedQuery where
  id : String
  name : String
  description : String
  imageURL : String
  providerID : String
  kind : String
  query : String
  parameters : List SavedQueryParameter

def parameterType (s : String) : Option ParameterType :=
  if s = "string" then some .string else if s = "number" then some .number else none

/-- `queryParameters`: the parameter of a name. -/
def queryParameters (parameters : List SavedQueryParameter) (name : String) : Option SavedQueryParameter :=
  parameters.find? fun p => p.name = name

def parameterTypes (parameters : List SavedQueryParameter) (name : String) : Option ParameterType :=
  (queryParameters parameters name).map (·.type)

def queryKinds : List String := ["metrics", "traces", "records"]

def queryRequired : List String := ["schemaVersion", "id", "name", "providerId", "kind", "query"]

def queryOptional : List String := ["description", "imageUrl", "tags", "metadata", "parameters"]

/-! ### The check of the browser -/

structure BrowserParameter (F : Numbers) where
  name : String
  type : ParameterType
  defaultValue : Option (Value F)

structure BrowserQuery (F : Numbers) where
  id : String
  name : String
  providerId : String
  kind : String
  query : String
  parameters : List (BrowserParameter F)

/-- What all elements of an array are read into. -/
def parseAll {α β : Type} (f : α → Option β) : List α → Option (List β)
  | [] => some []
  | x :: xs =>
    match f x, parseAll f xs with
    | some y, some ys => some (y :: ys)
    | _, _ => none

/-- `z.strictObject` has no other fields. -/
def knownFields (known : List String) (fields : Fields Json) : Bool := fields.entries.all fun e => known.contains e.1

def optionalText (fields : Fields Json) (k : String) (most : Nat) : Bool :=
  match fields.lookup k with
  | none => true
  | some (.str s) => stringUnits s ≤ most
  | some _ => false

def identifier (s : String) : Bool :=
  1 ≤ stringUnits s && stringUnits s ≤ 80 && match s.toList with
    | [] => false
    | c :: cs => isAlphanumeric c && cs.all fun d => isAlphanumeric d || d == '_' || d == '-'

def savedQueryParameterSchema (F : Numbers) : Json → Option (BrowserParameter F)
  | .obj members =>
    let fields := fieldsOf members
    if !knownFields ["name", "label", "type", "defaultValue"] fields || !optionalText fields "label" 80 then none
    else match fields.lookup "name", fields.lookup "type" with
      | some (.str name), some (.str kind) =>
        if !variableNameSchema (utf16 name.toList) then none
        else match parameterType kind, fields.lookup "defaultValue" with
          | none, _ => none
          | some type, none => some ⟨name, type, none⟩
          | some type, some raw =>
            match literalValue F raw with
            | none => none
            | some value =>
              if value.bounded && value.isNumber == decide (type = .number) then some ⟨name, type, some value⟩ else none
      | _, _ => none
  | _ => none

/-- The part of `value.slice(8)` before the path, the query and the fragment. -/
def authority (value : String) : List Char := (value.toList.drop 8).takeWhile fun c => !"/?#".toList.contains c

def savedQueryImageUrlSchema (value : String) : Bool :=
  1 ≤ stringUnits value && stringUnits value ≤ 2048 &&
    (value.toList.all fun c => !(jsSpace c || c.toNat ≤ 0x1f || c.toNat == 0x7f || c == '\\')) &&
    if "/".toList.isPrefixOf value.toList then !"//".toList.isPrefixOf value.toList
    else "https://".toList.isPrefixOf value.toList && !(authority value).isEmpty && !(authority value).contains '@' &&
      P.newURL value

def savedQueryTagSchema (value : String) : Bool :=
  1 ≤ stringUnits value && stringUnits value ≤ 32 && value == trimJS value

def tagText : Json → Option String
  | .str value => if savedQueryTagSchema value then some value else none
  | _ => none

def tagsSchema (fields : Fields Json) : Bool :=
  match fields.lookup "tags" with
  | none => true
  | some (.arr items) => items.length ≤ 12 && (parseAll tagText items).any fun tags => decide tags.Nodup
  | some _ => false

def savedQueryMetadataSchema (fields : Fields Json) : Bool :=
  match fields.lookup "metadata" with
  | none => true
  | some (.obj members) =>
    (fieldsOf members).entries.length ≤ 12 && (fieldsOf members).entries.all fun e =>
      1 ≤ stringUnits e.1 && stringUnits e.1 ≤ 64 && e.1 == trimJS e.1 && !reservedObjectKey e.1 &&
        match e.2 with
        | .str value => stringUnits value ≤ 256
        | _ => false
  | some _ => false

def imageUrlSchema (fields : Fields Json) : Bool :=
  match fields.lookup "imageUrl" with
  | none => true
  | some (.str value) => savedQueryImageUrlSchema P value
  | some _ => false

def parametersSchema (F : Numbers) (fields : Fields Json) : Option (List (BrowserParameter F)) :=
  match fields.lookup "parameters" with
  | none => some []
  | some (.arr items) =>
    match parseAll (savedQueryParameterSchema F) items with
    | some parameters =>
      if parameters.length ≤ 20 ∧ (parameters.map (·.name)).Nodup then some parameters else none
    | none => none
  | some _ => none

def trimmedText (s : String) (most : Nat) : Bool := 1 ≤ stringUnits (trimJS s) && stringUnits (trimJS s) ≤ most

/-- `z.literal(1)` reads any number that is 1. -/
def literalOne : Option Json → Bool
  | some (.num literal) => (P.parse literal).any P.isOne
  | _ => false

def savedQuerySchema (fields : Fields Json) : Option (BrowserQuery P.toNumbers) :=
  if !knownFields (queryRequired ++ queryOptional) fields || !literalOne P (fields.lookup "schemaVersion") ||
      !optionalText fields "description" 500 || !imageUrlSchema P fields || !tagsSchema fields ||
      !savedQueryMetadataSchema fields then none
  else match fields.lookup "id", fields.lookup "name", fields.lookup "providerId", fields.lookup "kind",
    fields.lookup "query", parametersSchema P.toNumbers fields with
    | some (.str id), some (.str name), some (.str providerId), some (.str kind), some (.str query), some parameters =>
      if identifier id && trimmedText name 120 && identifier providerId && queryKinds.contains kind &&
        trimmedText query maxQueryUnits then some ⟨id, trimJS name, providerId, kind, trimJS query, parameters⟩
      else none
    | _, _, _, _, _, _ => none

/-- `queryDocument`: the etag of the transport is left out. -/
def queryDocument : Json → Option (BrowserQuery P.toNumbers)
  | .obj members => savedQuerySchema P ((fieldsOf members).erase "etag")
  | _ => none

/-! ### What the server accepts -/

/-- What holds of a parameter that was checked. -/
structure Checked (F : Numbers) (p : SavedQueryParameter) : Prop where
  name : validVariableName p.name = true
  default : ∀ raw, p.defaultValue = some raw → validateQueryLiteral F raw (some p.type) = true

def browserParameter (F : Numbers) (p : SavedQueryParameter) : BrowserParameter F :=
  ⟨p.name, p.type, p.defaultValue.bind (literalValue F)⟩

theorem one_le_stringUnits {s : String} (h : s ≠ "") : 1 ≤ stringUnits s := by
  cases hs : s.toList with
  | nil => exact absurd (String.toList_eq_nil_iff.mp hs) h
  | cons c cs =>
  rw [stringUnits, hs, utf16_cons, List.length_append]
  rcases utf16Char_cases c with ⟨u, hu, -⟩ | ⟨a, b, hab, -⟩
  · rw [hu]
    exact Nat.le_add_right ..
  · rw [hab]
    exact Nat.le_trans (Nat.le_succ 1) (Nat.le_add_right ..)

def browserQuery (F : Numbers) (query : SavedQuery) : BrowserQuery F :=
  ⟨query.id, trimJS query.name, query.providerID, query.kind, trimJS query.query,
    query.parameters.map (browserParameter F)⟩

end Paprika.Insights
