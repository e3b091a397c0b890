import Paprika.Insights.SavedQuery

/-!
# References to saved queries

A dashboard refers to saved queries from its widgets, their annotations and their tooltips, with a value for each parameter:
a constant, a dashboard variable, or a label or a field of the observation under the pointer.

* `resolveDashboardSavedQuery` — how the server finds the text of a query;
* `suppliedValues`, `resolveSavedQueryTemplate` — how the browser finds it.
-/

namespace Paprika.Insights

open Lib.KeyedMap

/-! ### References as the server reads them -/

structure QueryBinding where
  parameter : String
  source : String
  boundVariable : String
  label : String
  field : String
  value : Option Json

structure QueryReference where
  id : String
  bindings : List QueryBinding

def ParameterType.text : ParameterType → String
  | .string => "string"
  | .number => "number"

/-! ### Resolution by the server -/

section
variable {F : Numbers}

/-- `json.Unmarshal` into an `any`, of which strings and numbers are looked at. -/
def decodeAny (F : Numbers) (e : QueryError) : Json → Except QueryError (Option (Value F))
  | .num literal =>
    match F.parse literal with
    | none => .error e
    | some n => .ok (some (.number n))
  | .str s => .ok (some (.text s))
  | _ => .ok none

def dashboardBindingValue (binding : QueryBinding) (given : String → Option String) :
    Except QueryError (Option (Value F)) :=
  if binding.source = "constant" then
    match binding.value with
    | none => .error .binding
    | some raw => decodeAny F .binding raw
  else if binding.source = "variable" then
    match given binding.boundVariable with
    | none => .error .missingVariable
    | some text => .ok (some (.text text))
  else .error .observation

abbrev Values (F : Numbers) := String → Option (Value F)

def Values.set (values : Values F) (name : String) (value : Option (Value F)) : Values F :=
  fun k => if k = name then value else values k

def defaultValues : List SavedQueryParameter → Values F → Except QueryError (Values F)
  | [], values => .ok values
  | p :: ps, values =>
    match p.defaultValue with
    | none => defaultValues ps values
    | some raw =>
      match decodeAny F .default raw with
      | .error e => .error e
      | .ok value => defaultValues ps (values.set p.name value)

def bindValues (parameters : List SavedQueryParameter) (given : String → Option String) :
    List QueryBinding → Values F → Except QueryError (Values F)
  | [], values => .ok values
  | b :: bs, values =>
    match queryParameters parameters b.parameter with
    | none => .error .unknownParameter
    | some parameter =>
      match dashboardBindingValue b given with
      | .error e => .error e
      | .ok value =>
        match dashboardParameterValue parameter.type value with
        | .error e => .error e
        | .ok checked => bindValues parameters given bs (values.set b.parameter (some checked))

def checkValues : List SavedQueryParameter → Values F → Except QueryError (Values F)
  | [], values => .ok values
  | p :: ps, values =>
    match dashboardParameterValue p.type (values p.name) with
    | .error e => .error e
    | .ok checked => checkValues ps (values.set p.name (some checked))

def resolveDashboardSavedQuery (F : Numbers) (saved : SavedQuery) (reference : QueryReference)
    (given : String → Option String) : Except QueryError String :=
  match defaultValues saved.parameters (fun _ => (none : Option (Value F))) with
  | .error e => .error e
  | .ok defaults =>
    match bindValues saved.parameters given reference.bindings defaults with
    | .error e => .error e
    | .ok bound =>
      match checkValues saved.parameters bound with
      | .error e => .error e
      | .ok values => interpolateDashboardLiterals saved.query (parameterTypes saved.parameters) values
end

/-! ### Resolution by the browser -/

inductive BindingSource (F : Numbers) where
  | fromVariable (name : String)
  | constant (value : Value F)
  | label (name : String)
  | value
  | timestamp
  | series

structure BrowserBinding (F : Numbers) where
  parameter : String
  source : BindingSource F

/-- The observation under the pointer: `value` is its value if that is finite, `seconds` its timestamp in seconds if that is
valid. -/
structure Observation (F : Numbers) where
  name : String
  labels : List (String × String)
  seriesIndex : Nat
  value : Option F.Number
  seconds : Option F.Number

def seriesName {F : Numbers} (o : Observation F) : String :=
  if o.name ≠ "" then o.name
  else
    let labels := ", ".intercalate (o.labels.map fun e => e.1 ++ "=" ++ e.2)
    if labels ≠ "" then labels else "Series " ++ toString (o.seriesIndex + 1)

section
variable {F : Numbers}

def browserBindingValue (given : String → Option String) (observation : Option (Observation F)) :
    BindingSource F → Except QueryError (Value F)
  | .constant value => .ok value
  | .fromVariable name =>
    match given name with
    | none => .error .missingVariable
    | some text => .ok (.text text)
  | .label name =>
    match observation.bind fun o => o.labels.lookup name with
    | none => .error .observation
    | some text => .ok (.text text)
  | .series =>
    match observation with
    | none => .error .observation
    | some o => .ok (.text (seriesName o))
  | .value =>
    match observation.bind (·.value) with
    | none => .error .observation
    | some n => .ok (.number n)
  | .timestamp =>
    match observation.bind (·.seconds) with
    | none => .error .observation
    | some n => .ok (.number n)

def suppliedValues (given : String → Option String) (observation : Option (Observation F)) :
    List (BrowserBinding F) → Except QueryError (List (String × Value F))
  | [] => .ok []
  | b :: bs =>
    match browserBindingValue given observation b.source with
    | .error e => .error e
    | .ok value =>
      match suppliedValues given observation bs with
      | .error e => .error e
      | .ok rest => .ok ((b.parameter, value) :: rest)

def templateValues (supplied : List (String × Value F)) :
    List (BrowserParameter F) → Except QueryError (List (String × Value F))
  | [] => .ok []
  | p :: ps =>
    match (supplied.lookup p.name).or p.defaultValue with
    | none => .error .noValue
    | some value =>
      match savedQueryParameterValue p.type value with
      | .error e => .error e
      | .ok checked =>
        match templateValues supplied ps with
        | .error e => .error e
        | .ok rest => .ok ((p.name, checked) :: rest)

def resolveSavedQueryTemplate (query : BrowserQuery F) (supplied : List (String × Value F)) :
    Except QueryError (List UInt16) :=
  if !supplied.all (fun e => query.parameters.any fun p => p.name == e.1) then .error .unknownParameter
  else match templateValues supplied query.parameters with
    | .error e => .error e
    | .ok values => interpolateQueryLiterals query.query values
end

end Paprika.Insights
