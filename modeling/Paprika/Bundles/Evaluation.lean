import Paprika.Bundles.Types
import Paprika.Engine.Renderers
import Paprika.Governance.Validator

/-!
# Bundles: preparation and evaluation

The part of `ApplyBundle` that looks at the bundle: `prepareBundle` and `deriveAppName`, the boundary of the project, and
the policies, of a project (`policy_evaluator.go`) or all of them (`evaluator.go`).

* `Libraries` — YAML, CEL and `fmt`;
* `prepareBundle`, `deriveAppName` — the manifests with their namespace and labels, and the name of the first;
* `celEvaluate`, `evaluateBundle` — the results of the policies, and whether one of them blocks the bundle.
-/

namespace Paprika.Bundles

open Engine (Object Manifests splitYAMLDocuments getName getKind getNamespace getLabels getAPIVersion
  setMetadata setEntry)
open Governance (AppProject ProjectValidator Violations)
open Lib.Text

/-- `evalPolicy` is the value of a policy's expression on an object, with a message where it is not true. -/
structure Libraries where
  unmarshal : List Char → Except String (Option Object)
  marshal : Object → Except String (List Char)
  evalPolicy : String → Object → Bool × String
  sprintf : String → List String → String

/-! ### Preparation -/

section
variable (L : Libraries)

/-- The text is empty where there is no object in it. -/
def prepareDocument (ns : String) (doc : List Char) : Except String (List Char) :=
  let trimmed := trimSpace doc
  if trimmed = [] then .ok []
  else
    match L.unmarshal trimmed with
    | .error text => .error ("unmarshal manifest: " ++ text)
    | .ok none => .ok []
    | .ok (some obj) =>
      let obj := if getNamespace obj = "" then setMetadata "namespace" (.str ns) obj else obj
      let labels := setEntry nameLabel (getName obj) (setEntry managedByLabel "paprika" (getLabels obj))
      match L.marshal (Engine.setLabels labels obj) with
      | .error text => .error ("marshal manifest: " ++ text)
      | .ok bytes => .ok bytes

/-- The loop of `prepareBundle`: the documents with an object in them. -/
def prepareDocuments (ns : String) : List (List Char) → Except String (List (List Char))
  | [] => .ok []
  | doc :: docs =>
    match prepareDocument L ns doc with
    | .error text => .error ("prepare document: " ++ text)
    | .ok prepared =>
      match prepareDocuments ns docs with
      | .error text => .error text
      | .ok rest => .ok (if prepared = [] then rest else prepared :: rest)

def documentSeparator : List Char := "\n---\n".toList

def prepareBundle (raw : List Char) (ns : String) : Except String (List Char) :=
  if raw = [] then .error "empty manifest bundle"
  else
    match prepareDocuments L ns (splitYAMLDocuments raw) with
    | .error text => .error text
    | .ok [] => .error "no valid manifests in bundle"
    | .ok docs => .ok (documentSeparator.intercalate docs)

def manifestsOf : List (List Char) → Except String (List Object)
  | [] => .ok []
  | doc :: docs =>
    match L.unmarshal doc with
    | .error text => .error ("unmarshal manifest: " ++ text)
    | .ok obj =>
      match manifestsOf docs with
      | .error text => .error text
      | .ok rest => .ok (obj.toList ++ rest)

def manifestsFromBundle (bundle : List Char) : Except String (List Object) := manifestsOf L (splitYAMLDocuments bundle)

def deriveAppName (bundle : List Char) : Except String String :=
  match manifestsFromBundle L bundle with
  | .error text => .error ("parse bundle: " ++ text)
  | .ok [] => .error "no valid manifests in bundle"
  | .ok (first :: _) =>
    if getName first = "" then .error "first manifest has no metadata.name" else .ok (getName first)
end

/-! ### Policies -/

structure EvaluationResult where
  passed : Bool
  blocked : Bool
  message : String
  results : List PolicyResult

structure EvaluateOptions where
  ns : String
  applicationName : String
  skipPolicies : List String
  policyOverrides : List (String × String)

/-- `Policy`.  The label selector says whether it selects labels, if it is a valid one. -/
structure Policy where
  name : String
  severity : String
  defaultAction : String
  projects : List String
  apiGroups : List String
  kinds : List String
  namespaces : List String
  labelSelector : Option (List (String × String) → Option Bool)
  expression : String

namespace Policy

variable (p : Policy)

def appliesToProject (project : String) : Bool :=
  p.projects.isEmpty || p.projects.any fun pr => pr == "*" || pr == project

/-- `match` -/
def selects (obj : Object) : Bool :=
  (p.apiGroups.isEmpty || p.apiGroups.contains ((cutGroup (getAPIVersion obj)).getD "")) &&
    (p.kinds.isEmpty || p.kinds.contains (getKind obj)) &&
    (p.namespaces.isEmpty || p.namespaces.contains (getNamespace obj)) &&
    match p.labelSelector with
    | none => true
    | some selector => (selector (getLabels obj)).getD true

def resolveAction (overrides : List (String × String)) : String :=
  match overrides.lookup p.name with
  | some action => action
  | none =>
    if p.defaultAction ≠ "" then p.defaultAction else if p.severity = "warning" then "warn" else "enforce"

end Policy

section
variable (L : Libraries)

/-- The loop of `aggregate`; a failed policy that is not enforced only leaves its message. -/
def aggregateFrom (results : List PolicyResult) (message : String) : List PolicyResult → EvaluationResult
  | [] => { passed := true, blocked := false, message := message, results := results }
  | r :: rest =>
    if !r.passed && r.action == "enforce" then
      { passed := false, blocked := true, message := "policy " ++ r.name ++ " failed", results := results }
    else if !r.passed then aggregateFrom results ("policy " ++ r.name ++ " warned") rest
    else aggregateFrom results message rest

def aggregate (results : List PolicyResult) : EvaluationResult := aggregateFrom results "" results

def policyResults (policies : List Policy) (opts : EvaluateOptions) (obj : Object) : List PolicyResult :=
  (policies.filter fun p => !opts.skipPolicies.contains p.name && p.selects obj).map fun p =>
    { name := p.name, severity := p.severity, action := p.resolveAction opts.policyOverrides
      passed := (L.evalPolicy p.expression obj).1, message := (L.evalPolicy p.expression obj).2 }

/-- `CELEvaluator.Evaluate` -/
def celEvaluate (policies : List Policy) (bundle : List Char) (opts : EvaluateOptions) : Except String EvaluationResult :=
  match manifestsFromBundle L bundle with
  | .error text => .error text
  | .ok objs => .ok (aggregate (objs.flatMap (policyResults L policies opts)))

def renderBundle (manifests : List Object) : Except String (List Char) :=
  match manifests.mapM L.marshal with
  | .error text => .error ("marshal manifest: " ++ text)
  | .ok docs => .ok (documentSeparator.intercalate docs)

/-- `PolicyEvaluator.Evaluate`: the policies that failed, which are enforced where nothing else is said. -/
def violationsOf (policies : List Policy) (project : String) (manifests : List Object) (opts : EvaluateOptions) :
    Except String (List PolicyResult) :=
  match renderBundle L manifests with
  | .error text => .error ("render bundle: " ++ text)
  | .ok bundle =>
    match celEvaluate L (policies.filter (·.appliesToProject project)) bundle opts with
    | .error text => .error ("evaluate policies: " ++ text)
    | .ok result =>
      .ok ((result.results.filter (!·.passed)).map fun r => { r with action := if r.action = "" then "enforce" else r.action })

/-- The loop of `evaluatePoliciesForProject`: the last violation that blocks has the message, or the first of all. -/
def projectResult (violations : List PolicyResult) : EvaluationResult :=
  violations.foldl
    (fun result v =>
      if v.action = "enforce" then { result with passed := false, blocked := true, message := v.message }
      else if result.message = "" then { result with message := v.message }
      else result)
    { passed := true, blocked := false, message := "", results := violations }

/-! ### Projects -/

def permissiveDefaultProject : AppProject :=
  { name := "default", sourceRepos := ["*"], sourceReposDeny := [], repositories := [], destinations := [⟨"*", "*", ""⟩],
    kinds := ["*"], kindsDeny := [], clusterResourceWhitelist := ["*"], clusterResourceBlacklist := [] }

def toPolicyResults (violations : Violations) : List PolicyResult :=
  violations.map fun v =>
    { name := v.rule, severity := "", action := if v.action = .enforce then "enforce" else "warn", passed := false
      message := L.sprintf v.message.format v.message.args }
end

end Paprika.Bundles
