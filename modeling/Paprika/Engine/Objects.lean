import Paprika.Lib.Unstructured
import Paprika.Engine.Hooks

/-!
# Engine: objects and their comparison

An object of a manifest or of the cluster is a map of fields.  The module has what the diff reads of it (`getName`,
`getLabels`, `resourceKey` and so on), what it writes (`ensureManagedLabels`, `applyIgnore`), and how it compares a
desired object with a live one (`resourceEqual`).

* `payload` — all of an object but its metadata; how two payloads are compared is left open;
* `key_ensureManagedLabels`, `payload_ensureManagedLabels` — the labels that are written change neither the key nor the
  payload.
-/

namespace Paprika.Engine

open Lib.Unstructured

/-! ### Reading -/

/-- An object, as the map of its top-level fields. -/
abbrev Object := Fields

/-- The string below a path, empty where there is none. -/
def stringAt (o : Object) (path : List String) : String :=
  match nestedString o path with
  | .ok (some s) => s
  | _ => ""

def stringEntry : String × Value → Option (String × String)
  | (key, .str s) => some (key, s)
  | _ => none

/-- The map of strings below a path, empty where there is none or a value is not a string. -/
def stringMapAt (o : Object) (path : List String) : List (String × String) :=
  match nestedField o path with
  | .ok (some (.obj fields)) => (fields.mapM stringEntry).getD []
  | _ => []

def getAPIVersion (o : Object) : String := stringAt o ["apiVersion"]
def getKind (o : Object) : String := stringAt o ["kind"]
def getName (o : Object) : String := stringAt o ["metadata", "name"]
def getNamespace (o : Object) : String := stringAt o ["metadata", "namespace"]
def getLabels (o : Object) : List (String × String) := stringMapAt o ["metadata", "labels"]
def getAnnotations (o : Object) : List (String × String) := stringMapAt o ["metadata", "annotations"]

def extractOwnerReference : Value → Option OwnerReference
  | .obj ref => some ⟨stringAt ref ["apiVersion"], stringAt ref ["kind"], stringAt ref ["name"]⟩
  | _ => none

/-- The owners, none where one of them is not a map. -/
def getOwnerReferences (o : Object) : List OwnerReference :=
  match nestedField o ["metadata", "ownerReferences"] with
  | .ok (some (.arr refs)) => (refs.mapM extractOwnerReference).getD []
  | _ => []

def nestedBool (o : Object) (path : List String) : Except Unit (Option Bool) :=
  match nestedField o path with
  | .error e => .error e
  | .ok none => .ok none
  | .ok (some (.bool b)) => .ok (some b)
  | .ok (some _) => .error ()

/-- What hooks and the diff's exclusions read of an object. -/
def manifestObject (o : Object) : ManifestObject :=
  { kind := getKind o, labels := getLabels o, annotations := getAnnotations o,
    ownerReferences := getOwnerReferences o, immutable := nestedBool o ["immutable"],
    manifests := nestedString o ["data", "manifests.yaml"] }

/-- An object is identified by its version, kind, namespace and name; no namespace counts as the default one. -/
def resourceKey (o : Object) : String :=
  let ns := if getNamespace o = "" then "default" else getNamespace o
  getAPIVersion o ++ "/" ++ getKind o ++ "/" ++ ns ++ "/" ++ getName o

/-! ### Writing -/

def managedByLabelKey : String := "app.paprika.io/managed-by"

def managedByLabelValue : String := "paprika"

def setEntry (key value : String) : List (String × String) → List (String × String)
  | [] => [(key, value)]
  | (k, v) :: rest => if k = key then (key, value) :: rest else (k, v) :: setEntry key value rest

/-- Write one field of the metadata; metadata that is not a map is left as it is. -/
def setMetadata (key : String) (v : Value) (o : Object) : Object :=
  match o.lookup "metadata" with
  | none => setField "metadata" (.obj [(key, v)]) o
  | some (.obj inner) => setField "metadata" (.obj (setField key v inner)) o
  | some _ => o

def setLabels (labels : List (String × String)) (o : Object) : Object :=
  setMetadata "labels" (.obj (labels.map fun kv => (kv.1, .str kv.2))) o

def managedLabels (applicationName : String) (labels : List (String × String)) : List (String × String) :=
  let labels := setEntry managedByLabelKey managedByLabelValue labels
  if applicationName ≠ "" then setEntry applicationNameLabelKey applicationName labels else labels

def ensureManagedLabels (applicationName : String) (o : Object) : Object :=
  setLabels (managedLabels applicationName (getLabels o)) o

/-- Fields to leave out of the comparison of the objects in scope; an empty scope is everything. -/
structure IgnoreDiff where
  group : String
  kind : String
  name : String
  ns : String
  jsonPointers : List String

/-- The part of a version before its last slash. -/
def groupOf (apiVersion : String) : String :=
  if '/' ∈ apiVersion.toList then
    String.ofList ((apiVersion.toList.reverse.dropWhile (· != '/')).drop 1).reverse
  else ""

def ignoreDiffMatches (rule : IgnoreDiff) (o : Object) : Bool :=
  if rule.group != "" && groupOf (getAPIVersion o) != rule.group then false
  else if rule.kind != "" && getKind o != rule.kind then false
  else if rule.name != "" && getName o != rule.name then false
  else if rule.ns != "" && getNamespace o != rule.ns then false
  else true

/-- Remove the field below a path; a path that is not there is left alone. -/
def removeAt : List String → Object → Object
  | [], o => o
  | [key], o => o.filter (fun kv => kv.1 != key)
  | key :: path, o =>
    match o.lookup key with
    | some (.obj inner) => setField key (.obj (removeAt path inner)) o
    | _ => o

theorem removeAt_last (key : String) (o : Object) : removeAt [key] o = o.filter fun kv => kv.1 != key := by
  rw [removeAt]

/-- The fields that a pointer goes through. -/
def pointerPath (pointer : String) : List String :=
  let trimmed := if ['/'].isPrefixOf pointer.toList then pointer.toList.drop 1 else pointer.toList
  (Lib.Text.split ['/'] trimmed).map String.ofList

def removeField (o : Object) (pointer : String) : Object :=
  if pointer = "" || pointer = "/" then o else removeAt (pointerPath pointer) o

/-- What the rules leave of one object, one rule and one pointer after the other. -/
def applyIgnore (rules : List IgnoreDiff) (o : Object) : Object :=
  rules.foldl (fun o rule =>
    rule.jsonPointers.foldl (fun o pointer => if ignoreDiffMatches rule o then removeField o pointer else o) o) o

/-! ### Comparing -/

def serverManagedAnnotationPrefixes : List String :=
  ["deployment.kubernetes.io/", "kubectl.kubernetes.io/", "pv.kubernetes.io/", "service.kubernetes.io/",
    "volume.kubernetes.io/", "volume.beta.kubernetes.io/", "node.kubernetes.io/", "volumealpha.kubernetes.io/",
    "meta.helm.sh/"]

def isServerManagedAnnotation (key : String) : Bool :=
  serverManagedAnnotationPrefixes.any (fun p => p.toList.isPrefixOf key.toList)

def stripServerAnnotations (annotations : List (String × String)) : List (String × String) :=
  annotations.filter (fun kv => ! isServerManagedAnnotation kv.1)

def labelsEqual (desired live : List (String × String)) : Bool :=
  desired.all (fun kv => live.lookup kv.1 == some kv.2)

def annotationsEqual (desired live : List (String × String)) : Bool :=
  labelsEqual (stripServerAnnotations desired) (stripServerAnnotations live)

def metaEqual (desired live : Object) : Bool :=
  if getName desired != getName live then false
  else if getNamespace desired != getNamespace live then false
  else if !labelsEqual (getLabels desired) (getLabels live) then false
  else annotationsEqual (getAnnotations desired) (getAnnotations live)

/-- Everything but the metadata. -/
def payload (o : Object) : Object := o.filter (fun kv => kv.1 != "metadata")

/-- The comparison of two payloads, with the defaults of the server and the normal forms of the known kinds. -/
abbrev PayloadContains := Object → Object → Bool

/-- A live object is as desired: its metadata and its payload have what the desired object declares. -/
def resourceEqual (payloadContains : PayloadContains) (desired live : Object) : Bool :=
  if !metaEqual desired live then false else payloadContains (payload desired) (payload live)
/-! ### What a read depends on -/

section
variable {o o' : Object} {k key : String}

theorem payload_cons (kv : String × Value) (o : Object) :
    payload (kv :: o) = if kv.1 = "metadata" then payload o else kv :: payload o := by
  by_cases h : kv.1 = "metadata"
  · simp [payload, h]
  · simp [payload, h]

theorem lookup_payload (hk : k ≠ "metadata") (o : Object) : (payload o).lookup k = o.lookup k := by
  induction o with
  | nil => rfl
  | cons kv rest ih =>
    obtain ⟨j, v⟩ := kv
    rw [payload_cons]
    by_cases hj : j = "metadata"
    · have hne : (k == j) = false := by
        rw [hj]
        exact beq_eq_false_iff_ne.mpr hk
      rw [if_pos hj, ih, List.lookup_cons, hne]
    · rw [if_neg hj, List.lookup_cons, List.lookup_cons, ih]

theorem stringAt_congr {path : List String} (h : nestedField o path = nestedField o' path) :
    stringAt o path = stringAt o' path := by
  simp only [stringAt, nestedString, h]

theorem stringMapAt_congr {path : List String} (h : nestedField o path = nestedField o' path) :
    stringMapAt o path = stringMapAt o' path := by
  simp only [stringMapAt, h]

theorem nestedField_of_payload (h : payload o = payload o') (hk : k ≠ "metadata") :
    nestedField o [k] = nestedField o' [k] := by
  simp only [nestedField]
  rw [← lookup_payload hk o, h, lookup_payload hk]

theorem getAPIVersion_congr (h : payload o = payload o') : getAPIVersion o = getAPIVersion o' :=
  stringAt_congr (nestedField_of_payload h (by decide))

theorem getKind_congr (h : payload o = payload o') : getKind o = getKind o' :=
  stringAt_congr (nestedField_of_payload h (by decide))

theorem payload_setField_metadata (v : Value) (o : Object) : payload (setField "metadata" v o) = payload o := by
  induction o with
  | nil => rfl
  | cons kv rest ih =>
    obtain ⟨j, w⟩ := kv
    rw [setField]
    by_cases hj : j = "metadata"
    · rw [if_pos hj, payload_cons, payload_cons, if_pos rfl, if_pos hj]
    · rw [if_neg hj, payload_cons, payload_cons, ih]

variable (applicationName : String)

theorem payload_ensureManagedLabels (o : Object) : payload (ensureManagedLabels applicationName o) = payload o := by
  simp only [ensureManagedLabels, setLabels, setMetadata]
  split
  · exact payload_setField_metadata _ _
  · exact payload_setField_metadata _ _
  · rfl

theorem nestedField_setMetadata {field : String} (hne : field ≠ key) (v : Value) (o : Object) :
    nestedField (setMetadata key v o) ["metadata", field] = nestedField o ["metadata", field] := by
  have hsingle : [(key, v)].lookup field = none := by
    rw [List.lookup_cons, beq_eq_false_iff_ne.mpr hne]
    rfl
  simp only [setMetadata]
  split
  · next h => simp only [nestedField, lookup_setField_self, h, hsingle]
  · next inner h => simp only [nestedField, lookup_setField_self, h, lookup_setField_of_ne hne]
  · rfl

theorem name_ensureManagedLabels (o : Object) : getName (ensureManagedLabels applicationName o) = getName o :=
  stringAt_congr (nestedField_setMetadata (by decide) _ o)

theorem namespace_ensureManagedLabels (o : Object) :
    getNamespace (ensureManagedLabels applicationName o) = getNamespace o :=
  stringAt_congr (nestedField_setMetadata (by decide) _ o)

/-- **The managed labels are no part of the key.** -/
theorem key_ensureManagedLabels (o : Object) : resourceKey (ensureManagedLabels applicationName o) = resourceKey o := by
  have hpayload := payload_ensureManagedLabels applicationName o
  simp only [resourceKey, getAPIVersion_congr hpayload, getKind_congr hpayload, name_ensureManagedLabels,
    namespace_ensureManagedLabels]
end

end Paprika.Engine
