import Paprika.Lib.KeyedMap
import Paprika.Engine.Objects

/-!
# Engine: the diff between desired and live objects

`ScalableDiffEngine` reads only what the desired objects ask for: a list for each resource type and namespace, through
the cache of informers if that answers and from the API server otherwise, and some kinds by name.  `DiffEngine` reads
every resource type that discovery knows.  Both then compare the desired objects with what they have read
(`classifyDiffs`).

* `Cluster` — what is live, by resource type;
* `Looks`, `getInformer` — the cache of informers, as it is found at each look;
* `Environment` — the cluster, which reads of it fail, and the functions that the engine is given;
* `ScalableDiffEngine.computeDiff`, `DiffEngine.computeDiff`.

The sets of queries are lists without duplicates, read in some order, and a map is a list of entries with distinct
keys, in some order.
-/

namespace Paprika.Engine

open Lib.KeyedMap

/-! ### Resource types -/

/-- A resource type of the API. -/
structure GVR where
  group : String
  version : String
  resource : String
  deriving DecidableEq

def knownGVRs : List (String × GVR) :=
  [("Deployment", ⟨"apps", "v1", "deployments"⟩),
    ("Service", ⟨"", "v1", "services"⟩),
    ("Ingress", ⟨"networking.k8s.io", "v1", "ingresses"⟩),
    ("ConfigMap", ⟨"", "v1", "configmaps"⟩),
    ("Secret", ⟨"", "v1", "secrets"⟩),
    ("Namespace", ⟨"", "v1", "namespaces"⟩),
    ("Job", ⟨"batch", "v1", "jobs"⟩),
    ("CronJob", ⟨"batch", "v1", "cronjobs"⟩),
    ("Pod", ⟨"", "v1", "pods"⟩),
    ("ServiceAccount", ⟨"", "v1", "serviceaccounts"⟩),
    ("ClusterRole", ⟨"rbac.authorization.k8s.io", "v1", "clusterroles"⟩),
    ("ClusterRoleBinding", ⟨"rbac.authorization.k8s.io", "v1", "clusterrolebindings"⟩),
    ("Role", ⟨"rbac.authorization.k8s.io", "v1", "roles"⟩),
    ("RoleBinding", ⟨"rbac.authorization.k8s.io", "v1", "rolebindings"⟩),
    ("PersistentVolumeClaim", ⟨"", "v1", "persistentvolumeclaims"⟩),
    ("StatefulSet", ⟨"apps", "v1", "statefulsets"⟩),
    ("DaemonSet", ⟨"apps", "v1", "daemonsets"⟩),
    ("ReplicaSet", ⟨"apps", "v1", "replicasets"⟩),
    ("HorizontalPodAutoscaler", ⟨"autoscaling", "v2", "horizontalpodautoscalers"⟩),
    ("NetworkPolicy", ⟨"networking.k8s.io", "v1", "networkpolicies"⟩),
    ("IngressClass", ⟨"networking.k8s.io", "v1", "ingressclasses"⟩),
    ("StorageClass", ⟨"storage.k8s.io", "v1", "storageclasses"⟩),
    ("CustomResourceDefinition", ⟨"apiextensions.k8s.io", "v1", "customresourcedefinitions"⟩)]

def slashParts (s : String) : List String := (Lib.Text.split ['/'] s.toList).map String.ofList

def parseAPIVersion (apiVersion : String) : String × String :=
  match slashParts apiVersion with
  | [group, version] => (group, version)
  | [version] => ("", version)
  | _ => ("", "")

def irregularPlurals : List (String × String) :=
  [("ingress", "ingresses"), ("class", "classes"), ("poddisruptionbudget", "poddisruptionbudgets")]

def hasSuffix (s suffix : String) : Bool := suffix.toList.isSuffixOf s.toList

def regularPlural (s : String) : String :=
  match irregularPlurals.lookup s with
  | some p => p
  | none =>
    if hasSuffix s "s" || hasSuffix s "x" || hasSuffix s "ch" || hasSuffix s "sh" then s ++ "es"
    else
      match s.toList.reverse with
      | 'y' :: c :: _ => if "aeiou".toList.contains c then s ++ "s" else String.ofList s.toList.dropLast ++ "ies"
      | _ => s ++ "s"

/-- The resource type of an object, from the resolver if there is one, else from the table of known kinds or by
pluralization. -/
def gvrForObjectWithResolver (resolver : Option (String → String → String → Option GVR)) (o : Object) : Option GVR :=
  let (group, version) := parseAPIVersion (getAPIVersion o)
  let kind := getKind o
  match resolver with
  | some resolve => resolve group version kind
  | none =>
    let plural : Option GVR :=
      if version = "" then none else some ⟨group, version, regularPlural kind.toLower⟩
    match knownGVRs.lookup kind with
    | none => plural
    | some gvr => if group = "" || (gvr.group = group && gvr.version = version) then some gvr else plural

def isClusterScopedKind (kind : String) : Bool :=
  ["APIService", "ClusterRole", "ClusterRoleBinding", "ComputeClass", "CustomResourceDefinition", "GatewayClass",
    "Namespace", "Node", "PersistentVolume", "PriorityClass", "StorageClass", "ValidatingWebhookConfiguration",
    "MutatingWebhookConfiguration"].contains kind

/-- Kinds that are read by name. -/
def usesNamedLiveRead (gvr : GVR) : Bool :=
  (gvr.group = "cloud.google.com" && gvr.resource = "computeclasses") ||
    (gvr.group = "scheduling.k8s.io" && gvr.resource = "priorityclasses")

/-! ### The cluster -/

/-- What is live: the objects of each resource type, all of one version and kind, with a namespace exactly if the type
is namespaced, and no two of them with one key. -/
structure Cluster where
  namespaced : GVR → Bool
  objects : GVR → List Object
  spaced : ∀ gvr, ∀ o ∈ objects gvr, getNamespace o ≠ "" ↔ namespaced gvr = true
  typed : ∀ gvr, ∀ o ∈ objects gvr, ∀ o' ∈ objects gvr, getAPIVersion o = getAPIVersion o' ∧ getKind o = getKind o'
  keyed : ∀ gvr gvr', ∀ o ∈ objects gvr, ∀ o' ∈ objects gvr', resourceKey o = resourceKey o' → o = o'

def inNamespace (ns : String) (o : Object) : Bool := ns = "" || getNamespace o = ns

abbrev Selector := List (String × String) → Bool

/-! ### The cache of informers -/

/-- An informer holds live objects, and all of them once it has synced. -/
structure Informer (C : Cluster) (gvr : GVR) where
  hasSynced : Bool
  store : List Object
  live : ∀ o ∈ store, o ∈ C.objects gvr
  complete : hasSynced = true → ∀ o ∈ C.objects gvr, o ∈ store

/-- What the cache knows about a resource type: whether its informer could not sync, and the informer. -/
structure CacheEntry (C : Cluster) (gvr : GVR) where
  unsynced : Bool
  factory : Option (Informer C gvr)

/-- One read through the cache: what is found at each of the three looks, what the API server answers to the access reviews,
and the informer that this call starts, as it is when the wait for it ends. -/
structure Looks (C : Cluster) (gvr : GVR) where
  first : CacheEntry C gvr
  second : CacheEntry C gvr
  third : CacheEntry C gvr
  review : String → Option Bool
  started : Informer C gvr

section
variable {C : Cluster} {gvr : GVR}

/-- A look: an error, an informer, or nothing known. -/
def CacheEntry.look (e : CacheEntry C gvr) : Option (Option (Informer C gvr)) :=
  if e.unsynced then some none else e.factory.map some

/-- The loop of `clusterWatchDenied` over the verbs. -/
def reviewLoop (review : String → Option Bool) : List String → Bool
  | [] => false
  | verb :: rest =>
    match review verb with
    | none => false
    | some allowed => if !allowed then true else reviewLoop review rest

def clusterWatchDenied (review : String → Option Bool) : Bool := reviewLoop review ["list", "watch"]

/-- The informer of a resource type; `none` is an error. -/
def getInformer (l : Looks C gvr) : Option (Informer C gvr) :=
  match l.first.look with
  | some found => found
  | none =>
    match l.second.look with
    | some found => found
    | none =>
      if clusterWatchDenied l.review then none
      else
        match l.third.look with
        | some found => found
        -- an informer that did not sync in time is torn down
        | none => if l.started.hasSynced then some l.started else none

/-- The live objects that the selector selects, from the informer; `none` is an error. -/
def LiveResourceCache.get (l : Looks C gvr) (ns : String) (selector : Selector) : Option (List Object) :=
  (getInformer l).map fun informer => informer.store.filter fun o => selector (getLabels o) && inNamespace ns o
end

/-! ### Options and results -/

structure DiffOptions where
  ns : String
  labelSelector : String
  fieldSelector : String
  applicationName : String
  ignoreDifferences : List IgnoreDiff

structure ResourceDiff where
  kind : String
  name : String
  ns : String
  action : String
  deriving DecidableEq

structure DiffResult where
  added : List ResourceDiff := []
  modified : List ResourceDiff := []
  deleted : List ResourceDiff := []
  unchanged : List ResourceDiff := []
  summary : String := ""
  live : List Object := []

/-- Objects under their keys. -/
abbrev ObjectMap := Map String Object

def resourceDiff (o : Object) (action : String) : ResourceDiff :=
  { kind := getKind o, name := getName o, ns := getNamespace o, action }

def isGeneratedChildResource (o : Object) (desiredKinds : List String) : Bool :=
  let refs := getOwnerReferences o
  if refs.isEmpty then false else !refs.any (fun ref => desiredKinds.contains ref.kind)

def classifyDesired (payloadContains : PayloadContains) (liveMap : ObjectMap) (result : DiffResult) (key : String)
    (desired : Object) : DiffResult :=
  match liveMap.lookup key with
  | none => { result with added := result.added ++ [resourceDiff desired "Added"] }
  | some live =>
    if resourceEqual payloadContains desired live then
      { result with unchanged := result.unchanged ++ [resourceDiff desired "Unchanged"] }
    else { result with modified := result.modified ++ [resourceDiff desired "Modified"] }

def classifyLive (desiredMap : ObjectMap) (desiredKinds : List String) (result : DiffResult) (key : String)
    (live : Object) : DiffResult :=
  if (desiredMap.lookup key).isSome then result
  else if isGeneratedChildResource live desiredKinds then result
  else { result with deleted := result.deleted ++ [resourceDiff live "Deleted"] }

def classifyDiffs (payloadContains : PayloadContains) (result : DiffResult) (desiredMap liveMap : ObjectMap) :
    DiffResult :=
  let desiredKinds := desiredMap.entries.map (fun e => getKind e.2)
  let result := desiredMap.entries.foldl (fun r e => classifyDesired payloadContains liveMap r e.1 e.2) result
  liveMap.entries.foldl (fun r e => classifyLive desiredMap desiredKinds r e.1 e.2) result

/-- The summary and the live objects, for those who read on. -/
def DiffResult.finish (result : DiffResult) (liveMap : ObjectMap) : DiffResult :=
  { result with
    summary := "+" ++ toString result.added.length ++ " ~" ++ toString result.modified.length ++ " -" ++
      toString result.deleted.length
    live := liveMap.entries.map (fun e => e.2) }

def compareMaps (payloadContains : PayloadContains) (rules : List IgnoreDiff) (desiredMap liveMap : ObjectMap) :
    DiffResult :=
  let desiredMap := mapValues (applyIgnore rules) desiredMap
  let liveMap := mapValues (applyIgnore rules) liveMap
  (classifyDiffs payloadContains {} desiredMap liveMap).finish liveMap

def filterHookObjects (objs : List Object) : List Object := objs.filter (fun o => !isHook (manifestObject o))

/-- Put the items of a list under their keys, but for those that are never compared. -/
def addItems (result : ObjectMap) (items : List Object) : ObjectMap :=
  items.foldl (fun m item =>
    if shouldIgnoreLiveResource (manifestObject item) then m else m.insert (resourceKey item) item) result

/-! ### The environment -/

/-- A resource type that discovery offers. -/
structure APIResource where
  name : String
  namespaced : Bool
  verbs : List String

structure APIResourceList where
  groupVersion : String
  resources : List APIResource

/-- How discovery fails: for some groups only, or altogether. -/
inductive DiscoveryError where
  | groups
  | all (err : String)

/-- What discovery answers. -/
structure Discovery where
  lists : List APIResourceList
  err : Option DiscoveryError

/-- The cluster, the reads of it that fail, what the cache of informers finds for each query if there is a cache, the
resolver if there is one, and the selectors and comparisons that the engine uses. -/
structure Environment where
  cluster : Cluster
  listFails : GVR → String → Bool
  getFails : GVR → String → Bool
  liveCache : Option (∀ gvr : GVR, String → Looks cluster gvr)
  resolver : Option (String → String → String → Option GVR)
  parseSelector : String → Except String Selector
  fieldSelects : String → Object → Bool
  payloadContains : PayloadContains

/-- A list request; a type without namespaces has no list in a namespace. -/
def Environment.list (E : Environment) (gvr : GVR) (ns : String) (select : Object → Bool) : Option (List Object) :=
  if E.listFails gvr ns then none
  else if ns != "" && !E.cluster.namespaced gvr then none
  else some ((E.cluster.objects gvr).filter fun o => select o && inNamespace ns o)

inductive GetResult where
  | found (o : Object)
  | notFound
  | failed

/-- A request for the object of a name; a namespaced type has no object outside a namespace. -/
def Environment.get (E : Environment) (gvr : GVR) (name : String) : GetResult :=
  if E.getFails gvr name || E.cluster.namespaced gvr then .failed
  else
    match (E.cluster.objects gvr).find? (fun o => getName o == name) with
    | some o => .found o
    | none => .notFound

/-! ### The scalable engine -/

namespace ScalableDiffEngine

/-- What is to be listed, by type and namespace, and what is to be read by name. -/
structure Queries where
  listed : List (GVR × String) := []
  named : List (GVR × String) := []

def insertNew (q : GVR × String) (qs : List (GVR × String)) : List (GVR × String) :=
  if qs.contains q then qs else qs ++ [q]

def queryNamespace (defaultNamespace : String) (o : Object) : String :=
  if isClusterScopedKind (getKind o) then ""
  else if getNamespace o = "" then defaultNamespace
  else getNamespace o

/-- An object whose type is not known is not asked for. -/
def addDesiredResourceQuery (E : Environment) (defaultNamespace : String) (qs : Queries) (o : Object) : Queries :=
  match gvrForObjectWithResolver E.resolver o with
  | none => qs
  | some gvr =>
    if usesNamedLiveRead gvr then { qs with named := insertNew (gvr, getName o) qs.named }
    else { qs with listed := insertNew (gvr, queryNamespace defaultNamespace o) qs.listed }

/-- The items of a query: from the cache, or else from the API server. -/
def readItems (E : Environment) (opts : DiffOptions) (selector : Selector) (gvr : GVR) (ns : String) :
    Option (List Object) :=
  let cached :=
    match E.liveCache with
    | none => none
    | some looks => LiveResourceCache.get (looks gvr ns) ns selector
  match cached with
  | some items => some items
  | none => E.list gvr ns (fun o => selector (getLabels o) && E.fieldSelects opts.fieldSelector o)

def fetchLiveResources (E : Environment) (opts : DiffOptions) (selector : Selector) (listed : List (GVR × String)) :
    ObjectMap :=
  listed.foldl (fun result q =>
    match readItems E opts selector q.1 q.2 with
    | none => result
    | some items => addItems result items) ∅

/-- The reads by name; the first one that fails is the error, told here without its cause. -/
def fetchNamedLiveResources (E : Environment) (selector : Selector) :
    List (GVR × String) → ObjectMap → Except String ObjectMap
  | [], live => .ok live
  | (gvr, name) :: rest, live =>
    match E.get gvr name with
    | .notFound => fetchNamedLiveResources E selector rest live
    | .failed => .error ("read desired " ++ gvr.resource ++ " \"" ++ name ++ "\"")
    | .found o =>
      if shouldIgnoreLiveResource (manifestObject o) || !selector (getLabels o) then
        fetchNamedLiveResources E selector rest live
      else fetchNamedLiveResources E selector rest (live.insert (resourceKey o) o)

/-- The loop over the desired objects: label them, put them under their keys, and note what to ask for. -/
def collectDesired (E : Environment) (opts : DiffOptions) (desired : List Object) : ObjectMap × Queries :=
  desired.foldl (fun acc o =>
    let o := ensureManagedLabels opts.applicationName o
    (acc.1.insert (resourceKey o) o, addDesiredResourceQuery E opts.ns acc.2 o)) (∅, {})

def computeDiff (E : Environment) (desired : List Object) (opts : DiffOptions) : Except String DiffResult :=
  let (desiredMap, queries) := collectDesired E opts (filterHookObjects desired)
  match E.parseSelector opts.labelSelector with
  | .error e => .error ("fetch live resources: parse label selector: " ++ e)
  | .ok selector =>
    let liveMap := fetchLiveResources E opts selector queries.listed
    match fetchNamedLiveResources E selector queries.named liveMap with
    | .error e => .error e
    | .ok liveMap => .ok (compareMaps E.payloadContains opts.ignoreDifferences desiredMap liveMap)

end ScalableDiffEngine

/-! ### The engine that reads everything -/

namespace DiffEngine

def parseGroupVersion (gv : String) : Option (String × String) :=
  if gv = "" || gv = "/" then some ("", "")
  else
    match slashParts gv with
    | [version] => some ("", version)
    | [group, version] => some (group, version)
    | _ => none

/-- The items of one resource type. -/
def readResource (E : Environment) (ns group version : String) (r : APIResource) : Option (List Object) :=
  if !r.verbs.contains "list" then none
  else E.list ⟨group, version, r.name⟩ (if r.namespaced then ns else "") (fun _ => true)

def fetchList (E : Environment) (ns : String) (result : ObjectMap) (l : APIResourceList) : ObjectMap :=
  match parseGroupVersion l.groupVersion with
  | none => result
  | some (group, version) =>
    l.resources.foldl (fun result r =>
      match readResource E ns group version r with
      | none => result
      | some items => addItems result items) result

def fetchLiveResources (E : Environment) (discovery : Discovery) (ns : String) : Except String ObjectMap :=
  match discovery.err with
  | some (.all err) => .error ("discover resources: " ++ err)
  | _ => .ok (discovery.lists.foldl (fetchList E ns) ∅)

def computeDiff (E : Environment) (discovery : Discovery) (desired : List Object) (opts : DiffOptions) :
    Except String DiffResult :=
  let desiredMap := insertAll resourceKey ∅ (filterHookObjects desired)
  match fetchLiveResources E discovery opts.ns with
  | .error e => .error ("fetch live resources: " ++ e)
  | .ok liveMap => .ok (compareMaps E.payloadContains opts.ignoreDifferences desiredMap liveMap)

end DiffEngine

end Paprika.Engine
