import Mathlib.Data.List.Nodup
import Paprika.Engine.Hooks

/-!
# Manifests and the objects of a cluster

What the release controller applies, and what it finds in the cluster it applies to.  A document names an object by
`apiVersion`, kind, namespace and name; the cluster keeps it under group, resource, namespace and name, and shows it
under every version of the group that it serves.
-/

namespace Paprika.Releases

open Engine

/-! ### Documents -/

/-- A manifest that parses, with the metadata that apply, prune and cleanup read. -/
structure Document where
  apiVersion : String
  kind : String
  metadataNamespace : String
  name : String
  annotations : List (String × String)
  deriving DecidableEq, Repr

def parseAPIVersion (apiVersion : String) : String × String :=
  match apiVersion.toList.splitOn '/' with
  | [group, version] => (String.ofList group, String.ofList version)
  | [version] => ("", String.ofList version)
  | _ => ("", "")

def clusterScopedKinds : List String :=
  ["APIService", "ClusterRole", "ClusterRoleBinding", "ComputeClass", "CustomResourceDefinition", "GatewayClass",
    "Namespace", "Node", "PersistentVolume", "PriorityClass", "StorageClass", "ValidatingWebhookConfiguration",
    "MutatingWebhookConfiguration"]

def isClusterScopedKind (kind : String) : Bool := clusterScopedKinds.contains kind

/-- The namespace that `applyDocument` writes to: none for a cluster-scoped kind, else `setTargetNamespace`. -/
def Document.targetNamespace (fallback : String) (d : Document) : String :=
  if isClusterScopedKind d.kind then "" else if d.metadataNamespace = "" then fallback else d.metadataNamespace

/-- The documents that `parseManifest` lets through. -/
def parseManifests (docs : List Document) : List Document := docs.filter (fun d => d.kind != "")

/-- The object of a document, as the hook classification reads it. -/
def Document.paired (d : Document) : PairedObj Document :=
  { obj :=
      { kind := d.kind, labels := [], annotations := d.annotations, ownerReferences := [], immutable := .ok none,
        manifests := .ok none }
    raw := d }

def syncDocs (docs : List Document) : List Document := (classifyPaired (docs.map Document.paired)).sync.map (·.raw)

/-! ### Resources -/

structure GroupVersionResource where
  group : String
  version : String
  resource : String
  deriving DecidableEq, Repr

def GroupVersionResource.apiVersion (gvr : GroupVersionResource) : String :=
  if gvr.group = "" then gvr.version else gvr.group ++ "/" ++ gvr.version

def managedGVRs : List GroupVersionResource :=
  [{ group := "apps", version := "v1", resource := "deployments" },
    { group := "apps", version := "v1", resource := "statefulsets" },
    { group := "batch", version := "v1", resource := "cronjobs" },
    { group := "", version := "v1", resource := "serviceaccounts" },
    { group := "", version := "v1", resource := "services" },
    { group := "", version := "v1", resource := "persistentvolumeclaims" },
    { group := "gateway.networking.k8s.io", version := "v1", resource := "httproutes" },
    { group := "networking.k8s.io", version := "v1", resource := "ingresses" }]

def knownGVRs : List (String × GroupVersionResource) :=
  [("Deployment", { group := "apps", version := "v1", resource := "deployments" }),
    ("StatefulSet", { group := "apps", version := "v1", resource := "statefulsets" }),
    ("Service", { group := "", version := "v1", resource := "services" }),
    ("Ingress", { group := "networking.k8s.io", version := "v1", resource := "ingresses" }),
    ("ConfigMap", { group := "", version := "v1", resource := "configmaps" }),
    ("Secret", { group := "", version := "v1", resource := "secrets" }),
    ("Namespace", { group := "", version := "v1", resource := "namespaces" }),
    ("Job", { group := "batch", version := "v1", resource := "jobs" }),
    ("CronJob", { group := "batch", version := "v1", resource := "cronjobs" }),
    ("Pod", { group := "", version := "v1", resource := "pods" }),
    ("ServiceAccount", { group := "", version := "v1", resource := "serviceaccounts" }),
    ("HTTPRoute", { group := "gateway.networking.k8s.io", version := "v1", resource := "httproutes" }),
    ("ClusterRole", { group := "rbac.authorization.k8s.io", version := "v1", resource := "clusterroles" }),
    ("ClusterRoleBinding", { group := "rbac.authorization.k8s.io", version := "v1", resource := "clusterrolebindings" }),
    ("Role", { group := "rbac.authorization.k8s.io", version := "v1", resource := "roles" }),
    ("RoleBinding", { group := "rbac.authorization.k8s.io", version := "v1", resource := "rolebindings" }),
    ("PersistentVolumeClaim", { group := "", version := "v1", resource := "persistentvolumeclaims" })]

/-- The resolver of the API server's resources: kind, group and version. -/
abbrev GVRResolver := String → String → String → Option GroupVersionResource

/-- `gvrFromKind`, with a resolver where there is one. -/
def gvrFromKind (resolver : Option GVRResolver) (kind group version : String) : Option GroupVersionResource :=
  match resolver with
  | some resolve => resolve kind group version
  | none =>
    let guess :=
      if group = "" ∨ version = "" then none
      else some { group := group, version := version, resource := kind.toLower ++ "s" }
    match knownGVRs.lookup kind with
    | some gvr => if group = "" ∨ (gvr.group = group ∧ gvr.version = version) then some gvr else guess
    | none => guess

def gvrOf (resolver : Option GVRResolver) (apiVersion kind : String) : Option GroupVersionResource :=
  gvrFromKind resolver kind (parseAPIVersion apiVersion).1 (parseAPIVersion apiVersion).2

/-! ### Objects -/

def managedByLabelKey : String := "app.paprika.io/managed-by"

def managedByLabelValue : String := "paprika"

/-- What a cluster keeps an object under; the namespace of a cluster-scoped object is empty. -/
structure ResourceKey where
  group : String
  resource : String
  namespace_ : String
  name : String
  deriving DecidableEq, Repr

def GroupVersionResource.key (gvr : GroupVersionResource) (namespace_ name : String) : ResourceKey :=
  { group := gvr.group, resource := gvr.resource, namespace_ := namespace_, name := name }

/-- The key that `applyDocument` writes a document to; a kind that has no resource is skipped. -/
def Document.key (resolver : Option GVRResolver) (fallback : String) (d : Document) : Option ResourceKey :=
  (gvrOf resolver d.apiVersion d.kind).map (fun gvr => gvr.key (d.targetNamespace fallback) d.name)

/-- The objects that documents name. -/
def documentKeys (resolver : Option GVRResolver) (fallback : String) (docs : List Document) : List ResourceKey :=
  (parseManifests docs).filterMap (Document.key resolver fallback)

structure LiveObject where
  key : ResourceKey
  kind : String
  labels : List (String × String)
  annotations : List (String × String)
  ownerReferences : List OwnerReference

/-- What identifies an object whatever the version: group, kind, namespace and name. -/
structure Identity where
  group : String
  kind : String
  namespace_ : String
  name : String
  deriving DecidableEq, Repr

def LiveObject.identity (o : LiveObject) : Identity :=
  { group := o.key.group, kind := o.kind, namespace_ := o.key.namespace_, name := o.key.name }

def Document.identity (fallback : String) (d : Document) : Identity :=
  { group := (parseAPIVersion d.apiVersion).1, kind := d.kind, namespace_ := d.targetNamespace fallback, name := d.name }

def LiveObject.managedBy (appName : String) (o : LiveObject) : Bool :=
  entry o.labels managedByLabelKey == managedByLabelValue && entry o.labels applicationNameLabelKey == appName

/-- The objects of a cluster, one under each key. -/
structure Content where
  objects : List LiveObject
  distinct : (objects.map LiveObject.key).Nodup

def Content.get (c : Content) (key : ResourceKey) : Option LiveObject := c.objects.find? (fun o => o.key = key)

def Content.delete (c : Content) (key : ResourceKey) : Content where
  objects := c.objects.filter (fun o => o.key ≠ key)
  distinct := (List.filter_sublist.map LiveObject.key).nodup c.distinct

variable {c : Content} {o : LiveObject}

theorem Content.mem_delete {key : ResourceKey} : o ∈ (c.delete key).objects ↔ o ∈ c.objects ∧ o.key ≠ key := by
  show o ∈ c.objects.filter (fun o => o.key ≠ key) ↔ _
  rw [List.mem_filter, decide_eq_true_eq]

theorem Content.eq_of_key {o' : LiveObject} (h : o ∈ c.objects) (h' : o' ∈ c.objects)
    (hkey : o.key = o'.key) : o = o' :=
  List.inj_on_of_nodup_map c.distinct h h' hkey

theorem Content.mem_of_get {key : ResourceKey} (h : c.get key = some o) : o ∈ c.objects ∧ o.key = key := by
  refine ⟨List.mem_of_find?_eq_some h, ?_⟩
  simpa using List.find?_some h

theorem Content.get_of_mem (h : o ∈ c.objects) : c.get o.key = some o := by
  cases hget : c.get o.key with
  | none =>
    have := List.find?_eq_none.mp hget o h
    simp at this
  | some o' =>
    obtain ⟨hmem, hkey⟩ := Content.mem_of_get hget
    rw [Content.eq_of_key hmem h hkey]

end Paprika.Releases
