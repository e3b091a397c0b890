import Mathlib.Data.List.Dedup
import Paprika.Releases.Manifests

/-!
# Pruning

`pruneStaleResources` and `pruneSelectedResources` of `release_controller.go`: what a sync deletes once its documents
are applied.  An object stays if the key under which it is listed is the key of a document.  Both keys are strings
built from the whole `apiVersion`, and the documents are those of the Sync phase alone.

`prune_spares_rendered`: nothing is deleted that a rendered document names exactly if every object that is up for
deletion and named by a rendered document has a document of the Sync phase with the key it is looked up under.
-/

namespace Paprika.Releases

open Engine List Option

/-! ### The API server -/

inductive Scope
  | namespaced | cluster
  deriving DecidableEq, Repr

/-- What the API server serves, and the requests that it does not answer. -/
structure ApiServer where
  scope : GroupVersionResource → Option Scope
  listFails : GroupVersionResource → String → Bool
  getFails : ResourceKey → Bool

/-- A list request is answered; the empty namespace is that of a request for the whole cluster. -/
def ApiServer.lists (api : ApiServer) (gvr : GroupVersionResource) (namespace_ : String) : Bool :=
  !api.listFails gvr namespace_ &&
    match api.scope gvr with
    | none => false
    | some .cluster => namespace_ == ""
    | some .namespaced => true

def GroupVersionResource.holds (gvr : GroupVersionResource) (namespace_ : String) (o : LiveObject) : Bool :=
  o.key.group == gvr.group && o.key.resource == gvr.resource && (namespace_ == "" || o.key.namespace_ == namespace_)

/-- A list of the objects that carry the labels of an application. -/
def ApiServer.list (api : ApiServer) (c : Content) (gvr : GroupVersionResource) (namespace_ appName : String) :
    Option (List LiveObject) :=
  if api.lists gvr namespace_ then some (c.objects.filter (fun o => gvr.holds namespace_ o && o.managedBy appName))
  else none

/-- A request for one name goes to a namespace exactly if the resource has namespaces. -/
def ApiServer.addresses (api : ApiServer) (gvr : GroupVersionResource) (namespace_ : String) : Bool :=
  match api.scope gvr with
  | none => false
  | some .cluster => namespace_ == ""
  | some .namespaced => namespace_ != ""

def ApiServer.object (api : ApiServer) (c : Content) (gvr : GroupVersionResource) (namespace_ name : String) :
    Option LiveObject :=
  if api.addresses gvr namespace_ then c.get (gvr.key namespace_ name) else none

inductive DeleteOutcome
  | deleted | notFound | failed
  deriving DecidableEq, Repr

/-- How far a pass has come: what it has deleted, what is left, and whether it goes on. -/
structure Pruned where
  deleted : List LiveObject
  content : Content
  ok : Bool

/-! ### Stale resources -/

structure SyncOptions where
  prune : Bool
  pruneClusterScopedKinds : List String

/-- The key of a document in `pruneStaleResources`. -/
def Document.desiredKey (namespace_ : String) (d : Document) : String :=
  let ns := if d.metadataNamespace = "" ∧ !isClusterScopedKind d.kind then namespace_ else d.metadataNamespace
  d.apiVersion ++ "/" ++ d.kind ++ "/" ++ ns ++ "/" ++ d.name

def desiredKeys (namespace_ : String) (docs : List Document) : List String :=
  (parseManifests docs).map (Document.desiredKey namespace_)

/-- The key of a listed object, which has the `apiVersion` it is listed under. -/
def LiveObject.listedKey (gvr : GroupVersionResource) (o : LiveObject) : String :=
  gvr.apiVersion ++ "/" ++ o.kind ++ "/" ++ o.key.namespace_ ++ "/" ++ o.key.name

/-- The resources to look through: those of the documents and the managed ones. -/
def candidateGVRs (resolver : Option GVRResolver) (docs : List Document) : List GroupVersionResource :=
  (parseManifests docs).filterMap (fun d => gvrOf resolver d.apiVersion d.kind) ++ managedGVRs

def trimPlural (resource : String) : String :=
  if resource.endsWith "es" && 2 < resource.length then (resource.dropEnd 2).toString
  else if resource.endsWith "s" && 1 < resource.length then (resource.dropEnd 1).toString
  else resource

def gvrResourceKind (gvr : GroupVersionResource) : String :=
  if gvr.resource = "clusterroles" then "ClusterRole"
  else if gvr.resource = "clusterrolebindings" then "ClusterRoleBinding"
  else if gvr.resource = "customresourcedefinitions" then "CustomResourceDefinition"
  else if gvr.resource = "namespaces" then "Namespace"
  else (trimPlural gvr.resource).capitalize

def pruneClusterKinds (opts : Option SyncOptions) : List String :=
  match opts with
  | some o => if o.pruneClusterScopedKinds = [] then ["ClusterRole", "ClusterRoleBinding"] else o.pruneClusterScopedKinds
  | none => ["ClusterRole", "ClusterRoleBinding"]

/-- The list in the namespace, and where that fails the one of the whole cluster, for the kinds that may be pruned
there. -/
def staleList (api : ApiServer) (c : Content) (opts : Option SyncOptions) (namespace_ appName : String)
    (gvr : GroupVersionResource) : Option (List LiveObject) :=
  match api.list c gvr namespace_ appName with
  | some items => some items
  | none => if (pruneClusterKinds opts).contains (gvrResourceKind gvr) then api.list c gvr "" appName else none

/-- The guards of an object that no other object owns and that nobody has excluded from pruning. -/
def LiveObject.prunable (o : LiveObject) : Bool :=
  o.ownerReferences.isEmpty && entry o.annotations "paprika.io/prune" != "false"

def pruneItems (deletes : LiveObject → DeleteOutcome) (keys : List String) (gvr : GroupVersionResource) :
    List LiveObject → Content → Pruned
  | [], c => { deleted := [], content := c, ok := true }
  | o :: os, c =>
    if !o.prunable || keys.contains (o.listedKey gvr) then pruneItems deletes keys gvr os c
    else
      match deletes o with
      | .failed => { deleted := [], content := c, ok := false }
      | .notFound => pruneItems deletes keys gvr os c
      | .deleted =>
        let rest := pruneItems deletes keys gvr os (c.delete o.key)
        { rest with deleted := o :: rest.deleted }

/-- The loop over the resources, in the order that the map of them is ranged over. -/
def pruneGVRs (api : ApiServer) (deletes : LiveObject → DeleteOutcome) (opts : Option SyncOptions)
    (namespace_ appName : String) (keys : List String) : List GroupVersionResource → Content → Pruned
  | [], c => { deleted := [], content := c, ok := true }
  | gvr :: gvrs, c =>
    match staleList api c opts namespace_ appName gvr with
    | none => pruneGVRs api deletes opts namespace_ appName keys gvrs c
    | some items =>
      let first := pruneItems deletes keys gvr items c
      if first.ok then
        let rest := pruneGVRs api deletes opts namespace_ appName keys gvrs first.content
        { rest with deleted := first.deleted ++ rest.deleted }
      else first

def pruneStaleResources (api : ApiServer) (deletes : LiveObject → DeleteOutcome) (order : List GroupVersionResource)
    (docs : List Document) (namespace_ appName : String) (opts : Option SyncOptions) (c : Content) : Pruned :=
  if appName = "" then { deleted := [], content := c, ok := true }
  else pruneGVRs api deletes opts namespace_ appName (desiredKeys namespace_ docs) order c

/-! ### Selected resources -/

structure SyncResourceSelector where
  group : String
  version : String
  kind : String
  name : String
  namespace_ : String

def SyncResourceSelector.apiVersion (s : SyncResourceSelector) : String :=
  if s.group = "" then s.version else s.group ++ "/" ++ s.version

def SyncResourceSelector.targetNamespace (namespace_ : String) (s : SyncResourceSelector) : String :=
  if s.namespace_ = "" then namespace_ else s.namespace_

def SyncResourceSelector.key (namespace_ : String) (s : SyncResourceSelector) : String :=
  s.apiVersion ++ "/" ++ s.kind ++ "/" ++ s.targetNamespace namespace_ ++ "/" ++ s.name

/-- The key of a document in `pruneSelectedResources`. -/
def Document.selectableKey (namespace_ : String) (d : Document) : String :=
  d.apiVersion ++ "/" ++ d.kind ++ "/" ++ (if d.metadataNamespace = "" then namespace_ else d.metadataNamespace) ++
    "/" ++ d.name

def selectableKeys (namespace_ : String) (docs : List Document) : List String :=
  (parseManifests docs).map (Document.selectableKey namespace_)

/-- What `deleteSelectedResource` does about a selector: it stops the pass, finds nothing to delete, or asks for the
deletion of an object. -/
inductive Selected
  | refused
  | absent
  | delete (o : LiveObject)

/-- Where `getLiveObject` looks. -/
def SyncResourceSelector.lookupNamespace (namespace_ : String) (s : SyncResourceSelector) : String :=
  if isClusterScopedKind s.kind then "" else s.targetNamespace namespace_

/-- The resource of a selector; `none` where `getLiveObject` fails. -/
def SyncResourceSelector.gvr (resolver : Option GVRResolver) (api : ApiServer) (namespace_ : String)
    (s : SyncResourceSelector) : Option GroupVersionResource :=
  (gvrOf resolver s.apiVersion s.kind).filter (fun gvr =>
    s.name != "" && !api.getFails (gvr.key (s.lookupNamespace namespace_) s.name))

/-- `getLiveObject`, the check of the labels and the object that is then deleted. -/
def deleteSelectedResource (resolver : Option GVRResolver) (api : ApiServer) (namespace_ appName : String)
    (c : Content) (s : SyncResourceSelector) : Selected :=
  match s.gvr resolver api namespace_ with
  | none => .refused
  | some gvr =>
    match api.object c gvr (s.lookupNamespace namespace_) s.name with
    | none => .absent
    | some live =>
      if live.managedBy appName then
        match api.object c gvr (s.targetNamespace namespace_) s.name with
        | none => .absent
        | some o => .delete o
      else .refused

def pruneSelectedResources (resolver : Option GVRResolver) (api : ApiServer) (deletes : LiveObject → DeleteOutcome)
    (keys : List String) (namespace_ appName : String) : List SyncResourceSelector → Content → Pruned
  | [], c => { deleted := [], content := c, ok := true }
  | s :: ss, c =>
    if keys.contains (s.key namespace_) then pruneSelectedResources resolver api deletes keys namespace_ appName ss c
    else
      match deleteSelectedResource resolver api namespace_ appName c s with
      | .refused => { deleted := [], content := c, ok := false }
      | .absent => pruneSelectedResources resolver api deletes keys namespace_ appName ss c
      | .delete o =>
        match deletes o with
        | .failed => { deleted := [], content := c, ok := false }
        | .notFound => pruneSelectedResources resolver api deletes keys namespace_ appName ss c
        | .deleted =>
          let rest := pruneSelectedResources resolver api deletes keys namespace_ appName ss (c.delete o.key)
          { rest with deleted := o :: rest.deleted }

/-! ### The prune of one sync -/

structure SyncResources where
  resources : List SyncResourceSelector
  prune : Bool

/-- The inputs of `applyManifestsWithCredentialNamespace` that decide what is pruned.  `hookPath`: the rendered bytes
mention the hook annotation. -/
structure ManifestApply where
  namespace_ : String
  appName : String
  rendered : List Document
  hookPath : Bool
  syncOptions : Option SyncOptions
  selection : Option SyncResources
  pruneAllowed : Bool

/-- The documents that are applied and that prune is told of. -/
def ManifestApply.docs (a : ManifestApply) : List Document := if a.hookPath then syncDocs a.rendered else a.rendered

def ManifestApply.selected (a : ManifestApply) : Option SyncResources :=
  a.selection.filter (fun sel => !sel.resources.isEmpty)

def ManifestApply.pruned (resolver : Option GVRResolver) (api : ApiServer) (deletes : LiveObject → DeleteOutcome)
    (order : List GroupVersionResource) (a : ManifestApply) (c : Content) : List LiveObject :=
  match a.selected with
  | some sel =>
    if sel.prune then
      (pruneSelectedResources resolver api deletes (selectableKeys a.namespace_ a.docs) a.namespace_ a.appName
        sel.resources c).deleted
    else []
  | none =>
    if a.syncOptions.any (·.prune) && a.pruneAllowed then
      (pruneStaleResources api deletes order a.docs a.namespace_ a.appName a.syncOptions c).deleted
    else []

def ManifestApply.names (a : ManifestApply) (o : LiveObject) : Prop :=
  ∃ d ∈ parseManifests a.rendered, d.identity a.namespace_ = o.identity

instance (a : ManifestApply) (o : LiveObject) : Decidable (a.names o) := inferInstanceAs (Decidable (∃ _ ∈ _, _))

/-- What may be deleted: objects of the application that no rendered document names. -/
def ManifestApply.mayPrune (a : ManifestApply) (o : LiveObject) : Prop := o.managedBy a.appName = true ∧ ¬a.names o

instance (a : ManifestApply) (o : LiveObject) : Decidable (a.mayPrune o) := inferInstanceAs (Decidable (_ ∧ _))

/-! ### What the loop over stale resources deletes -/

/-- Which of the two lists of a resource `pruneStaleResources` gets: that of a namespace or that of the cluster. -/
def staleNamespace (api : ApiServer) (opts : Option SyncOptions) (namespace_ : String) (gvr : GroupVersionResource) :
    Option String :=
  if api.lists gvr namespace_ then some namespace_
  else if (pruneClusterKinds opts).contains (gvrResourceKind gvr) && api.lists gvr "" then some ""
  else none

theorem staleList_eq (api : ApiServer) (c : Content) (opts : Option SyncOptions) (namespace_ appName : String)
    (gvr : GroupVersionResource) :
    staleList api c opts namespace_ appName gvr = (staleNamespace api opts namespace_ gvr).map (fun ns =>
      c.objects.filter (fun o => gvr.holds ns o && o.managedBy appName)) := by
  simp only [staleList, staleNamespace, ApiServer.list]
  by_cases hns : api.lists gvr namespace_ = true
  · rw [if_pos hns, if_pos hns]
    rfl
  rw [if_neg hns, if_neg hns]
  by_cases hkind : (pruneClusterKinds opts).contains (gvrResourceKind gvr) = true
  · rw [hkind, Bool.true_and]
    by_cases hall : api.lists gvr "" = true
    · rw [if_pos hall, if_pos hall]
      rfl
    · rw [if_neg hall, if_neg hall]
      rfl
  · rw [Bool.not_eq_true] at hkind
    rw [hkind, Bool.false_and]
    rfl

section
variable {api : ApiServer} {c : Content} {opts : Option SyncOptions} {namespace_ appName : String}
  {gvr : GroupVersionResource} {items : List LiveObject} {o : LiveObject}

theorem mem_staleList_of_subset {c' : Content}
    
    (hlist : staleList api c opts namespace_ appName gvr = some items) (ho : o ∈ items) (hmem : o ∈ c'.objects) :
    ∃ items', staleList api c' opts namespace_ appName gvr = some items' ∧ o ∈ items' := by
  rw [staleList_eq] at hlist
  obtain ⟨ns, hns, rfl⟩ := map_eq_some_iff.mp hlist
  have hnow : staleList api c' opts namespace_ appName gvr =
      some (c'.objects.filter (fun o => gvr.holds ns o && o.managedBy appName)) := by
    rw [staleList_eq, hns]
    rfl
  exact ⟨_, hnow, mem_filter.mpr ⟨hmem, (mem_filter.mp ho).2⟩⟩

theorem of_mem_staleList
    
    (hlist : staleList api c opts namespace_ appName gvr = some items) (ho : o ∈ items) :
    o ∈ c.objects ∧ o.managedBy appName = true := by
  rw [staleList_eq] at hlist
  obtain ⟨ns, -, rfl⟩ := map_eq_some_iff.mp hlist
  have hmem := mem_filter.mp ho
  rw [Bool.and_eq_true] at hmem
  exact ⟨hmem.1, hmem.2.2⟩
end

section
variable {api : ApiServer} {deletes : LiveObject → DeleteOutcome} {keys : List String} {gvr : GroupVersionResource}
  {opts : Option SyncOptions} {namespace_ appName : String}

/-- An item that the loop asks to delete. -/
def LiveObject.stale (keys : List String) (gvr : GroupVersionResource) (o : LiveObject) : Prop :=
  o.prunable = true ∧ o.listedKey gvr ∉ keys

theorem stale_of_kept_false {o : LiveObject} (h : ¬(!o.prunable || keys.contains (o.listedKey gvr)) = true) :
    o.stale keys gvr := by
  simpa [LiveObject.stale] using h

theorem pruneItems_spec (deletes : LiveObject → DeleteOutcome) (keys : List String) (gvr : GroupVersionResource)
    (os : List LiveObject) : ∀ c : Content,
    (∀ o ∈ (pruneItems deletes keys gvr os c).deleted, o ∈ os ∧ o.stale keys gvr) ∧
      (pruneItems deletes keys gvr os c).content.objects ⊆ c.objects := by
  induction os with
  | nil =>
    intro c
    exact ⟨fun o ho => absurd ho not_mem_nil, fun o ho => ho⟩
  | cons o os ih =>
    intro c
    have later : ∀ c' : Content, ∀ x ∈ (pruneItems deletes keys gvr os c').deleted, x ∈ o :: os ∧ x.stale keys gvr := by
      intro c' x hx
      obtain ⟨hmem, hstale⟩ := (ih c').1 x hx
      exact ⟨mem_cons_of_mem o hmem, hstale⟩
    rw [pruneItems]
    split
    · exact ⟨later c, (ih c).2⟩
    · rename_i hkept
      cases deletes o with
      | failed => exact ⟨fun x hx => absurd hx not_mem_nil, fun x hx => hx⟩
      | notFound => exact ⟨later c, (ih c).2⟩
      | deleted =>
      constructor
      · intro x hx
        rcases mem_cons.mp hx with rfl | hx
        · exact ⟨mem_cons_self, stale_of_kept_false hkept⟩
        · exact later _ x hx
      · intro x hx
        exact (Content.mem_delete.mp ((ih (c.delete o.key)).2 hx)).1

theorem pruneGVRs_spec (gvrs : List GroupVersionResource) : ∀ c : Content,
    ∀ o ∈ (pruneGVRs api deletes opts namespace_ appName keys gvrs c).deleted,
      ∃ gvr ∈ gvrs, ∃ items, staleList api c opts namespace_ appName gvr = some items ∧ o ∈ items ∧
        o.stale keys gvr := by
  induction gvrs with
  | nil =>
    intro c o ho
    exact absurd ho not_mem_nil
  | cons gvr gvrs ih =>
    intro c o ho
    rw [pruneGVRs] at ho
    split at ho
    · obtain ⟨g, hg, found⟩ := ih c o ho
      exact ⟨g, mem_cons_of_mem gvr hg, found⟩
    · rename_i items hitems
      have hfirst := pruneItems_spec deletes keys gvr items c
      have here : o ∈ (pruneItems deletes keys gvr items c).deleted →
          ∃ g ∈ gvr :: gvrs, ∃ items, staleList api c opts namespace_ appName g = some items ∧ o ∈ items ∧
            o.stale keys g := by
        intro h
        obtain ⟨hmem, hstale⟩ := hfirst.1 o h
        exact ⟨gvr, mem_cons_self, items, hitems, hmem, hstale⟩
      dsimp only at ho
      split at ho
      · rcases mem_append.mp ho with h | h
        · exact here h
        · -- what a later list shows, this one shows too: nothing is added in between
          obtain ⟨g, hg, items', hitems', hmem, hstale⟩ := ih _ o h
          have hc := hfirst.2 (of_mem_staleList hitems' hmem).1
          obtain ⟨all, hall, hin⟩ := mem_staleList_of_subset hitems' hmem hc
          exact ⟨g, mem_cons_of_mem gvr hg, all, hall, hin, hstale⟩
      · exact here ho

/-! ### A pass in which every request to delete succeeds -/

def deletesAll : LiveObject → DeleteOutcome := fun _ => .deleted

theorem pruneItems_deletesAll (keys : List String) (gvr : GroupVersionResource) {c₀ : Content} (os : List LiveObject) : ∀ c : Content, os ⊆ c₀.objects →
    c.objects ⊆ c₀.objects →
    (pruneItems deletesAll keys gvr os c).ok = true ∧
      (∀ o ∈ os, o.stale keys gvr → o ∈ (pruneItems deletesAll keys gvr os c).deleted) ∧
        ∀ x ∈ c.objects, x ∈ (pruneItems deletesAll keys gvr os c).deleted ∨
          x ∈ (pruneItems deletesAll keys gvr os c).content.objects := by
  induction os with
  | nil =>
    intro c _ _
    exact ⟨rfl, fun o ho => absurd ho not_mem_nil, fun x hx => .inr hx⟩
  | cons o os ih =>
    intro c hos hc
    have hrest : os ⊆ c₀.objects := fun x hx => hos (mem_cons_of_mem o hx)
    rw [pruneItems]
    split
    · rename_i hkept
      obtain ⟨hok, hall, hcont⟩ := ih c hrest hc
      refine ⟨hok, ?_, hcont⟩
      intro x hx hstale
      rcases mem_cons.mp hx with rfl | hx
      · simp [hstale.1, hstale.2] at hkept
      · exact hall x hx hstale
    · have hless : (c.delete o.key).objects ⊆ c₀.objects := fun x hx => hc (Content.mem_delete.mp hx).1
      obtain ⟨hok, hall, hcont⟩ := ih (c.delete o.key) hrest hless
      refine ⟨hok, ?_, ?_⟩
      · intro x hx hstale
        show x ∈ o :: _
        rcases mem_cons.mp hx with rfl | hx
        · exact mem_cons_self
        · exact mem_cons_of_mem o (hall x hx hstale)
      intro x hx
      show x ∈ o :: _ ∨ _
      by_cases hkey : x.key = o.key
      · have : x = o := Content.eq_of_key (hc hx) (hos mem_cons_self) hkey
        exact .inl (this ▸ mem_cons_self)
      · rcases hcont x (Content.mem_delete.mpr ⟨hx, hkey⟩) with h | h
        · exact .inl (mem_cons_of_mem o h)
        · exact .inr h

theorem pruneGVRs_deletesAll {c₀ : Content} {items₀ : List LiveObject} {o : LiveObject}
    (hitems : staleList api c₀ opts namespace_ appName gvr = some items₀) (ho : o ∈ items₀) (hstale : o.stale keys gvr)
    (gvrs : List GroupVersionResource) : ∀ c : Content, c.objects ⊆ c₀.objects → o ∈ c.objects → gvr ∈ gvrs →
    o ∈ (pruneGVRs api deletesAll opts namespace_ appName keys gvrs c).deleted := by
  induction gvrs with
  | nil =>
    intro c _ _ hgvr
    exact absurd hgvr not_mem_nil
  | cons g gvrs ih =>
    intro c hc hoc hgvr
    obtain ⟨now, hnow, hin⟩ := mem_staleList_of_subset hitems ho hoc
    rw [pruneGVRs]
    split
    · rename_i hnone
      have hne : gvr ≠ g := by
        rintro rfl
        rw [hnow] at hnone
        cases hnone
      exact ih c hc hoc ((mem_cons.mp hgvr).resolve_left hne)
    · rename_i items hlist
      have hsub : items ⊆ c₀.objects := fun x hx => hc (of_mem_staleList hlist hx).1
      obtain ⟨hok, hall, hcont⟩ := pruneItems_deletesAll keys g items c hsub hc
      rw [if_pos hok]
      show o ∈ _ ++ _
      rcases hcont o hoc with h | h
      · exact mem_append_left _ h
      rcases mem_cons.mp hgvr with rfl | hlater
      · rw [hnow] at hlist
        cases hlist
        exact mem_append_left _ (hall o hin hstale)
      · apply mem_append_right
        apply ih _ _ h hlater
        intro x hx
        exact hc ((pruneItems_spec _ _ _ items c).2 hx)
end

/-! ### What the loop over selectors deletes -/

section
variable {resolver : Option GVRResolver} {api : ApiServer} {deletes : LiveObject → DeleteOutcome} {keys : List String}
  {namespace_ appName : String}

/-- What is left of a cluster after some of an application's objects were deleted. -/
structure Remains (appName : String) (c₀ c : Content) : Prop where
  subset : c.objects ⊆ c₀.objects
  others : ∀ o ∈ c₀.objects, o.managedBy appName = false → o ∈ c.objects

theorem Remains.refl (appName : String) (c : Content) : Remains appName c c :=
  { subset := fun _ h => h, others := fun _ h _ => h }

theorem Remains.delete {c₀ c : Content} {o : LiveObject} (h : Remains appName c₀ c) (ho : o ∈ c.objects)
    (hmanaged : o.managedBy appName = true) : Remains appName c₀ (c.delete o.key) where
  subset := fun x hx => h.subset (Content.mem_delete.mp hx).1
  others := by
    intro x hx hother
    apply Content.mem_delete.mpr
    refine ⟨h.others x hx hother, ?_⟩
    intro hkey
    obtain rfl := Content.eq_of_key hx (h.subset ho) hkey
    rw [hmanaged] at hother
    cases hother

variable {name ns : String}

section
variable {c : Content} {gvr : GroupVersionResource} {o : LiveObject}

theorem ApiServer.object_eq_some :
    api.object c gvr ns name = some o ↔ api.addresses gvr ns = true ∧ c.get (gvr.key ns name) = some o := by
  rw [ApiServer.object]
  split
  · rename_i h
    exact ⟨fun hget => ⟨h, hget⟩, fun hget => hget.2⟩
  · rename_i h
    exact ⟨nofun, fun hget => absurd hget.1 h⟩

theorem ApiServer.object_of_mem {c' : Content}
    (h : api.object c gvr ns name = some o) (ho : o ∈ c'.objects) : api.object c' gvr ns name = some o := by
  obtain ⟨haddress, hget⟩ := ApiServer.object_eq_some.mp h
  apply ApiServer.object_eq_some.mpr
  refine ⟨haddress, ?_⟩
  rw [← (Content.mem_of_get hget).2]
  exact Content.get_of_mem ho

theorem ApiServer.mem_of_object (h : api.object c gvr ns name = some o) : o ∈ c.objects :=
  (Content.mem_of_get (ApiServer.object_eq_some.mp h).2).1
end

theorem ApiServer.addresses_inj {gvr : GroupVersionResource} (h : api.addresses gvr "" = true)
    (h' : api.addresses gvr ns = true) : ns = "" := by
  simp only [ApiServer.addresses] at h h'
  cases hscope : api.scope gvr with
  | none => simp [hscope] at h
  | some scope =>
    cases scope with
    | cluster => simpa [hscope] using h'
    | namespaced => simp [hscope] at h

section
variable {c : Content} {s : SyncResourceSelector}

/-- The object that the second lookup finds is the one whose labels were checked. -/
theorem ApiServer.object_target {gvr : GroupVersionResource}
    {live o : LiveObject} (hlive : api.object c gvr (s.lookupNamespace namespace_) s.name = some live)
    (ho : api.object c gvr (s.targetNamespace namespace_) s.name = some o) : live = o := by
  rw [SyncResourceSelector.lookupNamespace] at hlive
  split at hlive
  · have hns := ApiServer.addresses_inj (ApiServer.object_eq_some.mp hlive).1 (ApiServer.object_eq_some.mp ho).1
    rw [hns, hlive] at ho
    exact some.inj ho
  · rw [hlive] at ho
    exact some.inj ho

theorem deleteSelectedResource_eq_delete {o : LiveObject} :
    deleteSelectedResource resolver api namespace_ appName c s = .delete o ↔
      ∃ gvr, s.gvr resolver api namespace_ = some gvr ∧
        api.object c gvr (s.lookupNamespace namespace_) s.name = some o ∧
        api.object c gvr (s.targetNamespace namespace_) s.name = some o ∧ o.managedBy appName = true := by
  rw [deleteSelectedResource]
  constructor
  · intro h
    split at h
    · cases h
    · rename_i gvr hgvr
      split at h
      · cases h
      · rename_i live hlive
        split at h
        · rename_i hmanaged
          split at h
          · cases h
          · rename_i o' ho'
            cases h
            obtain rfl := ApiServer.object_target hlive ho'
            exact ⟨gvr, hgvr, hlive, ho', hmanaged⟩
        · cases h
  · intro h
    obtain ⟨gvr, hgvr, hlive, ho, hmanaged⟩ := h
    simp [hgvr, hlive, ho, hmanaged]

theorem deleteSelectedResource_eq_refused : deleteSelectedResource resolver api namespace_ appName c s = .refused ↔
      s.gvr resolver api namespace_ = none ∨ ∃ gvr live, s.gvr resolver api namespace_ = some gvr ∧
        api.object c gvr (s.lookupNamespace namespace_) s.name = some live ∧ live.managedBy appName = false := by
  rw [deleteSelectedResource]
  constructor
  · intro h
    split at h
    · rename_i hnone
      exact .inl hnone
    · rename_i gvr hgvr
      split at h
      · cases h
      · rename_i live hlive
        split at h
        · split at h <;> cases h
        · rename_i hother
          exact .inr ⟨gvr, live, hgvr, hlive, by simpa using hother⟩
  · intro h
    rcases h with hnone | ⟨gvr, live, hgvr, hlive, hother⟩
    · simp [hnone]
    · simp [hgvr, hlive, hother]
end

section
variable {c₀ c : Content} {s : SyncResourceSelector} {o : LiveObject}

/-! Deletions of the application's objects leave the answers about everything else as they were. -/

theorem Remains.refused_iff (h : Remains appName c₀ c) :
    deleteSelectedResource resolver api namespace_ appName c s = .refused ↔
      deleteSelectedResource resolver api namespace_ appName c₀ s = .refused := by
  rw [deleteSelectedResource_eq_refused, deleteSelectedResource_eq_refused]
  apply or_congr_right
  constructor
  · intro hlive
    obtain ⟨gvr, live, hgvr, hlive, hother⟩ := hlive
    exact ⟨gvr, live, hgvr, ApiServer.object_of_mem hlive (h.subset (ApiServer.mem_of_object hlive)), hother⟩
  · intro hlive
    obtain ⟨gvr, live, hgvr, hlive, hother⟩ := hlive
    exact ⟨gvr, live, hgvr, ApiServer.object_of_mem hlive (h.others live (ApiServer.mem_of_object hlive) hother), hother⟩

theorem delete_of_mem (h : deleteSelectedResource resolver api namespace_ appName c₀ s = .delete o)
    (ho : o ∈ c.objects) : deleteSelectedResource resolver api namespace_ appName c s = .delete o := by
  obtain ⟨gvr, hgvr, hlive, htarget, hmanaged⟩ := deleteSelectedResource_eq_delete.mp h
  apply deleteSelectedResource_eq_delete.mpr
  exact ⟨gvr, hgvr, ApiServer.object_of_mem hlive ho, ApiServer.object_of_mem htarget ho, hmanaged⟩

theorem of_delete (h : deleteSelectedResource resolver api namespace_ appName c s = .delete o) :
    o ∈ c.objects ∧ o.managedBy appName = true := by
  obtain ⟨gvr, -, hlive, -, hmanaged⟩ := deleteSelectedResource_eq_delete.mp h
  exact ⟨ApiServer.mem_of_object hlive, hmanaged⟩
end

/-- A selector at which the pass ends with an error. -/
def SyncResourceSelector.Stops (resolver : Option GVRResolver) (api : ApiServer) (keys : List String)
    (namespace_ appName : String) (c : Content) (s : SyncResourceSelector) : Prop :=
  s.key namespace_ ∉ keys ∧ deleteSelectedResource resolver api namespace_ appName c s = .refused

/-- A selector that the pass comes to, and the object that it names. -/
structure Finds (resolver : Option GVRResolver) (api : ApiServer) (keys : List String) (namespace_ appName : String)
    (c : Content) (ss : List SyncResourceSelector) (s : SyncResourceSelector) (o : LiveObject) : Prop where
  reached : ∃ before after, ss = before ++ s :: after ∧ ∀ s' ∈ before, ¬s'.Stops resolver api keys namespace_ appName c
  found : deleteSelectedResource resolver api namespace_ appName c s = .delete o

theorem Finds.cons {c : Content} {ss : List SyncResourceSelector} {s s' : SyncResourceSelector} {o : LiveObject}
    (h : Finds resolver api keys namespace_ appName c ss s o)
    (hgo : ¬s'.Stops resolver api keys namespace_ appName c) :
    Finds resolver api keys namespace_ appName c (s' :: ss) s o := by
  obtain ⟨before, after, rfl, hpre⟩ := h.reached
  exact
    { reached := ⟨s' :: before, after, rfl, forall_mem_cons.mpr ⟨hgo, hpre⟩⟩
      found := h.found }

theorem pruneSelectedResources_spec {c₀ : Content} (ss : List SyncResourceSelector) : ∀ c : Content,
    Remains appName c₀ c →
    ∀ o ∈ (pruneSelectedResources resolver api deletes keys namespace_ appName ss c).deleted,
      ∃ s, s.key namespace_ ∉ keys ∧ Finds resolver api keys namespace_ appName c₀ ss s o := by
  induction ss with
  | nil =>
    intro c _ o ho
    exact absurd ho not_mem_nil
  | cons s ss ih =>
    intro c hc o ho
    have later : ∀ c' : Content, Remains appName c₀ c' → ¬s.Stops resolver api keys namespace_ appName c₀ →
        o ∈ (pruneSelectedResources resolver api deletes keys namespace_ appName ss c').deleted →
        ∃ s', s'.key namespace_ ∉ keys ∧ Finds resolver api keys namespace_ appName c₀ (s :: ss) s' o := by
      intro c' hc' hgo h
      obtain ⟨s', hnot, hfinds⟩ := ih c' hc' o h
      exact ⟨s', hnot, hfinds.cons hgo⟩
    rw [pruneSelectedResources] at ho
    split at ho
    · rename_i hkey
      exact later c hc (fun h => h.1 (contains_iff_mem.mp hkey)) ho
    · rename_i hkey
      have hnot : s.key namespace_ ∉ keys := fun h => hkey (contains_iff_mem.mpr h)
      split at ho
      · exact absurd ho not_mem_nil
      · rename_i habsent
        have hgo : ¬s.Stops resolver api keys namespace_ appName c₀ := by
          intro h
          rw [hc.refused_iff.mpr h.2] at habsent
          cases habsent
        exact later c hc hgo ho
      · rename_i o' ho'
        obtain ⟨hmem, hmanaged⟩ := of_delete ho'
        have hfirst := delete_of_mem ho' (hc.subset hmem)
        have hgo : ¬s.Stops resolver api keys namespace_ appName c₀ := by
          intro h
          rw [h.2] at hfirst
          cases hfirst
        split at ho
        · exact absurd ho not_mem_nil
        · exact later c hc hgo ho
        · rcases mem_cons.mp ho with rfl | ho
          · exact ⟨s, hnot, { reached := ⟨[], ss, rfl, nofun⟩, found := hfirst }⟩
          · exact later _ (hc.delete hmem hmanaged) hgo ho

theorem pruneSelectedResources_deletesAll {c₀ : Content} {s : SyncResourceSelector} {o : LiveObject}
    (hnot : s.key namespace_ ∉ keys) (ss : List SyncResourceSelector) : ∀ c : Content, Remains appName c₀ c →
    Finds resolver api keys namespace_ appName c₀ ss s o → o ∈ c.objects →
      o ∈ (pruneSelectedResources resolver api deletesAll keys namespace_ appName ss c).deleted := by
  induction ss with
  | nil =>
    intro c _ h _
    obtain ⟨before, after, hsplit, -⟩ := h.reached
    simp at hsplit
  | cons s' ss ih =>
    intro c hc h ho
    obtain ⟨before, after, hsplit, hpre⟩ := h.reached
    rw [pruneSelectedResources]
    cases before with
    | nil =>
      obtain ⟨rfl, rfl⟩ := List.cons.inj hsplit
      rw [if_neg (fun hkey => hnot (contains_iff_mem.mp hkey)), delete_of_mem h.found ho]
      exact mem_cons_self
    | cons b before =>
    obtain ⟨rfl, rfl⟩ := List.cons.inj hsplit
    obtain ⟨hgo, hothers⟩ := forall_mem_cons.mp hpre
    have hrest : Finds resolver api keys namespace_ appName c₀ (before ++ s :: after) s o :=
      { reached := ⟨before, after, rfl, hothers⟩, found := h.found }
    split
    · exact ih c hc hrest ho
    · rename_i hkey
      split
      · rename_i hrefused
        refine absurd ⟨fun hmem => hkey (contains_iff_mem.mpr hmem), hc.refused_iff.mp hrefused⟩ hgo
      · exact ih c hc hrest ho
      · rename_i o' ho'
        obtain ⟨hmem, hmanaged⟩ := of_delete ho'
        show o ∈ o' :: _
        by_cases hkeys : o.key = o'.key
        · rw [Content.eq_of_key ho hmem hkeys]
          exact mem_cons_self
        · apply mem_cons_of_mem
          exact ih _ (hc.delete hmem hmanaged) hrest (Content.mem_delete.mpr ⟨ho, hkeys⟩)
end

/-! ### What a sync may delete -/

section
variable (resolver : Option GVRResolver) (api : ApiServer) (a : ManifestApply) (c : Content)

/-- Whatever becomes of the requests, and in whatever order the resources are looked through, only what may be pruned
is deleted. -/
def ManifestApply.SparesRendered : Prop :=
  ∀ deletes order, order.Nodup → (∀ gvr, gvr ∈ order ↔ gvr ∈ candidateGVRs resolver a.docs) →
    ∀ o ∈ a.pruned resolver api deletes order c, a.mayPrune o

/-- Every object that is up for deletion and named by a rendered document is looked up under the key of a document of
the Sync phase. -/
def ManifestApply.RenderedAreDesired : Prop :=
  match a.selected with
  | some sel => sel.prune = true →
      ∀ s o, Finds resolver api (selectableKeys a.namespace_ a.docs) a.namespace_ a.appName c sel.resources s o →
        a.names o → s.key a.namespace_ ∈ selectableKeys a.namespace_ a.docs
  | none => (a.syncOptions.any (·.prune) && a.pruneAllowed) = true → a.appName ≠ "" →
      ∀ gvr ∈ candidateGVRs resolver a.docs, ∀ items,
        staleList api c a.syncOptions a.namespace_ a.appName gvr = some items →
          ∀ o ∈ items, o.prunable = true → a.names o → o.listedKey gvr ∈ desiredKeys a.namespace_ a.docs

variable {resolver api a c}

theorem ManifestApply.RenderedAreDesired.spares (h : a.RenderedAreDesired resolver api c) :
    a.SparesRendered resolver api c := by
  intro deletes order _ horder o ho
  rw [ManifestApply.RenderedAreDesired] at h
  rw [ManifestApply.pruned] at ho
  cases hsel : a.selected with
  | some sel =>
    rw [hsel] at h ho
    dsimp only at h ho
    by_cases hprune : sel.prune = true
    · rw [if_pos hprune] at ho
      obtain ⟨s, hnot, hfinds⟩ := pruneSelectedResources_spec sel.resources c (Remains.refl a.appName c) o ho
      exact ⟨(of_delete hfinds.found).2, fun hnames => hnot (h hprune s o hfinds hnames)⟩
    · rw [if_neg hprune] at ho
      exact absurd ho not_mem_nil
  | none =>
  rw [hsel] at h ho
  dsimp only at h ho
  by_cases hprune : (a.syncOptions.any (·.prune) && a.pruneAllowed) = true
  · rw [if_pos hprune, pruneStaleResources] at ho
    by_cases happ : a.appName = ""
    · rw [if_pos happ] at ho
      exact absurd ho not_mem_nil
    · rw [if_neg happ] at ho
      obtain ⟨gvr, hgvr, items, hitems, hmem, hstale⟩ := pruneGVRs_spec order c o ho
      refine ⟨(of_mem_staleList hitems hmem).2, fun hnames => hstale.2 ?_⟩
      exact h hprune happ gvr ((horder gvr).mp hgvr) items hitems o hmem hstale.1 hnames
  · rw [if_neg hprune] at ho
    exact absurd ho not_mem_nil

theorem ManifestApply.SparesRendered.desired (h : a.SparesRendered resolver api c) :
    a.RenderedAreDesired resolver api c := by
  have hall := h deletesAll _ (nodup_dedup (candidateGVRs resolver a.docs)) (fun gvr => mem_dedup)
  rw [ManifestApply.RenderedAreDesired]
  simp only [ManifestApply.pruned] at hall
  cases hsel : a.selected with
  | some sel =>
    intro hprune s o hfinds hnames
    rw [hsel] at hall
    dsimp only at hall
    rw [if_pos hprune] at hall
    by_contra hnot
    have hdel := pruneSelectedResources_deletesAll hnot sel.resources c (Remains.refl a.appName c) hfinds
      (of_delete hfinds.found).1
    exact (hall o hdel).2 hnames
  | none =>
  intro hprune happ gvr hgvr items hitems o hmem hprunable hnames
  rw [hsel] at hall
  dsimp only at hall
  rw [if_pos hprune, pruneStaleResources, if_neg happ] at hall
  by_contra hnot
  have hdel := pruneGVRs_deletesAll hitems hmem ⟨hprunable, hnot⟩ _ c (fun x hx => hx)
    (of_mem_staleList hitems hmem).1 (mem_dedup.mpr hgvr)
  exact (hall o hdel).2 hnames
end

/-- **A sync prunes nothing that it rendered** exactly if every object that it may delete and that a rendered document
names has a document of the Sync phase with the key that the object is looked up under. -/
theorem prune_spares_rendered (resolver : Option GVRResolver) (api : ApiServer) (a : ManifestApply) (c : Content) :
    a.SparesRendered resolver api c ↔ a.RenderedAreDesired resolver api c :=
  ⟨fun h => h.desired, fun h => h.spares⟩

/-! ### A route of an older version -/

def routeLabels : List (String × String) := [(managedByLabelKey, managedByLabelValue), (applicationNameLabelKey, "web")]

/-- The route is rendered as `v1beta1`. -/
def routeApply : ManifestApply where
  namespace_ := "default"
  appName := "web"
  rendered :=
    [{ apiVersion := "gateway.networking.k8s.io/v1beta1", kind := "HTTPRoute", metadataNamespace := "", name := "front",
       annotations := [] }]
  hookPath := false
  syncOptions := some { prune := true, pruneClusterScopedKinds := [] }
  selection := none
  pruneAllowed := true

def routeObject : LiveObject where
  key := { group := "gateway.networking.k8s.io", resource := "httproutes", namespace_ := "default", name := "front" }
  kind := "HTTPRoute"
  labels := routeLabels
  annotations := []
  ownerReferences := []

def routeContent : Content where
  objects := [routeObject]
  distinct := List.nodup_singleton _

def namespacedServer : ApiServer where
  scope := fun _ => some .namespaced
  listFails := fun _ _ => false
  getFails := fun _ => false

/-- The managed resources list the route as `v1`, whose key is that of no document: the route is deleted by the sync
that applied it. -/
theorem rendered_route_pruned : ¬routeApply.SparesRendered none namespacedServer routeContent := by
  intro h
  have hall := h deletesAll _ (nodup_dedup _) (fun gvr => mem_dedup)
  revert hall
  decide +kernel

end Paprika.Releases
