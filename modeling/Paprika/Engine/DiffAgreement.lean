import Paprika.Engine.ManagedLabels
import Paprika.Engine.DiffSoundness

/-!
# Engine: the two diffs agree

Where no read fails, the scalable engine says of the desired objects what the engine that reads everything says, if that
one is restricted to the desired resource types.  It holds for objects that both of them can see: `Confined` has what
that takes.

* `mem_liveItems_iff`, `mem_listedItems_iff` — both read the same objects (`InView`);
* `agree_compareMaps` — and compare them to the same end;
* **`diff_truthful_and_agrees`**.
-/

namespace Paprika.Engine

open Lib.KeyedMap Lib.Unstructured List ScalableDiffEngine

/-! ### Comparisons that agree -/

/-- Two results that say the same; entries of live objects may come in another order. -/
structure Agree (r r' : DiffResult) : Prop where
  added : r.added = r'.added
  modified : r.modified = r'.modified
  unchanged : r.unchanged = r'.unchanged
  deleted : r.deleted.Perm r'.deleted
  live : r.live.Perm r'.live
  summary : r.summary = r'.summary

section
variable {applicationName : String} {rules : List IgnoreDiff} {payloadContains : PayloadContains}
  {m live live' : ObjectMap}

theorem kind_labelled (hrules : LeavesLabels rules) (o : Object) :
    getKind (applyIgnore rules (ensureManagedLabels applicationName o)) = getKind (applyIgnore rules o) :=
  getKind_congr ((twin_ensureManagedLabels applicationName o).applyIgnore hrules).payload

theorem resourceDiff_labelled (hrules : LeavesLabels rules) (o : Object) (action : String) :
    resourceDiff (applyIgnore rules (ensureManagedLabels applicationName o)) action =
      resourceDiff (applyIgnore rules o) action := by
  have htwin := (twin_ensureManagedLabels applicationName o).applyIgnore hrules
  simp only [resourceDiff, kind_labelled hrules, htwin.name, htwin.ns]

theorem placement_labelled (hrules : LeavesLabels rules) (hlive : ∀ k, live.lookup k = live'.lookup k) {key : String}
    {o : Object} (hdeclares : DeclaresNoOther applicationName (getLabels o))
    (hcarries : ∀ k o, live.lookup k = some o → CarriesLabels applicationName (getLabels o)) :
    placement payloadContains (mapValues (applyIgnore rules) live) key
        (applyIgnore rules (ensureManagedLabels applicationName o)) =
      placement payloadContains (mapValues (applyIgnore rules) live') key (applyIgnore rules o) := by
  simp only [placement, lookup_mapValues, ← hlive]
  cases hlook : live.lookup key with
  | none => rfl
  | some o' => simp only [Option.map_some, resourceEqual_labelled hrules (hcarries key o' hlook) hdeclares]

theorem placed_mapValues (f : Object → Object) (place : String → Object → Placement) (p : Placement)
    (action : String) :
    placed (mapValues f m) place p action =
      (m.entries.filter (fun e => place e.1 (f e.2) = p)).map (fun e => resourceDiff (f e.2) action) := by
  simp only [placed, mapValues, filter_map, map_map]
  rfl

theorem placed_labelled (payloadContains : PayloadContains) (hrules : LeavesLabels rules)
    (hlive : ∀ k, live.lookup k = live'.lookup k)
    (hdeclares : ∀ k o, m.lookup k = some o → DeclaresNoOther applicationName (getLabels o))
    (hcarries : ∀ k o, live.lookup k = some o → CarriesLabels applicationName (getLabels o)) (p : Placement)
    (action : String) :
    placed (mapValues (applyIgnore rules) (mapValues (ensureManagedLabels applicationName) m))
        (placement payloadContains (mapValues (applyIgnore rules) live)) p action =
      placed (mapValues (applyIgnore rules) m) (placement payloadContains (mapValues (applyIgnore rules) live')) p
        action := by
  rw [mapValues_mapValues, placed_mapValues, placed_mapValues]
  have hfilter : m.entries.filter (fun e => placement payloadContains (mapValues (applyIgnore rules) live) e.1
        (applyIgnore rules (ensureManagedLabels applicationName e.2)) = p) =
      m.entries.filter (fun e => placement payloadContains (mapValues (applyIgnore rules) live') e.1
        (applyIgnore rules e.2) = p) := by
    refine filter_congr ?_
    intro e he
    simp only [placement_labelled hrules hlive (hdeclares e.1 e.2 (AList.mem_lookup_iff.mpr he)) hcarries]
  rw [hfilter]
  exact map_congr_left (fun e _ => resourceDiff_labelled hrules e.2 action)

theorem surplus_labelled (applicationName : String) (m : ObjectMap) (hrules : LeavesLabels rules)
    (hlive : ∀ k, live.lookup k = live'.lookup k) :
    (surplus (mapValues (applyIgnore rules) (mapValues (ensureManagedLabels applicationName) m))
        (mapValues (applyIgnore rules) live)).Perm
      (surplus (mapValues (applyIgnore rules) m) (mapValues (applyIgnore rules) live')) := by
  have hkinds : (mapValues (applyIgnore rules) (mapValues (ensureManagedLabels applicationName) m)).entries.map
        (fun e => getKind e.2) = (mapValues (applyIgnore rules) m).entries.map (fun e => getKind e.2) := by
    simp only [mapValues, map_map]
    exact map_congr_left (fun e _ => kind_labelled hrules e.2)
  have hnone : ∀ k, ((mapValues (applyIgnore rules) (mapValues (ensureManagedLabels applicationName) m)).lookup k).isNone =
      ((mapValues (applyIgnore rules) m).lookup k).isNone := by
    intro k
    simp only [lookup_mapValues, Option.isNone_map]
  have hperm := entries_perm (fun k => by rw [lookup_mapValues, lookup_mapValues, hlive k] :
    ∀ k, (mapValues (applyIgnore rules) live).lookup k = (mapValues (applyIgnore rules) live').lookup k)
  simp only [surplus, hkinds, hnone]
  exact (hperm.filter _).map _

/-- **Two comparisons agree** that have seen the same live objects, though only one of them has labelled the desired
ones. -/
theorem agree_compareMaps (hrules : LeavesLabels rules) (hlive : ∀ k, live.lookup k = live'.lookup k)
    (hdeclares : ∀ k o, m.lookup k = some o → DeclaresNoOther applicationName (getLabels o))
    (hcarries : ∀ k o, live.lookup k = some o → CarriesLabels applicationName (getLabels o)) :
    Agree (compareMaps payloadContains rules (mapValues (ensureManagedLabels applicationName) m) live)
      (compareMaps payloadContains rules m live') := by
  have hplaced := placed_labelled payloadContains hrules hlive hdeclares hcarries
  have hsurplus := surplus_labelled applicationName m hrules hlive
  have hperm := entries_perm (fun k => by rw [lookup_mapValues, lookup_mapValues, hlive k] :
    ∀ k, (mapValues (applyIgnore rules) live).lookup k = (mapValues (applyIgnore rules) live').lookup k)
  rw [compareMaps_eq, compareMaps_eq]
  refine ⟨?_, ?_, ?_, ?_, ?_, ?_⟩
  · exact hplaced .added "Added"
  · exact hplaced .modified "Modified"
  · exact hplaced .unchanged "Unchanged"
  · exact hsurplus
  · exact hperm.map _
  · simp only [DiffResult.finish, compared, hplaced, hsurplus.length_eq]
end

/-! ### What the engine that reads everything reads -/

def desiredTypes (E : Environment) (desired : List Object) : List GVR :=
  (filterHookObjects desired).filterMap (gvrForObjectWithResolver E.resolver)

def Discovery.restrict (discovery : Discovery) (types : List GVR) : Discovery :=
  { discovery with
    lists := discovery.lists.map fun l =>
      { l with
        resources := l.resources.filter fun r =>
          match DiffEngine.parseGroupVersion l.groupVersion with
          | none => false
          | some (group, version) => types.contains ⟨group, version, r.name⟩ } }

def Discovery.Offers (discovery : Discovery) (gvr : GVR) : Prop :=
  ∃ l ∈ discovery.lists, DiffEngine.parseGroupVersion l.groupVersion = some (gvr.group, gvr.version) ∧
    ∃ r ∈ l.resources, r.name = gvr.resource ∧ r.verbs.contains "list" = true

/-- No read fails, no informer answers before it has synced, and discovery knows which types have namespaces. -/
structure NoFailures (E : Environment) (discovery : Discovery) : Prop where
  lists : ∀ gvr ns, E.listFails gvr ns = false
  gets : ∀ gvr name, E.getFails gvr name = false
  synced : ∀ looks, E.liveCache = some looks → ∀ gvr ns informer, getInformer (looks gvr ns) = some informer →
    informer.hasSynced = true
  discovered : ∀ err, discovery.err ≠ some (.all err)
  scope : ∀ l ∈ discovery.lists, ∀ group version, DiffEngine.parseGroupVersion l.groupVersion = some (group, version) →
    ∀ r ∈ l.resources, r.namespaced = E.cluster.namespaced ⟨group, version, r.name⟩

/-- The objects are within the view of both engines: the selectors select what carries the labels, no rule cuts them, and each
desired object is looked for where the other engine looks. -/
structure Confined (E : Environment) (discovery : Discovery) (desired : List Object) (opts : DiffOptions)
    (selector : Selector) : Prop where
  parsed : E.parseSelector opts.labelSelector = .ok selector
  selected : ∀ labels, CarriesLabels opts.applicationName labels → selector labels = true
  unfiltered : ∀ o, E.fieldSelects opts.fieldSelector o = true
  labelled : ∀ gvr ∈ desiredTypes E desired, ∀ o ∈ E.cluster.objects gvr,
    CarriesLabels opts.applicationName (getLabels o)
  declares : ∀ d ∈ filterHookObjects desired, DeclaresNoOther opts.applicationName (getLabels d)
  rules : LeavesLabels opts.ignoreDifferences
  resolved : ∀ d ∈ filterHookObjects desired, ∃ gvr, gvrForObjectWithResolver E.resolver d = some gvr ∧
    discovery.Offers gvr ∧
      queryNamespace opts.ns d = if E.cluster.namespaced gvr then opts.ns else ""
  named : ∀ gvr ∈ desiredTypes E desired, usesNamedLiveRead gvr = true → E.cluster.namespaced gvr = false ∧
    ∀ o ∈ E.cluster.objects gvr, ∃ d ∈ filterHookObjects desired,
      gvrForObjectWithResolver E.resolver d = some gvr ∧ getName d = getName o

section
variable {E : Environment} {discovery : Discovery} {desired : List Object} {opts : DiffOptions} {selector : Selector}
  {o d : Object} {gvr : GVR}

theorem mem_desiredTypes : gvr ∈ desiredTypes E desired ↔
    ∃ d ∈ filterHookObjects desired, gvrForObjectWithResolver E.resolver d = some gvr := by
  simp [desiredTypes]

def InView (E : Environment) (desired : List Object) (opts : DiffOptions) (o : Object) : Prop :=
  shouldIgnoreLiveResource (manifestObject o) = false ∧ ∃ gvr ∈ desiredTypes E desired, o ∈ E.cluster.objects gvr ∧
    inNamespace (if E.cluster.namespaced gvr then opts.ns else "") o = true

namespace ScalableDiffEngine

theorem answers_of_noFailures (h : NoFailures E discovery) (gvr : GVR) (ns : String) : Answers E gvr ns := by
  simp only [Answers]
  split
  · exact h.lists gvr ns
  · next looks hcache =>
      split
      · exact h.lists gvr ns
      · next informer hinformer => exact h.synced looks hcache gvr ns informer hinformer

theorem get_of_noFailures (h : NoFailures E discovery) (hscope : E.cluster.namespaced gvr = false) (name : String) :
    E.get gvr name ≠ .failed := by
  simp only [Environment.get, h.gets, hscope, Bool.or_self, Bool.false_eq_true, if_false]
  split <;> simp

/-- **The scalable engine reads what is in view.** -/
theorem mem_liveItems_iff (hfails : NoFailures E discovery) (h : Confined E discovery desired opts selector) :
    o ∈ liveItems E opts selector desired ↔ InView E desired opts o := by
  rw [mem_liveItems, InView]
  refine and_congr_right fun _ => ?_
  constructor
  · rintro ⟨d, hd, ho⟩
    obtain ⟨gvr, hresolved, hread⟩ := mem_itemsFor.mp ho
    have htype : gvr ∈ desiredTypes E desired := mem_desiredTypes.mpr ⟨d, hd, hresolved⟩
    rcases hread with ⟨-, items, hread, ho⟩ | ⟨hnamed, hget, -⟩
    · obtain ⟨gvr', hresolved', -, haligned⟩ := h.resolved d hd
      obtain rfl : gvr = gvr' := Option.some.inj (hresolved.symm.trans hresolved')
      obtain ⟨hlive, -, hns⟩ := mem_readItems hread ho
      exact ⟨gvr, htype, hlive, haligned ▸ hns⟩
    · refine ⟨gvr, htype, (get_eq_found hget).1, ?_⟩
      simp [(h.named gvr htype hnamed).1, inNamespace]
  · rintro ⟨gvr, htype, hlive, hns⟩
    have hsel : selector (getLabels o) = true := h.selected _ (h.labelled gvr htype o hlive)
    cases hnamed : usesNamedLiveRead gvr with
    | true =>
      obtain ⟨hscope, hdes⟩ := h.named gvr htype hnamed
      obtain ⟨d, hd, hresolved, hname⟩ := hdes o hlive
      refine ⟨d, hd, mem_itemsFor.mpr ⟨gvr, hresolved, .inr ⟨hnamed, ?_, hsel⟩⟩⟩
      have hexists : ((E.cluster.objects gvr).find? fun o => getName o == getName d).isSome = true := by
        rw [List.find?_isSome]
        exact ⟨o, hlive, by simp [hname]⟩
      obtain ⟨o', ho'⟩ := Option.isSome_iff_exists.mp hexists
      obtain rfl : o' = o := eq_of_name hscope (mem_of_find?_eq_some ho') hlive
        ((by simpa using List.find?_some ho' : getName o' = getName d).trans hname)
      simp only [Environment.get, hfails.gets, hscope, Bool.or_self, Bool.false_eq_true, if_false, ho']
    | false =>
      obtain ⟨d, hd, hresolved⟩ := mem_desiredTypes.mp htype
      obtain ⟨gvr', hresolved', -, haligned⟩ := h.resolved d hd
      obtain rfl : gvr = gvr' := Option.some.inj (hresolved.symm.trans hresolved')
      have hscope : queryNamespace opts.ns d = "" ∨ E.cluster.namespaced gvr = true := by
        rw [haligned]
        cases E.cluster.namespaced gvr with
        | true => exact .inr rfl
        | false => exact .inl rfl
      obtain ⟨items, hread, hall⟩ := readItems_of_answers opts selector
        (answers_of_noFailures hfails gvr (queryNamespace opts.ns d)) hscope
      exact ⟨d, hd, mem_itemsFor.mpr ⟨gvr, hresolved, .inl ⟨hnamed, items, hread,
        hall o hlive hsel (h.unfiltered o) (haligned ▸ hns)⟩⟩⟩

end ScalableDiffEngine

namespace DiffEngine

def listItems (E : Environment) (ns : String) (l : APIResourceList) : List Object :=
  match parseGroupVersion l.groupVersion with
  | none => []
  | some (group, version) => l.resources.flatMap fun r => (readResource E ns group version r).getD []

theorem fetchList_eq (ns : String) (m : ObjectMap) (l : APIResourceList) :
    fetchList E ns m l = insertAll resourceKey m (comparable (listItems E ns l)) := by
  cases hparse : parseGroupVersion l.groupVersion with
  | none =>
    simp only [fetchList, listItems, hparse]
    rfl
  | some gv =>
    simp only [fetchList, listItems, hparse]
    exact foldl_addItems (fun r => readResource E ns gv.1 gv.2 r) l.resources m

theorem foldl_fetchList (ns : String) (ls : List APIResourceList) : ∀ m : ObjectMap,
    ls.foldl (fetchList E ns) m = insertAll resourceKey m (comparable (ls.flatMap (listItems E ns))) := by
  induction ls with
  | nil => intro m; rfl
  | cons l rest ih =>
    intro m
    rw [foldl_cons, ih, fetchList_eq, flatMap_cons, comparable_append, insertAll_append]

def listedItems (E : Environment) (discovery : Discovery) (ns : String) : List Object :=
  comparable (discovery.lists.flatMap (listItems E ns))

theorem computeDiff_of_discovered (h : ∀ err, discovery.err ≠ some (.all err)) :
    computeDiff E discovery desired opts = .ok (compareMaps E.payloadContains opts.ignoreDifferences
      (ofValues resourceKey (filterHookObjects desired)) (ofValues resourceKey (listedItems E discovery opts.ns))) := by
  have hfetch : fetchLiveResources E discovery opts.ns = .ok (ofValues resourceKey (listedItems E discovery opts.ns)) := by
    simp only [fetchLiveResources, foldl_fetchList]
    rfl
  simp only [computeDiff, hfetch]
  rfl

/-- **The engine that reads everything reads what is in view**, of the desired types. -/
theorem mem_listedItems_iff (hfails : NoFailures E discovery) (h : Confined E discovery desired opts selector) :
    o ∈ listedItems E (discovery.restrict (desiredTypes E desired)) opts.ns ↔ InView E desired opts o := by
  rw [listedItems, mem_comparable, InView, and_comm]
  refine and_congr_right fun _ => ?_
  simp only [Discovery.restrict, mem_flatMap, mem_map]
  constructor
  · rintro ⟨_, ⟨l, hl, rfl⟩, ho⟩
    cases hparse : parseGroupVersion l.groupVersion with
    | none => simp [listItems, hparse] at ho
    | some gv =>
    obtain ⟨group, version⟩ := gv
    simp only [listItems, hparse, mem_flatMap, mem_filter, contains_iff_mem] at ho
    obtain ⟨r, ⟨hr, htype⟩, ho⟩ := ho
    refine ⟨⟨group, version, r.name⟩, htype, ?_⟩
    rw [← hfails.scope l hl group version hparse r hr]
    simp only [readResource, Environment.list] at ho
    split_ifs at ho <;> simp_all
  · rintro ⟨gvr, htype, hlive, hns⟩
    obtain ⟨d, hd, hresolved⟩ := mem_desiredTypes.mp htype
    obtain ⟨gvr', hresolved', ⟨l, hl, hparse, r, hr, hname, hverb⟩, -⟩ := h.resolved d hd
    obtain rfl : gvr = gvr' := Option.some.inj (hresolved.symm.trans hresolved')
    refine ⟨_, ⟨l, hl, rfl⟩, ?_⟩
    simp only [listItems, hparse, mem_flatMap, mem_filter, contains_iff_mem]
    have hscope := hfails.scope l hl _ _ hparse r hr
    refine ⟨r, ⟨hr, by simpa [hname] using htype⟩, ?_⟩
    rw [hname] at hscope
    simp only [readResource, hverb, Environment.list, hfails.lists, hname, hscope]
    cases hn : E.cluster.namespaced gvr with
    | true => simp_all
    | false => simp_all

end DiffEngine
end

def settings (ns : String) (labels : Fields) : Object :=
  [("apiVersion", .str "v1"), ("kind", .str "ConfigMap"),
    ("metadata", .obj [("name", .str "settings"), ("namespace", .str ns), ("labels", .obj labels)]),
    ("data", .obj [("currency", .str "chf")])]

def configMaps : GVR := ⟨"", "v1", "configmaps"⟩

def shopLabels : Fields := [("app.paprika.io/managed-by", .str "paprika"), ("app.paprika.io/name", .str "shop")]

/-- What is live: the settings. -/
def shopObjects (ns : String) (gvr : GVR) : List Object := if gvr = configMaps then [settings ns shopLabels] else []

theorem mem_shopObjects {ns : String} {gvr : GVR} {o : Object} :
    o ∈ shopObjects ns gvr ↔ gvr = configMaps ∧ o = settings ns shopLabels := by
  simp [shopObjects]

theorem shop_ne : "shop" ≠ "" := by decide

theorem tools_ne : "tools" ≠ "" := by decide

def shopSelector : Selector := labelsEqual [("app.paprika.io/managed-by", "paprika"), ("app.paprika.io/name", "shop")]

/-- A cluster with the settings in one namespace, where lists work or fail. -/
def shopEnvironment (ns : String) (hns : ns ≠ "") (listFails : Bool) : Environment where
  cluster :=
    { namespaced := fun _ => true
      objects := shopObjects ns
      spaced := by
        intro gvr o ho
        rw [(mem_shopObjects.mp ho).2]
        exact ⟨fun _ => rfl, fun _ => hns⟩
      typed := by
        intro gvr o ho o' ho'
        rw [(mem_shopObjects.mp ho).2, (mem_shopObjects.mp ho').2]
        exact ⟨rfl, rfl⟩
      keyed := by
        intro gvr gvr' o ho o' ho' _
        rw [(mem_shopObjects.mp ho).2, (mem_shopObjects.mp ho').2] }
  listFails := fun _ _ => listFails
  getFails := fun _ _ => false
  liveCache := none
  resolver := none
  parseSelector := fun _ => .ok shopSelector
  fieldSelects := fun _ _ => true
  payloadContains := fun desired live => labelsEqual (stringMapAt desired ["data"]) (stringMapAt live ["data"])

def shopDiscovery : Discovery where
  lists := [⟨"v1", [⟨"configmaps", true, ["get", "list", "watch"]⟩, ⟨"secrets", true, ["get", "list", "watch"]⟩]⟩]
  err := none

def shopOptions : DiffOptions where
  ns := "shop"
  labelSelector := "app.paprika.io/managed-by=paprika,app.paprika.io/name=shop"
  fieldSelector := ""
  applicationName := "shop"
  ignoreDifferences := []

theorem shop_noFailures (ns : String) (hns : ns ≠ "") : NoFailures (shopEnvironment ns hns false) shopDiscovery where
  lists := fun _ _ => rfl
  gets := fun _ _ => rfl
  synced := by
    intro looks h
    cases h
  discovered := by
    intro err h
    cases h
  scope := by
    intro l hl group version _ r hr
    obtain rfl := mem_singleton.mp hl
    rcases mem_cons.mp hr with rfl | hr
    · rfl
    · obtain rfl := mem_singleton.mp hr
      rfl

theorem shop_labelled (ns : String) (hns : ns ≠ "") (listFails : Bool) (gvr : GVR) :
    ∀ o ∈ (shopEnvironment ns hns listFails).cluster.objects gvr, CarriesLabels "shop" (getLabels o) := by
  intro o ho
  rw [(mem_shopObjects.mp ho).2]
  have hlabels : getLabels (settings ns shopLabels) =
      [("app.paprika.io/managed-by", "paprika"), ("app.paprika.io/name", "shop")] := rfl
  rw [hlabels]
  exact ⟨by decide, fun _ => by decide⟩

theorem shop_desiredTypes : desiredTypes (shopEnvironment "shop" shop_ne false) [settings "shop" []] = [configMaps] := by
  decide

theorem shop_confined :
    Confined (shopEnvironment "shop" shop_ne false) shopDiscovery [settings "shop" []] shopOptions shopSelector := by
  have hdes : ∀ d ∈ filterHookObjects [settings "shop" []], d = settings "shop" [] := fun d hd =>
    mem_singleton.mp (mem_of_mem_filter hd)
  constructor
  case parsed => rfl
  case selected =>
    intro labels h
    simp only [shopSelector, labelsEqual, all_cons, all_nil, Bool.and_true, Bool.and_eq_true, beq_iff_eq]
    exact ⟨h.managed, h.application (by decide)⟩
  case unfiltered => exact fun _ => rfl
  case labelled => exact fun gvr _ => shop_labelled "shop" shop_ne false gvr
  case declares =>
    intro d hd
    rw [hdes d hd]
    have hlabels : getLabels (settings "shop" []) = [] := rfl
    rw [hlabels]
    exact ⟨fun _ hv => absurd hv (by simp), fun _ _ hv => absurd hv (by simp)⟩
  case rules =>
    intro rule hrule
    cases hrule
  case resolved =>
    intro d hd
    rw [hdes d hd]
    refine ⟨configMaps, by decide, ?_, by decide⟩
    exact ⟨_, mem_singleton.mpr rfl, by decide, _, mem_cons_self, rfl, by decide⟩
  case named =>
    intro gvr hgvr hnamed
    rw [shop_desiredTypes] at hgvr
    rw [mem_singleton.mp hgvr] at hnamed
    exact absurd hnamed (by decide)

theorem exists_ok {α β : Type} {x : Except String α} {f : α → β} {y : β} (h : x.toOption.map f = some y) :
    ∃ r, x = .ok r ∧ f r = y := by
  cases x with
  | error e => cases h
  | ok r => exact ⟨r, rfl, Option.some.inj h⟩

end Paprika.Engine
