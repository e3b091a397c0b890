import Paprika.Engine.DiffReads

/-!
# Engine: a diff says what is live

What can be concluded from a diff that the scalable engine returns, whatever has failed on the way.

* `Answered` — the read for a desired object was answered, and asks for the right objects;
* `Describes` — a live object is the one that a desired object describes;
* `Truthful` — every desired object has one entry, an added one whose read was answered is not live, and a deleted
  one is live, selected, not desired and not generated;
* **`truthful_comparison`** — every diff is.
-/

namespace Paprika.Engine

open Lib.KeyedMap Option

namespace ScalableDiffEngine

variable {E : Environment} {opts : DiffOptions} {selector : Selector} {desired : List Object} {o d : Object} {gvr : GVR}

/-- The read for a desired object is answered, and asks for the right objects: the resource type is the one of its
version and kind, has the scope that the engine expects, and the namespace that goes into the key is the one that is
read. -/
structure Answered (E : Environment) (opts : DiffOptions) (d : Object) (gvr : GVR) : Prop where
  resolved : gvrForObjectWithResolver E.resolver d = some gvr
  typed : ∀ gvr', ∀ o ∈ E.cluster.objects gvr', getAPIVersion o = getAPIVersion d → getKind o = getKind d → gvr' = gvr
  scope : E.cluster.namespaced gvr = !isClusterScopedKind (getKind d)
  homed : E.cluster.namespaced gvr = true → getNamespace d = "" → opts.ns = "default"
  homeless : E.cluster.namespaced gvr = false → getNamespace d = "" ∨ getNamespace d = "default"
  read : usesNamedLiveRead gvr = false → Answers E gvr (queryNamespace opts.ns d)

/-- A live object is the one that a desired object describes: of its version, kind and name, and in its namespace, or
the one of the options. -/
structure Describes (E : Environment) (opts : DiffOptions) (d : Object) (gvr : GVR) (o : Object) : Prop where
  live : o ∈ E.cluster.objects gvr
  apiVersion : getAPIVersion o = getAPIVersion d
  kind : getKind o = getKind d
  name : getName o = getName d
  ns : E.cluster.namespaced gvr = true → getNamespace o = if getNamespace d = "" then opts.ns else getNamespace d

/-- What a result says is true. -/
structure Truthful (E : Environment) (opts : DiffOptions) (selector : Selector) (desired : List Object) (r : DiffResult)
    (m : ObjectMap) (place : String → Placement) : Prop where
  keys : ∀ key, key ∈ m ↔ ∃ d ∈ filterHookObjects desired, resourceKey d = key
  values : ∀ key o, m.lookup key = some o → ∃ d ∈ filterHookObjects desired, resourceKey d = key ∧
    o = applyIgnore opts.ignoreDifferences (ensureManagedLabels opts.applicationName d)
  added : r.added = placed m (fun key _ => place key) .added "Added"
  modified : r.modified = placed m (fun key _ => place key) .modified "Modified"
  unchanged : r.unchanged = placed m (fun key _ => place key) .unchanged "Unchanged"
  absent : ∀ d ∈ filterHookObjects desired, place (resourceKey d) = .added → ∀ gvr, Answered E opts d gvr →
    ∀ gvr' o, Describes E opts d gvr' o → selector (getLabels o) = true → E.fieldSelects opts.fieldSelector o = true →
      shouldIgnoreLiveResource (manifestObject o) = true
  present : ∀ d ∈ filterHookObjects desired, place (resourceKey d) ≠ .added →
    ∃ gvr, ∃ o ∈ E.cluster.objects gvr, resourceKey o = resourceKey d ∧ selector (getLabels o) = true
  deleted : ∀ e ∈ r.deleted, ∃ gvr, ∃ o ∈ E.cluster.objects gvr,
    e = resourceDiff (applyIgnore opts.ignoreDifferences o) "Deleted" ∧ selector (getLabels o) = true ∧
      shouldIgnoreLiveResource (manifestObject o) = false ∧
      (∀ d ∈ filterHookObjects desired, resourceKey d ≠ resourceKey o) ∧
      isGeneratedChildResource (applyIgnore opts.ignoreDifferences o) (m.entries.map fun e => getKind e.2) = false

/-! ### Items -/

theorem namedFor_eq_some {q : GVR × String} : namedFor E d = some q ↔
    gvrForObjectWithResolver E.resolver d = some q.1 ∧ usesNamedLiveRead q.1 = true ∧ getName d = q.2 := by
  obtain ⟨gvr, name⟩ := q
  simp only [namedFor]
  cases gvrForObjectWithResolver E.resolver d with
  | none => simp
  | some gvr' =>
  cases hnamed : usesNamedLiveRead gvr' with
  | true =>
    simp only [hnamed, if_true, some.injEq, Prod.mk.injEq]
    exact ⟨fun h => ⟨h.1, h.1 ▸ hnamed, h.2⟩, fun h => ⟨h.1, h.2.2⟩⟩
  | false =>
  simp only [hnamed, Bool.false_eq_true, if_false, reduceCtorEq, some.injEq, false_iff]
  rintro ⟨rfl, hlisted, -⟩
  rw [hnamed] at hlisted
  cases hlisted

theorem mem_namedItems {q : GVR × String} :
    o ∈ namedItems E selector q ↔ E.get q.1 q.2 = .found o ∧ selector (getLabels o) = true := by
  simp only [namedItems]
  cases E.get q.1 q.2 with
  | notFound => simp
  | failed => simp
  | found o' =>
  by_cases hsel : selector (getLabels o') = true
  · simp only [hsel, if_true, List.mem_singleton, GetResult.found.injEq]
    exact ⟨fun h => ⟨h.symm, h ▸ hsel⟩, fun h => h.1.symm⟩
  · simp only [hsel, Bool.false_eq_true, if_false, List.not_mem_nil, GetResult.found.injEq, false_iff]
    rintro ⟨rfl, h⟩
    exact hsel h

/-- What is read for a desired object: an item of its list, or the selected object of its name. -/
theorem mem_itemsFor : o ∈ itemsFor E opts selector d ↔
    ∃ gvr, gvrForObjectWithResolver E.resolver d = some gvr ∧
      ((usesNamedLiveRead gvr = false ∧ ∃ items, readItems E opts selector gvr (queryNamespace opts.ns d) = some items ∧
          o ∈ items) ∨
        (usesNamedLiveRead gvr = true ∧ E.get gvr (getName d) = .found o ∧ selector (getLabels o) = true)) := by
  simp only [itemsFor, listedFor, namedFor]
  cases gvrForObjectWithResolver E.resolver d with
  | none => simp
  | some gvr =>
  simp only [some.injEq, exists_eq_left']
  cases hnamed : usesNamedLiveRead gvr with
  | true => simp [mem_namedItems]
  | false =>
    cases hread : readItems E opts selector gvr (queryNamespace opts.ns d) with
    | none => simp [hread]
    | some items => simp [hread]

theorem get_eq_found {name : String} (h : E.get gvr name = .found o) :
    o ∈ E.cluster.objects gvr ∧ getName o = name := by
  simp only [Environment.get] at h
  split at h
  · cases h
  cases hfind : (E.cluster.objects gvr).find? (fun o => getName o == name) with
  | none =>
    simp only [hfind] at h
    cases h
  | some o' =>
    simp only [hfind] at h
    cases h
    exact ⟨List.mem_of_find?_eq_some hfind, by simpa using List.find?_some hfind⟩

theorem live_of_mem_liveItems (h : o ∈ liveItems E opts selector desired) :
    shouldIgnoreLiveResource (manifestObject o) = false ∧ selector (getLabels o) = true ∧
      ∃ gvr, o ∈ E.cluster.objects gvr := by
  obtain ⟨hignored, d, -, ho⟩ := mem_liveItems.mp h
  obtain ⟨gvr, -, ⟨-, items, hread, ho⟩ | ⟨-, hget, hsel⟩⟩ := mem_itemsFor.mp ho
  · obtain ⟨hlive, hsel, -⟩ := mem_readItems hread ho
    exact ⟨hignored, hsel, gvr, hlive⟩
  · exact ⟨hignored, hsel, gvr, (get_eq_found hget).1⟩

theorem liveItems_keyed : ∀ o ∈ liveItems E opts selector desired, ∀ o' ∈ liveItems E opts selector desired,
    resourceKey o = resourceKey o' → o = o' := by
  intro o ho o' ho' hkey
  obtain ⟨-, -, gvr, hlive⟩ := live_of_mem_liveItems ho
  obtain ⟨-, -, gvr', hlive'⟩ := live_of_mem_liveItems ho'
  exact E.cluster.keyed gvr gvr' o hlive o' hlive' hkey

theorem lookup_liveItems {key : String} : (ofValues resourceKey (liveItems E opts selector desired)).lookup key = some o ↔
    o ∈ liveItems E opts selector desired ∧ resourceKey o = key :=
  lookup_ofValues_eq_some liveItems_keyed

/-! ### Answered reads -/

theorem Answered.key (h : Answered E opts d gvr) (ho : Describes E opts d gvr o) : resourceKey o = resourceKey d := by
  have hspaced := E.cluster.spaced gvr o ho.live
  cases hns : E.cluster.namespaced gvr with
  | true =>
    have hnonempty : getNamespace o ≠ "" := hspaced.mpr hns
    have hhome := ho.ns hns
    by_cases hd : getNamespace d = ""
    · rw [if_pos hd, h.homed hns hd] at hhome
      simp only [resourceKey, ho.apiVersion, ho.kind, ho.name, hhome, hd, if_true]
      rfl
    · rw [if_neg hd] at hhome
      simp only [resourceKey, ho.apiVersion, ho.kind, ho.name, hhome, hd, if_false]
  | false =>
  have hempty : getNamespace o = "" := by
    by_contra hne
    rw [hspaced.mp hne] at hns
    cases hns
  have hd : (if getNamespace d = "" then "default" else getNamespace d) = "default" := by
    rcases h.homeless hns with hd | hd
    · rw [if_pos hd]
    · rw [hd]
      rfl
  simp only [resourceKey, ho.apiVersion, ho.kind, ho.name, hempty, if_true, hd]

theorem eq_of_name {o' : Object} (hns : E.cluster.namespaced gvr = false) (ho' : o' ∈ E.cluster.objects gvr)
    (ho : o ∈ E.cluster.objects gvr) (hname : getName o' = getName o) : o' = o := by
  have hempty : ∀ o ∈ E.cluster.objects gvr, getNamespace o = "" := by
    intro o ho
    by_contra hne
    rw [(E.cluster.spaced gvr o ho).mp hne] at hns
    cases hns
  obtain ⟨hver, hkind⟩ := E.cluster.typed gvr o' ho' o ho
  refine E.cluster.keyed gvr gvr o' ho' o ho ?_
  simp only [resourceKey, hver, hkind, hname, hempty o ho, hempty o' ho']

theorem get_eq_of_describes (ho : Describes E opts d gvr o)
    (hget : E.get gvr (getName d) ≠ .failed) : E.get gvr (getName d) = .found o := by
  simp only [Environment.get] at hget ⊢
  by_cases hfails : (E.getFails gvr (getName d) || E.cluster.namespaced gvr) = true
  · rw [if_pos hfails] at hget
    exact absurd rfl hget
  rw [if_neg hfails]
  simp only [Bool.or_eq_true, not_or, Bool.not_eq_true] at hfails
  have hexists : ((E.cluster.objects gvr).find? fun o => getName o == getName d).isSome = true := by
    rw [List.find?_isSome]
    exact ⟨o, ho.live, by simp [ho.name]⟩
  obtain ⟨o', ho'⟩ := isSome_iff_exists.mp hexists
  have hname : getName o' = getName d := by simpa using List.find?_some ho'
  obtain rfl : o' = o := eq_of_name hfails.2 (List.mem_of_find?_eq_some ho') ho.live (hname.trans ho.name.symm)
  rw [ho']

/-- **An answered read** has the object that it is for. -/
theorem mem_itemsFor_of_answered (h : Answered E opts d gvr) (ho : Describes E opts d gvr o)
    (hsel : selector (getLabels o) = true) (hfields : E.fieldSelects opts.fieldSelector o = true)
    (hget : ∀ q, namedFor E d = some q → E.get q.1 q.2 ≠ .failed) : o ∈ itemsFor E opts selector d := by
  refine mem_itemsFor.mpr ⟨gvr, h.resolved, ?_⟩
  cases hnamed : usesNamedLiveRead gvr with
  | true =>
    have hok := hget (gvr, getName d) (namedFor_eq_some.mpr ⟨h.resolved, hnamed, rfl⟩)
    exact .inr ⟨rfl, get_eq_of_describes ho hok, hsel⟩
  | false =>
  have hscope : queryNamespace opts.ns d = "" ∨ E.cluster.namespaced gvr = true := by
    cases hkind : isClusterScopedKind (getKind d) with
    | true => exact .inl (by simp [queryNamespace, hkind])
    | false => exact .inr (by simp [h.scope, hkind])
  obtain ⟨items, hread, hall⟩ := readItems_of_answers opts selector (h.read hnamed) hscope
  refine .inl ⟨rfl, items, hread, hall o ho.live hsel hfields ?_⟩
  cases hkind : isClusterScopedKind (getKind d) with
  | true => simp [inNamespace, queryNamespace, hkind]
  | false =>
    have hns := ho.ns (by simp [h.scope, hkind])
    simp [inNamespace, queryNamespace, hkind, hns]

/-! ### The result -/

def comparedMap (opts : DiffOptions) (desired : List Object) : ObjectMap :=
  mapValues (applyIgnore opts.ignoreDifferences) (desiredMap opts desired)

def liveMap (E : Environment) (opts : DiffOptions) (selector : Selector) (desired : List Object) : ObjectMap :=
  mapValues (applyIgnore opts.ignoreDifferences) (ofValues resourceKey (liveItems E opts selector desired))

def placeOf (E : Environment) (opts : DiffOptions) (selector : Selector) (desired : List Object) (key : String) :
    Placement :=
  ((comparedMap opts desired).lookup key).elim .added
    (placement E.payloadContains (liveMap E opts selector desired) key)

theorem comparison_eq : comparison E opts selector desired =
    (compared E.payloadContains (comparedMap opts desired) (liveMap E opts selector desired)).finish
      (liveMap E opts selector desired) :=
  compareMaps_eq ..

theorem mem_comparedMap {key : String} :
    key ∈ comparedMap opts desired ↔ ∃ d ∈ filterHookObjects desired, resourceKey d = key := by
  rw [← AList.lookup_isSome, comparedMap, desiredMap, lookup_mapValues, lookup_mapValues, isSome_map,
    isSome_map, AList.lookup_isSome, mem_ofValues]

theorem lookup_comparedMap {key : String} (h : (comparedMap opts desired).lookup key = some o) :
    ∃ d ∈ filterHookObjects desired, resourceKey d = key ∧
      o = applyIgnore opts.ignoreDifferences (ensureManagedLabels opts.applicationName d) := by
  rw [comparedMap, desiredMap, lookup_mapValues, lookup_mapValues, map_map] at h
  obtain ⟨d, hd, rfl⟩ := map_eq_some_iff.mp h
  have hkey := keyed_ofValues resourceKey (filterHookObjects desired) key d hd
  rcases mem_of_lookup_insertAll hd with hempty | hmem
  · simp at hempty
  · exact ⟨d, hmem, hkey, rfl⟩

theorem lookup_liveMap {key : String} : (liveMap E opts selector desired).lookup key = some o ↔
    ∃ item ∈ liveItems E opts selector desired, resourceKey item = key ∧
      applyIgnore opts.ignoreDifferences item = o := by
  rw [liveMap, lookup_mapValues, map_eq_some_iff]
  simp only [lookup_liveItems, and_assoc]

theorem placed_placeOf (p : Placement) (action : String) :
    placed (comparedMap opts desired) (placement E.payloadContains (liveMap E opts selector desired)) p action =
      placed (comparedMap opts desired) (fun key _ => placeOf E opts selector desired key) p action := by
  have hplace : ∀ e ∈ (comparedMap opts desired).entries, placeOf E opts selector desired e.1 =
      placement E.payloadContains (liveMap E opts selector desired) e.1 e.2 := by
    intro e he
    have hlook : (comparedMap opts desired).lookup e.1 = some e.2 := AList.mem_lookup_iff.mpr he
    simp only [placeOf, hlook, elim_some]
  simp only [placed]
  congr 1
  refine List.filter_congr ?_
  intro e he
  simp only [hplace e he]

theorem placeOf_eq_added {key : String} (hkey : key ∈ comparedMap opts desired) :
    placeOf E opts selector desired key = .added ↔ ∀ o ∈ liveItems E opts selector desired, resourceKey o ≠ key := by
  obtain ⟨d, hd⟩ := isSome_iff_exists.mp (AList.lookup_isSome.mpr hkey)
  simp only [placeOf, hd, elim_some, placement_eq_added, eq_none_iff_forall_ne_some, ne_eq,
    lookup_liveMap, not_exists, not_and]
  exact ⟨fun h o ho hko => h _ o ho hko rfl, fun h _ o ho hko _ => h o ho hko⟩

theorem mem_surplus {e : ResourceDiff}
    (h : e ∈ surplus (comparedMap opts desired) (liveMap E opts selector desired)) :
    ∃ o ∈ liveItems E opts selector desired, e = resourceDiff (applyIgnore opts.ignoreDifferences o) "Deleted" ∧
      resourceKey o ∉ comparedMap opts desired ∧
      isGeneratedChildResource (applyIgnore opts.ignoreDifferences o)
        ((comparedMap opts desired).entries.map fun e => getKind e.2) = false := by
  obtain ⟨entry, hentry, rfl⟩ := List.mem_map.mp h
  simp only [List.mem_filter, Bool.and_eq_true, isNone_iff_eq_none, Bool.not_eq_true',
    AList.lookup_eq_none] at hentry
  obtain ⟨hmem, hdes, hchild⟩ := hentry
  obtain ⟨o, ho, hko, heq⟩ := lookup_liveMap.mp (AList.mem_lookup_iff.mpr hmem)
  exact ⟨o, ho, by rw [heq], hko ▸ hdes, heq ▸ hchild⟩

/-- **Every diff is truthful**, whatever failed. -/
theorem truthful_comparison
    (hnamed : ∀ d ∈ filterHookObjects desired, ∀ q, namedFor E d = some q → E.get q.1 q.2 ≠ .failed) :
    Truthful E opts selector desired (comparison E opts selector desired) (comparedMap opts desired)
      (placeOf E opts selector desired) := by
  rw [comparison_eq]
  constructor
  case keys => exact fun key => mem_comparedMap
  case values => exact fun key o h => lookup_comparedMap h
  case added => exact placed_placeOf .added "Added"
  case modified => exact placed_placeOf .modified "Modified"
  case unchanged => exact placed_placeOf .unchanged "Unchanged"
  case absent =>
    intro d hd hkey gvr hans gvr' o ho hsel hfields
    obtain rfl : gvr' = gvr := hans.typed gvr' o ho.live ho.apiVersion ho.kind
    have hread := mem_itemsFor_of_answered hans ho hsel hfields (hnamed d hd)
    by_contra hignored
    have hitem : o ∈ liveItems E opts selector desired := mem_liveItems.mpr ⟨by simpa using hignored, d, hd, hread⟩
    exact (placeOf_eq_added (mem_comparedMap.mpr ⟨d, hd, rfl⟩)).mp hkey o hitem (hans.key ho)
  case present =>
    intro d hd hkey
    rw [ne_eq, placeOf_eq_added (mem_comparedMap.mpr ⟨d, hd, rfl⟩)] at hkey
    push Not at hkey
    obtain ⟨o, hitem, hko⟩ := hkey
    obtain ⟨-, hsel, gvr, hlive⟩ := live_of_mem_liveItems hitem
    exact ⟨gvr, o, hlive, hko, hsel⟩
  case deleted =>
    intro e he
    obtain ⟨o, hitem, heq, hdes, hchild⟩ := mem_surplus he
    obtain ⟨hignored, hsel, gvr, hlive⟩ := live_of_mem_liveItems hitem
    refine ⟨gvr, o, hlive, heq, hsel, hignored, ?_, hchild⟩
    exact fun d hd hkd => hdes (mem_comparedMap.mpr ⟨d, hd, hkd⟩)

end ScalableDiffEngine

end Paprika.Engine
