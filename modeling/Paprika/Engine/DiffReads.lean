import Paprika.Engine.Diff

/-!
# Engine: what a diff has read

A diff of the scalable engine is a comparison of two maps: the desired objects under their keys, and the live objects
that its queries have returned.

* `compareMaps_eq` — a comparison places each desired object (`placement`), and lists what else is live (`surplus`);
* `mem_liveItems` — what was read: for each desired object the items of its list, or the object of its name;
* **`computeDiff_eq_ok`** — a diff that is returned is such a comparison;
* `Answers`, `readItems_of_answers` — a list that is answered has all the objects that it was for.
-/

namespace Paprika.Engine

open Lib.KeyedMap List

/-! ### Comparing two maps -/

inductive Placement where
  | added
  | modified
  | unchanged
  deriving DecidableEq

def placement (payloadContains : PayloadContains) (liveMap : ObjectMap) (key : String) (desired : Object) : Placement :=
  match liveMap.lookup key with
  | none => .added
  | some live => if resourceEqual payloadContains desired live then .unchanged else .modified

theorem placement_eq_added {payloadContains : PayloadContains} {liveMap : ObjectMap} {key : String} {desired : Object} :
    placement payloadContains liveMap key desired = .added ↔ liveMap.lookup key = none := by
  simp only [placement]
  cases liveMap.lookup key with
  | none => simp
  | some live =>
    simp only [reduceCtorEq, iff_false]
    split <;> simp

def placed (m : ObjectMap) (place : String → Object → Placement) (p : Placement) (action : String) : List ResourceDiff :=
  (m.entries.filter (fun e => place e.1 e.2 = p)).map (fun e => resourceDiff e.2 action)

/-- The entries of the live objects that are neither desired nor generated. -/
def surplus (desiredMap liveMap : ObjectMap) : List ResourceDiff :=
  let desiredKinds := desiredMap.entries.map (fun e => getKind e.2)
  (liveMap.entries.filter (fun e =>
    (desiredMap.lookup e.1).isNone && !isGeneratedChildResource e.2 desiredKinds)).map
      (fun e => resourceDiff e.2 "Deleted")

def compared (payloadContains : PayloadContains) (desiredMap liveMap : ObjectMap) : DiffResult :=
  let place := placement payloadContains liveMap
  { added := placed desiredMap place .added "Added"
    modified := placed desiredMap place .modified "Modified"
    unchanged := placed desiredMap place .unchanged "Unchanged"
    deleted := surplus desiredMap liveMap }

section
variable {payloadContains : PayloadContains} {liveMap desiredMap : ObjectMap}

abbrev Entry := Sigma fun _ : String => Object

theorem foldl_classifyDesired (entries : List Entry) : ∀ r : DiffResult,
    entries.foldl (fun r e => classifyDesired payloadContains liveMap r e.1 e.2) r =
      { r with
        added := r.added ++ (entries.filter (fun e => placement payloadContains liveMap e.1 e.2 = .added)).map
          (fun e => resourceDiff e.2 "Added")
        modified := r.modified ++ (entries.filter (fun e => placement payloadContains liveMap e.1 e.2 = .modified)).map
          (fun e => resourceDiff e.2 "Modified")
        unchanged := r.unchanged ++
          (entries.filter (fun e => placement payloadContains liveMap e.1 e.2 = .unchanged)).map
            (fun e => resourceDiff e.2 "Unchanged") } := by
  induction entries with
  | nil => intro r; simp
  | cons e rest ih =>
    intro r
    rw [foldl_cons, ih]
    cases hlook : liveMap.lookup e.1 with
    | none =>
      have hplace : placement payloadContains liveMap e.1 e.2 = .added := by simp [placement, hlook]
      simp [classifyDesired, hlook, hplace]
    | some live =>
    by_cases heq : resourceEqual payloadContains e.2 live = true
    · have hplace : placement payloadContains liveMap e.1 e.2 = .unchanged := by simp [placement, hlook, heq]
      simp [classifyDesired, hlook, heq, hplace]
    · have hplace : placement payloadContains liveMap e.1 e.2 = .modified := by simp [placement, hlook, heq]
      simp [classifyDesired, hlook, heq, hplace]

theorem foldl_classifyLive (desiredKinds : List String) (entries : List Entry) : ∀ r : DiffResult,
    entries.foldl (fun r e => classifyLive desiredMap desiredKinds r e.1 e.2) r =
      { r with
        deleted := r.deleted ++ (entries.filter (fun e =>
          (desiredMap.lookup e.1).isNone && !isGeneratedChildResource e.2 desiredKinds)).map
            (fun e => resourceDiff e.2 "Deleted") } := by
  induction entries with
  | nil => intro r; simp
  | cons e rest ih =>
    intro r
    rw [foldl_cons, ih]
    cases hlook : desiredMap.lookup e.1 with
    | some desired => simp [classifyLive, hlook]
    | none =>
      by_cases hchild : isGeneratedChildResource e.2 desiredKinds = true
      · simp [classifyLive, hlook, hchild]
      · simp [classifyLive, hlook, hchild]

theorem classifyDiffs_eq : classifyDiffs payloadContains {} desiredMap liveMap =
    compared payloadContains desiredMap liveMap := by
  simp only [classifyDiffs, foldl_classifyDesired, foldl_classifyLive, nil_append]
  rfl
end

theorem compareMaps_eq (payloadContains : PayloadContains) (rules : List IgnoreDiff) (desiredMap liveMap : ObjectMap) :
    compareMaps payloadContains rules desiredMap liveMap =
      (compared payloadContains (mapValues (applyIgnore rules) desiredMap) (mapValues (applyIgnore rules) liveMap)).finish
        (mapValues (applyIgnore rules) liveMap) := by
  simp only [compareMaps, classifyDiffs_eq]

/-! ### Items -/

def comparable (items : List Object) : List Object :=
  items.filter (fun o => !shouldIgnoreLiveResource (manifestObject o))

variable {items : List Object}

theorem mem_comparable {o : Object} :
    o ∈ comparable items ↔ o ∈ items ∧ shouldIgnoreLiveResource (manifestObject o) = false := by
  simp [comparable]

theorem comparable_append (items items' : List Object) :
    comparable (items ++ items') = comparable items ++ comparable items' :=
  filter_append items items'

theorem addItems_eq (m : ObjectMap) (items : List Object) :
    addItems m items = insertAll resourceKey m (comparable items) := by
  simp only [addItems, insertAll, comparable, foldl_filter]
  congr 1
  funext m o
  cases shouldIgnoreLiveResource (manifestObject o) <;> rfl

theorem foldl_addItems {Q : Type} (read : Q → Option (List Object)) (qs : List Q) : ∀ m : ObjectMap,
    qs.foldl (fun m q =>
      match read q with
      | none => m
      | some items => addItems m items) m =
        insertAll resourceKey m (comparable (qs.flatMap fun q => (read q).getD [])) := by
  induction qs with
  | nil => intro m; rfl
  | cons q rest ih =>
    intro m
    rw [foldl_cons, ih, flatMap_cons, comparable_append, insertAll_append]
    cases read q with
    | none => rfl
    | some items =>
      simp only [addItems_eq]
      rfl

namespace ScalableDiffEngine

variable {E : Environment} {opts : DiffOptions} {selector : Selector} {desired : List Object} {o d : Object}

/-- The list that is asked for because of an object. -/
def listedFor (E : Environment) (ns : String) (d : Object) : Option (GVR × String) :=
  match gvrForObjectWithResolver E.resolver d with
  | none => none
  | some gvr => if usesNamedLiveRead gvr then none else some (gvr, queryNamespace ns d)

/-- The name that is asked for because of an object. -/
def namedFor (E : Environment) (d : Object) : Option (GVR × String) :=
  match gvrForObjectWithResolver E.resolver d with
  | none => none
  | some gvr => if usesNamedLiveRead gvr then some (gvr, getName d) else none

variable {qs : List (GVR × String)}

theorem mem_insertNew {q q' : GVR × String} : q ∈ insertNew q' qs ↔ q ∈ qs ∨ q' = q := by
  simp only [insertNew]
  split
  · next h =>
      constructor
      · exact .inl
      · rintro (hq | rfl)
        · exact hq
        · simpa using h
  · simp [eq_comm]

variable {ns : String}

theorem mem_addDesiredResourceQuery {qs : Queries} {q : GVR × String} :
    (q ∈ (addDesiredResourceQuery E ns qs d).listed ↔ q ∈ qs.listed ∨ listedFor E ns d = some q) ∧
      (q ∈ (addDesiredResourceQuery E ns qs d).named ↔ q ∈ qs.named ∨ namedFor E d = some q) := by
  simp only [addDesiredResourceQuery, listedFor, namedFor]
  cases gvrForObjectWithResolver E.resolver d with
  | none => simp
  | some gvr =>
    by_cases hnamed : usesNamedLiveRead gvr = true
    · simp [hnamed, mem_insertNew]
    · simp [hnamed, mem_insertNew]

theorem gvrForObject_ensureManagedLabels (applicationName : String) (d : Object) :
    gvrForObjectWithResolver E.resolver (ensureManagedLabels applicationName d) =
      gvrForObjectWithResolver E.resolver d := by
  have hpayload := payload_ensureManagedLabels applicationName d
  simp only [gvrForObjectWithResolver, getAPIVersion_congr hpayload, getKind_congr hpayload]

theorem listedFor_ensureManagedLabels (applicationName ns : String) (d : Object) :
    listedFor E ns (ensureManagedLabels applicationName d) = listedFor E ns d := by
  simp only [listedFor, gvrForObject_ensureManagedLabels, queryNamespace, namespace_ensureManagedLabels,
    getKind_congr (payload_ensureManagedLabels applicationName d)]

theorem namedFor_ensureManagedLabels (applicationName : String) (d : Object) :
    namedFor E (ensureManagedLabels applicationName d) = namedFor E d := by
  simp only [namedFor, gvrForObject_ensureManagedLabels, name_ensureManagedLabels]

theorem foldl_collectDesired (E : Environment) (opts : DiffOptions) (desired : List Object) : ∀ (m : ObjectMap) (qs : Queries), ∃ queries : Queries,
    desired.foldl (fun acc o =>
        let o := ensureManagedLabels opts.applicationName o
        (acc.1.insert (resourceKey o) o, addDesiredResourceQuery E opts.ns acc.2 o)) (m, qs) =
      (insertAll resourceKey m (desired.map (ensureManagedLabels opts.applicationName)), queries) ∧
    (∀ q, q ∈ queries.listed ↔ q ∈ qs.listed ∨ ∃ d ∈ desired, listedFor E opts.ns d = some q) ∧
      ∀ q, q ∈ queries.named ↔ q ∈ qs.named ∨ ∃ d ∈ desired, namedFor E d = some q := by
  induction desired with
  | nil => exact fun m qs => ⟨qs, rfl, by simp, by simp⟩
  | cons d rest ih =>
    intro m qs
    obtain ⟨queries, heq, hlisted, hnamed⟩ := ih
      (m.insert (resourceKey (ensureManagedLabels opts.applicationName d)) (ensureManagedLabels opts.applicationName d))
      (addDesiredResourceQuery E opts.ns qs (ensureManagedLabels opts.applicationName d))
    refine ⟨queries, heq, ?_, ?_⟩
    · intro q
      rw [hlisted, mem_addDesiredResourceQuery.1, listedFor_ensureManagedLabels, exists_mem_cons_iff, or_assoc]
    · intro q
      rw [hnamed, mem_addDesiredResourceQuery.2, namedFor_ensureManagedLabels, exists_mem_cons_iff, or_assoc]

def namedItems (E : Environment) (selector : Selector) (q : GVR × String) : List Object :=
  match E.get q.1 q.2 with
  | .found o => if selector (getLabels o) then [o] else []
  | _ => []

theorem fetchNamedLiveResources_eq_ok : ∀ {live m : ObjectMap},
    fetchNamedLiveResources E selector qs live = .ok m ↔ (∀ q ∈ qs, E.get q.1 q.2 ≠ .failed) ∧
      m = insertAll resourceKey live (comparable (qs.flatMap (namedItems E selector))) := by
  induction qs with
  | nil =>
    intro live m
    simp [fetchNamedLiveResources, insertAll, comparable, eq_comm]
  | cons q rest ih =>
    intro live m
    obtain ⟨gvr, name⟩ := q
    rw [flatMap_cons, comparable_append, insertAll_append, forall_mem_cons]
    simp only [fetchNamedLiveResources]
    cases hget : E.get gvr name with
    | notFound =>
      have hitems : comparable (namedItems E selector (gvr, name)) = [] := by simp [namedItems, hget, comparable]
      simp [hitems, ih, insertAll]
    | failed => simp
    | found o =>
    by_cases hskip : (shouldIgnoreLiveResource (manifestObject o) || !selector (getLabels o)) = true
    · have hitems : comparable (namedItems E selector (gvr, name)) = [] := by
        simp only [namedItems, hget, comparable]
        split
        · next hsel => simpa [hsel] using hskip
        · rfl
      simp only [if_pos hskip, ih, hitems]
      simp [insertAll]
    · have hitems : comparable (namedItems E selector (gvr, name)) = [o] := by
        simp only [Bool.or_eq_true, not_or, Bool.not_eq_true, Bool.not_eq_false'] at hskip
        simp [namedItems, hget, comparable, hskip]
      simp only [if_neg hskip, ih, hitems]
      simp [insertAll]

/-- What is read for a desired object. -/
def itemsFor (E : Environment) (opts : DiffOptions) (selector : Selector) (d : Object) : List Object :=
  match listedFor E opts.ns d with
  | some q => (readItems E opts selector q.1 q.2).getD []
  | none =>
    match namedFor E d with
    | some q => namedItems E selector q
    | none => []

/-- The desired objects as they are compared, but for the ignore rules. -/
def desiredMap (opts : DiffOptions) (desired : List Object) : ObjectMap :=
  mapValues (ensureManagedLabels opts.applicationName) (ofValues resourceKey (filterHookObjects desired))

def queriesFor (E : Environment) (opts : DiffOptions) (desired : List Object) : Queries :=
  (collectDesired E opts (filterHookObjects desired)).2

theorem collectDesired_fst (E : Environment) (opts : DiffOptions) (desired : List Object) :
    (collectDesired E opts (filterHookObjects desired)).1 = desiredMap opts desired := by
  obtain ⟨queries, heq, -, -⟩ := foldl_collectDesired E opts (filterHookObjects desired) ∅ {}
  rw [collectDesired, heq, desiredMap, ofValues, mapValues_insertAll (key_ensureManagedLabels opts.applicationName)]
  rfl

theorem mem_queriesFor (q : GVR × String) :
    (q ∈ (queriesFor E opts desired).listed ↔ ∃ d ∈ filterHookObjects desired, listedFor E opts.ns d = some q) ∧
      (q ∈ (queriesFor E opts desired).named ↔ ∃ d ∈ filterHookObjects desired, namedFor E d = some q) := by
  obtain ⟨queries, heq, hlisted, hnamed⟩ := foldl_collectDesired E opts (filterHookObjects desired) ∅ {}
  rw [queriesFor, collectDesired, heq]
  exact ⟨by simpa using hlisted q, by simpa using hnamed q⟩

def liveItems (E : Environment) (opts : DiffOptions) (selector : Selector) (desired : List Object) : List Object :=
  comparable ((queriesFor E opts desired).listed.flatMap fun q => (readItems E opts selector q.1 q.2).getD []) ++
    comparable ((queriesFor E opts desired).named.flatMap (namedItems E selector))

/-- **What was read.**  What is not to be ignored, of what is read for the desired objects. -/
theorem mem_liveItems : o ∈ liveItems E opts selector desired ↔ shouldIgnoreLiveResource (manifestObject o) = false ∧
      ∃ d ∈ filterHookObjects desired, o ∈ itemsFor E opts selector d := by
  have hsplit : ∀ d : Object, o ∈ itemsFor E opts selector d ↔
      (∃ q, listedFor E opts.ns d = some q ∧ o ∈ (readItems E opts selector q.1 q.2).getD []) ∨
        ∃ q, namedFor E d = some q ∧ o ∈ namedItems E selector q := by
    intro d
    simp only [itemsFor, listedFor, namedFor]
    cases gvrForObjectWithResolver E.resolver d with
    | none => simp
    | some gvr =>
      by_cases hnamed : usesNamedLiveRead gvr = true
      · simp [hnamed]
      · simp [hnamed]
  simp only [liveItems, mem_append, mem_comparable, mem_flatMap, hsplit, (mem_queriesFor _).1,
    (mem_queriesFor _).2]
  constructor
  · rintro (⟨⟨q, ⟨d, hd, hq⟩, ho⟩, hignored⟩ | ⟨⟨q, ⟨d, hd, hq⟩, ho⟩, hignored⟩)
    · exact ⟨hignored, d, hd, .inl ⟨q, hq, ho⟩⟩
    · exact ⟨hignored, d, hd, .inr ⟨q, hq, ho⟩⟩
  · rintro ⟨hignored, d, hd, ⟨q, hq, ho⟩ | ⟨q, hq, ho⟩⟩
    · exact .inl ⟨⟨q, ⟨d, hd, hq⟩, ho⟩, hignored⟩
    · exact .inr ⟨⟨q, ⟨d, hd, hq⟩, ho⟩, hignored⟩

def comparison (E : Environment) (opts : DiffOptions) (selector : Selector) (desired : List Object) : DiffResult :=
  compareMaps E.payloadContains opts.ignoreDifferences (desiredMap opts desired)
    (ofValues resourceKey (liveItems E opts selector desired))

theorem fetchLiveResources_eq : fetchLiveResources E opts selector (queriesFor E opts desired).listed =
    insertAll resourceKey ∅
      (comparable ((queriesFor E opts desired).listed.flatMap fun q => (readItems E opts selector q.1 q.2).getD [])) :=
  foldl_addItems (fun q : GVR × String => readItems E opts selector q.1 q.2) _ ∅

/-- **A diff is returned** unless the selector is malformed or a read by name fails, and is a comparison of the desired
objects with what was read. -/
theorem computeDiff_eq_ok {r : DiffResult} : computeDiff E desired opts = .ok r ↔
    ∃ selector, E.parseSelector opts.labelSelector = .ok selector ∧
      (∀ d ∈ filterHookObjects desired, ∀ q, namedFor E d = some q → E.get q.1 q.2 ≠ .failed) ∧
        r = comparison E opts selector desired := by
  have hnamed : (∀ q ∈ (queriesFor E opts desired).named, E.get q.1 q.2 ≠ .failed) ↔
      ∀ d ∈ filterHookObjects desired, ∀ q, namedFor E d = some q → E.get q.1 q.2 ≠ .failed := by
    simp only [(mem_queriesFor _).2]
    exact ⟨fun h d hd q hq => h q ⟨d, hd, hq⟩, fun h q ⟨d, hd, hq⟩ => h d hd q hq⟩
  simp only [computeDiff, collectDesired_fst, ← hnamed]
  cases E.parseSelector opts.labelSelector with
  | error e => simp
  | ok selector =>
  have hlive : ∀ m : ObjectMap, fetchNamedLiveResources E selector (queriesFor E opts desired).named
          (fetchLiveResources E opts selector (queriesFor E opts desired).listed) = .ok m ↔
        (∀ q ∈ (queriesFor E opts desired).named, E.get q.1 q.2 ≠ .failed) ∧
          m = ofValues resourceKey (liveItems E opts selector desired) := by
    intro m
    rw [fetchNamedLiveResources_eq_ok, fetchLiveResources_eq, ← insertAll_append]
    rfl
  rw [← queriesFor]
  simp only [Except.ok.injEq, exists_eq_left']
  split
  · next e herror =>
      have hfail : ¬ ∀ q ∈ (queriesFor E opts desired).named, E.get q.1 q.2 ≠ .failed := by
        intro hgets
        rw [(hlive _).mpr ⟨hgets, rfl⟩] at herror
        cases herror
      simp only [reduceCtorEq, false_iff]
      exact fun h => hfail h.1
  · next m hm =>
      obtain ⟨hgets, rfl⟩ := (hlive m).mp hm
      simp only [Except.ok.injEq, comparison]
      exact ⟨fun h => ⟨hgets, h.symm⟩, fun h => h.2.symm⟩

/-! ### Reads that are answered -/

/-- A list request through the cache is answered: by an informer that has synced, or by the API server. -/
def Answers (E : Environment) (gvr : GVR) (ns : String) : Prop :=
  match E.liveCache with
  | none => E.listFails gvr ns = false
  | some looks =>
    match getInformer (looks gvr ns) with
    | none => E.listFails gvr ns = false
    | some informer => informer.hasSynced = true

theorem mem_readItems {gvr : GVR}
    (h : readItems E opts selector gvr ns = some items) (ho : o ∈ items) :
    o ∈ E.cluster.objects gvr ∧ selector (getLabels o) = true ∧ inNamespace ns o = true := by
  have hlist : E.list gvr ns (fun o => selector (getLabels o) && E.fieldSelects opts.fieldSelector o) = some items →
      o ∈ E.cluster.objects gvr ∧ selector (getLabels o) = true ∧ inNamespace ns o = true := by
    intro hlist
    simp only [Environment.list] at hlist
    split_ifs at hlist
    cases hlist
    simp only [mem_filter, Bool.and_eq_true] at ho
    exact ⟨ho.1, ho.2.1.1, ho.2.2⟩
  cases hcache : E.liveCache with
  | none =>
    simp only [readItems, hcache] at h
    exact hlist h
  | some looks =>
  cases hinformer : getInformer (looks gvr ns) with
  | none =>
    simp only [readItems, hcache, LiveResourceCache.get, hinformer, Option.map_none] at h
    exact hlist h
  | some informer =>
  simp only [readItems, hcache, LiveResourceCache.get, hinformer, Option.map_some] at h
  cases h
  simp only [mem_filter, Bool.and_eq_true] at ho
  exact ⟨informer.live o ho.1, ho.2.1, ho.2.2⟩

theorem readItems_of_answers (opts : DiffOptions) (selector : Selector) {gvr : GVR} (h : Answers E gvr ns)
    (hscope : ns = "" ∨ E.cluster.namespaced gvr = true) :
    ∃ items, readItems E opts selector gvr ns = some items ∧
      ∀ o ∈ E.cluster.objects gvr, selector (getLabels o) = true → E.fieldSelects opts.fieldSelector o = true →
        inNamespace ns o = true → o ∈ items := by
  have hlist : E.listFails gvr ns = false → ∃ items,
      E.list gvr ns (fun o => selector (getLabels o) && E.fieldSelects opts.fieldSelector o) = some items ∧
        ∀ o ∈ E.cluster.objects gvr, selector (getLabels o) = true → E.fieldSelects opts.fieldSelector o = true →
          inNamespace ns o = true → o ∈ items := by
    intro hanswer
    have hallow : (ns != "" && !E.cluster.namespaced gvr) = false := by
      rcases hscope with rfl | hscope
      · rfl
      · simp [hscope]
    refine ⟨_, by rw [Environment.list, hanswer, hallow]; rfl, ?_⟩
    intro o ho hsel hfields hns
    simp [ho, hsel, hfields, hns]
  simp only [Answers] at h
  cases hcache : E.liveCache with
  | none =>
    simp only [hcache] at h
    simpa only [readItems, hcache] using hlist h
  | some looks =>
  simp only [hcache] at h
  cases hinformer : getInformer (looks gvr ns) with
  | none =>
    simp only [hinformer] at h
    simpa only [readItems, hcache, LiveResourceCache.get, hinformer, Option.map_none] using hlist h
  | some informer =>
  simp only [hinformer] at h
  refine ⟨informer.store.filter fun o => selector (getLabels o) && inNamespace ns o, ?_, ?_⟩
  · simp only [readItems, hcache, LiveResourceCache.get, hinformer, Option.map_some]
  · intro o ho hsel _ hns
    simp [informer.complete h o ho, hsel, hns]

end ScalableDiffEngine

end Paprika.Engine
