import Mathlib.Algebra.Order.BigOperators.Group.Finset
import Paprika.Fleet.Search

/-!
# Fleet: filters and facets

A query authorizes first, searches in what is authorized, and then keeps the applications that are in a posting of every
dimension that the filter selects in (`filterApplications`).  The facets count, in each dimension, the values of the
applications that pass the filter of every other dimension (`facets`).

`mem_filterApplications` says which applications a query keeps, and `mem_facets` what the buckets count.
-/

namespace Paprika.Fleet

open Lib.InvertedIndex List

/-! ### Scopes and filters -/

inductive Capability
  | unspecified
  | applicationSync
  | releaseRollback
  | gateApprove
  | pipelineRetry
  | resourcePatch
  | driftIgnore
  deriving DecidableEq

/-- `QueryScope`: the projects that a caller may read, and what it may do in each. -/
structure QueryScope where
  projects : Finset ObjectKey
  capabilitiesByProject : Table ObjectKey (Finset Capability)

def QueryScope.sortedCapabilities (scope : QueryScope) (project : ObjectKey) : List Capability :=
  if project ∉ scope.projects then []
  else [Capability.applicationSync, .releaseRollback, .gateApprove, .pipelineRetry, .resourcePatch, .driftIgnore].filter
    (fun c => c ∈ (scope.capabilitiesByProject.lookup project).getD ∅)

/-- The rest of `compactSorted`, after the last value that is kept. -/
def compactAfter {α : Type} [DecidableEq α] (last : α) : List α → List α
  | [] => []
  | x :: xs => if x = last then compactAfter last xs else x :: compactAfter x xs

def compactSorted {α : Type} [DecidableEq α] : List α → List α
  | [] => []
  | x :: xs => x :: compactAfter x xs

/-- `sortedUniqueOrdered` and `sortedUniqueObjectKeys`: sorted by a key, each value once. -/
def sortedUnique {α β : Type} [DecidableEq α] [LinearOrder β] (key : α → β) (values : List α) : List α :=
  compactSorted (values.mergeSort (fun a b => decide (key a ≤ key b)))

structure ApplicationFilter where
  projects : List ObjectKey
  namespaces : List String
  clusters : List ObjectKey
  stages : List String
  health : List Health
  sync : List SyncState
  releaseStates : List ReleaseState
  rolloutStates : List RolloutState
  sourceTypes : List SourceType
  deriving DecidableEq

/-- The filter that selects nothing. -/
def ApplicationFilter.empty : ApplicationFilter :=
  { projects := [], namespaces := [], clusters := [], stages := [], health := [], sync := [], releaseStates := [],
    rolloutStates := [], sourceTypes := [] }

def ApplicationFilter.normalized (f : ApplicationFilter) : ApplicationFilter :=
  { projects := sortedUnique id f.projects
    namespaces := sortedUnique id f.namespaces
    clusters := sortedUnique id f.clusters
    stages := sortedUnique id f.stages
    health := sortedUnique Health.ctorIdx f.health
    sync := sortedUnique SyncState.ctorIdx f.sync
    releaseStates := sortedUnique ReleaseState.ctorIdx f.releaseStates
    rolloutStates := sortedUnique RolloutState.ctorIdx f.rolloutStates
    sourceTypes := sortedUnique SourceType.ctorIdx f.sourceTypes }

inductive FacetDimension
  | project
  | inNamespace
  | cluster
  | stage
  | health
  | sync
  | release
  | rollout
  | sourceType
  deriving DecidableEq

def facetDimensions : List FacetDimension :=
  [.project, .inNamespace, .cluster, .stage, .health, .sync, .release, .rollout, .sourceType]

def FacetDimension.index : FacetDimension → IndexName
  | .project => .project
  | .inNamespace => .inNamespace
  | .cluster => .cluster
  | .stage => .stage
  | .health => .health
  | .sync => .sync
  | .release => .release
  | .rollout => .rollout
  | .sourceType => .sourceType

def ApplicationFilter.selected (f : ApplicationFilter) : (d : FacetDimension) → List d.index.Key
  | .project => f.projects
  | .inNamespace => f.namespaces
  | .cluster => f.clusters
  | .stage => f.stages
  | .health => f.health
  | .sync => f.sync
  | .release => f.releaseStates
  | .rollout => f.rolloutStates
  | .sourceType => f.sourceTypes

/-! ### Filtering -/

structure FilterResult where
  ids : IDSet
  found : Table ObjectKey SearchMatch

section
variable (s : Snapshot)

def unionPostings {κ : Type} [DecidableEq κ] (index : Index κ ObjectKey) (selected : List κ) : IDSet :=
  selected.foldl (fun union k => union ∪ posting index k) ∅

def intersectPostings {κ : Type} [DecidableEq κ] (candidates : IDSet) (index : Index κ ObjectKey)
    (selected : List κ) : IDSet :=
  if selected = [] then candidates else candidates ∩ unionPostings index selected

def authorizedSearch (u : Unicode) (scope : QueryScope) (text : List Char) :
    Except InvalidSearchError FilterResult := do
  let authorized := unionPostings (s.maps.index .project) (sortedIDs scope.projects)
  let found ← search s u text authorized
  return {
    ids := (found.map SearchMatch.identity).toFinset
    found := found.foldl (fun table m => table.insert m.identity m) ∅ }

def filterDimension (filter : ApplicationFilter) (ids : IDSet) (d : FacetDimension) : IDSet :=
  intersectPostings ids (s.maps.index d.index) (filter.selected d)

def filterApplications (u : Unicode) (scope : QueryScope) (filter : ApplicationFilter) (text : List Char) :
    Except InvalidSearchError FilterResult := do
  let searched ← authorizedSearch s u scope text
  let ids := facetDimensions.foldl (filterDimension s filter.normalized) searched.ids
  return {
    ids := ids
    found := (sortedIDs ids).foldl (fun table id =>
      match searched.found.lookup id with
      | some m => table.insert id m
      | none => table) ∅ }

/-! ### Facets -/

structure FacetBucket where
  dimension : FacetDimension
  object : ObjectKey
  value : String
  label : String
  count : Nat
  deriving DecidableEq

def facetCandidates (base : IDSet) (filter : ApplicationFilter) (own : FacetDimension) : IDSet :=
  (facetDimensions.filter (· ≠ own)).foldl (filterDimension s filter) base

def canonicalHealth : Health → String
  | .healthy => "healthy"
  | .progressing => "progressing"
  | .degraded => "degraded"
  | .failed => "failed"
  | .unknown => "unknown"
  | .missing => "missing"
  | .unspecified => ""

def canonicalSync : SyncState → String
  | .synced => "synced"
  | .outOfSync => "out_of_sync"
  | .unknown => "unknown"
  | .unspecified => ""

def canonicalRelease : ReleaseState → String
  | .unspecified => ""
  | .pending => "pending"
  | .promoting => "promoting"
  | .canarying => "canarying"
  | .verifying => "verifying"
  | .complete => "complete"
  | .failed => "failed"
  | .rolledBack => "rolled_back"
  | .superseded => "superseded"
  | .awaitingApproval => "awaiting_approval"

def canonicalRollout : RolloutState → String
  | .unspecified => ""
  | .pending => "pending"
  | .progressing => "progressing"
  | .paused => "paused"
  | .healthy => "healthy"
  | .degraded => "degraded"
  | .failed => "failed"
  | .rolledBack => "rolled_back"
  | .aborted => "aborted"

def canonicalSourceType : SourceType → String
  | .git => "git"
  | .helm => "helm"
  | .kustomize => "kustomize"
  | .s3 => "s3"
  | .oci => "oci"
  | .inlineSource => "inline"
  | .unspecified => ""

/-- A record, the zero value where there is none. -/
def applicationAt (id : ObjectKey) : ApplicationSummary := (s.applications.lookup id).getD .zero

/-- What an application counts for in a dimension that has objects as its values. -/
def objectValues (d : FacetDimension) (id : ObjectKey) : List ObjectKey :=
  match d with
  | .project => [(applicationAt s id).project].filter (· ≠ .zero)
  | .cluster => (((applicationAt s id).targets.map StageTargetSummary.cluster).filter (· ≠ .zero)).dedup
  | _ => []

/-- What an application counts for in a dimension that has texts as its values. -/
def scalarValues (d : FacetDimension) (id : ObjectKey) : List String :=
  match d with
  | .inNamespace => [id.inNamespace].filter (· ≠ "")
  | .stage => (((applicationAt s id).targets.map StageTargetSummary.stage).filter (· ≠ "")).dedup
  | .health => [canonicalHealth (applicationAt s id).health].filter (· ≠ "")
  | .sync => [canonicalSync (applicationAt s id).sync].filter (· ≠ "")
  | .release => [canonicalRelease (applicationAt s id).releaseState].filter (· ≠ "")
  | .rollout => [canonicalRollout (applicationAt s id).rolloutState].filter (· ≠ "")
  | .sourceType => [canonicalSourceType (applicationAt s id).sourceType].filter (· ≠ "")
  | .project | .cluster => []

def clusterLabel (key : ObjectKey) : String :=
  let label := ((s.clusters.lookup key).map ClusterSummary.displayName).getD ""
  if label ≠ "" then label else key.name

/-- Count one more of a value. -/
def bump {κ : Type} [DecidableEq κ] (counts : Table κ Nat) (k : κ) : Table κ Nat :=
  counts.insert k ((counts.lookup k).getD 0 + 1)

/-- How many applications count for each value. -/
def countValues {κ : Type} [DecidableEq κ] (values : ObjectKey → List κ) (ids : IDSet) : Table κ Nat :=
  (sortedIDs ids).foldl (fun counts id => (values id).foldl bump counts) ∅

def bucketsOf {κ : Type} [LinearOrder κ] (bucket : κ → Nat → FacetBucket) (counts : Table κ Nat) : List FacetBucket :=
  (counts.keys.sort (· ≤ ·)).map (fun k => bucket k ((counts.lookup k).getD 0))

def objectFacetBuckets (d : FacetDimension) (label : ObjectKey → String) (ids : IDSet) : List FacetBucket :=
  bucketsOf (fun key count => { dimension := d, object := key, value := "", label := label key, count := count })
    (countValues (objectValues s d) ids)

def scalarFacetBuckets (d : FacetDimension) (ids : IDSet) : List FacetBucket :=
  bucketsOf (fun key count => { dimension := d, object := .zero, value := key, label := key, count := count })
    (countValues (scalarValues s d) ids)

def facetBuckets (ids : IDSet) : FacetDimension → List FacetBucket
  | .project => objectFacetBuckets s .project ObjectKey.name ids
  | .cluster => objectFacetBuckets s .cluster (clusterLabel s) ids
  | d => scalarFacetBuckets s d ids

def facets (u : Unicode) (scope : QueryScope) (filter : ApplicationFilter) (text : List Char) :
    Except InvalidSearchError (List FacetBucket) := do
  let searched ← authorizedSearch s u scope text
  return facetDimensions.flatMap (fun d => facetBuckets s (facetCandidates s searched.ids filter.normalized d) d)
end

/-! ### What a query keeps -/

section
variable {α β : Type} [DecidableEq α] [LinearOrder β]

theorem mem_compactAfter {x : α} (values : List α) : ∀ last : α,
    x ∈ last :: compactAfter last values ↔ x ∈ last :: values := by
  induction values with
  | nil => exact fun _ => Iff.rfl
  | cons y ys ih =>
    intro last
    rw [compactAfter]
    by_cases hy : y = last
    · subst hy
      rw [if_pos rfl, ih, mem_cons, mem_cons, mem_cons]
      tauto
    · rw [if_neg hy, mem_cons, ih, ← mem_cons]

theorem mem_sortedUnique (key : α → β) (values : List α) (x : α) : x ∈ sortedUnique key values ↔ x ∈ values := by
  rw [sortedUnique, ← (mergeSort_perm values (fun a b => decide (key a ≤ key b))).mem_iff]
  cases values.mergeSort (fun a b => decide (key a ≤ key b)) with
  | nil => exact Iff.rfl
  | cons y ys => exact mem_compactAfter ys y

theorem sortedUnique_eq_nil (key : α → β) (values : List α) : sortedUnique key values = [] ↔ values = [] := by
  rw [eq_nil_iff_forall_not_mem, eq_nil_iff_forall_not_mem]
  simp only [mem_sortedUnique]
end

section
variable {s : Snapshot} {u : Unicode} {scope : QueryScope} {filter : ApplicationFilter} {id : ObjectKey}

theorem mem_unionPostings {κ : Type} [DecidableEq κ] {index : Index κ ObjectKey} {selected : List κ} :
    id ∈ unionPostings index selected ↔ ∃ k ∈ selected, id ∈ posting index k := by
  have hstep : ∀ (ks : List κ) (union : IDSet), id ∈ ks.foldl (fun union k => union ∪ posting index k) union ↔
      id ∈ union ∨ ∃ k ∈ ks, id ∈ posting index k := by
    intro ks
    induction ks with
    | nil => simp
    | cons k ks ih =>
      intro union
      rw [foldl_cons, ih, Finset.mem_union, exists_mem_cons_iff]
      tauto
  rw [unionPostings, hstep]
  simp

def Selects (s : Snapshot) (filter : ApplicationFilter) (id : ObjectKey) (d : FacetDimension) : Prop :=
  filter.selected d = [] ∨ ∃ k ∈ filter.selected d, id ∈ posting (s.maps.index d.index) k

theorem mem_filterDimension {ids : IDSet} {d : FacetDimension} :
    id ∈ filterDimension s filter ids d ↔ id ∈ ids ∧ Selects s filter id d := by
  rw [filterDimension, intersectPostings, Selects]
  by_cases hnil : filter.selected d = []
  · simp [hnil]
  · rw [if_neg hnil, Finset.mem_inter, mem_unionPostings]
    simp [hnil]

theorem mem_foldl_filterDimension (ds : List FacetDimension) : ∀ ids : IDSet,
    id ∈ ds.foldl (filterDimension s filter) ids ↔ id ∈ ids ∧ ∀ d ∈ ds, Selects s filter id d := by
  induction ds with
  | nil => simp
  | cons d ds ih =>
    intro ids
    rw [foldl_cons, ih, mem_filterDimension, forall_mem_cons]
    tauto

theorem selects_normalized (d : FacetDimension) : Selects s filter.normalized id d ↔ Selects s filter id d := by
  cases d <;>
    exact or_congr (sortedUnique_eq_nil _ _) (exists_congr fun k => and_congr_left fun _ => mem_sortedUnique _ _ k)

theorem mem_facetDimensions (d : FacetDimension) : d ∈ facetDimensions := by cases d <;> decide

/-- What a caller may read. -/
def authorized (s : Snapshot) (scope : QueryScope) : IDSet :=
  unionPostings (s.maps.index .project) (sortedIDs scope.projects)

theorem mem_readable
    (h : Inverse (fun _ a => indexKeysForApplication a .project) s.applications (s.maps.index .project)) :
    id ∈ intersectApplications s (authorized s scope) ↔
      ∃ a, s.applications.lookup id = some a ∧ a.project ∈ scope.projects := by
  rw [intersectApplications, Finset.mem_filter, authorized]
  refine (and_congr_left' mem_unionPostings).trans ⟨?_, ?_⟩
  · rintro ⟨⟨k, hk, hposting⟩, -⟩
    obtain ⟨a, ha, hproj⟩ := (h.mem k id).mp hposting
    exact ⟨a, ha, mem_singleton.mp hproj ▸ mem_sortedIDs.mp hk⟩
  · rintro ⟨a, ha, hproj⟩
    have hposting := (h.mem a.project id).mpr ⟨a, ha, mem_singleton_self _⟩
    exact ⟨⟨a.project, mem_sortedIDs.mpr hproj, hposting⟩, Finmap.mem_of_lookup_eq_some ha⟩

/-- The match of an application that the caller may read. -/
def matchIn (s : Snapshot) (scope : QueryScope) (query : List Char) (fuzzy : Bool) (id : ObjectKey) :
    Option SearchMatch :=
  if id ∈ intersectApplications s (authorized s scope) then matchOf s query fuzzy id else none

theorem lookup_foldl_insert (find : ObjectKey → Option SearchMatch) (ms : List SearchMatch) :
    ∀ table : Table ObjectKey SearchMatch, (∀ m ∈ ms, find m.identity = some m) →
      (ms.foldl (fun table m => table.insert m.identity m) table).lookup id =
        if ∃ m ∈ ms, m.identity = id then find id else table.lookup id := by
  induction ms with
  | nil => simp
  | cons m ms ih =>
    intro table hfind
    rw [foldl_cons, ih _ (fun x hx => hfind x (mem_cons_of_mem m hx)), lookup_insert_eq]
    by_cases hrest : ∃ x ∈ ms, x.identity = id
    · obtain ⟨x, hx, hid⟩ := hrest
      rw [if_pos ⟨x, hx, hid⟩, if_pos ⟨x, mem_cons_of_mem m hx, hid⟩]
    rw [if_neg hrest]
    by_cases hid : id = m.identity
    · rw [if_pos hid, if_pos ⟨m, mem_cons_self, hid.symm⟩, hid, hfind m mem_cons_self]
    rw [if_neg hid, if_neg]
    rintro ⟨x, hx, heq⟩
    obtain rfl | hx := mem_cons.mp hx
    · exact hid heq.symm
    · exact hrest ⟨x, hx, heq⟩

variable {query text : List Char}

theorem search_ok (candidates : IDSet) (hquery : normalizeSearch u text = .ok query) :
    ∃ found, search s u text candidates = .ok found := by
  simp only [search, hquery, bind, Except.bind, pure, Except.pure]
  split
  · exact ⟨_, rfl⟩
  · split
    · exact ⟨_, rfl⟩
    · exact ⟨_, rfl⟩

/-- **What a search finds within the scope.** -/
theorem authorizedSearch_ok (s : Snapshot) (scope : QueryScope) (hquery : normalizeSearch u text = .ok query) :
    ∃ r, authorizedSearch s u scope text = .ok r ∧
      (∀ id, id ∈ r.ids ↔ matchIn s scope query (decide ('/' ∉ text)) id ≠ none) ∧
      ∀ id, r.found.lookup id = matchIn s scope query (decide ('/' ∉ text)) id := by
  obtain ⟨found, hfound⟩ := search_ok (s := s) (authorized s scope) hquery
  have hmem : ∀ m, m ∈ found ↔ matchIn s scope query (decide ('/' ∉ text)) m.identity = some m := by
    intro m
    rw [mem_search hquery hfound, matchIn]
    by_cases hin : m.identity ∈ intersectApplications s (authorized s scope)
    · simp only [hin, true_and, if_true]
    · simp [hin]
  have hident : ∀ id m, matchIn s scope query (decide ('/' ∉ text)) id = some m → m.identity = id := by
    intro id m hm
    rw [matchIn] at hm
    split at hm
    · exact identity_matchOf hm
    · cases hm
  have hexists : ∀ id, (∃ m ∈ found, m.identity = id) ↔ matchIn s scope query (decide ('/' ∉ text)) id ≠ none := by
    intro id
    constructor
    · rintro ⟨m, hm, rfl⟩
      rw [(hmem m).mp hm]
      exact Option.some_ne_none m
    · intro hne
      obtain ⟨m, hm⟩ := Option.ne_none_iff_exists'.mp hne
      have hid := hident id m hm
      exact ⟨m, (hmem m).mpr (hid ▸ hm), hid⟩
  refine ⟨_, by rw [authorizedSearch, ← authorized, hfound]; rfl, ?_, ?_⟩
  · intro id
    rw [mem_toFinset, mem_map]
    exact hexists id
  intro id
  dsimp only
  rw [lookup_foldl_insert (matchIn s scope query (decide ('/' ∉ text))) found ∅ (fun m hm => (hmem m).mp hm)]
  by_cases hsome : ∃ m ∈ found, m.identity = id
  · rw [if_pos hsome]
  · rw [if_neg hsome, not_not.mp (fun hne => hsome ((hexists id).mpr hne))]
    rfl

/-- **What a query keeps.** -/
theorem filterApplications_ok (s : Snapshot) (scope : QueryScope) (filter : ApplicationFilter) (hquery : normalizeSearch u text = .ok query) :
    ∃ r, filterApplications s u scope filter text = .ok r ∧
      (∀ id, id ∈ r.ids ↔ matchIn s scope query (decide ('/' ∉ text)) id ≠ none ∧ ∀ d, Selects s filter id d) ∧
      ∀ id, r.found.lookup id = if id ∈ r.ids then matchIn s scope query (decide ('/' ∉ text)) id else none := by
  obtain ⟨searched, hsearch, hids, hfound⟩ := authorizedSearch_ok s scope hquery
  refine ⟨_, by rw [filterApplications, hsearch]; rfl, ?_, ?_⟩
  · intro id
    dsimp only
    rw [mem_foldl_filterDimension, hids]
    simp only [selects_normalized, mem_facetDimensions, true_implies]
  intro id
  have hstep : ∀ (ids : List ObjectKey) (table : Table ObjectKey SearchMatch), (ids.foldl (fun table id =>
        match searched.found.lookup id with
        | some m => table.insert id m
        | none => table) table).lookup id =
      if id ∈ ids ∧ searched.found.lookup id ≠ none then searched.found.lookup id else table.lookup id := by
    intro ids
    induction ids with
    | nil => simp
    | cons j ids ih =>
      intro table
      rw [foldl_cons, ih]
      by_cases hid : id = j
      · subst hid
        cases hlook : searched.found.lookup id with
        | none => simp
        | some m => simp
      · cases searched.found.lookup j with
        | none => simp [hid]
        | some m => simp [hid]
  dsimp only
  rw [hstep, hfound]
  simp only [mem_sortedIDs]
  cases hmatch : matchIn s scope query (decide ('/' ∉ text)) id with
  | none => simp
  | some m => simp
end

/-! ### What the buckets count -/

section
variable {κ : Type}

def occurrences [DecidableEq κ] (values : ObjectKey → List κ) (ids : IDSet) (k : κ) : Nat :=
  ∑ id ∈ ids, (values id).count k

theorem lookup_foldl_bump [DecidableEq κ] (ks : List κ) (k : κ) : ∀ counts : Table κ Nat,
    (ks.foldl bump counts).lookup k =
      if ks.count k = 0 then counts.lookup k else some ((counts.lookup k).getD 0 + ks.count k) := by
  induction ks with
  | nil => exact fun _ => rfl
  | cons j ks ih =>
    intro counts
    rw [foldl_cons, ih, bump, lookup_insert_eq]
    by_cases hj : k = j
    · subst hj
      rw [count_cons_self, if_pos rfl, if_neg (Nat.succ_ne_zero _)]
      by_cases hzero : ks.count k = 0
      · rw [if_pos hzero, hzero]
      · rw [if_neg hzero, Option.getD_some]
        exact congrArg some (by omega)
    · rw [count_cons_of_ne (Ne.symm hj), if_neg hj]

/-- **A count is how often its value occurs**, and nothing is counted that does not. -/
theorem lookup_countValues [DecidableEq κ] (values : ObjectKey → List κ) (ids : IDSet) (k : κ) :
    (countValues values ids).lookup k =
      if occurrences values ids k = 0 then none else some (occurrences values ids k) := by
  have hflat : ∀ (js : List ObjectKey) (counts : Table κ Nat),
      js.foldl (fun counts id => (values id).foldl bump counts) counts = (js.flatMap values).foldl bump counts := by
    intro js
    induction js with
    | nil => exact fun _ => rfl
    | cons j js ih =>
      intro counts
      rw [foldl_cons, ih, flatMap_cons, foldl_append]
  have hsum : ((sortedIDs ids).flatMap values).count k = occurrences values ids k := by
    rw [count_flatMap, occurrences, ← Finset.sum_map_toList]
    exact ((Finset.sort_perm_toList ids (· ≤ ·)).map _).sum_eq
  rw [countValues, hflat, lookup_foldl_bump, hsum, Finmap.lookup_empty, Option.getD_none, Nat.zero_add]

theorem mem_bucketsOf [LinearOrder κ] {bucket : κ → Nat → FacetBucket} {counts : Table κ Nat} {b : FacetBucket} :
    b ∈ bucketsOf bucket counts ↔ ∃ k n, counts.lookup k = some n ∧ b = bucket k n := by
  rw [bucketsOf, mem_map]
  simp only [Finset.mem_sort, Finmap.mem_keys, Finmap.mem_iff]
  constructor
  · rintro ⟨k, ⟨n, hn⟩, rfl⟩
    exact ⟨k, n, hn, by rw [hn]; rfl⟩
  · rintro ⟨k, n, hn, rfl⟩
    exact ⟨k, ⟨n, hn⟩, by rw [hn]; rfl⟩

/-- **More applications make the same buckets exactly if the others count for nothing.** -/
theorem bucketsOf_countValues_eq_iff [LinearOrder κ] {bucket : κ → Nat → FacetBucket} {values : ObjectKey → List κ}
    {ids whole : IDSet} (hbucket : ∀ k n k' n', bucket k n = bucket k' n' → k = k' ∧ n = n') (hsub : ids ⊆ whole) :
    bucketsOf bucket (countValues values ids) = bucketsOf bucket (countValues values whole) ↔
      ∀ id ∈ whole, id ∉ ids → values id = [] := by
  have hsplit : ∀ k, occurrences values whole k = occurrences values (whole \ ids) k + occurrences values ids k :=
    fun k => (Finset.sum_sdiff hsub).symm
  constructor
  · intro heq id hid hnot
    by_contra hne
    obtain ⟨k, hk⟩ := exists_mem_of_ne_nil _ hne
    have hmore : 0 < occurrences values (whole \ ids) k := by
      have hone : (values id).count k ≤ occurrences values (whole \ ids) k :=
        Finset.single_le_sum (f := fun id => (values id).count k) (fun _ _ => Nat.zero_le _)
          (Finset.mem_sdiff.mpr ⟨hid, hnot⟩)
      have hpos := count_pos_iff.mpr hk
      omega
    have hcount : occurrences values whole k ≠ 0 := by
      have := hsplit k
      omega
    have hmem : bucket k (occurrences values whole k) ∈ bucketsOf bucket (countValues values whole) := by
      refine mem_bucketsOf.mpr ⟨k, _, ?_, rfl⟩
      rw [lookup_countValues, if_neg hcount]
    rw [← heq, mem_bucketsOf] at hmem
    obtain ⟨k', n', hlook, hsame⟩ := hmem
    obtain ⟨rfl, rfl⟩ := hbucket _ _ _ _ hsame
    rw [lookup_countValues] at hlook
    split at hlook
    · cases hlook
    · have hn := Option.some.inj hlook
      have := hsplit k
      omega
  · intro hnone
    refine congrArg _ (Finmap.ext_lookup fun k => ?_)
    have hzero : occurrences values (whole \ ids) k = 0 := by
      refine Finset.sum_eq_zero ?_
      intro id hid
      obtain ⟨hin, hnot⟩ := Finset.mem_sdiff.mp hid
      rw [hnone id hin hnot]
      rfl
    rw [lookup_countValues, lookup_countValues, hsplit, hzero, Nat.zero_add]
end

section
variable {s : Snapshot} {u : Unicode}

/-- The application counts for nothing in a dimension. -/
def Uncounted (s : Snapshot) (d : FacetDimension) (id : ObjectKey) : Prop :=
  objectValues s d id = [] ∧ scalarValues s d id = []

theorem dimension_facetBuckets {ids : IDSet} (d : FacetDimension) : ∀ b ∈ facetBuckets s ids d, b.dimension = d := by
  intro b hb
  cases d <;>
    · obtain ⟨k, n, -, rfl⟩ := mem_bucketsOf.mp hb
      rfl

theorem facetBuckets_eq_iff {ids whole : IDSet} (hsub : ids ⊆ whole) (d : FacetDimension) :
    facetBuckets s ids d = facetBuckets s whole d ↔ ∀ id ∈ whole, id ∉ ids → Uncounted s d id := by
  have hobj : ∀ (d : FacetDimension) (label : ObjectKey → String), (∀ id, scalarValues s d id = []) →
      (objectFacetBuckets s d label ids = objectFacetBuckets s d label whole ↔
        ∀ id ∈ whole, id ∉ ids → Uncounted s d id) := by
    intro d label hscalar
    refine (bucketsOf_countValues_eq_iff (fun k n k' n' h => ?_) hsub).trans ?_
    · injection h with _ hk _ _ hn
      exact ⟨hk, hn⟩
    · simp only [Uncounted, hscalar, and_true]
  have hscalar : ∀ d : FacetDimension, (∀ id, objectValues s d id = []) →
      (scalarFacetBuckets s d ids = scalarFacetBuckets s d whole ↔ ∀ id ∈ whole, id ∉ ids → Uncounted s d id) := by
    intro d hobj
    refine (bucketsOf_countValues_eq_iff (fun k n k' n' h => ?_) hsub).trans ?_
    · injection h with _ _ hk _ hn
      exact ⟨hk, hn⟩
    · simp only [Uncounted, hobj, true_and]
  cases d with
  | project => exact hobj .project _ (fun _ => rfl)
  | cluster => exact hobj .cluster _ (fun _ => rfl)
  | _ => exact hscalar _ (fun _ => rfl)

theorem filter_flatMap_dimension {buckets : FacetDimension → List FacetBucket}
    (hdimension : ∀ d, ∀ b ∈ buckets d, b.dimension = d) (d : FacetDimension) (ds : List FacetDimension)
    (hdist : ds.Nodup) :
    (ds.flatMap buckets).filter (fun b => b.dimension = d) = if d ∈ ds then buckets d else [] := by
  induction ds with
  | nil => rfl
  | cons e ds ih =>
    rw [nodup_cons] at hdist
    rw [flatMap_cons, filter_append, ih hdist.2]
    by_cases he : d = e
    · subst he
      rw [if_neg hdist.1, if_pos mem_cons_self, append_nil, filter_eq_self]
      intro b hb
      exact decide_eq_true (hdimension d b hb)
    have hnone : (buckets e).filter (fun b => b.dimension = d) = [] := by
      rw [filter_eq_nil_iff]
      intro b hb hd
      rw [hdimension e b hb] at hd
      exact he (of_decide_eq_true hd).symm
    rw [hnone, nil_append]
    simp only [mem_cons, he, false_or]

/-- **More applications make the same facets exactly if, in each dimension, the others count for nothing.** -/
theorem flatMap_facetBuckets_eq_iff {candidates candidates' : FacetDimension → IDSet}
    (hsub : ∀ d, candidates d ⊆ candidates' d) :
    facetDimensions.flatMap (fun d => facetBuckets s (candidates d) d) =
        facetDimensions.flatMap (fun d => facetBuckets s (candidates' d) d) ↔
      ∀ d, ∀ id ∈ candidates' d, id ∉ candidates d → Uncounted s d id := by
  constructor
  · intro heq d
    rw [← facetBuckets_eq_iff (hsub d)]
    have hpart := congrArg (List.filter (fun b => b.dimension = d)) heq
    rw [filter_flatMap_dimension (fun d => dimension_facetBuckets d) d facetDimensions (by decide),
      filter_flatMap_dimension (fun d => dimension_facetBuckets d) d facetDimensions (by decide),
      if_pos (mem_facetDimensions d), if_pos (mem_facetDimensions d)] at hpart
    exact hpart
  · intro hnone
    exact flatMap_congr fun d _ => (facetBuckets_eq_iff (hsub d) d).mpr (hnone d)

/-- **What the facets are made of.** -/
theorem facets_ok (s : Snapshot) (scope : QueryScope) (filter : ApplicationFilter) {text query : List Char}
    (hquery : normalizeSearch u text = .ok query) :
    ∃ candidates : FacetDimension → IDSet,
      facets s u scope filter text = .ok (facetDimensions.flatMap (fun d => facetBuckets s (candidates d) d)) ∧
      ∀ d id, id ∈ candidates d ↔
        matchIn s scope query (decide ('/' ∉ text)) id ≠ none ∧ ∀ e, e ≠ d → Selects s filter id e := by
  obtain ⟨searched, hsearch, hids, -⟩ := authorizedSearch_ok s scope hquery
  refine ⟨facetCandidates s searched.ids filter.normalized, by rw [facets, hsearch]; rfl, ?_⟩
  intro d id
  rw [facetCandidates, mem_foldl_filterDimension, hids]
  simp only [selects_normalized, mem_filter, mem_facetDimensions, true_and, decide_eq_true_eq]
end

end Paprika.Fleet
