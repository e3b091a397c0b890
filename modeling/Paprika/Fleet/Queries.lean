import Paprika.Fleet.Filter
import Paprika.Fleet.SatelliteMerge

/-!
# Fleet: the list, the map and the matrix

The three queries select applications with the same filter and search (`filterApplications`).  The list normalises its
query first and pages through what is selected in the order of its boundaries; the map and the matrix take the search
text as it comes.

`list_map_matrix_agree`: where normalising a text twice changes nothing, the three select the same applications and show
the same facets exactly if the slash that turns similar names off survives the normalisation, or no application is there
because of a similar name only (`Unseen`).  `list_map_matrix_differ` has such an application.  And `answers_alike`: what a
caller may not read makes no difference.
-/

namespace Paprika.Fleet

open Lib.InvertedIndex

/-! ### Queries -/

inductive SortField
  | unspecified
  | name
  | project
  | cluster
  | stage
  | health
  | sync
  | release
  | rollout
  | resourceCount
  | lastTransition
  | impact
  | relevance
  | other (n : Nat)
  deriving DecidableEq

inductive SortDirection
  | unspecified
  | asc
  | desc
  | other (n : Nat)
  deriving DecidableEq

inductive GroupDimension
  | unspecified
  | project
  | cluster
  | stage
  | health
  | other (n : Nat)
  deriving DecidableEq

inductive SizeMetric
  | unspecified
  | resourceCount
  | requestRate
  | other (n : Nat)
  deriving DecidableEq

inductive InvalidCursorReason
  | malformed
  | nonCanonical
  | oversized
  | version
  | queryMismatch
  | identity
  | tuple
  deriving DecidableEq

inductive QueryError
  | search (e : InvalidSearchError)
  | message (text : String)
  | invalidCursor (reason : InvalidCursorReason)
  | invalidMatrixAxes (row column : GroupDimension)
  deriving DecidableEq

def ofSearch {α : Type} : Except InvalidSearchError α → Except QueryError α
  | .ok a => .ok a
  | .error e => .error (.search e)

structure ApplicationQuery where
  filter : ApplicationFilter
  search : List Char
  sort : SortField
  direction : SortDirection
  pageSize : Nat
  deriving DecidableEq

def defaultApplicationPageSize : Nat := 100
def maxApplicationPageSize : Nat := 500

def validateFilters {α : Type} (valid : α → Bool) (message : String) (values : List α) : Except QueryError Unit :=
  if values.all valid then .ok () else .error (.message message)

def validateApplicationFilter (filter : ApplicationFilter) : Except QueryError Unit := do
  validateFilters completeObjectKey "invalid project filter identity" filter.projects
  validateFilters completeObjectKey "invalid cluster filter identity" filter.clusters
  validateFilters (· != "") "invalid empty namespace filter" filter.namespaces
  validateFilters (· != "") "invalid empty stage filter" filter.stages
  validateFilters (fun value => decide (value ≠ Health.unspecified)) "invalid health filter" filter.health
  validateFilters (fun value => decide (value ≠ SyncState.unspecified)) "invalid sync filter" filter.sync
  validateFilters (fun value => decide (value ≠ ReleaseState.unspecified)) "invalid release filter" filter.releaseStates
  validateFilters (fun value => decide (value ≠ RolloutState.unspecified)) "invalid rollout filter" filter.rolloutStates
  validateFilters (fun value => decide (value ≠ SourceType.unspecified)) "invalid source type filter" filter.sourceTypes

def normalizeSortField : SortField → Except QueryError SortField
  | .unspecified => .ok .name
  | .other _ => .error (.message "invalid fleet sort field")
  | field => .ok field

def normalizeSortDirection : SortDirection → Except QueryError SortDirection
  | .unspecified => .ok .asc
  | .other _ => .error (.message "invalid fleet sort direction")
  | direction => .ok direction

def normalizePageSize (size : Nat) : Except QueryError Nat :=
  if size = 0 then .ok defaultApplicationPageSize
  else if size > maxApplicationPageSize then .error (.message "fleet page size exceeds maximum")
  else .ok size

def ApplicationQuery.normalized (u : Unicode) (q : ApplicationQuery) : Except QueryError ApplicationQuery := do
  let filter := q.filter.normalized
  validateApplicationFilter filter
  let text ← ofSearch (normalizeSearch u q.search)
  let sort ← normalizeSortField q.sort
  let direction ← normalizeSortDirection q.direction
  let pageSize ← normalizePageSize q.pageSize
  return { filter := filter, search := text, sort := sort, direction := direction, pageSize := pageSize }

/-! ### Page boundaries -/

structure RelevanceKey where
  tier : SearchTier
  shared : UInt32
  union : UInt32
  deriving DecidableEq

structure ImpactKey where
  unhealthySeverity : Nat
  blockedGates : UInt32
  activeChange : Bool
  resourceCount : UInt32
  lastTransitionUnixMS : Int
  deriving DecidableEq

structure PageKey where
  relevance : RelevanceKey
  name : String
  project : ObjectKey
  cluster : ObjectKey
  stage : String
  health : Health
  sync : SyncState
  release : ReleaseState
  rollout : RolloutState
  resourceCount : UInt32
  lastTransitionUnixMS : Int
  impact : ImpactKey
  deriving DecidableEq

structure PageBoundary where
  key : PageKey
  identity : ObjectKey
  deriving DecidableEq

def minimumTargetCluster : List StageTargetSummary → ObjectKey
  | [] => .zero
  | target :: rest => rest.foldl (fun minimum t => if t.cluster < minimum then t.cluster else minimum) target.cluster

def minimumTargetStage (targets : List StageTargetSummary) : String :=
  targets.foldl (fun minimum t => if t.stage ≠ "" ∧ (minimum = "" ∨ t.stage < minimum) then t.stage else minimum) ""

def activeRelease : ReleaseState → Bool
  | .pending | .promoting | .canarying | .verifying | .awaitingApproval => true
  | _ => false

def activeRollout : RolloutState → Bool
  | .pending | .progressing | .paused => true
  | _ => false

def hasActiveChange (summary : ApplicationSummary) : Bool :=
  activeRelease summary.releaseState || activeRollout summary.rolloutState

def impactSeverity (summary : ApplicationSummary) : Nat :=
  if summary.attentionSeverity > unhealthySeverity summary.health then summary.attentionSeverity
  else unhealthySeverity summary.health

def applicationPageKey (summary : ApplicationSummary) (m : SearchMatch) : PageKey :=
  { relevance :=
      { tier := m.tier, shared := UInt32.ofNat m.sharedTrigrams, union := UInt32.ofNat m.unionTrigrams }
    name := summary.identity.name
    project := summary.project
    cluster := minimumTargetCluster summary.targets
    stage := minimumTargetStage summary.targets
    health := summary.health
    sync := summary.sync
    release := summary.releaseState
    rollout := summary.rolloutState
    resourceCount := summary.resourceCount
    lastTransitionUnixMS := summary.lastTransitionUnixMS
    impact :=
      { unhealthySeverity := impactSeverity summary
        blockedGates := summary.blockedGateCount
        activeChange := hasActiveChange summary
        resourceCount := summary.resourceCount
        lastTransitionUnixMS := summary.lastTransitionUnixMS } }

def compareRelevance (left right : RelevanceKey) : Ordering :=
  (compare (tierRank left.tier) (tierRank right.tier)).then
    (if left.tier ≠ .trigram then .eq
     else (compare (left.shared.toNat * right.union.toNat) (right.shared.toNat * left.union.toNat)).swap)

def compareImpact (left right : ImpactKey) : Ordering :=
  (compare left.unhealthySeverity right.unhealthySeverity).then <|
  (compare left.blockedGates.toNat right.blockedGates.toNat).then <|
  (compare left.activeChange right.activeChange).then <|
  (compare left.resourceCount.toNat right.resourceCount.toNat).then <|
  compare left.lastTransitionUnixMS right.lastTransitionUnixMS

def compareSelectedPageKey (left right : PageKey) : SortField → Ordering
  | .name | .unspecified => compare left.name right.name
  | .project => compare left.project right.project
  | .cluster => compare left.cluster right.cluster
  | .stage => compare left.stage right.stage
  | .health => compare left.health.ctorIdx right.health.ctorIdx
  | .sync => compare left.sync.ctorIdx right.sync.ctorIdx
  | .release => compare left.release.ctorIdx right.release.ctorIdx
  | .rollout => compare left.rollout.ctorIdx right.rollout.ctorIdx
  | .resourceCount => compare left.resourceCount.toNat right.resourceCount.toNat
  | .lastTransition => compare left.lastTransitionUnixMS right.lastTransitionUnixMS
  | .impact => compareImpact left.impact right.impact
  | .relevance => compareRelevance left.relevance right.relevance
  | .other _ => .eq

def comparePageBoundaries (u : Unicode) (left right : PageBoundary) (query : ApplicationQuery) : Ordering :=
  (if query.search.all u.isSpace then .eq else compareRelevance left.key.relevance right.key.relevance).then <|
  (if query.sort ≠ .relevance ∧ query.direction = .desc then (compareSelectedPageKey left.key right.key query.sort).swap
    else compareSelectedPageKey left.key right.key query.sort).then <|
  compare left.identity right.identity

/-! ### The list -/

structure ApplicationQueryResult where
  summary : ApplicationSummary
  capabilities : List Capability

structure ApplicationPage where
  applications : List ApplicationQueryResult
  total : Nat
  nextCursor : String
  generation : Nat
  facets : List FacetBucket

structure PageEntry where
  summary : ApplicationSummary
  boundary : PageBoundary

/-- `EncodePageCursor` and `DecodePageCursor`. -/
structure CursorCodec where
  encode : ApplicationQuery → PageBoundary → Except QueryError String
  decode : ApplicationQuery → String → Except QueryError PageBoundary

/-- What a list is made from: the normalised query, what it keeps, and the facets. -/
structure Selection where
  query : ApplicationQuery
  filtered : FilterResult
  facets : List FacetBucket

section
variable (codec : CursorCodec) (u : Unicode) (s : Snapshot) (scope : QueryScope)

/-- The part of `QueryApplications` before the sorting. -/
def selectApplications (query : ApplicationQuery) : Except QueryError Selection := do
  let normalized ← query.normalized u
  let filtered ← ofSearch (filterApplications s u scope normalized.filter normalized.search)
  let buckets ← ofSearch (facets s u scope normalized.filter normalized.search)
  return { query := normalized, filtered := filtered, facets := buckets }

def SearchMatch.none : SearchMatch :=
  { identity := .zero, tier := .neutral, sharedTrigrams := 0, unionTrigrams := 0 }

def pageEntry (selection : Selection) (id : ObjectKey) : PageEntry :=
  { summary := applicationAt s id
    boundary :=
      { key := applicationPageKey (applicationAt s id) ((selection.filtered.found.lookup id).getD .none)
        identity := id } }

def pageEntries (selection : Selection) : List PageEntry :=
  ((sortedIDs selection.filtered.ids).map (pageEntry s selection)).mergeSort
    (fun a b => comparePageBoundaries u a.boundary b.boundary selection.query != .gt)

/-- The first entry after the boundary of a cursor. -/
def seekApplicationPage (entries : List PageEntry) (query : ApplicationQuery) (cursor : String) :
    Except QueryError Nat :=
  if cursor = "" then .ok 0
  else do
    let boundary ← codec.decode query cursor
    return entries.findIdx (fun e => comparePageBoundaries u e.boundary boundary query == .gt)

def applicationQueryCapabilities (app : ApplicationSummary) : List Capability :=
  if app.satelliteOnly then [] else scope.sortedCapabilities app.project

def queryApplications (query : ApplicationQuery) (cursor : String) : Except QueryError ApplicationPage := do
  let selection ← selectApplications u s scope query
  let entries := pageEntries u s selection
  let start ← seekApplicationPage codec u entries selection.query cursor
  let stop := min (start + selection.query.pageSize) entries.length
  let page := (entries.drop start).take (stop - start)
  let nextCursor ←
    match (if stop < entries.length then page.getLast? else none) with
    | some last => codec.encode selection.query last.boundary
    | none => .ok ""
  return {
    applications := page.map (fun e =>
      { summary := e.summary, capabilities := applicationQueryCapabilities scope e.summary })
    total := entries.length
    nextCursor := nextCursor
    generation := s.generation
    facets := selection.facets }
end

/-! ### The map and the matrix -/

structure FleetMapQuery where
  filter : ApplicationFilter
  search : List Char
  group : GroupDimension
  sizeMetric : SizeMetric

/-- `FleetMap`, with the applications that its groups are made of instead of these. -/
structure FleetMap where
  applications : List ObjectKey
  total : Nat
  generation : Nat
  facets : List FacetBucket

structure FleetMatrixQuery where
  filter : ApplicationFilter
  search : List Char
  rowGroup : GroupDimension
  columnGroup : GroupDimension
  sizeMetric : SizeMetric

/-- `FleetMatrix`, with the applications that its cells are made of instead of these. -/
structure FleetMatrix where
  applications : List ObjectKey
  total : Nat
  generation : Nat
  facets : List FacetBucket

def normalizeGroupDimension : GroupDimension → Except QueryError GroupDimension
  | .unspecified => .ok .project
  | .other _ => .error (.message "invalid fleet group dimension")
  | dimension => .ok dimension

def normalizeSizeMetric : SizeMetric → Except QueryError SizeMetric
  | .unspecified => .ok .resourceCount
  | .other _ => .error (.message "invalid fleet size metric")
  | metric => .ok metric

def GroupDimension.isConcrete : GroupDimension → Bool
  | .project | .cluster | .stage | .health => true
  | _ => false

def validateMatrixAxes (row column : GroupDimension) : Except QueryError Unit :=
  if !row.isConcrete || !column.isConcrete || decide (row = column) then .error (.invalidMatrixAxes row column)
  else .ok ()

section
variable (u : Unicode) (s : Snapshot) (scope : QueryScope)

def queryMap (query : FleetMapQuery) : Except QueryError FleetMap := do
  let _ ← normalizeGroupDimension query.group
  let _ ← normalizeSizeMetric query.sizeMetric
  let filter := query.filter.normalized
  validateApplicationFilter filter
  let filtered ← ofSearch (filterApplications s u scope filter query.search)
  let buckets ← ofSearch (facets s u scope filter query.search)
  return {
    applications := sortedIDs filtered.ids
    total := filtered.ids.card
    generation := s.generation
    facets := buckets }

def queryMatrix (query : FleetMatrixQuery) : Except QueryError FleetMatrix := do
  validateMatrixAxes query.rowGroup query.columnGroup
  let _ ← normalizeSizeMetric query.sizeMetric
  let filter := query.filter.normalized
  validateApplicationFilter filter
  let filtered ← ofSearch (filterApplications s u scope filter query.search)
  let buckets ← ofSearch (facets s u scope filter query.search)
  return {
    applications := sortedIDs filtered.ids
    total := filtered.ids.card
    generation := s.generation
    facets := buckets }
end

/-! ### What a caller may not read -/

/-- Two exact snapshots with the same clusters, and the same applications in the projects of a scope. -/
structure Alike (u : Unicode) (scope : QueryScope) where
  left : Snapshot
  right : Snapshot
  left_exact : left.Exact u
  right_exact : right.Exact u
  clusters : left.clusters = right.clusters
  applications : ∀ id a, a.project ∈ scope.projects →
    (left.applications.lookup id = some a ↔ right.applications.lookup id = some a)

section
variable {u : Unicode} {s : Snapshot} {scope : QueryScope} {id : ObjectKey} {query : List Char} {fuzzy : Bool}
  (x : Alike u scope)

theorem Alike.readable : id ∈ intersectApplications x.left (authorized x.left scope) ↔
    id ∈ intersectApplications x.right (authorized x.right scope) := by
  rw [mem_readable (x.left_exact.index .project), mem_readable (x.right_exact.index .project)]
  exact exists_congr fun a => and_congr_left fun ha => x.applications id a ha

section
variable (hid : id ∈ intersectApplications x.left (authorized x.left scope))
include hid

theorem Alike.lookup : x.left.applications.lookup id = x.right.applications.lookup id := by
  obtain ⟨a, ha, hproj⟩ := (mem_readable (x.left_exact.index .project)).mp hid
  rw [ha, (x.applications id a hproj).mp ha]

theorem Alike.posting (n : IndexName) (k : n.Key) :
    id ∈ posting (x.left.maps.index n) k ↔ id ∈ posting (x.right.maps.index n) k := by
  rw [(x.left_exact.index n).mem, (x.right_exact.index n).mem, x.lookup hid]
end

theorem Alike.matchIn : matchIn x.left scope query fuzzy id = matchIn x.right scope query fuzzy id := by
  rw [Fleet.matchIn, Fleet.matchIn]
  by_cases hid : id ∈ intersectApplications x.left (authorized x.left scope)
  · have hdoc : x.left.searchDocuments.lookup id = x.right.searchDocuments.lookup id := by
      rw [x.left_exact.documents, x.right_exact.documents, x.lookup hid]
    have hshares : ∀ ts, sharesTrigram x.left ts id = sharesTrigram x.right ts id := fun ts =>
      congrArg ts.any (funext fun t => decide_eq_decide.mpr (x.posting hid .trigrams t))
    rw [if_pos hid, if_pos (x.readable.mp hid)]
    simp only [matchOf, directMatch, trigramMatch, similarMatch, hdoc, hshares]
  · rw [if_neg hid, if_neg (fun h => hid (x.readable.mpr h))]

theorem Alike.selects (filter : ApplicationFilter) (p : FacetDimension → Prop) :
    (Fleet.matchIn x.left scope query fuzzy id ≠ none ∧ ∀ d, p d → Selects x.left filter id d) ↔
      (Fleet.matchIn x.right scope query fuzzy id ≠ none ∧ ∀ d, p d → Selects x.right filter id d) := by
  rw [← x.matchIn]
  refine and_congr_right fun h => forall_congr' fun d => imp_congr_right fun _ => or_congr_right (exists_congr fun k => ?_)
  exact and_congr_right fun _ => x.posting (by_contra fun hout => h (if_neg hout)) d.index k

theorem countValues_congr {κ : Type} [DecidableEq κ] {values values' : ObjectKey → List κ} {ids : IDSet}
    (h : ∀ id ∈ ids, values id = values' id) : countValues values ids = countValues values' ids := by
  refine Finmap.ext_lookup fun k => ?_
  have hsum : occurrences values ids k = occurrences values' ids k := Finset.sum_congr rfl fun id hid => by rw [h id hid]
  rw [lookup_countValues, lookup_countValues, hsum]

theorem Alike.facetBuckets {ids : IDSet} (h : ∀ id ∈ ids, Fleet.matchIn x.left scope query fuzzy id ≠ none)
    (d : FacetDimension) : facetBuckets x.left ids d = facetBuckets x.right ids d := by
  have hat : ∀ id ∈ ids, applicationAt x.left id = applicationAt x.right id := fun id hid => by
    rw [applicationAt, applicationAt, x.lookup (by_contra fun hout => h id hid (if_neg hout))]
  have hlabel : clusterLabel x.left = clusterLabel x.right := by
    funext key
    rw [clusterLabel, clusterLabel, x.clusters]
  have hobjects : ∀ d, countValues (objectValues x.left d) ids = countValues (objectValues x.right d) ids := fun d =>
    countValues_congr fun id hid => by simp only [objectValues, hat id hid]
  have hscalars : ∀ d, countValues (scalarValues x.left d) ids = countValues (scalarValues x.right d) ids := fun d =>
    countValues_congr fun id hid => by simp only [scalarValues, hat id hid]
  cases d <;> simp only [Fleet.facetBuckets, objectFacetBuckets, scalarFacetBuckets, hobjects, hscalars, hlabel]

end

/-! ### When they agree -/

variable {r : FilterResult}

section
variable {codec : CursorCodec} {u : Unicode} {s : Snapshot} {scope : QueryScope}

/-- The application is found by the similarity of its name only. -/
def OnlySimilar (s : Snapshot) (scope : QueryScope) (query : List Char) (id : ObjectKey) : Prop :=
  matchIn s scope query true id ≠ none ∧ matchIn s scope query false id = none

/-- The application is not selected, and counts for nothing in the dimensions whose facets it would be in. -/
def Unseen (s : Snapshot) (filter : ApplicationFilter) (id : ObjectKey) : Prop :=
  (¬ ∀ d, Selects s filter id d) ∧ ∀ d, (∀ e, e ≠ d → Selects s filter id e) → Uncounted s d id

/-- The three answers are about the same applications. -/
structure Agree (selection : Selection) (page : ApplicationPage) (m : FleetMap) (x : FleetMatrix) : Prop where
  list_map : ∀ id, id ∈ selection.filtered.ids ↔ id ∈ m.applications
  matrix_map : x.applications = m.applications
  totals : page.total = m.total ∧ x.total = m.total
  facets : page.facets = m.facets ∧ x.facets = m.facets

theorem matchIn_mono {query : List Char} {id : ObjectKey} (h : matchIn s scope query false id ≠ none) :
    matchIn s scope query true id ≠ none := by
  rw [matchIn] at h ⊢
  by_cases hin : id ∈ intersectApplications s (authorized s scope)
  · rw [if_pos hin, matchOf] at h ⊢
    by_cases hnil : query = []
    · rw [if_pos hnil]
      exact Option.some_ne_none _
    rw [if_neg hnil] at h ⊢
    cases hdirect : directMatch s query id with
    | some m => exact Option.some_ne_none m
    | none =>
      rw [hdirect] at h
      exact absurd rfl h
  · rw [if_neg hin] at h
    exact absurd rfl h

variable {filter : ApplicationFilter}

/-- **Searching for similar names changes nothing that is seen exactly if those it adds are not seen.** -/
theorem similar_iff {query : List Char} {ids ids' : IDSet}
    {candidates candidates' : FacetDimension → IDSet}
    (hids : ∀ id, id ∈ ids ↔ matchIn s scope query false id ≠ none ∧ ∀ d, Selects s filter id d)
    (hids' : ∀ id, id ∈ ids' ↔ matchIn s scope query true id ≠ none ∧ ∀ d, Selects s filter id d)
    (hcands : ∀ d id, id ∈ candidates d ↔
      matchIn s scope query false id ≠ none ∧ ∀ e, e ≠ d → Selects s filter id e)
    (hcandidates' : ∀ d id, id ∈ candidates' d ↔
      matchIn s scope query true id ≠ none ∧ ∀ e, e ≠ d → Selects s filter id e) :
    ids = ids' ∧ facetDimensions.flatMap (fun d => facetBuckets s (candidates d) d) =
        facetDimensions.flatMap (fun d => facetBuckets s (candidates' d) d) ↔
      ∀ id, OnlySimilar s scope query id → Unseen s filter id := by
  have hsub : ∀ d, candidates d ⊆ candidates' d := by
    intro d id hid
    obtain ⟨hmatch, hsels⟩ := (hcands d id).mp hid
    exact (hcandidates' d id).mpr ⟨matchIn_mono hmatch, hsels⟩
  rw [flatMap_facetBuckets_eq_iff hsub]
  constructor
  · rintro ⟨hsame, hnone⟩ id ⟨hsimilar, hdirect⟩
    refine ⟨?_, ?_⟩
    · intro hsels
      have hin : id ∈ ids := hsame ▸ (hids' id).mpr ⟨hsimilar, hsels⟩
      exact ((hids id).mp hin).1 hdirect
    · intro d hsels
      refine hnone d id ((hcandidates' d id).mpr ⟨hsimilar, hsels⟩) ?_
      intro hin
      exact ((hcands d id).mp hin).1 hdirect
  · intro hunseen
    refine ⟨?_, ?_⟩
    · ext id
      rw [hids, hids']
      constructor
      · rintro ⟨hmatch, hsels⟩
        exact ⟨matchIn_mono hmatch, hsels⟩
      · rintro ⟨hmatch, hsels⟩
        refine ⟨?_, hsels⟩
        intro hdirect
        exact (hunseen id ⟨hmatch, hdirect⟩).1 hsels
    · intro d id hin hout
      obtain ⟨hmatch, hsels⟩ := (hcandidates' d id).mp hin
      refine (hunseen id ⟨hmatch, ?_⟩).2 d hsels
      by_contra hdirect
      exact hout ((hcands d id).mpr ⟨hdirect, hsels⟩)

theorem exists_of_bind {ε α β : Type} {x : Except ε α} {f : α → Except ε β} {b : β} (h : x >>= f = .ok b) :
    ∃ a, x = .ok a ∧ f a = .ok b := by
  cases x with
  | error e => cases h
  | ok a => exact ⟨a, rfl, h⟩

theorem ofSearch_ok {α : Type} {x : Except InvalidSearchError α} {a : α} (h : ofSearch x = .ok a) : x = .ok a := by
  cases x with
  | error e => cases h
  | ok b => rw [Except.ok.inj h]

variable {query : ApplicationQuery} {text : List Char}

theorem normalizeSearch_ok {raw : List Char} (h : normalizeSearch u raw = .ok text) : text = normalizeText u raw := by
  rw [normalizeSearch] at h
  split at h
  · cases h
  · exact (Except.ok.inj h).symm

theorem selectApplications_ok {selection : Selection} (h : selectApplications u s scope query = .ok selection) :
    filterApplications s u scope query.filter.normalized (normalizeText u query.search) = .ok selection.filtered ∧
      facets s u scope query.filter.normalized (normalizeText u query.search) = .ok selection.facets := by
  obtain ⟨normalized, hnorm, h⟩ := exists_of_bind h
  obtain ⟨filtered, hfilt, h⟩ := exists_of_bind h
  obtain ⟨buckets, hbuckets, h⟩ := exists_of_bind h
  obtain ⟨_, -, hnorm⟩ := exists_of_bind hnorm
  obtain ⟨text, htext, hnorm⟩ := exists_of_bind hnorm
  obtain ⟨_, -, hnorm⟩ := exists_of_bind hnorm
  obtain ⟨_, -, hnorm⟩ := exists_of_bind hnorm
  obtain ⟨_, -, hnorm⟩ := exists_of_bind hnorm
  have hquery := Except.ok.inj hnorm
  have hsel := Except.ok.inj h
  have htext' := normalizeSearch_ok (ofSearch_ok htext)
  subst hsel hquery htext'
  exact ⟨ofSearch_ok hfilt, ofSearch_ok hbuckets⟩

variable {buckets : List FacetBucket}

theorem selectApplications_eq {normalized : ApplicationQuery} {filtered : FilterResult}
    (hquery : query.normalized u = .ok normalized)
    (hfilt : filterApplications s u scope normalized.filter normalized.search = .ok filtered)
    (hbuckets : facets s u scope normalized.filter normalized.search = .ok buckets) :
    selectApplications u s scope query = .ok { query := normalized, filtered := filtered, facets := buckets } := by
  simp only [selectApplications, hquery, bind, Except.bind, hfilt, hbuckets, ofSearch]
  rfl

theorem queryApplications_ok {cursor : String} {page : ApplicationPage}
    (h : queryApplications codec u s scope query cursor = .ok page) :
    ∃ selection, selectApplications u s scope query = .ok selection ∧ page.total = selection.filtered.ids.card ∧
      page.facets = selection.facets := by
  obtain ⟨selection, hsel, h⟩ := exists_of_bind h
  obtain ⟨start, -, h⟩ := exists_of_bind h
  have hpage : page.total = (pageEntries u s selection).length ∧ page.facets = selection.facets := by
    dsimp only at h
    split at h
    · obtain ⟨_, -, h⟩ := exists_of_bind h
      rw [← Except.ok.inj h]
      exact ⟨rfl, rfl⟩
    · obtain ⟨_, -, h⟩ := exists_of_bind h
      rw [← Except.ok.inj h]
      exact ⟨rfl, rfl⟩
  refine ⟨selection, hsel, ?_, hpage.2⟩
  rw [hpage.1, pageEntries, List.length_mergeSort, List.length_map, sortedIDs, Finset.length_sort]

theorem queryMap_ok {query : FleetMapQuery} {m : FleetMap} (h : queryMap u s scope query = .ok m) :
    ∃ filtered, filterApplications s u scope query.filter.normalized query.search = .ok filtered ∧
      facets s u scope query.filter.normalized query.search = .ok m.facets ∧
      m.applications = sortedIDs filtered.ids ∧ m.total = filtered.ids.card := by
  obtain ⟨_, -, h⟩ := exists_of_bind h
  obtain ⟨_, -, h⟩ := exists_of_bind h
  obtain ⟨_, -, h⟩ := exists_of_bind h
  obtain ⟨filtered, hfilt, h⟩ := exists_of_bind h
  obtain ⟨buckets, hbuckets, h⟩ := exists_of_bind h
  have hm := Except.ok.inj h
  subst hm
  exact ⟨filtered, ofSearch_ok hfilt, ofSearch_ok hbuckets, rfl, rfl⟩

theorem queryMatrix_ok {query : FleetMatrixQuery} {x : FleetMatrix} (h : queryMatrix u s scope query = .ok x) :
    ∃ filtered, filterApplications s u scope query.filter.normalized query.search = .ok filtered ∧
      facets s u scope query.filter.normalized query.search = .ok x.facets ∧
      x.applications = sortedIDs filtered.ids ∧ x.total = filtered.ids.card := by
  obtain ⟨_, -, h⟩ := exists_of_bind h
  obtain ⟨_, -, h⟩ := exists_of_bind h
  obtain ⟨_, -, h⟩ := exists_of_bind h
  obtain ⟨filtered, hfilt, h⟩ := exists_of_bind h
  obtain ⟨buckets, hbuckets, h⟩ := exists_of_bind h
  have hx := Except.ok.inj h
  subst hx
  exact ⟨filtered, ofSearch_ok hfilt, ofSearch_ok hbuckets, rfl, rfl⟩

theorem normalizeSearch_of_filter
    (h : filterApplications s u scope filter text = .ok r) : normalizeSearch u text = .ok (normalizeText u text) := by
  obtain ⟨searched, hsearch, -⟩ := exists_of_bind h
  obtain ⟨found, hfound, -⟩ := exists_of_bind hsearch
  obtain ⟨query, hquery, -⟩ := exists_of_bind hfound
  rw [hquery, normalizeSearch_ok hquery]

section
variable (htext : normalizeSearch u text = .ok (normalizeText u query.search))
include htext

/-- The selected applications of a filter, in terms of the search and the dimensions. -/
theorem mem_filtered (hr : filterApplications s u scope query.filter.normalized text = .ok r) (id : ObjectKey) :
    id ∈ r.ids ↔ matchIn s scope (normalizeText u query.search) (decide ('/' ∉ text)) id ≠ none ∧
      ∀ d, Selects s query.filter id d := by
  obtain ⟨r', hr', hmem, -⟩ := filterApplications_ok s scope query.filter.normalized htext
  rw [hr] at hr'
  rw [Except.ok.inj hr', hmem]
  simp only [selects_normalized]

theorem buckets_of_facets (hfacets : facets s u scope query.filter.normalized text = .ok buckets) :
    ∃ candidates : FacetDimension → IDSet,
      buckets = facetDimensions.flatMap (fun d => facetBuckets s (candidates d) d) ∧
        ∀ d id, id ∈ candidates d ↔ matchIn s scope (normalizeText u query.search) (decide ('/' ∉ text)) id ≠ none ∧
            ∀ e, e ≠ d → Selects s query.filter id e := by
  obtain ⟨candidates, hok, hmem⟩ := facets_ok s scope query.filter.normalized htext
  rw [hfacets] at hok
  refine ⟨candidates, Except.ok.inj hok, ?_⟩
  simp only [selects_normalized] at hmem
  exact hmem
end

/-- **When the list, the map and the matrix agree**, for a search whose normal form is normal. -/
theorem list_map_matrix_agree {query : ApplicationQuery} {cursor : String} {group row column : GroupDimension}
    {mapMetric matrixMetric : SizeMetric} {selection : Selection} {page : ApplicationPage} {m : FleetMap}
    {x : FleetMatrix} (hselection : selectApplications u s scope query = .ok selection)
    (hlist : queryApplications codec u s scope query cursor = .ok page)
    (hmap : queryMap u s scope
      { filter := query.filter, search := query.search, group := group, sizeMetric := mapMetric } = .ok m)
    (hmatrix : queryMatrix u s scope
      { filter := query.filter, search := query.search, rowGroup := row, columnGroup := column,
        sizeMetric := matrixMetric } = .ok x)
    (hstable : normalizeText u (normalizeText u query.search) = normalizeText u query.search) :
    Agree selection page m x ↔ ('/' ∈ query.search ↔ '/' ∈ normalizeText u query.search) ∨
        ∀ id, OnlySimilar s scope (normalizeText u query.search) id → Unseen s query.filter id := by
  obtain ⟨hlisted, hlistedFacets⟩ := selectApplications_ok hselection
  obtain ⟨selection', hselection', htotal, hpageFacets⟩ := queryApplications_ok hlist
  obtain ⟨mapped, hmapped, hmapFacets, hmapApplications, hmapTotal⟩ := queryMap_ok hmap
  obtain ⟨shown, hshown, hmatrixFacets, hmatrixApplications, hmatrixTotal⟩ := queryMatrix_ok hmatrix
  rw [hselection] at hselection'
  obtain rfl : selection = selection' := Except.ok.inj hselection'
  obtain rfl : mapped = shown := by
    rw [hmapped] at hshown
    exact Except.ok.inj hshown
  -- the facets and the selected applications of both, for the one normal form of the text
  have hlistText := normalizeSearch_of_filter hlisted
  have hmapText := normalizeSearch_of_filter hmapped
  rw [hstable] at hlistText
  have hlistIds := mem_filtered hlistText hlisted
  have hmapIds := mem_filtered hmapText hmapped
  obtain ⟨listCandidates, hlistBuckets, hlistCandidates⟩ := buckets_of_facets hlistText hlistedFacets
  obtain ⟨mapCandidates, hmapBuckets, hmapCandidates⟩ := buckets_of_facets hmapText hmapFacets
  have hmatrixSame : x.facets = m.facets := by
    rw [hmapFacets] at hmatrixFacets
    exact (Except.ok.inj hmatrixFacets).symm
  have hagree : Agree selection page m x ↔ selection.filtered.ids = mapped.ids ∧ selection.facets = m.facets := by
    constructor
    · intro h
      refine ⟨?_, hpageFacets ▸ h.facets.1⟩
      ext id
      rw [h.list_map, hmapApplications, mem_sortedIDs]
    rintro ⟨hsame, hfacets⟩
    refine ⟨?_, hmatrixApplications.trans hmapApplications.symm, ⟨?_, hmatrixTotal.trans hmapTotal.symm⟩,
      ⟨hpageFacets.trans hfacets, hmatrixSame⟩⟩
    · intro id
      rw [hmapApplications, mem_sortedIDs, hsame]
    · rw [htotal, hmapTotal, hsame]
  rw [hagree, hlistBuckets, hmapBuckets]
  by_cases hsame : '/' ∈ query.search ↔ '/' ∈ normalizeText u query.search
  · -- both search for similar names, or neither does
    refine iff_of_true ⟨?_, ?_⟩ (Or.inl hsame)
    · ext id
      rw [hlistIds, hmapIds]
      simp only [hsame]
    refine List.flatMap_congr fun d _ => ?_
    have hcandidates : listCandidates d = mapCandidates d := by
      ext id
      rw [hlistCandidates, hmapCandidates]
      simp only [hsame]
    rw [hcandidates]
  · rw [or_iff_right hsame]
    by_cases hlistSlash : '/' ∈ normalizeText u query.search
    · have hmapSlash : '/' ∉ query.search := fun h => hsame (iff_of_true h hlistSlash)
      simp only [hlistSlash, not_true_eq_false, decide_false] at hlistIds hlistCandidates
      simp only [hmapSlash, not_false_eq_true, decide_true] at hmapIds hmapCandidates
      exact similar_iff hlistIds hmapIds hlistCandidates hmapCandidates
    have hmapSlash : '/' ∈ query.search := by
      by_contra h
      exact hsame (iff_of_false h hlistSlash)
    simp only [hlistSlash, not_false_eq_true, decide_true] at hlistIds hlistCandidates
    simp only [hmapSlash, not_true_eq_false, decide_false] at hmapIds hmapCandidates
    rw [eq_comm (a := selection.filtered.ids), eq_comm (a := facetDimensions.flatMap fun d =>
      facetBuckets s (listCandidates d) d)]
    exact similar_iff hmapIds hlistIds hmapCandidates hlistCandidates
end

/-! ### A search for another namespace -/

def sampleFleet : Snapshot :=
  addToSearchIndex asciiUnicode (addApplicationMutable (newSnapshot 1) sampleApplication) sampleApplication.identity

def sampleScope : QueryScope := { projects := {sampleApplication.project}, capabilitiesByProject := ∅ }

def sampleQuery (text : String) : ApplicationQuery :=
  { filter := .empty, search := text.toList, sort := .name, direction := .asc, pageSize := 100 }

/-- A codec for pages that have no next one. -/
def noCursors : CursorCodec :=
  { encode := fun _ _ => .error (.invalidCursor .oversized)
    decode := fun _ _ => .error (.invalidCursor .malformed) }

theorem normalized_empty : ApplicationFilter.empty.normalized = .empty := by
  have hnil : ∀ {α β : Type} [DecidableEq α] [LinearOrder β] (key : α → β), sortedUnique key [] = [] := by
    intro α β _ _ key
    rw [sortedUnique, List.mergeSort_nil]
    rfl
  rw [ApplicationFilter.normalized, ApplicationFilter.empty]
  simp only [hnil]

theorem card_sample {text normal : List Char}
    (htext : normalizeSearch asciiUnicode text = .ok normal)
    (hr : filterApplications sampleFleet asciiUnicode sampleScope .empty text = .ok r) :
    r.ids.card = if (matchIn sampleFleet sampleScope normal (decide ('/' ∉ text)) sampleApplication.identity).isSome
      then 1 else 0 := by
  obtain ⟨r', hr', hmem, -⟩ := filterApplications_ok sampleFleet sampleScope .empty htext
  obtain rfl : r = r' := by
    rw [hr] at hr'
    exact Except.ok.inj hr'
  have hsels : ∀ id, ∀ d, Selects sampleFleet .empty id d := by
    intro id d
    cases d <;> exact Or.inl rfl
  have honly : ∀ id, id ∈ r.ids → id = sampleApplication.identity := by
    intro id hid
    have hmatch := ((hmem id).mp hid).1
    rw [matchIn] at hmatch
    split at hmatch
    · next hin =>
      have hknown := (Finset.mem_filter.mp hin).2
      by_contra hne
      have happs : sampleFleet.applications =
          (newSnapshot 1).applications.insert sampleApplication.identity sampleApplication := rfl
      have hnone : sampleFleet.applications.lookup id = none := by
        rw [happs, lookup_insert_eq, if_neg hne]
        rfl
      rw [← Finmap.lookup_isSome, hnone] at hknown
      cases hknown
    · exact absurd rfl hmatch
  cases hfound : matchIn sampleFleet sampleScope normal (decide ('/' ∉ text)) sampleApplication.identity with
  | none =>
    have hempty : r.ids = ∅ := by
      rw [Finset.eq_empty_iff_forall_notMem]
      intro id hid
      have hmatch := ((hmem id).mp hid).1
      rw [honly id hid] at hmatch
      exact hmatch hfound
    rw [hempty]
    rfl
  | some m =>
  have hone : r.ids = {sampleApplication.identity} := by
    refine Finset.eq_singleton_iff_unique_mem.mpr ⟨?_, honly⟩
    rw [hmem, hfound]
    exact ⟨Option.some_ne_none m, hsels _⟩
  rw [hone]
  rfl

theorem sampleAnswers (text normal : List Char) (htext : normalizeSearch asciiUnicode text = .ok normal)
    (hnormal : normalizeSearch asciiUnicode normal = .ok normal) :
    ∃ selection page m x, selectApplications asciiUnicode sampleFleet sampleScope
        { filter := .empty, search := text, sort := .name, direction := .asc, pageSize := 100 } = .ok selection ∧
      queryApplications noCursors asciiUnicode sampleFleet sampleScope
        { filter := .empty, search := text, sort := .name, direction := .asc, pageSize := 100 } "" = .ok page ∧
      queryMap asciiUnicode sampleFleet sampleScope
        { filter := .empty, search := text, group := .project, sizeMetric := .resourceCount } = .ok m ∧
      queryMatrix asciiUnicode sampleFleet sampleScope
        { filter := .empty, search := text, rowGroup := .project, columnGroup := .health,
          sizeMetric := .resourceCount } = .ok x ∧
      page.total = (if (matchIn sampleFleet sampleScope normal (decide ('/' ∉ normal))
        sampleApplication.identity).isSome then 1 else 0) ∧
      m.total = (if (matchIn sampleFleet sampleScope normal (decide ('/' ∉ text))
        sampleApplication.identity).isSome then 1 else 0) := by
  obtain ⟨listed, hlisted, -⟩ := filterApplications_ok sampleFleet sampleScope .empty hnormal
  obtain ⟨mapped, hmapped, -⟩ := filterApplications_ok sampleFleet sampleScope .empty htext
  obtain ⟨listCandidates, hlistFacets, -⟩ := facets_ok sampleFleet sampleScope .empty hnormal
  obtain ⟨mapCandidates, hmapFacets, -⟩ := facets_ok sampleFleet sampleScope .empty htext
  have hvalid : validateApplicationFilter .empty = .ok () := rfl
  have hquery : ApplicationQuery.normalized asciiUnicode
      { filter := .empty, search := text, sort := .name, direction := .asc, pageSize := 100 } =
        .ok { filter := .empty, search := normal, sort := .name, direction := .asc, pageSize := 100 } := by
    rw [ApplicationQuery.normalized, normalized_empty, hvalid, htext]
    rfl
  have hselect := selectApplications_eq hquery hlisted hlistFacets
  have hcard := card_sample hnormal hlisted
  generalize hsel : Selection.mk _ listed _ = selection at hselect
  have hlen : (pageEntries asciiUnicode sampleFleet selection).length = listed.ids.card := by
    rw [pageEntries, List.length_mergeSort, List.length_map, sortedIDs, Finset.length_sort, ← hsel]
  have hfits : ¬ min (0 + 100) (pageEntries asciiUnicode sampleFleet selection).length <
      (pageEntries asciiUnicode sampleFleet selection).length := by
    rw [hlen, hcard]
    split <;> decide
  have hsize : selection.query.pageSize = 100 := by rw [← hsel]
  obtain ⟨page, hpage, htotal⟩ : ∃ page, queryApplications noCursors asciiUnicode sampleFleet sampleScope
      { filter := .empty, search := text, sort := .name, direction := .asc, pageSize := 100 } "" = .ok page ∧
        page.total = (pageEntries asciiUnicode sampleFleet selection).length := by
    rw [queryApplications, hselect]
    simp only [bind, Except.bind, seekApplicationPage, if_true, hsize, hfits, if_false]
    exact ⟨_, rfl, rfl⟩
  have hmap : queryMap asciiUnicode sampleFleet sampleScope
      { filter := .empty, search := text, group := .project, sizeMetric := .resourceCount } =
        .ok { applications := sortedIDs mapped.ids, total := mapped.ids.card, generation := sampleFleet.generation
              facets := facetDimensions.flatMap (fun d => facetBuckets sampleFleet (mapCandidates d) d) } := by
    simp only [queryMap, normalizeGroupDimension, normalizeSizeMetric, normalized_empty, hvalid, hmapped, hmapFacets,
      ofSearch, bind, Except.bind]
    rfl
  have hmatrix : queryMatrix asciiUnicode sampleFleet sampleScope
      { filter := .empty, search := text, rowGroup := .project, columnGroup := .health,
        sizeMetric := .resourceCount } =
        .ok { applications := sortedIDs mapped.ids, total := mapped.ids.card, generation := sampleFleet.generation
              facets := facetDimensions.flatMap (fun d => facetBuckets sampleFleet (mapCandidates d) d) } := by
    have haxes : validateMatrixAxes .project .health = .ok () := rfl
    simp only [queryMatrix, haxes, normalizeSizeMetric, normalized_empty, hvalid, hmapped, hmapFacets,
      ofSearch, bind, Except.bind]
    rfl
  exact ⟨selection, page, _, _, hselect, hpage, hmap, hmatrix, by rw [htotal, hlen, hcard],
    card_sample htext hmapped⟩

/-- A search with a slash that finds its application by its full name: all three show it. -/
theorem list_map_matrix_agree_full_name :
    ∃ selection page m x, queryApplications noCursors asciiUnicode sampleFleet sampleScope
        (sampleQuery "shop checkout") "" = .ok page ∧
      queryMap asciiUnicode sampleFleet sampleScope
        { filter := .empty, search := (sampleQuery "shop checkout").search, group := .project,
          sizeMetric := .resourceCount } = .ok m ∧
      Agree selection page m x ∧ m.total = 1 := by
  obtain ⟨selection, page, m, x, hselect, hlist, hmap, hmatrix, -, htotal⟩ :=
    sampleAnswers "shop checkout".toList "shop checkout".toList (by decide) (by decide)
  refine ⟨selection, page, m, x, hlist, hmap, ?_, ?_⟩
  · refine (list_map_matrix_agree hselect hlist hmap hmatrix ?_).mpr (Or.inl ?_)
    · decide
    · decide
  · rw [htotal]
    decide +kernel

/-- **A search for an application of another namespace**: the list shows the one of the same name, the map and the matrix
do not. -/
theorem list_map_matrix_differ :
    ∃ page m x, queryApplications noCursors asciiUnicode sampleFleet sampleScope (sampleQuery "eu/checkout") "" =
        .ok page ∧
      queryMap asciiUnicode sampleFleet sampleScope
        { filter := .empty, search := (sampleQuery "eu/checkout").search, group := .project,
          sizeMetric := .resourceCount } = .ok m ∧
      queryMatrix asciiUnicode sampleFleet sampleScope
        { filter := .empty, search := (sampleQuery "eu/checkout").search, rowGroup := .project,
          columnGroup := .health, sizeMetric := .resourceCount } = .ok x ∧
      page.total = 1 ∧ m.total = 0 := by
  obtain ⟨selection, page, m, x, -, hlist, hmap, hmatrix, hpage, htotal⟩ :=
    sampleAnswers "eu/checkout".toList "eu checkout".toList (by decide) (by decide)
  refine ⟨page, m, x, hlist, hmap, hmatrix, ?_, ?_⟩
  · rw [hpage]
    decide +kernel
  · rw [htotal]
    decide +kernel

end Paprika.Fleet
