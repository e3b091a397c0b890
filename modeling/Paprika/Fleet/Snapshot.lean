import Paprika.Fleet.Types
import Paprika.Lib.CopyOnWrite
import Mathlib.Data.Finset.Sort

/-!
# Fleet: snapshots

A snapshot holds the records and, for every way a query groups them, an inverted index; a search index of normalised
names comes with it.  A builder fills an empty snapshot with `addApplicationMutable` and then works out its search index
(`rebuildSearchIndex`).

`Snapshot.Exact` says that the indexes are the inverse of the records.  **`Snapshot.Exact.unique`**: two exact snapshots
of the same records are the same; **`Snapshot.Grouped.rebuildSearchIndex`**: building one from scratch gives an exact one.
-/

namespace Paprika.Fleet

open Lib.InvertedIndex Lib.CopyOnWrite List Function

/-! ### Normalised names -/

/-- What `golang.org/x/text` and the package `unicode` do to text, rune by rune. -/
structure Unicode where
  nfkc : List Char → List Char
  toLower : Char → Char
  isSpace : Char → Bool

/-- The functions on texts of ASCII. -/
def asciiUnicode : Unicode := { nfkc := id, toLower := Char.toLower, isSpace := Char.isWhitespace }

section
variable (u : Unicode)

def isSearchSeparator (r : Char) : Bool := r == '-' || r == '_' || r == '.' || r == '/' || u.isSpace r

/-- The state of the loop of `normalizeText`: what is written, and whether a separator is due. -/
def normalizeRune (state : List Char × Bool) (r : Char) : List Char × Bool :=
  if isSearchSeparator u r then (state.1, !state.1.isEmpty || state.2)
  else ((if state.2 then state.1 ++ [' '] else state.1) ++ [u.toLower r], false)

def normalizeText (raw : List Char) : List Char := ((u.nfkc raw).foldl (normalizeRune u) ([], false)).1
end

/-- All runs of three runes. -/
def trigrams : List Char → List (List Char)
  | a :: b :: c :: rest => [a, b, c] :: trigrams (b :: c :: rest)
  | _ => []

def trigramSet (value : List Char) : List (List Char) := (trigrams value).dedup

structure SearchDocument where
  normalizedName : List Char
  normalizedFull : List Char
  trigrams : List (List Char)
  deriving DecidableEq

def searchDocument (u : Unicode) (id : ObjectKey) : SearchDocument :=
  let normalizedName := normalizeText u id.name.toList
  { normalizedName := normalizedName
    normalizedFull := normalizeText u (id.inNamespace ++ "/" ++ id.name).toList
    trigrams := trigramSet normalizedName }

/-! ### Snapshots -/

abbrev IDSet := Finset ObjectKey

/-- The maps of a snapshot that are keyed by an object. -/
inductive TableName
  | applications
  | projects
  | repositories
  | clusters
  | sources
  | searchDocuments
  | sourceBindings
  deriving DecidableEq

def TableName.Value : TableName → Type
  | .applications => ApplicationSummary
  | .projects => ProjectSummary
  | .repositories => RepositorySummary
  | .clusters => ClusterSummary
  | .sources => SourceSummary
  | .searchDocuments => SearchDocument
  | .sourceBindings => List ObjectKey

/-- The maps of a snapshot from a value to the applications that have it: `By…` and `Trigrams`. -/
inductive IndexName
  | project
  | inNamespace
  | repository
  | cluster
  | source
  | stage
  | health
  | sync
  | release
  | rollout
  | sourceType
  | trigrams
  deriving DecidableEq

def IndexName.Key : IndexName → Type
  | .project | .repository | .cluster | .source => ObjectKey
  | .inNamespace | .stage => String
  | .health => Health
  | .sync => SyncState
  | .release => ReleaseState
  | .rollout => RolloutState
  | .sourceType => SourceType
  | .trigrams => List Char

instance instDecidableEqKey : (n : IndexName) → DecidableEq n.Key
  | .project | .repository | .cluster | .source => inferInstanceAs (DecidableEq ObjectKey)
  | .inNamespace | .stage => inferInstanceAs (DecidableEq String)
  | .health => inferInstanceAs (DecidableEq Health)
  | .sync => inferInstanceAs (DecidableEq SyncState)
  | .release => inferInstanceAs (DecidableEq ReleaseState)
  | .rollout => inferInstanceAs (DecidableEq RolloutState)
  | .sourceType => inferInstanceAs (DecidableEq SourceType)
  | .trigrams => inferInstanceAs (DecidableEq (List Char))

abbrev Maps := Contents IndexName.Key ObjectKey ObjectKey TableName.Value

structure Snapshot where
  generation : Nat
  maps : Maps

namespace Snapshot

variable (s : Snapshot)

def applications : Table ObjectKey ApplicationSummary := s.maps.table .applications
def projects : Table ObjectKey ProjectSummary := s.maps.table .projects
def repositories : Table ObjectKey RepositorySummary := s.maps.table .repositories
def clusters : Table ObjectKey ClusterSummary := s.maps.table .clusters
def sources : Table ObjectKey SourceSummary := s.maps.table .sources
def searchDocuments : Table ObjectKey SearchDocument := s.maps.table .searchDocuments
def sourceBindings : Table ObjectKey (List ObjectKey) := s.maps.table .sourceBindings

end Snapshot

def newSnapshot (generation : Nat) : Snapshot :=
  { generation := generation, maps := { index := fun _ => ∅, table := fun _ => ∅ } }

def sortedIDs (set : IDSet) : List ObjectKey := set.sort (· ≤ ·)

/-! ### Index keys -/

/-- `indexKeysForApplication`; the trigrams are not among them. -/
def indexKeysForApplication (summary : ApplicationSummary) : (n : IndexName) → List n.Key
  | .project => [summary.project]
  | .inNamespace => [summary.identity.inNamespace]
  | .repository => if summary.repository = .zero then [] else [summary.repository]
  | .cluster => ((summary.targets.map StageTargetSummary.cluster).filter (· ≠ .zero)).dedup
  | .source => (summary.observabilityBindings.filter (· ≠ .zero)).dedup
  | .stage => ((summary.targets.map StageTargetSummary.stage).filter (· ≠ "")).dedup
  | .health => [summary.health]
  | .sync => [summary.sync]
  | .release => [summary.releaseState]
  | .rollout => [summary.rolloutState]
  | .sourceType => [summary.sourceType]
  | .trigrams => []

def searchKeys (u : Unicode) (id : ObjectKey) : List IndexName.trigrams.Key := (searchDocument u id).trigrams

def indexKeys (u : Unicode) : (n : IndexName) → ObjectKey → ApplicationSummary → List n.Key
  | .trigrams, id, _ => searchKeys u id
  | n, _, summary => indexKeysForApplication summary n

/-! ### Building a snapshot -/

/-- The bindings that a snapshot keeps for a record. -/
def bindingsOf (summary : ApplicationSummary) : Option (List ObjectKey) :=
  if summary.observabilityBindings = [] then none else some summary.observabilityBindings

theorem getD_bindingsOf (summary : ApplicationSummary) :
    (bindingsOf summary).getD [] = summary.observabilityBindings := by
  rw [bindingsOf]
  split
  · next hempty => exact hempty.symm
  · rfl

def Snapshot.setTable (s : Snapshot) (t : TableName) (table : Table ObjectKey t.Value) : Snapshot :=
  { s with maps := { s.maps with table := update s.maps.table t table } }

def Snapshot.setIndex (s : Snapshot) (n : IndexName) (index : Index n.Key ObjectKey) : Snapshot :=
  { s with maps := { s.maps with index := update s.maps.index n index } }

def addApplicationMutable (snapshot : Snapshot) (summary : ApplicationSummary) : Snapshot :=
  let id := summary.identity
  let snapshot := snapshot.setTable .applications (snapshot.applications.insert id summary)
  let snapshot :=
    match bindingsOf summary with
    | some bindings => snapshot.setTable .sourceBindings (snapshot.sourceBindings.insert id bindings)
    | none => snapshot
  { snapshot with maps := { snapshot.maps with
      index := fun n => addKeys (snapshot.maps.index n) (indexKeysForApplication summary n) id } }

/-- One round of the loop of `rebuildSearchIndex`. -/
def addToSearchIndex (u : Unicode) (s : Snapshot) (id : ObjectKey) : Snapshot :=
  let s := s.setTable .searchDocuments (s.searchDocuments.insert id (searchDocument u id))
  s.setIndex .trigrams (addKeys (s.maps.index .trigrams) (searchKeys u id) id)

def rebuildSearchIndex (u : Unicode) (s : Snapshot) : Snapshot :=
  let s := (s.setTable .searchDocuments ∅).setIndex .trigrams ∅
  (sortedIDs s.applications.keys).foldl (addToSearchIndex u) s

/-! ### Validation -/

def indexContainsUnknownApplication (s : Snapshot) (n : IndexName) : Bool :=
  decide (∃ k ∈ (s.maps.index n).keys, ∃ id ∈ posting (s.maps.index n) k, id ∉ s.applications)

def checkIdentities {α : Type} (identity : α → ObjectKey) (message : String) (records : Table ObjectKey α) :
    Except String Unit :=
  if (sortedIDs records.keys).any (fun id => (records.lookup id).any (fun x => identity x != id)) then .error message
  else .ok ()

/-- The checks that a record of an application has to pass. -/
def validateApplication (s : Snapshot) (id : ObjectKey) : Except String Unit :=
  match s.applications.lookup id with
  | none => .ok ()
  | some a =>
    if id ≠ a.identity then .error "fleet snapshot application identity is inconsistent"
    else if (s.sourceBindings.lookup id).getD [] ≠ a.observabilityBindings then
      .error "fleet snapshot application source bindings are inconsistent"
    else .ok ()

def validateApplicationRecords (s : Snapshot) : Except String Unit := do
  (sortedIDs s.applications.keys).forM (validateApplication s)
  if (sortedIDs s.sourceBindings.keys).any (fun id => !decide (id ∈ s.applications)) then
    .error "fleet snapshot source bindings contain an unknown application"
  checkIdentities ProjectSummary.identity "fleet snapshot project identity is inconsistent" s.projects

def validateConnectionRecords (s : Snapshot) : Except String Unit := do
  checkIdentities RepositorySummary.identity "fleet snapshot repository identity is inconsistent" s.repositories
  checkIdentities ClusterSummary.identity "fleet snapshot cluster identity is inconsistent" s.clusters
  checkIdentities SourceSummary.identity "fleet snapshot source identity is inconsistent" s.sources

/-- All indexes but the search index. -/
def groupingIndexes : List IndexName :=
  [.project, .inNamespace, .repository, .cluster, .source, .stage, .health, .sync, .release, .rollout, .sourceType]

def validateSnapshot (s : Snapshot) : Except String Unit := do
  validateApplicationRecords s
  validateConnectionRecords s
  if groupingIndexes.any (indexContainsUnknownApplication s) then
    .error "fleet snapshot index contains an unknown application"

/-! ### Exact snapshots -/

section
variable {u : Unicode} {s s' : Snapshot}

theorem indexKeys_of_ne {n : IndexName} (hn : n ≠ .trigrams) (id : ObjectKey) (a : ApplicationSummary) :
    indexKeys u n id a = indexKeysForApplication a n := by
  cases n with
  | trigrams => exact absurd rfl hn
  | _ => rfl

/-- The indexes, but for the search index, are the inverse of the records. -/
structure Snapshot.Grouped (s : Snapshot) : Prop where
  identities : ∀ id a, s.applications.lookup id = some a → a.identity = id
  index : ∀ n, n ≠ .trigrams → Inverse (fun _ a => indexKeysForApplication a n) s.applications (s.maps.index n)
  bindings : ∀ id, s.sourceBindings.lookup id = (s.applications.lookup id).bind bindingsOf

/-- Every index is the exact inverse of the records. -/
structure Snapshot.Exact (u : Unicode) (s : Snapshot) : Prop where
  identities : ∀ id a, s.applications.lookup id = some a → a.identity = id
  index : ∀ n, Inverse (indexKeys u n) s.applications (s.maps.index n)
  documents : ∀ id, s.searchDocuments.lookup id = (s.applications.lookup id).map (fun _ => searchDocument u id)
  bindings : ∀ id, s.sourceBindings.lookup id = (s.applications.lookup id).bind bindingsOf

/-- The snapshots hold the same records. -/
structure Snapshot.SameRecords (s s' : Snapshot) : Prop where
  generation : s.generation = s'.generation
  applications : s.applications = s'.applications
  projects : s.projects = s'.projects
  repositories : s.repositories = s'.repositories
  clusters : s.clusters = s'.clusters
  sources : s.sources = s'.sources

/-- **There is one exact snapshot of given records.** -/
theorem Snapshot.Exact.unique (h : s.Exact u) (h' : s'.Exact u) (hsame : s.SameRecords s') : s = s' := by
  have hdocs : s.searchDocuments = s'.searchDocuments := by
    apply Finmap.ext_lookup
    intro id
    rw [h.documents, h'.documents, hsame.applications]
  have hbind : s.sourceBindings = s'.sourceBindings := by
    apply Finmap.ext_lookup
    intro id
    rw [h.bindings, h'.bindings, hsame.applications]
  have hmaps : s.maps = s'.maps := by
    apply Contents.ext
    · funext n
      have hindex := h.index n
      rw [hsame.applications] at hindex
      exact hindex.unique (h'.index n)
    funext t
    cases t with
    | applications => exact hsame.applications
    | projects => exact hsame.projects
    | repositories => exact hsame.repositories
    | clusters => exact hsame.clusters
    | sources => exact hsame.sources
    | searchDocuments => exact hdocs
    | sourceBindings => exact hbind
  cases s
  cases s'
  exact congrArg₂ Snapshot.mk hsame.generation hmaps

theorem grouped_newSnapshot (generation : Nat) : (newSnapshot generation).Grouped := by
  refine ⟨?_, ?_, ?_⟩
  · intro id a ha
    cases ha
  · intro n _
    exact inverse_empty
  · intro id
    rfl

theorem exact_newSnapshot (generation : Nat) : (newSnapshot generation).Exact u := by
  refine ⟨?_, fun n => inverse_empty, fun _ => rfl, fun _ => rfl⟩
  intro id a ha
  cases ha

theorem Snapshot.Grouped.addApplicationMutable (h : s.Grouped) {a : ApplicationSummary}
    (hnew : s.applications.lookup a.identity = none) : (addApplicationMutable s a).Grouped := by
  have hbound : s.sourceBindings.lookup a.identity = none := by
    rw [h.bindings, hnew]
    rfl
  have happs : (Fleet.addApplicationMutable s a).applications = s.applications.insert a.identity a := by
    rw [Fleet.addApplicationMutable]
    cases bindingsOf a <;> rfl
  have hindex : ∀ n, (Fleet.addApplicationMutable s a).maps.index n =
      addKeys (s.maps.index n) (indexKeysForApplication a n) a.identity := by
    intro n
    rw [Fleet.addApplicationMutable]
    cases bindingsOf a <;> rfl
  have hbind : ∀ id, (Fleet.addApplicationMutable s a).sourceBindings.lookup id =
      if id = a.identity then bindingsOf a else s.sourceBindings.lookup id := by
    intro id
    rw [Fleet.addApplicationMutable]
    cases hlist : bindingsOf a with
    | none =>
      show s.sourceBindings.lookup id = _
      by_cases hid : id = a.identity
      · rw [if_pos hid, hid, hbound]
      · rw [if_neg hid]
    | some bindings => exact lookup_insert_eq ..
  refine ⟨?_, ?_, ?_⟩
  · intro id b hb
    rw [happs, lookup_insert_eq] at hb
    by_cases hid : id = a.identity
    · rw [if_pos hid] at hb
      rw [hid, ← Option.some.inj hb]
    · rw [if_neg hid] at hb
      exact h.identities id b hb
  · intro n hn
    rw [happs, hindex]
    exact (h.index n hn).add hnew a
  · intro id
    rw [hbind, happs, lookup_insert_eq]
    by_cases hid : id = a.identity
    · rw [if_pos hid, if_pos hid]
      rfl
    · rw [if_neg hid, if_neg hid, h.bindings]

theorem Snapshot.Grouped.addAll {records : List ApplicationSummary} :
    ∀ {s : Snapshot}, s.Grouped → (records.map ApplicationSummary.identity).Nodup →
      (∀ a ∈ records, s.applications.lookup a.identity = none) →
      (records.foldl Fleet.addApplicationMutable s).Grouped ∧
        ∀ id a, (records.foldl Fleet.addApplicationMutable s).applications.lookup id = some a ↔
          (a ∈ records ∧ a.identity = id) ∨ s.applications.lookup id = some a := by
  induction records with
  | nil =>
    intro s hs _ _
    refine ⟨hs, ?_⟩
    intro id a
    simp
  | cons r rest ih =>
    intro s hs hdist hnew
    rw [map_cons, nodup_cons] at hdist
    have hadded : ∀ id, (Fleet.addApplicationMutable s r).applications.lookup id =
        if id = r.identity then some r else s.applications.lookup id := by
      intro id
      rw [Fleet.addApplicationMutable]
      cases bindingsOf r <;> exact lookup_insert_eq ..
    have hrest : ∀ a ∈ rest, (Fleet.addApplicationMutable s r).applications.lookup a.identity = none := by
      intro a ha
      have hne : a.identity ≠ r.identity := by
        intro heq
        exact hdist.1 (heq ▸ mem_map_of_mem ha)
      rw [hadded, if_neg hne]
      exact hnew a (mem_cons_of_mem r ha)
    obtain ⟨hgrouped, hlookup⟩ := ih (hs.addApplicationMutable (hnew r mem_cons_self)) hdist.2 hrest
    refine ⟨hgrouped, ?_⟩
    intro id a
    show (rest.foldl Fleet.addApplicationMutable (Fleet.addApplicationMutable s r)).applications.lookup id = some a ↔ _
    rw [hlookup, hadded, mem_cons]
    by_cases hid : id = r.identity
    · subst hid
      rw [if_pos rfl, hnew r mem_cons_self]
      constructor
      · rintro (⟨ha, hid⟩ | heq)
        · exact .inl ⟨.inr ha, hid⟩
        · exact .inl ⟨.inl (Option.some.inj heq).symm, by rw [← Option.some.inj heq]⟩
      · rintro (⟨rfl | ha, hid⟩ | heq)
        · exact .inr rfl
        · exact .inl ⟨ha, hid⟩
        · cases heq
    · rw [if_neg hid]
      constructor
      · rintro (⟨ha, hid'⟩ | hold)
        · exact .inl ⟨.inr ha, hid'⟩
        · exact .inr hold
      · rintro (⟨rfl | ha, hid'⟩ | hold)
        · exact absurd hid'.symm hid
        · exact .inl ⟨ha, hid'⟩
        · exact .inr hold

/-- The maps of records that no index is about. -/
def TableName.IsPlain (t : TableName) : Prop := t = .projects ∨ t = .repositories ∨ t = .clusters ∨ t = .sources

theorem foldl_addApplicationMutable (records : List ApplicationSummary) : ∀ s : Snapshot,
    (records.foldl addApplicationMutable s).generation = s.generation ∧
      ∀ t : TableName, t.IsPlain → (records.foldl addApplicationMutable s).maps.table t = s.maps.table t := by
  induction records with
  | nil => exact fun s => ⟨rfl, fun _ _ => rfl⟩
  | cons a rest ih =>
    intro s
    obtain ⟨hgen, htable⟩ := ih (addApplicationMutable s a)
    have hadded : (addApplicationMutable s a).generation = s.generation ∧
        ∀ t : TableName, t.IsPlain → (addApplicationMutable s a).maps.table t = s.maps.table t := by
      rw [addApplicationMutable]
      cases bindingsOf a with
      | none => exact ⟨rfl, by rintro t (rfl | rfl | rfl | rfl) <;> rfl⟩
      | some bindings => exact ⟨rfl, by rintro t (rfl | rfl | rfl | rfl) <;> rfl⟩
    exact ⟨hgen.trans hadded.1, fun t ht => (htable t ht).trans (hadded.2 t ht)⟩

/-- The loop of `rebuildSearchIndex` changes the search index only, and puts the given applications into it. -/
theorem foldl_addToSearchIndex (ids : List ObjectKey) : ∀ s : Snapshot,
    let s' := ids.foldl (addToSearchIndex u) s
    s'.generation = s.generation ∧ (∀ t, t ≠ .searchDocuments → s'.maps.table t = s.maps.table t) ∧
      (∀ n, n ≠ .trigrams → s'.maps.index n = s.maps.index n) ∧
      (∀ id, s'.searchDocuments.lookup id =
        if id ∈ ids then some (searchDocument u id) else s.searchDocuments.lookup id) ∧
      (∀ k id, id ∈ posting (s'.maps.index .trigrams) k ↔
        (id ∈ ids ∧ k ∈ searchKeys u id) ∨ id ∈ posting (s.maps.index .trigrams) k) ∧
      (Tight (s.maps.index .trigrams) → Tight (s'.maps.index .trigrams)) := by
  induction ids with
  | nil =>
    intro s
    refine ⟨rfl, fun _ _ => rfl, fun _ _ => rfl, ?_, ?_, id⟩
    · intro id
      simp
    · intro k id
      simp
  | cons j ids ih =>
    intro s
    obtain ⟨hgen, htable, hindex, hdocs, hpostings, htight⟩ := ih (addToSearchIndex u s j)
    have hsearch : (addToSearchIndex u s j).maps.index .trigrams =
        addKeys (s.maps.index .trigrams) (searchKeys u j) j :=
      update_self IndexName.trigrams _ s.maps.index
    refine ⟨hgen, ?_, ?_, ?_, ?_, ?_⟩
    · intro t ht
      exact (htable t ht).trans (update_of_ne ht ..)
    · intro n hn
      exact (hindex n hn).trans (update_of_ne hn ..)
    · intro id
      have hadded : (addToSearchIndex u s j).searchDocuments.lookup id =
          if id = j then some (searchDocument u j) else s.searchDocuments.lookup id := lookup_insert_eq ..
      show (ids.foldl (addToSearchIndex u) (addToSearchIndex u s j)).searchDocuments.lookup id = _
      rw [hdocs, hadded]
      by_cases hid : id = j
      · simp [hid]
      · simp [hid]
    · intro k id
      show id ∈ posting ((ids.foldl (addToSearchIndex u) (addToSearchIndex u s j)).maps.index .trigrams) k ↔ _
      rw [hpostings, hsearch, posting_addKeys, mem_cons]
      by_cases hid : id = j
      · subst hid
        by_cases hk : k ∈ searchKeys u id <;> simp [hk]
      · by_cases hk : k ∈ searchKeys u j <;> simp [hk, hid]
    · intro h
      apply htight
      rw [hsearch]
      exact h.addKeys

/-- **Working out the search index makes a grouped snapshot exact.** -/
theorem Snapshot.Grouped.rebuildSearchIndex (h : s.Grouped) :
    (rebuildSearchIndex u s).Exact u ∧ (rebuildSearchIndex u s).SameRecords s := by
  obtain ⟨hgen, htable, hindex, hdocs, hpostings, htight⟩ :=
    foldl_addToSearchIndex (u := u) (sortedIDs s.applications.keys)
      ((s.setTable .searchDocuments ∅).setIndex .trigrams ∅)
  have hstart : ((s.setTable .searchDocuments ∅).setIndex .trigrams ∅).maps.index .trigrams = ∅ :=
    update_self IndexName.trigrams _ s.maps.index
  have hmem : ∀ id, id ∈ sortedIDs s.applications.keys ↔ ∃ a, s.applications.lookup id = some a := by
    intro id
    rw [sortedIDs, Finset.mem_sort, Finmap.mem_keys, Finmap.mem_iff]
  have happs : (Fleet.rebuildSearchIndex u s).applications = s.applications := htable _ (by decide)
  have hbind : (Fleet.rebuildSearchIndex u s).sourceBindings = s.sourceBindings := htable _ (by decide)
  refine ⟨⟨?_, ?_, ?_, ?_⟩, ⟨hgen, happs, htable _ (by decide), htable _ (by decide),
    htable _ (by decide), htable _ (by decide)⟩⟩
  · rw [happs]
    exact h.identities
  · intro n
    rw [happs]
    by_cases hn : n = .trigrams
    · subst hn
      refine ⟨?_, htight ?_⟩
      · intro k id
        refine (hpostings k id).trans ?_
        rw [hstart, hmem]
        have hempty : id ∉ posting (∅ : Index IndexName.trigrams.Key ObjectKey) k := by simp [posting]
        constructor
        · rintro (⟨⟨a, ha⟩, hk⟩ | hold)
          · exact ⟨a, ha, hk⟩
          · exact absurd hold hempty
        · rintro ⟨a, ha, hk⟩
          exact .inl ⟨⟨a, ha⟩, hk⟩
      · rw [hstart]
        exact tight_empty
    · have hsame : (Fleet.rebuildSearchIndex u s).maps.index n = s.maps.index n :=
        (hindex n hn).trans (update_of_ne hn ..)
      rw [hsame]
      refine ⟨?_, (h.index n hn).tight⟩
      intro k id
      rw [(h.index n hn).mem]
      simp only [indexKeys_of_ne hn]
  · intro id
    rw [happs]
    refine (hdocs id).trans ?_
    cases ha : s.applications.lookup id with
    | none =>
      rw [if_neg (by rw [hmem, ha]; simp)]
      rfl
    | some a =>
      rw [if_pos ((hmem id).mpr ⟨a, ha⟩)]
      rfl
  · intro id
    rw [hbind, happs]
    exact h.bindings id

/-- The records that are kept under their own identity. -/
structure Snapshot.Keyed (s : Snapshot) : Prop where
  projects : ∀ key x, s.projects.lookup key = some x → x.identity = key
  repositories : ∀ key x, s.repositories.lookup key = some x → x.identity = key
  clusters : ∀ key x, s.clusters.lookup key = some x → x.identity = key
  sources : ∀ key x, s.sources.lookup key = some x → x.identity = key

theorem checkIdentities_ok {α : Type} {identity : α → ObjectKey} {message : String} {records : Table ObjectKey α}
    (h : ∀ key x, records.lookup key = some x → identity x = key) :
    checkIdentities identity message records = .ok () := by
  rw [checkIdentities, if_neg]
  intro hany
  obtain ⟨key, -, hkey⟩ := any_eq_true.mp hany
  cases hlook : records.lookup key with
  | none => simp [hlook] at hkey
  | some x => simp [hlook, h key x hlook] at hkey

theorem Snapshot.Grouped.known (h : s.Grouped) {n : IndexName} (hn : n ≠ .trigrams) :
    indexContainsUnknownApplication s n = false := by
  rw [indexContainsUnknownApplication, decide_eq_false_iff_not]
  rintro ⟨k, -, id, hid, hunk⟩
  obtain ⟨a, ha, -⟩ := ((h.index n hn).mem k id).mp hid
  exact hunk (Finmap.mem_of_lookup_eq_some ha)

theorem Snapshot.Grouped.validateApplication (h : s.Grouped) (id : ObjectKey) : validateApplication s id = .ok () := by
  rw [Fleet.validateApplication]
  cases ha : s.applications.lookup id with
  | none => rfl
  | some a =>
  have hid := h.identities id a ha
  have hbind : (s.sourceBindings.lookup id).getD [] = a.observabilityBindings := by
    rw [h.bindings, ha]
    exact getD_bindingsOf a
  simp [hid, hbind]

/-- **A grouped snapshot passes its validation.** -/
theorem Snapshot.Grouped.validateSnapshot (h : s.Grouped) (hkeyed : s.Keyed) : validateSnapshot s = .ok () := by
  have hrecs : (sortedIDs s.applications.keys).forM (Fleet.validateApplication s) = .ok () := by
    induction sortedIDs s.applications.keys with
    | nil => rfl
    | cons id ids ih =>
      show (do Fleet.validateApplication s id; ids.forM (Fleet.validateApplication s)) = .ok ()
      rw [h.validateApplication id]
      exact ih
  have hbound : (sortedIDs s.sourceBindings.keys).any (fun id => !decide (id ∈ s.applications)) = false := by
    rw [any_eq_false]
    intro id hid
    rw [sortedIDs, Finset.mem_sort, Finmap.mem_keys, Finmap.mem_iff] at hid
    obtain ⟨bindings, hlook⟩ := hid
    rw [h.bindings] at hlook
    obtain ⟨a, ha, -⟩ := Option.bind_eq_some_iff.mp hlook
    simpa using Finmap.mem_of_lookup_eq_some ha
  have hindexes : groupingIndexes.any (indexContainsUnknownApplication s) = false := by
    rw [any_eq_false]
    intro n hn
    have hne : n ≠ .trigrams := by
      rintro rfl
      revert hn
      decide
    simp [h.known hne]
  simp only [Fleet.validateSnapshot, validateApplicationRecords, validateConnectionRecords, hrecs, hbound, hindexes,
    checkIdentities_ok hkeyed.projects, checkIdentities_ok hkeyed.repositories, checkIdentities_ok hkeyed.clusters,
    checkIdentities_ok hkeyed.sources]
  rfl
end

/-! ### A sample -/

def sampleApplication : ApplicationSummary :=
  { ApplicationSummary.zero with
    identity := { inNamespace := "shop", name := "checkout" }
    project := { inNamespace := "shop", name := "default" }
    health := .healthy }

end Paprika.Fleet
