import Paprika.Fleet.Snapshot

/-!
# Fleet: search

A search text is normalised and compared with the normalised names of the applications: equal, a prefix, a substring, or
similar enough in its trigrams.  A text with a slash does not search for similar names.

`mem_search`: the search finds an application exactly if `matchOf` has a match for it, and finds it once.
-/

namespace Paprika.Fleet

open Lib.InvertedIndex Option

def maxSearchRunes : Nat := 128
def minimumTrigramShared : Nat := 3
def minimumTrigramUnion : Nat := 10

structure InvalidSearchError where
  runeCount : Nat
  maximum : Nat
  deriving DecidableEq

inductive SearchTier
  | neutral
  | exact
  | prefixed
  | substring
  | trigram
  deriving DecidableEq

structure SearchMatch where
  identity : ObjectKey
  tier : SearchTier
  sharedTrigrams : Nat
  unionTrigrams : Nat
  deriving DecidableEq

def normalizeSearch (u : Unicode) (raw : List Char) : Except InvalidSearchError (List Char) :=
  if raw.length > maxSearchRunes then .error { runeCount := raw.length, maximum := maxSearchRunes }
  else .ok (normalizeText u raw)

def tierRank : SearchTier → Nat
  | .exact => 0
  | .prefixed => 1
  | .substring => 2
  | .trigram => 3
  | .neutral => 4

/-- `directSearchTier`, none where it says false. -/
def directSearchTier (document query : List Char) : Option SearchTier :=
  if document = query then some .exact
  else if query <+: document then some .prefixed
  else if query <:+: document then some .substring
  else none

/-- `jaccardCounts`: how many trigrams are shared, and how many there are. -/
def jaccardCounts (left right : List (List Char)) : Nat × Nat :=
  let shared := left.countP (fun token => decide (token ∈ right))
  (shared, left.length + right.length - shared)

def searchMatchLess (left right : SearchMatch) : Bool :=
  if tierRank left.tier ≠ tierRank right.tier then decide (tierRank left.tier < tierRank right.tier)
  else if left.tier = .trigram ∧
      left.sharedTrigrams * right.unionTrigrams ≠ right.sharedTrigrams * left.unionTrigrams then
    decide (left.sharedTrigrams * right.unionTrigrams > right.sharedTrigrams * left.unionTrigrams)
  else decide (left.identity < right.identity)

section
variable (s : Snapshot)

/-- The direct match of an application, one round of the loop of `directMatches`. -/
def directMatch (query : List Char) (id : ObjectKey) : Option SearchMatch :=
  match s.searchDocuments.lookup id with
  | none => none
  | some document =>
    ((directSearchTier document.normalizedName query).or (directSearchTier document.normalizedFull query)).map
      (fun tier => { identity := id, tier := tier, sharedTrigrams := 0, unionTrigrams := 0 })

def directMatches (query : List Char) (allowed : IDSet) : List SearchMatch × IDSet :=
  let found := (sortedIDs allowed).filterMap (directMatch s query)
  (found, (found.map SearchMatch.identity).toFinset)

def sharesTrigram (queryTrigrams : List (List Char)) (id : ObjectKey) : Bool :=
  queryTrigrams.any (fun trigram => decide (id ∈ posting (s.maps.index .trigrams) trigram))

def trigramCandidates (queryTrigrams : List (List Char)) (allowed ranked : IDSet) : IDSet :=
  allowed.filter (fun id => id ∉ ranked ∧ sharesTrigram s queryTrigrams id)

/-- One round of the loop of `trigramMatches`. -/
def similarMatch (queryTrigrams : List (List Char)) (id : ObjectKey) : Option SearchMatch :=
  let trigrams := ((s.searchDocuments.lookup id).map SearchDocument.trigrams).getD []
  let (shared, union) := jaccardCounts queryTrigrams trigrams
  if union = 0 ∨ shared * minimumTrigramUnion < union * minimumTrigramShared then none
  else some { identity := id, tier := .trigram, sharedTrigrams := shared, unionTrigrams := union }

def trigramMatches (query : List Char) (allowed ranked : IDSet) : List SearchMatch :=
  (sortedIDs (trigramCandidates s (trigramSet query) allowed ranked)).filterMap (similarMatch s (trigramSet query))

def neutralMatches (allowed : IDSet) : List SearchMatch :=
  (sortedIDs allowed).map (fun id => { identity := id, tier := .neutral, sharedTrigrams := 0, unionTrigrams := 0 })

def intersectApplications (candidates : IDSet) : IDSet := candidates.filter (fun id => id ∈ s.applications)

def search (u : Unicode) (rawQuery : List Char) (candidates : IDSet) : Except InvalidSearchError (List SearchMatch) := do
  let query ← normalizeSearch u rawQuery
  let allowed := intersectApplications s candidates
  if allowed = ∅ then return []
  if query = [] then return neutralMatches allowed
  let (found, ranked) := directMatches s query allowed
  let found := if '/' ∈ rawQuery then found else found ++ trigramMatches s query allowed ranked
  return found.mergeSort (fun a b => !searchMatchLess b a)

/-! ### What is found -/

def trigramMatch (query : List Char) (id : ObjectKey) : Option SearchMatch :=
  if sharesTrigram s (trigramSet query) id then similarMatch s (trigramSet query) id else none

/-- The match of an application for a normalised text. -/
def matchOf (query : List Char) (fuzzy : Bool) (id : ObjectKey) : Option SearchMatch :=
  if query = [] then some { identity := id, tier := .neutral, sharedTrigrams := 0, unionTrigrams := 0 }
  else (directMatch s query id).or (if fuzzy then trigramMatch s query id else none)

variable {s}
variable {allowed : IDSet} {id : ObjectKey} {m : SearchMatch} {query : List Char}

theorem mem_sortedIDs {ids : IDSet} : id ∈ sortedIDs ids ↔ id ∈ ids := by rw [sortedIDs, Finset.mem_sort]

theorem identity_directMatch (h : directMatch s query id = some m) : m.identity = id := by
  rw [directMatch] at h
  split at h
  · cases h
  · obtain ⟨tier, -, rfl⟩ := map_eq_some_iff.mp h
    rfl

theorem identity_similarMatch {queryTrigrams : List (List Char)}
    (h : similarMatch s queryTrigrams id = some m) : m.identity = id := by
  rw [similarMatch] at h
  dsimp only at h
  split at h
  · cases h
  · rw [← some.inj h]

theorem identity_matchOf {fuzzy : Bool} (h : matchOf s query fuzzy id = some m) : m.identity = id := by
  rw [matchOf] at h
  split at h
  · rw [← some.inj h]
  obtain hdirect | ⟨-, hsimilar⟩ := or_eq_some_iff.mp h
  · exact identity_directMatch hdirect
  cases fuzzy with
  | false => cases hsimilar
  | true =>
  have hmatch : trigramMatch s query id = some m := hsimilar
  rw [trigramMatch] at hmatch
  split at hmatch
  · exact identity_similarMatch hmatch
  · cases hmatch

/-- What a loop over the applications finds, if it finds each under its own identity. -/
theorem mem_filterMap_sortedIDs {ids : IDSet} {find : ObjectKey → Option SearchMatch}
    (hfind : ∀ id m, find id = some m → m.identity = id) (m : SearchMatch) :
    m ∈ (sortedIDs ids).filterMap find ↔ m.identity ∈ ids ∧ find m.identity = some m := by
  rw [List.mem_filterMap]
  constructor
  · rintro ⟨id, hid, hm⟩
    rw [hfind id m hm]
    exact ⟨mem_sortedIDs.mp hid, hm⟩
  · rintro ⟨hid, hm⟩
    exact ⟨m.identity, mem_sortedIDs.mpr hid, hm⟩

theorem mem_directMatches (m : SearchMatch) :
    m ∈ (directMatches s query allowed).1 ↔ m.identity ∈ allowed ∧ directMatch s query m.identity = some m :=
  mem_filterMap_sortedIDs (fun _ _ => identity_directMatch) m

theorem mem_ranked : id ∈ (directMatches s query allowed).2 ↔ id ∈ allowed ∧ directMatch s query id ≠ none := by
  rw [directMatches, List.mem_toFinset, List.mem_map]
  constructor
  · rintro ⟨m, hm, rfl⟩
    obtain ⟨hin, hmatch⟩ := (mem_directMatches m).mp hm
    exact ⟨hin, by rw [hmatch]; exact some_ne_none m⟩
  rintro ⟨hin, hne⟩
  obtain ⟨m, hm⟩ := ne_none_iff_exists'.mp hne
  have hid := identity_directMatch hm
  refine ⟨m, (mem_directMatches m).mpr ?_, hid⟩
  rw [hid]
  exact ⟨hin, hm⟩

theorem mem_trigramMatches {ranked : IDSet} (m : SearchMatch) : m ∈ trigramMatches s query allowed ranked ↔
      m.identity ∈ allowed ∧ m.identity ∉ ranked ∧ trigramMatch s query m.identity = some m := by
  rw [trigramMatches, mem_filterMap_sortedIDs (fun _ _ => identity_similarMatch), trigramCandidates, Finset.mem_filter,
    trigramMatch]
  by_cases hshares : sharesTrigram s (trigramSet query) m.identity = true
  · simp only [hshares, and_true, if_true]
    tauto
  · simp only [hshares, and_false, false_and, Bool.false_eq_true, if_false]
    simp

/-- **What the search finds**, for a normalised text that is searched for with similar names or without. -/
theorem mem_search {u : Unicode} {rawQuery : List Char} {candidates : IDSet}
    {found : List SearchMatch} (hquery : normalizeSearch u rawQuery = .ok query)
    (h : search s u rawQuery candidates = .ok found) (m : SearchMatch) :
    m ∈ found ↔ m.identity ∈ intersectApplications s candidates ∧
      matchOf s query (decide ('/' ∉ rawQuery)) m.identity = some m := by
  simp only [search, hquery, bind, Except.bind, pure, Except.pure] at h
  split at h
  · next hempty =>
    rw [← Except.ok.inj h, hempty]
    simp
  split at h
  · next hnil =>
    rw [← Except.ok.inj h, neutralMatches, matchOf, if_pos hnil, List.mem_map]
    constructor
    · rintro ⟨id, hid, rfl⟩
      exact ⟨mem_sortedIDs.mp hid, rfl⟩
    · rintro ⟨hid, hm⟩
      exact ⟨m.identity, mem_sortedIDs.mpr hid, some.inj hm⟩
  · next hne =>
    rw [← Except.ok.inj h, (List.mergeSort_perm _ _).mem_iff, matchOf, if_neg hne]
    by_cases hslash : '/' ∈ rawQuery
    · rw [if_pos hslash, mem_directMatches]
      simp [hslash]
    · rw [if_neg hslash, List.mem_append, mem_directMatches, mem_trigramMatches, mem_ranked]
      simp only [hslash, not_false_eq_true, decide_true, if_true, or_eq_some_iff]
      tauto
end

end Paprika.Fleet
