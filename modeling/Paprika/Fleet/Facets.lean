import Mathlib.Data.Set.Card
import Paprika.Fleet.Filter

/-!
# Fleet: what the facets say

A bucket of a facet stands for a key of the index of its dimension (`FacetDimension.key`).

* `mem_facetValues_iff` — an application counts for the keys that its record has in the index, but for the empty one;
* **`facets_exclude_own`** — a bucket counts the applications of its key that pass the filter of every other dimension.
-/

namespace Paprika.Fleet

open Lib.InvertedIndex List

variable {s : Snapshot} {u : Unicode} {scope : QueryScope} {d : FacetDimension} {id : ObjectKey} {ids : IDSet}

def FacetDimension.key : (d : FacetDimension) → d.index.Key → ObjectKey × String
  | .project, k => (k, "")
  | .cluster, k => (k, "")
  | .inNamespace, k => (.zero, k)
  | .stage, k => (.zero, k)
  | .health, k => (.zero, canonicalHealth k)
  | .sync, k => (.zero, canonicalSync k)
  | .release, k => (.zero, canonicalRelease k)
  | .rollout, k => (.zero, canonicalRollout k)
  | .sourceType, k => (.zero, canonicalSourceType k)

/-- The empty key has no bucket. -/
def Reportable (d : FacetDimension) (k : d.index.Key) : Prop := d.key k ≠ (.zero, "")

theorem key_injective (d : FacetDimension) : Function.Injective d.key := by
  intro k k' h
  have htext := (Prod.mk.inj h).2
  cases d with
  | project => exact (Prod.mk.inj h).1
  | cluster => exact (Prod.mk.inj h).1
  | inNamespace => exact htext
  | stage => exact htext
  | health | sync | release | rollout | sourceType =>
    revert htext
    cases k <;> cases k' <;> first | exact fun _ => rfl | exact fun h => absurd h (by decide)

/-! ### The law -/

def HasValue (s : Snapshot) (d : FacetDimension) (k : d.index.Key) (id : ObjectKey) : Prop :=
  ∃ a, s.applications.lookup id = some a ∧ k ∈ indexKeysForApplication a d.index

def Meets (s : Snapshot) (filter : ApplicationFilter) (id : ObjectKey) (d : FacetDimension) : Prop :=
  filter.selected d = [] ∨ ∃ k ∈ filter.selected d, HasValue s d k id

/-- The applications that the caller may read and the search finds. -/
def Searched (s : Snapshot) (scope : QueryScope) (query : List Char) (fuzzy : Bool) (id : ObjectKey) : Prop :=
  ∃ a, s.applications.lookup id = some a ∧ a.project ∈ scope.projects ∧ (matchOf s query fuzzy id).isSome

/-- What counts for a key: what is searched, passes the filter of every other dimension and has the key. -/
def Counted (s : Snapshot) (scope : QueryScope) (filter : ApplicationFilter) (query : List Char) (fuzzy : Bool)
    (d : FacetDimension) (k : d.index.Key) : Set ObjectKey :=
  {id | Searched s scope query fuzzy id ∧ (∀ e, e ≠ d → Meets s filter id e) ∧ HasValue s d k id}

def FacetBucket.pair (b : FacetBucket) : ObjectKey × String := (b.object, b.value)

/-- The buckets have this count for a key, and no bucket for a key that nothing counts for. -/
structure Tallies (buckets : List FacetBucket) (d : FacetDimension) (k : d.index.Key) (n : Nat) : Prop where
  counted : ∀ b ∈ buckets, b.dimension = d → b.pair = d.key k → b.count = n
  listed : 0 < n → ∃ b ∈ buckets, b.dimension = d ∧ b.pair = d.key k

/-! ### What is counted -/

/-- What an application counts for in a dimension. -/
def facetValues (s : Snapshot) (d : FacetDimension) (id : ObjectKey) : List (ObjectKey × String) :=
  (objectValues s d id).map (fun key => (key, "")) ++ (scalarValues s d id).map (fun text => (.zero, text))

variable {a : ApplicationSummary}

theorem applicationAt_eq (ha : s.applications.lookup id = some a) : applicationAt s id = a := by
  rw [applicationAt, ha]
  rfl

theorem map_filter_ne {κ : Type} [DecidableEq κ] {zero : κ} {key : κ → ObjectKey × String}
    (hkey : ∀ k, key k = (.zero, "") ↔ k = zero) (ks : List κ) :
    (ks.filter (· ≠ zero)).map key = (ks.map key).filter (· ≠ (.zero, "")) := by
  rw [filter_map]
  refine congrArg _ (filter_congr fun k _ => ?_)
  simp only [Function.comp, ne_eq, hkey]

theorem map_dedup_filter_ne {κ : Type} [DecidableEq κ] {zero : κ} {key : κ → ObjectKey × String}
    (hkey : ∀ k, key k = (.zero, "") ↔ k = zero) (ks : List κ) :
    (ks.filter (· ≠ zero)).dedup.map key = ((ks.filter (· ≠ zero)).dedup.map key).filter (· ≠ (.zero, "")) := by
  have hself : ((ks.filter (· ≠ zero)).dedup).filter (· ≠ zero) = (ks.filter (· ≠ zero)).dedup :=
    filter_eq_self.mpr fun k hk => (mem_filter.mp (mem_dedup.mp hk)).2
  rw [← map_filter_ne hkey, hself]

section
variable (hid : a.identity = id) (ha : s.applications.lookup id = some a)
include hid ha

/-- **An application counts for the keys of its record**, but for the empty one. -/
theorem facetValues_eq :
    facetValues s d id = ((indexKeysForApplication a d.index).map d.key).filter (· ≠ (.zero, "")) := by
  have hat := applicationAt_eq ha
  have hobj : ∀ k : ObjectKey, (k, "") = ((.zero, "") : ObjectKey × String) ↔ k = .zero := by simp
  have htext : ∀ k : String, (ObjectKey.zero, k) = (.zero, "") ↔ k = "" := by simp
  subst hid
  unfold facetValues
  cases d <;> simp only [objectValues, scalarValues, hat, map_nil, nil_append, append_nil]
  case project => exact map_filter_ne hobj _
  case cluster => exact map_dedup_filter_ne hobj _
  case stage => exact map_dedup_filter_ne htext _
  all_goals exact map_filter_ne htext _

theorem nodup_facetValues : (facetValues s d id).Nodup := by
  rw [facetValues_eq hid ha]
  refine Nodup.filter _ (Nodup.map (key_injective d) ?_)
  cases d <;> first | exact nodup_singleton _ | exact nodup_dedup _
end

/-! ### Buckets -/

/-- The buckets of one dimension. -/
structure Lists (buckets : List FacetBucket) (n : ObjectKey × String → Nat) : Prop where
  counted : ∀ b ∈ buckets, b.count = n b.pair ∧ 0 < b.count
  listed : ∀ p, 0 < n p → ∃ b ∈ buckets, b.pair = p
  once : (buckets.map FacetBucket.pair).Nodup

theorem exists_mem_of_occurrences {κ : Type} [DecidableEq κ] {values : ObjectKey → List κ} {k : κ}
    (h : 0 < occurrences values ids k) : ∃ id ∈ ids, k ∈ values id := by
  obtain ⟨id, hid, hne⟩ := Finset.exists_ne_zero_of_sum_ne_zero (Nat.ne_of_gt h)
  exact ⟨id, hid, count_pos_iff.mp (Nat.pos_of_ne_zero hne)⟩

theorem occurrences_of_nodup {κ : Type} [DecidableEq κ] {values : ObjectKey → List κ} {k : κ} {counted : IDSet}
    (h : ∀ id ∈ ids, (values id).Nodup) (hcounted : ∀ id, id ∈ counted ↔ id ∈ ids ∧ k ∈ values id) :
    occurrences values ids k = counted.card := by
  have hfilter : counted = ids.filter (k ∈ values ·) := Finset.ext fun id => by rw [hcounted, Finset.mem_filter]
  rw [hfilter, Finset.card_filter]
  exact Finset.sum_congr rfl fun id hid => (h id hid).count

theorem lists_bucketsOf {κ : Type} [LinearOrder κ] {bucket : κ → Nat → FacetBucket} {key : κ → ObjectKey × String}
    (hkey : Function.Injective key) (hbucket : ∀ k n, (bucket k n).pair = key k ∧ (bucket k n).count = n)
    (values : ObjectKey → List κ) :
    Lists (bucketsOf bucket (countValues values ids)) (occurrences (fun id => (values id).map key) ids) := by
  have hmap : ∀ k, occurrences (fun id => (values id).map key) ids (key k) = occurrences values ids k := by
    intro k
    refine Finset.sum_congr rfl fun id _ => ?_
    simp only [count, countP_map]
    exact countP_congr fun j _ => by simp [hkey.eq_iff]
  have hlook : ∀ k n, (countValues values ids).lookup k = some n ↔ n = occurrences values ids k ∧ 0 < n := by
    intro k n
    rw [lookup_countValues]
    split
    · next hzero => simp only [reduceCtorEq, false_iff, not_and, not_lt]; omega
    · next hpos => simp only [Option.some.injEq]; omega
  refine ⟨?_, ?_, ?_⟩
  · intro b hb
    obtain ⟨k, n, hn, rfl⟩ := mem_bucketsOf.mp hb
    rw [(hbucket k n).1, (hbucket k n).2, hmap]
    exact (hlook k n).mp hn
  · intro p hp
    obtain ⟨id, -, hmem⟩ := exists_mem_of_occurrences hp
    obtain ⟨k, -, rfl⟩ := mem_map.mp hmem
    rw [hmap] at hp
    exact ⟨_, mem_bucketsOf.mpr ⟨k, _, (hlook k _).mpr ⟨rfl, hp⟩, rfl⟩, (hbucket k _).1⟩
  · have hpairs : (bucketsOf bucket (countValues values ids)).map FacetBucket.pair =
        ((countValues values ids).keys.sort (· ≤ ·)).map key := by
      rw [bucketsOf, map_map]
      exact map_congr_left fun k _ => (hbucket k _).1
    rw [hpairs]
    exact (Finset.sort_nodup _ _).map hkey

theorem lists_facetBuckets (s : Snapshot) (ids : IDSet) (d : FacetDimension) :
    Lists (facetBuckets s ids d) (occurrences (facetValues s d) ids) := by
  have hobj : Function.Injective fun k : ObjectKey => (k, "") := fun _ _ h => (Prod.mk.inj h).1
  have htext : Function.Injective fun k : String => (ObjectKey.zero, k) := fun _ _ h => (Prod.mk.inj h).2
  unfold facetValues
  cases d
  case project | cluster =>
    simp only [scalarValues, map_nil, append_nil]
    exact lists_bucketsOf hobj (fun k n => ⟨rfl, rfl⟩) _
  all_goals
    simp only [objectValues, map_nil, nil_append]
    exact lists_bucketsOf htext (fun k n => ⟨rfl, rfl⟩) _

/-! ### The facets of a query -/

section
variable {filter : ApplicationFilter} {text query : List Char} {fuzzy : Bool}

section
variable (h : s.Grouped)
include h

theorem mem_posting_iff {k : d.index.Key} : id ∈ posting (s.maps.index d.index) k ↔ HasValue s d k id :=
  (h.index d.index (by cases d <;> exact nofun)).mem k id

theorem matchIn_ne_none_iff : matchIn s scope query fuzzy id ≠ none ↔ Searched s scope query fuzzy id := by
  have hallow := (mem_readable (h.index .project IndexName.noConfusion) : id ∈ intersectApplications s (authorized s scope) ↔ _)
  rw [matchIn, ← Option.isSome_iff_ne_none, Searched]
  split
  · next hin =>
    obtain ⟨a, ha, hproj⟩ := hallow.mp hin
    refine ⟨fun hm => ⟨a, ha, hproj, hm⟩, ?_⟩
    rintro ⟨_, _, _, hm⟩
    exact hm
  · next hout =>
    refine iff_of_false Bool.false_ne_true ?_
    rintro ⟨a, ha, hproj, _⟩
    exact hout (hallow.mpr ⟨a, ha, hproj⟩)

theorem selects_iff : Selects s filter id d ↔ Meets s filter id d := by simp only [Selects, Meets, mem_posting_iff h]

/-- **How often a key is counted.** -/
theorem occurrences_facetValues {k : d.index.Key} (hk : Reportable d k) {counted : IDSet}
    (hknown : ∀ id ∈ ids, (s.applications.lookup id).isSome)
    (hcounted : ∀ id, id ∈ counted ↔ id ∈ ids ∧ HasValue s d k id) :
    occurrences (facetValues s d) ids (d.key k) = counted.card := by
  have hat : ∀ id ∈ ids, ∃ a, s.applications.lookup id = some a ∧ a.identity = id := fun id hid =>
    (Option.isSome_iff_exists.mp (hknown id hid)).imp fun a ha => ⟨ha, h.identities id a ha⟩
  have hmem : ∀ id ∈ ids, d.key k ∈ facetValues s d id ↔ HasValue s d k id := by
    intro id hid
    obtain ⟨a, ha, hident⟩ := hat id hid
    rw [facetValues_eq hident ha, mem_filter, mem_map_of_injective (key_injective d), HasValue, ha]
    exact ⟨fun hin => ⟨a, rfl, hin.1⟩, fun ⟨_, heq, hin⟩ => ⟨Option.some.inj heq ▸ hin, decide_eq_true hk⟩⟩
  have hnd : ∀ id ∈ ids, (facetValues s d id).Nodup := by
    intro id hid
    obtain ⟨a, ha, hident⟩ := hat id hid
    exact nodup_facetValues hident ha
  refine occurrences_of_nodup hnd fun id => (hcounted id).trans ?_
  exact and_congr_right fun hid => (hmem id hid).symm

/-- **The facets exclude their own filter.** -/
theorem facets_exclude_own (u : Unicode) (scope : QueryScope) (filter : ApplicationFilter) (text : List Char) :
    match normalizeSearch u text with
    | .error e => facets s u scope filter text = .error e ∧ filterApplications s u scope filter text = .error e
    | .ok query => ∃ buckets r,
        facets s u scope filter text = .ok buckets ∧ filterApplications s u scope filter text = .ok r ∧
        (buckets.map fun b => (b.dimension, b.pair)).Nodup ∧
        (∀ b ∈ buckets, 0 < b.count ∧ ∃ k, Reportable b.dimension k ∧ b.pair = b.dimension.key k) ∧
        ∀ d k, Reportable d k → Tallies buckets d k (Counted s scope filter query (decide ('/' ∉ text)) d k).ncard ∧
          (filter.selected d = [k] → Tallies buckets d k r.ids.card) ∧
          ∀ filter' buckets', (∀ e, e ≠ d → filter'.selected e = filter.selected e) →
            facets s u scope filter' text = .ok buckets' →
            buckets'.filter (·.dimension = d) = buckets.filter (·.dimension = d) := by
  cases hquery : normalizeSearch u text with
  | error e =>
    simp only [facets, filterApplications, authorizedSearch, search, hquery]
    exact ⟨rfl, rfl⟩
  | ok query =>
  obtain ⟨candidates, hfacets, hcandidates⟩ := facets_ok s scope filter hquery
  obtain ⟨r, hr, hids, -⟩ := filterApplications_ok s scope filter hquery
  simp only [matchIn_ne_none_iff h, selects_iff h] at hcandidates hids
  have hknown : ∀ d, ∀ id ∈ candidates d, (s.applications.lookup id).isSome := by
    intro d id hid
    obtain ⟨⟨a, ha, -⟩, -⟩ := (hcandidates d id).mp hid
    exact ha ▸ rfl
  have hreports : ∀ d k, Reportable d k → ∀ counted : IDSet,
      (∀ id, id ∈ counted ↔ id ∈ candidates d ∧ HasValue s d k id) →
      Tallies (facetDimensions.flatMap fun d => facetBuckets s (candidates d) d) d k counted.card := by
    intro d k hk counted hcounted
    have hlists := lists_facetBuckets s (candidates d) d
    rw [← occurrences_facetValues h hk (hknown d) hcounted]
    constructor
    · intro b hb hd hpair
      obtain ⟨e, -, hb⟩ := mem_flatMap.mp hb
      obtain rfl : e = d := (dimension_facetBuckets e b hb).symm.trans hd
      exact hpair ▸ (hlists.counted b hb).1
    · intro hpos
      obtain ⟨b, hb, hpair⟩ := hlists.listed _ hpos
      exact ⟨b, mem_flatMap.mpr ⟨d, mem_facetDimensions d, hb⟩, dimension_facetBuckets d b hb, hpair⟩
  refine ⟨_, r, hfacets, hr, ?_, ?_, fun d k hk => ⟨?_, ?_, ?_⟩⟩
  · rw [map_flatMap, nodup_flatMap]
    constructor
    · intro d _
      have hpairs : (facetBuckets s (candidates d) d).map (fun b => (b.dimension, b.pair)) =
          ((facetBuckets s (candidates d) d).map FacetBucket.pair).map (d, ·) := by
        rw [map_map]
        exact map_congr_left fun b hb => by rw [dimension_facetBuckets d b hb]; rfl
      rw [hpairs]
      exact (lists_facetBuckets s _ d).once.map (Prod.mk_right_injective d)
    · refine (show facetDimensions.Nodup by decide).imp fun hne => ?_
      rw [Function.onFun, disjoint_left]
      intro x hx hx'
      obtain ⟨b, hb, rfl⟩ := mem_map.mp hx
      obtain ⟨b', hb', heq⟩ := mem_map.mp hx'
      refine hne ?_
      rw [← dimension_facetBuckets _ b hb, ← dimension_facetBuckets _ b' hb']
      exact (Prod.mk.inj heq).1.symm
  · intro b hb
    obtain ⟨d, -, hb⟩ := mem_flatMap.mp hb
    obtain rfl := dimension_facetBuckets d b hb
    obtain ⟨hcount, hpos⟩ := (lists_facetBuckets s _ _).counted b hb
    obtain ⟨id, hid, hvalue⟩ := exists_mem_of_occurrences (hcount ▸ hpos)
    obtain ⟨a, ha⟩ := Option.isSome_iff_exists.mp (hknown _ id hid)
    rw [facetValues_eq (h.identities id a ha) ha, mem_filter, mem_map] at hvalue
    obtain ⟨⟨k, -, hk⟩, hempty⟩ := hvalue
    exact ⟨hpos, k, hk.trans_ne (of_decide_eq_true hempty), hk.symm⟩
  · classical
    have hcounted : Counted s scope filter query (decide ('/' ∉ text)) d k =
        ((candidates d).filter (HasValue s d k) : Finset ObjectKey) := by
      ext id
      rw [Finset.mem_coe, Finset.mem_filter, hcandidates, and_assoc]
      rfl
    rw [hcounted, Set.ncard_coe_finset]
    exact hreports d k hk _ fun id => Finset.mem_filter
  · intro hone
    refine hreports d k hk _ fun id => ?_
    rw [hids, hcandidates, and_assoc]
    refine and_congr_right fun _ => ⟨fun hall => ⟨fun e _ => hall e, ?_⟩, fun hmeets e => ?_⟩
    · simpa [Meets, hone] using hall d
    · by_cases he : e = d
      · subst he
        exact .inr ⟨k, hone ▸ mem_singleton_self k, hmeets.2⟩
      · exact hmeets.1 e he
  · intro filter' buckets' hsame hfacets'
    obtain ⟨candidates', hok, hcandidates'⟩ := facets_ok s scope filter' hquery
    simp only [matchIn_ne_none_iff h, selects_iff h] at hcandidates'
    obtain rfl := Except.ok.inj (hok.symm.trans hfacets')
    have hcandidate : candidates' d = candidates d := by
      ext id
      rw [hcandidates', hcandidates]
      refine and_congr_right fun _ => forall_congr' fun e => imp_congr_right fun he => ?_
      rw [Meets, Meets, hsame e he]
    rw [filter_flatMap_dimension (fun d => dimension_facetBuckets d) d _ (by decide),
      filter_flatMap_dimension (fun d => dimension_facetBuckets d) d _ (by decide), hcandidate]
end

end

/-! ### An application without a sync state -/

/-- The fleet of one application, whose sync state is not known yet. -/
def plainFleet : Snapshot := addApplicationMutable (newSnapshot 1) sampleApplication

def plainScope : QueryScope := { projects := {sampleApplication.project}, capabilitiesByProject := ∅ }

theorem grouped_plainFleet : plainFleet.Grouped := (grouped_newSnapshot 1).addApplicationMutable rfl

theorem facets_exclude_own_plain : plainFleet.Grouped ∧ ∃ buckets,
    facets plainFleet asciiUnicode plainScope .empty [] = .ok buckets ∧
    Tallies buckets .project sampleApplication.project
      (Counted plainFleet plainScope .empty [] true .project sampleApplication.project).ncard := by
  obtain ⟨buckets, _, hbuckets, -, -, -, h⟩ := facets_exclude_own grouped_plainFleet asciiUnicode plainScope .empty []
  exact ⟨grouped_plainFleet, buckets, hbuckets, (h .project sampleApplication.project (by unfold Reportable; decide)).1⟩

/-- Only the sync state that is not specified. -/
def unsynced : ApplicationFilter := { ApplicationFilter.empty with sync := [.unspecified] }

/-- The state that is not specified is selected, and has no bucket. -/
theorem unspecified_has_no_bucket : ∃ buckets r, facets plainFleet asciiUnicode plainScope unsynced [] = .ok buckets ∧
    filterApplications plainFleet asciiUnicode plainScope unsynced [] = .ok r ∧
    0 < r.ids.card ∧ ∀ b ∈ buckets, b.dimension ≠ .sync := by
  have hquery : normalizeSearch asciiUnicode [] = .ok [] := rfl
  obtain ⟨r, hr, hids, -⟩ := filterApplications_ok plainFleet plainScope unsynced hquery
  obtain ⟨candidates, hfacets, -⟩ := facets_ok plainFleet plainScope unsynced hquery
  refine ⟨_, r, hfacets, hr, Finset.card_pos.mpr ⟨sampleApplication.identity, ?_⟩, ?_⟩
  · simp only [hids, matchIn_ne_none_iff grouped_plainFleet, selects_iff grouped_plainFleet]
    refine ⟨⟨sampleApplication, rfl, Finset.mem_singleton_self _, rfl⟩, fun d => ?_⟩
    by_cases hd : d = .sync
    · subst hd
      exact .inr ⟨.unspecified, mem_singleton_self _, sampleApplication, rfl, mem_singleton_self _⟩
    · cases d <;> first | exact absurd rfl hd | exact .inl rfl
  intro b hb hsync
  obtain ⟨d, -, hb⟩ := mem_flatMap.mp hb
  obtain rfl : d = .sync := (dimension_facetBuckets d b hb).symm.trans hsync
  obtain ⟨hcount, hpos⟩ := (lists_facetBuckets _ _ _).counted b hb
  obtain ⟨id, -, hvalue⟩ := exists_mem_of_occurrences (hcount ▸ hpos)
  have hplain : (applicationAt plainFleet id).sync = .unspecified := by
    have happlications : plainFleet.applications =
        (newSnapshot 1).applications.insert sampleApplication.identity sampleApplication := rfl
    rw [applicationAt, happlications, lookup_insert_eq]
    split <;> rfl
  simp [facetValues, objectValues, scalarValues, hplain, canonicalSync] at hvalue

end Paprika.Fleet
