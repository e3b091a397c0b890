import Paprika.Fleet.SatelliteMerge

/-!
# Fleet: the placements of a record

The placements of a record are the physical instances that clusters observe under its identity, each taken once
(`placements`).  What the merge makes of one record is a fold over the reports of the clusters (`at_foldl_mergeSatellite`),
and where no observation of another project comes first, a fold over those of its own project (`foldl_ownReports`).
-/

namespace Paprika.Fleet

open Lib.InvertedIndex List

/-! ### What merging keeps of a record -/

section
variable {current observed base : ApplicationSummary}

theorem foldl_merge_keeps {α : Type} (get : ApplicationSummary → α)
    (hget : ∀ a b, get (mergeSatelliteApplication a b) = get a) (os : List ApplicationSummary) :
    ∀ a, get (os.foldl mergeSatelliteApplication a) = get a := by
  induction os with
  | nil => exact fun _ => rfl
  | cons o os ih => exact fun a => (ih _).trans (hget a o)

/-- The fields of a control record that observations leave alone. -/
structure KeepsLocal (a m : ApplicationSummary) : Prop where
  identity : m.identity = a.identity
  satelliteOnly : m.satelliteOnly = a.satelliteOnly
  logicalIdentityName : m.logicalIdentityName = a.logicalIdentityName
  project : m.project = a.project
  currentStage : m.currentStage = a.currentStage
  currentCluster : m.currentCluster = a.currentCluster
  source : m.sourceType = a.sourceType ∧ m.sourceRevision = a.sourceRevision
  release : m.releaseState = a.releaseState
  rollout : m.rolloutState = a.rolloutState
  repository : m.repository = a.repository ∧ m.repositoryConnection = a.repositoryConnection

theorem KeepsLocal.refl (a : ApplicationSummary) : KeepsLocal a a :=
  ⟨rfl, rfl, rfl, rfl, rfl, rfl, ⟨rfl, rfl⟩, rfl, rfl, ⟨rfl, rfl⟩⟩

theorem KeepsLocal.merge (h : KeepsLocal base current) (observed : ApplicationSummary) :
    KeepsLocal base (mergeSatelliteApplication current observed) :=
  ⟨h.identity, h.satelliteOnly, h.logicalIdentityName, h.project, h.currentStage, h.currentCluster, h.source, h.release,
    h.rollout, h.repository⟩

theorem KeepsLocal.withoutOwnCounts (h : KeepsLocal base current) (b : ApplicationSummary) :
    KeepsLocal base (withoutOwnCounts current b) :=
  ⟨h.identity, h.satelliteOnly, h.logicalIdentityName, h.project, h.currentStage, h.currentCluster, h.source, h.release,
    h.rollout, h.repository⟩
end

/-! ### The placements of a record -/

variable {o : ApplicationSummary}

section

/-- The first observation of each instance that has not been seen. -/
def firstInstances (seen : Finset String) : List ApplicationSummary → List ApplicationSummary
  | [] => []
  | x :: xs =>
    if x.instanceID ∈ seen then firstInstances seen xs else x :: firstInstances (insert x.instanceID seen) xs

variable (aliases : Aliases)

def acceptedObservations (satellite : SatelliteSnapshot) : List ApplicationSummary :=
  satellite.applications.filterMap (acceptObservation aliases satellite.cluster)

/-- What the cluster observes under an identity, once for each instance. -/
def placements (satellite : SatelliteSnapshot) (id : ObjectKey) : List ApplicationSummary :=
  ((firstInstances ∅ (acceptedObservations aliases satellite)).map (canonicalObservation aliases)).filter
    (fun x => x.identity = id)

/-- The observations that are joined to the first one. -/
def joinAll : List ApplicationSummary → Option ApplicationSummary
  | [] => none
  | x :: rest => some ((rest.filter (fun y => y.project = x.project)).foldl mergeSatelliteApplication x)

variable {aliases}

theorem foldl_coalesceObservation (cluster : ClusterSummary) (xs : List ApplicationSummary) :
    ∀ (groups : Table ObjectKey ApplicationSummary) (seen : Finset String),
      (xs.foldl (coalesceObservation aliases cluster) (groups, seen)).1 =
        ((firstInstances seen (xs.filterMap (acceptObservation aliases cluster))).map
          (canonicalObservation aliases)).foldl joinObservation groups := by
  induction xs with
  | nil => exact fun _ _ => rfl
  | cons x xs ih =>
    intro groups seen
    rw [foldl_cons, filterMap_cons, coalesceObservation]
    cases haccept : acceptObservation aliases cluster x with
    | none => exact ih groups seen
    | some y =>
    dsimp only
    rw [firstInstances]
    by_cases hseen : y.instanceID ∈ seen
    · rw [if_pos hseen, if_pos hseen]
      exact ih groups seen
    · rw [if_neg hseen, if_neg hseen]
      exact ih _ _

/-- What joining makes of the group of an identity. -/
def extendGroup : Option ApplicationSummary → List ApplicationSummary → Option ApplicationSummary
  | none, xs => joinAll xs
  | some previous, xs =>
    some ((xs.filter (fun y => y.project = previous.project)).foldl mergeSatelliteApplication previous)

theorem lookup_joinObservation (groups : Table ObjectKey ApplicationSummary) (x : ApplicationSummary) (id : ObjectKey) :
    (joinObservation groups x).lookup id =
      if x.identity = id then extendGroup (groups.lookup id) [x] else groups.lookup id := by
  rw [joinObservation]
  by_cases hid : x.identity = id
  · subst hid
    rw [if_pos rfl]
    cases hlook : groups.lookup x.identity with
    | none => exact Finmap.lookup_insert _
    | some previous =>
    by_cases hproj : previous.project = x.project
    · simp [extendGroup, hproj]
    · have hne : x.project ≠ previous.project := fun heq => hproj heq.symm
      simp [extendGroup, hproj, hne, hlook]
  · rw [if_neg hid]
    cases groups.lookup x.identity with
    | none => exact Finmap.lookup_insert_of_ne _ (Ne.symm hid)
    | some previous =>
    dsimp only
    split
    · exact Finmap.lookup_insert_of_ne _ (Ne.symm hid)
    · rfl

theorem extendGroup_cons (group : Option ApplicationSummary) (x : ApplicationSummary) (xs : List ApplicationSummary) :
    extendGroup (extendGroup group [x]) xs = extendGroup group (x :: xs) := by
  cases group with
  | none => rfl
  | some previous =>
  by_cases hproj : x.project = previous.project
  · have hone : extendGroup (some previous) [x] = some (mergeSatelliteApplication previous x) := by
      simp [extendGroup, hproj]
    rw [hone, extendGroup, extendGroup, filter_cons_of_pos (by simpa using hproj)]
    rfl
  · have hone : extendGroup (some previous) [x] = some previous := by simp [extendGroup, hproj]
    rw [hone, extendGroup, extendGroup, filter_cons_of_neg (by simpa using hproj)]

theorem lookup_foldl_joinObservation (xs : List ApplicationSummary) (id : ObjectKey) :
    ∀ groups : Table ObjectKey ApplicationSummary, (xs.foldl joinObservation groups).lookup id =
      if xs.filter (fun x => x.identity = id) = [] then groups.lookup id
      else extendGroup (groups.lookup id) (xs.filter (fun x => x.identity = id)) := by
  induction xs with
  | nil => exact fun _ => rfl
  | cons x xs ih =>
    intro groups
    rw [foldl_cons, ih, lookup_joinObservation]
    by_cases hid : x.identity = id
    · rw [if_pos hid, filter_cons_of_pos (by simpa using hid), if_neg (cons_ne_nil _ _)]
      split
      · next hnil => rw [hnil]
      · exact extendGroup_cons _ _ _
    · rw [if_neg hid, filter_cons_of_neg (by simpa using hid)]

/-- **What a cluster contributes to an identity.** -/
theorem lookup_coalesceGroups (satellite : SatelliteSnapshot) (id : ObjectKey) :
    (coalesceGroups aliases satellite).lookup id = joinAll (placements aliases satellite id) := by
  rw [coalesceGroups, foldl_coalesceObservation, lookup_foldl_joinObservation]
  show (if placements aliases satellite id = [] then none else joinAll (placements aliases satellite id)) = _
  split
  · next hnil =>
    rw [hnil]
    rfl
  · rfl

theorem identity_joinAll {xs : List ApplicationSummary} {id : ObjectKey}
    (hxs : ∀ x ∈ xs, x.identity = id) (h : joinAll xs = some o) : o.identity = id := by
  cases xs with
  | nil => cases h
  | cons x rest =>
    rw [← Option.some.inj h, foldl_merge_keeps ApplicationSummary.identity (fun _ _ => rfl)]
    exact hxs x mem_cons_self

theorem identity_placements {satellite : SatelliteSnapshot} {id : ObjectKey} :
    ∀ x ∈ placements aliases satellite id, x.identity = id := by
  intro x hx
  simpa using of_mem_filter hx
end

/-! ### The merge, one record at a time -/

section
variable {localApplications : Table ObjectKey ApplicationSummary} {aliases : Aliases} {id : ObjectKey}

/-- What the merge has for a record: the record, and whether its own placement was replaced. -/
def MergeState.at (state : MergeState) (id : ObjectKey) : Option ApplicationSummary × Bool :=
  (state.groups.lookup id, decide (id ∈ state.replacedLocal))

/-- Merge what a cluster contributes into a record. -/
def placeStep (base : Option ApplicationSummary) (cluster : ObjectKey) (state : Option ApplicationSummary × Bool)
    (observed : ApplicationSummary) : Option ApplicationSummary × Bool :=
  match state.1 with
  | none => (some observed, state.2)
  | some current =>
    if current.project ≠ observed.project then state
    else if base.any (fun b => !state.2 && decide (b.currentCluster = cluster)) then
      (some (mergeSatelliteApplication (withoutOwnCounts current (base.getD .zero)) observed), true)
    else (some (mergeSatelliteApplication current observed), state.2)

/-- The local record gives way to this observation. -/
def MergeState.replaces (localApplications : Table ObjectKey ApplicationSummary) (cluster : ObjectKey)
    (state : MergeState) (id : ObjectKey) : Bool :=
  (localApplications.lookup id).any (fun base =>
    decide (id ∉ state.replacedLocal) && decide (base.currentCluster = cluster))

variable {cluster : ObjectKey} {state : MergeState}

theorem mergeSatellitePlacement_new {observed : ApplicationSummary}
    (h : state.groups.lookup observed.identity = none) :
    mergeSatellitePlacement localApplications cluster state observed =
      { state with groups := state.groups.insert observed.identity observed } := by
  rw [mergeSatellitePlacement, h]

theorem mergeSatellitePlacement_other
    {observed current : ApplicationSummary} (h : state.groups.lookup observed.identity = some current)
    (hproj : current.project ≠ observed.project) :
    mergeSatellitePlacement localApplications cluster state observed = state := by
  rw [mergeSatellitePlacement, h]
  exact if_pos hproj

theorem mergeSatellitePlacement_own {observed current : ApplicationSummary}
    (h : state.groups.lookup observed.identity = some current) (hproj : current.project = observed.project) :
    mergeSatellitePlacement localApplications cluster state observed =
      if state.replaces localApplications cluster observed.identity then
        { state with
          groups := state.groups.insert observed.identity (mergeSatelliteApplication
            (withoutOwnCounts current ((localApplications.lookup observed.identity).getD .zero)) observed)
          replacedLocal := insert observed.identity state.replacedLocal }
      else { state with groups := state.groups.insert observed.identity (mergeSatelliteApplication current observed) } := by
  rw [mergeSatellitePlacement, h]
  dsimp only
  rw [if_neg (not_not.mpr hproj)]
  cases hrepl : state.replaces localApplications cluster observed.identity with
  | true =>
    rw [MergeState.replaces] at hrepl
    rw [hrepl]
    rfl
  | false =>
    rw [MergeState.replaces] at hrepl
    rw [hrepl]
    rfl

theorem at_mergeSatellitePlacement (cluster : ObjectKey) (state : MergeState) (observed : ApplicationSummary) :
    (mergeSatellitePlacement localApplications cluster state observed).at id =
      if observed.identity = id then placeStep (localApplications.lookup id) cluster (state.at id) observed
      else state.at id := by
  have hinsert : ∀ (x : ApplicationSummary), observed.identity ≠ id →
      (state.groups.insert observed.identity x).lookup id = state.groups.lookup id :=
    fun x hne => Finmap.lookup_insert_of_ne _ (Ne.symm hne)
  have hsame : ∀ (x : ApplicationSummary),
      (state.groups.insert observed.identity x).lookup observed.identity = some x := fun x => Finmap.lookup_insert _
  cases hlook : state.groups.lookup observed.identity with
  | none =>
    rw [mergeSatellitePlacement_new hlook]
    by_cases hid : observed.identity = id
    · subst hid
      simp only [MergeState.at, hsame, hlook, placeStep, if_true]
    · simp only [MergeState.at, hinsert _ hid, if_neg hid]
  | some current =>
  by_cases hproj : current.project = observed.project
  · rw [mergeSatellitePlacement_own hlook hproj]
    by_cases hid : observed.identity = id
    · subst hid
      have hcond : (localApplications.lookup observed.identity).any
          (fun b => !(state.at observed.identity).2 && decide (b.currentCluster = cluster)) =
        state.replaces localApplications cluster observed.identity := by
        simp only [MergeState.replaces, MergeState.at, decide_not]
      rw [if_pos rfl, placeStep, hcond]
      split
      · simp [MergeState.at, hsame, hlook, hproj]
      · simp [MergeState.at, hsame, hlook, hproj]
    · rw [if_neg hid]
      split
      · simp only [MergeState.at, hinsert _ hid, Finset.mem_insert, Ne.symm hid, false_or]
      · simp only [MergeState.at, hinsert _ hid]
  · rw [mergeSatellitePlacement_other hlook hproj]
    by_cases hid : observed.identity = id
    · subst hid
      simp [MergeState.at, hlook, placeStep, hproj]
    · rw [if_neg hid]

theorem at_foldl_mergeSatellitePlacement (cluster : ObjectKey) (os : List ApplicationSummary) :
    ∀ state : MergeState, (os.map ApplicationSummary.identity).Nodup →
      (os.foldl (mergeSatellitePlacement localApplications cluster) state).at id =
        match os.find? (fun o => o.identity = id) with
        | none => state.at id
        | some o => placeStep (localApplications.lookup id) cluster (state.at id) o := by
  induction os with
  | nil => exact fun _ _ => rfl
  | cons o os ih =>
    intro state hdist
    rw [map_cons, nodup_cons] at hdist
    rw [foldl_cons, ih _ hdist.2, at_mergeSatellitePlacement]
    by_cases hid : o.identity = id
    · have hnone : os.find? (fun o => o.identity = id) = none := by
        rw [List.find?_eq_none]
        intro p hp heq
        have hpid : p.identity = id := by simpa using heq
        exact hdist.1 (hid ▸ hpid ▸ mem_map_of_mem hp)
      rw [hnone, List.find?_cons_of_pos (by simpa using hid), if_pos hid]
    · rw [List.find?_cons_of_neg (by simpa using hid), if_neg hid]

theorem sortedRecords_spec {groups : Table ObjectKey ApplicationSummary}
    (hgroups : ∀ id o, groups.lookup id = some o → o.identity = id) :
    ((sortedRecords groups).map ApplicationSummary.identity).Nodup ∧
      (∀ o, o ∈ sortedRecords groups ↔ groups.lookup o.identity = some o) ∧
      ∀ id, (sortedRecords groups).find? (fun o => o.identity = id) = groups.lookup id := by
  have hmap : ∀ ids : List ObjectKey, (∀ id ∈ ids, id ∈ groups) →
      (ids.filterMap (fun id => groups.lookup id)).map ApplicationSummary.identity = ids := by
    intro ids
    induction ids with
    | nil => exact fun _ => rfl
    | cons id ids ih =>
      intro hids
      obtain ⟨o, ho⟩ := Finmap.mem_iff.mp (hids id mem_cons_self)
      rw [filterMap_cons_some (f := fun id => groups.lookup id) ho, map_cons, hgroups id o ho,
        ih (fun j hj => hids j (mem_cons_of_mem id hj))]
  have hmem : ∀ o, o ∈ sortedRecords groups ↔ groups.lookup o.identity = some o := by
    intro o
    rw [sortedRecords, mem_filterMap]
    constructor
    · rintro ⟨id, -, ho⟩
      rw [hgroups id o ho]
      exact ho
    · intro ho
      refine ⟨o.identity, ?_, ho⟩
      rw [sortedIDs, Finset.mem_sort, Finmap.mem_keys]
      exact Finmap.mem_of_lookup_eq_some ho
  refine ⟨?_, hmem, ?_⟩
  · rw [sortedRecords, hmap _ (fun id hid => by simpa [sortedIDs, Finmap.mem_keys] using hid)]
    exact Finset.sort_nodup _ _
  intro id
  cases hfind : (sortedRecords groups).find? (fun o => o.identity = id) with
  | none =>
    rw [List.find?_eq_none] at hfind
    cases hlook : groups.lookup id with
    | none => rfl
    | some o =>
      have hid := hgroups id o hlook
      exact absurd (by simpa using hid) (hfind o ((hmem o).mpr (hid ▸ hlook)))
  | some o =>
    have hid : o.identity = id := by simpa using List.find?_some hfind
    have ho := (hmem o).mp (mem_of_find?_eq_some hfind)
    rw [hid] at ho
    exact ho.symm

/-- What a cluster adds to a record. -/
def placeReport (base : Option ApplicationSummary) (state : Option ApplicationSummary × Bool)
    (report : ObjectKey × List ApplicationSummary) : Option ApplicationSummary × Bool :=
  match joinAll report.2 with
  | none => state
  | some o => placeStep base report.1 state o

theorem identity_coalesceGroups (aliases : Aliases) (satellite : SatelliteSnapshot) :
    ∀ id o, (coalesceGroups aliases satellite).lookup id = some o → o.identity = id := by
  intro id o ho
  rw [lookup_coalesceGroups] at ho
  exact identity_joinAll identity_placements ho

theorem at_mergeSatellite {satellite : SatelliteSnapshot} (hnew : satellite.cluster.identity ∉ state.seenClusters) :
    (mergeSatellite localApplications aliases state satellite).at id =
      if completeObjectKey satellite.cluster.identity then
        placeReport (localApplications.lookup id) (state.at id)
          (satellite.cluster.identity, placements aliases satellite id)
      else state.at id := by
  rw [mergeSatellite]
  cases hcomp : completeObjectKey satellite.cluster.identity with
  | false => rfl
  | true =>
  obtain ⟨hdist, -, hfind⟩ := sortedRecords_spec (identity_coalesceGroups aliases satellite)
  simp only [Bool.not_true, Bool.false_eq_true, if_false, if_neg hnew, if_true]
  rw [coalesceSatelliteObservations, at_foldl_mergeSatellitePlacement _ _ _ hdist, hfind, lookup_coalesceGroups,
    placeReport]
  rfl

theorem clusters_foldl_mergeSatellitePlacement (cluster : ObjectKey) (os : List ApplicationSummary) :
    ∀ state : MergeState,
      (os.foldl (mergeSatellitePlacement localApplications cluster) state).clusters = state.clusters ∧
        (os.foldl (mergeSatellitePlacement localApplications cluster) state).seenClusters = state.seenClusters := by
  have hstep : ∀ (o : ApplicationSummary) (state : MergeState),
      (mergeSatellitePlacement localApplications cluster state o).clusters = state.clusters ∧
        (mergeSatellitePlacement localApplications cluster state o).seenClusters = state.seenClusters := by
    intro o state
    rw [mergeSatellitePlacement]
    split
    · exact ⟨rfl, rfl⟩
    · dsimp only
      split
      · exact ⟨rfl, rfl⟩
      · exact ⟨rfl, rfl⟩
  induction os with
  | nil => exact fun _ => ⟨rfl, rfl⟩
  | cons o os ih =>
    intro state
    rw [foldl_cons]
    exact ⟨(ih _).1.trans (hstep o state).1, (ih _).2.trans (hstep o state).2⟩

theorem seenClusters_mergeSatellite (state : MergeState) (satellite : SatelliteSnapshot) :
    (mergeSatellite localApplications aliases state satellite).seenClusters =
      if completeObjectKey satellite.cluster.identity then insert satellite.cluster.identity state.seenClusters
      else state.seenClusters := by
  rw [mergeSatellite]
  cases hcomp : completeObjectKey satellite.cluster.identity with
  | false => rfl
  | true =>
  simp only [Bool.not_true, Bool.false_eq_true, if_false, if_true]
  split
  · next hseen => rw [Finset.insert_eq_of_mem hseen]
  · rw [(clusters_foldl_mergeSatellitePlacement _ _ _).2]

/-- The clusters that are merged, each with what it observes under an identity. -/
def reports (aliases : Aliases) (satellites : List SatelliteSnapshot) (id : ObjectKey) :
    List (ObjectKey × List ApplicationSummary) :=
  (satellites.filter (fun s => completeObjectKey s.cluster.identity)).map
    (fun s => (s.cluster.identity, placements aliases s id))

theorem at_foldl_mergeSatellite (satellites : List SatelliteSnapshot) : ∀ state : MergeState,
    (satellites.map (fun s => s.cluster.identity)).Nodup →
    (∀ s ∈ satellites, s.cluster.identity ∉ state.seenClusters) →
    (satellites.foldl (mergeSatellite localApplications aliases) state).at id =
      (reports aliases satellites id).foldl (placeReport (localApplications.lookup id)) (state.at id) := by
  induction satellites with
  | nil => exact fun _ _ _ => rfl
  | cons s rest ih =>
    intro state hdist hnew
    rw [map_cons, nodup_cons] at hdist
    have hrest : ∀ r ∈ rest, r.cluster.identity ∉
        (mergeSatellite localApplications aliases state s).seenClusters := by
      intro r hr hseen
      have hold := hnew r (mem_cons_of_mem s hr)
      have hne : r.cluster.identity ≠ s.cluster.identity := by
        intro heq
        exact hdist.1 (heq ▸ mem_map_of_mem (f := fun s => s.cluster.identity) hr)
      rw [seenClusters_mergeSatellite] at hseen
      split at hseen
      · obtain heq | hin := Finset.mem_insert.mp hseen
        · exact hne heq
        · exact hold hin
      · exact hold hseen
    rw [foldl_cons, ih _ hdist.2 hrest, at_mergeSatellite (hnew s mem_cons_self)]
    cases hcomp : completeObjectKey s.cluster.identity with
    | true => simp [reports, hcomp]
    | false => simp [reports, hcomp]

theorem KeepsLocal.placeReport {base a : ApplicationSummary} (h : KeepsLocal base a) (own : Option ApplicationSummary)
    (replaced : Bool) (r : ObjectKey × List ApplicationSummary) :
    ∃ m, (placeReport own (some a, replaced) r).1 = some m ∧ KeepsLocal base m := by
  rw [Fleet.placeReport]
  cases joinAll r.2 with
  | none => exact ⟨a, rfl, h⟩
  | some o =>
  dsimp only
  rw [placeStep]
  dsimp only
  split
  · exact ⟨a, rfl, h⟩
  · split
    · exact ⟨_, rfl, (h.withoutOwnCounts _).merge o⟩
    · exact ⟨_, rfl, h.merge o⟩

theorem KeepsLocal.foldl_placeReport {base : ApplicationSummary} (own : Option ApplicationSummary)
    (rs : List (ObjectKey × List ApplicationSummary)) : ∀ (a : ApplicationSummary) (replaced : Bool),
      KeepsLocal base a → ∃ m, (rs.foldl (Fleet.placeReport own) (some a, replaced)).1 = some m ∧ KeepsLocal base m := by
  induction rs with
  | nil => exact fun a _ h => ⟨a, rfl, h⟩
  | cons r rest ih =>
    intro a replaced h
    obtain ⟨m, hm, hkeeps⟩ := h.placeReport own replaced r
    rw [foldl_cons]
    generalize Fleet.placeReport own (some a, replaced) r = state at hm
    obtain ⟨current, replaced'⟩ := state
    obtain rfl : current = some m := hm
    exact ih m replaced' hkeeps

theorem identity_foldl_placeReport {own : Option ApplicationSummary} (rs : List (ObjectKey × List ApplicationSummary)) :
    ∀ state : Option ApplicationSummary × Bool, (∀ a, state.1 = some a → a.identity = id) →
      (∀ r ∈ rs, ∀ x ∈ r.2, x.identity = id) →
        ∀ m, (rs.foldl (placeReport own) state).1 = some m → m.identity = id := by
  induction rs with
  | nil => exact fun _ hstate _ => hstate
  | cons r rest ih =>
    intro state hstate hrs
    refine ih (placeReport own state r) ?_ (fun q hq => hrs q (mem_cons_of_mem r hq))
    intro a ha
    obtain ⟨current, replaced⟩ := state
    cases current with
    | some c =>
      obtain ⟨m, hm, hkeeps⟩ := (KeepsLocal.refl c).placeReport own replaced r
      rw [hm] at ha
      rw [← Option.some.inj ha, hkeeps.identity]
      exact hstate c rfl
    | none =>
    rw [placeReport] at ha
    cases hjoin : joinAll r.2 with
    | none =>
      rw [hjoin] at ha
      exact hstate a ha
    | some o =>
    rw [hjoin] at ha
    have hoa : o = a := Option.some.inj ha
    rw [← hoa]
    exact identity_joinAll (hrs r mem_cons_self) hjoin
end

/-! ### The own observations of a record -/

section
variable {base : Option ApplicationSummary} {project : ObjectKey}

abbrev Reports := List (ObjectKey × List ApplicationSummary)

def own (project : ObjectKey) (xs : List ApplicationSummary) : List ApplicationSummary :=
  xs.filter (fun x => x.project = project)

def ownReports (project : ObjectKey) (rs : Reports) : Reports := rs.map (fun r => (r.1, own project r.2))

/-- The project of a record: that of the local one, or else of the first observation. -/
def recordProject : Option ApplicationSummary → Reports → Option ObjectKey
  | some a, _ => some a.project
  | none, rs => (rs.flatMap Prod.snd).head?.map ApplicationSummary.project

/-- The first observation of a cluster is of the project, if any of them is. -/
def Leads (project : ObjectKey) (xs : List ApplicationSummary) : Prop :=
  ∀ x, xs.head? = some x → own project xs ≠ [] → x.project = project

variable {rest : List ApplicationSummary}

theorem project_joinAll {x : ApplicationSummary} (h : joinAll (x :: rest) = some o) : o.project = x.project := by
  rw [← Option.some.inj h, foldl_merge_keeps ApplicationSummary.project (fun _ _ => rfl)]

/-- Where the first observation is of the project, only those of the project are joined. -/
theorem joinAll_own {x : ApplicationSummary} (hx : x.project = project) :
    joinAll (own project (x :: rest)) = joinAll (x :: rest) := by
  rw [own, filter_cons_of_pos (by simpa using hx), joinAll, joinAll, filter_filter]
  subst hx
  simp only [Bool.and_self]

theorem placeStep_other {cluster : ObjectKey} {current : ApplicationSummary} {replaced : Bool}
    (h : current.project ≠ o.project) : placeStep base cluster (some current, replaced) o = (some current, replaced) := by
  rw [placeStep]
  exact if_pos h

theorem project_placeStep (base : Option ApplicationSummary) (cluster : ObjectKey) {state : Option ApplicationSummary × Bool}
    (hstate : ∀ a, state.1 = some a → a.project = project) (ho : o.project = project) :
    ∃ a, (placeStep base cluster state o).1 = some a ∧ a.project = project := by
  obtain ⟨current, replaced⟩ := state
  cases current with
  | none => exact ⟨o, rfl, ho⟩
  | some a =>
  have ha := hstate a rfl
  rw [placeStep]
  dsimp only
  rw [if_neg (not_not.mpr (ha.trans ho.symm))]
  split
  · exact ⟨_, rfl, ha⟩
  · exact ⟨_, rfl, ha⟩

theorem recordProject_eq (rs : Reports) : ∀ (state : Option ApplicationSummary × Bool) (m : ApplicationSummary),
    (rs.foldl (placeReport base) state).1 = some m → recordProject state.1 rs = some m.project := by
  induction rs with
  | nil =>
    intro state m hm
    have hstate : state.1 = some m := hm
    rw [hstate]
    rfl
  | cons r rest ih =>
    intro state m hm
    obtain ⟨current, replaced⟩ := state
    cases current with
    | some a =>
      obtain ⟨m', hm', hkeeps⟩ := (KeepsLocal.refl a).foldl_placeReport base (r :: rest) a replaced
      rw [hm] at hm'
      rw [Option.some.inj hm']
      exact congrArg some hkeeps.project.symm
    | none =>
    obtain ⟨cluster, xs⟩ := r
    cases xs with
    | nil => exact ih (none, replaced) m hm
    | cons x tail =>
    have hrest := ih (placeReport base (none, replaced) (cluster, x :: tail)) m hm
    have hjoin := project_joinAll (rfl : joinAll (x :: tail) = some _)
    rw [← hrest]
    exact congrArg some hjoin.symm

/-- **Only the observations of its project reach a record.** -/
theorem foldl_ownReports (rs : Reports) : ∀ state : Option ApplicationSummary × Bool,
    recordProject state.1 rs = some project → (∀ r ∈ rs, Leads project r.2) →
      rs.foldl (placeReport base) state = (ownReports project rs).foldl (placeReport base) state := by
  induction rs with
  | nil => exact fun _ _ _ => rfl
  | cons r rest ih =>
    intro state hproj hleads
    obtain ⟨cluster, xs⟩ := r
    have hlead := hleads (cluster, xs) mem_cons_self
    have hrest : ∀ q ∈ rest, Leads project q.2 := fun q hq => hleads q (mem_cons_of_mem _ hq)
    show rest.foldl (placeReport base) (placeReport base state (cluster, xs)) =
      (ownReports project rest).foldl (placeReport base) (placeReport base state (cluster, own project xs))
    cases xs with
    | nil =>
      -- nothing is observed
      refine ih state ?_ hrest
      obtain ⟨current, replaced⟩ := state
      cases current with
      | none => exact hproj
      | some a => exact hproj
    | cons x tail =>
    by_cases hx : x.project = project
    · have hsame : placeReport base state (cluster, own project (x :: tail)) =
          placeReport base state (cluster, x :: tail) := by
        rw [placeReport, placeReport, joinAll_own hx]
      rw [hsame]
      refine ih _ ?_ hrest
      have hstate : ∀ a, state.1 = some a → a.project = project := by
        intro a ha
        rw [ha] at hproj
        exact Option.some.inj hproj
      obtain ⟨a, ha, haproject⟩ := project_placeStep base cluster hstate
        ((project_joinAll (rfl : joinAll (x :: tail) = some _)).trans hx)
      have hplaced : (placeReport base state (cluster, x :: tail)).1 = some a := ha
      rw [hplaced, recordProject, haproject]
    · -- the cluster observes another project only
      have hnone : own project (x :: tail) = [] := by
        by_contra hne
        exact hx (hlead x rfl hne)
      have hkeep : placeReport base state (cluster, own project (x :: tail)) = state := by
        rw [hnone]
        rfl
      obtain ⟨current, replaced⟩ := state
      cases current with
      | none => exact absurd (Option.some.inj hproj) hx
      | some a =>
      have ha : a.project = project := Option.some.inj hproj
      have hother : placeReport base (some a, replaced) (cluster, x :: tail) = (some a, replaced) := by
        refine placeStep_other ?_
        rw [project_joinAll (rfl : joinAll (x :: tail) = some _), ha]
        exact Ne.symm hx
      rw [hkeep, hother]
      exact ih _ hproj hrest
end

/-! ### Without the observations of other projects -/

section
variable {aliases : Aliases} {id project : ObjectKey} {satellite : SatelliteSnapshot}

def isOwn (aliases : Aliases) (id project : ObjectKey) (x : ApplicationSummary) : Bool :=
  decide ((canonicalObservation aliases x).identity = id) && decide (x.project = project)

/-- An observation of another project, under the record's identity. -/
def isForeign (aliases : Aliases) (id project : ObjectKey) (x : ApplicationSummary) : Bool :=
  decide ((canonicalObservation aliases x).identity = id) && decide (x.project ≠ project)

/-- What a cluster observes, but for other projects' observations under the identity. -/
def withoutForeign (aliases : Aliases) (id project : ObjectKey) (satellite : SatelliteSnapshot) : SatelliteSnapshot :=
  { satellite with applications := satellite.applications.filter (fun x => !isForeign aliases id project x) }

/-- No placement of the project is hidden: the first one under the identity is of the project if any is, and an
observation of another project does not take the instance of one. -/
structure Unhidden (aliases : Aliases) (id project : ObjectKey) (satellite : SatelliteSnapshot) : Prop where
  leads : Leads project (placements aliases satellite id)
  instances : ∀ x ∈ firstInstances ∅ (acceptedObservations aliases satellite),
    ∀ y ∈ acceptedObservations aliases satellite,
      isForeign aliases id project x → isOwn aliases id project y → x.instanceID ≠ y.instanceID

variable {x : ApplicationSummary}

theorem not_isForeign_of_isOwn (h : isOwn aliases id project x = true) : isForeign aliases id project x = false := by
  rw [isOwn, Bool.and_eq_true, decide_eq_true_eq, decide_eq_true_eq] at h
  simp [isForeign, h.2]

/-- Dropping some observations does not change which instances of the others are taken, if none of those that are
dropped has the instance of one of these. -/
theorem filter_firstInstances {good bad : ApplicationSummary → Bool} (hdisj : ∀ x, good x = true → bad x = false)
    (xs : List ApplicationSummary) : ∀ seen seen' : Finset String, seen' ⊆ seen →
      (∀ y ∈ xs, good y → y.instanceID ∈ seen → y.instanceID ∈ seen') →
      (∀ x ∈ firstInstances seen xs, ∀ y ∈ xs, bad x → good y → x.instanceID ≠ y.instanceID) →
        (firstInstances seen xs).filter good = (firstInstances seen' (xs.filter (fun x => !bad x))).filter good := by
  induction xs with
  | nil => exact fun _ _ _ _ _ => rfl
  | cons x xs ih =>
    intro seen seen' hsub hsame hfree
    have hsame' : ∀ y ∈ xs, good y → y.instanceID ∈ seen → y.instanceID ∈ seen' :=
      fun y hy => hsame y (mem_cons_of_mem x hy)
    by_cases hseen : x.instanceID ∈ seen
    · have hskip : firstInstances seen (x :: xs) = firstInstances seen xs := if_pos hseen
      rw [hskip] at hfree ⊢
      have hfree' : ∀ z ∈ firstInstances seen xs, ∀ y ∈ xs, bad z → good y → z.instanceID ≠ y.instanceID :=
        fun z hz y hy => hfree z hz y (mem_cons_of_mem x hy)
      cases hbad : bad x with
      | true =>
        rw [filter_cons_of_neg (by rw [hbad]; decide)]
        exact ih seen seen' hsub hsame' hfree'
      | false =>
      rw [filter_cons_of_pos (by rw [hbad]; rfl), firstInstances]
      by_cases hseen' : x.instanceID ∈ seen'
      · rw [if_pos hseen']
        exact ih seen seen' hsub hsame' hfree'
      have hgood : ¬ good x = true := fun hgood => hseen' (hsame x mem_cons_self hgood hseen)
      rw [if_neg hseen', filter_cons_of_neg hgood]
      refine ih seen _ (Finset.insert_subset hseen hsub) ?_ hfree'
      intro y hy hgoodY hin
      exact Finset.mem_insert_of_mem (hsame' y hy hgoodY hin)
    · have hseen' : x.instanceID ∉ seen' := fun hin => hseen (hsub hin)
      have htake : firstInstances seen (x :: xs) = x :: firstInstances (insert x.instanceID seen) xs := if_neg hseen
      rw [htake] at hfree ⊢
      have hfree' : ∀ z ∈ firstInstances (insert x.instanceID seen) xs, ∀ y ∈ xs, bad z → good y →
          z.instanceID ≠ y.instanceID :=
        fun z hz y hy => hfree z (mem_cons_of_mem x hz) y (mem_cons_of_mem x hy)
      cases hbad : bad x with
      | true =>
        have hgood : ¬ good x = true := by
          intro hgood
          rw [hdisj x hgood] at hbad
          cases hbad
        rw [filter_cons_of_neg hgood, filter_cons_of_neg (by rw [hbad]; decide)]
        refine ih _ seen' (hsub.trans (Finset.subset_insert _ _)) ?_ hfree'
        intro y hy hgoodY hin
        obtain heq | hin := Finset.mem_insert.mp hin
        · exact absurd heq.symm (hfree x mem_cons_self y (mem_cons_of_mem x hy) hbad hgoodY)
        · exact hsame' y hy hgoodY hin
      | false =>
        rw [filter_cons_of_pos (p := fun x => !bad x) (by rw [hbad]; rfl), firstInstances, if_neg hseen']
        have hrest := ih (insert x.instanceID seen) (insert x.instanceID seen')
          (Finset.insert_subset_insert _ hsub) (by
            intro y hy hgoodY hin
            obtain heq | hin := Finset.mem_insert.mp hin
            · exact Finset.mem_insert.mpr (Or.inl heq)
            · exact Finset.mem_insert_of_mem (hsame' y hy hgoodY hin)) hfree'
        rw [filter_cons, filter_cons, hrest]

variable {y : ApplicationSummary}

theorem acceptObservation_some {cluster : ClusterSummary}
    (h : acceptObservation aliases cluster x = some y) : y.identity = x.identity ∧ y.project = x.project := by
  rw [acceptObservation] at h
  split at h
  · cases h
  split at h
  · cases h
  rw [← Option.some.inj h, normalizeSatelliteObservation]
  dsimp only
  split
  · exact ⟨rfl, rfl⟩
  · exact ⟨rfl, rfl⟩

theorem isForeign_accepted {cluster : ClusterSummary}
    (h : acceptObservation aliases cluster x = some y) :
    isForeign aliases id project y = isForeign aliases id project x := by
  obtain ⟨hident, hproj⟩ := acceptObservation_some h
  rw [isForeign, isForeign, canonicalObservation, canonicalObservation, hident, hproj]

theorem acceptedObservations_withoutForeign :
    acceptedObservations aliases (withoutForeign aliases id project satellite) =
      (acceptedObservations aliases satellite).filter (fun x => !isForeign aliases id project x) := by
  rw [acceptedObservations, acceptedObservations, withoutForeign]
  dsimp only
  induction satellite.applications with
  | nil => rfl
  | cons x xs ih =>
    cases haccept : acceptObservation aliases satellite.cluster x with
    | none =>
      rw [filterMap_cons_none haccept, ← ih, filter_cons]
      split
      · rw [filterMap_cons_none haccept]
      · rfl
    | some y =>
      rw [filterMap_cons_some haccept, filter_cons, filter_cons, isForeign_accepted haccept]
      split
      · rw [filterMap_cons_some haccept, ih]
      · exact ih

theorem own_placements : own project (placements aliases satellite id) =
      ((firstInstances ∅ (acceptedObservations aliases satellite)).filter (isOwn aliases id project)).map
        (canonicalObservation aliases) := by
  rw [own, placements, filter_filter, filter_map]
  refine congrArg _ (filter_congr ?_)
  intro x _
  rw [isOwn, Bool.and_comm]
  rfl

theorem mem_firstInstances (xs : List ApplicationSummary) :
    ∀ seen : Finset String, x ∈ firstInstances seen xs → x ∈ xs := by
  induction xs with
  | nil => exact fun _ h => h
  | cons y ys ih =>
    intro seen h
    rw [firstInstances] at h
    split at h
    · exact mem_cons_of_mem y (ih seen h)
    · obtain rfl | h := mem_cons.mp h
      · exact mem_cons_self
      · exact mem_cons_of_mem y (ih _ h)

/-- **Without the other projects' observations the placements are those of the project.** -/
theorem placements_withoutForeign (h : Unhidden aliases id project satellite) :
    placements aliases (withoutForeign aliases id project satellite) id =
      own project (placements aliases satellite id) := by
  have hown : placements aliases (withoutForeign aliases id project satellite) id =
      own project (placements aliases (withoutForeign aliases id project satellite) id) := by
    rw [own, eq_comm, filter_eq_self]
    intro x hx
    rw [placements, mem_filter, mem_map] at hx
    obtain ⟨⟨y, hy, rfl⟩, hid⟩ := hx
    have hnot := mem_firstInstances _ _ hy
    rw [acceptedObservations_withoutForeign, mem_filter, isForeign] at hnot
    refine decide_eq_true ?_
    show y.project = project
    simpa [of_decide_eq_true hid] using hnot.2
  rw [hown, own_placements, own_placements, acceptedObservations_withoutForeign]
  refine congrArg _ (filter_firstInstances (fun _ => not_isForeign_of_isOwn) _ ∅ ∅ (Finset.Subset.refl ∅) ?_
    h.instances).symm
  exact fun _ _ _ hin => hin

theorem unhidden_of_project (h : ∀ x ∈ acceptedObservations aliases satellite, x.project = project) :
    Unhidden aliases id project satellite := by
  refine ⟨?_, ?_⟩
  · intro x hx _
    have hmem := mem_of_mem_head? hx
    rw [placements, mem_filter, mem_map] at hmem
    obtain ⟨⟨y, hy, rfl⟩, -⟩ := hmem
    exact h y (mem_firstInstances _ _ hy)
  · intro x hx y _ hforeign _
    rw [isForeign, h x (mem_firstInstances _ _ hx)] at hforeign
    simp at hforeign

theorem reports_withoutForeign {satellites : List SatelliteSnapshot}
    (h : ∀ s ∈ satellites, completeObjectKey s.cluster.identity = true → Unhidden aliases id project s) :
    reports aliases (satellites.map (withoutForeign aliases id project)) id =
      ownReports project (reports aliases satellites id) := by
  rw [reports, reports, ownReports, filter_map, map_map, map_map]
  refine map_congr_left ?_
  intro s hs
  obtain ⟨hin, hcomp⟩ := mem_filter.mp hs
  exact congrArg (Prod.mk s.cluster.identity) (placements_withoutForeign (h s hin hcomp))
end

end Paprika.Fleet
