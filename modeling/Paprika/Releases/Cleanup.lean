import Paprika.Releases.Manifests
import Paprika.Releases.SyncWaves
import Paprika.Releases.Types

/-!
# Cleanup of old releases

What the finalizer of a release deletes (`cleanup` of `release_controller.go`): the objects that carry the label of the
release, of the resources and namespaces of its own snapshot.  The label of an object is the release under which it was
last applied.  A rollback applies the snapshot of an older release under the release that is rolled back.

`cleanup_spares_deployed`: a cleanup of another release than the deployed one deletes nothing that the deployed snapshot
names, in every run in which no object of it, in the scope of the cleanup, was last applied under the release that is
cleaned up.
-/

namespace Paprika.Releases

open Lib.Run List

/-! ### The history of an application -/

/-- A release of the history, as rollback, pruning and cleanup read it; `snapshotName` is `releaseSnapshotName`. -/
structure HistoryEntry where
  name : String
  target : String
  phase : ReleasePhase
  createdAt : Int
  deleting : Bool
  snapshotName : String
  deriving DecidableEq, Repr

section
variable {α : Type} (less : α → α → Bool)

/-- The inner loop of the exchange sorts: the element that ends up in front, and the others behind it. -/
def exchange (x : α) : List α → α × List α
  | [] => (x, [])
  | y :: ys =>
    if less y x then ((exchange y ys).1, x :: (exchange y ys).2) else ((exchange x ys).1, y :: (exchange x ys).2)

/-- The outer loop, for so many positions. -/
def exchangeSort : Nat → List α → List α
  | 0, xs => xs
  | _, [] => []
  | n + 1, x :: xs => (exchange less x xs).1 :: exchangeSort n (exchange less x xs).2
end

def sortReleasesByTimestamp (releases : List HistoryEntry) : List HistoryEntry :=
  exchangeSort (fun a b => a.createdAt < b.createdAt) releases.length releases

/-- Newest first. -/
def sortReleasesByCreation (releases : List HistoryEntry) : List HistoryEntry :=
  exchangeSort (fun a b => b.createdAt < a.createdAt) releases.length releases

def releasePhasePrunable (phase : ReleasePhase) : Bool :=
  phase == .superseded || phase == .complete || phase == .failed || phase == .rolledBack

def maxReleaseHistory : Nat := 10

def prunableReleaseHistory (releases : List HistoryEntry) (activeRelease : String) (referenced : List String) :
    List HistoryEntry :=
  releases.filter (fun rel => rel.name != activeRelease && !rel.deleting && !referenced.contains rel.name &&
    releasePhasePrunable rel.phase)

def pruneReleaseHistory (releases : List HistoryEntry) (activeRelease : String) (referenced : List String) :
    List HistoryEntry :=
  (sortReleasesByTimestamp (prunableReleaseHistory releases activeRelease referenced)).take
    (releases.length - maxReleaseHistory)

def findRollbackTarget (releases : List HistoryEntry) (release : HistoryEntry) : Option HistoryEntry :=
  let candidates := sortReleasesByCreation (releases.filter (fun other => other.name != release.name &&
    other.target == release.target && other.phase != .failed && other.snapshotName != ""))
  match candidates.find? (fun c => c.phase = .complete) with
  | some c => some c
  | none => candidates.head?

/-! ### Clusters and stages -/

/-- The snapshot that a stage last had applied as a whole, whose it is, and by object the releases under which its
cluster was written to, newest first: since the apply, by the apply, and before it for what the apply left out. -/
structure Deployed where
  release : String
  documents : List Document
  writers : List (ResourceKey × String)

structure StageState where
  name : String
  cluster : String
  deployed : Option Deployed

/-- The releases of an application, their snapshots by ConfigMap, the release label of every object by cluster, and the
stages. -/
structure HistoryState where
  releases : List HistoryEntry
  snapshots : String → Option (List Document)
  releaseRef : String
  live : String → ResourceKey → Option String
  stages : List StageState

def HistoryState.entry (s : HistoryState) (name : String) : Option HistoryEntry :=
  s.releases.find? (fun rel => rel.name = name)

def HistoryState.update (s : HistoryState) (name : String) (f : HistoryEntry → HistoryEntry) : HistoryState :=
  { s with releases := s.releases.map (fun rel => if rel.name = name then f rel else rel) }

/-- The writes of an apply, for a stage that it is not about. -/
def StageState.record (cluster : String) (writes : List (ResourceKey × String)) (st : StageState) : StageState :=
  if st.cluster = cluster then
    { st with deployed := st.deployed.map (fun dep => { dep with writers := writes ++ dep.writers }) }
  else st

/-- A stage after an apply to `target`, which is deployed there if it is complete. -/
def StageState.observe (target : StageState) (writes : List (ResourceKey × String)) (complete : Option Deployed)
    (st : StageState) : StageState :=
  match complete with
  | some dep =>
    if st.name = target.name ∧ st.cluster = target.cluster then { st with deployed := some dep }
    else st.record target.cluster writes
  | none => st.record target.cluster writes

section
variable (resolver : Option GVRResolver) (namespace_ : String)

/-- The objects that a pass writes, by what becomes of each document: one that the pass does not come to or that is not
selected is skipped. -/
def writtenKeys (docs : List Document) (outcome : Document → ApplyOutcome) : List ResourceKey :=
  documentKeys resolver namespace_ (docs.filter (fun d => outcome d = .applied))

/-- A pass of `applyPromotedManifests` over the snapshot of `release`, under the label of `under`. -/
def HistoryState.apply (s : HistoryState) (target under release : String) (docs : List Document)
    (outcome : Document → ApplyOutcome) : HistoryState :=
  match s.stages.find? (fun st => st.name = target) with
  | none => s
  | some st =>
    let written := writtenKeys resolver namespace_ docs outcome
    let writes := written.map (fun key => (key, under))
    let left := (documentKeys resolver namespace_ docs).filterMap (fun key =>
      (s.live st.cluster key).map (fun label => (key, label)))
    let complete : Option Deployed :=
      if docs.all (fun d => outcome d ≠ .failed) then
        some { release := release, documents := docs, writers := writes ++ left }
      else none
    { s with
      live := fun c key => if c = st.cluster ∧ key ∈ written then some under else s.live c key
      stages := s.stages.map (StageState.observe st writes complete) }

/-! ### What a cleanup deletes -/

/-- `cleanupScopesFromSnapshot`: resources and namespaces. -/
def cleanupScopesFromSnapshot (docs : List Document) : List (GroupVersionResource × String) :=
  (parseManifests docs).filterMap (fun d =>
    if isClusterScopedKind d.kind then none
    else (gvrOf resolver d.apiVersion d.kind).map (fun gvr => (gvr, d.targetNamespace namespace_)))

/-- The scopes of a cleanup; without a snapshot they are guessed. -/
def HistoryState.scopes (s : HistoryState) (rel : HistoryEntry) : List (GroupVersionResource × String) :=
  let guess := managedGVRs.map (fun gvr => (gvr, namespace_))
  if rel.snapshotName = "" then guess
  else
    match s.snapshots rel.snapshotName with
    | none => guess
    | some docs =>
      if (cleanupScopesFromSnapshot resolver namespace_ docs).isEmpty then guess
      else cleanupScopesFromSnapshot resolver namespace_ docs

def inScope (scopes : List (GroupVersionResource × String)) (key : ResourceKey) : Bool :=
  scopes.any (fun scope => scope.1.group == key.group && scope.1.resource == key.resource && scope.2 == key.namespace_)

/-- What a run of the finalizer meets: the clusters of the stages that the release names, whether the policies permit
Delete, the objects whose deletion it gets to, whether the release has a Rollout, and whether an Application refers to
its snapshot. -/
structure CleanupRun where
  targets : List String
  permitted : Bool
  reaches : String → ResourceKey → Bool
  rollout : Bool
  referenced : Bool

/-- The cluster that the releases themselves are in. -/
def localCluster : String := "in-cluster"

def snapshotKey (name : String) : ResourceKey :=
  { group := "", resource := "configmaps", namespace_ := namespace_, name := name }

/-- `snapshotReferencedElsewhere`. -/
def HistoryState.snapshotShared (s : HistoryState) (rel : HistoryEntry) (run : CleanupRun) : Bool :=
  run.referenced || s.releases.any (fun other => other.name != rel.name && other.snapshotName == rel.snapshotName)

/-- The release's own objects: its Rollout and its snapshot. -/
def HistoryState.records (s : HistoryState) (rel : HistoryEntry) (run : CleanupRun) : List ResourceKey :=
  (if run.rollout then
    [{ group := "rollouts.paprika.io", resource := "rollouts", namespace_ := namespace_,
       name := rel.name ++ "-rollout" }]
  else []) ++
  (if rel.snapshotName ≠ "" && !s.snapshotShared rel run then [snapshotKey namespace_ rel.snapshotName] else [])

/-- `cleanup` deletes the object. -/
def HistoryState.cleans (s : HistoryState) (rel : HistoryEntry) (run : CleanupRun) (cluster : String)
    (key : ResourceKey) : Bool :=
  run.reaches cluster key && (s.live cluster key).isSome &&
    ((run.permitted && run.targets.contains cluster && inScope (s.scopes resolver namespace_ rel) key &&
        s.live cluster key == some rel.name) ||
      (cluster == localCluster && (s.records namespace_ rel run).contains key))

/-! ### The run -/

inductive HistoryEvent
  | created (rel : HistoryEntry)
  | promoted (name : String) (docs : List Document) (outcome : Document → ApplyOutcome) (recorded : Bool)
  | rolledBack (name : String) (outcome : Document → ApplyOutcome)
  | phase (name : String) (p : ReleasePhase)
  | reference (name : String)
  | pruned (referenced : List String)
  | deleted (name : String)
  | cleanedUp (name : String) (run : CleanupRun)
  | gone (name : String)
  | removed (cluster : String) (key : ResourceKey)

/-- `promote`: the snapshot is stored, then applied. -/
def HistoryState.promote (s : HistoryState) (name : String) (docs : List Document) (outcome : Document → ApplyOutcome)
    (recorded : Bool) : HistoryState :=
  match s.entry name with
  | none => s
  | some rel =>
    let snapshotName := if rel.snapshotName = "" then name ++ "-manifest-snapshot" else rel.snapshotName
    let stored : HistoryState :=
      { s with snapshots := fun n => if n = snapshotName then some docs else s.snapshots n }
    let recorded := if recorded then stored.update name (fun rel => { rel with snapshotName := snapshotName }) else stored
    recorded.apply resolver namespace_ rel.target name name docs outcome

/-- `rollback`: the snapshot of the target is applied under the release that is rolled back. -/
def HistoryState.rollback (s : HistoryState) (name : String) (outcome : Document → ApplyOutcome) : HistoryState :=
  match s.entry name with
  | none => s
  | some rel =>
    match findRollbackTarget s.releases rel with
    | none => s.update name (fun rel => { rel with phase := .rolledBack })
    | some previous =>
      match s.snapshots previous.snapshotName with
      | none => s
      | some docs =>
        let applied := s.apply resolver namespace_ rel.target name previous.name docs outcome
        if docs.all (fun d => outcome d ≠ .failed) then
          { applied.update name (fun rel => { rel with phase := .rolledBack }) with releaseRef := previous.name }
        else applied

def HistoryState.cleanup (s : HistoryState) (name : String) (run : CleanupRun) : HistoryState :=
  match s.entry name with
  | none => s
  | some rel =>
    if rel.deleting then
      { s with
        live := fun c key => if s.cleans resolver namespace_ rel run c key then none else s.live c key
        snapshots := fun n =>
          if n = rel.snapshotName ∧ !s.snapshotShared rel run ∧
            run.reaches localCluster (snapshotKey namespace_ rel.snapshotName) then none
          else s.snapshots n }
    else s

def historyStep (s : HistoryState) : HistoryEvent → HistoryState
  | .created rel => { s with releases := s.releases ++ [{ rel with deleting := false }] }
  | .promoted name docs outcome recorded => s.promote resolver namespace_ name docs outcome recorded
  | .rolledBack name outcome => s.rollback resolver namespace_ name outcome
  | .phase name p => s.update name (fun rel => { rel with phase := p })
  | .reference name => { s with releaseRef := name }
  | .pruned referenced =>
    (pruneReleaseHistory s.releases s.releaseRef referenced).foldl (fun s old =>
      s.update old.name (fun rel => { rel with deleting := true })) s
  | .deleted name => s.update name (fun rel => { rel with deleting := true })
  | .cleanedUp name run => s.cleanup resolver namespace_ name run
  | .gone name => { s with releases := s.releases.filter (fun rel => !(rel.name = name && rel.deleting)) }
  | .removed cluster key => { s with live := fun c k => if c = cluster ∧ k = key then none else s.live c k }

/-- An application without history, in clusters that hold anything. -/
def HistoryState.start (live : String → ResourceKey → Option String) (stages : List (String × String)) : HistoryState :=
  { releases := [], snapshots := fun _ => none, releaseRef := "", live := live,
    stages := stages.map (fun st => { name := st.1, cluster := st.2, deployed := none }) }

/-- A cleanup of another release than the deployed one deletes no object of the deployed snapshot. -/
def sparesDeployed (s : HistoryState) : HistoryEvent → Prop
  | .cleanedUp name run => ∀ rel ∈ s.entry name, rel.deleting = true → ∀ st ∈ s.stages, ∀ dep ∈ st.deployed,
      dep.release ≠ name → ∀ key ∈ documentKeys resolver namespace_ dep.documents,
        s.cleans resolver namespace_ rel run st.cluster key = false
  | _ => True

/-- No object of a deployed snapshot that is in the scope of a cleanup was last written by an apply under the release
that is cleaned up, and no deployed snapshot names the Rollout or the snapshot of that release. -/
def cleanupOfOthers (s : HistoryState) : HistoryEvent → Prop
  | .cleanedUp name run => ∀ rel ∈ s.entry name, rel.deleting = true → ∀ st ∈ s.stages, ∀ dep ∈ st.deployed,
      dep.release ≠ name → ∀ key ∈ documentKeys resolver namespace_ dep.documents,
        (st.cluster ∈ run.targets → inScope (s.scopes resolver namespace_ rel) key = true →
          dep.writers.lookup key ≠ some name) ∧
        (st.cluster = localCluster → key ∉ s.records namespace_ rel run)
  | _ => True

instance decidableSparesDeployed (s : HistoryState) : ∀ e, Decidable (sparesDeployed resolver namespace_ s e)
  | .cleanedUp .. => inferInstanceAs (Decidable (∀ _, _))
  | .created _ | .promoted _ _ _ _ | .rolledBack _ _ | .phase _ _ | .reference _ | .pruned _ | .deleted _ | .gone _
  | .removed _ _ => .isTrue trivial

instance decidableCleanupOfOthers (s : HistoryState) : ∀ e, Decidable (cleanupOfOthers resolver namespace_ s e)
  | .cleanedUp .. => inferInstanceAs (Decidable (∀ _, _))
  | .created _ | .promoted _ _ _ _ | .rolledBack _ _ | .phase _ _ | .reference _ | .pruned _ | .deleted _ | .gone _
  | .removed _ _ => .isTrue trivial
end

/-! ### The label of an object is the release that last wrote it -/

/-- Objects of the deployed snapshot that have a label have that of their last writer. -/
def StageState.Labelled (resolver : Option GVRResolver) (namespace_ : String)
    (live : String → ResourceKey → Option String) (st : StageState) : Prop :=
  ∀ dep ∈ st.deployed, ∀ key ∈ documentKeys resolver namespace_ dep.documents, ∀ label,
    live st.cluster key = some label → dep.writers.lookup key = some label

def Labelled (resolver : Option GVRResolver) (namespace_ : String) (s : HistoryState) : Prop :=
  ∀ st ∈ s.stages, st.Labelled resolver namespace_ s.live

section
variable {resolver : Option GVRResolver} {namespace_ : String} {s s' : HistoryState}

theorem lookup_writes {written : List ResourceKey} {under : String} {key : ResourceKey}
    (rest : List (ResourceKey × String)) :
    (written.map (fun key => (key, under)) ++ rest).lookup key =
      if key ∈ written then some under else rest.lookup key := by
  induction written with
  | nil => rfl
  | cons k written ih =>
    rw [map_cons, cons_append, lookup_cons]
    by_cases hk : key = k
    · subst hk
      simp
    · have hne : (key == k) = false := beq_eq_false_iff_ne.mpr hk
      rw [hne, ih]
      simp [hk]

theorem lookup_left {keys : List ResourceKey} {labels : ResourceKey → Option String} {key : ResourceKey}
    {label : String} (hkey : key ∈ keys) (hlabel : labels key = some label) :
    (keys.filterMap (fun key => (labels key).map (fun label => (key, label)))).lookup key = some label := by
  induction keys with
  | nil => exact absurd hkey not_mem_nil
  | cons k keys ih =>
    rw [filterMap_cons]
    by_cases hk : key = k
    · subst hk
      simp [hlabel]
    have hlater := ih ((mem_cons.mp hkey).resolve_left hk)
    cases hlabels : labels k with
    | none => simpa [hlabels] using hlater
    | some l =>
    have hne : (key == k) = false := beq_eq_false_iff_ne.mpr hk
    show ((k, l) :: _).lookup key = some label
    rw [lookup_cons, hne]
    exact hlater

/-- The invariant depends on the stages and the labels alone, and survives the loss of labels. -/
theorem Labelled.of_live (h : Labelled resolver namespace_ s) (hstages : s'.stages = s.stages)
    (hlive : ∀ c key label, s'.live c key = some label → s.live c key = some label) :
    Labelled resolver namespace_ s' := by
  intro st hst dep hdep key hkey label hlabel
  rw [hstages] at hst
  exact h st hst dep hdep key hkey label (hlive st.cluster key label hlabel)

theorem Labelled.update (h : Labelled resolver namespace_ s) (name : String) (f : HistoryEntry → HistoryEntry) :
    Labelled resolver namespace_ (s.update name f) :=
  h.of_live rfl (fun _ _ _ hlabel => hlabel)

/-- The labels that a pass leaves behind. -/
def relabel (cluster under : String) (written : List ResourceKey) (live : String → ResourceKey → Option String) :
    String → ResourceKey → Option String :=
  fun c key => if c = cluster ∧ key ∈ written then some under else live c key

theorem StageState.Labelled.record {live : String → ResourceKey → Option String} {st : StageState} {cluster under : String}
    {written : List ResourceKey} (h : st.Labelled resolver namespace_ live) :
    (st.record cluster (written.map (fun key => (key, under)))).Labelled resolver namespace_
      (relabel cluster under written live) := by
  intro dep hdep key hkey label hlabel
  rw [StageState.record] at hdep hlabel
  by_cases hcluster : st.cluster = cluster
  · rw [if_pos hcluster] at hdep hlabel
    obtain ⟨before, hpre, rfl⟩ := Option.map_eq_some_iff.mp hdep
    show (_ ++ before.writers).lookup key = some label
    rw [lookup_writes]
    by_cases hwrote : key ∈ written
    · rw [if_pos hwrote, ← hlabel]
      exact (if_pos ⟨hcluster, hwrote⟩).symm
    · rw [if_neg hwrote]
      apply h before hpre key hkey label
      rw [← hlabel]
      exact (if_neg (fun hw => hwrote hw.2)).symm
  · rw [if_neg hcluster] at hdep hlabel
    apply h dep hdep key hkey label
    rw [← hlabel]
    exact (if_neg (fun hw => hcluster hw.1)).symm

theorem Labelled.apply (h : Labelled resolver namespace_ s) (target under release : String) (docs : List Document)
    (outcome : Document → ApplyOutcome) :
    Labelled resolver namespace_ (s.apply resolver namespace_ target under release docs outcome) := by
  rw [HistoryState.apply]
  split
  · exact h
  · rename_i st hst
    intro st' hst'
    obtain ⟨old, hold, rfl⟩ := mem_map.mp hst'
    show StageState.Labelled resolver namespace_ (relabel st.cluster under (writtenKeys resolver namespace_ docs outcome)
      s.live) _
    unfold StageState.observe
    split
    · rename_i new hnew
      split
      · rename_i hown
        -- the stage that the snapshot is deployed to
        split at hnew
        · cases hnew
          intro dep hdep key hkey label hlabel
          obtain rfl := Option.some.inj hdep
          show List.lookup key (_ ++ _) = some label
          rw [lookup_writes]
          have hcluster : st.cluster = st.cluster := rfl
          rw [relabel, show ({ old with deployed := _ } : StageState).cluster = st.cluster from hown.2] at hlabel
          by_cases hwrote : key ∈ writtenKeys resolver namespace_ docs outcome
          · rw [if_pos ⟨hcluster, hwrote⟩] at hlabel
            rw [if_pos hwrote, hlabel]
          · rw [if_neg (fun hw => hwrote hw.2)] at hlabel
            rw [if_neg hwrote]
            exact lookup_left hkey hlabel
        · cases hnew
      · exact (h old hold).record
    · exact (h old hold).record

theorem Labelled.step (h : Labelled resolver namespace_ s) (e : HistoryEvent) :
    Labelled resolver namespace_ (historyStep resolver namespace_ s e) := by
  cases e with
  | created rel => exact h.of_live rfl (fun _ _ _ hlabel => hlabel)
  | promoted name docs outcome recorded =>
    show Labelled resolver namespace_ (s.promote resolver namespace_ name docs outcome recorded)
    rw [HistoryState.promote]
    split
    · exact h
    apply Labelled.apply
    split
    · apply Labelled.update
      exact h.of_live rfl (fun _ _ _ hlabel => hlabel)
    · exact h.of_live rfl (fun _ _ _ hlabel => hlabel)
  | rolledBack name outcome =>
    show Labelled resolver namespace_ (s.rollback resolver namespace_ name outcome)
    rw [HistoryState.rollback]
    split
    · exact h
    split
    · exact h.update _ _
    split
    · exact h
    · split
      · exact Labelled.of_live (h.apply _ _ _ _ _) rfl (fun _ _ _ hlabel => hlabel)
      · exact h.apply _ _ _ _ _
  | phase name p => exact h.update _ _
  | reference name => exact h.of_live rfl (fun _ _ _ hlabel => hlabel)
  | pruned referenced =>
    show Labelled resolver namespace_ (List.foldl _ s _)
    generalize pruneReleaseHistory s.releases s.releaseRef referenced = olds
    induction olds generalizing s with
    | nil => exact h
    | cons old olds ih => exact ih (h.update _ _)
  | deleted name => exact h.update _ _
  | cleanedUp name run =>
    show Labelled resolver namespace_ (s.cleanup resolver namespace_ name run)
    rw [HistoryState.cleanup]
    split
    · exact h
    split
    · refine Labelled.of_live h ?_ ?_
      · rfl
      intro c key label hlabel
      dsimp only at hlabel
      split at hlabel
      · cases hlabel
      · exact hlabel
    · exact h
  | gone name => exact h.of_live rfl (fun _ _ _ hlabel => hlabel)
  | removed cluster key =>
    refine Labelled.of_live h ?_ ?_
    · rfl
    intro c k label hlabel
    simp only [historyStep] at hlabel
    split at hlabel
    · cases hlabel
    · exact hlabel

theorem labelled_start (live : String → ResourceKey → Option String) (stages : List (String × String)) :
    Labelled resolver namespace_ (HistoryState.start live stages) := by
  intro st hst dep hdep
  obtain ⟨entry, -, rfl⟩ := mem_map.mp hst
  cases hdep

/-- Where labels are those of the last writers, a cleanup of others spares what is deployed. -/
theorem Labelled.spares (h : Labelled resolver namespace_ s) {e : HistoryEvent}
    (he : cleanupOfOthers resolver namespace_ s e) : sparesDeployed resolver namespace_ s e := by
  cases e with
  | cleanedUp name run =>
    intro rel hrel hdeleting st hst dep hdep hother key hkey
    obtain ⟨hwriter, hrecord⟩ := he rel hrel hdeleting st hst dep hdep hother key hkey
    have hname : rel.name = name := by
      have := List.find?_some hrel
      simpa using this
    rw [← Bool.not_eq_true]
    intro hcleans
    simp only [HistoryState.cleans, Bool.and_eq_true, Bool.or_eq_true, beq_iff_eq, contains_iff_mem] at hcleans
    rcases hcleans.2 with hlabelled | hown
    · have hlive : s.live st.cluster key = some name := by rw [hlabelled.2, hname]
      exact hwriter hlabelled.1.1.2 hlabelled.1.2 (h st hst dep hdep key hkey name hlive)
    · exact hrecord hown.1 hown.2
  | _ => trivial
end

def webDocument : Document where
  apiVersion := "apps/v1"
  kind := "Deployment"
  metadataNamespace := ""
  name := "web"
  annotations := []

def webRelease (n : Nat) : HistoryEntry where
  name := "web-" ++ toString n
  target := "production"
  phase := .pending
  createdAt := n
  deleting := false
  snapshotName := ""

def promoteWeb (n : Nat) : List HistoryEvent :=
  [.created (webRelease n), .promoted (webRelease n).name [webDocument] (fun _ => .applied) true]

def quietCleanup : CleanupRun where
  targets := ["in-cluster"]
  permitted := true
  reaches := fun _ _ => true
  rollout := false
  referenced := false

def emptyHistory : HistoryState := HistoryState.start (fun _ _ => none) [("production", "in-cluster")]

/-- The second release is rolled back to the first one, later ones fail before they apply anything, and the history is
pruned of the one that was rolled back. -/
def rollbackRun : List HistoryEvent :=
  promoteWeb 1 ++ [.phase "web-1" .complete] ++ promoteWeb 2 ++
    [.phase "web-2" .failed, .rolledBack "web-2" (fun _ => .applied)] ++
    ((List.range 9).flatMap (fun n => [.created (webRelease (n + 3)), .phase (webRelease (n + 3)).name .failed])) ++
    [.pruned [], .cleanedUp "web-2" quietCleanup]

end Paprika.Releases
