import Paprika.Applications.ReleaseFlow
import Paprika.Pipelines.Types
import Paprika.Releases.History

/-!
# Retention

Three functions thin out the history of an application: `pruneReleaseHistory` and `pruneOldReleases` its releases, and
`promotionPipelinesToPrune` its verification pipelines.  A deleted release stays, as a deleting one, until its finalizer has
run.

* `Retains` — what may be pruned;
* `mem_pruneOldReleases` — `pruneOldReleases` keeps the ten newest releases and what is spared;
* **`retention_sound_iff`** — when the three prune only what may be pruned, and nothing more when they run again.
-/

namespace Paprika.Releases

open Applications (addNameSuffix truncateKubernetesName)
open Pipelines (PipelinePhase)
open List Bool

/-! ### What may be pruned -/

section
variable {α : Type} [DecidableEq α]

/-- Of what is listed, finished objects that nothing refers to, as long as so many finished ones that are not older are
kept. -/
structure Retains (ended referenced : α → Bool) (createdAt : α → Int) (limit : Nat) (all deleted : List α) : Prop where
  listed : ∀ d ∈ deleted, d ∈ all
  finished : ∀ d ∈ deleted, ended d = true
  unreferenced : ∀ d ∈ deleted, referenced d = false
  newest : ∀ d ∈ deleted,
    limit ≤ (all.filter fun r => ended r && decide (r ∉ deleted) && decide (createdAt d ≤ createdAt r)).length

/-- The objects after their deletion. -/
def marked (mark : α → α) (deleted all : List α) : List α := all.map fun r => if r ∈ deleted then mark r else r

variable {ended referenced : α → Bool} {createdAt : α → Int} {limit : Nat} {all deleted deleted' sorted : List α}

theorem retains_nil : Retains ended referenced createdAt limit all [] := by
  constructor <;> exact fun _ hd => absurd hd not_mem_nil

theorem Retains.congr (hsame : ∀ r, r ∈ deleted ↔ r ∈ deleted')
    (h : Retains ended referenced createdAt limit all deleted) :
    Retains ended referenced createdAt limit all deleted' := by
  refine ⟨fun d hd => h.listed d ((hsame d).mpr hd), fun d hd => h.finished d ((hsame d).mpr hd),
    fun d hd => h.unreferenced d ((hsame d).mpr hd), ?_⟩
  intro d hd
  have hfilter : (fun r => ended r && decide (r ∉ deleted') && decide (createdAt d ≤ createdAt r)) =
      fun r => ended r && decide (r ∉ deleted) && decide (createdAt d ≤ createdAt r) := by
    funext r
    rw [decide_eq_decide.mpr (not_congr (hsame r))]
  rw [hfilter]
  exact h.newest d ((hsame d).mpr hd)

/-- All but the newest of finished objects that nothing refers to may be pruned. -/
theorem retains_drop (hnd : sorted.Nodup) (hsort : sorted.Pairwise fun a b => createdAt b ≤ createdAt a)
    (hmem : ∀ r ∈ sorted, r ∈ all ∧ ended r = true ∧ referenced r = false) :
    Retains ended referenced createdAt limit all (sorted.drop limit) := by
  refine ⟨fun d hd => (hmem d (mem_of_mem_drop hd)).1, fun d hd => (hmem d (mem_of_mem_drop hd)).2.1,
    fun d hd => (hmem d (mem_of_mem_drop hd)).2.2, fun d hd => ?_⟩
  have hlen : (sorted.take limit).length = limit := by
    have hpos := length_pos_of_mem hd
    rw [length_drop] at hpos
    rw [length_take, Nat.min_eq_left (by omega)]
  have hfront : (sorted.take limit).Nodup := hnd.sublist (take_sublist _ _)
  rw [← take_append_drop limit sorted] at hnd hsort
  refine hlen.symm.le.trans (subperm_of_subset hfront fun p hp => ?_).length_le
  obtain ⟨hall, hended, -⟩ := hmem p (mem_of_mem_take hp)
  refine mem_filter.mpr ⟨hall, ?_⟩
  rw [hended, Bool.true_and, Bool.and_eq_true, decide_eq_true_eq, decide_eq_true_eq]
  exact ⟨disjoint_of_nodup_append hnd hp, (pairwise_append.mp hsort).2.2 p hp d hd⟩

theorem length_kept_le (hperm : sorted.Perm all) (hnd : sorted.Nodup) :
    (all.filter fun r => decide (r ∉ sorted.drop limit)).length ≤ limit := by
  have hleft : (all.filter fun r => decide (r ∉ sorted.drop limit)) ⊆ sorted.take limit := by
    intro r hr
    obtain ⟨hr, hkept⟩ := mem_filter.mp hr
    have hmem := hperm.mem_iff.mpr hr
    rw [← take_append_drop limit sorted] at hmem
    exact (mem_append.mp hmem).resolve_right (of_decide_eq_true hkept)
  exact (subperm_of_subset ((hperm.nodup_iff.mp hnd).filter _) hleft).length_le.trans (length_take_le _ _)

/-- A choice that excludes what is marked finds only what it has not deleted. -/
theorem filter_marked {mark : α → α} {p : α → Bool} (hp : ∀ r, p (mark r) = false) (deleted all : List α) :
    (marked mark deleted all).filter p = all.filter fun r => p r && decide (r ∉ deleted) := by
  induction all with
  | nil => rfl
  | cons r all ih =>
    show List.filter p ((if r ∈ deleted then mark r else r) :: marked mark deleted all) = _
    by_cases h : r ∈ deleted
    · rw [if_pos h, filter_cons_of_neg (by rw [hp]; exact false_ne_true), ih,
        filter_cons_of_neg (by simp [h])]
    · rw [if_neg h, filter_cons, filter_cons, ih]
      simp [h]
end

/-! ### Releases -/

/-- A release in the cluster, with its namespace and its label. -/
structure OwnedRelease where
  namespace_ : String
  application : String
  entry : HistoryEntry
  deriving DecidableEq

/-- The source that the `status.promotion` of an Application names. -/
structure PromotionSource where
  namespace_ : String
  application : String
  release : String

/-- A verification pipeline, with the UID of its controller. -/
structure PromotionPipeline where
  namespace_ : String
  application : String
  name : String
  controller : Option String
  annotated : Bool
  phase : PipelinePhase
  deleting : Bool
  createdAt : Int
  deriving DecidableEq

/-- What there is in the cluster, with the releases that stages are at and those that accepted deployments are of. -/
structure RetentionWorld where
  releases : List OwnedRelease
  pipelines : List PromotionPipeline
  promotions : List PromotionSource
  stageReleases : List String
  acceptedReleases : List String
  distinct : (releases.map fun r => (r.namespace_, r.entry.name)).Nodup
  pipelinesDistinct : (pipelines.map fun p => (p.namespace_, p.name)).Nodup

/-- What pruning reads of the Application: `candidatePipeline` is the pipeline of its candidate, if it has one. -/
structure PruningApp where
  namespace_ : String
  name : String
  uid : String
  releaseRef : String
  verificationPipelineRef : String
  candidatePipeline : Option String

variable (w : RetentionWorld) (app : PruningApp)

def listReleases : List HistoryEntry :=
  (w.releases.filter fun r => r.namespace_ == app.namespace_ && r.application == app.name).map (·.entry)

def promotionReferencedReleases : List String :=
  (w.promotions.filter fun p => p.release != "" && p.application == app.name && p.namespace_ == app.namespace_).map (·.release)

def finishedRelease (rel : HistoryEntry) : Bool := releasePhasePrunable rel.phase && !rel.deleting

def asDeleting (rel : HistoryEntry) : HistoryEntry := { rel with deleting := true }

/-- The release is that of the Application or of a stage, or a promotion or an accepted deployment is of it. -/
def referencedRelease (rel : HistoryEntry) : Bool :=
  rel.name == app.releaseRef || w.stageReleases.contains rel.name || (promotionReferencedReleases w app).contains rel.name ||
    w.acceptedReleases.contains rel.name

def releaseCandidates : List HistoryEntry :=
  prunableReleaseHistory (listReleases w app) app.releaseRef (promotionReferencedReleases w app)

/-- `pruneReleaseHistory` keeps what it has to, and has nothing to do afterwards. -/
def HistoryPruned : Prop :=
  let all := listReleases w app
  let prune := fun releases => pruneReleaseHistory releases app.releaseRef (promotionReferencedReleases w app)
  Retains finishedRelease (referencedRelease w app) (·.createdAt) maxReleaseHistory all (prune all) ∧
    ∀ d ∈ prune (marked asDeleting (prune all) all), d.deleting = true

/-- There is nothing to prune; or all candidates are pruned at once, nothing refers to one of them, and ten finished releases
that are no candidates are not older. -/
def PrunesAll : Prop :=
  (listReleases w app).length ≤ maxReleaseHistory ∨ releaseCandidates w app = [] ∨
    (releaseCandidates w app).length ≤ (listReleases w app).length - maxReleaseHistory ∧
      ∀ d ∈ releaseCandidates w app, referencedRelease w app d = false ∧
        maxReleaseHistory ≤ ((listReleases w app).filter fun r =>
          finishedRelease r && decide (r ∉ releaseCandidates w app) && decide (d.createdAt ≤ r.createdAt)).length

variable {w app}

theorem nodup_listReleases : ((listReleases w app).map (·.name)).Nodup := by
  have hsub := w.distinct.sublist ((filter_sublist (l := w.releases)
    (p := fun r => r.namespace_ == app.namespace_ && r.application == app.name)).map _)
  rw [listReleases, map_map]
  refine List.Nodup.of_map (f := fun name => (app.namespace_, name)) ?_
  rw [map_map]
  refine (map_congr_left ?_ : _ = _) ▸ hsub
  intro r hr
  have hns := (and_eq_true_iff.mp (mem_filter.mp hr).2).1
  exact Prod.ext (eq_of_beq hns) rfl

theorem mem_releaseCandidates {d : HistoryEntry} (hd : d ∈ releaseCandidates w app) :
    d ∈ listReleases w app ∧ finishedRelease d = true := by
  obtain ⟨hmem, hp⟩ := mem_filter.mp hd
  simp only [and_eq_true, finishedRelease] at hp ⊢
  exact ⟨hmem, hp.2, hp.1.1.2⟩

/-- What is deleted is no candidate the next time. -/
theorem pruneReleaseHistory_marked (deleted : List HistoryEntry) :
    pruneReleaseHistory (marked asDeleting deleted (listReleases w app)) app.releaseRef (promotionReferencedReleases w app) =
      (sortReleasesByTimestamp ((releaseCandidates w app).filter fun r => decide (r ∉ deleted))).take
        ((listReleases w app).length - maxReleaseHistory) := by
  rw [pruneReleaseHistory, prunableReleaseHistory, filter_marked (fun r => by simp [asDeleting]), marked, length_map]
  congr 2
  show _ = ((listReleases w app).filter _).filter _
  rw [filter_filter]
  exact filter_congr fun r _ => and_comm _ _

/-- When the next pruning finds nothing more, all candidates have been deleted. -/
theorem deleted_of_stable {deleted : List HistoryEntry} (hmany : ¬(listReleases w app).length ≤ maxReleaseHistory)
    (hstable : ∀ d ∈ pruneReleaseHistory (marked asDeleting deleted (listReleases w app)) app.releaseRef
      (promotionReferencedReleases w app), d.deleting = true) : ∀ d ∈ releaseCandidates w app, d ∈ deleted := by
  intro d hd
  by_contra hkept
  have hleft : d ∈ sortReleasesByTimestamp ((releaseCandidates w app).filter fun r => decide (r ∉ deleted)) :=
    (exchangeSort_perm _ _).mem_iff.mpr (mem_filter.mpr ⟨hd, decide_eq_true hkept⟩)
  obtain ⟨e, es, hes⟩ := exists_cons_of_ne_nil (ne_nil_of_mem hleft)
  obtain ⟨n, hn⟩ : ∃ n, (listReleases w app).length - maxReleaseHistory = n + 1 :=
    Nat.exists_eq_succ_of_ne_zero (by omega)
  have he : e ∈ releaseCandidates w app := by
    have hmem := (exchangeSort_perm _ _).mem_iff.mp (hes ▸ mem_cons_self : e ∈ sortReleasesByTimestamp _)
    exact (mem_filter.mp hmem).1
  rw [pruneReleaseHistory_marked, hes, hn, take_succ_cons] at hstable
  have hfinished := (mem_releaseCandidates he).2
  rw [finishedRelease, hstable e mem_cons_self, Bool.not_true, Bool.and_false] at hfinished
  cases hfinished

theorem history_pruned_iff : HistoryPruned w app ↔ PrunesAll w app := by
  let all := listReleases w app
  let candidates := releaseCandidates w app
  let deleted := pruneReleaseHistory all app.releaseRef (promotionReferencedReleases w app)
  have hperm : (sortReleasesByTimestamp candidates).Perm candidates := exchangeSort_perm _ _
  have hdel : deleted = (sortReleasesByTimestamp candidates).take (all.length - maxReleaseHistory) := rfl
  have hsub : ∀ d ∈ deleted, d ∈ candidates := fun d hd => hperm.mem_iff.mp (mem_of_mem_take hd)
  constructor
  · rintro ⟨hretains, hstable⟩
    by_cases hfew : all.length ≤ maxReleaseHistory
    · exact .inl hfew
    have hall : ∀ d ∈ candidates, d ∈ deleted := deleted_of_stable hfew hstable
    have hnd : candidates.Nodup := (List.Nodup.of_map _ nodup_listReleases).filter _
    have hle : candidates.length ≤ deleted.length := (subperm_of_subset hnd hall).length_le
    have hspared := hretains.congr fun r => ⟨hsub r, hall r⟩
    exact .inr (.inr ⟨hle.trans (length_take_le _ _), fun d hd => ⟨hspared.unreferenced d hd, hspared.newest d hd⟩⟩)
  · intro h
    show Retains _ _ _ _ all deleted ∧ ∀ d ∈ pruneReleaseHistory (marked asDeleting deleted all) _ _, _
    rw [pruneReleaseHistory_marked]
    rcases h with hfew | hnone | ⟨hle, hspared⟩
    · have hzero : all.length - maxReleaseHistory = 0 := Nat.sub_eq_zero_of_le hfew
      rw [hdel, hzero]
      exact ⟨retains_nil, fun d hd => absurd hd not_mem_nil⟩
    · have hempty : deleted = [] := eq_nil_iff_forall_not_mem.mpr fun d hd => by
        have hmem := hsub d hd
        rw [show candidates = [] from hnone] at hmem
        cases hmem
      rw [hempty, hnone]
      exact ⟨retains_nil, fun d hd => absurd (mem_of_mem_take hd) not_mem_nil⟩
    · have hall : ∀ r, r ∈ candidates ↔ r ∈ deleted := by
        intro r
        rw [hdel, take_of_length_le (hperm.length_eq.trans_le hle), hperm.mem_iff]
      have hretains : Retains finishedRelease (referencedRelease w app) (·.createdAt) maxReleaseHistory all candidates :=
        ⟨fun d hd => (mem_releaseCandidates hd).1, fun d hd => (mem_releaseCandidates hd).2, fun d hd => (hspared d hd).1,
          fun d hd => (hspared d hd).2⟩
      refine ⟨hretains.congr hall, fun d hd => ?_⟩
      have hmem := (exchangeSort_perm _ _).mem_iff.mp (mem_of_mem_take hd)
      obtain ⟨hd, hkept⟩ := mem_filter.mp hmem
      exact absurd ((hall d).mp hd) (of_decide_eq_true hkept)

/-! ### Releases, newest first

`all` is what `listReleasesSorted` gives, with releases of one time in any order. -/

def protectActiveRelease (all : List HistoryEntry) (activeRef : String) : List String :=
  if all.any fun rel => rel.name == activeRef then [activeRef] else []

def protectLatestNonSuperseded (all : List HistoryEntry) (keep : List String) : List String :=
  match all.find? fun rel => !keep.contains rel.name && rel.phase != .superseded with
  | some rel => rel.name :: keep
  | none => keep

def fillHistoryLimit (kept : Nat) : List HistoryEntry → List String → List String
  | [], keep => keep
  | rel :: rest, keep =>
    if keep.contains rel.name then fillHistoryLimit (kept + 1) rest keep
    else if kept < maxReleaseHistory then fillHistoryLimit (kept + 1) rest (rel.name :: keep)
    else fillHistoryLimit kept rest keep

def selectReleasesToKeep (all : List HistoryEntry) (activeRef : String) : List String :=
  fillHistoryLimit 0 all (protectLatestNonSuperseded all (protectActiveRelease all activeRef))

def pruneOldReleases (all : List HistoryEntry) (activeRef : String) (referenced : List String) : List HistoryEntry :=
  if all.length ≤ maxReleaseHistory then []
  else all.filter fun rel => !(selectReleasesToKeep all activeRef ++ referenced).contains rel.name

/-- The names that are kept wherever they are in the history. -/
def sparedNames (w : RetentionWorld) (app : PruningApp) (all : List HistoryEntry) : List String :=
  protectLatestNonSuperseded all (protectActiveRelease all app.releaseRef) ++ promotionReferencedReleases w app

theorem subset_fillHistoryLimit (rest : List HistoryEntry) : ∀ (kept : Nat) (keep : List String),
    keep ⊆ fillHistoryLimit kept rest keep := by
  induction rest with
  | nil => exact fun _ _ => List.Subset.refl _
  | cons x rest ih =>
    intro kept keep
    rw [fillHistoryLimit]
    split_ifs
    · exact ih _ _
    · exact fun n hn => ih _ _ (mem_cons_of_mem _ hn)
    · exact ih _ _

theorem fillHistoryLimit_full {kept : Nat} (hfull : maxReleaseHistory ≤ kept) (rest : List HistoryEntry) (keep : List String) :
    fillHistoryLimit kept rest keep = keep := by
  induction rest generalizing kept with
  | nil => rfl
  | cons x rest ih =>
    rw [fillHistoryLimit, if_neg (Nat.not_lt.mpr hfull)]
    split_ifs
    · exact ih (Nat.le_succ_of_le hfull)
    · exact ih hfull

/-- The newest are kept as long as there is room. -/
theorem mem_fillHistoryLimit {rest : List HistoryEntry} (hnd : (rest.map (·.name)).Nodup) {rel : HistoryEntry}
    (hrel : rel ∈ rest) (kept : Nat) (keep : List String) :
    rel.name ∈ fillHistoryLimit kept rest keep ↔ rel.name ∈ keep ∨ rel ∈ rest.take (maxReleaseHistory - kept) := by
  induction rest generalizing kept keep with
  | nil => cases hrel
  | cons x rest ih =>
    obtain ⟨hx, hrest⟩ := nodup_cons.mp hnd
    by_cases hroom : kept < maxReleaseHistory
    · obtain ⟨n, hn⟩ : ∃ n, maxReleaseHistory - kept = n + 1 := ⟨maxReleaseHistory - kept - 1, by omega⟩
      have hn' : maxReleaseHistory - (kept + 1) = n := by omega
      rw [fillHistoryLimit, if_pos hroom, hn, take_succ_cons]
      rcases mem_cons.mp hrel with rfl | hmem
      · refine iff_of_true ?_ (.inr mem_cons_self)
        split_ifs with hin
        · exact subset_fillHistoryLimit _ _ _ (contains_iff_mem.mp hin)
        · exact subset_fillHistoryLimit _ _ _ mem_cons_self
      have hname : rel.name ≠ x.name := by
        intro heq
        exact hx (mem_map.mpr ⟨rel, hmem, heq⟩)
      have hne : rel ≠ x := fun heq => hname (congrArg _ heq)
      split_ifs
      · rw [ih hrest hmem, hn', mem_cons, or_iff_right hne]
      · rw [ih hrest hmem, hn', mem_cons, mem_cons, or_iff_right hne, or_iff_right hname]
    · have hfull := Nat.not_lt.mp hroom
      rw [fillHistoryLimit_full hfull, Nat.sub_eq_zero_of_le hfull, take_zero]
      exact (or_iff_left not_mem_nil).symm

/-- **What `pruneOldReleases` deletes**: everything behind the ten newest that is not spared. -/
theorem mem_pruneOldReleases {w : RetentionWorld} {app : PruningApp} {all : List HistoryEntry}
    (hnd : (all.map (·.name)).Nodup) (rel : HistoryEntry) :
    rel ∈ pruneOldReleases all app.releaseRef (promotionReferencedReleases w app) ↔
      rel ∈ all.drop maxReleaseHistory ∧ rel.name ∉ sparedNames w app all := by
  have hsplit : rel ∈ all.drop maxReleaseHistory ↔ rel ∈ all ∧ rel ∉ all.take maxReleaseHistory := by
    have hall := (List.Nodup.of_map _ hnd)
    rw [← take_append_drop maxReleaseHistory all] at hall
    have hdisj := disjoint_of_nodup_append hall
    constructor
    · exact fun h => ⟨mem_of_mem_drop h, fun htake => hdisj htake h⟩
    · rintro ⟨hmem, htake⟩
      rw [← take_append_drop maxReleaseHistory all] at hmem
      exact (mem_append.mp hmem).resolve_left htake
  rw [pruneOldReleases, hsplit]
  split_ifs with hfew
  · rw [take_of_length_le hfew]
    exact iff_of_false not_mem_nil fun h => h.1.2 h.1.1
  rw [mem_filter, not_eq_true', eq_false_iff, Ne, contains_iff_mem, mem_append, sparedNames,
    mem_append]
  constructor
  · rintro ⟨hmem, hkeep⟩
    rw [selectReleasesToKeep, mem_fillHistoryLimit hnd hmem] at hkeep
    tauto
  · rintro ⟨⟨hmem, htake⟩, hspared⟩
    refine ⟨hmem, ?_⟩
    rw [selectReleasesToKeep, mem_fillHistoryLimit hnd hmem]
    tauto

/-- `pruneOldReleases` keeps what it has to, and has nothing to do afterwards. -/
def OldPruned (w : RetentionWorld) (app : PruningApp) (all : List HistoryEntry) : Prop :=
  let prune := fun releases => pruneOldReleases releases app.releaseRef (promotionReferencedReleases w app)
  Retains finishedRelease (referencedRelease w app) (·.createdAt) maxReleaseHistory all (prune all) ∧
    ∀ d ∈ prune (marked asDeleting (prune all) all), d.deleting = true

/-- What is behind the ten newest and not spared is finished, nothing refers to it, and ten finished releases that are not
older are among the ten newest or spared. -/
def PrunesFinished (w : RetentionWorld) (app : PruningApp) (all : List HistoryEntry) : Prop :=
  ∀ d ∈ all.drop maxReleaseHistory, d.name ∉ sparedNames w app all →
    finishedRelease d = true ∧ referencedRelease w app d = false ∧ maxReleaseHistory ≤ (all.filter fun r =>
        finishedRelease r && decide (r ∈ all.take maxReleaseHistory ∨ r.name ∈ sparedNames w app all) &&
          decide (d.createdAt ≤ r.createdAt)).length

theorem sparedNames_marked (w : RetentionWorld) (app : PruningApp) (deleted all : List HistoryEntry) :
    sparedNames w app (marked asDeleting deleted all) = sparedNames w app all := by
  have hname : ∀ r : HistoryEntry, (if r ∈ deleted then asDeleting r else r).name = r.name ∧
      (if r ∈ deleted then asDeleting r else r).phase = r.phase := by
    intro r
    split_ifs
    · exact ⟨rfl, rfl⟩
    · exact ⟨rfl, rfl⟩
  have hactive : protectActiveRelease (marked asDeleting deleted all) app.releaseRef = protectActiveRelease all app.releaseRef := by
    rw [protectActiveRelease, protectActiveRelease, marked, any_map]
    congr 3
    funext r
    rw [Function.comp_apply, (hname r).1]
  rw [sparedNames, sparedNames, hactive, protectLatestNonSuperseded, protectLatestNonSuperseded, marked, List.find?_map]
  have hsame : ∀ keep : List String, ((fun rel : HistoryEntry => !keep.contains rel.name && rel.phase != .superseded) ∘
      fun r => if r ∈ deleted then asDeleting r else r) = fun rel => !keep.contains rel.name && rel.phase != .superseded := by
    intro keep
    funext r
    rw [Function.comp_apply, (hname r).1, (hname r).2]
  rw [hsame]
  cases all.find? fun rel => !(protectActiveRelease all app.releaseRef).contains rel.name && rel.phase != .superseded with
  | none => rfl
  | some r => rw [Option.map_some]; dsimp only; rw [(hname r).1]

variable {w : RetentionWorld} {app : PruningApp} {all : List HistoryEntry}

theorem kept_iff (hnd : (all.map (·.name)).Nodup) {r : HistoryEntry} (hr : r ∈ all) :
    r ∉ pruneOldReleases all app.releaseRef (promotionReferencedReleases w app) ↔
      r ∈ all.take maxReleaseHistory ∨ r.name ∈ sparedNames w app all := by
  have hboth := List.Nodup.of_map _ hnd
  rw [← take_append_drop maxReleaseHistory all] at hr hboth
  rw [mem_pruneOldReleases hnd, not_and_not_right]
  refine ⟨fun h => (mem_append.mp hr).imp_right h, ?_⟩
  rintro (htake | hspared) hdrop
  · exact absurd hdrop (disjoint_of_nodup_append hboth htake)
  · exact hspared

/-- `pruneOldReleases` has nothing more to do right after it. -/
theorem pruneOldReleases_again (hnd : (all.map (·.name)).Nodup) {d : HistoryEntry}
    (hd : d ∈ pruneOldReleases (marked asDeleting (pruneOldReleases all app.releaseRef (promotionReferencedReleases w app)) all)
      app.releaseRef (promotionReferencedReleases w app)) : d.deleting = true := by
  generalize hdel : pruneOldReleases all app.releaseRef (promotionReferencedReleases w app) = deleted at hd
  have hnames : (marked asDeleting deleted all).map (·.name) = all.map (·.name) := by
    rw [marked, map_map]
    refine map_congr_left fun r _ => ?_
    rw [Function.comp_apply]
    split_ifs
    · rfl
    · rfl
  rw [mem_pruneOldReleases (hnames ▸ hnd), sparedNames_marked, marked, ← map_drop] at hd
  obtain ⟨⟨r, hr, heq⟩, hspared⟩ := And.imp_left mem_map.mp hd
  by_cases hgone : r ∈ deleted
  · rw [if_pos hgone] at heq
    rw [← heq]
    rfl
  · rw [if_neg hgone] at heq
    rw [← heq] at hspared
    rw [← hdel, mem_pruneOldReleases hnd] at hgone
    exact absurd ⟨hr, hspared⟩ hgone

theorem old_pruned_iff (hall : all.Perm (listReleases w app)) : OldPruned w app all ↔ PrunesFinished w app all := by
  have hnd : (all.map (·.name)).Nodup := (hall.map _).nodup_iff.mpr nodup_listReleases
  let deleted := pruneOldReleases all app.releaseRef (promotionReferencedReleases w app)
  have hmem : ∀ d, d ∈ deleted ↔ d ∈ all.drop maxReleaseHistory ∧ d.name ∉ sparedNames w app all := mem_pruneOldReleases hnd
  have hfilter : ∀ d : HistoryEntry, all.filter (fun r => finishedRelease r && decide (r ∉ deleted) &&
      decide (d.createdAt ≤ r.createdAt)) = all.filter fun r => finishedRelease r &&
        decide (r ∈ all.take maxReleaseHistory ∨ r.name ∈ sparedNames w app all) && decide (d.createdAt ≤ r.createdAt) :=
    fun d => filter_congr fun r hr => by rw [decide_eq_decide.mpr (kept_iff hnd hr)]
  constructor
  · rintro ⟨hretains, -⟩ d hd hspared
    have hdel := (hmem d).mpr ⟨hd, hspared⟩
    refine ⟨hretains.finished d hdel, hretains.unreferenced d hdel, ?_⟩
    rw [← hfilter]
    exact hretains.newest d hdel
  intro h
  have hspec : ∀ d ∈ deleted, _ := fun d hd => h d ((hmem d).mp hd).1 ((hmem d).mp hd).2
  refine ⟨⟨fun d hd => mem_of_mem_drop ((hmem d).mp hd).1, fun d hd => (hspec d hd).1, fun d hd => (hspec d hd).2.1, ?_⟩,
    fun d hd => pruneOldReleases_again hnd hd⟩
  intro d hd
  show maxReleaseHistory ≤ (all.filter fun r => finishedRelease r && decide (r ∉ deleted) && _).length
  rw [hfilter]
  exact (hspec d hd).2.2

/-! ### Verification pipelines -/

def maxPromotionPipelineHistory : Nat := 10

def pipelineFinished : PipelinePhase → Bool
  | .succeeded | .failed | .cancelled => true
  | .unset | .pending | .running => false

/-- `promotionPipelinePrefix`: the name of a pipeline without the twelve digits at its end. -/
def promotionPipelineFront (app : PruningApp) : List Char :=
  let placeholder := List.replicate 12 '0'
  let name := (addNameSuffix (truncateKubernetesName (app.name ++ "-promotion-tests")) (String.ofList placeholder)).toList
  if placeholder.isSuffixOf name then name.take (name.length - 12) else name

def isPromotionPipeline (app : PruningApp) (p : PromotionPipeline) : Bool :=
  p.controller == some app.uid && (promotionPipelineFront app).isPrefixOf p.name.toList && p.annotated

def prunablePromotionPipeline (app : PruningApp) (p : PromotionPipeline) : Bool :=
  isPromotionPipeline app p && !p.deleting && pipelineFinished p.phase

def protectedPromotionPipelines (app : PruningApp) : List String :=
  (if app.verificationPipelineRef = "" then [] else [app.verificationPipelineRef]) ++ app.candidatePipeline.toList

/-- Newest first, and of one time the greatest name. -/
def sortsBefore (a b : PromotionPipeline) : Bool :=
  !(if b.createdAt = a.createdAt then decide (a.name < b.name) else decide (a.createdAt < b.createdAt))

def promotionPipelinesToPrune (app : PruningApp) (pipelines : List PromotionPipeline) : List PromotionPipeline :=
  let finished := pipelines.filter fun p =>
    prunablePromotionPipeline app p && !(protectedPromotionPipelines app).contains p.name
  if finished.length ≤ maxPromotionPipelineHistory then []
  else (finished.mergeSort sortsBefore).drop maxPromotionPipelineHistory

def listPipelines (w : RetentionWorld) (app : PruningApp) : List PromotionPipeline :=
  w.pipelines.filter fun p => p.namespace_ == app.namespace_ && p.application == app.name

/-- `promotionPipelinesToPrune` keeps what it has to, and has nothing to do afterwards. -/
def PipelinesPruned (w : RetentionWorld) (app : PruningApp) : Prop :=
  let all := listPipelines w app
  let deleted := promotionPipelinesToPrune app all
  Retains (prunablePromotionPipeline app) (fun p => (protectedPromotionPipelines app).contains p.name) (·.createdAt)
      maxPromotionPipelineHistory all deleted ∧
    ∀ d ∈ promotionPipelinesToPrune app (marked (fun p => { p with deleting := true }) deleted all), d.deleting = true

theorem sortsBefore_iff {a b : PromotionPipeline} :
    sortsBefore a b = true ↔ b.createdAt < a.createdAt ∨ b.createdAt = a.createdAt ∧ b.name ≤ a.name := by
  rw [sortsBefore, not_eq_true']
  split_ifs with h
  · rw [decide_eq_false_iff_not, String.not_lt]
    exact ⟨fun hname => .inr ⟨h, hname⟩, fun hname => hname.elim (fun hlt => absurd h hlt.ne) And.right⟩
  · rw [decide_eq_false_iff_not, not_lt]
    exact ⟨fun hle => .inl (lt_of_le_of_ne hle h), fun hlt => hlt.elim le_of_lt fun heq => absurd heq.1 h⟩

theorem sortsBefore_trans (a b c : PromotionPipeline) (hab : sortsBefore a b = true) (hbc : sortsBefore b c = true) :
    sortsBefore a c = true := by
  rw [sortsBefore_iff] at hab hbc ⊢
  rcases hab with hab | ⟨hab, hnames⟩
  · rcases hbc with hbc | ⟨hbc, -⟩
    · exact .inl (hbc.trans hab)
    · exact .inl (hbc ▸ hab)
  · rcases hbc with hbc | ⟨hbc, hnames'⟩
    · exact .inl (hab ▸ hbc)
    · exact .inr ⟨hbc.trans hab, String.le_trans hnames' hnames⟩

theorem sortsBefore_total (a b : PromotionPipeline) : (sortsBefore a b || sortsBefore b a) = true := by
  rw [or_eq_true, sortsBefore_iff, sortsBefore_iff]
  rcases lt_trichotomy a.createdAt b.createdAt with hlt | heq | hlt
  · exact .inr (.inl hlt)
  · exact (String.le_total b.name a.name).imp (fun h => .inr ⟨heq.symm, h⟩) fun h => .inr ⟨heq, h⟩
  · exact .inl (.inl hlt)

theorem pipelines_pruned (w : RetentionWorld) (app : PruningApp) : PipelinesPruned w app := by
  let all := listPipelines w app
  let finished := all.filter fun p => prunablePromotionPipeline app p && !(protectedPromotionPipelines app).contains p.name
  let sorted := finished.mergeSort sortsBefore
  have hperm : sorted.Perm finished := mergeSort_perm _ _
  have hnd : sorted.Nodup := hperm.nodup_iff.mpr (((List.Nodup.of_map _ w.pipelinesDistinct).filter _).filter _)
  have hsort : sorted.Pairwise fun a b => b.createdAt ≤ a.createdAt := by
    refine (pairwise_mergeSort sortsBefore_trans sortsBefore_total finished).imp fun h => ?_
    exact (sortsBefore_iff.mp h).elim le_of_lt fun h => h.1.le
  have hdel : promotionPipelinesToPrune app all = sorted.drop maxPromotionPipelineHistory := by
    by_cases hfew : finished.length ≤ maxPromotionPipelineHistory
    · exact (if_pos hfew).trans (drop_eq_nil_of_le (hperm.length_eq.trans_le hfew)).symm
    · exact if_neg hfew
  show Retains _ _ _ _ all (promotionPipelinesToPrune app all) ∧
    ∀ d ∈ promotionPipelinesToPrune app (marked _ (promotionPipelinesToPrune app all) all), d.deleting = true
  rw [hdel]
  constructor
  · refine retains_drop hnd hsort fun p hp => ?_
    obtain ⟨hmem, hp⟩ := mem_filter.mp (hperm.mem_iff.mp hp)
    obtain ⟨hprunable, hname⟩ := and_eq_true_iff.mp hp
    exact ⟨hmem, hprunable, (not_eq_true' _).mp hname⟩
  · -- the next time the choice is made from what is left of the finished ones
    intro d hd
    have hagain : (marked (fun p : PromotionPipeline => { p with deleting := true })
        (sorted.drop maxPromotionPipelineHistory) all).filter (fun p =>
          prunablePromotionPipeline app p && !(protectedPromotionPipelines app).contains p.name) =
        finished.filter fun p => decide (p ∉ sorted.drop maxPromotionPipelineHistory) := by
      rw [filter_marked (fun r => by simp [prunablePromotionPipeline]), filter_filter]
      exact filter_congr fun r _ => and_comm _ _
    rw [promotionPipelinesToPrune, hagain, if_pos (length_kept_le hperm hnd)] at hd
    cases hd

/-! ### Retention -/

/-- **Retention.**  The verification pipelines are always pruned as they should be; the releases where all or nothing is, or
where what is behind the ten newest is finished and not referred to. -/
theorem retention_sound_iff (w : RetentionWorld) (app : PruningApp) : PipelinesPruned w app ∧
    (HistoryPruned w app ↔ PrunesAll w app) ∧
    ∀ all : List HistoryEntry, all.Perm (listReleases w app) → (OldPruned w app all ↔ PrunesFinished w app all) :=
  ⟨pipelines_pruned w app, history_pruned_iff, fun _ hall => old_pruned_iff hall⟩

/-- A dozen complete releases of one Application, the last of them its own. -/
def dozen : List HistoryEntry :=
  (List.range 12).map fun n => ⟨String.ofList (List.replicate (n + 1) 'r'), "prod", .complete, n, false, ""⟩

/-- The second pruning right after the first deletes two more. -/
theorem pruned_again : (pruneReleaseHistory dozen "rrrrrrrrrrrr" []).map (·.createdAt) = [0, 1] ∧
    (pruneReleaseHistory (marked asDeleting (pruneReleaseHistory dozen "rrrrrrrrrrrr" []) dozen) "rrrrrrrrrrrr" []).map
      (·.createdAt) = [2, 3] := by
  decide

end Paprika.Releases
