import Mathlib
import Paprika.Releases.Cleanup

/-!
# What is picked from the history of an application

`findRollbackTarget` looks for a release to go back to.  It prefers the newest complete release, and falls back to the newest
of any phase but `Failed`; neither has to be older than the release that is rolled back.

* **`rollback_target_sound_iff`** — when the target is a sound one, for every list of releases.
-/

namespace Paprika.Releases

open List Option

/-! ### The exchange sorts -/

section
variable {α : Type} {less : α → α → Bool}

theorem exchange_perm (less : α → α → Bool) (x : α) (xs : List α) : ((exchange less x xs).1 :: (exchange less x xs).2).Perm (x :: xs) := by
  induction xs generalizing x with
  | nil => exact List.Perm.refl _
  | cons y ys ih =>
    rw [exchange]
    split
    · exact (List.Perm.swap _ _ _).trans ((ih y).cons x)
    · exact ((List.Perm.swap _ _ _).trans ((ih x).cons y)).trans (List.Perm.swap _ _ _)

theorem exchangeSort_perm (n : Nat) : ∀ xs : List α, (exchangeSort less n xs).Perm xs := by
  induction n with
  | zero => exact fun xs => List.Perm.refl xs
  | succ n ih =>
    intro xs
    cases xs with
    | nil => exact List.Perm.refl _
    | cons x xs => exact ((ih _).cons _).trans (exchange_perm less x xs)

variable {key : α → Int}

/-- In front comes the first of those with the greatest key. -/
theorem exchange_eq_argmax (x : α) (xs : List α) :
    (x :: xs).argmax key = some (exchange (fun a b => decide (key b < key a)) x xs).1 := by
  induction xs generalizing x with
  | nil => rfl
  | cons y ys ih =>
    have hx := ih x
    have hy := ih y
    rw [argmax_cons, hy, exchange, apply_ite Prod.fst]
    rw [argmax_cons] at hx hy
    generalize (exchange (fun a b => decide (key b < key a)) x ys).1 = ex at *
    generalize (exchange (fun a b => decide (key b < key a)) y ys).1 = ey at *
    simp only [decide_eq_true_eq]
    cases hys : ys.argmax key with
    | none =>
      rw [hys] at hx hy
      obtain rfl := some.inj hx
      obtain rfl := some.inj hy
      by_cases hxy : key x < key y
      · simp only [if_pos hxy]
      · simp only [if_neg hxy]
    | some m =>
    rw [hys] at hx hy
    dsimp only at hx hy ⊢
    by_cases hym : key y < key m
    · rw [if_pos hym] at hy
      obtain rfl := some.inj hy
      by_cases hxy : key x < key y
      · rw [if_pos hxy, if_pos (hxy.trans hym)]
      · rw [if_neg hxy, hx]
    rw [if_neg hym] at hy
    obtain rfl := some.inj hy
    by_cases hxy : key x < key y
    · rw [if_pos hxy, if_pos hxy]
    · have hxm : ¬key x < key m := fun h => hxy (lt_of_lt_of_le h (not_lt.mp hym))
      rw [if_neg hxm] at hx
      rw [if_neg hxy, if_neg hxy, hx]

theorem exchangeSort_sorted (key : α → Int) (n : Nat) : ∀ xs : List α, xs.length ≤ n →
    (exchangeSort (fun a b => decide (key b < key a)) n xs).Pairwise (fun a b => key b ≤ key a) := by
  induction n with
  | zero => exact fun xs h => by rw [length_eq_zero_iff.mp (Nat.le_zero.mp h)]; exact List.Pairwise.nil
  | succ n ih =>
    intro xs hlen
    cases xs with
    | nil => exact List.Pairwise.nil
    | cons x xs =>
    have hperm := exchange_perm (fun a b => decide (key b < key a)) x xs
    have hrest := hperm.length_eq
    refine pairwise_cons.mpr ⟨fun y hy => ?_, ih _ (by simp only [length_cons] at hrest hlen; omega)⟩
    have hmem := hperm.mem_iff.mp (mem_cons_of_mem _ ((exchangeSort_perm n _).mem_iff.mp hy))
    exact le_of_mem_argmax hmem (exchange_eq_argmax x xs)
end

/-! ### The rollback target -/

def collectRollbackCandidates (releases : List HistoryEntry) (release : HistoryEntry) : List HistoryEntry :=
  releases.filter (fun other => other.name != release.name && other.target == release.target && other.phase != .failed &&
    other.snapshotName != "")

/-- An earlier release of the same target that was deployed, with its snapshot. -/
structure Sound (release other : HistoryEntry) : Prop where
  distinct : other.name ≠ release.name
  target : other.target = release.target
  earlier : other.createdAt < release.createdAt
  snapshot : other.snapshotName ≠ ""
  deployed : other.phase = .complete ∨ other.phase = .superseded

/-- The answer is the newest complete sound release or else the newest superseded one, and there is one if it can be. -/
structure PicksSound (releases : List HistoryEntry) (release : HistoryEntry) : Prop where
  sound : ∀ t, findRollbackTarget releases release = some t → t ∈ releases ∧ Sound release t
  newest : ∀ t, findRollbackTarget releases release = some t → ∀ c ∈ releases, Sound release c →
    c.phase = t.phase ∧ c.createdAt ≤ t.createdAt ∨ c.phase = .superseded ∧ t.phase = .complete
  found : ∀ c ∈ releases, Sound release c → findRollbackTarget releases release ≠ none

section
variable {releases : List HistoryEntry} {release : HistoryEntry}

theorem mem_candidates {c : HistoryEntry} : c ∈ collectRollbackCandidates releases release ↔
    c ∈ releases ∧ c.name ≠ release.name ∧ c.target = release.target ∧ c.phase ≠ .failed ∧ c.snapshotName ≠ "" := by
  simp only [collectRollbackCandidates, mem_filter, Bool.and_eq_true, bne_iff_ne, beq_iff_eq, and_assoc]

theorem Sound.candidate {c : HistoryEntry} (h : Sound release c) (hc : c ∈ releases) :
    c ∈ collectRollbackCandidates releases release := by
  refine mem_candidates.mpr ⟨hc, h.distinct, h.target, ?_, h.snapshot⟩
  rcases h.deployed with hphase | hphase
  · rw [hphase]; decide
  · rw [hphase]; decide

theorem findRollbackTarget_eq (releases : List HistoryEntry) (release : HistoryEntry) :
    findRollbackTarget releases release =
      ((sortReleasesByCreation (collectRollbackCandidates releases release)).find? (fun c => c.phase = .complete)).or
        (sortReleasesByCreation (collectRollbackCandidates releases release)).head? := by
  rw [findRollbackTarget, collectRollbackCandidates]
  split
  · next h => rw [h, Option.some_or]
  · next h => rw [h, Option.none_or]

/-- With a complete candidate, the target is the newest of these. -/
theorem findRollbackTarget_complete {c : HistoryEntry} (hc : c ∈ collectRollbackCandidates releases release)
    (hphase : c.phase = .complete) :
    ∃ t ∈ collectRollbackCandidates releases release, findRollbackTarget releases release = some t ∧ t.phase = .complete ∧
      ∀ c ∈ collectRollbackCandidates releases release, c.phase = .complete → c.createdAt ≤ t.createdAt := by
  have hperm : (sortReleasesByCreation (collectRollbackCandidates releases release)).Perm _ := exchangeSort_perm _ _
  have hsort := exchangeSort_sorted HistoryEntry.createdAt _ (collectRollbackCandidates releases release) le_rfl
  cases hfind : (sortReleasesByCreation (collectRollbackCandidates releases release)).find? (fun c => c.phase = .complete) with
  | none =>
    have hnone := List.find?_eq_none.mp hfind c (hperm.mem_iff.mpr hc)
    exact absurd (decide_eq_true hphase) hnone
  | some t =>
  have hfound : findRollbackTarget releases release = some t := by rw [findRollbackTarget_eq, hfind, Option.some_or]
  obtain ⟨ht, front, rest, hsplit, hfront⟩ := List.find?_eq_some_iff_append.mp hfind
  refine ⟨t, hperm.mem_iff.mp (mem_of_find?_eq_some hfind), hfound, of_decide_eq_true ht, fun d hd hd' => ?_⟩
  have hin := hperm.mem_iff.mpr hd
  change List.Pairwise _ (sortReleasesByCreation (collectRollbackCandidates releases release)) at hsort
  rw [hsplit] at hin hsort
  rcases mem_append.mp hin with h | h
  · exact absurd (decide_eq_true hd') (by simpa using hfront d h)
  · rcases mem_cons.mp h with rfl | h
    · exact le_rfl
    · exact (pairwise_cons.mp (pairwise_append.mp hsort).2.1).1 d h

/-- Without one, it is the first of the newest candidates. -/
theorem findRollbackTarget_other (h : ∀ c ∈ collectRollbackCandidates releases release, c.phase ≠ .complete) :
    findRollbackTarget releases release = (collectRollbackCandidates releases release).argmax HistoryEntry.createdAt := by
  have hnone : (sortReleasesByCreation (collectRollbackCandidates releases release)).find?
      (fun c => c.phase = .complete) = none := by
    refine List.find?_eq_none.mpr fun c hc hphase => ?_
    exact h c ((exchangeSort_perm _ _).mem_iff.mp hc) (of_decide_eq_true hphase)
  have hhead : findRollbackTarget releases release =
      (sortReleasesByCreation (collectRollbackCandidates releases release)).head? := by
    rw [findRollbackTarget_eq, hnone, Option.none_or]
  rw [hhead, sortReleasesByCreation]
  cases collectRollbackCandidates releases release with
  | nil => rfl
  | cons x xs => exact (exchange_eq_argmax x xs).symm

/-- **When rollback goes back to a sound release**: the complete releases of its target are all older, and where there is
none the first of the newest others is superseded, and older. -/
theorem rollback_target_sound_iff (releases : List HistoryEntry) (release : HistoryEntry) :
    PicksSound releases release ↔
      (∀ c ∈ collectRollbackCandidates releases release, c.phase = .complete → c.createdAt < release.createdAt) ∧
        ((∀ c ∈ collectRollbackCandidates releases release, c.phase ≠ .complete) →
          ∀ c, (collectRollbackCandidates releases release).argmax HistoryEntry.createdAt = some c →
            c.phase = .superseded ∧ c.createdAt < release.createdAt) := by
  constructor
  · intro h
    refine ⟨fun c hc hphase => ?_, fun hnone c hc => ?_⟩
    · obtain ⟨t, -, hfound, -, hnewest⟩ := findRollbackTarget_complete hc hphase
      exact lt_of_le_of_lt (hnewest c hc hphase) (h.sound t hfound).2.earlier
    · have hsound := (h.sound c ((findRollbackTarget_other hnone).trans hc)).2
      exact ⟨hsound.deployed.resolve_left (hnone c (argmax_mem hc)), hsound.earlier⟩
  rintro ⟨hcomplete, hother⟩
  by_cases hnone : ∀ c ∈ collectRollbackCandidates releases release, c.phase ≠ .complete
  · have hfound := findRollbackTarget_other hnone
    refine ⟨fun t ht => ?_, fun t ht c hc hsound => ?_, fun c hc hsound hmissing => ?_⟩
    · rw [hfound] at ht
      obtain ⟨hphase, hearlier⟩ := hother hnone t ht
      obtain ⟨hin, hname, htarget, -, hsnapshot⟩ := mem_candidates.mp (argmax_mem ht)
      exact ⟨hin, hname, htarget, hearlier, hsnapshot, .inr hphase⟩
    · rw [hfound] at ht
      have hcandidate := hsound.candidate hc
      have hphase := hsound.deployed.resolve_left (hnone c hcandidate)
      exact .inl ⟨hphase.trans (hother hnone t ht).1.symm, le_of_mem_argmax hcandidate ht⟩
    · rw [hfound, argmax_eq_none] at hmissing
      exact not_mem_nil (hmissing ▸ hsound.candidate hc)
  · push Not at hnone
    obtain ⟨d, hd, hdphase⟩ := hnone
    obtain ⟨t, ht, hfound, hphase, hnewest⟩ := findRollbackTarget_complete hd hdphase
    refine ⟨fun t' ht' => ?_, fun t' ht' c hc hsound => ?_, fun c hc hsound => by rw [hfound]; exact some_ne_none t⟩
    · obtain rfl := some.inj (hfound.symm.trans ht')
      obtain ⟨hin, hname, htarget, -, hsnapshot⟩ := mem_candidates.mp ht
      exact ⟨hin, hname, htarget, hcomplete t ht hphase, hsnapshot, .inl hphase⟩
    · obtain rfl := some.inj (hfound.symm.trans ht')
      rcases hsound.deployed with hc' | hc'
      · exact .inl ⟨hc'.trans hphase.symm, hnewest c (hsound.candidate hc) hc'⟩
      · exact .inr ⟨hc', hphase⟩

/-- A newer release that waits is no sound target. -/
theorem rollback_takes_newest_of_any_phase : ¬∀ releases release, PicksSound releases release := by
  intro h
  have hsound := (h [⟨"web-2", "prod", .pending, 2, false, "web-2-manifests"⟩] ⟨"web-1", "prod", .failed, 1, false, ""⟩).sound
    _ (by decide : findRollbackTarget _ _ = some ⟨"web-2", "prod", .pending, 2, false, "web-2-manifests"⟩)
  exact absurd hsound.2.earlier (by decide)
end

end Paprika.Releases
