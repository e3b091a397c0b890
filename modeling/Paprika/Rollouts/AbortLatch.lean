import Mathlib.Data.List.Infix
import Paprika.Rollouts.ServiceSelectors

/-!
# The abort latch

`latchAbort` sets the durable flag while the abort annotation is there, and clears it once the annotation is gone
and the template's hash differs from `CurrentPodHash`, the anchor.  The anchor is written at the end of a
successful reconcile, from the template as its actions left it, and not at all in a failing one.  So it need not be
the hash of any template that was current while the abort was in force.

* **`abort_clears_only_on_change`** — in a run whose reconciles under abort store the hash of the user's template,
  or, where they fail, find it there already, the flag is cleared only without the annotation and by a template
  whose hash differs from the one of a reconcile made since the abort is in force;
* **`aborts_only_on_annotation`** — in every run, whatever fails, the flag is set only where the annotation is found;
* **`relabelled_template_clears_abort`** — a labelled template clears the flag without having changed.
-/

namespace Paprika.Rollouts

open Lib.Run

variable {P : Type} {X : Externals P}

/-! ### The condition -/

/-- A reconcile in this state gets as far as `latchAbort`, and finds or sets the abort flag. -/
def InForce (X : Externals P) (w : World P) : Prop :=
  w.rollout.finalizer = true ∧ w.rollout.spec.paused = false ∧ (latchAbort X w.rollout w.status).abort = true

instance (w : World P) : Decidable (InForce X w) := inferInstanceAs (Decidable (_ ∧ _))

/-- A reconcile under abort whose status is written merges nothing into the template it hashes, if it completes;
if it fails, the abort was latched before, or there is no anchor, or the anchor is the hash of the template. -/
def Anchors (X : Externals P) (w : World P) : Event P → Prop
  | .reconcile inp =>
    InForce X w → inp.faults.patchStatus = none →
      if Completes X w inp then MergesNothing X w (.reconcile inp)
      else w.status.abort = true ∨ w.status.currentPodHash = "" ∨
        w.status.currentPodHash = X.currentHash w.rollout
  | _ => True

instance (w : World P) : ∀ e, Decidable (Anchors X w e)
  | .setTemplate _ => .isTrue trivial
  | .setAnnotations _ => .isTrue trivial
  | .setDeployment _ => .isTrue trivial
  | .setReady _ _ => .isTrue trivial
  | .reconcile _ => inferInstanceAs (Decidable (_ → _))

/-! ### The property -/

section
variable [Inhabited P]

/-- Some reconcile of the run found a template of that hash while the abort was in force, and the flag is set ever
since. -/
def AbortedOn (X : Externals P) (w : World P) (es : List (Event P)) (hash : String) : Prop :=
  ∃ pre inp post, es = pre ++ .reconcile inp :: post ∧ InForce X (after X w pre) ∧
    X.currentHash (after X w pre).rollout = hash ∧
    ∀ mid, mid <+: post → (after X w (pre ++ .reconcile inp :: mid)).status.abort = true

theorem AbortedOn.snoc {w : World P} {es : List (Event P)} {hash : String} (h : AbortedOn X w es hash)
    {e : Event P} (he : (after X w (es ++ [e])).status.abort = true) : AbortedOn X w (es ++ [e]) hash := by
  obtain ⟨pre, inp, post, rfl, hforce, hhash, hset⟩ := h
  refine ⟨pre, inp, post ++ [e], by simp, hforce, hhash, fun mid hmid => ?_⟩
  rcases List.prefix_concat_iff.mp hmid with rfl | hmid
  · rw [List.append_assoc, List.cons_append] at he
    exact he
  · exact hset mid hmid

theorem AbortedOn.now {w : World P} {es : List (Event P)} {inp : ReconcileInput}
    (hforce : InForce X (after X w es)) (hset : (after X w (es ++ [.reconcile inp])).status.abort = true) :
    AbortedOn X w (es ++ [.reconcile inp]) (X.currentHash (after X w es).rollout) := by
  refine ⟨es, inp, [], rfl, hforce, rfl, fun mid hmid => ?_⟩
  rw [List.prefix_nil.mp hmid]
  exact hset
end

/-! ### One reconcile -/

theorem latchAbort_clears {ro : Rollout P} {status : RolloutStatus} (hset : status.abort = true)
    (hclear : (latchAbort X ro status).abort = false) :
    ro.annotations abortAnnotation = none ∧ status.currentPodHash ≠ "" ∧
      X.currentHash ro ≠ status.currentPodHash := by
  unfold latchAbort at hclear
  split at hclear
  · cases hclear
  rename_i hgone
  rw [Bool.not_eq_true, Option.isSome_eq_false_iff, Option.isNone_iff_eq_none] at hgone
  split at hclear
  · rename_i hnot
    rw [hset] at hnot
    cases hnot
  · split at hclear
    · rename_i hchanged
      exact ⟨hgone, hchanged⟩
    · rw [hset] at hclear; cases hclear

section
variable [Inhabited P] {w : World P} {inp : ReconcileInput} {status : RolloutStatus}

/-- **The flag and the anchor after a reconcile**, whatever failed: both as they were; the flag as latched and the
anchor as it was, after a failure; or the flag as latched and a new anchor. -/
theorem persisted_latch (h : Persisted X w inp status) :
    (status.abort = w.status.abort ∧ status.currentPodHash = w.status.currentPodHash) ∨
    (w.rollout.finalizer = true ∧ w.rollout.spec.paused = false ∧ inp.faults.patchStatus = none ∧
      status.abort = (latchAbort X w.rollout w.status).abort ∧
      ((¬Completes X w inp ∧ status.currentPodHash = w.status.currentPodHash) ∨
        Completes X w inp ∧ ∃ synced result, Synced X w inp synced result ∧
          status.currentPodHash = (w.settled X inp synced result).status.currentPodHash)) := by
  cases h with
  | kept => exact .inl ⟨rfl, rfl⟩
  | paused hpaused => exact .inl ⟨rfl, rfl⟩
  | failed hlive hpatch hfails status err hstage =>
    right
    have hlatched : status.abort = (latchAbort X w.rollout w.status).abort ∧
        status.currentPodHash = w.status.currentPodHash := by
      rcases hstage with rfl | rfl | ⟨result, strategy, -, hsync⟩
      · exact ⟨rfl, by rw [latchAbort_frame]⟩
      · exact ⟨observed_abort X w inp, observed_currentPodHash X w inp⟩
      · obtain ⟨habort, hhash, -⟩ := Strategy.sync_frame hsync
        exact ⟨habort.trans (observed_abort X w inp), hhash.trans (observed_currentPodHash X w inp)⟩
    exact ⟨hlive.1, hlive.2, hpatch, hlatched.1, .inl ⟨hfails, hlatched.2⟩⟩
  | carried hlive hpatch hcompl status result hsync =>
    right
    obtain ⟨strategy, -, hok⟩ := id hsync
    refine ⟨hlive.1, hlive.2, hpatch, ?_, .inr ⟨hcompl, status, result, hsync, rfl⟩⟩
    rw [settled_abort, (Strategy.sync_frame hok).1, observed_abort]
end

/-! ### Along a run -/

variable [Inhabited P]

/-- While the flag is set, the anchor is empty or the hash of a template found since the abort is in force. -/
def Anchored (X : Externals P) (w : World P) (es : List (Event P)) : Prop :=
  (after X w es).status.abort = true →
    (after X w es).status.currentPodHash = "" ∨ AbortedOn X w es (after X w es).status.currentPodHash

/-- **One guarded event** keeps the anchor. -/
theorem Anchored.snoc {w : World P} {es : List (Event P)} {e : Event P} (h : Anchored X w es)
    (hguard : Anchors X (after X w es) e) : Anchored X w (es ++ [e]) := by
  intro hset
  have hstep : after X w (es ++ [e]) = step X (after X w es) e := by rw [after_append]; rfl
  -- where the flag and the anchor are kept, so is the reconcile they stand for
  have hkept : (step X (after X w es) e).status.abort = (after X w es).status.abort →
      (step X (after X w es) e).status.currentPodHash = (after X w es).status.currentPodHash →
      (after X w (es ++ [e])).status.currentPodHash = "" ∨
        AbortedOn X w (es ++ [e]) (after X w (es ++ [e])).status.currentPodHash := by
    intro habort hhash
    have hbefore : (after X w es).status.abort = true := by rw [← habort, ← hstep]; exact hset
    rw [hstep, hhash]
    exact (h hbefore).imp_right fun hon => hon.snoc hset
  cases e with
  | setTemplate t => exact hkept rfl rfl
  | setAnnotations a => exact hkept rfl rfl
  | setDeployment d => exact hkept rfl rfl
  | setReady name ready => exact hkept rfl rfl
  | reconcile inp =>
  rcases persisted_latch (persisted_step X (after X w es) inp) with ⟨habort, hhash⟩ |
    ⟨hfin, hpaused, hpatch, habort, hanchor⟩
  · exact hkept habort hhash
  have hlatched : (latchAbort X (after X w es).rollout (after X w es).status).abort = true := by
    rw [← habort, ← hstep]; exact hset
  have hforce : InForce X (after X w es) := ⟨hfin, hpaused, hlatched⟩
  have hnow := AbortedOn.now hforce hset
  have hg := hguard hforce hpatch
  rcases hanchor with ⟨hfails, hhash⟩ | ⟨hcompl, synced, result, hsync, hhash⟩
  · rw [if_neg hfails] at hg
    rcases hg with hbefore | hempty | hsame
    · exact hkept (habort.trans (hlatched.trans hbefore.symm)) hhash
    · left
      rw [hstep, hhash, hempty]
    · right
      rw [hstep, hhash, hsame]
      exact hnow
  · right
    rw [if_pos hcompl] at hg
    rw [hstep, hhash, stored_hash hg hsync]
    exact hnow

/-- **Abort latch**, in a run whose reconciles anchor the abort. -/
theorem abort_clears_only_on_change (X : Externals P) {w : World P} (hfresh : Fresh w) {es later : List (Event P)}
    (hguarded : Guarded (step X) (Anchors X) w (es ++ later)) (hset : (after X w es).status.abort = true)
    (hclear : (after X w (es ++ later)).status.abort = false) :
    ∃ mid inp rest, later = mid ++ .reconcile inp :: rest ∧ (after X w (es ++ mid)).status.abort = true ∧
      (after X w (es ++ mid)).rollout.annotations abortAnnotation = none ∧
      ∃ hash, AbortedOn X w (es ++ mid) hash ∧ X.currentHash (after X w (es ++ mid)).rollout ≠ hash := by
  rw [after_append] at hclear
  obtain ⟨mid, e, rest, rfl, hmid, hlost⟩ := run_crossing (step X)
    (p := fun v : World P => v.status.abort = true) hset (fun h => by rw [hclear] at h; cases h)
  rw [Bool.not_eq_true] at hlost
  have hanchored : Anchored X w (es ++ mid) := by
    rw [← List.append_assoc] at hguarded
    refine guarded_history (motive := Anchored X w) ?_ ?_ (es ++ mid) (guarded_append.mp hguarded).1
    · intro h
      change w.status.abort = true at h
      rw [hfresh.1] at h
      cases h
    · intro fs f _ ih hf
      exact ih.snoc hf
  have hsplit : run (step X) (after X w es) mid = after X w (es ++ mid) := (after_append X w es mid).symm
  rw [hsplit] at hmid hlost
  cases e with
  | setTemplate t => cases hmid.symm.trans hlost
  | setAnnotations a => cases hmid.symm.trans hlost
  | setDeployment d => cases hmid.symm.trans hlost
  | setReady name ready => cases hmid.symm.trans hlost
  | reconcile inp =>
  refine ⟨mid, inp, rest, rfl, hmid, ?_⟩
  rcases persisted_latch (persisted_step X (after X w (es ++ mid)) inp) with ⟨habort, -⟩ |
    ⟨-, -, -, habort, -⟩
  · rw [habort, hmid] at hlost; cases hlost
  · rw [habort] at hlost
    obtain ⟨hgone, hne, hchanged⟩ := latchAbort_clears hmid hlost
    exact ⟨hgone, _, (hanchored hmid).resolve_left hne, hchanged⟩

theorem latchAbort_sets {ro : Rollout P} {status : RolloutStatus} (hunset : status.abort = false)
    (hset : (latchAbort X ro status).abort = true) : (ro.annotations abortAnnotation).isSome = true := by
  by_contra hnone
  rw [latchAbort, if_neg hnone, hunset, Bool.not_false, if_pos rfl, hunset] at hset
  cases hset

/-- **Only the annotation aborts**: whatever fails, a rollout is aborted by a reconcile that finds it annotated. -/
theorem aborts_only_on_annotation (X : Externals P) (w : World P) (es : List (Event P)) (hunset : w.status.abort = false)
    (hset : (after X w es).status.abort = true) :
    ∃ pre inp post, es = pre ++ .reconcile inp :: post ∧ (after X w pre).status.abort = false ∧
      ((after X w pre).rollout.annotations abortAnnotation).isSome = true := by
  obtain ⟨pre, e, post, rfl, hpre, hnow⟩ := run_crossing (step X) (p := fun v : World P => v.status.abort = false) hunset
    (fun h => by rw [hset] at h; cases h)
  rw [Bool.not_eq_false] at hnow
  cases e with
  | setTemplate t => cases hpre.symm.trans hnow
  | setAnnotations a => cases hpre.symm.trans hnow
  | setDeployment d => cases hpre.symm.trans hnow
  | setReady name ready => cases hpre.symm.trans hnow
  | reconcile inp =>
  refine ⟨pre, inp, post, rfl, hpre, ?_⟩
  rcases persisted_latch (persisted_step X (after X w pre) inp) with ⟨habort, -⟩ | ⟨-, -, -, habort, -⟩
  · cases hpre.symm.trans (habort.symm.trans hnow)
  · exact latchAbort_sets hpre (habort.symm.trans hnow)

/-! ### A labelled template under abort, and one without labels -/

namespace Sample

def setAbort : Event Nat := .setAnnotations (annotated abortAnnotation)

def clearAnnotations : Event Nat := .setAnnotations fun _ => none

/-- The first reconcile of a rollout finds the abort annotation. -/
def abortedAtCreation : List (Event Nat) := [setAbort, reconcileAt 0]

/-- The annotation goes, and the next reconcile comes. -/
def unannotated : List (Event Nat) := [clearAnnotations, reconcileAt 1]

end Sample

open Sample

theorem aborted_at_creation : ∃ pre inp post, abortedAtCreation = pre ++ .reconcile inp :: post ∧
    (after externals (timedStep (labelled 1)) pre).status.abort = false ∧
    ((after externals (timedStep (labelled 1)) pre).rollout.annotations abortAnnotation).isSome = true :=
  aborts_only_on_annotation externals (timedStep (labelled 1)) abortedAtCreation rfl (by decide)

/-- **An unchanged template clears the flag.** -/
theorem relabelled_template_clears_abort : Fresh (timedStep (labelled 1)) ∧
    (after externals (timedStep (labelled 1)) abortedAtCreation).status.abort = true ∧
    (after externals (timedStep (labelled 1)) (abortedAtCreation ++ unannotated)).status.abort = false ∧
    ∀ pre, pre <+: abortedAtCreation ++ unannotated →
      externals.currentHash (after externals (timedStep (labelled 1)) pre).rollout = "1001000000" := by
  refine ⟨world_fresh .., by decide, by decide, ?_⟩
  intro pre hpre
  have hall : ∀ pre ∈ (abortedAtCreation ++ unannotated).inits,
      externals.currentHash (after externals (timedStep (labelled 1)) pre).rollout = "1001000000" := by
    decide
  exact hall pre ((List.mem_inits _ _).mpr hpre)

theorem changed_template_clears_abort :
    ∃ mid inp rest, [clearAnnotations, .setTemplate (plain 2), reconcileAt 2] = mid ++ .reconcile inp :: rest ∧
      (after externals (timedStep (plain 1)) ([reconcileAt 0, setAbort, reconcileAt 1] ++ mid)).status.abort
        = true ∧
      (after externals (timedStep (plain 1))
        ([reconcileAt 0, setAbort, reconcileAt 1] ++ mid)).rollout.annotations abortAnnotation = none ∧
      ∃ hash, AbortedOn externals (timedStep (plain 1)) ([reconcileAt 0, setAbort, reconcileAt 1] ++ mid) hash ∧
        externals.currentHash (after externals (timedStep (plain 1))
          ([reconcileAt 0, setAbort, reconcileAt 1] ++ mid)).rollout ≠ hash :=
  abort_clears_only_on_change externals (world_fresh ..) (by decide) (by decide) (by decide)

end Paprika.Rollouts
