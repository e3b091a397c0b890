import Paprika.Rollouts.Names

/-!
# Canary steps

A canary rollout walks through its steps with a cursor kept in the status: the step index and the time the
step was entered.  `Sync` advances the cursor by at most one step and then computes its result with the step
the cursor stands on, so no step *between* two results is skipped.  Two things can still go wrong at the
front: nothing moves the cursor back to the first step when the template changes, and a first step without a
duration is left before any result was computed with it.

An `Episode` is the stretch of a run from a template change to the promotion of that template.

* **`steps_shown_iff`** — in an episode every step is shown in order, and none is left early, exactly if the
  episode starts on the first step, that step has a positive duration, and it has not elapsed yet when the
  episode's first reconcile reads the clock;
* **`second_rollout_skips_all_steps`** — after a finished rollout the next one is promoted at once.
-/

namespace Paprika.Rollouts.Canary

open Lib.Run List Option

variable {P : Type} [Inhabited P]

/-! ### The property -/

/-- What `Sync` returned along the events, in order. -/
def returned (X : Externals P) (w : World P) : List (Event P) → List (RolloutStatus × SyncResult P)
  | [] => []
  | .reconcile inp :: es => (reconcileLoaded X inp w).synced.toList ++ returned X (step X w (.reconcile inp)) es
  | e :: es => returned X (step X w e) es

omit [Inhabited P] in
/-- The result was computed for `hash` with step `index` and its own weight. -/
def Shows (steps : List CanaryStep) (hash : String) (desired : Int) (index : Nat)
    (ret : RolloutStatus × SyncResult P) : Prop :=
  ∃ step ro stableHash, steps[index]? = some step ∧ ret.1.currentStepIndex = index ∧
    ret.2 = stepResult ro hash stableHash desired index step

/-- A reconcile that leaves a step with a positive duration does so once the duration has passed. -/
def LeavesOnTime (X : Externals P) (w : World P) : Event P → Prop
  | .reconcile inp =>
    ∀ step, w.rollout.steps[w.status.currentStepIndex]? = some step → 0 < step.duration.getD 0 →
      (Rollouts.step X w (.reconcile inp)).status.currentStepIndex ≠ w.status.currentStepIndex →
      ∃ startedAt, w.status.currentStepStartedAt = some startedAt ∧ startedAt + step.duration.getD 0 ≤ inp.now
  | _ => True

/-- Every step was shown in order along `mid`, and no step was left early. -/
def StepsRespected (X : Externals P) (w : World P) (mid : List (Event P)) (inp : ReconcileInput) : Prop :=
  List.SublistForall₂ (Shows w.rollout.steps (w.hash X) w.rollout.desiredReplicas)
    (List.range w.rollout.steps.length) (returned X w mid) ∧
  Guarded (step X) (LeavesOnTime X) w (mid ++ [.reconcile inp])

/-- From the event `change`, which sets a template that differs from the stable one, to the reconcile `inp`
that promotes it; `mid` keeps the template. -/
structure Episode (X : Externals P) (w : World P) (es : List (Event P)) (change : Event P)
    (mid : List (Event P)) (inp : ReconcileInput) : Prop where
  calm : ∀ e ∈ es ++ [change] ++ mid ++ [.reconcile inp], e.Calm
  changes : (after X w (es ++ [change])).hash X ≠ (after X w es).hash X
  stable : (after X w (es ++ [change])).status.stableRS ≠ ""
  differs : hashFromRSName (after X w (es ++ [change])).status.stableRS ≠ (after X w (es ++ [change])).hash X
  keeps : Guarded (step X) (fun v _ => v.hash X = (after X w (es ++ [change])).hash X)
    (after X w (es ++ [change])) (mid ++ [.reconcile inp])
  promotes : ∃ ret, (reconcileLoaded X inp (after X w (es ++ [change] ++ mid))).synced = some ret ∧
    ret.2.action = .promote

/-! ### The condition -/

/-- The clock reading of the first reconcile. -/
def firstReading : List (Event P) → Option Int
  | [] => none
  | .reconcile inp :: _ => some inp.now
  | _ :: es => firstReading es

/-- The rollout stands on its first step, which has a positive duration that has not elapsed when the first
reconcile reads the clock. -/
def EntersFirstStep (w : World P) (es : List (Event P)) : Prop :=
  w.status.currentStepIndex = 0 ∧ ∃ first, w.rollout.steps[0]? = some first ∧ 0 < first.duration.getD 0 ∧
    ∀ startedAt ∈ w.status.currentStepStartedAt, ∀ now ∈ firstReading es, now < startedAt + first.duration.getD 0

/-! ### The cursor -/

/-- What advancing does to the cursor: it stays behind the last step, stays on a step whose duration has not
elapsed, or leaves a step that has no duration or whose duration has elapsed. -/
def CursorMoves (steps : List CanaryStep) (now : Int) (status status' : RolloutStatus) : Prop :=
  (status'.currentStepIndex = status.currentStepIndex ∧ steps[status.currentStepIndex]? = none) ∨
  (status'.currentStepIndex = status.currentStepIndex ∧
    ∃ step, steps[status.currentStepIndex]? = some step ∧ 0 < step.duration.getD 0 ∧
      ∀ startedAt ∈ status.currentStepStartedAt, now < startedAt + step.duration.getD 0) ∨
  (status'.currentStepIndex = status.currentStepIndex + 1 ∧
    ∃ step, steps[status.currentStepIndex]? = some step ∧ (step.duration.getD 0 ≤ 0 ∨
      ∃ startedAt, status.currentStepStartedAt = some startedAt ∧ startedAt + step.duration.getD 0 ≤ now))

theorem cursorMoves_advance (steps : List CanaryStep) (now : Int) (status : RolloutStatus) :
    CursorMoves steps now status (advance steps now status) := by
  have h := advance_spec steps now status
  generalize advance steps now status = status' at h
  cases h with
  | exhausted hstep => exact .inl ⟨rfl, hstep⟩
  | skipped step hstep hd => exact .inr (.inr ⟨rfl, step, hstep, .inl hd⟩)
  | stamped step hstep hd hnone =>
    refine .inr (.inl ⟨rfl, step, hstep, hd, ?_⟩)
    intro startedAt hs
    rw [hnone] at hs
    cases hs
  | elapsed step hstep hd startedAt hs hnow => exact .inr (.inr ⟨rfl, step, hstep, .inr ⟨startedAt, hs, hnow⟩⟩)
  | waiting step hstep hd startedAt hs hnow =>
  refine .inr (.inl ⟨rfl, step, hstep, hd, ?_⟩)
  intro other hother
  rw [hs] at hother
  cases hother
  exact hnow

variable {now : Int} {status : RolloutStatus} {steps : List CanaryStep}

theorem advance_unstamped (hend : steps[(advance steps now status).currentStepIndex]? = none)
    (hnone : status.currentStepStartedAt = none) :
    (advance steps now status).currentStepStartedAt = none := by
  have h := advance_spec steps now status
  generalize advance steps now status = status' at h hend ⊢
  cases h with
  | exhausted => exact hnone
  | skipped => rfl
  | stamped step hstep => rw [hstep] at hend; cases hend
  | elapsed => rfl
  | waiting => exact hnone

variable {status' : RolloutStatus}

/-- The cursor is on the first step afterwards iff it was there and the step has not elapsed. -/
theorem CursorMoves.first_iff (h : CursorMoves steps now status status') (hne : steps ≠ []) :
    status'.currentStepIndex = 0 ↔ status.currentStepIndex = 0 ∧
      ∃ first, steps[0]? = some first ∧ 0 < first.duration.getD 0 ∧
        ∀ startedAt ∈ status.currentStepStartedAt, now < startedAt + first.duration.getD 0 := by
  constructor
  · intro hzero
    rcases h with ⟨hi, hend⟩ | ⟨hi, step, hstep, hpos, hwait⟩ | ⟨hi, -⟩
    · rw [← hi, hzero] at hend
      exact absurd (List.getElem?_eq_none_iff.mp hend) (by simpa using hne)
    · have hfirst : status.currentStepIndex = 0 := hi.symm.trans hzero
      rw [hfirst] at hstep
      exact ⟨hfirst, step, hstep, hpos, hwait⟩
    · omega
  · rintro ⟨hzero, first, hfirst, hpos, hwait⟩
    rcases h with ⟨hi, -⟩ | ⟨hi, -⟩ | ⟨hi, step, hstep, hleft⟩
    · rw [hi, hzero]
    · rw [hi, hzero]
    · rw [hzero, hfirst] at hstep
      cases hstep
      rcases hleft with hd | ⟨startedAt, hs, hnow⟩
      · omega
      · have := hwait startedAt hs
        omega

theorem CursorMoves.none_left
    (h : CursorMoves steps now status status') (hend : steps[status'.currentStepIndex]? = none) :
    steps.length - (status.currentStepIndex + 1) = 0 := by
  have hlen : steps.length ≤ status'.currentStepIndex := List.getElem?_eq_none_iff.mp hend
  rcases h with ⟨hi, -⟩ | ⟨hi, -⟩ | ⟨hi, -⟩ <;> omega

/-! ### One reconcile of an episode -/

/-- A live canary rollout whose stable hash is not `hash`. -/
structure Walking (hash : String) (w : World P) : Prop where
  type : w.rollout.spec.strategy.type = .canary
  steps : w.rollout.steps ≠ []
  finalizer : w.rollout.finalizer = true
  paused : w.rollout.spec.paused = false
  notAborted : w.NotAborted
  names : w.Names
  stable : w.status.stableRS ≠ ""
  differs : hashFromRSName w.status.stableRS ≠ hash
  unstamped : w.status.canaryRS = "" → w.status.currentStepStartedAt = none

section
variable {X : Externals P} {hash : String} {w : World P} {inp : ReconcileInput}

omit [Inhabited P] in
theorem Walking.not_refused (hw : Walking hash w) : ¬Refused X w inp :=
  canary_not_refused hw.type hw.steps hw.finalizer hw.paused

/-- The rollout walks on after a reconcile that keeps the stable name and has a canary. -/
theorem Walking.walksOn (hw : Walking hash w) (hf : inp.faults = Faults.none)
    (hstable : (step X w (.reconcile inp)).status.stableRS = w.status.stableRS)
    (hcanary : (step X w (.reconcile inp)).status.canaryRS ≠ "")
    (hfin : (step X w (.reconcile inp)).rollout.finalizer = true) :
    Walking hash (step X w (.reconcile inp)) := by
  have hsame := step_sameSpec X w (.reconcile inp)
  refine ⟨?_, ?_, hfin, ?_, step_notAborted hf hw.notAborted, ?_, ?_, ?_, fun h => absurd h hcanary⟩
  · rw [hsame.strategy]; exact hw.type
  · rw [hsame.steps]; exact hw.steps
  · rw [hsame.paused]; exact hw.paused
  · exact step_names (by rw [hw.type]; simp) hf hw.names
  · rw [hstable]; exact hw.stable
  · rw [hstable]; exact hw.differs

/-- **One reconcile of an episode** creates the canary ReplicaSet, shows the step the cursor ends up on, or
promotes with the cursor behind the last step. -/
theorem Walking.reconcile (hw : Walking hash w) (hhash : w.hash X = hash) (hf : inp.faults = Faults.none) :
    ∃ ret, (reconcileLoaded X inp w).synced = some ret ∧
      ((Walking hash (step X w (.reconcile inp)) ∧ ret.2.action = .step ∧
          (∀ i, ¬Shows w.rollout.steps hash w.rollout.desiredReplicas i ret) ∧
          w.status.currentStepStartedAt = none ∧
          (step X w (.reconcile inp)).status.currentStepIndex = w.status.currentStepIndex ∧
          (step X w (.reconcile inp)).status.currentStepStartedAt = none) ∨
       (Walking hash (step X w (.reconcile inp)) ∧ ret.2.action = .step ∧
          (∀ i, Shows w.rollout.steps hash w.rollout.desiredReplicas i ret ↔
            i = (step X w (.reconcile inp)).status.currentStepIndex) ∧
          CursorMoves w.rollout.steps inp.now w.status (step X w (.reconcile inp)).status) ∨
       (ret.2.action = .promote ∧ (∀ i, ¬Shows w.rollout.steps hash w.rollout.desiredReplicas i ret) ∧
          w.rollout.steps[(step X w (.reconcile inp)).status.currentStepIndex]? = none ∧
          CursorMoves w.rollout.steps inp.now w.status (step X w (.reconcile inp)).status)) := by
  rcases canary_synced (X := X) hw.type hf with ⟨-, hrefused, -⟩ |
    ⟨status, result, hfin, hpaused, hsteps, hout, hsynced, heq⟩
  · exact absurd hrefused hw.not_refused
  refine ⟨(status, result), hsynced, ?_⟩
  have hnot := step_notAborted (X := X) (e := .reconcile inp) hf hw.notAborted
  have hlatch := latchAbort_of_notAborted (X := X) hw.notAborted
  have hmoves : CursorMoves w.rollout.steps inp.now w.status
      (advance w.rollout.steps inp.now (w.observed X inp)) := by
    have h := cursorMoves_advance w.rollout.steps inp.now (w.observed X inp)
    simpa only [CursorMoves, observed_currentStepIndex, observed_currentStepStartedAt, hlatch] using h
  have hnow : (w.inputs X inp).now = inp.now := rfl
  have hcur : X.currentHash w.effective = hash := hhash
  -- the stable name is rebuilt from its own hash unless the outcome is a promotion
  have hrebuilt : rsName w.rollout "-stable-" (hashFromRSName w.status.stableRS) = w.status.stableRS :=
    hw.names.rebuilt hw.type hw.stable
  cases hout with
  | create hs => exact absurd (by simpa using hs) hw.stable
  | abort hs ha => rw [isAborted_of_notAborted hw.notAborted] at ha; cases ha
  | createCanary hs ha hc hh =>
    left
    have hc' : w.status.canaryRS = "" := by simpa using hc
    refine ⟨hw.walksOn hf ?_ ?_ ?_, rfl, ?_, hw.unstamped hc', ?_, ?_⟩
    · rw [heq, settled_stableRS]
      simpa [createCanaryResult, makeStableRS, makeCanaryRS] using hrebuilt
    · rw [heq, settled_canaryRS]
      simpa [createCanaryResult, makeStableRS, makeCanaryRS] using rsName_ne_empty w.rollout isMarker_canary
    · rw [heq]; exact hfin
    · rintro i ⟨step, ro, stableHash, -, -, h⟩
      exact stepResult_ne_createCanaryResult _ _ _ _ _ _ _ _ _ _ h
    · rw [heq, settled_currentStepIndex, observed_currentStepIndex, hlatch]
    · rw [heq, settled_currentStepStartedAt, observed_currentStepStartedAt, hlatch]
      exact hw.unstamped hc'
  | step hs ha hc st hstep =>
    right; left
    have hindex : (step X w (.reconcile inp)).status.currentStepIndex
        = (advance w.rollout.steps inp.now (w.observed X inp)).currentStepIndex := by
      rw [heq, settled_currentStepIndex, hnow]
    have hstep' : w.rollout.steps[(step X w (.reconcile inp)).status.currentStepIndex]? = some st := by
      rw [hindex]; exact hstep
    refine ⟨hw.walksOn hf ?_ ?_ ?_, rfl, ?_, ?_⟩
    · rw [heq, settled_stableRS]
      simpa [stepResult, makeStableRS, makeCanaryRS] using hrebuilt
    · rw [heq, settled_canaryRS]
      simpa [stepResult, makeStableRS, makeCanaryRS] using rsName_ne_empty w.rollout isMarker_canary
    · rw [heq]; exact hfin
    · intro i
      constructor
      · rintro ⟨st', ro, stableHash, -, hi, -⟩
        rw [← hi, hindex]
        rfl
      · rintro rfl
        refine ⟨st, w.effective, hashFromRSName (w.observed X inp).stableRS, hstep', hindex.symm, ?_⟩
        rw [hindex, ← hcur, ← effective_desiredReplicas]
        rfl
    · simpa only [CursorMoves, hindex] using hmoves
  | complete hs ha hstep hh =>
    refine absurd ?_ hw.differs
    rw [← hcur, ← hh, observed_stableRS]
  | promote hs ha hc hstep hh =>
    right; right
    have hindex : (step X w (.reconcile inp)).status.currentStepIndex
        = (advance w.rollout.steps inp.now (w.observed X inp)).currentStepIndex := by
      rw [heq, settled_currentStepIndex, hnow]
    refine ⟨rfl, ?_, ?_, ?_⟩
    · rintro i ⟨st, ro, stableHash, -, -, h⟩
      cases congrArg SyncResult.action h
    · rw [hindex]; exact hstep
    · simpa only [CursorMoves, hindex] using hmoves
end

/-! ### Events between the reconciles -/

section
variable {X : Externals P} {w : World P} {e : Event P} {es : List (Event P)}

theorem step_other (hne : ∀ inp, e ≠ .reconcile inp) :
    (step X w e).status = w.status ∧ (step X w e).rollout.finalizer = w.rollout.finalizer := by
  cases e with
  | reconcile inp => exact absurd rfl (hne inp)
  | _ => exact ⟨rfl, rfl⟩

theorem returned_other (hne : ∀ inp, e ≠ .reconcile inp) : returned X w (e :: es) = returned X (step X w e) es := by
  cases e with
  | reconcile inp => exact absurd rfl (hne inp)
  | _ => rfl

omit [Inhabited P] in
theorem firstReading_other (hne : ∀ inp, e ≠ .reconcile inp) : firstReading (e :: es) = firstReading es := by
  cases e with
  | reconcile inp => exact absurd rfl (hne inp)
  | _ => rfl

theorem returned_reconcile {inp : ReconcileInput} {ret : RolloutStatus × SyncResult P}
    (h : (reconcileLoaded X inp w).synced = some ret) :
    returned X w (.reconcile inp :: es) = ret :: returned X (step X w (.reconcile inp)) es := by
  simp [returned, h]

theorem Walking.other {hash : String} (hw : Walking hash w) (hne : ∀ inp, e ≠ .reconcile inp)
    (he : e.Calm) : Walking hash (step X w e) := by
  obtain ⟨hstatus, hfin⟩ := step_other (X := X) (w := w) hne
  have hsame := step_sameSpec X w e
  refine ⟨?_, ?_, ?_, ?_, step_notAborted he hw.notAborted, ?_, ?_, ?_, ?_⟩
  · rw [hsame.strategy]; exact hw.type
  · rw [hsame.steps]; exact hw.steps
  · rw [hfin]; exact hw.finalizer
  · rw [hsame.paused]; exact hw.paused
  · exact step_names (by rw [hw.type]; simp) he.clean hw.names
  · rw [hstatus]; exact hw.stable
  · rw [hstatus]; exact hw.differs
  · rw [hstatus]; exact hw.unstamped
end

/-! ### The rest of an episode -/

section
variable {X : Externals P} {hash : String} {inp : ReconcileInput}

/-- Along `mid` the template keeps the hash, and the reconcile behind it promotes. -/
def PromotedBy (X : Externals P) (hash : String) (w : World P) (mid : List (Event P))
    (inp : ReconcileInput) : Prop :=
  Guarded (step X) (fun v _ => v.hash X = hash) w (mid ++ [.reconcile inp]) ∧
    ∃ ret, (reconcileLoaded X inp (after X w mid)).synced = some ret ∧ ret.2.action = .promote

theorem PromotedBy.tail {w : World P} {e : Event P} {mid : List (Event P)}
    (h : PromotedBy X hash w (e :: mid) inp) :
    w.hash X = hash ∧ PromotedBy X hash (step X w e) mid inp := ⟨h.1.1, h.1.2, h.2⟩

/-- A reconcile that promotes leaves the cursor behind the last step. -/
theorem PromotedBy.ends (hf : inp.faults = Faults.none) {w : World P} (hw : Walking hash w)
    (h : PromotedBy X hash w [] inp) :
    w.rollout.steps[(step X w (.reconcile inp)).status.currentStepIndex]? = none ∧
      CursorMoves w.rollout.steps inp.now w.status (step X w (.reconcile inp)).status := by
  obtain ⟨⟨hhash, -⟩, ret', hsync', hact⟩ := h
  obtain ⟨ret, hsync, hcases⟩ := hw.reconcile hhash hf
  have hret : ret' = ret := some.inj (hsync'.symm.trans hsync)
  rw [hret] at hact
  rcases hcases with ⟨-, hstep, -⟩ | ⟨-, hstep, -⟩ | ⟨-, -, hends⟩
  · rw [hact] at hstep; cases hstep
  · rw [hact] at hstep; cases hstep
  · exact hends

/-- **From the step the cursor stands on, every later step is shown in order.** -/
theorem shown_from (hf : inp.faults = Faults.none) (mid : List (Event P)) :
    ∀ w : World P, Walking hash w → (∀ e ∈ mid, e.Calm) → PromotedBy X hash w mid inp →
      List.SublistForall₂ (Shows w.rollout.steps hash w.rollout.desiredReplicas)
        (List.range' (w.status.currentStepIndex + 1)
          (w.rollout.steps.length - (w.status.currentStepIndex + 1)))
        (returned X w mid) := by
  induction mid with
  | nil =>
    intro w hw _ hprom
    obtain ⟨hend, hmoves⟩ := hprom.ends hf hw
    rw [hmoves.none_left hend]
    exact .nil
  | cons e mid ih =>
    intro w hw hcalm hprom
    obtain ⟨hhash, htail⟩ := hprom.tail
    have he := hcalm e mem_cons_self
    have hcalm' := fun f hf => hcalm f (mem_cons_of_mem e hf)
    have hsame := step_sameSpec X w e
    by_cases hrec : ∃ i, e = .reconcile i
    · obtain ⟨i, rfl⟩ := hrec
      obtain ⟨ret, hsync, hcases⟩ := hw.reconcile hhash he
      rw [returned_reconcile hsync]
      rcases hcases with ⟨hw', -, -, -, hindex, -⟩ | ⟨hw', -, hshows, hmoves⟩ | ⟨-, -, hend, hmoves⟩
      · have hrest := ih _ hw' hcalm' htail
        rw [hindex, hsame.steps, hsame.desiredReplicas] at hrest
        exact .cons_right hrest
      · have hrest := ih _ hw' hcalm' htail
        rw [hsame.steps, hsame.desiredReplicas] at hrest
        have hshown := (hshows _).mpr rfl
        rcases hmoves with ⟨hindex, -⟩ | ⟨hindex, -⟩ | ⟨hindex, -⟩
        · rw [hindex] at hrest
          exact .cons_right hrest
        · rw [hindex] at hrest
          exact .cons_right hrest
        · -- the cursor moved: this result shows the next step
          rw [hindex] at hrest hshown
          have hlt : w.status.currentStepIndex + 1 < w.rollout.steps.length := by
            obtain ⟨st, -, -, hst, -⟩ := hshown
            exact (List.getElem?_eq_some_iff.mp hst).1
          have hsplit : w.rollout.steps.length - (w.status.currentStepIndex + 1)
              = (w.rollout.steps.length - (w.status.currentStepIndex + 1 + 1)) + 1 := by omega
          rw [hsplit, List.range'_succ]
          exact .cons hshown hrest
      · rw [hmoves.none_left hend]
        exact .nil
    · have hne : ∀ i, e ≠ .reconcile i := fun i h => hrec ⟨i, h⟩
      have hrest := ih _ (hw.other hne he) hcalm' htail
      rw [returned_other hne]
      rw [(step_other (X := X) (w := w) hne).1, hsame.steps, hsame.desiredReplicas] at hrest
      exact hrest
end

/-! ### The cursor never goes back -/

section
variable {X : Externals P} {w : World P}

section
variable (ht : w.rollout.spec.strategy.type = .canary) (hn : w.NotAborted)
include ht hn

/-- Along a calm canary run a reconcile moves the cursor by advancing only, and `Sync` returns the cursor it
leaves. -/
theorem cursor_reconcile {inp : ReconcileInput} (hf : inp.faults = Faults.none) :
    ((step X w (.reconcile inp)).status.currentStepIndex = w.status.currentStepIndex ∨
      CursorMoves w.rollout.steps inp.now w.status (step X w (.reconcile inp)).status) ∧
    ∀ ret, (reconcileLoaded X inp w).synced = some ret →
      ret.1.currentStepIndex = (step X w (.reconcile inp)).status.currentStepIndex := by
  have hlatch := latchAbort_of_notAborted (X := X) hn
  rcases canary_synced (X := X) ht hf with ⟨hnone, -, status, hq, heq⟩ |
    ⟨status, result, -, -, -, hout, hsynced, heq⟩
  · rw [heq, hnone]
    exact ⟨.inl (hq.unlatched hlatch).2.1, fun ret h => nomatch h⟩
  have hmoves := cursorMoves_advance w.rollout.steps inp.now (w.observed X inp)
  simp only [CursorMoves, observed_currentStepIndex, observed_currentStepStartedAt, hlatch] at hmoves
  have hstay : (w.observed X inp).currentStepIndex = w.status.currentStepIndex := by
    rw [observed_currentStepIndex, hlatch]
  have hret : ∀ ret, (reconcileLoaded X inp w).synced = some ret →
      ret.1.currentStepIndex = (step X w (.reconcile inp)).status.currentStepIndex := by
    intro ret h
    rw [hsynced] at h
    cases h
    rw [heq, settled_currentStepIndex]
  refine ⟨?_, hret⟩
  rw [heq, CursorMoves, settled_currentStepIndex]
  cases hout with
  | create => exact .inl hstay
  | abort => exact .inl hstay
  | createCanary => exact .inl hstay
  | step => exact .inr hmoves
  | complete => exact .inr hmoves
  | promote => exact .inr hmoves

theorem leavesOnTime {e : Event P}
    (he : e.Calm) : LeavesOnTime X w e := by
  cases e with
  | reconcile inp =>
    intro st hst hpos hleft
    rcases (cursor_reconcile (X := X) ht hn he).1 with hstay | ⟨hi, -⟩ | ⟨hi, -⟩ | ⟨-, st', hst', hwhy⟩
    · exact absurd hstay hleft
    · exact absurd hi hleft
    · exact absurd hi hleft
    · rw [hst] at hst'
      cases hst'
      rcases hwhy with hd | h
      · omega
      · exact h
  | _ => trivial
end

theorem index_le_returned (es : List (Event P)) : ∀ w : World P,
    w.rollout.spec.strategy.type = .canary → w.NotAborted → (∀ e ∈ es, e.Calm) →
    ∀ ret ∈ returned X w es, w.status.currentStepIndex ≤ ret.1.currentStepIndex := by
  induction es with
  | nil => intro w _ _ _ ret hret; cases hret
  | cons e es ih =>
    intro w ht hn hcalm ret hret
    have he := hcalm e mem_cons_self
    have hrest := ih (step X w e) (by rw [(step_sameSpec X w e).strategy]; exact ht)
      (step_notAborted he hn) (fun f hf => hcalm f (mem_cons_of_mem e hf)) ret
    by_cases hrec : ∃ i, e = .reconcile i
    · obtain ⟨i, rfl⟩ := hrec
      obtain ⟨hcursor, hfirst⟩ := cursor_reconcile (X := X) ht hn he
      have hle : w.status.currentStepIndex ≤ (step X w (.reconcile i)).status.currentStepIndex := by
        rcases hcursor with h | ⟨h, -⟩ | ⟨h, -⟩ | ⟨h, -⟩ <;> omega
      rcases mem_append.mp hret with hmem | hmem
      · rw [hfirst ret (mem_toList.mp hmem)]; exact hle
      · exact hle.trans (hrest hmem)
    · have hne : ∀ i, e ≠ .reconcile i := fun i h => hrec ⟨i, h⟩
      rw [returned_other hne] at hret
      rw [← (step_other (X := X) (w := w) hne).1]
      exact hrest hret
end

/-! ### Episodes -/

section
variable {X : Externals P} {hash : String} {inp : ReconcileInput}

theorem enters_other {w : World P} {e : Event P} {es : List (Event P)} (hne : ∀ i, e ≠ .reconcile i) :
    EntersFirstStep (step X w e) es ↔ EntersFirstStep w (e :: es) := by
  unfold EntersFirstStep
  rw [(step_other (X := X) (w := w) hne).1, (step_sameSpec X w e).steps, firstReading_other hne]

omit [Inhabited P] in
theorem enters_reconcile {w : World P} {es : List (Event P)} {i : ReconcileInput}
    (hne : w.rollout.steps ≠ []) (hmoves : CursorMoves w.rollout.steps i.now w.status status') :
    EntersFirstStep w (.reconcile i :: es) ↔ status'.currentStepIndex = 0 := by
  rw [hmoves.first_iff hne]
  simp [EntersFirstStep, firstReading]

omit [Inhabited P] in
theorem enters_unstamped {w : World P} {es : List (Event P)} (h : w.status.currentStepStartedAt = none) :
    EntersFirstStep w es ↔ w.status.currentStepIndex = 0 ∧
      ∃ first, w.rollout.steps[0]? = some first ∧ 0 < first.duration.getD 0 := by
  simp [EntersFirstStep, h]

omit [Inhabited P] in
theorem range_steps {w : World P} (hne : w.rollout.steps ≠ []) :
    List.range w.rollout.steps.length = 0 :: List.range' 1 (w.rollout.steps.length - 1) := by
  obtain ⟨n, hn⟩ := Nat.exists_eq_succ_of_ne_zero (fun h => hne (length_eq_zero_iff.mp h))
  rw [hn, range_eq_range', List.range'_succ]
  rfl

/-- **All steps are shown iff the first one is entered.** -/
theorem shown_iff_enters (hf : inp.faults = Faults.none) (mid : List (Event P)) :
    ∀ w : World P, Walking hash w → (∀ e ∈ mid, e.Calm) → PromotedBy X hash w mid inp →
      (List.SublistForall₂ (Shows w.rollout.steps hash w.rollout.desiredReplicas)
        (List.range w.rollout.steps.length) (returned X w mid) ↔
        EntersFirstStep w (mid ++ [.reconcile inp])) := by
  induction mid with
  | nil =>
    intro w hw _ hprom
    obtain ⟨hend, hmoves⟩ := hprom.ends hf hw
    -- nothing was returned before, and the cursor is behind the last step at once
    rw [nil_append, enters_reconcile hw.steps hmoves, range_steps hw.steps]
    refine ⟨fun h => (nomatch h), fun hzero => ?_⟩
    rw [hzero] at hend
    exact absurd (List.getElem?_eq_none_iff.mp hend) (by simpa using hw.steps)
  | cons e mid ih =>
    intro w hw hcalm hprom
    obtain ⟨hhash, htail⟩ := hprom.tail
    have he := hcalm e mem_cons_self
    have hcalm' := fun f hf => hcalm f (mem_cons_of_mem e hf)
    have hsame := step_sameSpec X w e
    by_cases hrec : ∃ i, e = .reconcile i
    · obtain ⟨i, rfl⟩ := hrec
      obtain ⟨ret, hsync, hcases⟩ := hw.reconcile hhash he
      rw [returned_reconcile hsync, cons_append]
      rcases hcases with ⟨hw', -, hno, hnone, hindex, hnone'⟩ | ⟨hw', -, hshows, hmoves⟩ |
        ⟨-, hno, hend, hmoves⟩
      · -- the canary ReplicaSet is created: no step is shown and the cursor stays
        have hrest := ih _ hw' hcalm' htail
        rw [hsame.steps, hsame.desiredReplicas, enters_unstamped hnone', hindex, hsame.steps] at hrest
        rw [enters_unstamped hnone, ← hrest, range_steps hw.steps]
        refine ⟨fun h => ?_, fun h => .cons_right h⟩
        cases h with
        | cons hshown _ => exact absurd hshown (hno _)
        | cons_right h => exact h
      · have hrest := ih _ hw' hcalm' htail
        rw [hsame.steps, hsame.desiredReplicas] at hrest
        rw [enters_reconcile hw.steps hmoves]
        constructor
        · intro h
          rw [range_steps hw.steps] at h hrest
          cases h with
          | cons hshown _ => exact ((hshows _).mp hshown).symm
          | cons_right h => exact (hrest.mp h).1
        intro hzero
        have hlater := shown_from hf mid _ hw' hcalm' htail
        rw [hsame.steps, hsame.desiredReplicas, hzero] at hlater
        rw [range_steps hw.steps]
        exact .cons ((hshows 0).mpr hzero.symm) hlater
      · -- promoted before: the cursor is behind the last step and never comes back
        rw [enters_reconcile hw.steps hmoves]
        have hlen : w.rollout.steps.length
            ≤ (step X w (.reconcile i)).status.currentStepIndex := List.getElem?_eq_none_iff.mp hend
        have hpos : 0 < w.rollout.steps.length := length_pos_of_ne_nil hw.steps
        refine ⟨fun h => ?_, fun hzero => by omega⟩
        rw [range_steps hw.steps] at h
        cases h with
        | cons hshown _ => exact absurd hshown (hno _)
        | cons_right h =>
        obtain ⟨l, hforall, hsub⟩ := sublistForall₂_iff.mp h
        obtain ⟨shown, l', hshown, -, rfl⟩ := forall₂_cons_left_iff.mp hforall
        obtain ⟨-, -, -, -, hi, -⟩ := hshown
        have hge := index_le_returned (X := X) mid (step X w (.reconcile i))
          (by rw [hsame.strategy]; exact hw.type) (step_notAborted he hw.notAborted) hcalm'
          shown (hsub.subset mem_cons_self)
        omega
    · have hne : ∀ i, e ≠ .reconcile i := fun i h => hrec ⟨i, h⟩
      have hrest := ih _ (hw.other hne he) hcalm' htail
      rw [hsame.steps, hsame.desiredReplicas] at hrest
      rw [returned_other hne, cons_append, ← enters_other (X := X) hne, ← hrest]
end

/-! ### Reachable states -/

/-- What holds of a canary rollout in every calm run from a fresh one. -/
structure Reached (w : World P) : Prop where
  type : w.rollout.spec.strategy.type = .canary
  notAborted : w.NotAborted
  names : w.Names
  finalizer : w.status.stableRS ≠ "" → w.rollout.finalizer = true
  unstamped : w.status.canaryRS = "" → w.status.currentStepStartedAt = none

theorem step_reached {X : Externals P} {w : World P} {e : Event P} (hw : Reached w) (he : e.Calm) :
    Reached (step X w e) := by
  have htype : (step X w e).rollout.spec.strategy.type = .canary := by
    rw [(step_sameSpec X w e).strategy]; exact hw.type
  have hnot := step_notAborted (X := X) he hw.notAborted
  have hnames : (step X w e).Names := step_names (by rw [hw.type]; simp) he.clean hw.names
  by_cases hrec : ∃ i, e = .reconcile i
  swap
  · have hne : ∀ i, e ≠ .reconcile i := fun i h => hrec ⟨i, h⟩
    obtain ⟨hstatus, hfin⟩ := step_other (X := X) (w := w) hne
    refine ⟨htype, hnot, hnames, ?_, ?_⟩
    · rw [hstatus, hfin]; exact hw.finalizer
    · rw [hstatus]; exact hw.unstamped
  obtain ⟨i, rfl⟩ := hrec
  have hlatch := latchAbort_of_notAborted (X := X) hw.notAborted
  rcases canary_synced (X := X) hw.type he with ⟨-, -, status, hq, heq⟩ |
    ⟨status, result, hfin, -, -, hout, -, heq⟩
  · obtain ⟨-, -, hstart⟩ := hq.unlatched hlatch
    refine ⟨htype, hnot, hnames, fun _ => by rw [heq], ?_⟩
    rw [heq]
    intro hempty
    rw [hstart]
    exact hw.unstamped (hq.canaryRS ▸ hempty)
  refine ⟨htype, hnot, hnames, fun _ => by rw [heq]; exact hfin, ?_⟩
  have hobs : (w.observed X i).canaryRS = "" → (w.observed X i).currentStepStartedAt = none := by
    rw [observed_canaryRS, observed_currentStepStartedAt, hlatch]
    exact hw.unstamped
  have htrack : (advance w.rollout.steps (w.inputs X i).now (w.observed X i)).tracked
      = (w.observed X i).tracked := by
    obtain ⟨index, startedAt, hadv⟩ := advance_frame w.rollout.steps (w.inputs X i).now (w.observed X i)
    rw [hadv]; rfl
  have hcanary : ∀ text, rsName w.effective "-canary-" text ≠ "" :=
    fun text => rsName_ne_empty w.effective isMarker_canary
  rw [heq, settled_canaryRS, settled_currentStepStartedAt]
  cases hout with
  | create => exact hobs
  | abort hs ha => rw [isAborted_of_notAborted hw.notAborted] at ha; cases ha
  | createCanary => intro hempty; exact absurd hempty (hcanary _)
  | step => intro hempty; exact absurd hempty (hcanary _)
  | complete hs ha hstep => rw [htrack]; exact fun hempty => advance_unstamped hstep (hobs hempty)
  | promote hs ha hc hstep => rw [htrack]; exact fun hempty => advance_unstamped hstep (hobs hempty)

/-- A canary rollout that was never reconciled nor aborted. -/
def FreshCanary (w : World P) : Prop :=
  Fresh w ∧ w.rollout.spec.strategy.type = .canary ∧ w.rollout.annotations abortAnnotation = none

theorem reached_after {X : Externals P} {w : World P} (hw : FreshCanary w) {es : List (Event P)}
    (hcalm : ∀ e ∈ es, e.Calm) : Reached (after X w es) := by
  obtain ⟨hfresh, htype, hann⟩ := hw
  have hstatus := hfresh.1
  refine run_invariant_on (step X) (fun _ _ hv he => step_reached hv he) es w ?_ hcalm
  refine ⟨htype, ⟨?_, hann⟩, World.Names.fresh hfresh, fun h => ?_, fun _ => ?_⟩
  · rw [hstatus]; rfl
  · rw [hstatus] at h; exact absurd rfl h
  · rw [hstatus]; rfl

/-- **When canary steps are respected.**  In an episode of a calm canary run every step is shown in order and
none is left early, exactly if the episode enters its first step. -/
theorem steps_shown_iff (X : Externals P) {w : World P} (hw : FreshCanary w) {es : List (Event P)}
    {change : Event P} {mid : List (Event P)} {inp : ReconcileInput}
    (hepisode : Episode X w es change mid inp) :
    StepsRespected X (after X w (es ++ [change])) mid inp ↔
      EntersFirstStep (after X w (es ++ [change])) (mid ++ [.reconcile inp]) := by
  have hcalm := hepisode.calm
  have hbefore : ∀ e ∈ es ++ [change], e.Calm :=
    fun e he => hcalm e (mem_append_left _ (mem_append_left _ he))
  have hduring : ∀ e ∈ mid ++ [.reconcile inp], e.Calm :=
    fun e he => hcalm e (by rw [append_assoc]; exact mem_append_right _ he)
  have hreached := reached_after (X := X) hw hbefore
  have hfinal := reached_after (X := X) hw
    (fun e (he : e ∈ es ++ [change] ++ mid) => hcalm e (mem_append_left _ he))
  have hf : inp.faults = Faults.none := hduring (.reconcile inp) (by simp)
  obtain ⟨ret, hsynced, hact⟩ := hepisode.promotes
  -- the final reconcile got a result, so the rollout is neither paused nor without steps
  have hlive : (after X w (es ++ [change])).rollout.spec.paused = false ∧
      (after X w (es ++ [change])).rollout.steps ≠ [] := by
    have hsame : SameSpec (after X w (es ++ [change])).rollout (after X w (es ++ [change] ++ mid)).rollout := by
      rw [after_append X w (es ++ [change]) mid]
      exact after_sameSpec X _ mid
    rcases canary_synced (X := X) hfinal.type hf with ⟨hnone, -⟩ | ⟨-, -, -, hpaused, hsteps, -⟩
    · rw [hnone] at hsynced; cases hsynced
    · exact ⟨hsame.paused ▸ hpaused, hsame.steps ▸ hsteps⟩
  have hwalking : Walking ((after X w (es ++ [change])).hash X) (after X w (es ++ [change])) :=
    ⟨hreached.type, hlive.2, hreached.finalizer hepisode.stable, hlive.1, hreached.notAborted,
      hreached.names, hepisode.stable, hepisode.differs, hreached.unstamped⟩
  have hpromoted : PromotedBy X ((after X w (es ++ [change])).hash X) (after X w (es ++ [change])) mid inp := by
    refine ⟨hepisode.keeps, ret, ?_, hact⟩
    rw [← after_append]
    exact hsynced
  have hshown := shown_iff_enters hf mid _ hwalking (fun e he => hduring e (mem_append_left _ he))
    hpromoted
  have htimely : Guarded (step X) (LeavesOnTime X) (after X w (es ++ [change])) (mid ++ [.reconcile inp]) := by
    refine guarded_of_invariant (motive := Reached) ?_ ?_ hreached hduring
    · intro v e hv he; exact step_reached hv he
    · intro v e hv he; exact leavesOnTime hv.type hv.notAborted he
  exact ⟨fun h => hshown.mp h.1, fun h => ⟨hshown.mpr h, htimely⟩⟩

/-! ### A second rollout, with and without a first pass through the steps -/

open Sample

/-- Two timed steps: a quarter of the traffic, then half of it. -/
def twoSteps : World Nat :=
  world { noStrategy .canary with canary := some ⟨[⟨25, some 60⟩, ⟨50, some 60⟩], "", ""⟩ } 4 none (plain 1)

/-- Revision 1 is created and its canary passes through both steps. -/
def firstPass : List (Event Nat) := [reconcileAt 0, reconcileAt 1, reconcileAt 100, reconcileAt 101, reconcileAt 200]

/-- The steps of revision 2, taken in order. -/
def paced : List (Event Nat) := [reconcileAt 1, reconcileAt 2, reconcileAt 100, reconcileAt 101]

theorem twoSteps_fresh : FreshCanary twoSteps := ⟨world_fresh .., rfl, rfl⟩

/-- Revision 2 arrives after the first pass and is promoted by the next reconcile. -/
theorem second_rollout_episode : Episode externals twoSteps firstPass (.setTemplate (plain 2)) [] (.at 300) where
  calm := by simp [firstPass, reconcileAt, Event.Calm, ReconcileInput.at]
  changes := by decide
  stable := by decide +kernel
  differs := by decide +kernel
  keeps := by decide +kernel
  promotes := map_eq_some_iff.mp
    (show (reconcileLoaded externals (.at 300) _).synced.map (fun ret => ret.2.action) = some .promote
      by decide +kernel)

/-- Revision 2 arrives before the first step was entered and is walked through both steps. -/
theorem paced_episode : Episode externals twoSteps [reconcileAt 0] (.setTemplate (plain 2)) paced (.at 200) where
  calm := by simp [paced, reconcileAt, Event.Calm, ReconcileInput.at]
  changes := by decide
  stable := by decide
  differs := by decide
  keeps := by decide
  promotes := map_eq_some_iff.mp
    (show (reconcileLoaded externals (.at 200) _).synced.map (fun ret => ret.2.action) = some .promote
      by decide +kernel)

/-- **A second rollout skips every step**: the cursor is still where the first pass left it. -/
theorem second_rollout_skips_all_steps : FreshCanary twoSteps ∧
    Episode externals twoSteps firstPass (.setTemplate (plain 2)) [] (.at 300) ∧
    ¬StepsRespected externals (after externals twoSteps (firstPass ++ [.setTemplate (plain 2)])) []
      (.at 300) := by
  refine ⟨twoSteps_fresh, second_rollout_episode, ?_⟩
  rintro ⟨hshown, -⟩
  have hrange : List.range (after externals twoSteps
      (firstPass ++ [.setTemplate (plain 2)])).rollout.steps.length = [0, 1] := by decide +kernel
  rw [hrange] at hshown
  cases hshown

theorem paced_rollout_shows_all_steps :
    StepsRespected externals (after externals twoSteps ([reconcileAt 0] ++ [.setTemplate (plain 2)])) paced
      (.at 200) := by
  refine (steps_shown_iff externals twoSteps_fresh paced_episode).mpr ?_
  refine ⟨by decide, ⟨25, some 60⟩, by decide, by decide, ?_⟩
  intro startedAt hstarted
  have hnone : (after externals twoSteps
      ([reconcileAt 0] ++ [.setTemplate (plain 2)])).status.currentStepStartedAt = none := by decide
  rw [hnone] at hstarted
  cases hstarted

end Paprika.Rollouts.Canary
