import Paprika.Rollouts.Failures
import Paprika.Rollouts.Presence

/-!
# The weight a canary step is shown with

A stepping reconcile computes the replica counts with the step its cursor reaches, and then hands the router the
`CurrentStepWeight` of the status — which `updateStatusFromResult` refreshes only afterwards.  The router is one
reconcile behind: it gets the weight of the step on which the previous reconcile left the cursor.

* **`weight_agrees_iff`** — the weight belongs to the step of the replica counts exactly if the persisted weight
  already is the one of the step the cursor moves to, or zero when the reconcile only creates the canary; in runs
  without failing calls the persisted weight is the one of the step under the cursor, or of the last one;
* **`creation_gets_first_weight`** — a reconcile that only creates the canary sends it the first step's weight.
-/

namespace Paprika.Rollouts.Canary

open Lib.Run Option

variable {P : Type} {X : Externals P}

/-! ### The property and the condition -/

/-- The weight is the one of the step the result was computed with, and zero if the result only creates the canary
ReplicaSet. -/
def WeightAgrees (steps : List CanaryStep) (ret : RolloutStatus × SyncResult P) (weight : Int) : Prop :=
  (∃ step ro hash stableHash desired, steps[ret.1.currentStepIndex]? = some step ∧
    ret.2 = stepResult ro hash stableHash desired ret.1.currentStepIndex step ∧ weight = step.setWeight) ∨
  ∃ ro hash stableHash desired, ret.2 = createCanaryResult ro hash stableHash desired ∧ weight = 0

/-- The reconcile leaves the step under the cursor: it has no duration, or the duration has elapsed. -/
def Leaves (steps : List CanaryStep) (now : Int) (status : RolloutStatus) : Prop :=
  ∃ step ∈ steps[status.currentStepIndex]?, step.duration.getD 0 ≤ 0 ∨
    ∃ startedAt ∈ status.currentStepStartedAt, startedAt + step.duration.getD 0 ≤ now

instance (steps : List CanaryStep) (now : Int) (status : RolloutStatus) : Decidable (Leaves steps now status) :=
  inferInstanceAs (Decidable (∃ _ ∈ _, _))

/-- The persisted weight is zero where only the canary is created, and elsewhere the weight of the step under the
cursor, or of the next one if the reconcile leaves it. -/
structure WeightAhead (X : Externals P) (w : World P) (now : Int) : Prop where
  creates : w.status.canaryRS = "" ∧ w.hash X ≠ hashFromRSName w.status.stableRS →
    w.status.currentStepWeight = 0
  stays : ¬(w.status.canaryRS = "" ∧ w.hash X ≠ hashFromRSName w.status.stableRS) →
    ¬Leaves w.rollout.steps now (latchAbort X w.rollout w.status) →
    ∀ step ∈ w.rollout.steps[(latchAbort X w.rollout w.status).currentStepIndex]?,
      w.status.currentStepWeight = step.setWeight
  leaves : ¬(w.status.canaryRS = "" ∧ w.hash X ≠ hashFromRSName w.status.stableRS) →
    Leaves w.rollout.steps now (latchAbort X w.rollout w.status) →
    ∀ step ∈ w.rollout.steps[(latchAbort X w.rollout w.status).currentStepIndex + 1]?,
      w.status.currentStepWeight = step.setWeight

/-! ### The cursor -/

variable {now : Int} {steps : List CanaryStep}

theorem advance_index_leaves {status : RolloutStatus} (h : Leaves steps now status) :
    (advance steps now status).currentStepIndex = status.currentStepIndex + 1 := by
  obtain ⟨step, hstep, hleft⟩ := h
  have hspec := advance_spec steps now status
  generalize advance steps now status = status' at hspec
  cases hspec with
  | exhausted hnone => rw [hnone] at hstep; cases hstep
  | skipped => rfl
  | stamped step' hstep' hd hnone =>
    rw [hstep'] at hstep
    cases hstep
    rcases hleft with hle | ⟨startedAt, hs, -⟩
    · omega
    · rw [hnone] at hs; cases hs
  | elapsed => rfl
  | waiting step' hstep' hd startedAt hs hnow =>
  rw [hstep'] at hstep
  cases hstep
  rcases hleft with hle | ⟨other, hother, hle⟩
  · omega
  · rw [hs] at hother
    cases hother
    omega

theorem advance_index_stays {status : RolloutStatus} (h : ¬Leaves steps now status) :
    (advance steps now status).currentStepIndex = status.currentStepIndex := by
  have hspec := advance_spec steps now status
  generalize advance steps now status = status' at hspec
  cases hspec with
  | exhausted => rfl
  | skipped step hstep hd => exact absurd ⟨step, hstep, .inl hd⟩ h
  | stamped => rfl
  | elapsed step hstep hd startedAt hs hnow => exact absurd ⟨step, hstep, .inr ⟨startedAt, hs, hnow⟩⟩ h
  | waiting => rfl

theorem advance_index_congr {a b : RolloutStatus} (hindex : a.currentStepIndex = b.currentStepIndex)
    (hstart : a.currentStepStartedAt = b.currentStepStartedAt) :
    (advance steps now a).currentStepIndex = (advance steps now b).currentStepIndex := by
  have hleaves : Leaves steps now a ↔ Leaves steps now b := by
    unfold Leaves
    rw [hindex, hstart]
  by_cases h : Leaves steps now a
  · rw [advance_index_leaves h, advance_index_leaves (hleaves.mp h), hindex]
  · rw [advance_index_stays h, advance_index_stays (fun hb => h (hleaves.mpr hb)), hindex]

/-! ### One reconcile -/

section
variable {w : World P} {inp : ReconcileInput} {status : RolloutStatus} {result : SyncResult P}

section
variable (ht : w.rollout.spec.strategy.type = .canary) (h : Synced X w inp status result)
  (hact : result.action = .step)
include ht h hact

theorem weight_of_call {weight : Int} (hcall : .setWeight weight ∈ w.calls status result) :
    weight = w.status.currentStepWeight := by
  obtain ⟨strategy, -, hsync⟩ := h
  obtain ⟨-, -, hweight⟩ := Strategy.sync_frame hsync
  obtain ⟨active, preview, hserv⟩ := updateServiceStatus_frame w.effective status
  rw [World.calls, hserv, hact] at hcall
  unfold configureTraffic at hcall
  simp only [effective_strategyType, ht] at hcall
  split at hcall
  · cases hcall
  split at hcall
  · cases hcall
  · cases hcall
  · have hmem : TrafficCall.setWeight weight ∈ [TrafficCall.setWeight status.currentStepWeight] := hcall
    rw [List.mem_singleton, TrafficCall.setWeight.injEq] at hmem
    rw [hmem, hweight, observed_currentStepWeight]

/-- **When the persisted weight belongs to the result.** -/
theorem synced_agrees_iff :
    WeightAgrees w.rollout.steps (status, result) w.status.currentStepWeight ↔ WeightAhead X w inp.now := by
  obtain ⟨strategy, hs, hsync⟩ := h
  obtain ⟨-, hout⟩ := canary_outcome ht hs hsync
  have hstable := observed_stableRS X w inp
  have hcanary := observed_canaryRS X w inp
  cases hout with
  | create hs => cases hact
  | abort hs ha =>
    rw [abortResult] at hact
    cases hact
  | createCanary hs ha hc hh =>
    have hcreates : w.status.canaryRS = "" ∧ w.hash X ≠ hashFromRSName w.status.stableRS :=
      ⟨hcanary ▸ hc, hstable ▸ hh⟩
    constructor
    · rintro (⟨step, ro, hash, stableHash, desired, -, hres, -⟩ | ⟨ro, hash, stableHash, desired, -, hzero⟩)
      · exact absurd hres (stepResult_ne_createCanaryResult _ _ _ _ _ _ _ _ _ _)
      · exact ⟨fun _ => hzero, fun hnot => absurd hcreates hnot, fun hnot => absurd hcreates hnot⟩
    · intro hahead
      exact .inr ⟨_, _, _, _, rfl, hahead.creates hcreates⟩
  | step hs ha hc step hstep =>
    have hnot : ¬(w.status.canaryRS = "" ∧ w.hash X ≠ hashFromRSName w.status.stableRS) := by
      rw [hcanary, hstable] at hc
      exact hc
    have hindex : (advance w.rollout.steps (w.inputs X inp).now (w.observed X inp)).currentStepIndex
        = (advance w.rollout.steps inp.now (latchAbort X w.rollout w.status)).currentStepIndex :=
      advance_index_congr (observed_currentStepIndex X w inp) (observed_currentStepStartedAt X w inp)
    have hreached := hstep
    rw [hindex] at hreached
    constructor
    · rintro (⟨other, ro, hash, stableHash, desired, hother, -, hweight⟩ |
        ⟨ro, hash, stableHash, desired, hres, -⟩)
      · have hsame : step = other := some.inj (hstep.symm.trans hother)
        subst hsame
        refine ⟨fun hcreates => absurd hcreates hnot, fun _ hstays found hfound => ?_,
          fun _ hleaves found hfound => ?_⟩
        · rw [advance_index_stays hstays] at hreached
          rw [mem_def, hreached] at hfound
          cases hfound
          exact hweight
        · rw [advance_index_leaves hleaves] at hreached
          rw [mem_def, hreached] at hfound
          cases hfound
          exact hweight
      · exact absurd hres.symm (stepResult_ne_createCanaryResult _ _ _ _ _ _ _ _ _ _)
    · intro hahead
      refine .inl ⟨step, _, _, _, _, hstep, rfl, ?_⟩
      by_cases hleaves : Leaves w.rollout.steps inp.now (latchAbort X w.rollout w.status)
      · rw [advance_index_leaves hleaves] at hreached
        exact hahead.leaves hnot hleaves step hreached
      · rw [advance_index_stays hleaves] at hreached
        exact hahead.stays hnot hleaves step hreached
  | complete hs ha hstep hh => cases hact
  | promote hs ha hc hstep hh => cases hact
end

end

/-! ### The persisted weight in runs without failing calls -/

section
variable [Inhabited P] {w : World P} {inp : ReconcileInput} {status : RolloutStatus} {result : SyncResult P}
variable {ro : Rollout P} {status' : RolloutStatus}

omit [Inhabited P] in
theorem Outcome.index {steps : List CanaryStep} {status : RolloutStatus}
    {inp : SyncInputs} (h : Outcome X steps ro status inp status' result) :
    status'.currentStepIndex = status.currentStepIndex ∨ status'.currentStepIndex = status.currentStepIndex + 1 := by
  have hadvance : (advance steps inp.now status).currentStepIndex = status.currentStepIndex ∨
      (advance steps inp.now status).currentStepIndex = status.currentStepIndex + 1 := by
    by_cases hleaves : Leaves steps inp.now status
    · exact .inr (advance_index_leaves hleaves)
    · exact .inl (advance_index_stays hleaves)
  cases h with
  | create => exact .inl rfl
  | abort => exact .inl rfl
  | createCanary => exact .inl rfl
  | step => exact hadvance
  | complete => exact hadvance
  | promote => exact hadvance

omit [Inhabited P] in
theorem Outcome.weight {steps : List CanaryStep} {status : RolloutStatus}
    {inp : SyncInputs} (h : Outcome X steps ro status inp status' result) :
    status'.currentStepWeight = status.currentStepWeight := by
  obtain ⟨index, startedAt, hadv⟩ := advance_frame steps inp.now status
  cases h with
  | create => rfl
  | abort => rfl
  | createCanary => rfl
  | step => rw [hadv]
  | complete => rw [hadv]
  | promote => rw [hadv]

omit [Inhabited P] in
theorem latchAbort_index (X : Externals P) (ro : Rollout P) (status : RolloutStatus) :
    (latchAbort X ro status).currentStepIndex = status.currentStepIndex ∨
      (latchAbort X ro status).currentStepIndex = 0 := by
  unfold latchAbort
  split
  · exact .inl rfl
  split
  · exact .inl rfl
  · split
    · exact .inr rfl
    · exact .inl rfl

/-- The weight is refreshed with the step the cursor stands on, if it stands on one. -/
theorem settled_currentStepWeight (ht : w.rollout.spec.strategy.type = .canary) (hne : w.rollout.steps ≠ []) :
    (w.settled X inp status result).status.currentStepWeight
      = (w.rollout.steps[status.currentStepIndex]?.map CanaryStep.setWeight).getD status.currentStepWeight := by
  obtain ⟨active, preview, hserv⟩ := updateServiceStatus_frame w.effective status
  rw [← effective_steps] at hne ⊢
  show (updateStatusFromResult X w.effective (w.executed inp result).labels result
    (updateServiceStatus w.effective status)).currentStepWeight = _
  rw [hserv]
  cases hc : w.effective.spec.strategy.canary with
  | none =>
    rw [Rollout.steps, hc] at hne
    exact absurd rfl hne
  | some c =>
  have hsteps : w.effective.steps = c.steps := by rw [Rollout.steps, hc]; rfl
  simp only [updateStatusFromResult, foldl_trackAction, effective_strategyType, ht, hc, hsteps]
  cases c.steps[status.currentStepIndex]? with
  | none => rfl
  | some step => rfl

/-- A canary rollout whose persisted weight is the one of the step under its cursor, or of the last one. -/
structure UnderCursor (w : World P) : Prop where
  type : w.rollout.spec.strategy.type = .canary
  steps : w.rollout.steps ≠ []
  start : w.status.stableRS = "" → w.status.currentStepIndex = 0
  weight : w.status.stableRS ≠ "" →
    (w.rollout.steps[min w.status.currentStepIndex (w.rollout.steps.length - 1)]?.map CanaryStep.setWeight)
      = some w.status.currentStepWeight

/-- **One result** leaves the weight of the step under the cursor, or of the last one. -/
theorem underCursor_settled (hw : UnderCursor w)
    (hout : Outcome X w.rollout.steps w.effective (w.observed X inp) (w.inputs X inp) status result)
    (hweight : status.currentStepWeight = w.status.currentStepWeight) :
    (w.rollout.steps[min status.currentStepIndex (w.rollout.steps.length - 1)]?.map CanaryStep.setWeight)
      = some ((w.settled X inp status result).status.currentStepWeight) := by
  have hlen : 0 < w.rollout.steps.length := List.length_pos_iff.mpr hw.steps
  rw [settled_currentStepWeight hw.type hw.steps]
  by_cases hlast : status.currentStepIndex < w.rollout.steps.length
  · -- the cursor stands on a step
    rw [Nat.min_eq_left (by omega), List.getElem?_eq_getElem hlast]
    rfl
  · -- the cursor is behind the last step: it was there, or on the last step
    have hindex := hout.index
    rw [observed_currentStepIndex] at hindex
    have hlatch := latchAbort_index X w.rollout w.status
    have hend : min status.currentStepIndex (w.rollout.steps.length - 1)
        = min w.status.currentStepIndex (w.rollout.steps.length - 1) := by omega
    have hstable : w.status.stableRS ≠ "" := by
      intro hs
      have hzero := hw.start hs
      cases hout with
      | create => rw [observed_currentStepIndex] at hlast; omega
      | abort hne => rw [observed_stableRS] at hne; exact hne hs
      | createCanary hne => rw [observed_stableRS] at hne; exact hne hs
      | step hne => rw [observed_stableRS] at hne; exact hne hs
      | complete hne => rw [observed_stableRS] at hne; exact hne hs
      | promote hne => rw [observed_stableRS] at hne; exact hne hs
    rw [hend, List.getElem?_eq_none (by omega : w.rollout.steps.length ≤ status.currentStepIndex), hw.weight hstable,
      hweight]
    rfl

omit [Inhabited P] in
theorem Outcome.stable_ne_empty {steps : List CanaryStep} {status : RolloutStatus}
    {inp : SyncInputs} (h : Outcome X steps ro status inp status' result) :
    (status'.tracked.trackAll result.replicaSets).stable ≠ "" := by
  have hname : ∀ hash, rsName ro "-stable-" hash ≠ "" := fun hash => rsName_ne_empty ro isMarker_stable
  cases h with
  | create => exact hname _
  | abort hs =>
    rw [abortResult_stable]
    exact hs
  | createCanary => exact hname _
  | step => exact hname _
  | complete => exact hname _
  | promote => exact hname _

/-- **One clean event** keeps the weight under the cursor. -/
theorem step_underCursor {e : Event P} (he : e.Clean) (hw : UnderCursor w) : UnderCursor (step X w e) := by
  have hsame := step_sameSpec X w e
  have htype : (step X w e).rollout.spec.strategy.type = .canary := hsame.strategy ▸ hw.type
  have hsteps : (step X w e).rollout.steps ≠ [] := hsame.steps ▸ hw.steps
  cases e with
  | setTemplate t => exact ⟨htype, hsteps, hw.start, hw.weight⟩
  | setAnnotations a => exact ⟨htype, hsteps, hw.start, hw.weight⟩
  | setDeployment d => exact ⟨htype, hsteps, hw.start, hw.weight⟩
  | setReady name ready => exact ⟨htype, hsteps, hw.start, hw.weight⟩
  | reconcile inp =>
  rcases canary_synced (X := X) hw.type he with ⟨-, hrefused, status, hq, heq⟩ |
    ⟨status, result, -, -, -, hout, hsynced, heq⟩
  · -- without a result the rollout was in its finalizer round or paused
    have hindex : status.currentStepIndex = w.status.currentStepIndex := by
      obtain ⟨latched, hlatched, -, hindex, -⟩ := hq.cursor
      rcases hlatched with rfl | ⟨-, hfin, hpaused⟩
      · exact hindex
      · exact absurd hrefused (canary_not_refused hw.type hw.steps hfin hpaused)
    rw [heq] at htype hsteps ⊢
    refine ⟨htype, hsteps, fun hs => ?_, fun hs => ?_⟩
    · exact hindex.trans (hw.start (hq.stableRS ▸ hs))
    · show (w.rollout.steps[min status.currentStepIndex _]?).map _ = some status.currentStepWeight
      rw [hindex, hq.currentStepWeight]
      exact hw.weight (hq.stableRS ▸ hs)
  · have hweight : status.currentStepWeight = w.status.currentStepWeight := by
      have hframe := hout.weight
      rw [observed_currentStepWeight] at hframe
      exact hframe
    rw [heq] at htype hsteps ⊢
    refine ⟨htype, hsteps, fun hs => ?_, fun _ => ?_⟩
    · rw [settled_stableRS] at hs
      exact absurd hs hout.stable_ne_empty
    · rw [settled_currentStepIndex]
      exact underCursor_settled hw hout hweight
end

/-! ### The weight in a reachable state -/

variable [Inhabited P]

/-- **When weight and replica split agree**: exactly if the persisted weight is ahead. -/
theorem weight_agrees_iff (X : Externals P) {w : World P} (hfresh : Fresh w)
    (htype : w.rollout.spec.strategy.type = .canary) {es : List (Event P)} {inp : ReconcileInput}
    {ret : RolloutStatus × SyncResult P} (hsync : (reconcileLoaded X inp (after X w es)).synced = some ret)
    (hact : ret.2.action = .step) {weight : Int}
    (hcall : .setWeight weight ∈ (reconcileLoaded X inp (after X w es)).calls) :
    (WeightAgrees w.rollout.steps ret weight ↔ WeightAhead X (after X w es) inp.now) ∧
    ((∀ e ∈ es, e.Clean) → w.rollout.steps ≠ [] → (after X w es).status.stableRS ≠ "" →
      (w.rollout.steps[min (after X w es).status.currentStepIndex (w.rollout.steps.length - 1)]?.map
        CanaryStep.setWeight) = some (after X w es).status.currentStepWeight) := by
  have hsame := after_sameSpec X w es
  constructor
  · have ht : (after X w es).rollout.spec.strategy.type = .canary := hsame.strategy ▸ htype
    rcases reported_cases X (after X w es) inp with ⟨hnone, -⟩ |
      ⟨status, result, hsynced, heq, hcalls⟩
    · rw [hnone] at hsync; cases hsync
    rw [heq] at hsync
    cases hsync
    have hmem : .setWeight weight ∈ (after X w es).calls status result := by
      rcases hcalls with hnil | heqcalls
      · rw [hnil] at hcall; cases hcall
      · exact heqcalls ▸ hcall
    rw [weight_of_call ht hsynced hact hmem, ← hsame.steps]
    exact synced_agrees_iff ht hsynced hact
  · intro hclean hne hstable
    have hstatus := hfresh.1
    have hunder : UnderCursor (after X w es) := by
      refine run_invariant_on (step X) (fun _ _ hv he => step_underCursor he hv) es w ?_ hclean
      refine ⟨htype, hne, fun _ => ?_, fun hs => ?_⟩
      · rw [hstatus]; rfl
      · rw [hstatus] at hs; exact absurd rfl hs
    rw [← hsame.steps]
    exact hunder.weight hstable

/-! ### The creation of a canary, and its first step -/

open Sample

/-- Two timed steps behind an Istio router. -/
def weighted : World Nat :=
  world { noStrategy .canary with canary := some ⟨[⟨25, some 60⟩, ⟨50, some 60⟩], "", ""⟩ } 4
    (some ⟨.istio, true, false⟩) (plain 1)

/-- Revision 2 arrives. -/
def changed : List (Event Nat) := [reconcileAt 0, .setTemplate (plain 2)]

/-- **The canary is created with the first step's weight.**  The reconcile that creates revision 2 hands the
router the weight 25, which the creation of revision 1 left in the status. -/
theorem creation_gets_first_weight : Fresh weighted ∧ weighted.rollout.spec.strategy.type = .canary ∧
    ∃ ret, (reconcileLoaded externals (.at 1) (after externals weighted changed)).synced = some ret ∧
      ret.2.action = .step ∧
      .setWeight 25 ∈ (reconcileLoaded externals (.at 1) (after externals weighted changed)).calls ∧
      ¬WeightAgrees weighted.rollout.steps ret 25 := by
  refine ⟨world_fresh .., rfl, ?_⟩
  have hcreates : (reconcileLoaded externals (.at 1) (after externals weighted changed)).synced.map
      (fun ret => (ret.2.action, ret.2.message)) = some (.step, "Creating canary ReplicaSet") := by decide
  obtain ⟨ret, hret, hpair⟩ := map_eq_some_iff.mp hcreates
  refine ⟨ret, hret, congrArg Prod.fst hpair, by decide, ?_⟩
  rintro (⟨step, ro, hash, stableHash, desired, -, hresult, -⟩ | ⟨-, -, -, -, -, hzero⟩)
  · refine stepResult_message_ne ro hash stableHash desired ret.1.currentStepIndex step ?_
    rw [← hresult]
    exact congrArg Prod.snd hpair
  · exact absurd hzero (by decide)

/-- The next reconcile enters the first step, whose weight is the persisted one. -/
theorem first_step_weight_agrees :
    ∃ ret, (reconcileLoaded externals (.at 2) (after externals weighted (changed ++ [reconcileAt 1]))).synced
        = some ret ∧
      WeightAgrees weighted.rollout.steps ret 25 := by
  have hsteps : (reconcileLoaded externals (.at 2)
      (after externals weighted (changed ++ [reconcileAt 1]))).synced.map (fun ret => ret.2.action)
      = some .step := by decide
  obtain ⟨ret, hret, hact⟩ := map_eq_some_iff.mp hsteps
  refine ⟨ret, hret, ?_⟩
  refine (weight_agrees_iff externals (w := weighted) (world_fresh ..) rfl hret hact (by decide)).1.mpr
    ⟨fun hcreates => ?_, fun _ _ => by decide, fun _ hleaves => ?_⟩
  · exact absurd hcreates (by decide)
  · exact absurd hleaves (by decide)

end Paprika.Rollouts.Canary
