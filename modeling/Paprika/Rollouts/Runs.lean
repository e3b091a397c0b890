import Paprika.Rollouts.Branches
import Paprika.Rollouts.Settled

/-!
# Facts about every run

What no event changes (`after_rollout`: the name, the strategy, the replicas and the router of the Rollout),
and two kinds of runs the results below speak about: *clean* ones, whose API calls do not fail, and *calm*
ones, which in addition never see the abort annotation.

* **`step_notAborted`** — a calm step does not abort;
* **`synced_cases`** — a clean reconcile gets a result or changes neither the cluster nor the tracked names;
* **`canary_synced`**, **`blueGreen_synced`**, … — the outcome of the strategy behind that result.
-/

namespace Paprika.Rollouts

open Lib.Run

variable {P : Type} (X : Externals P)

/-! ### What no event changes -/

/-- The two Rollouts differ in the template, the annotations and the finalizer at most. -/
structure SameSpec (a b : Rollout P) : Prop where
  name : b.name = a.name
  generation : b.generation = a.generation
  target : b.spec.target = a.spec.target
  strategy : b.spec.strategy = a.spec.strategy
  replicas : b.spec.replicas = a.spec.replicas
  revisionHistoryLimit : b.spec.revisionHistoryLimit = a.spec.revisionHistoryLimit
  paused : b.spec.paused = a.spec.paused
  trafficRouter : b.spec.trafficRouter = a.spec.trafficRouter

theorem SameSpec.refl (a : Rollout P) : SameSpec a a := ⟨rfl, rfl, rfl, rfl, rfl, rfl, rfl, rfl⟩

variable {a b : Rollout P}

theorem SameSpec.trans {c : Rollout P} (hab : SameSpec a b) (hbc : SameSpec b c) : SameSpec a c :=
  ⟨hbc.name.trans hab.name, hbc.generation.trans hab.generation, hbc.target.trans hab.target,
    hbc.strategy.trans hab.strategy, hbc.replicas.trans hab.replicas,
    hbc.revisionHistoryLimit.trans hab.revisionHistoryLimit, hbc.paused.trans hab.paused,
    hbc.trafficRouter.trans hab.trafficRouter⟩

theorem SameSpec.desiredReplicas (h : SameSpec a b) : b.desiredReplicas = a.desiredReplicas := by
  rw [Rollout.desiredReplicas, Rollout.desiredReplicas, h.replicas]

theorem SameSpec.rsName (h : SameSpec a b) (marker hash : String) :
    Rollouts.rsName b marker hash = Rollouts.rsName a marker hash := by
  rw [Rollouts.rsName, Rollouts.rsName, h.name]

@[simp] theorem patchStatus_rollout (faults : Faults) (w : World P) (status : RolloutStatus) :
    (patchStatus faults w status).rollout = w.rollout := by
  unfold patchStatus
  split <;> rfl

variable [Inhabited P]

theorem reconcile_rollout (inp : ReconcileInput) (w : World P) :
    ∃ finalizer, (reconcileLoaded X inp w).world.rollout = { w.rollout with finalizer := finalizer } := by
  unfold reconcileLoaded carryOut failRollout
  dsimp only
  split
  · exact ⟨true, rfl⟩
  refine ⟨w.rollout.finalizer, ?_⟩
  split
  · exact patchStatus_rollout ..
  split
  · exact patchStatus_rollout ..
  split
  · exact patchStatus_rollout ..
  split
  · exact patchStatus_rollout ..
  · split
    · exact patchStatus_rollout ..
    · split <;> exact patchStatus_rollout ..

theorem step_sameSpec (w : World P) (e : Event P) : SameSpec w.rollout (step X w e).rollout := by
  cases e with
  | setTemplate t => exact ⟨rfl, rfl, rfl, rfl, rfl, rfl, rfl, rfl⟩
  | setAnnotations a => exact ⟨rfl, rfl, rfl, rfl, rfl, rfl, rfl, rfl⟩
  | setDeployment d => exact SameSpec.refl _
  | setReady name ready => exact SameSpec.refl _
  | reconcile inp =>
    obtain ⟨finalizer, h⟩ := reconcile_rollout X inp w
    rw [step, h]
    exact ⟨rfl, rfl, rfl, rfl, rfl, rfl, rfl, rfl⟩

theorem after_sameSpec (w : World P) (es : List (Event P)) : SameSpec w.rollout (after X w es).rollout :=
  run_invariant (step X) (motive := fun v => SameSpec w.rollout v.rollout)
    (fun v e h => h.trans (step_sameSpec X v e)) es w (SameSpec.refl _)

/-! ### Clean and calm runs -/

/-- No API call of the event fails. -/
def Event.Clean : Event P → Prop
  | .reconcile inp => inp.faults = Faults.none
  | _ => True

/-- No API call of the event fails, and it does not set the abort annotation. -/
def Event.Calm : Event P → Prop
  | .reconcile inp => inp.faults = Faults.none
  | .setAnnotations annotations => annotations abortAnnotation = none
  | _ => True

omit [Inhabited P] in
theorem Event.Calm.clean {e : Event P} (h : e.Calm) : e.Clean := by
  cases e with
  | reconcile inp => exact h
  | _ => trivial

def World.NotAborted (w : World P) : Prop := w.status.abort = false ∧ w.rollout.annotations abortAnnotation = none

variable {X} {w : World P} {inp : ReconcileInput}

omit [Inhabited P] in
theorem latchAbort_of_notAborted (h : w.NotAborted) : latchAbort X w.rollout w.status = w.status := by
  simp [latchAbort, h.1, h.2]

omit [Inhabited P] in
theorem isAborted_of_notAborted (h : w.NotAborted) : isAborted w.effective (w.observed X inp) = false := by
  simp [isAborted, latchAbort_of_notAborted h, h.1, h.2]

theorem synced_cases (hf : inp.faults = Faults.none) :
    ((reconcileLoaded X inp w).synced = none ∧ Refused X w inp ∧ ∃ status, Quiet X w status ∧ step X w (.reconcile inp)
        = { w with rollout := { w.rollout with finalizer := true }, status := status }) ∨
    ∃ strategy status result, w.rollout.finalizer = true ∧ w.rollout.spec.paused = false ∧
      newStrategy w.effective.spec.strategy = .ok strategy ∧
      strategy.sync X w.effective (w.observed X inp) (w.inputs X inp) = .ok (status, result) ∧
      (reconcileLoaded X inp w).synced = some (status, result) ∧
      step X w (.reconcile inp) = w.settled X inp status result := by
  rcases reconcile_cases X w hf with ⟨status, hq, hrefused, heq⟩ |
    ⟨strategy, status, result, hfin, hpaused, hs, hsync, heq⟩
  · left
    rw [step, heq]
    exact ⟨rfl, hrefused, status, hq, rfl⟩
  · right
    refine ⟨strategy, status, result, hfin, hpaused, hs, hsync, ?_⟩
    rw [step, heq]
    exact ⟨rfl, rfl⟩

theorem step_notAborted {e : Event P} (he : e.Calm) (h : w.NotAborted) : (step X w e).NotAborted := by
  cases e with
  | setTemplate t => exact h
  | setAnnotations a => exact ⟨h.1, he⟩
  | setDeployment d => exact h
  | setReady name ready => exact h
  | reconcile inp =>
  obtain ⟨finalizer, hro⟩ := reconcile_rollout X inp w
  refine ⟨?_, by rw [step, hro]; exact h.2⟩
  rcases synced_cases (X := X) (w := w) he with ⟨-, -, status, hq, heq⟩ |
    ⟨strategy, status, result, -, -, hs, hsync, -, heq⟩
  · rw [heq]
    exact (hq.unlatched (latchAbort_of_notAborted h)).1.trans h.1
  · rw [heq, settled_abort, (Strategy.sync_frame hsync).1, observed_abort, latchAbort_of_notAborted h]
    exact h.1

/-! ### The outcome behind a result -/

def Rollout.steps (ro : Rollout P) : List CanaryStep := (ro.spec.strategy.canary.map CanaryStrategy.steps).getD []

omit [Inhabited P] in
theorem SameSpec.steps (h : SameSpec a b) : b.steps = a.steps := by rw [Rollout.steps, Rollout.steps, h.strategy]

omit [Inhabited P] in
theorem effective_steps (w : World P) : w.effective.steps = w.rollout.steps := by
  unfold Rollout.steps
  rw [effective_strategy]
  unfold setServiceDefaults
  split
  · cases w.rollout.spec.strategy.canary <;> rfl
  · rfl
  · rfl
  · rfl
  · rfl

omit [Inhabited P] in
theorem canary_outcome (ht : w.rollout.spec.strategy.type = .canary) {strategy : Strategy}
    {status : RolloutStatus} {result : SyncResult P}
    (hs : newStrategy w.effective.spec.strategy = .ok strategy)
    (hsync : strategy.sync X w.effective (w.observed X inp) (w.inputs X inp) = .ok (status, result)) :
    w.rollout.steps ≠ [] ∧
      Canary.Outcome X w.rollout.steps w.effective (w.observed X inp) (w.inputs X inp) status result := by
  simp only [newStrategy, effective_strategyType, ht, Except.ok.injEq] at hs
  subst hs
  obtain ⟨c, hc, hne, hout⟩ := Canary.sync_outcome hsync
  have hsteps : c.steps = w.rollout.steps := by
    rw [← effective_steps, Rollout.steps, hc]
    rfl
  rw [hsteps] at hne hout
  exact ⟨hne, hout⟩

omit [Inhabited P] in
theorem canary_not_refused (ht : w.rollout.spec.strategy.type = .canary) (hne : w.rollout.steps ≠ [])
    (hfin : w.rollout.finalizer = true) (hpaused : w.rollout.spec.paused = false) : ¬Refused X w inp := by
  rintro (h | h | ⟨err, h⟩ | ⟨strategy, err, hs, h⟩)
  · rw [hfin] at h; cases h
  · rw [hpaused] at h; cases h
  · simp [newStrategy, ht] at h
  · simp only [newStrategy, effective_strategyType, ht, Except.ok.injEq] at hs
    subst hs
    rw [← effective_steps, Rollout.steps] at hne
    cases hc : w.effective.spec.strategy.canary with
    | none => rw [hc] at hne; exact hne rfl
    | some c =>
      rw [hc] at hne
      rw [Strategy.sync, hc] at h
      exact Canary.sync_ne_error hne h

theorem canary_synced (ht : w.rollout.spec.strategy.type = .canary) (hf : inp.faults = Faults.none) :
    ((reconcileLoaded X inp w).synced = none ∧ Refused X w inp ∧ ∃ status, Quiet X w status ∧ step X w (.reconcile inp)
        = { w with rollout := { w.rollout with finalizer := true }, status := status }) ∨
    ∃ status result, w.rollout.finalizer = true ∧ w.rollout.spec.paused = false ∧ w.rollout.steps ≠ [] ∧
      Canary.Outcome X w.rollout.steps w.effective (w.observed X inp) (w.inputs X inp) status result ∧
      (reconcileLoaded X inp w).synced = some (status, result) ∧
      step X w (.reconcile inp) = w.settled X inp status result := by
  rcases synced_cases (X := X) (w := w) hf with h |
    ⟨strategy, status, result, hfin, hpaused, hs, hsync, hrest⟩
  · exact Or.inl h
  · obtain ⟨hne, hout⟩ := canary_outcome ht hs hsync
    exact Or.inr ⟨status, result, hfin, hpaused, hne, hout, hrest⟩

/-- The BlueGreen configuration of a Rollout, the zero one if there is none. -/
def Rollout.blueGreenCfg (ro : Rollout P) : BlueGreenStrategy :=
  ro.spec.strategy.blueGreen.getD ⟨"", "", none, none, none⟩

omit [Inhabited P] in
theorem effective_blueGreenCfg (w : World P) : ∃ active preview, w.effective.blueGreenCfg
      = { w.rollout.blueGreenCfg with activeService := active, previewService := preview } := by
  unfold Rollout.blueGreenCfg
  rw [effective_strategy]
  unfold setServiceDefaults
  split
  · exact ⟨_, _, rfl⟩
  · cases w.rollout.spec.strategy.blueGreen <;> exact ⟨_, _, rfl⟩
  · exact ⟨_, _, rfl⟩
  · exact ⟨_, _, rfl⟩
  · exact ⟨_, _, rfl⟩

def World.previewCount (w : World P) : Int :=
  BlueGreen.previewReplicas w.rollout.blueGreenCfg w.rollout.desiredReplicas

omit [Inhabited P] in
theorem effective_previewCount (w : World P) :
    BlueGreen.previewReplicas w.effective.blueGreenCfg w.effective.desiredReplicas = w.previewCount := by
  obtain ⟨active, preview, h⟩ := effective_blueGreenCfg w
  rw [h, effective_desiredReplicas]
  rfl

@[simp] theorem step_previewCount (X : Externals P) (w : World P) (e : Event P) :
    (step X w e).previewCount = w.previewCount := by
  have hsame := step_sameSpec X w e
  rw [World.previewCount, World.previewCount, hsame.desiredReplicas, Rollout.blueGreenCfg,
    Rollout.blueGreenCfg, hsame.strategy]

theorem blueGreen_synced (ht : w.rollout.spec.strategy.type = .blueGreen) (hf : inp.faults = Faults.none) :
    ((reconcileLoaded X inp w).synced = none ∧ ∃ status, Quiet X w status ∧ step X w (.reconcile inp)
        = { w with rollout := { w.rollout with finalizer := true }, status := status }) ∨
    ∃ status result, BlueGreen.Outcome X w.effective.blueGreenCfg w.effective (w.observed X inp) (w.inputs X inp) status
        result ∧
      (reconcileLoaded X inp w).synced = some (status, result) ∧
      step X w (.reconcile inp) = w.settled X inp status result := by
  rcases synced_cases (X := X) (w := w) hf with ⟨hnone, -, hquiet⟩ |
    ⟨strategy, status, result, -, -, hs, hsync, hrest⟩
  · exact Or.inl ⟨hnone, hquiet⟩
  · right
    simp only [newStrategy, effective_strategyType, ht, Except.ok.injEq] at hs
    subst hs
    exact ⟨status, result, BlueGreen.sync_outcome hsync, hrest⟩

/-! ### Branches, read off the state before -/

section

omit [Inhabited P]

/-- The previous active ReplicaSet of a BlueGreen rollout is being drained. -/
def World.Draining (w : World P) : Prop := w.status.promotedAt ≠ none ∧ w.status.previousActiveRS ≠ ""

instance (w : World P) : Decidable w.Draining := inferInstanceAs (Decidable (_ ∧ _))

/-- The promotion branch of a strategy. -/
def PromotesUnder (X : Externals P) (w : World P) (inp : ReconcileInput) : StrategyType → Prop
  | .canary => Canary.Exhausted w.rollout.steps inp.now (w.observed X inp)
  | .blueGreen => (w.status.promotedAt = none ∨ w.status.previousActiveRS = "") ∧
      (BlueGreen.autoPromotes w.effective.blueGreenCfg (w.observed X inp) inp.now = true ∨
        (w.rollout.annotations promoteAnnotation).isSome = true)
  | _ => (w.rollout.annotations promoteAnnotation).isSome = true

instance (w : World P) (inp : ReconcileInput) : ∀ type, Decidable (PromotesUnder X w inp type)
  | .canary => inferInstanceAs (Decidable (Canary.Exhausted _ _ _))
  | .blueGreen => inferInstanceAs (Decidable (_ ∧ _))
  | .rolling => inferInstanceAs (Decidable (_ = _))
  | .abTest => inferInstanceAs (Decidable (_ = _))
  | .mirror => inferInstanceAs (Decidable (_ = _))
  | .other _ => inferInstanceAs (Decidable (_ = _))

def Promotes (X : Externals P) (w : World P) (inp : ReconcileInput) : Prop :=
  w.status.canaryRS ≠ "" ∧ PromotesUnder X w inp w.rollout.spec.strategy.type

instance (w : World P) (inp : ReconcileInput) : Decidable (Promotes X w inp) := inferInstanceAs (Decidable (_ ∧ _))
end

end Paprika.Rollouts
