import Paprika.Rollouts.Strategies

/-!
# What each `Sync` returns

One inductive predicate per strategy, with one constructor per return of its `Sync`: the guards under which
the branch is taken, the status `Sync` leaves and the result.  The `sync_outcome` lemmas say that the list is
complete.  Everything later argues by cases on an outcome and never unfolds a `Sync` again.
-/

namespace Paprika.Rollouts

open Option Bool

variable {P : Type} {X : Externals P} {ro : Rollout P} {status status' : RolloutStatus}
  {inp : SyncInputs} {result : SyncResult P}

/-! ### Rolling -/

namespace Rolling

/-- The stable ReplicaSet already is the one `Sync` wants: the test that leads to `convergedResult`. -/
def Converged (X : Externals P) (ro : Rollout P) (status : RolloutStatus) : Prop :=
  hashFromRSName status.stableRS = X.currentHash ro ∧
    (canaryHashFromStatus status = "" ∨ canaryHashFromStatus status = X.currentHash ro)

instance (X : Externals P) (ro : Rollout P) (status : RolloutStatus) : Decidable (Converged X ro status) :=
  inferInstanceAs (Decidable (_ ∧ _))

/-- A rolling `Sync` returns the status as it came. -/
inductive Outcome (X : Externals P) (ro : Rollout P) (status : RolloutStatus) (inp : SyncInputs) :
    SyncResult P → Prop
  | create (hstable : status.stableRS = "") :
      Outcome X ro status inp
        (createResult "Creating stable ReplicaSet" (makeStableRS ro (X.currentHash ro) ro.desiredReplicas))
  | abort (hstable : status.stableRS ≠ "") (haborted : isAborted ro status = true) :
      Outcome X ro status inp
        (abortResult ro status (hashFromRSName status.stableRS) ro.desiredReplicas)
  | converged (hstable : status.stableRS ≠ "") (haborted : isAborted ro status = false)
      (hconv : Converged X ro status) :
      Outcome X ro status inp (convergedResult ro status (X.currentHash ro) ro.desiredReplicas)
  | complete (hstable : status.stableRS ≠ "") (haborted : isAborted ro status = false)
      (hconv : ¬Converged X ro status) (hready : ro.desiredReplicas ≤ inp.canaryReadyReplicas) :
      Outcome X ro status inp
        ⟨.healthy, .complete, "Rolling update complete",
          [revisionRS ro "-canary-" [stableLabel] (X.currentHash ro) ro.desiredReplicas]⟩
  | progress (hstable : status.stableRS ≠ "") (haborted : isAborted ro status = false)
      (hconv : ¬Converged X ro status) (message hash : String) (old new : Int) :
      Outcome X ro status inp
        ⟨.progressing, .createStable, message,
          [⟨status.stableRS, old, none,
            [(stableLabel, "true"), (revisionLabel, hash), (rolloutLabel, ro.name)]⟩,
           makeCanaryRS ro (X.currentHash ro) new]⟩

theorem sync_outcome {cfg : RollingStrategy} (h : sync X cfg ro status inp = .ok (status', result)) :
    status' = status ∧ Outcome X ro status inp result := by
  unfold sync at h
  dsimp only at h
  split at h
  · cases h; exact ⟨rfl, .create ‹_›⟩
  split at h
  · cases h; exact ⟨rfl, .abort ‹_› ‹_›⟩
  · rename_i hs ha
    rw [not_eq_true] at ha
    split at h
    · cases h; exact ⟨rfl, .converged hs ha ‹_›⟩
    · rename_i hc
      cases h
      refine ⟨rfl, ?_⟩
      unfold rollingUpdate
      dsimp only
      split
      · rename_i hdone
        exact .complete hs ha hc hdone.2
      · exact .progress hs ha hc _ _ _ _

theorem sync_ok (X : Externals P) (cfg : RollingStrategy) (ro : Rollout P) (status : RolloutStatus)
    (inp : SyncInputs) : ∃ result, sync X cfg ro status inp = .ok (status, result) := by
  unfold sync
  dsimp only
  split
  · exact ⟨_, rfl⟩
  · split
    · exact ⟨_, rfl⟩
    · split <;> exact ⟨_, rfl⟩

end Rolling

/-! ### Canary -/

namespace Canary

inductive Outcome (X : Externals P) (steps : List CanaryStep) (ro : Rollout P) (status : RolloutStatus)
    (inp : SyncInputs) : RolloutStatus → SyncResult P → Prop
  | create (hstable : status.stableRS = "") :
      Outcome X steps ro status inp status
        (createResult "Creating stable ReplicaSet" (makeStableRS ro (X.currentHash ro) ro.desiredReplicas))
  | abort (hstable : status.stableRS ≠ "") (haborted : isAborted ro status = true) :
      Outcome X steps ro status inp status
        (abortResult ro status (hashFromRSName status.stableRS) ro.desiredReplicas)
  | createCanary (hstable : status.stableRS ≠ "") (haborted : isAborted ro status = false)
      (hcanary : status.canaryRS = "") (hhash : X.currentHash ro ≠ hashFromRSName status.stableRS) :
      Outcome X steps ro status inp status
        (createCanaryResult ro (X.currentHash ro) (hashFromRSName status.stableRS) ro.desiredReplicas)
  | step (hstable : status.stableRS ≠ "") (haborted : isAborted ro status = false)
      (hcanary : ¬(status.canaryRS = "" ∧ X.currentHash ro ≠ hashFromRSName status.stableRS))
      (step : CanaryStep) (hstep : steps[(advance steps inp.now status).currentStepIndex]? = some step) :
      Outcome X steps ro status inp (advance steps inp.now status)
        (stepResult ro (X.currentHash ro) (hashFromRSName status.stableRS) ro.desiredReplicas
          (advance steps inp.now status).currentStepIndex step)
  | complete (hstable : status.stableRS ≠ "") (haborted : isAborted ro status = false)
      (hstep : steps[(advance steps inp.now status).currentStepIndex]? = none)
      (hhash : hashFromRSName status.stableRS = X.currentHash ro) :
      Outcome X steps ro status inp (advance steps inp.now status)
        (completeResult ro (X.currentHash ro) ro.desiredReplicas)
  | promote (hstable : status.stableRS ≠ "") (haborted : isAborted ro status = false)
      (hcanary : status.canaryRS ≠ "")
      (hstep : steps[(advance steps inp.now status).currentStepIndex]? = none)
      (hhash : hashFromRSName status.stableRS ≠ X.currentHash ro) :
      Outcome X steps ro status inp (advance steps inp.now status)
        (promoteResult ro (X.currentHash ro) ro.desiredReplicas)

/-- The five things the step-advancement switch can do. -/
inductive Advance (steps : List CanaryStep) (now : Int) (status : RolloutStatus) : RolloutStatus → Prop
  | exhausted (hstep : steps[status.currentStepIndex]? = none) : Advance steps now status status
  | skipped (step : CanaryStep) (hstep : steps[status.currentStepIndex]? = some step)
      (hduration : step.duration.getD 0 ≤ 0) :
      Advance steps now status
        { status with currentStepIndex := status.currentStepIndex + 1, currentStepStartedAt := none }
  | stamped (step : CanaryStep) (hstep : steps[status.currentStepIndex]? = some step)
      (hduration : 0 < step.duration.getD 0) (hstarted : status.currentStepStartedAt = none) :
      Advance steps now status { status with currentStepStartedAt := some now }
  | elapsed (step : CanaryStep) (hstep : steps[status.currentStepIndex]? = some step)
      (hduration : 0 < step.duration.getD 0) (startedAt : Int)
      (hstarted : status.currentStepStartedAt = some startedAt)
      (hnow : startedAt + step.duration.getD 0 ≤ now) :
      Advance steps now status
        { status with currentStepIndex := status.currentStepIndex + 1, currentStepStartedAt := none }
  | waiting (step : CanaryStep) (hstep : steps[status.currentStepIndex]? = some step)
      (hduration : 0 < step.duration.getD 0) (startedAt : Int)
      (hstarted : status.currentStepStartedAt = some startedAt)
      (hnow : now < startedAt + step.duration.getD 0) :
      Advance steps now status status

variable (steps : List CanaryStep)

theorem advance_spec (now : Int) (status : RolloutStatus) : Advance steps now status (advance steps now status) := by
  unfold advance
  split
  · exact .exhausted ‹_›
  · rename_i step hstep
    split
    · exact .skipped step hstep ‹_›
    · rename_i hduration
      have hpos : 0 < step.duration.getD 0 := by omega
      split
      · exact .stamped step hstep hpos ‹_›
      · rename_i startedAt hstart
        split
        · exact .elapsed step hstep hpos startedAt hstart (by omega)
        · exact .waiting step hstep hpos startedAt hstart (by omega)

/-- The cursor is behind the last step, or on it with nothing left to wait for. -/
def Exhausted (steps : List CanaryStep) (now : Int) (status : RolloutStatus) : Prop :=
  steps[status.currentStepIndex]? = none ∨
    steps[status.currentStepIndex + 1]? = none ∧ ∀ step ∈ steps[status.currentStepIndex]?, step.duration.getD 0 ≤ 0 ∨
        ∃ startedAt ∈ status.currentStepStartedAt, startedAt + step.duration.getD 0 ≤ now

instance (steps : List CanaryStep) (now : Int) (status : RolloutStatus) : Decidable (Exhausted steps now status) :=
  inferInstanceAs (Decidable (_ ∨ _))

theorem advance_none_iff (now : Int) (status : RolloutStatus) :
    steps[(advance steps now status).currentStepIndex]? = none ↔ Exhausted steps now status := by
  have h := advance_spec steps now status
  generalize advance steps now status = status' at h ⊢
  cases h with
  | exhausted hstep => exact ⟨fun _ => .inl hstep, fun _ => hstep⟩
  | skipped step hstep hd =>
    refine ⟨fun hnone => .inr ⟨hnone, ?_⟩, ?_⟩
    · intro st hst
      rw [hstep] at hst
      cases hst
      exact .inl hd
    · rintro (hnone | ⟨hnone, -⟩)
      · rw [hstep] at hnone; cases hnone
      · exact hnone
  | stamped step hstep hd hstart =>
    refine ⟨fun hnone => .inl hnone, ?_⟩
    rintro (hnone | ⟨-, hleft⟩)
    · exact hnone
    · rcases hleft step hstep with hle | ⟨startedAt, hs, -⟩
      · omega
      · rw [hstart] at hs; cases hs
  | elapsed step hstep hd startedAt hstart hnow =>
    refine ⟨fun hnone => .inr ⟨hnone, ?_⟩, ?_⟩
    · intro st hst
      rw [hstep] at hst
      cases hst
      exact .inr ⟨startedAt, hstart, hnow⟩
    · rintro (hnone | ⟨hnone, -⟩)
      · rw [hstep] at hnone; cases hnone
      · exact hnone
  | waiting step hstep hd startedAt hstart hnow =>
  refine ⟨fun hnone => .inl hnone, ?_⟩
  rintro (hnone | ⟨-, hleft⟩)
  · exact hnone
  · rcases hleft step hstep with hle | ⟨other, hs, hle⟩
    · omega
    · rw [hstart] at hs
      cases hs
      omega

theorem advance_frame (now : Int) (status : RolloutStatus) : ∃ index startedAt, advance steps now status
      = { status with currentStepIndex := index, currentStepStartedAt := startedAt } := by
  have h := advance_spec steps now status
  generalize advance steps now status = status' at h ⊢
  cases h with
  | exhausted => exact ⟨_, _, rfl⟩
  | skipped => exact ⟨_, _, rfl⟩
  | stamped => exact ⟨_, _, rfl⟩
  | elapsed => exact ⟨_, _, rfl⟩
  | waiting => exact ⟨_, _, rfl⟩

theorem sync_outcome {cfg : Option CanaryStrategy}
    (h : sync X cfg ro status inp = .ok (status', result)) :
    ∃ c, cfg = some c ∧ c.steps ≠ [] ∧ Outcome X c.steps ro status inp status' result := by
  unfold sync at h
  dsimp only at h
  split at h
  · cases h
  rename_i hsteps
  cases cfg with
  | none => exact absurd rfl hsteps
  | some c =>
  refine ⟨c, rfl, hsteps, ?_⟩
  simp only [map_some, getD_some] at h
  split at h
  · cases h; exact .create ‹_›
  split at h
  · cases h; exact .abort ‹_› ‹_›
  · rename_i hs ha
    rw [not_eq_true] at ha
    split at h
    · rename_i hc
      cases h; exact .createCanary hs ha hc.1 hc.2
    · rename_i hc
      split at h
      · rename_i hnone
        split at h
        · cases h; exact .complete hs ha hnone ‹_›
        · rename_i hne
          cases h
          exact .promote hs ha (fun hempty => hc ⟨hempty, fun heq => hne heq.symm⟩) hnone hne
      · rename_i step hsome
        cases h; exact .step hs ha hc step hsome

/-- The message tells a step's result from the creation of the canary ReplicaSet. -/
theorem stepResult_message_ne (ro : Rollout P) (hash stableHash : String) (desired : Int) (index : Nat)
    (step : CanaryStep) :
    (stepResult ro hash stableHash desired index step).message ≠ "Creating canary ReplicaSet" := by
  intro h
  have hmsg := congrArg (fun text : String => text.toList.take 2) h
  simp only [stepResult, String.toList_append] at hmsg
  rw [show (toString "Canary step ").toList = 'C' :: 'a' :: "nary step ".toList from rfl] at hmsg
  simp at hmsg

theorem stepResult_ne_createCanaryResult (ro ro' : Rollout P) (hash hash' stableHash stableHash' : String)
    (desired desired' : Int) (index : Nat) (step : CanaryStep) :
    createCanaryResult ro hash stableHash desired ≠ stepResult ro' hash' stableHash' desired' index step :=
  fun h => stepResult_message_ne ro' hash' stableHash' desired' index step (congrArg SyncResult.message h).symm

theorem sync_ne_error {c : CanaryStrategy} {err : String} (hsteps : c.steps ≠ []) :
    sync X (some c) ro status inp ≠ .error err := by
  unfold sync
  simp only [map_some, getD_some, hsteps, if_false]
  intro h
  split at h
  · cases h
  split at h
  · cases h
  split at h
  · cases h
  · split at h
    · split at h <;> cases h
    · cases h

end Canary

/-! ### BlueGreen -/

namespace BlueGreen

inductive Outcome (X : Externals P) (cfg : BlueGreenStrategy) (ro : Rollout P) (status : RolloutStatus)
    (inp : SyncInputs) : RolloutStatus → SyncResult P → Prop
  | create (hstable : status.stableRS = "") :
      Outcome X cfg ro status inp status
        (createResult "Creating active ReplicaSet" (makeActiveRS ro (X.currentHash ro) ro.desiredReplicas))
  | abort (hstable : status.stableRS ≠ "") (haborted : isAborted ro status = true) :
      Outcome X cfg ro status inp status
        (abortResult ro status (hashFromRSName status.stableRS) ro.desiredReplicas)
  | drained (hstable : status.stableRS ≠ "") (haborted : isAborted ro status = false)
      (hpromoted : status.promotedAt ≠ none) (hprevious : status.previousActiveRS ≠ "")
      (hready : inp.canaryReadyReplicas = 0) :
      Outcome X cfg ro status inp { status with previousActiveRS := "", promotedAt := none }
        ⟨.healthy, .complete, "Active ReplicaSet matches desired template; previous active drained",
          [makeActiveRS ro (X.currentHash ro) ro.desiredReplicas]⟩
  | draining (hstable : status.stableRS ≠ "") (haborted : isAborted ro status = false)
      (hpromoted : status.promotedAt ≠ none) (hprevious : status.previousActiveRS ≠ "")
      (hready : inp.canaryReadyReplicas ≠ 0) (message hash : String) (oldTarget : Int)
      (htarget : oldTarget = 0 ∨ oldTarget = ro.desiredReplicas) :
      Outcome X cfg ro status inp status
        ⟨.progressing, .step, message,
          [makeActiveRS ro (X.currentHash ro) ro.desiredReplicas,
           drainingRS ro status.previousActiveRS hash oldTarget]⟩
  | activeMatches (hstable : status.stableRS ≠ "") (haborted : isAborted ro status = false)
      (hdrain : status.promotedAt = none ∨ status.previousActiveRS = "") (hcanary : status.canaryRS = "")
      (hhash : X.currentHash ro = hashFromRSName status.stableRS) :
      Outcome X cfg ro status inp status (activeMatchesResult ro (X.currentHash ro) ro.desiredReplicas)
  | previewed (hstable : status.stableRS ≠ "") (haborted : isAborted ro status = false)
      (hdrain : status.promotedAt = none ∨ status.previousActiveRS = "") (hcanary : status.canaryRS = "")
      (hhash : X.currentHash ro ≠ hashFromRSName status.stableRS) :
      Outcome X cfg ro status inp { status with previewHealthyAt := none }
        (pausedResult ro "Preview ReplicaSet created; waiting for promotion"
          (hashFromRSName status.stableRS) (X.currentHash ro) ro.desiredReplicas
          (previewReplicas cfg ro.desiredReplicas))
  | promote (hstable : status.stableRS ≠ "") (haborted : isAborted ro status = false)
      (hdrain : status.promotedAt = none ∨ status.previousActiveRS = "") (hcanary : status.canaryRS ≠ "")
      (hwhy : autoPromotes cfg status inp.now = true ∨ (ro.annotations promoteAnnotation).isSome = true) :
      Outcome X cfg ro status inp
        (promoteResult ro status (X.currentHash ro) (hashFromRSName status.stableRS) ro.desiredReplicas inp).1
        (promoteResult ro status (X.currentHash ro) (hashFromRSName status.stableRS) ro.desiredReplicas inp).2
  | waiting (hstable : status.stableRS ≠ "") (haborted : isAborted ro status = false)
      (hdrain : status.promotedAt = none ∨ status.previousActiveRS = "") (hcanary : status.canaryRS ≠ "")
      (hauto : autoPromotes cfg status inp.now = false)
      (hmanual : (ro.annotations promoteAnnotation).isSome = false) :
      Outcome X cfg ro status inp status
        (pausedResult ro "Waiting for promotion" (hashFromRSName status.stableRS)
          (hashFromRSName status.canaryRS) ro.desiredReplicas (previewReplicas cfg ro.desiredReplicas))

variable {cfg : BlueGreenStrategy}

theorem drainResult_none {hash : String} {desired : Int}
    (h : drainResult cfg ro status hash desired inp = none) :
    status.promotedAt = none ∨ status.previousActiveRS = "" := by
  unfold drainResult at h
  split at h
  · exact .inl ‹_›
  · split at h
    · exact .inr ‹_›
    · split at h <;> cases h

theorem sync_outcome (h : sync X cfg ro status inp = .ok (status', result)) :
    Outcome X cfg ro status inp status' result := by
  unfold sync at h
  split at h
  · cases h
  dsimp only at h
  split at h
  · cases h; exact .create ‹_›
  split at h
  · cases h; exact .abort ‹_› ‹_›
  rename_i hs ha
  rw [not_eq_true] at ha
  split at h
  · -- the drain phase
    rename_i drained hdrained
    cases h
    unfold drainResult at hdrained
    split at hdrained
    · cases hdrained
    · rename_i promotedAt hprom
      have hne : status.promotedAt ≠ none := by rw [hprom]; exact some_ne_none _
      split at hdrained
      · cases hdrained
      · rename_i hprev
        split at hdrained
        · cases hdrained; exact .drained hs ha hne hprev ‹_›
        · rename_i hready
          cases hdrained
          refine .draining hs ha hne hprev hready _ _ _ ?_
          split
          · exact .inl rfl
          · exact .inr rfl
  · rename_i hnone
    have hdrain := drainResult_none hnone
    split at h
    · rename_i hcanary
      split at h
      · cases h; exact .activeMatches hs ha hdrain hcanary ‹_›
      · cases h; exact .previewed hs ha hdrain hcanary ‹_›
    · rename_i hcanary
      split at h
      · cases h; exact .promote hs ha hdrain hcanary (.inl ‹_›)
      · rename_i hauto
        rw [not_eq_true] at hauto
        split at h
        · cases h; exact .promote hs ha hdrain hcanary (.inr ‹_›)
        · rename_i hmanual
          rw [not_eq_true] at hmanual
          cases h; exact .waiting hs ha hdrain hcanary hauto hmanual

end BlueGreen

/-! ### ABTest -/

namespace ABTest

/-- An A/B `Sync` returns the status as it came. -/
inductive Outcome (X : Externals P) (ro : Rollout P) (status : RolloutStatus) : SyncResult P → Prop
  | create (hstable : status.stableRS = "") :
      Outcome X ro status
        (createResult "Creating stable ReplicaSet" (makeStableRS ro (X.currentHash ro) ro.desiredReplicas))
  | abort (hstable : status.stableRS ≠ "") (haborted : isAborted ro status = true) :
      Outcome X ro status (abortResult ro status (hashFromRSName status.stableRS) ro.desiredReplicas)
  | createCanary (hstable : status.stableRS ≠ "") (haborted : isAborted ro status = false)
      (hcanary : status.canaryRS = "") (hhash : X.currentHash ro ≠ hashFromRSName status.stableRS) :
      Outcome X ro status
        ⟨.progressing, .step, "Creating canary ReplicaSet",
          [makeStableRS ro (hashFromRSName status.stableRS) ro.desiredReplicas,
           makeCanaryRS ro (X.currentHash ro) ro.desiredReplicas]⟩
  | promote (hstable : status.stableRS ≠ "") (haborted : isAborted ro status = false)
      (hmanual : (ro.annotations promoteAnnotation).isSome = true)
      (hcanary : ¬(status.canaryRS = "" ∧ X.currentHash ro ≠ hashFromRSName status.stableRS)) :
      Outcome X ro status
        ⟨.progressing, .promote, "Promoting canary to stable",
          [makeStableRS ro (X.currentHash ro) ro.desiredReplicas]⟩
  | routed (hstable : status.stableRS ≠ "") (haborted : isAborted ro status = false)
      (hmanual : (ro.annotations promoteAnnotation).isSome = false) (message : String) :
      Outcome X ro status
        ⟨.paused, .pause, message,
          [makeStableRS ro (hashFromRSName status.stableRS) ro.desiredReplicas,
           makeCanaryRS ro (X.currentHash ro) ro.desiredReplicas]⟩

theorem sync_outcome {cfg : ABTestStrategy} (h : sync X cfg ro status = .ok (status', result)) :
    status' = status ∧ Outcome X ro status result := by
  unfold sync at h
  split at h
  · cases h
  dsimp only at h
  split at h
  · cases h; exact ⟨rfl, .create ‹_›⟩
  split at h
  · cases h; exact ⟨rfl, .abort ‹_› ‹_›⟩
  rename_i hs ha
  rw [not_eq_true] at ha
  split at h
  · rename_i hc
    cases h; exact ⟨rfl, .createCanary hs ha hc.1 hc.2⟩
  · rename_i hc
    split at h
    · cases h; exact ⟨rfl, .promote hs ha ‹_› hc⟩
    · rename_i hmanual
      rw [not_eq_true] at hmanual
      cases h; exact ⟨rfl, .routed hs ha hmanual _⟩

end ABTest

/-! ### Mirror -/

namespace Mirror

/-- A mirror `Sync` returns the status as it came. -/
inductive Outcome (X : Externals P) (ro : Rollout P) (status : RolloutStatus) : SyncResult P → Prop
  | create (hstable : status.stableRS = "") :
      Outcome X ro status
        (createResult "Creating stable ReplicaSet" (makeStableRS ro (X.currentHash ro) ro.desiredReplicas))
  | abort (hstable : status.stableRS ≠ "") (haborted : isAborted ro status = true) :
      Outcome X ro status (abortResult ro status (hashFromRSName status.stableRS) ro.desiredReplicas)
  | promote (hstable : status.stableRS ≠ "") (haborted : isAborted ro status = false)
      (hmanual : (ro.annotations promoteAnnotation).isSome = true) (hcanary : status.canaryRS ≠ "") :
      Outcome X ro status
        ⟨.progressing, .promote, "Promoting canary to stable",
          [makeStableRS ro (X.currentHash ro) ro.desiredReplicas]⟩
  | mirrored (hstable : status.stableRS ≠ "") (haborted : isAborted ro status = false)
      (hpaused : status.canaryRS = "" ∨ (ro.annotations promoteAnnotation).isSome = false)
      (phase : RolloutPhase) (action : Action) (message : String)
      (haction : action = .step ∨ action = .pause) (hphase : phase ≠ .healthy) :
      Outcome X ro status
        ⟨phase, action, message,
          [makeStableRS ro (hashFromRSName status.stableRS) ro.desiredReplicas,
           makeCanaryRS ro (X.currentHash ro) (previewReplicas ro.desiredReplicas)]⟩

theorem sync_outcome {cfg : MirrorStrategy} (h : sync X cfg ro status = .ok (status', result)) :
    status' = status ∧ Outcome X ro status result := by
  unfold sync at h
  split at h
  · cases h
  dsimp only at h
  split at h
  · cases h; exact ⟨rfl, .create ‹_›⟩
  split at h
  · cases h; exact ⟨rfl, .abort ‹_› ‹_›⟩
  rename_i hs ha
  rw [not_eq_true] at ha
  split at h
  · cases h; exact ⟨rfl, .mirrored hs ha (.inl ‹_›) _ _ _ (.inl rfl) (by decide)⟩
  · rename_i hcanary
    split at h
    · cases h; exact ⟨rfl, .promote hs ha ‹_› hcanary⟩
    · rename_i hmanual
      rw [not_eq_true] at hmanual
      cases h; exact ⟨rfl, .mirrored hs ha (.inr hmanual) _ _ _ (.inr rfl) (by decide)⟩

end Mirror

/-! ### The strategy behind a result -/

def Strategy.type : Strategy → StrategyType
  | .rolling _ => .rolling
  | .canary _ => .canary
  | .blueGreen _ => .blueGreen
  | .abTest _ => .abTest
  | .mirror _ => .mirror

variable {strategy : Strategy}

theorem newStrategy_type {spec : RolloutStrategy}
    (h : newStrategy spec = .ok strategy) : spec.type = strategy.type := by
  unfold newStrategy at h
  split at h <;> cases h <;> assumption

section
variable (h : strategy.sync X ro status inp = .ok (status', result))
include h

/-- **Every strategy aborts the same way**: through `core.AbortResult`, with the status as it came. -/
theorem Strategy.sync_aborted (hs : status.stableRS ≠ "")
    (ha : isAborted ro status = true) :
    status' = status ∧ ∃ hash, result = abortResult ro status hash ro.desiredReplicas := by
  have hcontra : isAborted ro status ≠ false := by rw [ha]; exact Bool.noConfusion
  cases strategy with
  | rolling cfg =>
    obtain ⟨rfl, hout⟩ := Rolling.sync_outcome h
    cases hout with
    | create hb => exact absurd hb hs
    | abort => exact ⟨rfl, _, rfl⟩
    | converged _ hb => exact absurd hb hcontra
    | complete _ hb => exact absurd hb hcontra
    | progress _ hb => exact absurd hb hcontra
  | canary cfg =>
    obtain ⟨c, -, -, hout⟩ := Canary.sync_outcome h
    cases hout with
    | create hb => exact absurd hb hs
    | abort => exact ⟨rfl, _, rfl⟩
    | createCanary _ hb => exact absurd hb hcontra
    | step _ hb => exact absurd hb hcontra
    | complete _ hb => exact absurd hb hcontra
    | promote _ hb => exact absurd hb hcontra
  | blueGreen cfg =>
    cases BlueGreen.sync_outcome h with
    | create hb => exact absurd hb hs
    | abort => exact ⟨rfl, _, rfl⟩
    | drained _ hb => exact absurd hb hcontra
    | draining _ hb => exact absurd hb hcontra
    | activeMatches _ hb => exact absurd hb hcontra
    | previewed _ hb => exact absurd hb hcontra
    | promote _ hb => exact absurd hb hcontra
    | waiting _ hb => exact absurd hb hcontra
  | abTest cfg =>
    obtain ⟨rfl, hout⟩ := ABTest.sync_outcome h
    cases hout with
    | create hb => exact absurd hb hs
    | abort => exact ⟨rfl, _, rfl⟩
    | createCanary _ hb => exact absurd hb hcontra
    | promote _ hb => exact absurd hb hcontra
    | routed _ hb => exact absurd hb hcontra
  | mirror cfg =>
  obtain ⟨rfl, hout⟩ := Mirror.sync_outcome h
  cases hout with
  | create hb => exact absurd hb hs
  | abort => exact ⟨rfl, _, rfl⟩
  | promote _ hb => exact absurd hb hcontra
  | mirrored _ hb => exact absurd hb hcontra

/-! ### What no `Sync` writes -/

/-- No `Sync` touches the abort flag, the pod hash or the weight; only BlueGreen touches the names and stamps,
and only Canary the step cursor. -/
theorem Strategy.sync_frame : status'.abort = status.abort ∧ status'.currentPodHash = status.currentPodHash ∧
      status'.currentStepWeight = status.currentStepWeight := by
  cases strategy with
  | rolling cfg => obtain ⟨rfl, -⟩ := Rolling.sync_outcome h; exact ⟨rfl, rfl, rfl⟩
  | canary cfg =>
    obtain ⟨c, -, -, hout⟩ := Canary.sync_outcome h
    obtain ⟨i, t, hadv⟩ := Canary.advance_frame c.steps inp.now status
    cases hout with
    | create => exact ⟨rfl, rfl, rfl⟩
    | abort => exact ⟨rfl, rfl, rfl⟩
    | createCanary => exact ⟨rfl, rfl, rfl⟩
    | step => rw [hadv]; exact ⟨rfl, rfl, rfl⟩
    | complete => rw [hadv]; exact ⟨rfl, rfl, rfl⟩
    | promote => rw [hadv]; exact ⟨rfl, rfl, rfl⟩
  | blueGreen cfg => cases BlueGreen.sync_outcome h <;> exact ⟨rfl, rfl, rfl⟩
  | abTest cfg => obtain ⟨rfl, -⟩ := ABTest.sync_outcome h; exact ⟨rfl, rfl, rfl⟩
  | mirror cfg => obtain ⟨rfl, -⟩ := Mirror.sync_outcome h; exact ⟨rfl, rfl, rfl⟩
end

end Paprika.Rollouts
