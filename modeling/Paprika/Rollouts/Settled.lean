import Paprika.Rollouts.Effects

/-!
# One reconcile, without API faults

**`reconcile_cases`**: a reconcile none of whose API calls fails either never got a result (`Quiet`: the
finalizer round, a paused rollout, a configuration the strategy refuses) and left the cluster and the tracked
names as they were, or it carried out the result of `Sync` and left `World.settled`.

The fields of a settled status are read off by simp: the three names come from the actions' labels, the weight
from the step index, the pod hash from the template *after* the actions wrote to its labels, and everything
else from the status `Sync` returned.
-/

namespace Paprika.Rollouts

open Lib.Run

variable {P : Type} (X : Externals P) (w : World P) (inp : ReconcileInput)

/-! ### Latching and observing -/

theorem latchAbort_frame (ro : Rollout P) (status : RolloutStatus) : latchAbort X ro status
      = { status with abort := (latchAbort X ro status).abort
                      currentStepIndex := (latchAbort X ro status).currentStepIndex
                      currentStepStartedAt := (latchAbort X ro status).currentStepStartedAt } := by
  unfold latchAbort
  split
  · rfl
  · split
    · rfl
    · split <;> rfl

variable {get : Get P} {st st' : RolloutStatus}

theorem observeStable_frame (h : observeStable get st = .ok st') : ∃ n, st' = { st with stableReadyReplicas := n } := by
  unfold observeStable at h
  split at h
  · cases h; exact ⟨_, rfl⟩
  · split at h
    · cases h
    · cases h; exact ⟨_, rfl⟩

theorem observeCanary_frame (h : observeCanary get st = .ok st') : ∃ n, st' = { st with canaryReadyReplicas := n } := by
  unfold observeCanary at h
  split at h
  · cases h; exact ⟨_, rfl⟩
  · split at h
    · cases h
    · cases h; exact ⟨_, rfl⟩

theorem observePrevious_frame
    (h : observePrevious get st = .ok st') : ∃ n, st' = { st with canaryReadyReplicas := n } := by
  unfold observePrevious at h
  split at h
  · cases h; exact ⟨_, rfl⟩
  · split at h
    · cases h
    · cases h; exact ⟨_, rfl⟩

theorem stampPreviewHealthy_frame (ro : Rollout P) (now : Int) (st : RolloutStatus) :
    ∃ t, stampPreviewHealthy ro now st = { st with previewHealthyAt := t } := by
  unfold stampPreviewHealthy
  split
  · dsimp only
    split
    · exact ⟨_, rfl⟩
    · exact ⟨st.previewHealthyAt, rfl⟩
  · exact ⟨st.previewHealthyAt, rfl⟩

theorem observe_frame (get : Get P) (ro : Rollout P) (now : Int) (status : RolloutStatus) :
    ∃ stable canary healthy, observeReadyReplicas get ro now status
      = { status with stableReadyReplicas := stable, canaryReadyReplicas := canary, previewHealthyAt := healthy } := by
  unfold observeReadyReplicas
  cases h1 : observeStable get status with
  | error e => exact ⟨_, _, _, rfl⟩
  | ok st1 =>
  obtain ⟨n1, rfl⟩ := observeStable_frame h1
  dsimp only
  cases h2 : observeCanary get { status with stableReadyReplicas := n1 } with
  | error e => exact ⟨_, _, _, rfl⟩
  | ok st2 =>
  obtain ⟨n2, rfl⟩ := observeCanary_frame h2
  obtain ⟨t, ht⟩ := stampPreviewHealthy_frame ro now
    { status with stableReadyReplicas := n1, canaryReadyReplicas := n2 }
  dsimp only at ht ⊢
  rw [ht]
  cases h3 : observePrevious get
      { status with stableReadyReplicas := n1, canaryReadyReplicas := n2, previewHealthyAt := t } with
  | error e => exact ⟨_, _, _, rfl⟩
  | ok st3 =>
    obtain ⟨n3, rfl⟩ := observePrevious_frame h3
    exact ⟨_, _, _, rfl⟩

theorem stampPreviewHealthy_eq (ro : Rollout P) (now : Int) (st : RolloutStatus) (stable : Int) :
    stampPreviewHealthy ro now { st with stableReadyReplicas := stable }
      = { stampPreviewHealthy ro now st with stableReadyReplicas := stable } := by
  unfold stampPreviewHealthy
  split
  · dsimp only
    split <;> rfl
  · rfl

/-- The canary's ready count, as the preview stamp sees it. -/
def canaryReady (c : Cluster P) (status : RolloutStatus) : Int :=
  if status.canaryRS = "" then status.canaryReadyReplicas else readyOf (c.lookup status.canaryRS)

/-- **Observing without faults.**  The ready counts are read through the two names; during a drain the
previous active ReplicaSet's count replaces the canary's, after the preview stamp was decided. -/
theorem observe_total (c : Cluster P) (ro : Rollout P) (now : Int) (status : RolloutStatus) :
    ∃ stable, observeReadyReplicas (fun name => .ok (c.lookup name)) ro now status
      = { status with
          stableReadyReplicas := stable
          canaryReadyReplicas :=
            if status.previousActiveRS = "" then canaryReady c status
            else readyOf (c.lookup status.previousActiveRS)
          previewHealthyAt :=
            (stampPreviewHealthy ro now
              { status with canaryReadyReplicas := canaryReady c status }).previewHealthyAt } := by
  have hstable : ∃ stable, observeStable (fun name => .ok (c.lookup name)) status
      = .ok { status with stableReadyReplicas := stable } := by
    unfold observeStable
    split
    · exact ⟨status.stableReadyReplicas, rfl⟩
    · exact ⟨_, rfl⟩
  obtain ⟨stable, hstable⟩ := hstable
  have hcanary : observeCanary (fun name => .ok (c.lookup name))
      { status with stableReadyReplicas := stable }
      = .ok { status with stableReadyReplicas := stable, canaryReadyReplicas := canaryReady c status } := by
    unfold observeCanary canaryReady
    split <;> rfl
  have hstamp := stampPreviewHealthy_eq ro now
    { status with canaryReadyReplicas := canaryReady c status } stable
  obtain ⟨t, ht⟩ := stampPreviewHealthy_frame ro now
    { status with canaryReadyReplicas := canaryReady c status }
  refine ⟨stable, ?_⟩
  rw [ht] at hstamp ⊢
  simp only [observeReadyReplicas, hstable]
  simp only [hcanary]
  rw [hstamp]
  unfold observePrevious
  by_cases h : status.previousActiveRS = ""
  · simp only [h, if_true]
  · simp only [h, if_false]
/-- What `Sync` is given: the persisted status with the latched abort, step cursor, and observations. -/
theorem observed_frame : ∃ stable canary healthy, w.observed X inp
      = { w.status with
          abort := (latchAbort X w.rollout w.status).abort
          currentStepIndex := (latchAbort X w.rollout w.status).currentStepIndex
          currentStepStartedAt := (latchAbort X w.rollout w.status).currentStepStartedAt
          stableReadyReplicas := stable
          canaryReadyReplicas := canary
          previewHealthyAt := healthy } := by
  obtain ⟨s, c, h, heq⟩ := observe_frame (w.get inp.faults) w.effective inp.observedAt
    (latchAbort X w.rollout w.status)
  refine ⟨s, c, h, ?_⟩
  rw [World.observed, heq]
  conv_lhs => rw [latchAbort_frame]

@[simp] theorem observed_stableRS : (w.observed X inp).stableRS = w.status.stableRS := by
  obtain ⟨s, c, h, heq⟩ := observed_frame X w inp; rw [heq]

@[simp] theorem observed_canaryRS : (w.observed X inp).canaryRS = w.status.canaryRS := by
  obtain ⟨s, c, h, heq⟩ := observed_frame X w inp; rw [heq]

@[simp] theorem observed_previousActiveRS : (w.observed X inp).previousActiveRS = w.status.previousActiveRS := by
  obtain ⟨s, c, h, heq⟩ := observed_frame X w inp; rw [heq]

@[simp] theorem observed_promotedAt : (w.observed X inp).promotedAt = w.status.promotedAt := by
  obtain ⟨s, c, h, heq⟩ := observed_frame X w inp; rw [heq]

@[simp] theorem observed_currentPodHash : (w.observed X inp).currentPodHash = w.status.currentPodHash := by
  obtain ⟨s, c, h, heq⟩ := observed_frame X w inp; rw [heq]

@[simp] theorem observed_currentStepWeight : (w.observed X inp).currentStepWeight = w.status.currentStepWeight := by
  obtain ⟨s, c, h, heq⟩ := observed_frame X w inp; rw [heq]

@[simp] theorem observed_abort : (w.observed X inp).abort = (latchAbort X w.rollout w.status).abort := by
  obtain ⟨s, c, h, heq⟩ := observed_frame X w inp; rw [heq]

@[simp] theorem observed_currentStepIndex :
    (w.observed X inp).currentStepIndex = (latchAbort X w.rollout w.status).currentStepIndex := by
  obtain ⟨s, c, h, heq⟩ := observed_frame X w inp; rw [heq]

@[simp] theorem observed_currentStepStartedAt : (w.observed X inp).currentStepStartedAt
      = (latchAbort X w.rollout w.status).currentStepStartedAt := by
  obtain ⟨s, c, h, heq⟩ := observed_frame X w inp; rw [heq]

theorem observed_tracked : (w.observed X inp).tracked = w.status.tracked := by simp [RolloutStatus.tracked]

/-! ### Observing without faults -/

section
variable {inp}

/-- The ready count of the ReplicaSet named by `CanaryRS`; without one, the last count observed. -/
def World.canaryReady (w : World P) : Int := Paprika.Rollouts.canaryReady w.replicaSets w.status

section
variable (hf : inp.faults = Faults.none)
include hf

theorem observed_eq : ∃ stable, w.observed X inp
      = { w.status with
          abort := (latchAbort X w.rollout w.status).abort
          currentStepIndex := (latchAbort X w.rollout w.status).currentStepIndex
          currentStepStartedAt := (latchAbort X w.rollout w.status).currentStepStartedAt
          stableReadyReplicas := stable
          canaryReadyReplicas :=
            if w.status.previousActiveRS = "" then w.canaryReady
            else readyOf (w.replicaSets.lookup w.status.previousActiveRS)
          previewHealthyAt :=
            (stampPreviewHealthy w.effective inp.observedAt
              { w.status with canaryReadyReplicas := w.canaryReady }).previewHealthyAt } := by
  have hget : w.get inp.faults = fun name => .ok (w.replicaSets.lookup name) := by rw [hf]; rfl
  obtain ⟨stable, htotal⟩ := observe_total w.replicaSets w.effective inp.observedAt
    (latchAbort X w.rollout w.status)
  refine ⟨stable, ?_⟩
  rw [World.observed, hget, htotal, latchAbort_frame]
  -- the stamp reads neither the abort flag nor the step cursor
  have hstamp : ∀ (ab : Bool) (i : Nat) (sa : Option Int), (stampPreviewHealthy w.effective inp.observedAt
        { w.status with abort := ab, currentStepIndex := i, currentStepStartedAt := sa,
                        canaryReadyReplicas := w.canaryReady }).previewHealthyAt
      = (stampPreviewHealthy w.effective inp.observedAt
          { w.status with canaryReadyReplicas := w.canaryReady }).previewHealthyAt := by
    intro ab i sa
    unfold stampPreviewHealthy
    split
    · dsimp only
      split <;> rfl
    · rfl
  exact congrArg (fun t => RolloutStatus.mk _ _ _ _ _ _ _ _ _ _ t _ _ _ _ _ _) (hstamp _ _ _)

theorem observed_canaryReadyReplicas : (w.observed X inp).canaryReadyReplicas
      = if w.status.previousActiveRS = "" then w.canaryReady
        else readyOf (w.replicaSets.lookup w.status.previousActiveRS) := by
  obtain ⟨s, heq⟩ := observed_eq X w hf; rw [heq]

theorem observed_previewHealthyAt : (w.observed X inp).previewHealthyAt
      = (stampPreviewHealthy w.effective inp.observedAt
          { w.status with canaryReadyReplicas := w.canaryReady }).previewHealthyAt := by
  obtain ⟨s, heq⟩ := observed_eq X w hf; rw [heq]
end

end

/-! ### The Rollout in memory -/

theorem effective_frame : w.effective = { applyDefaults w.rollout with
      spec := { (applyDefaults w.rollout).spec with template := w.effective.spec.template } } := by
  unfold World.effective resolveTarget
  split
  · rfl
  · split
    · rfl
    · split <;> rfl

@[simp] theorem effective_name : w.effective.name = w.rollout.name := by rw [effective_frame]; rfl

@[simp] theorem effective_annotations : w.effective.annotations = w.rollout.annotations := by
  rw [effective_frame]; rfl

@[simp] theorem effective_desiredReplicas : w.effective.desiredReplicas = w.rollout.desiredReplicas := by
  rw [effective_frame]; rfl

@[simp] theorem effective_trafficRouter : w.effective.spec.trafficRouter = w.rollout.spec.trafficRouter := by
  rw [effective_frame]; rfl

theorem effective_strategy : w.effective.spec.strategy = setServiceDefaults w.rollout.spec.strategy w.rollout.name := by
  rw [effective_frame]; rfl

@[simp] theorem setServiceDefaults_type (s : RolloutStrategy) (name : String) :
    (setServiceDefaults s name).type = s.type := by
  unfold setServiceDefaults
  split <;> rfl

@[simp] theorem effective_strategyType : w.effective.spec.strategy.type = w.rollout.spec.strategy.type := by
  rw [effective_strategy, setServiceDefaults_type]

@[simp] theorem effective_rsName (marker hash : String) :
    rsName w.effective marker hash = rsName w.rollout marker hash := by
  simp [rsName]

theorem effective_currentHash : X.currentHash w.effective = w.hash X := rfl

/-! ### The settled world -/

section
variable [Inhabited P]

/-- The cluster and the template's label map after a result's actions. -/
def World.executed (w : World P) (inp : ReconcileInput) (result : SyncResult P) : Exec P :=
  executeAll inp.createdAt result.replicaSets ⟨w.replicaSets, w.effective.spec.template.labels⟩

/-- The world after a result was carried out and the status patched. -/
def World.settled (w : World P) (inp : ReconcileInput) (status : RolloutStatus) (result : SyncResult P) : World P :=
  { w with
    replicaSets := pruneReplicaSets w.effective status (w.executed inp result).cluster
    services := ensureServices w.effective w.services
    status := updateStatusFromResult X w.effective (w.executed inp result).labels result
      (updateServiceStatus w.effective status) }

/-- The router calls made while a result is carried out. -/
def World.calls (w : World P) (status : RolloutStatus) (result : SyncResult P) : List TrafficCall :=
  configureTraffic w.dynamicClient w.effective (updateServiceStatus w.effective status) result.action

omit [Inhabited P] in
theorem updateServiceStatus_frame (ro : Rollout P) (status : RolloutStatus) :
    ∃ active preview, updateServiceStatus ro status
      = { status with activeService := active, previewService := preview } := by
  unfold updateServiceStatus
  split
  · exact ⟨_, _, rfl⟩
  · exact ⟨status.activeService, status.previewService, rfl⟩

theorem settled_status_frame (status : RolloutStatus) (result : SyncResult P) :
    ∃ active preview weight, (w.settled X inp status result).status
      = { status with
          phase := result.phase
          message := result.message
          observedGeneration := w.effective.generation
          currentPodHash := X.template { w.effective.spec.template.podTemplateSpec with
            labels := (w.executed inp result).labels }
          stableRS := (status.tracked.trackAll result.replicaSets).stable
          canaryRS := (status.tracked.trackAll result.replicaSets).canary
          previousActiveRS := (status.tracked.trackAll result.replicaSets).previous
          activeService := active
          previewService := preview
          currentStepWeight := weight } := by
  obtain ⟨active, preview, hserv⟩ := updateServiceStatus_frame w.effective status
  obtain ⟨weight, hupd⟩ := updateStatusFromResult_frame X w.effective (w.executed inp result).labels result
    { status with activeService := active, previewService := preview }
  refine ⟨active, preview, weight, ?_⟩
  show updateStatusFromResult X w.effective (w.executed inp result).labels result
    (updateServiceStatus w.effective status) = _
  rw [hserv, hupd]
  rfl

variable (status : RolloutStatus) (result : SyncResult P)

@[simp] theorem settled_rollout : (w.settled X inp status result).rollout = w.rollout := rfl

@[simp] theorem settled_stableRS : (w.settled X inp status result).status.stableRS
      = (status.tracked.trackAll result.replicaSets).stable := by
  obtain ⟨a, p, n, heq⟩ := settled_status_frame X w inp status result; rw [heq]

@[simp] theorem settled_canaryRS : (w.settled X inp status result).status.canaryRS
      = (status.tracked.trackAll result.replicaSets).canary := by
  obtain ⟨a, p, n, heq⟩ := settled_status_frame X w inp status result; rw [heq]

@[simp] theorem settled_previousActiveRS : (w.settled X inp status result).status.previousActiveRS
      = (status.tracked.trackAll result.replicaSets).previous := by
  obtain ⟨a, p, n, heq⟩ := settled_status_frame X w inp status result; rw [heq]

theorem settled_tracked :
    (w.settled X inp status result).status.tracked = status.tracked.trackAll result.replicaSets := by
  rw [RolloutStatus.tracked, settled_stableRS, settled_canaryRS, settled_previousActiveRS]

@[simp] theorem settled_promotedAt : (w.settled X inp status result).status.promotedAt = status.promotedAt := by
  obtain ⟨a, p, n, heq⟩ := settled_status_frame X w inp status result; rw [heq]

@[simp] theorem settled_previewHealthyAt :
    (w.settled X inp status result).status.previewHealthyAt = status.previewHealthyAt := by
  obtain ⟨a, p, n, heq⟩ := settled_status_frame X w inp status result; rw [heq]

@[simp] theorem settled_abort : (w.settled X inp status result).status.abort = status.abort := by
  obtain ⟨a, p, n, heq⟩ := settled_status_frame X w inp status result; rw [heq]

@[simp] theorem settled_currentStepIndex :
    (w.settled X inp status result).status.currentStepIndex = status.currentStepIndex := by
  obtain ⟨a, p, n, heq⟩ := settled_status_frame X w inp status result; rw [heq]

@[simp] theorem settled_currentStepStartedAt :
    (w.settled X inp status result).status.currentStepStartedAt = status.currentStepStartedAt := by
  obtain ⟨a, p, n, heq⟩ := settled_status_frame X w inp status result; rw [heq]

@[simp] theorem settled_currentPodHash : (w.settled X inp status result).status.currentPodHash
      = X.template { w.effective.spec.template.podTemplateSpec with
          labels := (w.executed inp result).labels } := by
  obtain ⟨a, p, n, heq⟩ := settled_status_frame X w inp status result; rw [heq]

variable {X w inp status result}

theorem lookup_settled_other {name : String} (hne : ∀ a ∈ result.replicaSets, a.name ≠ name)
    (hp : isProtected status name = true) :
    (w.settled X inp status result).replicaSets.lookup name = w.replicaSets.lookup name := by
  rw [World.settled, lookup_prune_protected hp]
  exact lookup_executeAll_ne inp.createdAt hne _
end

/-! ### Reconciles that get no result -/

/-- A status that a reconcile without a result may leave: the names, the stamps and the pod hash as they
were, the abort flag and the step cursor as they were or, once it got past the early returns, as latched. -/
structure Quiet (w : World P) (status : RolloutStatus) : Prop where
  stableRS : status.stableRS = w.status.stableRS
  canaryRS : status.canaryRS = w.status.canaryRS
  previousActiveRS : status.previousActiveRS = w.status.previousActiveRS
  promotedAt : status.promotedAt = w.status.promotedAt
  previewHealthyAt : status.previewHealthyAt = w.status.previewHealthyAt
  currentPodHash : status.currentPodHash = w.status.currentPodHash
  currentStepWeight : status.currentStepWeight = w.status.currentStepWeight
  cursor : ∃ latched, (latched = w.status ∨ latched = latchAbort X w.rollout w.status ∧
      w.rollout.finalizer = true ∧ w.rollout.spec.paused = false) ∧
    status.abort = latched.abort ∧ status.currentStepIndex = latched.currentStepIndex ∧
    status.currentStepStartedAt = latched.currentStepStartedAt

theorem Quiet.tracked {status : RolloutStatus} (h : Quiet X w status) : status.tracked = w.status.tracked := by
  rw [RolloutStatus.tracked, h.stableRS, h.canaryRS, h.previousActiveRS]
  rfl

variable {X w} in
theorem Quiet.unlatched {status : RolloutStatus} (h : Quiet X w status)
    (hlatch : latchAbort X w.rollout w.status = w.status) :
    status.abort = w.status.abort ∧ status.currentStepIndex = w.status.currentStepIndex ∧
      status.currentStepStartedAt = w.status.currentStepStartedAt := by
  obtain ⟨latched, hlatched, hcursor⟩ := h.cursor
  have heq : latched = w.status := by
    rcases hlatched with h | ⟨h, -⟩
    · exact h
    · exact h.trans hlatch
  rw [heq] at hcursor
  exact hcursor

theorem orDefault_ne_empty (x fallback : String) (h : fallback ≠ "") : orDefault x fallback ≠ "" := by
  unfold orDefault
  split
  · exact h
  · assumption

theorem append_ne_empty (name suffix : String) (h : suffix ≠ "") : name ++ suffix ≠ "" := by
  intro happ
  have hlist := congrArg String.toList happ
  simp at hlist
  exact h hlist.2

theorem sync_error_healthy (hf : inp.faults = Faults.none) {strategy : Strategy} {err : String} {i : SyncInputs} (hs : newStrategy w.effective.spec.strategy = .ok strategy)
    (he : strategy.sync X w.effective st i = .error err) :
    (w.observed X inp).previewHealthyAt = w.status.previewHealthyAt := by
  rw [observed_previewHealthyAt X w hf]
  unfold stampPreviewHealthy
  split
  · rename_i cfg htype hcfg
    -- the defaults fill in an active service, which is all BlueGreen asks for
    exfalso
    simp only [newStrategy, htype, hcfg, Option.getD_some, Except.ok.injEq] at hs
    subst hs
    rw [effective_strategy, setServiceDefaults_type] at htype
    have hactive : cfg.activeService ≠ "" := by
      simp only [effective_strategy, setServiceDefaults, htype] at hcfg
      obtain ⟨c, -, hc⟩ := Option.map_eq_some_iff.mp hcfg
      rw [← hc]
      exact orDefault_ne_empty _ _ (append_ne_empty _ _ (by decide))
    simp only [Strategy.sync, BlueGreen.sync, hactive, if_false] at he
    split at he
    · cases he
    split at he
    · cases he
    split at he
    · cases he
    split at he
    · split at he <;> cases he
    · split at he
      · cases he
      · split at he <;> cases he
  · rfl

variable {inp} [Inhabited P]

/-- Why a reconcile without API faults gets no result. -/
def Refused (w : World P) (inp : ReconcileInput) : Prop :=
  w.rollout.finalizer = false ∨ w.rollout.spec.paused = true ∨
    (∃ err, newStrategy w.effective.spec.strategy = .error err) ∨
    ∃ strategy err, newStrategy w.effective.spec.strategy = .ok strategy ∧
      strategy.sync X w.effective (w.observed X inp) (w.inputs X inp) = .error err

/-- **One reconcile without API faults.** -/
theorem reconcile_cases (hf : inp.faults = Faults.none) :
    (∃ status, Quiet X w status ∧ Refused X w inp ∧ reconcileLoaded X inp w
        = ⟨{ w with rollout := { w.rollout with finalizer := true }, status := status }, none, []⟩) ∨
    ∃ strategy status result, w.rollout.finalizer = true ∧ w.rollout.spec.paused = false ∧
      newStrategy w.effective.spec.strategy = .ok strategy ∧
      strategy.sync X w.effective (w.observed X inp) (w.inputs X inp) = .ok (status, result) ∧
      reconcileLoaded X inp w
        = ⟨w.settled X inp status result, some (status, result), w.calls status result⟩ := by
  have hpatch : ∀ (v : World P) st, patchStatus inp.faults v st = { v with status := st } := by
    intro v st; rw [hf]; rfl
  by_cases hfin : w.rollout.finalizer = true
  swap
  · left
    refine ⟨w.status, ⟨rfl, rfl, rfl, rfl, rfl, rfl, rfl, w.status, .inl rfl, rfl, rfl, rfl⟩,
      .inl (Bool.not_eq_true _ ▸ hfin), ?_⟩
    simp [reconcileLoaded, hfin]
  have hself : { w.rollout with finalizer := true } = w.rollout := by rw [← hfin]
  by_cases hpaused : w.rollout.spec.paused = true
  · left
    refine ⟨{ w.status with phase := .paused },
      ⟨rfl, rfl, rfl, rfl, rfl, rfl, rfl, w.status, .inl rfl, rfl, rfl, rfl⟩, .inr (.inl hpaused), ?_⟩
    simp [reconcileLoaded, hfin, hpaused, hpatch, hself]
  have htarget : inp.faults.resolveTarget = none := by rw [hf]; rfl
  have heff : resolveTarget w.deployment (applyDefaults w.rollout) = w.effective := rfl
  have hobs : observeReadyReplicas (w.get inp.faults) w.effective inp.observedAt
      (latchAbort X w.rollout w.status) = w.observed X inp := rfl
  cases hs : newStrategy w.effective.spec.strategy with
  | error err =>
    left
    refine ⟨{ latchAbort X w.rollout w.status with phase := .failed, message := err }, ?_,
      .inr (.inr (.inl ⟨err, hs⟩)), ?_⟩
    · rw [latchAbort_frame]
      exact ⟨rfl, rfl, rfl, rfl, rfl, rfl, rfl, _, .inr ⟨rfl, hfin, Bool.not_eq_true _ ▸ hpaused⟩, rfl, rfl,
        rfl⟩
    · simp [reconcileLoaded, hfin, hpaused, htarget, heff, hs, failRollout, hpatch, hself]
  | ok strategy =>
  cases hsync : strategy.sync X w.effective (w.observed X inp) (w.inputs X inp) with
  | error err =>
    left
    refine ⟨{ w.observed X inp with phase := .failed, message := err }, ?_,
      .inr (.inr (.inr ⟨strategy, err, hs, hsync⟩)), ?_⟩
    · exact ⟨observed_stableRS X w inp, observed_canaryRS X w inp, observed_previousActiveRS X w inp,
        observed_promotedAt X w inp, sync_error_healthy X w inp hf hs hsync,
        observed_currentPodHash X w inp, observed_currentStepWeight X w inp,
        latchAbort X w.rollout w.status, .inr ⟨rfl, hfin, Bool.not_eq_true _ ▸ hpaused⟩,
        observed_abort X w inp,
        observed_currentStepIndex X w inp, observed_currentStepStartedAt X w inp⟩
    · have hsync' := hsync
      rw [World.inputs] at hsync'
      simp [reconcileLoaded, hfin, hpaused, htarget, heff, hs, hobs, hsync', failRollout, hpatch,
        hself]
  | ok res =>
    obtain ⟨status, result⟩ := res
    right
    refine ⟨strategy, status, result, hfin, Bool.not_eq_true _ ▸ hpaused, rfl, hsync, ?_⟩
    have hsync' := hsync
    rw [World.inputs] at hsync'
    have hexec : executeReplicaSetActions inp.faults.execute inp.createdAt result.replicaSets
        ⟨w.replicaSets, w.effective.spec.template.labels⟩ = (w.executed inp result, none) := by
      rw [hf]; exact executeReplicaSetActions_eq ..
    have hserv : inp.faults.ensureServices = none := by rw [hf]; rfl
    simp only [reconcileLoaded, hfin, hpaused, htarget, heff, hs, hobs, hsync', carryOut, hexec,
      hserv, hpatch]
    rfl

end Paprika.Rollouts
