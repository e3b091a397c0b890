import Paprika.Rollouts.Runs

/-!
# Reconciles whose calls may fail

A failing call ends a reconcile early, and `failRollout` persists the status as the stages before left it — unless
writing the status fails as well.  **`persisted_step`** lists what a reconcile can leave in the status, whatever
fails: nothing new, the paused phase, a failure, or the status after a result was carried out.
-/

namespace Paprika.Rollouts

open Lib.Run

variable {P : Type} [Inhabited P] (X : Externals P) (w : World P) (inp : ReconcileInput)

/-- `Sync` returned this status and result in the reconcile. -/
def Synced (status : RolloutStatus) (result : SyncResult P) : Prop :=
  ∃ strategy, newStrategy w.effective.spec.strategy = .ok strategy ∧
    strategy.sync X w.effective (w.observed X inp) (w.inputs X inp) = .ok (status, result)

/-- The calls and checks before the status update all succeed. -/
def Completes : Prop :=
  inp.faults.resolveTarget = none ∧ inp.faults.ensureServices = none ∧
    match newStrategy w.effective.spec.strategy with
    | .error _ => False
    | .ok strategy =>
      match strategy.sync X w.effective (w.observed X inp) (w.inputs X inp) with
      | .error _ => False
      | .ok (_, result) => ∀ a ∈ result.replicaSets, inp.faults.execute a.name = none

instance : Decidable (Completes X w inp) := by
  unfold Completes
  cases newStrategy w.effective.spec.strategy with
  | error err => infer_instance
  | ok strategy =>
    dsimp only
    cases strategy.sync X w.effective (w.observed X inp) (w.inputs X inp) <;> infer_instance

/-- What a reconcile may leave in the status. -/
inductive Persisted : RolloutStatus → Prop
  | kept : Persisted w.status
  | paused (hpaused : w.rollout.spec.paused = true) : Persisted { w.status with phase := .paused }
  | failed (hlive : w.rollout.finalizer = true ∧ w.rollout.spec.paused = false)
      (hpatch : inp.faults.patchStatus = none) (hfails : ¬Completes X w inp) (status : RolloutStatus)
      (err : String)
      (hstage : status = latchAbort X w.rollout w.status ∨ status = w.observed X inp ∨
        ∃ result, Synced X w inp status result) :
      Persisted { status with phase := .failed, message := err }
  | carried (hlive : w.rollout.finalizer = true ∧ w.rollout.spec.paused = false)
      (hpatch : inp.faults.patchStatus = none) (hcompletes : Completes X w inp) (status : RolloutStatus)
      (result : SyncResult P) (hsync : Synced X w inp status result) :
      Persisted (w.settled X inp status result).status

variable {actions : List (ReplicaSetAction P)} {createdAt : Int} {fault : String → Option String}

theorem executeReplicaSetActions_none {x : Exec P}
    (h : (executeReplicaSetActions fault createdAt actions x).2 = none) :
    (executeReplicaSetActions fault createdAt actions x).1 = executeAll createdAt actions x ∧
      ∀ a ∈ actions, fault a.name = none := by
  induction actions generalizing x with
  | nil => exact ⟨rfl, fun a ha => (nomatch ha)⟩
  | cons a actions ih =>
    rw [executeReplicaSetActions] at h ⊢
    cases hf : fault a.name with
    | some err => rw [hf] at h; cases h
    | none =>
    rw [hf] at h
    obtain ⟨heq, hall⟩ := ih h
    refine ⟨heq, fun b hb => ?_⟩
    rcases List.mem_cons.mp hb with rfl | hb
    · exact hf
    · exact hall b hb

theorem executeReplicaSetActions_some {x : Exec P} {err : String}
    (h : (executeReplicaSetActions fault createdAt actions x).2 = some err) :
    ¬∀ a ∈ actions, fault a.name = none := by
  induction actions generalizing x with
  | nil => cases h
  | cons a actions ih =>
    intro hall
    rw [executeReplicaSetActions, hall a List.mem_cons_self] at h
    exact ih h fun b hb => hall b (List.mem_cons_of_mem a hb)

variable {X w inp}

omit [Inhabited P] in
theorem patchStatus_status (faults : Faults) (v : World P) (status : RolloutStatus) :
    (patchStatus faults v status).status = v.status ∨
      faults.patchStatus = none ∧ (patchStatus faults v status).status = status := by
  unfold patchStatus
  split
  · exact .inl rfl
  · exact .inr ⟨‹_›, rfl⟩

theorem Persisted.patch {v : World P} {status : RolloutStatus} (hv : v.status = w.status)
    (h : inp.faults.patchStatus = none → Persisted X w inp status) :
    Persisted X w inp (patchStatus inp.faults v status).status := by
  rcases patchStatus_status inp.faults v status with heq | ⟨hpatch, heq⟩
  · rw [heq, hv]; exact .kept
  · rw [heq]; exact h hpatch

variable (X w inp) in
/-- **What a reconcile leaves in the status.** -/
theorem persisted_step : Persisted X w inp (step X w (.reconcile inp)).status := by
  have hobs : observeReadyReplicas (w.get inp.faults) w.effective inp.observedAt
      (latchAbort X w.rollout w.status) = w.observed X inp := rfl
  have heff : resolveTarget w.deployment (applyDefaults w.rollout) = w.effective := rfl
  have hinputs : (⟨inp.now, (w.observed X inp).stableReadyReplicas, (w.observed X inp).canaryReadyReplicas⟩
      : SyncInputs) = w.inputs X inp := rfl
  rw [step, reconcileLoaded]
  dsimp only
  rw [heff, hobs, hinputs]
  split
  · exact .kept
  rename_i hfin
  rw [Bool.not_eq_true, Bool.not_eq_false'] at hfin
  split
  · exact Persisted.patch rfl fun _ => .paused ‹_›
  rename_i hpaused
  rw [Bool.not_eq_true] at hpaused
  split
  · rename_i err htarget
    exact Persisted.patch rfl fun hpatch => .failed ⟨hfin, hpaused⟩ hpatch
      (fun h => by rw [h.1] at htarget; cases htarget) _ _ (.inl rfl)
  rename_i htarget
  split
  · rename_i err hs
    exact Persisted.patch rfl fun hpatch => .failed ⟨hfin, hpaused⟩ hpatch
      (fun h => by rw [Completes, hs] at h; exact h.2.2) _ _ (.inl rfl)
  rename_i strategy hs
  split
  · rename_i err hsync
    exact Persisted.patch rfl fun hpatch => .failed ⟨hfin, hpaused⟩ hpatch
      (fun h => by rw [Completes, hs] at h; simp only [hsync] at h; exact h.2.2) _ _ (.inr (.inl rfl))
  rename_i status result hsync
  have hsynced : Synced X w inp status result := ⟨strategy, hs, hsync⟩
  have hcompl : Completes X w inp ↔ inp.faults.resolveTarget = none ∧ inp.faults.ensureServices = none ∧
      ∀ a ∈ result.replicaSets, inp.faults.execute a.name = none := by
    rw [Completes, hs]
    simp only [hsync]
  unfold carryOut
  dsimp only
  split
  · rename_i err hexec
    exact Persisted.patch rfl fun hpatch => .failed ⟨hfin, hpaused⟩ hpatch
      (fun h => executeReplicaSetActions_some hexec (hcompl.mp h).2.2) _ _ (.inr (.inr ⟨result, hsynced⟩))
  · rename_i hexec
    obtain ⟨hall, hnone⟩ := executeReplicaSetActions_none hexec
    rw [hall]
    split
    · rename_i err hserv
      exact Persisted.patch rfl fun hpatch => .failed ⟨hfin, hpaused⟩ hpatch
        (fun h => by rw [(hcompl.mp h).2.1] at hserv; cases hserv) _ _ (.inr (.inr ⟨result, hsynced⟩))
    · rename_i hserv
      exact Persisted.patch rfl fun hpatch => .carried ⟨hfin, hpaused⟩ hpatch
        (hcompl.mpr ⟨htarget, hserv, hnone⟩) status result hsynced

variable (X w inp) in
/-- **What a reconcile reports**: nothing, or the result of `Sync`, with the router calls that belong to it
unless a call before them failed. -/
theorem reported_cases : (reconcileLoaded X inp w).synced = none ∧ (reconcileLoaded X inp w).calls = [] ∨
    ∃ status result, Synced X w inp status result ∧ (reconcileLoaded X inp w).synced = some (status, result) ∧
      ((reconcileLoaded X inp w).calls = [] ∨ (reconcileLoaded X inp w).calls = w.calls status result) := by
  have hobs : observeReadyReplicas (w.get inp.faults) w.effective inp.observedAt
      (latchAbort X w.rollout w.status) = w.observed X inp := rfl
  have heff : resolveTarget w.deployment (applyDefaults w.rollout) = w.effective := rfl
  rw [reconcileLoaded]
  dsimp only
  rw [heff, hobs]
  split
  · exact .inl ⟨rfl, rfl⟩
  split
  · exact .inl ⟨rfl, rfl⟩
  split
  · exact .inl ⟨rfl, rfl⟩
  split
  · exact .inl ⟨rfl, rfl⟩
  · rename_i strategy hs
    split
    · exact .inl ⟨rfl, rfl⟩
    · rename_i status result hsync
      refine .inr ⟨status, result, ⟨strategy, hs, hsync⟩, ?_⟩
      unfold carryOut
      dsimp only
      split
      · exact ⟨rfl, .inl rfl⟩
      · split
        · exact ⟨rfl, .inl rfl⟩
        · exact ⟨rfl, .inr rfl⟩

/-- What every single action preserves, a list of actions preserves, also when a call fails in the middle. -/
theorem executeReplicaSetActions_invariant {motive : Exec P → Prop}
    (haction : ∀ a ∈ actions, ∀ x, motive x → motive (executeAction createdAt a x)) :
    ∀ x, motive x → motive (executeReplicaSetActions fault createdAt actions x).1 := by
  induction actions with
  | nil => intro x hx; exact hx
  | cons a actions ih =>
    intro x hx
    rw [executeReplicaSetActions]
    split
    · exact hx
    · exact ih (fun b hb => haction b (List.mem_cons_of_mem a hb)) _ (haction a List.mem_cons_self x hx)

omit [Inhabited P] in
@[simp] theorem patchStatus_replicaSets (faults : Faults) (v : World P) (status : RolloutStatus) :
    (patchStatus faults v status).replicaSets = v.replicaSets := by
  unfold patchStatus
  split <;> rfl

variable (X w inp) in
/-- **What a reconcile leaves in the cluster**: what was there, or what the actions of its result made of it, pruned
unless a call failed before. -/
theorem cluster_step : (step X w (.reconcile inp)).replicaSets = w.replicaSets ∨
    ∃ status result, Synced X w inp status result ∧ ((step X w (.reconcile inp)).replicaSets
        = (executeReplicaSetActions inp.faults.execute inp.createdAt result.replicaSets
            ⟨w.replicaSets, w.effective.spec.template.labels⟩).1.cluster ∨
      (step X w (.reconcile inp)).replicaSets
        = pruneReplicaSets w.effective status
            (executeReplicaSetActions inp.faults.execute inp.createdAt result.replicaSets
              ⟨w.replicaSets, w.effective.spec.template.labels⟩).1.cluster) := by
  have hobs : observeReadyReplicas (w.get inp.faults) w.effective inp.observedAt
      (latchAbort X w.rollout w.status) = w.observed X inp := rfl
  have heff : resolveTarget w.deployment (applyDefaults w.rollout) = w.effective := rfl
  rw [step, reconcileLoaded]
  dsimp only
  rw [heff, hobs]
  split
  · exact .inl rfl
  split
  · exact .inl (patchStatus_replicaSets ..)
  split
  · exact .inl (patchStatus_replicaSets ..)
  split
  · exact .inl (patchStatus_replicaSets ..)
  rename_i strategy hs
  split
  · exact .inl (patchStatus_replicaSets ..)
  rename_i status result hsync
  refine .inr ⟨status, result, ⟨strategy, hs, hsync⟩, ?_⟩
  unfold carryOut
  dsimp only
  split
  · exact .inl (patchStatus_replicaSets ..)
  · split
    · exact .inr (patchStatus_replicaSets ..)
    · exact .inr (patchStatus_replicaSets ..)

end Paprika.Rollouts
