import Paprika.Rollouts.Branches
import Paprika.Rollouts.Settled

/-!
# Rolling convergence

A rolling rollout on its own: the state is the Rollout with its status and the ReplicaSets, and a reconcile is
`observeReadyReplicas`, `Sync`, `executeReplicaSetActions` and `updateStatusFromResult`, in this order.

When `Sync` reports `Complete`/`Healthy`, its one action puts the ReplicaSet of the resulting `StableRS` at
the desired count with the current template.  Whether every *other* ReplicaSet is at zero depends on two
hand-overs, neither of which scales down what it leaves behind: a template change that retargets the canary,
and the completion that moves `StableRS` to the canary in the same reconcile that found the old one surplus.

* **`honest_of_guarded`** — if no reconcile of the run hands over a scaled-up ReplicaSet, every completion is
  honest;
* **`surge_leaves_old_scaled_up`** — a default surge rollout completes with the old ReplicaSet still up.
-/

namespace Paprika.Rollouts.Rolling

open Lib.Run

variable {P : Type}

structure State (P : Type) where
  rollout : Rollout P
  status : RolloutStatus
  replicaSets : Cluster P

inductive Event (P : Type)
  | setTemplate (template : RolloutTemplate P)
  | setReady (name : String) (ready : Int)
  | reconcile (now createdAt : Int)

/-! ### One reconcile -/

/-- The status after `observeReadyReplicas`. -/
def State.observed (s : State P) (now : Int) : RolloutStatus :=
  observeReadyReplicas (fun name => .ok (s.replicaSets.lookup name)) s.rollout now s.status

/-- What `Sync` returns in the state `s` at the reading `now`. -/
def State.synced (X : Externals P) (cfg : RollingStrategy) (s : State P) (now : Int) :
    Except String (RolloutStatus × SyncResult P) :=
  let status := s.observed now
  sync X cfg s.rollout status ⟨now, status.stableReadyReplicas, status.canaryReadyReplicas⟩

variable [Inhabited P]

def State.carriedOut (X : Externals P) (s : State P) (createdAt : Int) (status : RolloutStatus)
    (result : SyncResult P) : State P :=
  let executed := (executeReplicaSetActions (fun _ => none) createdAt result.replicaSets
    ⟨s.replicaSets, s.rollout.spec.template.labels⟩).1
  { s with replicaSets := executed.cluster
           status := updateStatusFromResult X s.rollout executed.labels result status }

def reconcile (X : Externals P) (cfg : RollingStrategy) (s : State P) (now createdAt : Int) : State P :=
  match s.synced X cfg now with
  | .error _ => { s with status := s.observed now }
  | .ok (status, result) => s.carriedOut X createdAt status result

def step (X : Externals P) (cfg : RollingStrategy) (s : State P) : Event P → State P
  | .setTemplate template =>
    { s with rollout := { s.rollout with spec := { s.rollout.spec with template := template } } }
  | .setReady name ready => { s with replicaSets := setReady s.replicaSets name ready }
  | .reconcile now createdAt => reconcile X cfg s now createdAt

/-- A Rollout that was never reconciled nor aborted, in a namespace without ReplicaSets. -/
def State.Fresh (s : State P) : Prop :=
  s.status = RolloutStatus.empty ∧ s.replicaSets = ∅ ∧ s.rollout.annotations abortAnnotation = none

/-- `Sync` reports the rollout complete and healthy. -/
def State.Completes (X : Externals P) (cfg : RollingStrategy) (s : State P) (now : Int) : Prop :=
  ∃ status result, s.synced X cfg now = .ok (status, result) ∧ result.action = .complete ∧ result.phase = .healthy

/-- The ReplicaSet of `StableRS` has the current template and the desired count, and every other one is at
zero. -/
def State.Honest (X : Externals P) (s : State P) : Prop :=
  (∃ rs, s.replicaSets.lookup s.status.stableRS = some rs ∧
    X.template rs.written = X.currentHash s.rollout ∧ rs.replicas = s.rollout.desiredReplicas) ∧
  ZeroBut (fun name => name = s.status.stableRS) s.replicaSets

/-! ### The condition on a reconcile -/

/-- The ReplicaSet a reconcile fills with the current template. -/
def State.target (X : Externals P) (s : State P) : String :=
  if Converged X s.rollout s.status then s.status.stableRS
  else rsName s.rollout "-canary-" (X.currentHash s.rollout)

/-- The ReplicaSet is at zero, or does not exist. -/
def State.Idle (s : State P) (name : String) : Prop := (replicasOf s.replicaSets name).getD 0 = 0

/-- No reconcile hands over a scaled-up ReplicaSet: the canary that is replaced, and, once the new ReplicaSet
is fully ready, the old stable one, are at zero. -/
def HandsOverIdle (X : Externals P) (s : State P) : Event P → Prop
  | .reconcile _ _ =>
    s.status.stableRS = "" ∨
      (s.status.canaryRS = "" ∨ s.status.canaryRS = s.status.stableRS ∨ s.status.canaryRS = s.target X ∨
        s.Idle s.status.canaryRS) ∧
      (¬Converged X s.rollout s.status → s.rollout.desiredReplicas ≤ canaryReady s.replicaSets s.status →
        s.status.stableRS = s.target X ∨ s.Idle s.status.stableRS)
  | _ => True

instance (s : State P) (name : String) : Decidable (s.Idle name) := inferInstanceAs (Decidable (_ = _))

instance (X : Externals P) (s : State P) : ∀ e, Decidable (HandsOverIdle X s e)
  | .setTemplate _ => .isTrue trivial
  | .setReady _ _ => .isTrue trivial
  | .reconcile _ _ => inferInstanceAs (Decidable (_ ∨ _))

/-! ### What a reconcile reads and writes -/

section
variable (X : Externals P) (s : State P)

omit [Inhabited P] in
theorem observed_names (now : Int) :
    (s.observed now).stableRS = s.status.stableRS ∧ (s.observed now).canaryRS = s.status.canaryRS ∧
      (s.observed now).previousActiveRS = s.status.previousActiveRS ∧
      (s.observed now).abort = s.status.abort := by
  obtain ⟨stable, canary, healthy, heq⟩ := observe_frame (fun name => .ok (s.replicaSets.lookup name))
    s.rollout now s.status
  rw [State.observed, heq]
  exact ⟨rfl, rfl, rfl, rfl⟩

omit [Inhabited P] in
/-- Without a drain, the canary's ready count is the one of the ReplicaSet `CanaryRS` names. -/
theorem observed_canaryReady (now : Int) (hprev : s.status.previousActiveRS = "") :
    (s.observed now).canaryReadyReplicas = canaryReady s.replicaSets s.status := by
  obtain ⟨stable, heq⟩ := observe_total s.replicaSets s.rollout now s.status
  rw [State.observed, heq]
  exact if_pos hprev

omit [Inhabited P] in
theorem converged_observed (now : Int) : Converged X s.rollout (s.observed now) ↔ Converged X s.rollout s.status := by
  obtain ⟨hstable, hcanary, -⟩ := observed_names s now
  simp only [Converged, canaryHashFromStatus, hstable, hcanary]

variable (createdAt : Int) (status : RolloutStatus) (result : SyncResult P)

theorem carriedOut_replicaSets : (s.carriedOut X createdAt status result).replicaSets
      = (executeAll createdAt result.replicaSets
          ⟨s.replicaSets, s.rollout.spec.template.labels⟩).cluster := by
  simp only [State.carriedOut, executeReplicaSetActions_eq]

theorem carriedOut_status :
    (s.carriedOut X createdAt status result).status.tracked = status.tracked.trackAll result.replicaSets ∧
      (s.carriedOut X createdAt status result).status.abort = status.abort := by
  simp only [State.carriedOut, executeReplicaSetActions_eq]
  obtain ⟨weight, heq⟩ := updateStatusFromResult_frame X s.rollout
    (executeAll createdAt result.replicaSets ⟨s.replicaSets, s.rollout.spec.template.labels⟩).labels
    result status
  rw [heq]
  exact ⟨rfl, rfl⟩
end

/-! ### The invariant -/

/-- The rollout is neither aborted nor draining, and only the two tracked ReplicaSets are scaled up. -/
structure Inv (s : State P) : Prop where
  abort : isAborted s.rollout s.status = false
  previous : s.status.previousActiveRS = ""
  zero : ZeroBut (fun name => name ≠ "" ∧ (name = s.status.stableRS ∨ name = s.status.canaryRS)) s.replicaSets

omit [Inhabited P] in
theorem Inv.fresh {s : State P} (h : s.Fresh) : Inv s := by
  obtain ⟨hstatus, hrs, hann⟩ := h
  refine ⟨?_, by rw [hstatus]; rfl, ?_⟩
  · simp [isAborted, hstatus, hann, RolloutStatus.empty]
  · intro name replicas hr
    rw [hrs] at hr
    cases hr

omit [Inhabited P] in
theorem State.Idle.zero {s : State P} {name : String} (h : s.Idle name) {r : Int}
    (hr : replicasOf s.replicaSets name = some r) : r = 0 := by
  rw [State.Idle, hr] at h
  exact h

variable {cfg : RollingStrategy} {now : Int}

omit [Inhabited P] in
theorem zero_but_target {X : Externals P} {s : State P} {createdAt : Int} (hinv : Inv s)
    (hguard : HandsOverIdle X s (.reconcile now createdAt)) (hs : s.status.stableRS ≠ "") :
    ZeroBut (fun name => name = s.status.stableRS ∨ name = s.target X) s.replicaSets := by
  obtain ⟨hcanary, -⟩ := hguard.resolve_left hs
  refine hinv.zero.mono ?_
  rintro name ⟨hne, rfl | rfl⟩
  · exact .inl (.inl rfl)
  · rcases hcanary with h | h | h | h
    · exact absurd h hne
    · exact .inl (.inl h)
    · exact .inl (.inr h)
    · exact .inr fun r hr => h.zero hr

section
variable {X : Externals P} {s : State P} {createdAt : Int}

omit [Inhabited P] in
theorem zero_but_target_of_ready (hinv : Inv s)
    (hguard : HandsOverIdle X s (.reconcile now createdAt)) (hs : s.status.stableRS ≠ "")
    (hconv : ¬Converged X s.rollout s.status)
    (hready : s.rollout.desiredReplicas ≤ canaryReady s.replicaSets s.status) :
    ZeroBut (fun name => name = s.target X) s.replicaSets := by
  refine (zero_but_target hinv hguard hs).mono ?_
  rintro name (rfl | rfl)
  · rcases (hguard.resolve_left hs).2 hconv hready with h | h
    · exact .inl h
    · exact .inr fun r hr => h.zero hr
  · exact .inl rfl

theorem Inv.carriedOut {status : RolloutStatus}
    {result : SyncResult P} (habort : isAborted s.rollout status = false)
    (hprev : (status.tracked.trackAll result.replicaSets).previous = "")
    (hzero : ZeroBut (fun name => name ≠ "" ∧
        (name = (status.tracked.trackAll result.replicaSets).stable ∨
          name = (status.tracked.trackAll result.replicaSets).canary))
      (executeAll createdAt result.replicaSets
        ⟨s.replicaSets, s.rollout.spec.template.labels⟩).cluster) :
    Inv (s.carriedOut X createdAt status result) := by
  obtain ⟨htrack, hflag⟩ := carriedOut_status X s createdAt status result
  refine ⟨?_, ?_, ?_⟩
  · rw [← habort]; simp only [isAborted, hflag]; rfl
  · rw [← hprev, ← htrack]; rfl
  · rw [carriedOut_replicaSets]
    rw [← htrack] at hzero
    exact hzero

/-- A result that fills one ReplicaSet, and finds every other one at zero, is honest. -/
theorem honest_carriedOut {status : RolloutStatus}
    {result : SyncResult P} {a : ReplicaSetAction P} (hres : result.replicaSets = [a])
    (htemplate : a.template = some s.rollout.spec.template.podTemplateSpec)
    (hreps : a.replicas = s.rollout.desiredReplicas)
    (hstable : (status.tracked.track a).stable = a.name)
    (hzero : ZeroBut (fun name => name = a.name) s.replicaSets) :
    (s.carriedOut X createdAt status result).Honest X := by
  obtain ⟨htrack, -⟩ := carriedOut_status X s createdAt status result
  have hname : (s.carriedOut X createdAt status result).status.stableRS = a.name := by
    have h := congrArg Tracked.stable htrack
    rw [hres] at h
    exact h.trans hstable
  unfold State.Honest
  rw [hname, carriedOut_replicaSets, hres]
  refine ⟨?_, ?_⟩
  · obtain ⟨rs, hrs, hr, hw⟩ := lookup_executeAction_self createdAt a
      ⟨s.replicaSets, s.rollout.spec.template.labels⟩
    refine ⟨rs, hrs, ?_, hr.trans hreps⟩
    rw [hw, htemplate]
    rfl
  · intro name r hr hne
    exact (hzero.execute createdAt a) name r hr (fun h => hne (h.elim id id))

/-- **One reconcile** keeps the invariant, and if it completes the rollout it does so honestly. -/
theorem reconcile_spec (hinv : Inv s) (hguard : HandsOverIdle X s (.reconcile now createdAt)) :
    Inv (reconcile X cfg s now createdAt) ∧ (s.Completes X cfg now → (reconcile X cfg s now createdAt).Honest X) := by
  obtain ⟨hobsS, hobsC, hobsP, hobsA⟩ := observed_names s now
  have hnot : isAborted s.rollout (s.observed now) = false := by rw [← hinv.abort]; simp only [isAborted, hobsA]
  have htrack : (s.observed now).tracked = ⟨s.status.stableRS, s.status.canaryRS, ""⟩ := by
    rw [RolloutStatus.tracked, hobsS, hobsC, hobsP, hinv.previous]
  obtain ⟨result, hsync⟩ := sync_ok X cfg s.rollout (s.observed now)
    ⟨now, (s.observed now).stableReadyReplicas, (s.observed now).canaryReadyReplicas⟩
  have hrec : reconcile X cfg s now createdAt = s.carriedOut X createdAt (s.observed now) result := by
    simp only [reconcile, State.synced, hsync]
  have hcompl : s.Completes X cfg now → result.action = .complete := by
    rintro ⟨status', result', hsync', hact, -⟩
    rw [State.synced, hsync] at hsync'
    cases hsync'
    exact hact
  rw [hrec]
  cases (sync_outcome hsync).2 with
  | create hs =>
    rw [hobsS] at hs
    refine ⟨Inv.carriedOut hnot ?_ ?_, fun h => by cases hcompl h⟩
    · rw [htrack]; rfl
    rw [htrack]
    refine (hinv.zero.executeAll createdAt _ _).mono ?_
    simp only [createResult, List.mem_singleton, exists_eq_left]
    rintro name (rfl | ⟨hne, h | h⟩)
    · exact .inl ⟨rsName_ne_empty s.rollout isMarker_dash, .inl rfl⟩
    · exact absurd (h.trans hs) hne
    · exact .inl ⟨hne, .inr h⟩
  | abort hs ha => rw [hnot] at ha; cases ha
  | converged hs ha hconv =>
    rw [hobsS] at hs
    rw [converged_observed] at hconv
    have hzero := zero_but_target hinv hguard hs
    rw [State.target, if_pos hconv] at hzero
    have hzero' : ZeroBut (fun name => name = s.status.stableRS) s.replicaSets :=
      hzero.mono fun name h => .inl (h.elim id id)
    have hres : (convergedResult s.rollout (s.observed now) (X.currentHash s.rollout)
        s.rollout.desiredReplicas).replicaSets = [⟨s.status.stableRS, s.rollout.desiredReplicas,
          some s.rollout.spec.template.podTemplateSpec,
          [(stableLabel, "true"), (revisionLabel, X.currentHash s.rollout),
            (rolloutLabel, s.rollout.name)]⟩] := by
      simp only [convergedResult, hobsS, hs, if_false]
    refine ⟨Inv.carriedOut hnot ?_ ?_, fun _ => honest_carriedOut hres rfl rfl rfl hzero'⟩
    · rw [htrack, hres]; rfl
    · rw [htrack, hres]
      refine (hzero'.executeAll createdAt _ _).mono ?_
      simp only [List.mem_singleton, exists_eq_left]
      rintro name (rfl | rfl) <;> exact .inl ⟨hs, .inl rfl⟩
  | complete hs ha hconv hready =>
    -- the canary becomes the stable ReplicaSet; the old one is not among the actions
    rw [hobsS] at hs
    rw [converged_observed] at hconv
    rw [observed_canaryReady s now hinv.previous] at hready
    have hzero := zero_but_target_of_ready hinv hguard hs hconv hready
    rw [State.target, if_neg hconv] at hzero
    refine ⟨Inv.carriedOut hnot ?_ ?_, fun _ => honest_carriedOut rfl rfl rfl rfl hzero⟩
    · rw [htrack]; rfl
    · rw [htrack]
      refine (hzero.executeAll createdAt _ _).mono ?_
      simp only [List.mem_singleton, exists_eq_left]
      rintro name (rfl | rfl) <;> exact .inl ⟨rsName_ne_empty s.rollout isMarker_canary, .inl rfl⟩
  | progress hs ha hconv message hash old new =>
    rw [hobsS] at hs
    rw [converged_observed] at hconv
    have hzero := zero_but_target hinv hguard hs
    rw [State.target, if_neg hconv] at hzero
    refine ⟨Inv.carriedOut hnot ?_ ?_, fun h => by cases hcompl h⟩
    · rw [htrack]; rfl
    rw [htrack, hobsS]
    refine (hzero.executeAll createdAt _ _).mono ?_
    simp only [List.mem_cons, List.not_mem_nil, or_false, exists_eq_or_imp, exists_eq_left]
    rintro name ((rfl | rfl) | rfl | rfl)
    · exact .inl ⟨hs, .inl rfl⟩
    · exact .inl ⟨rsName_ne_empty s.rollout isMarker_canary, .inr rfl⟩
    · exact .inl ⟨hs, .inl rfl⟩
    · exact .inl ⟨rsName_ne_empty s.rollout isMarker_canary, .inr rfl⟩
end

theorem step_inv {X : Externals P} {s : State P} {e : Event P} (hinv : Inv s)
    (hguard : HandsOverIdle X s e) : Inv (step X cfg s e) := by
  cases e with
  | setTemplate template => exact ⟨hinv.abort, hinv.previous, hinv.zero⟩
  | setReady name ready =>
    refine ⟨hinv.abort, hinv.previous, ?_⟩
    intro other r hr hk
    rw [step, replicasOf_setReady] at hr
    exact hinv.zero other r hr hk
  | reconcile now createdAt => exact (reconcile_spec hinv hguard).1

/-- **Rolling convergence**, in a run none of whose reconciles hands over a scaled-up ReplicaSet. -/
theorem honest_of_guarded (X : Externals P) (cfg : RollingStrategy) {s : State P} (hfresh : s.Fresh)
    (es : List (Event P)) (now createdAt : Int)
    (hrun : Guarded (step X cfg) (HandsOverIdle X) s (es ++ [.reconcile now createdAt]))
    (hcompletes : (run (step X cfg) s es).Completes X cfg now) :
    (run (step X cfg) s (es ++ [.reconcile now createdAt])).Honest X := by
  obtain ⟨hes, hlast⟩ := guarded_snoc.mp hrun
  have hinv : Inv (run (step X cfg) s es) :=
    guarded_invariant (fun s e hs he => step_inv hs he) (Inv.fresh hfresh) hes
  rw [run_append]
  exact (reconcile_spec hinv hlast).2 hcompletes

omit [Inhabited P] in
theorem completes_of_eq {X : Externals P} {s : State P}
    (h : (s.synced X cfg now).toOption.map (fun r => (r.2.action, r.2.phase))
      = some (.complete, .healthy)) : s.Completes X cfg now := by
  obtain ⟨result, hsync⟩ := sync_ok X cfg s.rollout (s.observed now)
    ⟨now, (s.observed now).stableReadyReplicas, (s.observed now).canaryReadyReplicas⟩
  rw [State.synced, hsync] at h
  have h' : (result.action, result.phase) = (Action.complete, RolloutPhase.healthy) := Option.some.inj h
  exact ⟨_, result, hsync, congrArg Prod.fst h', congrArg Prod.snd h'⟩

/-! ### An upgrade of a rollout with one replica, with and without a surge -/

open Sample

/-- One desired replica, revision 1. -/
def singleReplica : State Nat where
  rollout := (world (noStrategy .rolling) 1 none (plain 1)).rollout
  status := RolloutStatus.empty
  replicaSets := ∅

/-- Revision 1 comes up, revision 2 is rolled out, and its ReplicaSet becomes ready. -/
def upgrade : List (Event Nat) :=
  [.reconcile 0 0, .setReady "ro-1000000000" 1, .setTemplate (plain 2), .reconcile 1 1,
   .setReady "ro-canary-2000000000" 1]

/-- `maxUnavailable` 0 and `maxSurge` 1. -/
def surging : RollingStrategy := ⟨some (.int 0), some (.int 1)⟩

/-- `maxUnavailable` 1 and `maxSurge` 0. -/
def recreating : RollingStrategy := ⟨some (.int 1), some (.int 0)⟩

theorem singleReplica_fresh : singleReplica.Fresh := ⟨rfl, rfl, rfl⟩

/-- **A surge rollout is not honest.**  The new ReplicaSet is ready while the old one still runs; the next
reconcile computes the target zero for the old one and completes without writing it. -/
theorem surge_leaves_old_scaled_up : singleReplica.Fresh ∧
    (run (step externals surging) singleReplica upgrade).Completes externals surging 2 ∧
    ¬(run (step externals surging) singleReplica (upgrade ++ [.reconcile 2 2])).Honest externals := by
  refine ⟨singleReplica_fresh, completes_of_eq (by decide), ?_⟩
  rintro ⟨-, hzero⟩
  exact absurd (hzero "ro-1000000000" 1 (by decide) (by decide)) (by decide)

/-- Without a surge the old ReplicaSet is scaled down before the new one comes up. -/
theorem recreate_is_honest :
    (run (step externals recreating) singleReplica (upgrade ++ [.reconcile 2 2])).Honest externals :=
  honest_of_guarded externals recreating singleReplica_fresh upgrade 2 2 (by decide)
    (completes_of_eq (by decide))

end Paprika.Rollouts.Rolling
