import Paprika.Rollouts.Presence

/-!
# What an abort leaves

Every strategy answers an abort with `core.AbortResult`: scale the ReplicaSet of `StableRS` to the desired count,
then the one of `CanaryRS` to zero, in this order and by name only.  The traffic call that goes with it is the
strategy's own.

* **`abort_keeps_serving_iff`** — in every reachable state the stable side keeps serving, exactly if a rolling
  rollout does not track one name twice, a BlueGreen rollout has no traffic router, and, with nothing desired,
  the stable ReplicaSet was not pruned;
* **`rolling_abort_scales_stable_down`** — after an in-place promotion the two names are one, and the abort
  scales it to zero;
* **`blueGreen_abort_weighs_preview`** — the BlueGreen router sends everything to the preview service.
-/

namespace Paprika.Rollouts

open Lib.Run Option

variable {P : Type}

/-! ### The property -/

/-- The call sends live or mirrored traffic to the canary (preview) service of that name. -/
def TrafficCall.ToCanary (canaryService : String) : TrafficCall → Prop
  | .setWeight weight => weight ≠ 0
  | .setHeaderRoute _ _ service => service = canaryService
  | .setMirror percent => percent ≠ 0
  | .removeCanary => False
  | .removeHeaderRoute _ => False
  | .removeMirror => False

/-- The canary (preview) service of the rollout, as `routerServiceNames` has it. -/
def canaryServiceName (ro : Rollout P) : String :=
  match ro.spec.strategy.type, ro.spec.strategy.canary, ro.spec.strategy.abTest, ro.spec.strategy.mirror,
    ro.spec.strategy.blueGreen with
  | .canary, some c, _, _, _ => c.canaryService
  | .abTest, _, some c, _, _ => c.canaryService
  | .mirror, _, _, some c, _ => c.canaryService
  | .blueGreen, _, _, _, some c => c.previewService
  | _, _, _, _, _ => ro.name ++ "-canary"

/-- The traffic router that `configureTraffic` builds, if any. -/
def World.router (w : World P) : Option Provider :=
  match w.rollout.spec.trafficRouter with
  | none => none
  | some cfg =>
    match buildRouter w.dynamicClient cfg with
    | .error _ => none
    | .ok provider => provider

variable [Inhabited P]

/-- What an aborting reconcile has to leave: the stable ReplicaSet at the desired count with its template, a
distinct canary ReplicaSet at zero, no traffic to the canary service, and a weight router without canary. -/
structure KeepsServing (w : World P) (inp : ReconcileInput) (result : SyncResult P)
    (calls : List TrafficCall) : Prop where
  stable : ∃ rs rs', w.replicaSets.lookup w.status.stableRS = some rs ∧
    (w.executed inp result).cluster.lookup w.status.stableRS = some rs' ∧
    rs'.replicas = w.rollout.desiredReplicas ∧ rs'.template = rs.template
  canary : w.status.canaryRS ≠ "" → w.status.canaryRS ≠ w.status.stableRS →
    replicasOf (w.executed inp result).cluster w.status.canaryRS = some 0
  traffic : ∀ call ∈ calls, ¬call.ToCanary (canaryServiceName w.effective)
  weight : w.rollout.spec.strategy.type = .canary ∨ w.rollout.spec.strategy.type = .blueGreen →
    w.router ≠ none → .removeCanary ∈ calls ∨ .setWeight 0 ∈ calls

/-- The condition on the state before the reconcile. -/
structure SafeToAbort (w : World P) : Prop where
  rolling : w.rollout.spec.strategy.type = .rolling →
    w.status.canaryRS ≠ w.status.stableRS ∨ w.rollout.desiredReplicas = 0
  blueGreen : w.rollout.spec.strategy.type = .blueGreen → w.router = none
  pruned : w.rollout.desiredReplicas ≤ 0 → ∃ rs, w.replicaSets.lookup w.status.stableRS = some rs

/-! ### The traffic calls of an abort -/

section
variable {w : World P} {status : RolloutStatus} {result : SyncResult P}

omit [Inhabited P] in
theorem calls_eq (ha : result.action = .abort) : w.calls status result = match w.router with
      | none => []
      | some provider =>
        match w.effective.spec.strategy.type, w.effective.spec.strategy.abTest,
          w.effective.spec.strategy.mirror with
        | .canary, _, _ => [.removeCanary]
        | .blueGreen, _, _ => [.setWeight 100]
        | .abTest, some cfg, _ =>
          if provider = .gatewayAPI then [] else cfg.routes.map fun route => .removeHeaderRoute route.name
        | .mirror, _, some _ => if provider = .gatewayAPI then [] else [.removeMirror]
        | _, _, _ => [] := by
  unfold World.calls configureTraffic World.router
  rw [effective_trafficRouter, ha]
  cases w.rollout.spec.trafficRouter with
  | none => rfl
  | some cfg =>
  dsimp only
  cases buildRouter w.dynamicClient cfg with
  | error err => rfl
  | ok provider =>
  cases provider with
  | none => rfl
  | some provider =>
  dsimp only
  generalize w.effective.spec.strategy.type = t
  generalize w.effective.spec.strategy.abTest = ab
  generalize w.effective.spec.strategy.mirror = mirror
  cases t <;> cases ab <;> cases mirror <;> rfl

omit [Inhabited P] in
/-- **A BlueGreen abort weighs the preview service with 100**: the branch it shares with a promotion. -/
theorem blueGreen_abort_weighs_preview (ha : result.action = .abort)
    (ht : w.rollout.spec.strategy.type = .blueGreen) (hr : w.router ≠ none) :
    w.calls status result = [.setWeight 100] := by
  rw [calls_eq ha, effective_strategyType, ht]
  cases hr' : w.router with
  | none => exact absurd hr' hr
  | some provider => rfl

omit [Inhabited P] in
theorem calls_not_toCanary (ha : result.action = .abort)
    (hbg : w.rollout.spec.strategy.type = .blueGreen → w.router = none) (service : String) :
    ∀ call ∈ w.calls status result, ¬call.ToCanary service := by
  rw [calls_eq ha]
  cases hr : w.router with
  | none => intro call hcall; cases hcall
  | some provider =>
  dsimp only
  split
  · intro call hcall
    rw [List.mem_singleton.mp hcall]
    exact id
  · rename_i htype
    rw [effective_strategyType] at htype
    rw [hbg htype] at hr
    cases hr
  · intro call hcall
    split at hcall
    · cases hcall
    · obtain ⟨route, -, rfl⟩ := List.mem_map.mp hcall
      exact id
  · intro call hcall
    split at hcall
    · cases hcall
    · rw [List.mem_singleton.mp hcall]
      exact id
  · intro call hcall
    cases hcall
end

/-! ### The actions of an abort -/

section
variable {X : Externals P} {w : World P} {inp : ReconcileInput} {h : String} {d : Int}

/-- The canary's action comes last, so its ReplicaSet ends at zero, whatever it is called. -/
theorem abort_canary (inp : ReconcileInput) (hc : w.status.canaryRS ≠ "") :
    replicasOf (w.executed inp (abortResult w.effective (w.observed X inp) h d)).cluster
      w.status.canaryRS = some 0 := by
  simp only [World.executed, abortResult, observed_canaryRS, hc, if_false, executeAll_cons, executeAll_nil,
    replicasOf_executeAction, if_true]

/-- The stable ReplicaSet is rescaled in place: to the desired count, or to zero when the canary's action goes
to the same name. -/
theorem abort_stable (inp : ReconcileInput) {rs : ReplicaSet P} (hs : w.status.stableRS ≠ "")
    (hrs : w.replicaSets.lookup w.status.stableRS = some rs) :
    ∃ labels, (w.executed inp (abortResult w.effective (w.observed X inp) h d)).cluster.lookup
      w.status.stableRS = some { rs with
        replicas := if w.status.canaryRS = w.status.stableRS then 0 else d, labels := labels } := by
  have hfirst := lookup_executeAction_none inp.createdAt
    (a := ⟨w.status.stableRS, d, none, [(stableLabel, "true"), (revisionLabel, h), (rolloutLabel, w.effective.name)]⟩)
    (x := ⟨w.replicaSets, w.effective.spec.template.labels⟩) rfl hrs
  by_cases hc : w.status.canaryRS = ""
  · have hne : w.status.canaryRS ≠ w.status.stableRS := fun heq => hs (heq.symm.trans hc)
    refine ⟨[(stableLabel, "true"), (revisionLabel, h), (rolloutLabel, w.effective.name)], ?_⟩
    rw [if_neg hne]
    simp only [World.executed, abortResult, observed_canaryRS, observed_stableRS, hc, if_true, executeAll_cons,
      executeAll_nil]
    exact hfirst
  simp only [World.executed, abortResult, observed_canaryRS, observed_stableRS, hc, if_false,
    executeAll_cons, executeAll_nil]
  by_cases hsame : w.status.canaryRS = w.status.stableRS
  · refine ⟨[(canaryLabel, "true"), (revisionLabel, h), (rolloutLabel, w.effective.name)], ?_⟩
    have hsecond := lookup_executeAction_none inp.createdAt
      (a := ⟨w.status.stableRS, 0, none,
        [(canaryLabel, "true"), (revisionLabel, h), (rolloutLabel, w.effective.name)]⟩) rfl hfirst
    rw [if_pos hsame, hsame]
    exact hsecond
  · refine ⟨[(stableLabel, "true"), (revisionLabel, h), (rolloutLabel, w.effective.name)], ?_⟩
    rw [if_neg hsame, lookup_executeAction_ne _ _ _ (fun heq => hsame heq.symm)]
    exact hfirst
end

/-! ### The abort in a reachable state -/

/-- **When an abort keeps the stable side serving.** -/
theorem abort_keeps_serving_iff (X : Externals P) {w : World P} (hfresh : Fresh w) {es : List (Event P)}
    (hclean : ∀ e ∈ es, e.Clean) {inp : ReconcileInput} (hf : inp.faults = Faults.none)
    (hstable : (after X w es).status.stableRS ≠ "")
    (haborted : isAborted (after X w es).effective ((after X w es).observed X inp) = true)
    {ret : RolloutStatus × SyncResult P}
    (hsync : (reconcileLoaded X inp (after X w es)).synced = some ret) :
    KeepsServing (after X w es) inp ret.2 (reconcileLoaded X inp (after X w es)).calls ↔
      SafeToAbort (after X w es) := by
  have hpresent := present_after (X := X) hfresh hclean
  have hexists : 0 < (after X w es).rollout.desiredReplicas →
      ∃ rs, (after X w es).replicaSets.lookup (after X w es).status.stableRS = some rs := by
    rw [(after_sameSpec X w es).desiredReplicas]
    exact fun hpos => stable_present hfresh hclean hpos hstable
  generalize after X w es = v at *
  rcases reconcile_cases X v hf with ⟨status, -, -, heq⟩ | ⟨strategy, status, result, -, -, hs, hok, heq⟩
  · rw [heq] at hsync; cases hsync
  rw [heq] at hsync ⊢
  cases hsync
  obtain ⟨rfl, hash, rfl⟩ := Strategy.sync_aborted hok (by rw [observed_stableRS]; exact hstable) haborted
  rw [effective_desiredReplicas] at *
  constructor
  · rintro ⟨⟨rs, rs', hrs, hrs', hdesired, -⟩, -, htraffic, -⟩
    refine ⟨fun _ => ?_, fun htype => ?_, fun _ => ⟨rs, hrs⟩⟩
    · by_cases hsame : v.status.canaryRS = v.status.stableRS
      · right
        have hzero := abort_canary (X := X) (w := v) (h := hash)
          (d := v.rollout.desiredReplicas) inp (hsame ▸ hstable)
        rw [hsame, replicasOf, hrs'] at hzero
        exact hdesired.symm.trans (some.inj hzero)
      · exact Or.inl hsame
    · by_contra hrouter
      refine htraffic (.setWeight 100) ?_ (by simp [TrafficCall.ToCanary])
      rw [blueGreen_abort_weighs_preview rfl htype hrouter]
      exact List.mem_singleton.mpr rfl
  · rintro ⟨hrolling, hblueGreen, hpruned⟩
    have hrs : ∃ rs, v.replicaSets.lookup v.status.stableRS = some rs := by
      by_cases hpos : 0 < v.rollout.desiredReplicas
      · exact hexists hpos
      · exact hpruned (by omega)
    obtain ⟨rs, hrs⟩ := hrs
    refine ⟨?_, fun hc _ => abort_canary inp hc, calls_not_toCanary rfl hblueGreen _, ?_⟩
    · obtain ⟨labels, hlookup⟩ := abort_stable (X := X) (h := hash)
        (d := v.rollout.desiredReplicas) inp hstable hrs
      refine ⟨rs, _, hrs, hlookup, ?_, rfl⟩
      show (if v.status.canaryRS = v.status.stableRS then 0 else v.rollout.desiredReplicas)
        = v.rollout.desiredReplicas
      by_cases hsame : v.status.canaryRS = v.status.stableRS
      · rw [if_pos hsame]
        by_cases htype : v.rollout.spec.strategy.type = .rolling
        · exact ((hrolling htype).resolve_left (fun h => h hsame)).symm
        · exact absurd hsame ((hpresent.names htype).stable_ne_canary hstable)
      · rw [if_neg hsame]
    · rintro (htype | htype) hrouter
      · left
        cases hr : v.router with
        | none => exact absurd hr hrouter
        | some provider =>
          rw [calls_eq rfl, hr, effective_strategyType, htype]
          exact List.mem_singleton.mpr rfl
      · exact absurd (hblueGreen htype) hrouter

/-! ### An abort after an in-place promotion, and one of a canary -/

namespace Sample

/-- A rolling rollout of one replica. -/
def rollingWorld : World Nat :=
  world { noStrategy .rolling with rolling := some ⟨some (.int 1), some (.int 0)⟩ } 1 none (plain 1)

/-- Revision 2 is rolled out to the end, then the abort annotation is set. -/
def promotedThenAborted : List (Event Nat) :=
  [reconcileAt 0, .setReady "ro-1000000000" 1, .setTemplate (plain 2), reconcileAt 1,
   .setReady "ro-canary-2000000000" 1, reconcileAt 2, .setAnnotations (annotated abortAnnotation)]

/-- A canary rollout behind an Istio router. -/
def routedCanary : World Nat :=
  world { noStrategy .canary with canary := some ⟨[⟨25, some 60⟩, ⟨50, some 60⟩], "", ""⟩ } 4
    (some ⟨.istio, true, false⟩) (plain 1)

/-- The first step of revision 2 is shown, then the abort annotation is set. -/
def steppedThenAborted : List (Event Nat) :=
  [reconcileAt 0, .setTemplate (plain 2), reconcileAt 1, reconcileAt 2,
   .setAnnotations (annotated abortAnnotation)]

end Sample

open Sample

/-- **An abort may stop the stable side**, after a completed rolling update. -/
theorem rolling_abort_scales_stable_down : Fresh rollingWorld ∧ (∀ e ∈ promotedThenAborted, e.Clean) ∧
    (after externals rollingWorld promotedThenAborted).status.stableRS ≠ "" ∧
    isAborted (after externals rollingWorld promotedThenAborted).effective
      ((after externals rollingWorld promotedThenAborted).observed externals (.at 3)) = true ∧
    ∃ ret, (reconcileLoaded externals (.at 3)
        (after externals rollingWorld promotedThenAborted)).synced = some ret ∧
      ¬KeepsServing (after externals rollingWorld promotedThenAborted) (.at 3) ret.2
        (reconcileLoaded externals (.at 3) (after externals rollingWorld promotedThenAborted)).calls := by
  refine ⟨world_fresh .., ?_, by decide, by decide, ?_⟩
  · simp [promotedThenAborted, reconcileAt, Event.Clean, ReconcileInput.at]
  have hzero : (reconcileLoaded externals (.at 3)
      (after externals rollingWorld promotedThenAborted)).synced.map (fun ret =>
        replicasOf ((after externals rollingWorld promotedThenAborted).executed (.at 3) ret.2).cluster
          (after externals rollingWorld promotedThenAborted).status.stableRS) = some (some 0) := by
    decide
  obtain ⟨ret, hret, hr⟩ := map_eq_some_iff.mp hzero
  refine ⟨ret, hret, ?_⟩
  rintro ⟨⟨rs, rs', -, hrs', hdesired, -⟩, -⟩
  rw [replicasOf, hrs'] at hr
  have hone : (after externals rollingWorld promotedThenAborted).rollout.desiredReplicas = 1 := by decide
  rw [hone, some.inj hr] at hdesired
  cases hdesired

theorem canary_abort_keeps_serving :
    ∃ ret, (reconcileLoaded externals (.at 3) (after externals routedCanary steppedThenAborted)).synced
        = some ret ∧
      KeepsServing (after externals routedCanary steppedThenAborted) (.at 3) ret.2
        (reconcileLoaded externals (.at 3) (after externals routedCanary steppedThenAborted)).calls := by
  have hsome : (reconcileLoaded externals (.at 3)
      (after externals routedCanary steppedThenAborted)).synced.isSome = true := by decide
  obtain ⟨ret, hret⟩ := isSome_iff_exists.mp hsome
  refine ⟨ret, hret, ?_⟩
  refine (abort_keeps_serving_iff externals (world_fresh ..) ?_ rfl (by decide) (by decide) hret).mpr ?_
  · simp [steppedThenAborted, reconcileAt, Event.Clean, ReconcileInput.at]
  · refine ⟨fun h => ?_, fun h => ?_, fun h => ?_⟩
    · exact absurd h (by decide)
    · exact absurd h (by decide)
    · exact absurd h (by decide)

end Paprika.Rollouts
