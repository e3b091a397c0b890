import Paprika.Rollouts.Names

/-!
# The stable ReplicaSet exists

Every result writes the ReplicaSet that `StableRS` names afterwards, and pruning spares it: it is protected by
name, or it was just scaled to the desired count.  So with a positive desired count the ReplicaSet of `StableRS`
exists in every reachable state, under each of the five strategies (**`stable_present`**).

At a desired count of zero the protection has a gap.  `pruneReplicaSets` runs before `updateStatusFromResult`
and protects the *old* name, so a freshly promoted ReplicaSet at zero replicas can be deleted at once.
-/

namespace Paprika.Rollouts

open Lib.Run List

variable {P : Type} {X : Externals P} {ro : Rollout P} {status status' : RolloutStatus}
  {inp : SyncInputs} {result : SyncResult P}

/-- The actions write the ReplicaSet `name`, which pruning then protects, or scale it to `desired`. -/
def Keeps (status : RolloutStatus) (actions : List (ReplicaSetAction P)) (desired : Int) (name : String) : Prop :=
  (∃ a ∈ actions, a.name = name) ∧
    (isProtected status name = true ∨ ∀ a ∈ actions, a.name = name → a.replicas = desired)

theorem isProtected_stable (status : RolloutStatus) : isProtected status status.stableRS = true := by
  simp [isProtected]

variable {a : ReplicaSetAction P} {desired : Int}

theorem Keeps.protected {actions : List (ReplicaSetAction P)}
    (ha : a ∈ actions) (h : a.name = status.stableRS) : Keeps status actions desired a.name :=
  ⟨⟨a, ha, rfl⟩, Or.inl (by rw [h]; exact isProtected_stable status)⟩

theorem Keeps.single (h : a.replicas = desired) : Keeps status [a] desired a.name := by
  refine ⟨⟨a, mem_singleton.mpr rfl, rfl⟩, Or.inr ?_⟩
  intro b hb _
  rw [mem_singleton.mp hb]
  exact h

theorem abortResult_stable (ro : Rollout P) (status : RolloutStatus) (hash : String) (desired : Int) :
    (status.tracked.trackAll (abortResult ro status hash desired).replicaSets).stable = status.stableRS := by
  unfold abortResult
  by_cases hc : status.canaryRS = ""
  · rw [if_pos hc]; rfl
  · rw [if_neg hc]; rfl

theorem abortResult_template {ro : Rollout P} {status : RolloutStatus} {hash : String} (ha : a ∈ (abortResult ro status hash desired).replicaSets) :
    a.template = none := by
  unfold abortResult at ha
  by_cases hc : status.canaryRS = ""
  · rw [if_pos hc] at ha
    rw [mem_singleton.mp ha]
  · rw [if_neg hc] at ha
    rcases mem_cons.mp ha with rfl | ha
    · rfl
    · rw [mem_singleton.mp ha]

theorem Keeps.abort (ro : Rollout P) (status : RolloutStatus) (hash : String) (desired : Int) :
    Keeps status (abortResult ro status hash desired).replicaSets desired
      (status.tracked.trackAll (abortResult ro status hash desired).replicaSets).stable := by
  rw [abortResult_stable]
  exact Keeps.protected (a := ⟨status.stableRS, desired, none, _⟩) mem_cons_self rfl

theorem Rolling.sync_keeps (hout : Rolling.Outcome X ro status inp result) :
    Keeps status result.replicaSets ro.desiredReplicas (status.tracked.trackAll result.replicaSets).stable := by
  cases hout with
  | create hs => exact Keeps.single rfl
  | abort hs ha => exact Keeps.abort ..
  | converged hs ha hc => exact Keeps.single rfl
  | complete hs ha hc hr => exact Keeps.single rfl
  | progress hs ha hc message hash old new => exact Keeps.protected mem_cons_self rfl

theorem Canary.sync_keeps {steps : List CanaryStep} (ht : ro.spec.strategy.type = .canary)
    (h : Shapes ro status.tracked) (hout : Canary.Outcome X steps ro status inp status' result) :
    Keeps status' result.replicaSets ro.desiredReplicas
      (status'.tracked.trackAll result.replicaSets).stable := by
  have hadv : (Canary.advance steps inp.now status).stableRS = status.stableRS := by
    obtain ⟨i, t, hadv⟩ := Canary.advance_frame steps inp.now status
    rw [hadv]
  cases hout with
  | create hs => exact Keeps.single rfl
  | abort hs ha => exact Keeps.abort ..
  | createCanary hs ha hc hh => exact Keeps.protected mem_cons_self (h.rebuilt ht hs)
  | step hs ha hc step hstep => exact Keeps.protected mem_cons_self ((h.rebuilt ht hs).trans hadv.symm)
  | complete hs ha hstep hh => exact Keeps.single rfl
  | promote hs ha hc hstep hh => exact Keeps.single rfl

theorem BlueGreen.sync_keeps {cfg : BlueGreenStrategy} (ht : ro.spec.strategy.type = .blueGreen)
    (h : Shapes ro status.tracked) (hout : BlueGreen.Outcome X cfg ro status inp status' result) :
    Keeps status' result.replicaSets ro.desiredReplicas
      (status'.tracked.trackAll result.replicaSets).stable := by
  cases hout with
  | create hs => exact Keeps.single rfl
  | abort hs ha => exact Keeps.abort ..
  | drained hs ha hp hv hr => exact Keeps.single rfl
  | draining hs ha hp hv hr message hash oldTarget htarget =>
    refine ⟨⟨_, mem_cons_self, rfl⟩, ?_⟩
    -- a reverted template makes the drained ReplicaSet the active one again; it is protected
    by_cases hsame : status.previousActiveRS = rsName ro "-active-" (X.currentHash ro)
    · left
      show isProtected status (rsName ro "-active-" (X.currentHash ro)) = true
      rw [← hsame]
      simp [isProtected]
    right
    intro a ha hname
    rcases mem_cons.mp ha with rfl | ha
    · rfl
    · rw [mem_singleton.mp ha] at hname
      exact absurd hname hsame
  | activeMatches hs ha hd hc hh => exact Keeps.single rfl
  | previewed hs ha hd hc hh => exact Keeps.protected mem_cons_self (h.rebuilt ht hs)
  | promote hs ha hd hc hwhy => exact Keeps.protected mem_cons_self rfl
  | waiting hs ha hd hc hauto hmanual => exact Keeps.protected mem_cons_self (h.rebuilt ht hs)

theorem ABTest.sync_keeps (ht : ro.spec.strategy.type = .abTest) (h : Shapes ro status.tracked)
    (hout : ABTest.Outcome X ro status result) :
    Keeps status result.replicaSets ro.desiredReplicas (status.tracked.trackAll result.replicaSets).stable := by
  cases hout with
  | create hs => exact Keeps.single rfl
  | abort hs ha => exact Keeps.abort ..
  | createCanary hs ha hc hh => exact Keeps.protected mem_cons_self (h.rebuilt ht hs)
  | promote hs ha hmanual hc => exact Keeps.single rfl
  | routed hs ha hmanual message => exact Keeps.protected mem_cons_self (h.rebuilt ht hs)

theorem Mirror.sync_keeps (ht : ro.spec.strategy.type = .mirror) (h : Shapes ro status.tracked)
    (hout : Mirror.Outcome X ro status result) :
    Keeps status result.replicaSets ro.desiredReplicas (status.tracked.trackAll result.replicaSets).stable := by
  cases hout with
  | create hs => exact Keeps.single rfl
  | abort hs ha => exact Keeps.abort ..
  | promote hs ha hmanual hc => exact Keeps.single rfl
  | mirrored hs ha hp phase action message haction hphase => exact Keeps.protected mem_cons_self (h.rebuilt ht hs)

/-- **Every result writes the stable ReplicaSet and keeps it from being pruned**, unless the desired count is
zero. -/
theorem Strategy.sync_keeps {strategy : Strategy} (ht : ro.spec.strategy.type = strategy.type)
    (h : ro.spec.strategy.type ≠ .rolling → Shapes ro status.tracked)
    (hsync : strategy.sync X ro status inp = .ok (status', result)) :
    Keeps status' result.replicaSets ro.desiredReplicas
      (status'.tracked.trackAll result.replicaSets).stable := by
  cases strategy with
  | rolling cfg =>
    obtain ⟨rfl, hout⟩ := Rolling.sync_outcome hsync
    exact Rolling.sync_keeps hout
  | canary cfg =>
    obtain ⟨c, -, -, hout⟩ := Canary.sync_outcome hsync
    exact Canary.sync_keeps ht (h (by rw [ht]; simp [Strategy.type])) hout
  | blueGreen cfg =>
    exact BlueGreen.sync_keeps ht (h (by rw [ht]; simp [Strategy.type])) (BlueGreen.sync_outcome hsync)
  | abTest cfg =>
    obtain ⟨rfl, hout⟩ := ABTest.sync_outcome hsync
    exact ABTest.sync_keeps ht (h (by rw [ht]; simp [Strategy.type])) hout
  | mirror cfg =>
    obtain ⟨rfl, hout⟩ := Mirror.sync_outcome hsync
    exact Mirror.sync_keeps ht (h (by rw [ht]; simp [Strategy.type])) hout

/-! ### Along a run -/

variable [Inhabited P]
variable {w : World P}

theorem Keeps.present {inp : ReconcileInput} {name : String}
    (h : Keeps status result.replicaSets desired name) (hpos : 0 < desired) :
    replicasOf (w.settled X inp status result).replicaSets name ≠ none := by
  obtain ⟨⟨a, ha, hname⟩, hkept⟩ := h
  have hexec := replicasOf_executeAll inp.createdAt result.replicaSets
    ⟨w.replicaSets, w.effective.spec.template.labels⟩ name
  rcases hexec with ⟨b, hb, hbname, hr⟩ | ⟨hnone, -⟩
  · have hlook : (w.settled X inp status result).replicaSets.lookup name
        = (w.executed inp result).cluster.lookup name := by
      rcases hkept with hp | hd
      · exact lookup_prune_protected hp
      refine lookup_prune_nonzero ?_
      rw [World.executed, hr, hd b hb hbname]
      intro hzero
      have := Option.some.inj hzero
      omega
    rw [replicasOf, hlook, ← replicasOf, World.executed, hr]
    exact Option.some_ne_none _
  · exact absurd hname (hnone a ha)

/-- The names have their shapes, and the ReplicaSet of `StableRS` exists if replicas are desired. -/
structure Present (w : World P) : Prop where
  names : w.rollout.spec.strategy.type ≠ .rolling → w.Names
  stable : w.status.stableRS ≠ "" → 0 < w.rollout.desiredReplicas →
    replicasOf w.replicaSets w.status.stableRS ≠ none

omit [Inhabited P] in
theorem Present.stable_lookup (h : Present w) (hs : w.status.stableRS ≠ "") (hpos : 0 < w.rollout.desiredReplicas) :
    ∃ rs, w.replicaSets.lookup w.status.stableRS = some rs := by
  have hpres := h.stable hs hpos
  cases hl : w.replicaSets.lookup w.status.stableRS with
  | none => rw [replicasOf, hl] at hpres; exact absurd rfl hpres
  | some rs => exact ⟨rs, rfl⟩

theorem step_present {e : Event P} (he : e.Clean) (h : Present w) : Present (step X w e) := by
  have hsame := step_sameSpec X w e
  refine ⟨fun ht => ?_, ?_⟩
  · rw [hsame.strategy] at ht
    exact step_names ht he (h.names ht)
  rw [hsame.desiredReplicas]
  cases e with
  | setTemplate t => exact h.stable
  | setAnnotations a => exact h.stable
  | setDeployment d => exact h.stable
  | setReady name ready =>
    rw [step, replicasOf_setReady]
    exact h.stable
  | reconcile inp =>
  rcases synced_cases (X := X) (w := w) he with ⟨-, -, status, hq, heq⟩ |
    ⟨strategy, status, result, -, -, hs, hsync, -, heq⟩
  · rw [heq]
    show status.stableRS ≠ "" → _ → replicasOf w.replicaSets status.stableRS ≠ none
    rw [hq.stableRS]
    exact h.stable
  have hshapes : w.effective.spec.strategy.type ≠ .rolling →
      Shapes w.effective (w.observed X inp).tracked := by
    rw [effective_strategyType]
    exact fun ht => (h.names ht).observed X inp
  have hkeeps := Strategy.sync_keeps (newStrategy_type hs) hshapes hsync
  rw [effective_desiredReplicas] at hkeeps
  rw [heq, settled_stableRS]
  exact fun _ hpos => hkeeps.present hpos

omit [Inhabited P] in
theorem Present.fresh (h : Fresh w) : Present w := by
  refine ⟨fun _ => World.Names.fresh h, fun hs => ?_⟩
  rw [h.1] at hs
  exact absurd rfl hs

theorem present_after (hfresh : Fresh w) {es : List (Event P)}
    (hclean : ∀ e ∈ es, e.Clean) : Present (after X w es) :=
  run_invariant_on (step X) (fun _ _ hw he => step_present he hw) es w (Present.fresh hfresh) hclean

/-- **The stable ReplicaSet exists** in every state of a clean run, if replicas are desired. -/
theorem stable_present (hfresh : Fresh w) {es : List (Event P)}
    (hclean : ∀ e ∈ es, e.Clean) (hpos : 0 < w.rollout.desiredReplicas)
    (hs : (after X w es).status.stableRS ≠ "") :
    ∃ rs, (after X w es).replicaSets.lookup (after X w es).status.stableRS = some rs :=
  (present_after hfresh hclean).stable_lookup hs (by rw [(after_sameSpec X w es).desiredReplicas]; exact hpos)

end Paprika.Rollouts
