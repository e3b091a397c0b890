import Paprika.Rollouts.Names

/-!
# Draining the previous active ReplicaSet

A promotion leaves the former active ReplicaSet in `PreviousActiveRS`; the reconciles after it hold the new active
one at the desired count, scale the former one down after the delay, and forget it once none of its pods is ready.
Each of these reconciles rebuilds the active ReplicaSet from the *current* template, and the end of the drain is
read off a ready count.  So three things must not happen: a template change while draining, a promotion of the
template that is already active, and a former active ReplicaSet that has replicas but no ready pod.

* **`drains_safely_of_guarded`** — in a run without these, `PreviousActiveRS` is never `StableRS`, no action gives
  the active ReplicaSet less than the desired count, and a finished drain leaves every former active ReplicaSet at
  zero;
* **`revert_drains_active`** — reverting the template while draining makes the drained ReplicaSet the active one
  and scales it to zero.
-/

namespace Paprika.Rollouts

open Lib.Run List

variable {P : Type} {X : Externals P}

/-! ### The property -/

def IsActiveName (ro : Rollout P) (name : String) : Prop := ∃ hash, name = rsName ro "-active-" hash

section
variable [Inhabited P]

/-- A reconcile in `w` gives no ReplicaSet that is active before or after it less than the desired count, and if
it forgets the previous active one, that one was at zero and no former active one stays scaled up. -/
structure DrainsSafely (X : Externals P) (w : World P) (inp : ReconcileInput) : Prop where
  target : ∀ ret, (reconcileLoaded X inp w).synced = some ret → ∀ a ∈ ret.2.replicaSets,
    a.name = w.status.stableRS ∨ a.name = (step X w (.reconcile inp)).status.stableRS →
      w.rollout.desiredReplicas ≤ a.replicas
  finished : w.status.previousActiveRS ≠ "" → (step X w (.reconcile inp)).status.previousActiveRS = "" →
    replicasOf w.replicaSets w.status.previousActiveRS = some 0 ∧
    ∀ name replicas, IsActiveName w.rollout name → name ≠ (step X w (.reconcile inp)).status.stableRS →
      replicasOf (step X w (.reconcile inp)).replicaSets name = some replicas → replicas = 0
end

/-! ### The condition -/

/-- A draining reconcile finds the active template, and the drained ReplicaSet at zero if none of its pods is
ready; a promoting one finds another template than the active one. -/
def DrainsQuietly (X : Externals P) (w : World P) : Event P → Prop
  | .reconcile inp =>
    w.status.stableRS = "" ∨
      (w.Draining → w.hash X = w.stableHash ∧ (readyOf (w.replicaSets.lookup w.status.previousActiveRS) = 0 →
          replicasOf w.replicaSets w.status.previousActiveRS = some 0)) ∧
      (Promotes X w inp → w.hash X ≠ w.stableHash)
  | _ => True

instance (w : World P) : ∀ e, Decidable (DrainsQuietly X w e)
  | .setTemplate _ => .isTrue trivial
  | .setAnnotations _ => .isTrue trivial
  | .setDeployment _ => .isTrue trivial
  | .setReady _ _ => .isTrue trivial
  | .reconcile _ => inferInstanceAs (Decidable (_ ∨ _))

/-! ### The invariant -/

/-- The ReplicaSets that may be scaled up: those that never were active, the active and the previous active one. -/
def World.MayRun (w : World P) (name : String) : Prop :=
  ¬IsActiveName w.rollout name ∨ name = w.status.stableRS ∨ name = w.status.previousActiveRS

structure Orderly (w : World P) : Prop where
  type : w.rollout.spec.strategy.type = .blueGreen
  notAborted : w.NotAborted
  names : w.Names
  created : w.status.stableRS = "" → w.status.previousActiveRS = ""
  promoted : w.status.previousActiveRS ≠ "" → w.status.promotedAt ≠ none
  distinct : w.status.previousActiveRS ≠ "" → w.status.previousActiveRS ≠ w.status.stableRS
  present : w.status.previousActiveRS ≠ "" → replicasOf w.replicaSets w.status.previousActiveRS ≠ none
  idle : ZeroBut w.MayRun w.replicaSets

theorem Orderly.fresh {w : World P} (hfresh : Fresh w) (htype : w.rollout.spec.strategy.type = .blueGreen)
    (hlive : w.rollout.annotations abortAnnotation = none) : Orderly w := by
  obtain ⟨hstatus, hcluster⟩ := id hfresh
  have hprev : w.status.previousActiveRS = "" := by rw [hstatus]; rfl
  refine ⟨htype, ⟨by rw [hstatus]; rfl, hlive⟩, World.Names.fresh hfresh, fun _ => hprev,
    fun h => absurd hprev h, fun h => absurd hprev h, fun h => absurd hprev h, ?_⟩
  intro name r hr _
  rw [hcluster, replicasOf_empty] at hr
  cases hr

/-! ### One guarded result -/

/-- What a guarded result does to the active ReplicaSets: create the first one, keep the two there are, finish the
drain, or promote. -/
inductive ActiveMove (w : World P) (status : RolloutStatus) (result : SyncResult P) : Prop
  | created (hs : w.status.stableRS = "") (name : String)
      (hstable : (status.tracked.trackAll result.replicaSets).stable = name)
      (hprevious : (status.tracked.trackAll result.replicaSets).previous = w.status.previousActiveRS)
      (hactions : ∀ a ∈ result.replicaSets, a.name = name ∧ a.replicas = w.rollout.desiredReplicas)
  | kept (hs : w.status.stableRS ≠ "")
      (hstable : (status.tracked.trackAll result.replicaSets).stable = w.status.stableRS)
      (hprevious : (status.tracked.trackAll result.replicaSets).previous = w.status.previousActiveRS)
      (hpromoted : status.promotedAt = w.status.promotedAt)
      (hprotected : status.previousActiveRS = w.status.previousActiveRS)
      (hactions : ∀ a ∈ result.replicaSets, a.name = w.status.stableRS ∧ a.replicas = w.rollout.desiredReplicas ∨
        w.Draining ∧ a.name = w.status.previousActiveRS ∨ ∃ text, a.name = rsName w.rollout "-preview-" text)
  | finished (hs : w.status.stableRS ≠ "") (hdraining : w.Draining)
      (hready : readyOf (w.replicaSets.lookup w.status.previousActiveRS) = 0)
      (hstable : (status.tracked.trackAll result.replicaSets).stable = w.status.stableRS)
      (hprevious : (status.tracked.trackAll result.replicaSets).previous = "")
      (hactions : ∀ a ∈ result.replicaSets, a.name = w.status.stableRS ∧ a.replicas = w.rollout.desiredReplicas)
  | promoted (hs : w.status.stableRS ≠ "") (hdraining : ¬w.Draining) (name : String)
      (hnew : name ≠ "") (hne : name ≠ w.status.stableRS)
      (hstable : (status.tracked.trackAll result.replicaSets).stable = name)
      (hprevious : (status.tracked.trackAll result.replicaSets).previous = w.status.stableRS)
      (hpromoted : status.promotedAt ≠ none) (hprotected : status.previousActiveRS = w.status.stableRS)
      (hactions : ∀ a ∈ result.replicaSets,
        (a.name = name ∨ a.name = w.status.stableRS) ∧ a.replicas = w.rollout.desiredReplicas)
      (hmem : ∃ a ∈ result.replicaSets, a.name = w.status.stableRS)

section
variable {w : World P} {inp : ReconcileInput} {status : RolloutStatus} {result : SyncResult P}

theorem activeMove_of_outcome (hw : Orderly w) (hf : inp.faults = Faults.none)
    (hguard : DrainsQuietly X w (.reconcile inp))
    (hout : BlueGreen.Outcome X w.effective.blueGreenCfg w.effective (w.observed X inp) (w.inputs X inp)
      status result) : ActiveMove w status result := by
  have hdes := effective_desiredReplicas w
  have hstable := observed_stableRS X w inp
  have hprevious := observed_previousActiveRS X w inp
  have hre := hw.names.observed_active X inp hw.type
  rw [DrainsQuietly, stableHash_blueGreen X inp hw.type] at hguard
  have hpreview : ∀ text, rsName w.effective "-preview-" text = rsName w.rollout "-preview-" text :=
    effective_rsName w "-preview-"
  -- while a drain is pending the current template is the active one
  have hcur : w.Draining → w.status.stableRS ≠ "" →
      rsName w.effective "-active-" (X.currentHash w.effective) = w.status.stableRS := by
    intro hdrain hs
    rw [effective_currentHash, ((hguard.resolve_left hs).1 hdrain).1, hre hs]
  cases hout with
  | create hs =>
    refine .created (hstable ▸ hs) _ rfl hprevious fun a ha => ?_
    rw [mem_singleton.mp ha]
    exact ⟨rfl, hdes⟩
  | abort hs ha => rw [isAborted_of_notAborted hw.notAborted] at ha; cases ha
  | drained hs ha hp hv hr =>
    rw [hstable] at hs
    have hdrain : w.Draining := ⟨observed_promotedAt X w inp ▸ hp, hprevious ▸ hv⟩
    have hactive := hcur hdrain hs
    refine .finished hs hdrain ?_ hactive rfl fun a ha => ?_
    · rw [World.inputs, observed_canaryReadyReplicas X w hf, if_neg hdrain.2] at hr
      exact hr
    · rw [mem_singleton.mp ha]
      exact ⟨hactive, hdes⟩
  | draining hs ha hp hv hr message hash oldTarget htarget =>
    rw [hstable] at hs
    have hdrain : w.Draining := ⟨observed_promotedAt X w inp ▸ hp, hprevious ▸ hv⟩
    have hactive := hcur hdrain hs
    refine .kept hs hactive hprevious (observed_promotedAt X w inp) hprevious fun a ha => ?_
    rcases mem_cons.mp ha with rfl | ha
    · exact .inl ⟨hactive, hdes⟩
    · rw [mem_singleton.mp ha]
      exact .inr (.inl ⟨hdrain, hprevious⟩)
  | activeMatches hs ha hd hc hh =>
    rw [hstable] at hs
    have hactive : rsName w.effective "-active-" (X.currentHash w.effective) = w.status.stableRS := by rw [hh, hre hs]
    refine .kept hs hactive hprevious (observed_promotedAt X w inp) hprevious fun a ha => ?_
    rw [mem_singleton.mp ha]
    exact .inl ⟨hactive, hdes⟩
  | previewed hs ha hd hc hh =>
    rw [hstable] at hs
    refine .kept hs (hre hs) hprevious (observed_promotedAt X w inp) hprevious fun a ha => ?_
    rcases mem_cons.mp ha with rfl | ha
    · exact .inl ⟨hre hs, hdes⟩
    · rw [mem_singleton.mp ha]
      exact .inr (.inr ⟨_, hpreview _⟩)
  | promote hs ha hd hc hwhy =>
    have hs' := hs
    rw [hstable] at hs'
    rw [observed_canaryRS] at hc
    rw [observed_promotedAt, hprevious] at hd
    have hpromotes : Promotes X w inp := by
      refine ⟨hc, ?_⟩
      rw [hw.type]
      exact ⟨hd, by rw [← effective_annotations]; exact hwhy⟩
    have hne := (hguard.resolve_left hs').2 hpromotes
    refine .promoted hs' (fun hdrain => hd.elim hdrain.1 hdrain.2)
      (rsName w.effective "-active-" (X.currentHash w.effective))
      (rsName_ne_empty _ isMarker_active) ?_ rfl (hre hs') (Option.some_ne_none _)
      ?_ ?_ ⟨_, mem_cons_of_mem _ mem_cons_self, hre hs'⟩
    · intro heq
      rw [← hre hs'] at heq
      have hdash : '-' ∉ (BlueGreen.hashFromRSName (w.observed X inp).stableRS).toList := by
        have hdash := hw.names.stableHash hs'
        rw [hw.type] at hdash
        rw [hstable]
        exact hdash
      exact hne (rsName_inj w.effective isMarker_active isMarker_active (template_dash_free X _) hdash heq).2
    · exact (if_pos ⟨hs, fun heq => hne heq.symm⟩).trans hstable
    · intro a ha
      rcases mem_cons.mp ha with rfl | ha
      · exact ⟨.inl rfl, hdes⟩
      · rw [mem_singleton.mp ha]
        exact ⟨.inr (hre hs'), hdes⟩
  | waiting hs ha hd hc hauto hmanual =>
    rw [hstable] at hs
    refine .kept hs (hre hs) hprevious (observed_promotedAt X w inp) hprevious fun a ha => ?_
    rcases mem_cons.mp ha with rfl | ha
    · exact .inl ⟨hre hs, hdes⟩
    · rw [mem_singleton.mp ha]
      exact .inr (.inr ⟨_, hpreview _⟩)

theorem preview_not_active (ro : Rollout P) (text : String) : ¬IsActiveName ro (rsName ro "-preview-" text) := by
  rintro ⟨hash, h⟩
  exact rsName_markers_ne .blueGreen ro hash text h.symm

theorem Orderly.stable_active (hw : Orderly w) (hs : w.status.stableRS ≠ "") :
    IsActiveName w.rollout w.status.stableRS :=
  ⟨_, (hw.names.rebuilt hw.type hs).symm⟩

/-- **Targets.**  Whatever a guarded result does, it gives the active ReplicaSet the desired count. -/
theorem ActiveMove.target (hw : Orderly w) (h : ActiveMove w status result) {a : ReplicaSetAction P}
    (ha : a ∈ result.replicaSets)
    (hname : a.name = w.status.stableRS ∨ a.name = (status.tracked.trackAll result.replicaSets).stable) :
    a.replicas = w.rollout.desiredReplicas := by
  cases h with
  | created hs name hstable hprevious hacts => exact (hacts a ha).2
  | kept hs hstable hprevious hprom hprot hacts =>
    rw [hstable, or_self] at hname
    rcases hacts a ha with ⟨-, hr⟩ | ⟨hdrain, hprev⟩ | ⟨text, hpreview⟩
    · exact hr
    · exact absurd (hprev.symm.trans hname) (hw.distinct hdrain.2)
    · have hactive := hw.stable_active hs
      rw [← hname, hpreview] at hactive
      exact absurd hactive (preview_not_active w.rollout text)
  | finished hs hdrain hready hstable hprevious hacts => exact (hacts a ha).2
  | promoted hs hdrain name hnew hne hstable hprevious hprom hprot hacts hmem =>
    exact (hacts a ha).2

variable [Inhabited P]

/-- A ReplicaSet that is there, or that an action names, is there afterwards if pruning protects it. -/
theorem present_settled {name : String} (hp : isProtected status name = true)
    (h : replicasOf w.replicaSets name ≠ none ∨ ∃ a ∈ result.replicaSets, a.name = name) :
    replicasOf (w.settled X inp status result).replicaSets name ≠ none := by
  rw [replicasOf, World.settled, lookup_prune_protected hp]
  rcases replicasOf_executeAll inp.createdAt result.replicaSets
      ⟨w.replicaSets, w.effective.spec.template.labels⟩ name with ⟨a, -, -, hr⟩ | ⟨hnone, hr⟩
  · rw [World.executed, ← replicasOf, hr]
    exact Option.some_ne_none _
  · rcases h with hthere | ⟨a, ha, hname⟩
    · rw [World.executed, ← replicasOf, hr]
      exact hthere
    · exact absurd hname (hnone a ha)

/-- Only what was allowed to run, and what the result names, is scaled up afterwards. -/
theorem idle_settled (hw : Orderly w) {keep : String → Prop}
    (hkeep : ∀ name, (∃ a ∈ result.replicaSets, name = a.name) ∨ w.MayRun name →
      keep name ∨ (∀ a ∈ result.replicaSets, name ≠ a.name) ∧
        ∀ r, replicasOf w.replicaSets name = some r → r = 0) :
    ZeroBut keep (w.settled X inp status result).replicaSets := by
  refine ZeroBut.prune ?_ _ _
  refine (hw.idle.executeAll inp.createdAt result.replicaSets w.effective.spec.template.labels).mono ?_
  intro name hname
  rcases hkeep name hname with h | ⟨hother, hzero⟩
  · exact .inl h
  · right
    intro r hr
    rw [replicasOf, lookup_executeAll_ne inp.createdAt (fun a ha h => hother a ha h.symm)] at hr
    exact hzero r hr

omit [Inhabited P] in
theorem not_isActiveName_empty (ro : Rollout P) : ¬IsActiveName ro "" := by
  rintro ⟨hash, h⟩
  exact rsName_ne_empty ro isMarker_active h.symm

/-- **What runs.**  After a guarded result at most the active and the previous active ReplicaSet run. -/
theorem ActiveMove.idle (hw : Orderly w)
    (hzero : w.Draining → readyOf (w.replicaSets.lookup w.status.previousActiveRS) = 0 →
      replicasOf w.replicaSets w.status.previousActiveRS = some 0)
    (h : ActiveMove w status result) (inp : ReconcileInput) :
    ZeroBut (w.settled X inp status result).MayRun (w.settled X inp status result).replicaSets := by
  have hempty := not_isActiveName_empty w.rollout
  refine idle_settled hw fun name hname => ?_
  rw [World.MayRun, settled_stableRS, settled_previousActiveRS, settled_rollout]
  cases h with
  | created hs new hstable hprevious hacts =>
    left
    rcases hname with ⟨a, ha, rfl⟩ | hnot | rfl | rfl
    · exact .inr (.inl ((hacts a ha).1.trans hstable.symm))
    · exact .inl hnot
    · rw [hs]; exact .inl hempty
    · rw [hw.created hs]; exact .inl hempty
  | kept hs hstable hprevious hprom hprot hacts =>
    left
    rw [hstable, hprevious]
    rcases hname with ⟨a, ha, rfl⟩ | hmay
    · rcases hacts a ha with ⟨heq, -⟩ | ⟨-, heq⟩ | ⟨text, heq⟩
      · exact .inr (.inl heq)
      · exact .inr (.inr heq)
      · rw [heq]; exact .inl (preview_not_active w.rollout text)
    · exact hmay
  | finished hs hdrain hready hstable hprevious hacts =>
    rw [hstable]
    rcases hname with ⟨a, ha, rfl⟩ | hnot | rfl | rfl
    · exact .inl (.inr (.inl (hacts a ha).1))
    · exact .inl (.inl hnot)
    · exact .inl (.inr (.inl rfl))
    · -- the drained ReplicaSet: no action names it, and it already is at zero
      refine .inr ⟨fun a ha heq => ?_, fun r hr => ?_⟩
      · exact hw.distinct hdrain.2 (heq.trans (hacts a ha).1)
      · rw [hzero hdrain hready] at hr
        exact (Option.some.inj hr).symm
  | promoted hs hdrain new hnew hne hstable hprevious hprom hprot hacts hmem =>
    left
    rw [hstable, hprevious]
    rcases hname with ⟨a, ha, rfl⟩ | hnot | rfl | rfl
    · exact .inr (hacts a ha).1
    · exact .inl hnot
    · exact .inr (.inr rfl)
    · by_cases hprev : w.status.previousActiveRS = ""
      · rw [hprev]; exact .inl hempty
      · exact absurd ⟨hw.promoted hprev, hprev⟩ hdrain

theorem ActiveMove.names (hw : Orderly w) (h : ActiveMove w status result) (inp : ReconcileInput) :
    ((status.tracked.trackAll result.replicaSets).stable = "" →
      (status.tracked.trackAll result.replicaSets).previous = "") ∧
    ((status.tracked.trackAll result.replicaSets).previous ≠ "" → status.promotedAt ≠ none ∧
      (status.tracked.trackAll result.replicaSets).previous
        ≠ (status.tracked.trackAll result.replicaSets).stable ∧
      replicasOf (w.settled X inp status result).replicaSets
        (status.tracked.trackAll result.replicaSets).previous ≠ none) := by
  cases h with
  | created hs new hstable hprevious hacts =>
    rw [hprevious, hw.created hs]
    exact ⟨fun _ => rfl, fun h => absurd rfl h⟩
  | kept hs hstable hprevious hprom hprot hacts =>
    rw [hstable, hprevious, hprom]
    refine ⟨fun h => absurd h hs, fun hprev => ⟨hw.promoted hprev, hw.distinct hprev, ?_⟩⟩
    exact present_settled (by simp [isProtected, hprot]) (.inl (hw.present hprev))
  | finished hs hdrain hready hstable hprevious hacts =>
    rw [hprevious]
    exact ⟨fun _ => rfl, fun h => absurd rfl h⟩
  | promoted hs hdrain new hnew hne hstable hprevious hprom hprot hacts hmem =>
    rw [hstable, hprevious]
    refine ⟨fun h => absurd h hnew, fun _ => ⟨hprom, hne.symm, ?_⟩⟩
    exact present_settled (by simp [isProtected, hprot]) (.inr hmem)

omit [Inhabited P] in
theorem ActiveMove.previous_cleared (hw : Orderly w) (h : ActiveMove w status result)
    (hprev : w.status.previousActiveRS ≠ "")
    (hclear : (status.tracked.trackAll result.replicaSets).previous = "") :
    w.Draining ∧ readyOf (w.replicaSets.lookup w.status.previousActiveRS) = 0 := by
  cases h with
  | created hs new hstable hprevious hacts => exact absurd (hw.created hs) hprev
  | kept hs hstable hprevious hprom hprot hacts => exact absurd (hprevious.symm.trans hclear) hprev
  | finished hs hdrain hready hstable hprevious hacts => exact ⟨hdrain, hready⟩
  | promoted hs hdrain new hnew hne hstable hprevious hprom hprot hacts hmem =>
    exact absurd (hprevious.symm.trans hclear) hs

/-- A guarded BlueGreen reconcile: it gets no result, or it moves the active ReplicaSets. -/
theorem reconcile_moves (hw : Orderly w) (hf : inp.faults = Faults.none)
    (hguard : DrainsQuietly X w (.reconcile inp)) :
    ((reconcileLoaded X inp w).synced = none ∧ ∃ status, Quiet X w status ∧ step X w (.reconcile inp)
        = { w with rollout := { w.rollout with finalizer := true }, status := status }) ∨
    ∃ status result, ActiveMove w status result ∧
      (w.Draining → readyOf (w.replicaSets.lookup w.status.previousActiveRS) = 0 →
        replicasOf w.replicaSets w.status.previousActiveRS = some 0) ∧
      (reconcileLoaded X inp w).synced = some (status, result) ∧
      step X w (.reconcile inp) = w.settled X inp status result := by
  rcases blueGreen_synced (X := X) hw.type hf with hquiet | ⟨status, result, hout, hsynced, heq⟩
  · exact .inl hquiet
  · refine .inr ⟨status, result, activeMove_of_outcome hw hf hguard hout, ?_, hsynced, heq⟩
    intro hdrain
    have hs : w.status.stableRS ≠ "" := fun hs => hdrain.2 (hw.created hs)
    exact ((hguard.resolve_left hs).1 hdrain).2

/-- **One guarded event** keeps the invariant. -/
theorem step_orderly {e : Event P} (he : e.Calm) (hguard : DrainsQuietly X w e) (hw : Orderly w) :
    Orderly (step X w e) := by
  have htype : (step X w e).rollout.spec.strategy.type = .blueGreen := (step_sameSpec X w e).strategy ▸ hw.type
  have halive := step_notAborted (X := X) he hw.notAborted
  have hnames : (step X w e).Names := step_names (by rw [hw.type]; simp) he.clean hw.names
  cases e with
  | setTemplate t => exact ⟨htype, halive, hnames, hw.created, hw.promoted, hw.distinct, hw.present, hw.idle⟩
  | setAnnotations a => exact ⟨htype, halive, hnames, hw.created, hw.promoted, hw.distinct, hw.present, hw.idle⟩
  | setDeployment d => exact ⟨htype, halive, hnames, hw.created, hw.promoted, hw.distinct, hw.present, hw.idle⟩
  | setReady name ready =>
    refine ⟨htype, halive, hnames, hw.created, hw.promoted, hw.distinct, ?_, ?_⟩
    · rw [step, replicasOf_setReady]
      exact hw.present
    · intro other r hr hk
      rw [step, replicasOf_setReady] at hr
      exact hw.idle other r hr hk
  | reconcile inp =>
  rcases reconcile_moves hw he hguard with ⟨-, status, hq, heq⟩ |
    ⟨status, result, hmove, hzero, -, heq⟩
  · obtain ⟨hcreated, hprom, hdist, hpres, hidle⟩ : _ ∧ _ ∧ _ ∧ _ ∧ _ :=
      ⟨hw.created, hw.promoted, hw.distinct, hw.present, hw.idle⟩
    rw [← hq.stableRS, ← hq.previousActiveRS] at hcreated hdist
    rw [← hq.previousActiveRS, ← hq.promotedAt] at hprom
    rw [← hq.previousActiveRS] at hpres
    rw [heq] at htype halive hnames ⊢
    refine ⟨htype, halive, hnames, hcreated, hprom, hdist, hpres, ?_⟩
    refine hidle.mono fun name hname => .inl ?_
    rw [World.MayRun, ← hq.stableRS, ← hq.previousActiveRS] at hname
    exact hname
  · obtain ⟨hcreated, hprevious⟩ := hmove.names (X := X) hw inp
    have hidle := hmove.idle (X := X) hw hzero inp
    rw [heq] at htype halive hnames ⊢
    rw [← settled_previousActiveRS X w inp, ← settled_stableRS X w inp] at hcreated hprevious
    rw [← settled_promotedAt X w inp status result] at hprevious
    exact ⟨htype, halive, hnames, hcreated, fun h => (hprevious h).1, fun h => (hprevious h).2.1,
      fun h => (hprevious h).2.2, hidle⟩

/-- **One guarded reconcile** drains safely. -/
theorem reconcile_drains_safely (hw : Orderly w) (hf : inp.faults = Faults.none)
    (hguard : DrainsQuietly X w (.reconcile inp)) : DrainsSafely X w inp := by
  rcases reconcile_moves hw hf hguard with ⟨hnone, status, hq, heq⟩ |
    ⟨status, result, hmove, hzero, hsynced, heq⟩
  · refine ⟨fun ret hret => ?_, fun hprev hclear => ?_⟩
    · rw [hnone] at hret; cases hret
    · rw [heq] at hclear
      exact absurd (hq.previousActiveRS.symm.trans hclear) hprev
  refine ⟨fun ret hret a ha hname => ?_, fun hprev hclear => ?_⟩
  · rw [hsynced] at hret
    cases hret
    rw [heq, settled_stableRS] at hname
    exact le_of_eq (hmove.target hw ha hname).symm
  have hidle := hmove.idle (X := X) hw hzero inp
  rw [heq, settled_previousActiveRS] at hclear
  obtain ⟨hdrain, hready⟩ := hmove.previous_cleared hw hprev hclear
  refine ⟨hzero hdrain hready, fun name r hactive hne hr => ?_⟩
  rw [heq] at hne hr
  refine hidle name r hr ?_
  rintro (hnot | hstable | hprevious)
  · exact hnot hactive
  · exact hne hstable
  · rw [settled_previousActiveRS, hclear] at hprevious
    rw [hprevious] at hactive
    exact not_isActiveName_empty w.rollout hactive
end

/-! ### Along a run -/

variable [Inhabited P]

/-- **BlueGreen drain safety.**  In a run without aborts all of whose reconciles drain quietly, `PreviousActiveRS`
is never `StableRS`, and every reconcile of the run drains safely. -/
theorem drains_safely_of_guarded (X : Externals P) {w : World P} (hfresh : Fresh w)
    (htype : w.rollout.spec.strategy.type = .blueGreen) (hlive : w.rollout.annotations abortAnnotation = none)
    {es : List (Event P)} (hcalm : ∀ e ∈ es, e.Calm) (hguarded : Guarded (step X) (DrainsQuietly X) w es) :
    ((after X w es).status.previousActiveRS ≠ "" →
      (after X w es).status.previousActiveRS ≠ (after X w es).status.stableRS) ∧
    ∀ pre inp post, es = pre ++ .reconcile inp :: post → DrainsSafely X (after X w pre) inp := by
  have horderly : ∀ fs : List (Event P), (∀ e ∈ fs, e.Calm) → Guarded (step X) (DrainsQuietly X) w fs →
      Orderly (after X w fs) := by
    intro fs hfs hg
    refine guarded_invariant_on (motive := Orderly) ?_ (Orderly.fresh hfresh htype hlive) hfs hg
    intro v e hv he hg
    exact step_orderly he hg hv
  refine ⟨(horderly es hcalm hguarded).distinct, ?_⟩
  rintro pre inp post rfl
  obtain ⟨hpre, hpost⟩ := guarded_append.mp hguarded
  have hf : inp.faults = Faults.none := hcalm (.reconcile inp) (by simp)
  exact reconcile_drains_safely (horderly pre (fun e he => hcalm e (mem_append_left _ he)) hpre) hf hpost.1

/-! ### A template reverted in the middle of a drain, and a drain to the end -/

namespace Sample

/-- A BlueGreen rollout of two replicas. -/
def blueGreenPair : World Nat :=
  world { noStrategy .blueGreen with blueGreen := some ⟨"", "", none, some 30, none⟩ } 2 none (plain 1)

/-- Revision 2 replaces revision 1, whose pods are still ready. -/
def promoted : List (Event Nat) :=
  [reconcileAt 0, .setReady "ro-active-1000000000" 2, .setTemplate (plain 2), reconcileAt 1,
   .setAnnotations (annotated promoteAnnotation), reconcileAt 2]

/-- Back to revision 1 while its ReplicaSet is drained. -/
def reverted : List (Event Nat) := promoted ++ [.setTemplate (plain 1), reconcileAt 3]

/-- Revision 1 is scaled to zero and its pods are gone. -/
def scaledDown : List (Event Nat) := promoted ++ [reconcileAt 40000000000, .setReady "ro-active-1000000000" 0]

end Sample

open Sample

/-- **A revert drains the active ReplicaSet.**  Both names are `ro-active-1000000000`, and once the delay has
passed the next reconcile gives it the target zero of two desired replicas. -/
theorem revert_drains_active : Fresh blueGreenPair ∧ (∀ e ∈ reverted ++ [reconcileAt 40000000000], e.Calm) ∧
      (after externals blueGreenPair reverted).status.previousActiveRS ≠ "" ∧
      (after externals blueGreenPair reverted).status.previousActiveRS
        = (after externals blueGreenPair reverted).status.stableRS ∧
      ¬DrainsSafely externals (after externals blueGreenPair reverted) (.at 40000000000) := by
  refine ⟨world_fresh .., ?_, by decide, by decide, ?_⟩
  · simp [reverted, promoted, reconcileAt, Event.Calm, ReconcileInput.at, annotated, abortAnnotation,
      promoteAnnotation]
  rintro ⟨htarget, -⟩
  have hzero : (reconcileLoaded externals (.at 40000000000)
      (after externals blueGreenPair reverted)).synced.map (fun ret =>
        ret.2.replicaSets.map fun a => (a.name, a.replicas))
      = some [("ro-active-1000000000", 2), ("ro-active-1000000000", 0)] := by decide
  obtain ⟨ret, hret, hactions⟩ := Option.map_eq_some_iff.mp hzero
  obtain ⟨a, ha, hpair⟩ : ∃ a ∈ ret.2.replicaSets, (a.name, a.replicas) = ("ro-active-1000000000", (0 : Int)) := by
    have hmem : ("ro-active-1000000000", (0 : Int)) ∈ ret.2.replicaSets.map fun a => (a.name, a.replicas) := by
      rw [hactions]; simp
    exact mem_map.mp hmem
  have hname : (after externals blueGreenPair reverted).status.stableRS = "ro-active-1000000000" := by decide
  have hdesired : (after externals blueGreenPair reverted).rollout.desiredReplicas = 2 := by decide
  have hle := htarget ret hret a ha (.inl ((congrArg Prod.fst hpair).trans hname.symm))
  rw [hdesired, show a.replicas = 0 from congrArg Prod.snd hpair] at hle
  exact absurd hle (by decide)

theorem drained_pair_is_safe :
    (after externals blueGreenPair scaledDown).status.previousActiveRS = "ro-active-1000000000" ∧
      (after externals blueGreenPair (scaledDown ++ [reconcileAt 40000000001])).status.previousActiveRS = "" ∧
      DrainsSafely externals (after externals blueGreenPair scaledDown) (.at 40000000001) := by
  have hcalm : ∀ e ∈ scaledDown ++ [.reconcile (.at 40000000001)], e.Calm := by
    simp [scaledDown, promoted, reconcileAt, Event.Calm, ReconcileInput.at, annotated, abortAnnotation,
      promoteAnnotation]
  exact ⟨by decide, by decide, (drains_safely_of_guarded externals (world_fresh ..) rfl rfl hcalm
    (by decide +kernel)).2 scaledDown _ [] rfl⟩

end Paprika.Rollouts
