import Paprika.Rollouts.Names

/-!
# Revisions left behind

A promotion creates the new stable (active) ReplicaSet under a name of its own, and no result but an abort ever
names the promoted canary (preview) again.  So whatever was scaled up beside the stable ReplicaSet stays scaled up:
every canary that was created, every preview with replicas, the stable ReplicaSet that a canary promotion replaces,
and the active one that a template change replaces in the middle of a drain.

* **`completes_alone_of_guarded`** — if no reconcile of the run scales up a second revision (or leaves a scaled-up
  one untracked), a reconcile that reports the rollout complete and healthy, with no drain pending, leaves every
  ReplicaSet but the stable one at zero.  ABTest and Mirror never report completion;
* **`promoted_canary_keeps_running`** — a canary rollout completes with the old stable ReplicaSet and the canary
  both scaled up.
-/

namespace Paprika.Rollouts

open Lib.Run List BlueGreen

variable {P : Type} {X : Externals P}

/-! ### The condition -/

/-- No second revision is scaled up, and none that is scaled up loses its name in the status. -/
def KeepsOneRevisionUnder (X : Externals P) (w : World P) (inp : ReconcileInput) : StrategyType → Prop
  | .canary =>
    if w.status.canaryRS = "" ∧ w.hash X ≠ w.stableHash then w.rollout.desiredReplicas = 0
    else Canary.Exhausted w.rollout.steps inp.now (w.observed X inp) ∧
      (w.hash X = w.stableHash ∨ w.rollout.desiredReplicas = 0)
  | .blueGreen =>
    if w.Draining then
      (w.hash X = w.stableHash ∨ w.status.stableRS = w.status.previousActiveRS ∨ w.rollout.desiredReplicas = 0) ∧
      (readyOf (w.replicaSets.lookup w.status.previousActiveRS) = 0 →
        w.status.previousActiveRS = rsName w.rollout "-active-" (w.hash X) ∨
          (replicasOf w.replicaSets w.status.previousActiveRS).getD 0 = 0)
    else w.status.canaryRS = "" → w.hash X ≠ w.stableHash → w.previewCount = 0
  | _ => True

instance (w : World P) (inp : ReconcileInput) : ∀ type, Decidable (KeepsOneRevisionUnder X w inp type)
  | .canary => inferInstanceAs (Decidable (@ite Prop (_ ∧ _) _ _ _))
  | .blueGreen => inferInstanceAs (Decidable (@ite Prop w.Draining _ _ _))
  | .rolling => .isTrue trivial
  | .abTest => .isTrue trivial
  | .mirror => .isTrue trivial
  | .other _ => .isTrue trivial

/-- The reconcile creates the stable ReplicaSet or keeps one revision. -/
def KeepsOneRevision (X : Externals P) (w : World P) : Event P → Prop
  | .reconcile inp => w.status.stableRS = "" ∨ KeepsOneRevisionUnder X w inp w.rollout.spec.strategy.type
  | _ => True

instance (w : World P) : ∀ e, Decidable (KeepsOneRevision X w e)
  | .setTemplate _ => .isTrue trivial
  | .setAnnotations _ => .isTrue trivial
  | .setDeployment _ => .isTrue trivial
  | .setReady _ _ => .isTrue trivial
  | .reconcile _ => inferInstanceAs (Decidable (_ ∨ _))

/-! ### The invariant -/

/-- The ReplicaSet may be scaled up: replicas are desired, and it is the stable or the previous active one. -/
def World.MayServe (w : World P) (name : String) : Prop :=
  w.rollout.desiredReplicas ≠ 0 ∧ name ≠ "" ∧
    (name = w.status.stableRS ∨ name = w.status.previousActiveRS)

structure Unleaked (w : World P) : Prop where
  notAborted : w.NotAborted
  names : w.Names
  created : w.status.stableRS = "" → w.status.previousActiveRS = ""
  promoted : w.status.previousActiveRS ≠ "" → w.status.promotedAt ≠ none
  preview : w.rollout.spec.strategy.type = .blueGreen → w.status.canaryRS ≠ "" → w.previewCount = 0
  zero : ZeroBut w.MayServe w.replicaSets

theorem Unleaked.fresh {w : World P} (hfresh : Fresh w) (hlive : w.rollout.annotations abortAnnotation = none) :
    Unleaked w := by
  obtain ⟨hstatus, hcluster⟩ := id hfresh
  have hprev : w.status.previousActiveRS = "" := by rw [hstatus]; rfl
  have hcanary : w.status.canaryRS = "" := by rw [hstatus]; rfl
  refine ⟨⟨by rw [hstatus]; rfl, hlive⟩, World.Names.fresh hfresh, fun _ => hprev, fun h => absurd hprev h,
    fun _ h => absurd hcanary h, ?_⟩
  intro name r hr _
  rw [hcluster, replicasOf_empty] at hr
  cases hr

/-! ### One guarded result -/

/-- What a guarded result has to do: the names and stamps stay in order, it scales up nothing but what the names
it leaves stand for, and what it leaves untracked is at zero. -/
structure OneRevision (w : World P) (status : RolloutStatus) (result : SyncResult P) : Prop where
  stable : (status.tracked.trackAll result.replicaSets).stable ≠ ""
  promoted : (status.tracked.trackAll result.replicaSets).previous ≠ "" → status.promotedAt ≠ none
  preview : w.rollout.spec.strategy.type = .blueGreen →
    (status.tracked.trackAll result.replicaSets).canary ≠ "" → w.previewCount = 0
  written : ∀ a ∈ result.replicaSets, a.replicas = 0 ∨ w.rollout.desiredReplicas ≠ 0 ∧ a.name ≠ "" ∧
    (a.name = (status.tracked.trackAll result.replicaSets).stable ∨
      a.name = (status.tracked.trackAll result.replicaSets).previous)
  left : ∀ name, w.MayServe name → (∀ a ∈ result.replicaSets, a.name ≠ name) →
    name = (status.tracked.trackAll result.replicaSets).stable ∨
    name = (status.tracked.trackAll result.replicaSets).previous ∨
    ∀ r, replicasOf w.replicaSets name = some r → r = 0

section
variable {w : World P} {inp : ReconcileInput} {status : RolloutStatus} {result : SyncResult P}

/-- What is written at the desired count, or at zero, under a name that is left. -/
theorem written_of_count {replicas : Int} {name stable previous : String}
    (hcount : replicas = 0 ∨ replicas = w.rollout.desiredReplicas) (hname : name ≠ "")
    (hleft : name = stable ∨ name = previous) :
    replicas = 0 ∨ w.rollout.desiredReplicas ≠ 0 ∧ name ≠ "" ∧ (name = stable ∨ name = previous) := by
  by_cases hdes : w.rollout.desiredReplicas = 0
  · rw [hdes, or_self] at hcount
    exact .inl hcount
  · exact .inr ⟨hdes, hname, hleft⟩

/-- A result that leaves one ReplicaSet at the desired count, under the name it had or with nothing desired. -/
theorem OneRevision.single (hw : Unleaked w) {a : ReplicaSetAction P} (hacts : result.replicaSets = [a])
    (ha : a.replicas = w.rollout.desiredReplicas) (hname : a.name ≠ "")
    (hstable : (status.tracked.trackAll result.replicaSets).stable = a.name)
    (hprevious : (status.tracked.trackAll result.replicaSets).previous = w.status.previousActiveRS)
    (hcanary : (status.tracked.trackAll result.replicaSets).canary = w.status.canaryRS)
    (hprom : status.promotedAt = w.status.promotedAt)
    (hsame : w.status.stableRS = "" ∨ a.name = w.status.stableRS ∨ w.rollout.desiredReplicas = 0) :
    OneRevision w status result := by
  refine ⟨hstable ▸ hname, ?_, ?_, ?_, ?_⟩
  · rw [hprevious, hprom]; exact hw.promoted
  · rw [hcanary]; exact hw.preview
  · intro b hb
    rw [hacts, mem_singleton] at hb
    rw [hb, hstable]
    exact written_of_count (.inr ha) hname (.inl rfl)
  · rintro name ⟨hdes, hne, rfl | rfl⟩ -
    · left
      rw [hstable]
      rcases hsame with hempty | heq | hzero
      · exact absurd hempty hne
      · exact heq.symm
      · exact absurd hzero hdes
    · exact .inr (.inl hprevious.symm)

theorem Canary.oneRevision (hw : Unleaked w) (ht : w.rollout.spec.strategy.type = .canary)
    (hguard : KeepsOneRevision X w (.reconcile inp))
    (hout : Canary.Outcome X w.rollout.steps w.effective (w.observed X inp) (w.inputs X inp) status result) :
    OneRevision w status result := by
  have hdes := effective_desiredReplicas w
  have hname : ∀ hash, rsName w.effective "-stable-" hash ≠ "" := fun hash => rsName_ne_empty _ isMarker_stable
  have hstable := observed_stableRS X w inp
  have hcanary := observed_canaryRS X w inp
  have hprevious := observed_previousActiveRS X w inp
  have hprom := observed_promotedAt X w inp
  have hhash : w.stableHash = Canary.hashFromRSName (w.observed X inp).stableRS := by
    rw [World.stableHash, ht, hstable]
    rfl
  simp only [KeepsOneRevision, KeepsOneRevisionUnder, ht, hhash, ← hcanary] at hguard
  obtain ⟨index, startedAt, hadv⟩ := Canary.advance_frame w.rollout.steps (w.inputs X inp).now (w.observed X inp)
  cases hout with
  | create hs =>
    exact OneRevision.single hw rfl hdes (hname _) rfl hprevious hcanary hprom
      (.inl (hstable ▸ hs))
  | abort hs ha => rw [isAborted_of_notAborted hw.notAborted] at ha; cases ha
  | createCanary hs ha hc hh =>
    rw [hstable] at hs
    have hzero := hguard.resolve_left hs
    rw [if_pos ⟨hc, hh⟩] at hzero
    refine ⟨hname _, ?_, ?_, ?_, fun name hserve => absurd hzero hserve.1⟩
    · show (w.observed X inp).previousActiveRS ≠ "" → (w.observed X inp).promotedAt ≠ none
      rw [hprevious, hprom]; exact hw.promoted
    · rw [ht]; intro h; cases h
    · intro a ha
      left
      rcases mem_cons.mp ha with rfl | ha
      · exact hdes.trans hzero
      · rw [mem_singleton.mp ha]
        exact hdes.trans hzero
  | step hs ha hc step hstep =>
    rw [hstable] at hs
    have hexhausted := hguard.resolve_left hs
    rw [effective_currentHash] at hc
    rw [if_neg hc] at hexhausted
    have hend := (Canary.advance_none_iff _ (w.inputs X inp).now _).mpr hexhausted.1
    rw [hend] at hstep
    cases hstep
  | complete hs ha hstep hh =>
    rw [hadv]
    rw [hstable] at hs
    refine OneRevision.single hw rfl hdes (hname _) rfl hprevious hcanary hprom (.inr (.inl ?_))
    show rsName w.effective "-stable-" (X.currentHash w.effective) = w.status.stableRS
    rw [← hh, effective_rsName, hstable]
    exact hw.names.rebuilt ht hs
  | promote hs ha hc hstep hh =>
    rw [hadv]
    rw [hstable] at hs
    have hzero := hguard.resolve_left hs
    rw [if_neg (fun h => hc h.1)] at hzero
    exact OneRevision.single hw rfl hdes (hname _) rfl hprevious hcanary hprom
      (.inr (.inr (hzero.2.resolve_left fun heq => hh heq.symm)))

/-- A result that writes the active ReplicaSet at the desired count and a preview without replicas. -/
theorem BlueGreen.oneRevision_paused (hw : Unleaked w) (ht : w.rollout.spec.strategy.type = .blueGreen)
    (hs : w.status.stableRS ≠ "") (hcount : w.previewCount = 0) (healthyAt : Option Int)
    {message previewHash : String} :
    OneRevision w { w.observed X inp with previewHealthyAt := healthyAt }
      (pausedResult w.effective message (hashFromRSName (w.observed X inp).stableRS)
        previewHash w.effective.desiredReplicas
        (previewReplicas w.effective.blueGreenCfg w.effective.desiredReplicas)) := by
  have hre := hw.names.observed_active X inp ht hs
  have hprevious := observed_previousActiveRS X w inp
  refine ⟨?_, ?_, fun _ _ => hcount, ?_, ?_⟩
  · exact fun h => hs (hre.symm.trans h)
  · show (w.observed X inp).previousActiveRS ≠ "" → (w.observed X inp).promotedAt ≠ none
    rw [hprevious, observed_promotedAt]
    exact hw.promoted
  · intro a ha
    rcases mem_cons.mp ha with rfl | ha
    · exact written_of_count (.inr (effective_desiredReplicas w)) (fun h => hs (hre.symm.trans h)) (.inl rfl)
    · left
      rw [mem_singleton.mp ha]
      exact (effective_previewCount w).trans hcount
  · rintro name ⟨-, -, rfl | rfl⟩ -
    · exact .inl hre.symm
    · exact .inr (.inl hprevious.symm)

/-- While a drain is pending, what may serve is the ReplicaSet of the current revision or the one that drains. -/
theorem BlueGreen.serves_of_draining
    (hactive : w.hash X = hashFromRSName (w.observed X inp).stableRS ∨
      w.status.stableRS = w.status.previousActiveRS ∨ w.rollout.desiredReplicas = 0)
    (hre : rsName w.effective "-active-" (hashFromRSName (w.observed X inp).stableRS) = w.status.stableRS)
    {name : String} (hserve : w.MayServe name) :
    name = rsName w.effective "-active-" (w.hash X) ∨ name = w.status.previousActiveRS := by
  obtain ⟨hd, -, rfl | rfl⟩ := hserve
  · rcases hactive with heq | heq | heq
    · rw [heq, hre]
      exact .inl rfl
    · exact .inr heq
    · exact absurd heq hd
  · exact .inr rfl

theorem BlueGreen.oneRevision (hw : Unleaked w) (ht : w.rollout.spec.strategy.type = .blueGreen)
    (hf : inp.faults = Faults.none) (hguard : KeepsOneRevision X w (.reconcile inp))
    (hout : Outcome X w.effective.blueGreenCfg w.effective (w.observed X inp) (w.inputs X inp)
      status result) :
    OneRevision w status result := by
  have hdes := effective_desiredReplicas w
  have hname : ∀ hash, rsName w.effective "-active-" hash ≠ "" := fun hash => rsName_ne_empty _ isMarker_active
  have hstable := observed_stableRS X w inp
  have hcanary := observed_canaryRS X w inp
  have hprevious := observed_previousActiveRS X w inp
  have hprom := observed_promotedAt X w inp
  have hre := hw.names.observed_active X inp ht
  simp only [KeepsOneRevision, KeepsOneRevisionUnder, ht, stableHash_blueGreen X inp ht] at hguard
  cases hout with
  | create hs =>
    exact OneRevision.single hw rfl hdes (hname _) rfl hprevious hcanary hprom (.inl (hstable ▸ hs))
  | abort hs ha => rw [isAborted_of_notAborted hw.notAborted] at ha; cases ha
  | drained hs ha hp hv hr =>
    rw [hstable] at hs
    have hdrain : w.Draining := ⟨hprom ▸ hp, hprevious ▸ hv⟩
    obtain ⟨hactive, hzero⟩ := if_pos hdrain ▸ hguard.resolve_left hs
    rw [World.inputs, observed_canaryReadyReplicas X w hf, if_neg hdrain.2] at hr
    -- the drained ReplicaSet becomes active or is at zero
    have hdrained : w.status.previousActiveRS = rsName w.effective "-active-" (X.currentHash w.effective) ∨
        ∀ r, replicasOf w.replicaSets w.status.previousActiveRS = some r → r = 0 := by
      rcases hzero hr with heq | heq
      · left
        rw [heq, effective_rsName]
        rfl
      · right
        intro r hr
        rw [hr] at heq
        exact heq
    refine ⟨hname _, fun h => absurd rfl h, ?_, ?_, ?_⟩
    · show _ → (w.observed X inp).canaryRS ≠ "" → _
      rw [hcanary]; exact hw.preview
    · intro a ha
      rw [mem_singleton.mp ha]
      exact written_of_count (.inr hdes) (hname _) (.inl rfl)
    · intro name hserve _
      rcases serves_of_draining hactive (hre hs) hserve with heq | heq
      · exact .inl heq
      · rw [heq]
        exact hdrained.imp_right .inr
  | draining hs ha hp hv hr message hash oldTarget htarget =>
    rw [hstable] at hs
    have hdrain : w.Draining := ⟨hprom ▸ hp, hprevious ▸ hv⟩
    obtain ⟨hactive, -⟩ := if_pos hdrain ▸ hguard.resolve_left hs
    refine ⟨hname _, ?_, ?_, ?_, ?_⟩
    · exact fun _ => hp
    · show _ → (w.observed X inp).canaryRS ≠ "" → _
      rw [hcanary]; exact hw.preview
    · intro a ha
      rcases mem_cons.mp ha with rfl | ha
      · exact written_of_count (.inr hdes) (hname _) (.inl rfl)
      · rw [mem_singleton.mp ha]
        exact written_of_count (htarget.imp_right fun h => h.trans hdes) hv (.inr rfl)
    · intro name hserve _
      rcases serves_of_draining hactive (hre hs) hserve with heq | heq
      · exact .inl heq
      · exact .inr (.inl (heq.trans hprevious.symm))
  | activeMatches hs ha hd hc hh =>
    rw [hstable] at hs
    refine OneRevision.single hw rfl hdes (hname _) rfl hprevious hcanary hprom (.inr (.inl ?_))
    show rsName w.effective "-active-" (X.currentHash w.effective) = w.status.stableRS
    rw [hh, hre hs]
  | previewed hs ha hd hc hh =>
    rw [hstable] at hs
    rw [hprom, hprevious] at hd
    have hnot : ¬w.Draining := fun h => hd.elim h.1 h.2
    have hpreview := if_neg hnot ▸ hguard.resolve_left hs
    exact oneRevision_paused hw ht hs (hpreview (hcanary ▸ hc) hh) none
  | promote hs ha hd hc hwhy =>
    rw [hstable] at hs
    rw [hprom, hprevious] at hd
    refine ⟨hname _, fun _ => Option.some_ne_none _, fun _ h => absurd rfl h, ?_, ?_⟩
    · intro a ha
      rcases mem_cons.mp ha with rfl | ha
      · exact written_of_count (.inr hdes) (hname _) (.inl rfl)
      · rw [mem_singleton.mp ha]
        exact written_of_count (.inr hdes) (hname _) (.inr rfl)
    · rintro name ⟨-, hne, rfl | rfl⟩ -
      · exact .inr (.inl (hre hs).symm)
      · exact absurd (hd.resolve_left (hw.promoted hne)) hne
  | waiting hs ha hd hc hauto hmanual =>
    rw [hstable] at hs
    exact oneRevision_paused hw ht hs (hw.preview ht (hcanary ▸ hc)) _
end

/-! ### One reconcile -/

section
variable [Inhabited P] {w : World P} {inp : ReconcileInput} {status : RolloutStatus} {result : SyncResult P}

theorem OneRevision.executed (hw : Unleaked w) (h : OneRevision w status result) (inp : ReconcileInput) :
    ZeroBut (fun name => w.rollout.desiredReplicas ≠ 0 ∧ name ≠ "" ∧
        (name = (status.tracked.trackAll result.replicaSets).stable ∨
          name = (status.tracked.trackAll result.replicaSets).previous)) (w.executed inp result).cluster := by
  refine hw.zero.executed inp.createdAt _ (fun a ha => (h.written a ha).symm) ?_
  intro name hserve hnone
  rcases h.left name hserve hnone with heq | heq | hzero
  · exact .inl ⟨hserve.1, hserve.2.1, .inl heq⟩
  · exact .inl ⟨hserve.1, hserve.2.1, .inr heq⟩
  · exact .inr hzero

/-- The strategies of the result agree with the spec, so the two outcome lemmas cover every completion. -/
theorem reconcile_oneRevision (hw : Unleaked w)
    (ht : w.rollout.spec.strategy.type = .canary ∨ w.rollout.spec.strategy.type = .blueGreen)
    (hf : inp.faults = Faults.none) (hguard : KeepsOneRevision X w (.reconcile inp)) :
    ((reconcileLoaded X inp w).synced = none ∧ ∃ status, Quiet X w status ∧ step X w (.reconcile inp)
        = { w with rollout := { w.rollout with finalizer := true }, status := status }) ∨
    ∃ status result, OneRevision w status result ∧ (reconcileLoaded X inp w).synced = some (status, result) ∧
      step X w (.reconcile inp) = w.settled X inp status result := by
  rcases ht with ht | ht
  · rcases canary_synced (X := X) ht hf with ⟨hnone, -, hquiet⟩ | ⟨status, result, -, -, -, hout, hrest⟩
    · exact .inl ⟨hnone, hquiet⟩
    · exact .inr ⟨status, result, Canary.oneRevision hw ht hguard hout, hrest⟩
  · rcases blueGreen_synced (X := X) ht hf with hquiet | ⟨status, result, hout, hrest⟩
    · exact .inl hquiet
    · exact .inr ⟨status, result, oneRevision hw ht hf hguard hout, hrest⟩

/-- **One guarded event** keeps the invariant. -/
theorem step_unleaked {e : Event P}
    (ht : w.rollout.spec.strategy.type = .canary ∨ w.rollout.spec.strategy.type = .blueGreen) (he : e.Calm)
    (hguard : KeepsOneRevision X w e) (hw : Unleaked w) : Unleaked (step X w e) := by
  have hrolling : w.rollout.spec.strategy.type ≠ .rolling := by rcases ht with ht | ht <;> rw [ht] <;> simp
  have halive := step_notAborted (X := X) he hw.notAborted
  have hnames : (step X w e).Names := step_names hrolling he.clean hw.names
  have hsame := step_sameSpec X w e
  cases e with
  | setTemplate t => exact ⟨halive, hnames, hw.created, hw.promoted, hw.preview, hw.zero⟩
  | setAnnotations a => exact ⟨halive, hnames, hw.created, hw.promoted, hw.preview, hw.zero⟩
  | setDeployment d => exact ⟨halive, hnames, hw.created, hw.promoted, hw.preview, hw.zero⟩
  | setReady name ready =>
    refine ⟨halive, hnames, hw.created, hw.promoted, hw.preview, ?_⟩
    intro other r hr hk
    rw [step, replicasOf_setReady] at hr
    exact hw.zero other r hr hk
  | reconcile inp =>
  rcases reconcile_oneRevision hw ht he hguard with ⟨-, status, hq, heq⟩ | ⟨status, result, hone, -, heq⟩
  · have hcreated := hw.created
    have hprom := hw.promoted
    have hpreview := hw.preview
    rw [← hq.stableRS, ← hq.previousActiveRS] at hcreated
    rw [← hq.previousActiveRS, ← hq.promotedAt] at hprom
    rw [← hq.canaryRS] at hpreview
    rw [heq] at halive hnames ⊢
    refine ⟨halive, hnames, hcreated, hprom, hpreview, hw.zero.mono fun name hserve => .inl ?_⟩
    rw [World.MayServe, ← hq.stableRS, ← hq.previousActiveRS] at hserve
    exact hserve
  · have hzero := (hone.executed hw inp).prune w.effective status
    have hprom := hone.promoted
    have hpreview := hone.preview
    rw [← settled_previousActiveRS X w inp, ← settled_promotedAt X w inp status result] at hprom
    rw [← settled_canaryRS X w inp] at hpreview
    rw [← settled_previousActiveRS X w inp, ← settled_stableRS X w inp] at hzero
    rw [heq] at halive hnames ⊢
    refine ⟨halive, hnames, fun hs => ?_, hprom, hpreview, hzero⟩
    rw [settled_stableRS] at hs
    exact absurd hs hone.stable
end

/-! ### Along a run -/

variable [Inhabited P]

/-- ABTest and Mirror never report completion, and an unknown strategy nothing at all. -/
theorem completes_strategy {w : World P} {inp : ReconcileInput} (hf : inp.faults = Faults.none)
    (hrolling : w.rollout.spec.strategy.type ≠ .rolling) {ret : RolloutStatus × SyncResult P}
    (hsync : (reconcileLoaded X inp w).synced = some ret) (hact : ret.2.action = .complete) :
    w.rollout.spec.strategy.type = .canary ∨ w.rollout.spec.strategy.type = .blueGreen := by
  rcases synced_cases (X := X) (w := w) hf with ⟨hnone, -⟩ |
    ⟨strategy, status, result, -, -, hs, hok, hsynced, -⟩
  · rw [hnone] at hsync; cases hsync
  rw [hsynced] at hsync
  cases hsync
  have htype := newStrategy_type hs
  rw [effective_strategyType] at htype
  cases strategy with
  | rolling cfg => exact absurd htype hrolling
  | canary cfg => exact .inl htype
  | blueGreen cfg => exact .inr htype
  | abTest cfg =>
    obtain ⟨-, hout⟩ := ABTest.sync_outcome hok
    cases hout <;> cases hact
  | mirror cfg =>
  obtain ⟨-, hout⟩ := Mirror.sync_outcome hok
  cases hout with
  | mirrored hs ha hp phase action message haction hphase => rcases haction with rfl | rfl <;> cases hact
  | create => cases hact
  | abort => cases hact
  | promote => cases hact

/-- **No leaked revisions after completion**, in a run without aborts all of whose reconciles keep one revision. -/
theorem completes_alone_of_guarded (X : Externals P) {w : World P} (hfresh : Fresh w)
    (hrolling : w.rollout.spec.strategy.type ≠ .rolling) (hlive : w.rollout.annotations abortAnnotation = none)
    {es : List (Event P)} {inp : ReconcileInput} (hcalm : ∀ e ∈ es ++ [.reconcile inp], e.Calm)
    (hguarded : Guarded (step X) (KeepsOneRevision X) w (es ++ [.reconcile inp]))
    {ret : RolloutStatus × SyncResult P} (hsync : (reconcileLoaded X inp (after X w es)).synced = some ret)
    (hcomplete : ret.2.action = .complete ∧ ret.2.phase = .healthy)
    (hdrained : (after X w (es ++ [.reconcile inp])).status.previousActiveRS = "") :
    ZeroBut (fun name => name = (after X w (es ++ [.reconcile inp])).status.stableRS)
      ((after X w es).executed inp ret.2).cluster := by
  have hsame := after_sameSpec X w es
  obtain ⟨hes, hguard⟩ := guarded_snoc.mp hguarded
  have hf : inp.faults = Faults.none := hcalm (.reconcile inp) (by simp)
  have ht := completes_strategy hf (hsame.strategy ▸ hrolling) hsync hcomplete.1
  have hw : Unleaked (after X w es) := by
    have hrun := guarded_invariant_on
      (motive := fun v : World P => v.rollout.spec.strategy = w.rollout.spec.strategy ∧ Unleaked v)
      (fun v e hv he hg => ?_) ⟨rfl, Unleaked.fresh hfresh hlive⟩
      (fun e he => hcalm e (mem_append_left _ he)) hes
    · exact hrun.2
    · refine ⟨(step_sameSpec X v e).strategy.trans hv.1, step_unleaked ?_ he hg hv.2⟩
      rw [hv.1, ← hsame.strategy]
      exact ht
  rw [after_append] at hdrained ⊢
  rcases reconcile_oneRevision hw ht hf hguard with ⟨hnone, -⟩ | ⟨status, result, hone, hsynced, heq⟩
  · rw [hnone] at hsync; cases hsync
  rw [hsynced] at hsync
  cases hsync
  change (step X (after X w es) (.reconcile inp)).status.previousActiveRS = "" at hdrained
  show ZeroBut (fun name => name = (step X (after X w es) (.reconcile inp)).status.stableRS) _
  rw [heq, settled_previousActiveRS] at hdrained
  rw [heq, settled_stableRS]
  refine (hone.executed hw inp).mono ?_
  rintro name ⟨-, hne, hname | hname⟩
  · exact .inl hname
  · exact absurd (hname.trans hdrained) hne

/-! ### A promoted canary, and a promotion without a scaled-up preview -/

namespace Sample

/-- A canary rollout with one step that is left at once. -/
def untimedStep : World Nat :=
  world { noStrategy .canary with canary := some ⟨[⟨50, none⟩], "", ""⟩ } 4 none (plain 1)

def canaryPromoted : List (Event Nat) := [reconcileAt 0, .setTemplate (plain 2), reconcileAt 1, reconcileAt 2]

def emptyPreviews : World Nat :=
  world { noStrategy .blueGreen with blueGreen := some ⟨"", "", none, some 30, some 0⟩ } 2 none (plain 1)

/-- Revision 2 is promoted, and revision 1 scaled down until its pods are gone. -/
def switchedOver : List (Event Nat) :=
  [reconcileAt 0, .setReady "ro-active-1000000000" 2, .setTemplate (plain 2), reconcileAt 1,
   .setAnnotations (annotated promoteAnnotation), reconcileAt 2, reconcileAt 40000000000,
   .setReady "ro-active-1000000000" 0]

end Sample

open Sample

/-- **A completed canary rollout keeps three ReplicaSets running.**  Besides the stable one these are the promoted
canary and the old stable one, at four replicas each. -/
theorem promoted_canary_keeps_running : Fresh untimedStep ∧ (∀ e ∈ canaryPromoted ++ [reconcileAt 3], e.Calm) ∧
    ∃ ret, (reconcileLoaded externals (.at 3) (after externals untimedStep canaryPromoted)).synced = some ret ∧
      ret.2.action = .complete ∧ ret.2.phase = .healthy ∧
      (after externals untimedStep (canaryPromoted ++ [reconcileAt 3])).status.previousActiveRS = "" ∧
      (after externals untimedStep (canaryPromoted ++ [reconcileAt 3])).status.stableRS = "ro-stable-2000000000" ∧
      replicasOf ((after externals untimedStep canaryPromoted).executed (.at 3) ret.2).cluster
        "ro-canary-2000000000" = some 4 ∧
      replicasOf ((after externals untimedStep canaryPromoted).executed (.at 3) ret.2).cluster
        "ro-stable-1000000000" = some 4 := by
  refine ⟨world_fresh .., ?_, ?_⟩
  · simp [canaryPromoted, reconcileAt, Event.Calm, ReconcileInput.at]
  have hcompletes : (reconcileLoaded externals (.at 3) (after externals untimedStep canaryPromoted)).synced.map
      (fun ret => ((ret.2.action, ret.2.phase),
        replicasOf ((after externals untimedStep canaryPromoted).executed (.at 3) ret.2).cluster
          "ro-canary-2000000000",
        replicasOf ((after externals untimedStep canaryPromoted).executed (.at 3) ret.2).cluster
          "ro-stable-1000000000"))
      = some ((.complete, .healthy), some 4, some 4) := by decide
  obtain ⟨ret, hret, hpair⟩ := Option.map_eq_some_iff.mp hcompletes
  simp only [Prod.mk.injEq] at hpair
  obtain ⟨⟨hact, hphase⟩, hcanary, hold⟩ := hpair
  exact ⟨ret, hret, hact, hphase, by decide, by decide, hcanary, hold⟩

theorem empty_preview_completes_alone :
    ∃ ret, (reconcileLoaded externals (.at 40000000001) (after externals emptyPreviews switchedOver)).synced
        = some ret ∧
      ZeroBut (fun name => name
          = (after externals emptyPreviews (switchedOver ++ [.reconcile (.at 40000000001)])).status.stableRS)
        ((after externals emptyPreviews switchedOver).executed (.at 40000000001) ret.2).cluster := by
  have hcompletes : (reconcileLoaded externals (.at 40000000001)
      (after externals emptyPreviews switchedOver)).synced.map (fun ret => (ret.2.action, ret.2.phase))
      = some (.complete, .healthy) := by decide +kernel
  obtain ⟨ret, hret, hpair⟩ := Option.map_eq_some_iff.mp hcompletes
  have hcalm : ∀ e ∈ switchedOver ++ [.reconcile (.at 40000000001)], e.Calm := by
    simp [switchedOver, reconcileAt, Event.Calm, ReconcileInput.at, annotated, abortAnnotation,
      promoteAnnotation]
  have hguarded : Guarded (step externals) (KeepsOneRevision externals) emptyPreviews
      (switchedOver ++ [.reconcile (.at 40000000001)]) := by
    decide
  exact ⟨ret, hret, completes_alone_of_guarded externals (world_fresh ..) (by decide) rfl hcalm hguarded hret
    (Prod.mk.inj hpair) (by decide)⟩

end Paprika.Rollouts
