import Paprika.Rollouts.Names

/-!
# What BlueGreen activates

A promotion makes the ReplicaSet of the *current* template the active one, while the preview it relies on — the
name in `CanaryRS` and the stamp `PreviewHealthyAt` — was set by earlier reconciles.  The drain phase likewise
rebuilds the active ReplicaSet from the current template.  A template change between these reconciles activates a
revision nobody previewed.

* **`activates_previewed_of_guarded`** — if every reconcile finds in `CanaryRS` the preview of the current
  template, and a draining one the active template, then the active hash only changes to a hash whose preview
  ReplicaSet exists with that template, and an automatic promotion was preceded by an observation of that
  ReplicaSet fully ready, at least `AutoPromotionSeconds` earlier;
* **`late_change_activates_unseen`** — a template change while the preview waits activates the new template.
-/

namespace Paprika.Rollouts

open Lib.Run Option BlueGreen

variable {P : Type} {X : Externals P}

/-! ### The condition -/

/-- A draining reconcile finds the active template; any other finds in `CanaryRS` no preview or the one of the
current template, which exists (a preview with replicas always does). -/
def FindsPreview (X : Externals P) (w : World P) : Event P → Prop
  | .reconcile _ =>
    w.status.stableRS = "" ∨
      (w.Draining → w.hash X = hashFromRSName w.status.stableRS) ∧
      (w.status.canaryRS ≠ "" → hashFromRSName w.status.canaryRS = w.hash X ∧
        (w.previewCount ≠ 0 ∨ (w.replicaSets.lookup w.status.canaryRS).isSome = true))
  | _ => True

instance (w : World P) : ∀ e, Decidable (FindsPreview X w e)
  | .setTemplate _ => .isTrue trivial
  | .setAnnotations _ => .isTrue trivial
  | .setDeployment _ => .isTrue trivial
  | .setReady _ _ => .isTrue trivial
  | .reconcile _ => inferInstanceAs (Decidable (_ ∨ _))

/-- A dash-free hash read off a preview name is the one the name was built from. -/
theorem BlueGreen.hashFromRSName_preview (ro : Rollout P) {hash found : String} (hh : '-' ∉ hash.toList)
    (hf : '-' ∉ found.toList) (h : hashFromRSName (rsName ro "-preview-" hash) = found) :
    found = hash := by
  have hpreview := textAfterLast_rsName ro isMarker_preview hh
  unfold hashFromRSName hashAfter at h
  cases hactive : textAfterLast "-active-" (rsName ro "-preview-" hash) with
  | none =>
    simp only [List.findSome?_cons, hactive, hpreview] at h
    exact h.symm
  | some text =>
    simp only [List.findSome?_cons, hactive] at h
    subst h
    exact (textAfterLast_marker ro isMarker_preview isMarker_active hh hf hactive).1

/-! ### The invariant -/

/-- The name is empty or a preview's, and the ReplicaSet behind it carries the template of its hash.  A preview
with replicas exists. -/
def PreviewIntact (X : Externals P) (ro : Rollout P) (c : Cluster P) (count : Int) (name : String) : Prop :=
  name = "" ∨ ∃ hash, '-' ∉ hash.toList ∧ name = rsName ro "-preview-" hash ∧
    (count ≠ 0 → writtenOf c name ≠ none) ∧ Carries X c name hash

theorem PreviewIntact.congr {ro ro' : Rollout P} {c c' : Cluster P} {count : Int} {name : String}
    (hname : ro'.name = ro.name) (hc : name ≠ "" → writtenOf c' name = writtenOf c name)
    (h : PreviewIntact X ro c count name) : PreviewIntact X ro' c' count name := by
  rcases h with hempty | ⟨hash, hh, heq, hexists, hcarries⟩
  · exact .inl hempty
  right
  have hne : name ≠ "" := by rw [heq]; exact rsName_ne_empty ro isMarker_preview
  refine ⟨hash, hh, ?_, ?_, ?_⟩
  · rw [heq, rsName, rsName, hname]
  · rw [hc hne]; exact hexists
  · rw [Carries, hc hne]; exact hcarries

/-- A BlueGreen rollout whose `CanaryRS` names an intact preview. -/
structure Previewing (X : Externals P) (w : World P) : Prop where
  type : w.rollout.spec.strategy.type = .blueGreen
  notAborted : w.NotAborted
  names : w.Names
  preview : PreviewIntact X w.rollout w.replicaSets w.previewCount w.status.canaryRS

section
variable {w : World P} {inp : ReconcileInput} {status : RolloutStatus} {result : SyncResult P}

/-- Under the guard `CanaryRS` is the preview of the current template, if it is set. -/
theorem Previewing.canary_eq (hw : Previewing X w)
    (hhash : hashFromRSName w.status.canaryRS = w.hash X) (hc : w.status.canaryRS ≠ "") :
    w.status.canaryRS = rsName w.rollout "-preview-" (w.hash X) ∧
      Carries X w.replicaSets w.status.canaryRS (w.hash X) ∧
      (w.previewCount ≠ 0 → writtenOf w.replicaSets w.status.canaryRS ≠ none) := by
  obtain ⟨hash, hh, hname, hexists, hcarries⟩ := hw.preview.resolve_left hc
  rw [hname] at hhash
  have heq : w.hash X = hash := hashFromRSName_preview w.rollout hh (template_dash_free X _) hhash
  rw [heq]
  exact ⟨hname, hcarries, hexists⟩

theorem Previewing.active_ne (hw : Previewing X w) {name : String}
    (h : name = "" ∨ Named w.rollout "-active-" name) (hc : w.status.canaryRS ≠ "") :
    name ≠ w.status.canaryRS := by
  obtain ⟨hash, -, hname, -⟩ := hw.preview.resolve_left hc
  intro heq
  rcases h with hempty | ⟨active, -, hactive⟩
  · exact hc (heq.symm.trans hempty)
  · exact rsName_markers_ne .blueGreen w.rollout active hash (hactive.symm.trans (heq.trans hname))

/-- Which moves of the active name a guarded result makes: none, or a promotion to the current template. -/
theorem BlueGreen.Outcome.stable_cases (hw : Previewing X w)
    (hguard : w.Draining → w.hash X = hashFromRSName w.status.stableRS)
    (hs : w.status.stableRS ≠ "")
    (hout : Outcome X w.effective.blueGreenCfg w.effective (w.observed X inp) (w.inputs X inp)
      status result) :
    (status.tracked.trackAll result.replicaSets).stable = w.status.stableRS ∨ w.status.canaryRS ≠ "" ∧ ¬w.Draining ∧
      (status.tracked.trackAll result.replicaSets).stable = rsName w.rollout "-active-" (w.hash X) := by
  have hre : rsName w.rollout "-active-" (hashFromRSName w.status.stableRS) = w.status.stableRS :=
    hw.names.rebuilt hw.type hs
  have hactive := effective_rsName w "-active-"
  rw [← observed_stableRS X w inp] at hre hs hguard ⊢
  cases hout with
  | create hb => exact absurd hb hs
  | abort _ ha => rw [isAborted_of_notAborted hw.notAborted] at ha; cases ha
  | drained _ _ hp hv hr =>
    left
    rw [observed_promotedAt] at hp
    rw [observed_previousActiveRS] at hv
    show rsName w.effective "-active-" (w.hash X) = _
    rw [hactive, hguard ⟨hp, hv⟩, hre]
  | draining _ _ hp hv hr message hash oldTarget htarget =>
    left
    rw [observed_promotedAt] at hp
    rw [observed_previousActiveRS] at hv
    show rsName w.effective "-active-" (w.hash X) = _
    rw [hactive, hguard ⟨hp, hv⟩, hre]
  | activeMatches _ _ hd hc hh =>
    left
    show rsName w.effective "-active-" (w.hash X) = _
    rw [hactive, show w.hash X = _ from hh, hre]
  | previewed _ _ hd hc hh => exact .inl ((hactive _).trans hre)
  | waiting _ _ hd hc hauto hmanual => exact .inl ((hactive _).trans hre)
  | promote _ _ hd hc hwhy =>
    right
    rw [observed_canaryRS] at hc
    rw [observed_promotedAt, observed_previousActiveRS] at hd
    exact ⟨hc, fun hdrain => hd.elim hdrain.1 hdrain.2, hactive _⟩

/-- A stamp is an earlier one, or it is made now because the preview is fully ready. -/
theorem previewHealthyAt_cases (hf : inp.faults = Faults.none) {time : Int}
    (h : (w.observed X inp).previewHealthyAt = some time) :
    w.status.previewHealthyAt = some time ∨
      w.status.canaryRS ≠ "" ∧ w.previewCount ≤ readyOf (w.replicaSets.lookup w.status.canaryRS) ∧
      inp.observedAt = time := by
  rw [observed_previewHealthyAt X w hf] at h
  unfold stampPreviewHealthy at h
  split at h
  · rename_i cfg htype' hcfg
    have hcount : cfg.previewReplicaCount.getD w.effective.desiredReplicas = w.previewCount := by
      rw [← effective_previewCount, Rollout.blueGreenCfg, hcfg]
      rfl
    dsimp only at h
    rw [hcount] at h
    split at h
    · rename_i hstamp
      obtain ⟨hc, hready, -⟩ := hstamp
      rw [World.canaryReady, canaryReady, if_neg hc] at hready
      exact .inr ⟨hc, hready, some.inj h⟩
    · exact .inl h
  · exact .inl h

theorem BlueGreen.Outcome.stamp (hguard : FindsPreview X w (.reconcile inp)) (hw : Previewing X w)
    (hout : Outcome X w.effective.blueGreenCfg w.effective (w.observed X inp) (w.inputs X inp)
      status result) :
    status.previewHealthyAt = none ∨ status.previewHealthyAt = (w.observed X inp).previewHealthyAt ∧
      (status.tracked.trackAll result.replicaSets).canary = w.status.canaryRS := by
  have hcanary := observed_canaryRS X w inp
  cases hout with
  | create hs => exact .inr ⟨rfl, hcanary⟩
  | abort hs ha => rw [isAborted_of_notAborted hw.notAborted] at ha; cases ha
  | drained hs ha hp hv hr => exact .inr ⟨rfl, hcanary⟩
  | draining hs ha hp hv hr message hash oldTarget htarget => exact .inr ⟨rfl, hcanary⟩
  | activeMatches hs ha hd hc hh => exact .inr ⟨rfl, hcanary⟩
  | previewed hs ha hd hc hh => exact .inl rfl
  | promote hs ha hd hc hwhy => exact .inl rfl
  | waiting hs ha hd hc hauto hmanual =>
  rw [observed_stableRS] at hs
  rw [observed_canaryRS] at hc
  obtain ⟨hhash, -⟩ := (hguard.resolve_left hs).2 hc
  have hname := (hw.canary_eq hhash hc).1
  refine .inr ⟨rfl, ?_⟩
  show rsName w.effective "-preview-" (hashFromRSName (w.observed X inp).canaryRS) = _
  rw [hcanary, hhash, effective_rsName, hname]

variable [Inhabited P]

theorem Previewing.kept (hw : Previewing X w) (hstatus : status.canaryRS = w.status.canaryRS)
    (htrack : (status.tracked.trackAll result.replicaSets).canary = w.status.canaryRS)
    (hacts : ∀ a ∈ result.replicaSets, a.name = "" ∨ Named w.rollout "-active-" a.name) :
    PreviewIntact X w.rollout (w.settled X inp status result).replicaSets w.previewCount
      (status.tracked.trackAll result.replicaSets).canary := by
  rw [htrack]
  refine hw.preview.congr rfl fun hc => ?_
  rw [writtenOf, writtenOf, lookup_settled_other (fun a ha => hw.active_ne (hacts a ha) hc)]
  simp [isProtected, hstatus]

theorem previewIntact_written {first : ReplicaSetAction P}
    (hacts : result.replicaSets = [first, makePreviewRS w.effective (w.hash X)
      (previewReplicas w.effective.blueGreenCfg w.effective.desiredReplicas)]) :
    PreviewIntact X w.rollout (w.settled X inp status result).replicaSets w.previewCount
      (rsName w.rollout "-preview-" (w.hash X)) := by
  rw [effective_previewCount] at hacts
  have hwrote := Carries.written (X := X) inp.createdAt (x := executeAction inp.createdAt first
      ⟨w.replicaSets, w.effective.spec.template.labels⟩)
    (a := makePreviewRS w.effective (w.hash X) w.previewCount)
    (effective_rsName w "-preview-" (w.hash X)) rfl rfl
  have hexec : (w.executed inp result).cluster
      = (executeAction inp.createdAt (makePreviewRS w.effective (w.hash X) w.previewCount)
          (executeAction inp.createdAt first
            ⟨w.replicaSets, w.effective.spec.template.labels⟩)).cluster := by
    rw [World.executed, hacts]
    rfl
  rw [← hexec] at hwrote
  have hreps : replicasOf (w.executed inp result).cluster (rsName w.rollout "-preview-" (w.hash X))
      = some w.previewCount := by
    have hname : rsName w.rollout "-preview-" (w.hash X)
        = (makePreviewRS w.effective (w.hash X) w.previewCount).name :=
      (effective_rsName w "-preview-" (w.hash X)).symm
    rw [hexec, replicasOf_executeAction, if_pos hname]
    rfl
  refine .inr ⟨w.hash X, template_dash_free X _, rfl, fun hne => ?_, ?_⟩
  · have hlook : (w.settled X inp status result).replicaSets.lookup
        (rsName w.rollout "-preview-" (w.hash X))
        = (w.executed inp result).cluster.lookup (rsName w.rollout "-preview-" (w.hash X)) := by
      refine lookup_prune_nonzero ?_
      rw [hreps]
      exact fun h => hne (some.inj h)
    rw [writtenOf, hlook]
    exact hwrote.2
  · intro t ht
    exact hwrote.1 t (writtenOf_prune_some ht)

/-- **One guarded result keeps the preview intact.** -/
theorem previewIntact_settled (hw : Previewing X w) (hguard : FindsPreview X w (.reconcile inp))
    (hout : Outcome X w.effective.blueGreenCfg w.effective (w.observed X inp) (w.inputs X inp)
      status result) :
    PreviewIntact X w.rollout (w.settled X inp status result).replicaSets w.previewCount
      (status.tracked.trackAll result.replicaSets).canary := by
  have hcur : '-' ∉ (X.currentHash w.effective).toList := template_dash_free X _
  have hactive : ∀ {hash : String}, '-' ∉ hash.toList →
      Named w.rollout "-active-" (rsName w.effective "-active-" hash) :=
    fun hh => ⟨_, hh, effective_rsName w "-active-" _⟩
  have hcanary := observed_canaryRS X w inp
  have hprev : w.status.previousActiveRS = "" ∨ Named w.rollout "-active-" w.status.previousActiveRS :=
    hw.names.previous.imp_right And.right
  cases hout with
  | create hs =>
    refine hw.kept hcanary hcanary fun a ha => ?_
    rw [List.mem_singleton.mp ha]
    exact .inr (hactive hcur)
  | abort hs ha => rw [isAborted_of_notAborted hw.notAborted] at ha; cases ha
  | drained hs ha hp hv hr =>
    refine hw.kept hcanary hcanary fun a ha => ?_
    rw [List.mem_singleton.mp ha]
    exact .inr (hactive hcur)
  | draining hs ha hp hv hr message hash oldTarget htarget =>
    refine hw.kept hcanary hcanary fun a ha => ?_
    rcases List.mem_cons.mp ha with rfl | ha
    · exact .inr (hactive hcur)
    · rw [List.mem_singleton.mp ha]
      show (w.observed X inp).previousActiveRS = "" ∨ Named _ _ (w.observed X inp).previousActiveRS
      rw [observed_previousActiveRS]
      exact hprev
  | activeMatches hs ha hd hc hh =>
    refine hw.kept hcanary hcanary fun a ha => ?_
    rw [List.mem_singleton.mp ha]
    exact .inr (hactive hcur)
  | previewed hs ha hd hc hh =>
    show PreviewIntact X w.rollout _ w.previewCount (rsName w.effective "-preview-" (w.hash X))
    rw [effective_rsName]
    exact previewIntact_written rfl
  | promote hs ha hd hc hwhy => exact .inl rfl
  | waiting hs ha hd hc hauto hmanual =>
  rw [observed_stableRS] at hs
  rw [observed_canaryRS] at hc
  obtain ⟨hhash, -⟩ := (hguard.resolve_left hs).2 hc
  rw [← hcanary] at hhash
  show PreviewIntact X w.rollout _ w.previewCount
    (rsName w.effective "-preview-" (hashFromRSName (w.observed X inp).canaryRS))
  rw [hhash, effective_rsName]
  exact previewIntact_written rfl

/-- **One guarded event** keeps the invariant. -/
theorem step_previewing {e : Event P} (he : e.Calm) (hguard : FindsPreview X w e) (hw : Previewing X w) :
    Previewing X (step X w e) := by
  have hsame := step_sameSpec X w e
  refine ⟨hsame.strategy ▸ hw.type, step_notAborted he hw.notAborted,
    step_names (by rw [hw.type]; simp) he.clean hw.names, ?_⟩
  rw [step_previewCount]
  cases e with
  | setTemplate t => exact hw.preview.congr rfl fun _ => rfl
  | setAnnotations a => exact hw.preview.congr rfl fun _ => rfl
  | setDeployment d => exact hw.preview
  | setReady name ready =>
    refine hw.preview.congr rfl fun _ => ?_
    rw [step, writtenOf_setReady]
  | reconcile inp =>
  rcases blueGreen_synced (X := X) hw.type he with ⟨-, status, hq, heq⟩ |
    ⟨status, result, hout, -, heq⟩
  · rw [heq]
    show PreviewIntact X _ w.replicaSets _ status.canaryRS
    rw [hq.canaryRS]
    exact hw.preview.congr rfl fun _ => rfl
  · rw [heq, settled_canaryRS]
    exact previewIntact_settled hw hguard hout
end

/-! ### Along a run -/

variable [Inhabited P]

/-- Some reconcile of the run read the ReplicaSet `name`, then in `CanaryRS`, as fully ready at time `time`. -/
def ObservedReady (X : Externals P) (w : World P) (es : List (Event P)) (name : String) (time : Int) : Prop :=
  ∃ pre inp post, es = pre ++ .reconcile inp :: post ∧ (after X w pre).status.canaryRS = name ∧
    (after X w pre).previewCount ≤ readyOf ((after X w pre).replicaSets.lookup name) ∧ inp.observedAt = time

theorem ObservedReady.snoc {w : World P} {es : List (Event P)} {name : String} {time : Int}
    (h : ObservedReady X w es name time) (e : Event P) : ObservedReady X w (es ++ [e]) name time := by
  obtain ⟨pre, inp, post, rfl, hrest⟩ := h
  exact ⟨pre, inp, post ++ [e], by simp, hrest⟩

/-- Every stamp stands for an observation of the preview it was made for. -/
def Stamped (X : Externals P) (w : World P) (es : List (Event P)) : Prop :=
  ∀ time, (after X w es).status.previewHealthyAt = some time → ObservedReady X w es (after X w es).status.canaryRS time

theorem Stamped.observed {w : World P} {es : List (Event P)} (h : Stamped X w es) {inp : ReconcileInput}
    (hf : inp.faults = Faults.none) {time : Int} (hstamp : ((after X w es).observed X inp).previewHealthyAt = some time) :
    ObservedReady X w (es ++ [.reconcile inp]) (after X w es).status.canaryRS time := by
  rcases previewHealthyAt_cases hf hstamp with hold | ⟨-, hready, hat⟩
  · exact (h time hold).snoc _
  · exact ⟨es, inp, [], rfl, rfl, hready, hat⟩

theorem Stamped.snoc {w : World P} {es : List (Event P)} {e : Event P} (h : Stamped X w es)
    (hw : Previewing X (after X w es)) (he : e.Calm) (hguard : FindsPreview X (after X w es) e) :
    Stamped X w (es ++ [e]) := by
  intro time hat
  rw [after_append] at hat ⊢
  cases e with
  | setTemplate t => exact (h time hat).snoc _
  | setAnnotations a => exact (h time hat).snoc _
  | setDeployment d => exact (h time hat).snoc _
  | setReady name ready => exact (h time hat).snoc _
  | reconcile inp =>
  change (step X (after X w es) (.reconcile inp)).status.previewHealthyAt = some time at hat
  show ObservedReady X w _ (step X (after X w es) (.reconcile inp)).status.canaryRS time
  rcases blueGreen_synced (X := X) hw.type he with ⟨-, status, hq, heq⟩ |
    ⟨status, result, hout, -, heq⟩
  · rw [heq] at hat ⊢
    rw [hq.previewHealthyAt] at hat
    show ObservedReady X w _ status.canaryRS time
    rw [hq.canaryRS]
    exact (h time hat).snoc _
  rw [heq, settled_previewHealthyAt] at hat
  rw [heq, settled_canaryRS]
  rcases hout.stamp hguard hw with hnone | ⟨hsame, hcanary⟩
  · rw [hnone] at hat; cases hat
  · rw [hsame] at hat
    rw [hcanary]
    exact h.observed he hat

theorem BlueGreen.autoPromotes_spec {cfg : BlueGreenStrategy} {status : RolloutStatus} {now : Int}
    (h : autoPromotes cfg status now = true) :
    ∃ seconds healthyAt, cfg.autoPromotionSeconds = some seconds ∧
      status.previewHealthyAt = some healthyAt ∧ healthyAt + seconds * second ≤ now := by
  unfold autoPromotes at h
  split at h
  · rename_i seconds healthyAt hseconds hhealthy
    simp only [Bool.and_eq_true, decide_eq_true_eq] at h
    exact ⟨seconds, healthyAt, hseconds, hhealthy, by omega⟩
  · cases h

theorem previewing_after {w : World P} (hfresh : Fresh w) (htype : w.rollout.spec.strategy.type = .blueGreen)
    (hlive : w.rollout.annotations abortAnnotation = none) :
    ∀ es, Guarded (step X) (FindsPreview X) w es → (∀ e ∈ es, e.Calm) →
      Previewing X (after X w es) ∧ Stamped X w es := by
  obtain ⟨hstatus, -⟩ := id hfresh
  refine guarded_history (fun _ => ⟨⟨htype, ⟨?_, hlive⟩, World.Names.fresh hfresh, .inl ?_⟩, ?_⟩) ?_
  · show w.status.abort = false
    rw [hstatus]; rfl
  · show w.status.canaryRS = ""
    rw [hstatus]; rfl
  · intro time h
    change w.status.previewHealthyAt = some time at h
    rw [hstatus] at h
    cases h
  · intro es e _ ih hg hcalm
    obtain ⟨hw, hstamped⟩ := ih fun f hf => hcalm f (List.mem_append_left _ hf)
    have he : e.Calm := hcalm e (by simp)
    refine ⟨?_, hstamped.snoc hw he hg⟩
    rw [after_append]
    exact step_previewing he hg hw

/-- **One guarded reconcile** that changes the active hash promotes the preview in `CanaryRS`. -/
theorem reconcile_activates {w : World P} {inp : ReconcileInput} (hw : Previewing X w)
    (hf : inp.faults = Faults.none) (hguard : FindsPreview X w (.reconcile inp))
    (hstable : w.status.stableRS ≠ "")
    (hchange : (step X w (.reconcile inp)).stableHash ≠ w.stableHash) :
    w.status.canaryRS = rsName w.rollout "-preview-" (step X w (.reconcile inp)).stableHash ∧
      ∃ rs, w.replicaSets.lookup w.status.canaryRS = some rs ∧
        X.template rs.written = (step X w (.reconcile inp)).stableHash := by
  obtain ⟨hdrain, hpreview⟩ := hguard.resolve_left hstable
  rcases blueGreen_synced (X := X) hw.type hf with ⟨-, status, hq, heq⟩ | ⟨status, result, hout, -, heq⟩
  · -- a reconcile without a result keeps the name
    refine absurd ?_ hchange
    rw [heq]
    show StrategyType.hashFromRSName _ status.stableRS = _
    rw [hq.stableRS]
    rfl
  have hset : (step X w (.reconcile inp)).stableHash
      = hashFromRSName (status.tracked.trackAll result.replicaSets).stable := by
    rw [heq, World.stableHash, settled_stableRS, settled_rollout, hw.type]
    rfl
  rcases hout.stable_cases hw hdrain hstable with hkept | ⟨hcanary, -, hprom⟩
  · refine absurd ?_ hchange
    rw [hset, hkept, World.stableHash, hw.type]
    rfl
  have hactive : (step X w (.reconcile inp)).stableHash = w.hash X := by
    rw [hset, hprom]
    exact hashAfter_rsName _ _ isMarker_active (template_dash_free X _)
  obtain ⟨hcur, hexists⟩ := hpreview hcanary
  obtain ⟨hname, hcarries, hpres⟩ := hw.canary_eq hcur hcanary
  have hlook : ∃ rs, w.replicaSets.lookup w.status.canaryRS = some rs := by
    rcases hexists with hcount | hsome
    · have hwrote := hpres hcount
      rw [writtenOf] at hwrote
      cases hl : w.replicaSets.lookup w.status.canaryRS with
      | none => rw [hl] at hwrote; exact absurd rfl hwrote
      | some rs => exact ⟨rs, rfl⟩
    · exact isSome_iff_exists.mp hsome
  obtain ⟨rs, hrs⟩ := hlook
  rw [hactive]
  exact ⟨hname, rs, hrs, hcarries rs.written (by rw [writtenOf, hrs]; rfl)⟩

open Sample

/-- A BlueGreen rollout of two replicas that promotes after ten seconds. -/
def twoColours : World Nat :=
  world { noStrategy .blueGreen with blueGreen := some ⟨"", "", some 10, none, none⟩ } 2 none (plain 1)

/-- Revision 2 is in preview when revision 3 and the promote annotation arrive. -/
def lateChange : List (Event Nat) :=
  [reconcileAt 0, .setTemplate (plain 2), reconcileAt 1, .setTemplate (plain 3),
   .setAnnotations (annotated promoteAnnotation)]

/-- Revision 2 is previewed, gets ready and is read so five seconds into the run. -/
def aged : List (Event Nat) :=
  [reconcileAt 0, .setTemplate (plain 2), reconcileAt 1, .setReady "ro-preview-2000000000" 2,
   reconcileAt 5000000000]

end Paprika.Rollouts
