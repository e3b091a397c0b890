import Paprika.Rollouts.Runs

/-!
# The tracked names

Under Canary, BlueGreen, ABTest and Mirror the names in the status keep their shape along every clean run,
aborts included: `StableRS` is the rollout's name, the stable (active) marker and a hash, `CanaryRS` carries the
canary (preview) marker, and `PreviousActiveRS` is a former active name.

* **`step_names`** — a clean step keeps the shapes;
* **`World.Names.stable_ne_canary`** — so the two names never coincide;
* **`Shapes.rebuilt`** — and rebuilding `StableRS` from the hash `hashFromRSName` reads off it gives it back.
-/

namespace Paprika.Rollouts

open Lib.Run

variable {P : Type} {X : Externals P} {w : World P}

/-- The markers of the stable and of the canary ReplicaSet. -/
def StrategyType.markers : StrategyType → String × String
  | .blueGreen => ("-active-", "-preview-")
  | _ => ("-stable-", "-canary-")

def StrategyType.hashFromRSName : StrategyType → String → String
  | .blueGreen => BlueGreen.hashFromRSName
  | _ => Canary.hashFromRSName

theorem StrategyType.hashFromRSName_rsName (t : StrategyType) (ro : Rollout P) {hash : String}
    (hh : '-' ∉ hash.toList) : t.hashFromRSName (rsName ro t.markers.1 hash) = hash := by
  cases t with
  | blueGreen => exact hashAfter_rsName ro ["-preview-"] isMarker_active hh
  | _ => exact hashAfter_rsName ro ["-canary-"] isMarker_stable hh

/-- The name is built from a marker and a hash, which holds no dash. -/
def Named (ro : Rollout P) (marker name : String) : Prop := ∃ hash, '-' ∉ hash.toList ∧ name = rsName ro marker hash

/-- The shapes of the three tracked names. -/
structure Shapes (ro : Rollout P) (t : Tracked) : Prop where
  stable : t.stable = "" ∨ Named ro ro.spec.strategy.type.markers.1 t.stable
  canary : t.canary = "" ∨ ∃ text, t.canary = rsName ro ro.spec.strategy.type.markers.2 text
  previous : t.previous = "" ∨ ro.spec.strategy.type = .blueGreen ∧ Named ro "-active-" t.previous

def World.Names (w : World P) : Prop := Shapes w.rollout w.status.tracked

theorem rsName_markers_ne (t : StrategyType) (ro : Rollout P) (hash text : String) :
    rsName ro t.markers.1 hash ≠ rsName ro t.markers.2 text := by
  intro h
  have hlist := congrArg String.toList h
  simp only [rsName, String.toList_append, List.append_assoc] at hlist
  have htail := List.append_cancel_left hlist
  have hsecond := congrArg (fun l : List Char => l.take 2) htail
  cases t <;> exact absurd hsecond (by simp [StrategyType.markers])

theorem World.Names.stable_ne_canary (h : w.Names) (hs : w.status.stableRS ≠ "") :
    w.status.canaryRS ≠ w.status.stableRS := by
  intro heq
  obtain ⟨hash, -, hname⟩ := h.stable.resolve_left hs
  rcases h.canary with hc | ⟨text, hc⟩
  · exact hs (heq ▸ hc)
  · exact rsName_markers_ne _ _ _ _ (hname.symm.trans (heq.symm.trans hc))

theorem Shapes.stableHash {ro : Rollout P} {t : Tracked} (h : Shapes ro t) (hs : t.stable ≠ "") :
    '-' ∉ (ro.spec.strategy.type.hashFromRSName t.stable).toList := by
  obtain ⟨hash, hh, hname⟩ := h.stable.resolve_left hs
  rw [hname, StrategyType.hashFromRSName_rsName _ _ hh]
  exact hh

theorem Shapes.rebuilt {ro : Rollout P} {t : Tracked} {type : StrategyType} (h : Shapes ro t)
    (ht : ro.spec.strategy.type = type) (hs : t.stable ≠ "") :
    rsName ro type.markers.1 (type.hashFromRSName t.stable) = t.stable := by
  subst ht
  obtain ⟨hash, hh, hname⟩ := h.stable.resolve_left hs
  rw [hname, StrategyType.hashFromRSName_rsName _ _ hh]

/-- The hash at the end of `StableRS`. -/
def World.stableHash (w : World P) : String := w.rollout.spec.strategy.type.hashFromRSName w.status.stableRS

/-! ### One result -/

section
variable {ro : Rollout P} {t : Tracked} {status status' : RolloutStatus} {inp : SyncInputs}
  {result : SyncResult P}

theorem Shapes.current {type : StrategyType} (ht : ro.spec.strategy.type = type) (h : Shapes ro t) :
    Shapes ro { t with stable := rsName ro type.markers.1 (X.currentHash ro) } := by
  subst ht
  exact ⟨.inr ⟨_, template_dash_free X _, rfl⟩, h.canary, h.previous⟩

theorem Shapes.both {type : StrategyType} (ht : ro.spec.strategy.type = type) (h : Shapes ro t) (hs : t.stable ≠ "")
    (text : String) :
    Shapes ro { t with stable := rsName ro type.markers.1 (type.hashFromRSName t.stable),
                       canary := rsName ro type.markers.2 text } := by
  subst ht
  exact ⟨.inr ⟨_, h.stableHash hs, rfl⟩, .inr ⟨text, rfl⟩, h.previous⟩

theorem Shapes.abort (h : Shapes ro status.tracked) (hash : String) (desired : Int) :
    Shapes ro (status.tracked.trackAll (abortResult ro status hash desired).replicaSets) := by
  unfold abortResult
  by_cases hc : status.canaryRS = ""
  · rw [if_pos hc]; exact h
  · rw [if_neg hc]; exact h

theorem Canary.sync_shapes {steps : List CanaryStep} (ht : ro.spec.strategy.type = .canary)
    (h : Shapes ro status.tracked) (hout : Canary.Outcome X steps ro status inp status' result) :
    Shapes ro (status'.tracked.trackAll result.replicaSets) := by
  have hadv : (Canary.advance steps inp.now status).tracked = status.tracked := by
    obtain ⟨i, t, hadv⟩ := Canary.advance_frame steps inp.now status
    rw [hadv]; rfl
  cases hout with
  | create hs => exact h.current ht
  | abort hs ha => exact h.abort _ _
  | createCanary hs ha hc hh => exact h.both ht hs _
  | step hs ha hc step hstep => rw [hadv]; exact h.both ht hs _
  | complete hs ha hstep hh => rw [hadv]; exact h.current ht
  | promote hs ha hc hstep hh => rw [hadv]; exact h.current ht

theorem BlueGreen.sync_shapes {cfg : BlueGreenStrategy} (ht : ro.spec.strategy.type = .blueGreen)
    (h : Shapes ro status.tracked) (hout : BlueGreen.Outcome X cfg ro status inp status' result) :
    Shapes ro (status'.tracked.trackAll result.replicaSets) := by
  cases hout with
  | create hs => exact h.current ht
  | abort hs ha => exact h.abort _ _
  | drained hs ha hp hv hr =>
    have hclear : Shapes ro { status.tracked with previous := "" } := ⟨h.stable, h.canary, .inl rfl⟩
    exact hclear.current ht
  | draining hs ha hp hv hr message hash oldTarget htarget => exact h.current ht
  | activeMatches hs ha hd hc hh => exact h.current ht
  | previewed hs ha hd hc hh => exact h.both ht hs _
  | promote hs ha hd hc hwhy =>
    -- the draining label moves `PreviousActiveRS` to the old active name
    have hold := h.stableHash hs
    rw [ht] at hold
    exact ⟨(h.current ht).stable, .inl rfl, .inr ⟨ht, _, hold, rfl⟩⟩
  | waiting hs ha hd hc hauto hmanual => exact h.both ht hs _

theorem ABTest.sync_shapes (ht : ro.spec.strategy.type = .abTest) (h : Shapes ro status.tracked)
    (hout : ABTest.Outcome X ro status result) :
    Shapes ro (status.tracked.trackAll result.replicaSets) := by
  cases hout with
  | create hs => exact h.current ht
  | abort hs ha => exact h.abort _ _
  | createCanary hs ha hc hh => exact h.both ht hs _
  | promote hs ha hmanual hc => exact h.current ht
  | routed hs ha hmanual message => exact h.both ht hs _

theorem Mirror.sync_shapes (ht : ro.spec.strategy.type = .mirror) (h : Shapes ro status.tracked)
    (hout : Mirror.Outcome X ro status result) :
    Shapes ro (status.tracked.trackAll result.replicaSets) := by
  cases hout with
  | create hs => exact h.current ht
  | abort hs ha => exact h.abort _ _
  | promote hs ha hmanual hc => exact h.current ht
  | mirrored hs ha hp phase action message haction hphase => exact h.both ht hs _

/-- **One result keeps the shapes**, whichever of the four strategies computed it. -/
theorem Strategy.sync_shapes {strategy : Strategy} (ht : ro.spec.strategy.type = strategy.type)
    (hr : ro.spec.strategy.type ≠ .rolling) (h : Shapes ro status.tracked)
    (hsync : strategy.sync X ro status inp = .ok (status', result)) :
    Shapes ro (status'.tracked.trackAll result.replicaSets) := by
  cases strategy with
  | rolling cfg => exact absurd ht hr
  | canary cfg =>
    obtain ⟨c, -, -, hout⟩ := Canary.sync_outcome hsync
    exact Canary.sync_shapes ht h hout
  | blueGreen cfg => exact BlueGreen.sync_shapes ht h (BlueGreen.sync_outcome hsync)
  | abTest cfg =>
    obtain ⟨rfl, hout⟩ := ABTest.sync_outcome hsync
    exact ABTest.sync_shapes ht h hout
  | mirror cfg =>
    obtain ⟨rfl, hout⟩ := Mirror.sync_outcome hsync
    exact Mirror.sync_shapes ht h hout
end

/-! ### Along a run -/

theorem Shapes.congr {a b : Rollout P} {t : Tracked} (hname : b.name = a.name)
    (htype : b.spec.strategy.type = a.spec.strategy.type) (h : Shapes a t) : Shapes b t := by
  have hrs : ∀ marker hash, rsName b marker hash = rsName a marker hash := by
    intro marker hash
    rw [rsName, rsName, hname]
  obtain ⟨hs, hc, hp⟩ := h
  refine ⟨?_, ?_, ?_⟩
  · simpa only [Named, hrs, htype] using hs
  · simpa only [hrs, htype] using hc
  · simpa only [Named, hrs, htype] using hp

theorem World.Names.fresh (h : Fresh w) : w.Names := by
  rw [World.Names, h.1]
  exact ⟨.inl rfl, .inl rfl, .inl rfl⟩

theorem World.Names.observed (h : w.Names) (X : Externals P) (inp : ReconcileInput) :
    Shapes w.effective (w.observed X inp).tracked := by
  rw [observed_tracked]
  exact Shapes.congr (effective_name w) (effective_strategyType w) h

theorem World.Names.observed_active (h : w.Names) (X : Externals P) (inp : ReconcileInput)
    (ht : w.rollout.spec.strategy.type = .blueGreen) (hs : w.status.stableRS ≠ "") :
    rsName w.effective "-active-" (BlueGreen.hashFromRSName (w.observed X inp).stableRS) = w.status.stableRS := by
  rw [effective_rsName, observed_stableRS]
  exact h.rebuilt ht hs

theorem stableHash_blueGreen (X : Externals P) (inp : ReconcileInput)
    (ht : w.rollout.spec.strategy.type = .blueGreen) :
    w.stableHash = BlueGreen.hashFromRSName (w.observed X inp).stableRS := by
  rw [World.stableHash, ht, observed_stableRS]
  rfl

variable [Inhabited P]

theorem step_names (ht : w.rollout.spec.strategy.type ≠ .rolling) {e : Event P} (he : e.Clean)
    (h : w.Names) : (step X w e).Names := by
  cases e with
  | setTemplate t => exact Shapes.congr (a := w.rollout) rfl rfl h
  | setAnnotations a => exact Shapes.congr (a := w.rollout) rfl rfl h
  | setDeployment d => exact h
  | setReady name ready => exact h
  | reconcile inp =>
  rcases synced_cases (X := X) (w := w) he with ⟨-, -, status, hq, heq⟩ |
    ⟨strategy, status, result, -, -, hs, hsync, -, heq⟩
  · rw [heq]
    refine Shapes.congr (a := w.rollout) rfl rfl ?_
    rw [hq.tracked]
    exact h
  have htype := newStrategy_type hs
  have hafter := Strategy.sync_shapes htype (by rw [effective_strategyType]; exact ht)
    (h.observed X inp) hsync
  rw [heq, World.Names, settled_tracked]
  exact Shapes.congr (effective_name w).symm (effective_strategyType w).symm hafter

end Paprika.Rollouts
