import Paprika.Rollouts.Reconcile

/-!
# The targets of a rolling update

`rollingUpdate` scales the old ReplicaSet down as far as the availability floor allows and the new one up into the budget
that this frees.  Both targets are computed from ready counts.

* **`targets_within_bounds_iff`** — the floor, the ceiling and the ready counts are respected, exactly if the floor is
  reached or all old replicas are ready;
* **`unready_old_is_scaled_down`** — an old replica that is not ready for a moment is taken away.
-/

namespace Paprika.Rollouts.Rolling

variable {P : Type} (X : Externals P) (cfg : RollingStrategy) (inp : SyncInputs) (desired : Int)

/-- The surge, which is 1 when the configuration allows neither surge nor unavailability. -/
def surge : Int :=
  if resolveCount X cfg.maxSurge desired = 0 ∧ resolveCount X cfg.maxUnavailable desired = 0 then 1
  else resolveCount X cfg.maxSurge desired

def unavailable : Int := resolveCount X cfg.maxUnavailable desired

/-- The old target of `rollingUpdate`. -/
def oldReplicas : Int :=
  oldTarget (min inp.stableReadyReplicas desired) inp.canaryReadyReplicas
    (max (int32 (desired - unavailable X cfg desired)) 0)

/-- The new target of `rollingUpdate`. -/
def newReplicas : Int :=
  newTarget desired (surge X cfg desired) inp.canaryReadyReplicas (oldReplicas X cfg inp desired)

theorem rollingUpdate_replicas (ro : Rollout P) (status : RolloutStatus) (hash currentHash : String)
    (h : ¬(oldReplicas X cfg inp desired = 0 ∧ inp.canaryReadyReplicas ≥ desired)) :
    (rollingUpdate X cfg ro status inp hash currentHash desired).replicaSets.map (·.replicas) =
      [oldReplicas X cfg inp desired, newReplicas X cfg inp desired] := by
  have hres : (rollingUpdate X cfg ro status inp hash currentHash desired).replicaSets =
      [⟨status.stableRS, oldReplicas X cfg inp desired, none,
          [(stableLabel, "true"), (revisionLabel, currentHash), (rolloutLabel, ro.name)]⟩,
        makeCanaryRS ro hash (newReplicas X cfg inp desired)] :=
    congrArg SyncResult.replicaSets (if_neg h)
  rw [hres]
  rfl

/-! ### Bounds -/

variable {X cfg inp desired}

theorem resolveCount_bounds (v : Option IntOrString) :
    0 ≤ resolveCount X v desired ∧ resolveCount X v desired ≤ 2147483647 := by
  cases v with
  | none =>
    show (0 : Int) ≤ 0 ∧ (0 : Int) ≤ 2147483647
    decide
  | some v =>
  simp only [resolveCount]
  split
  · decide
  · split_ifs <;> omega

theorem int32_of_bounds {x : Int} (hlow : -2147483648 ≤ x) (hhigh : x ≤ 2147483647) : int32 x = x := by
  rw [int32, Int.bmod_def]
  split_ifs <;> omega

/-- The operations of a rolling update stay within 32 bits. -/
structure NoOverflow (X : Externals P) (cfg : RollingStrategy) (inp : SyncInputs) (desired : Int) : Prop where
  replicas : desired ≤ 2147483647
  available : inp.canaryReadyReplicas + min inp.stableReadyReplicas desired ≤ 2147483647
  budget : desired + surge X cfg desired ≤ 2147483647

/-- What a step of a rolling update must respect, with so many replicas in the old ReplicaSet's spec. -/
structure WithinBounds (X : Externals P) (cfg : RollingStrategy) (inp : SyncInputs) (desired oldSpec : Int) : Prop where
  nonneg : 0 ≤ oldReplicas X cfg inp desired
  ready : oldReplicas X cfg inp desired ≤ min inp.stableReadyReplicas desired
  floor : min oldSpec (max 0 (desired - unavailable X cfg desired) - inp.canaryReadyReplicas) ≤ oldReplicas X cfg inp desired
  keepsNew : inp.canaryReadyReplicas ≤ newReplicas X cfg inp desired
  ceiling : oldReplicas X cfg inp desired + newReplicas X cfg inp desired ≤
    max (desired + surge X cfg desired) (oldReplicas X cfg inp desired + inp.canaryReadyReplicas)

/-- The old target, of ready counts within 32 bits: what is ready, less what is above the floor. -/
theorem oldTarget_eq {oldReady newReady floor : Int} (hold : 0 ≤ oldReady) (hnew : 0 ≤ newReady) (hfloor : 0 ≤ floor)
    (havail : newReady + oldReady ≤ 2147483647) :
    oldTarget oldReady newReady floor = min oldReady (max 0 (floor - newReady)) := by
  rw [oldTarget, int32_of_bounds (by omega) havail]
  simp only
  split_ifs with habove
  · have hdown : int32 (newReady + oldReady - floor) = newReady + oldReady - floor :=
      int32_of_bounds (by omega) (by omega)
    rw [hdown, int32_of_bounds (by omega) (by omega)]
    rw [min_eq_right (max_le hold (by omega))]
    omega
  · omega

section
variable (hdesired : 0 ≤ desired) (hready : 0 ≤ inp.stableReadyReplicas) (hnew : 0 ≤ inp.canaryReadyReplicas)
include hdesired hready hnew

theorem oldReplicas_eq (hmax : desired ≤ 2147483647)
    (havail : inp.canaryReadyReplicas + min inp.stableReadyReplicas desired ≤ 2147483647) :
    oldReplicas X cfg inp desired = min (min inp.stableReadyReplicas desired)
      (max 0 (max 0 (desired - unavailable X cfg desired) - inp.canaryReadyReplicas)) := by
  obtain ⟨hlow, hhigh⟩ : 0 ≤ unavailable X cfg desired ∧ unavailable X cfg desired ≤ 2147483647 :=
    resolveCount_bounds cfg.maxUnavailable
  rw [oldReplicas, int32_of_bounds (by omega) (by omega), max_comm (desired - _),
    oldTarget_eq (le_min hready hdesired) hnew (le_max_left _ _) havail]

theorem newReplicas_eq (hfits : NoOverflow X cfg inp desired) : newReplicas X cfg inp desired =
    max (min (desired + surge X cfg desired - oldReplicas X cfg inp desired) desired) inp.canaryReadyReplicas := by
  have hbudget := hfits.budget
  have hmax := hfits.replicas
  have hold : 0 ≤ oldReplicas X cfg inp desired ∧ oldReplicas X cfg inp desired ≤ desired := by
    rw [oldReplicas_eq hdesired hready hnew hmax hfits.available]
    exact ⟨le_min (le_min hready hdesired) (le_max_left _ _), (min_le_left _ _).trans (min_le_right _ _)⟩
  have hsurge : 0 ≤ surge X cfg desired := by
    rw [surge]
    split_ifs
    · decide
    · exact (resolveCount_bounds _).1
  rw [newReplicas, newTarget, int32_of_bounds (by omega) hbudget, int32_of_bounds (by omega) (by omega)]
end

/-- **The floor and the ceiling of a rolling update.** -/
theorem targets_within_bounds_iff (X : Externals P) (cfg : RollingStrategy) (inp : SyncInputs) (desired oldSpec : Int)
    (hdesired : 0 ≤ desired) (hready : 0 ≤ inp.stableReadyReplicas) (hspec : inp.stableReadyReplicas ≤ oldSpec)
    (hnew : 0 ≤ inp.canaryReadyReplicas) (hfits : NoOverflow X cfg inp desired) :
    WithinBounds X cfg inp desired oldSpec ↔
      max 0 (desired - unavailable X cfg desired) ≤ inp.canaryReadyReplicas + min inp.stableReadyReplicas desired ∨
        oldSpec = inp.stableReadyReplicas := by
  have hold : oldReplicas X cfg inp desired = _ := oldReplicas_eq hdesired hready hnew hfits.replicas hfits.available
  have hnewReplicas := newReplicas_eq hdesired hready hnew hfits
  constructor
  · intro h
    have hkeeps := h.floor.trans (hold ▸ min_le_left _ _)
    omega
  intro h
  refine ⟨?_, hold ▸ min_le_left _ _, ?_, hnewReplicas ▸ le_max_right _ _, ?_⟩
  · rw [hold]
    exact le_min (le_min hready hdesired) (le_max_left _ _)
  · have hunavailable : 0 ≤ unavailable X cfg desired := (resolveCount_bounds cfg.maxUnavailable).1
    rw [hold]
    refine le_min ?_ ((min_le_right _ _).trans (le_max_right _ _))
    rcases h with habove | rfl
    · exact (min_le_right _ _).trans (Int.sub_left_le_of_le_add habove)
    · exact le_min (min_le_left _ _) ((min_le_right _ _).trans (by omega))
  · rw [hnewReplicas]
    clear hold h
    omega

open Sample

theorem targets_within_bounds_iff_sample : WithinBounds externals ⟨some (.int 0), some (.int 1)⟩ ⟨0, 3, 1⟩ 3 3 ↔
      max 0 (3 - unavailable externals ⟨some (.int 0), some (.int 1)⟩ 3) ≤ 1 + min 3 3 ∨ (3 : Int) = 3 :=
  targets_within_bounds_iff externals ⟨some (.int 0), some (.int 1)⟩ ⟨0, 3, 1⟩ 3 3 (by decide) (by decide) (by decide)
    (by decide) ⟨by decide, by decide, by decide⟩

/-- Of three replicas that must all be available, the two that are not ready for the moment are taken away. -/
theorem unready_old_is_scaled_down : ¬WithinBounds externals ⟨some (.int 0), some (.int 1)⟩ ⟨0, 1, 0⟩ 3 3 := by
  intro h
  exact absurd h.floor (by decide)

end Paprika.Rollouts.Rolling
