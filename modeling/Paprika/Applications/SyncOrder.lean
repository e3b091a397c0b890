import Paprika.Lib.Text
import Paprika.Applications.RollingSync

/-!
# The order of a rolling sync

What the writes of a pass respect: an Application of a step is updated only when all Applications of the earlier steps,
as the pass has read them, are as rendered and converged; no step goes over its `maxUpdate`; no Application is written
twice or created where there is one; and nothing is deleted while a step is gated.

`applicationConverged` looks at the release of the first stage in declaration order, and not at that of the last stage
in ring order.  `rolling_sync_in_order` therefore asks that the Applications which pass that gate, with something behind
them still to be written, show the release of their last stage complete.
-/

namespace Paprika.Applications

open Lib Lib.Run List

/-! ## The updates of the steps -/

section
variable {scaledValue : IntOrString → Nat → Option Int}
  {applicationReleaseName : String → Application → PromotionStage → String}
  {steps : List RollingSyncStep} {desired : List DesiredApplication} {existing : Existing}

/-- The gate of a step is open. -/
def Clear (applicationReleaseName : String → Application → PromotionStage → String) (steps : List RollingSyncStep)
    (desired : List DesiredApplication) (existing : Existing) (i : Nat) : Prop :=
  ∀ d ∈ desired, stepOf steps d < i → ∃ a, existing.lookup d.name = some a ∧
    applicationMatchesDesired a d = true ∧ applicationConverged (applicationReleaseName d.name) a.app = true

theorem clear_of_unblocked (hnamed : ∀ d ∈ desired, d.name ≠ "") {inFlight : List String} {i : Nat}
    (h : priorStepsUnhealthy applicationReleaseName steps desired existing inFlight i = "") :
    Clear applicationReleaseName steps desired existing i := by
  intro d hd hstep
  have hmem : ∀ {x}, x ∈ byName desired ↔ x ∈ desired := (perm_insertionSort _ desired).mem_iff
  unfold priorStepsUnhealthy at h
  split at h
  · next hnone =>
    have hblocks := List.find?_eq_none.mp hnone d (hmem.mpr hd)
    simp only [Bool.and_eq_true, decide_eq_true_eq, not_and, Bool.not_eq_true] at hblocks
    have hopen := hblocks hstep
    unfold blocks at hopen
    split at hopen
    · cases hopen
    · next a ha =>
      simp only [Bool.or_eq_false_iff, Bool.not_eq_false'] at hopen
      exact ⟨a, ha, hopen.1.2, hopen.2⟩
  · next e he => exact absurd h (hnamed e (hmem.mp (mem_of_find?_eq_some he)))

/-! ### One step -/

section
variable {budget : Int} {d : DesiredApplication}

/-- The ways on from a member: it is new or as rendered, the budget is spent, or it is updated. -/
theorem applyRollingSyncStep_cons (existing : Existing) (budget : Int) (updated : Nat) (d : DesiredApplication)
    (ds : List DesiredApplication) :
    (¬OutOfDate existing d ∧
      applyRollingSyncStep existing budget updated (d :: ds) = applyRollingSyncStep existing budget updated ds) ∨
    (OutOfDate existing d ∧ budget ≤ updated ∧ applyRollingSyncStep existing budget updated (d :: ds) = ([], true)) ∨
    (OutOfDate existing d ∧ updated < budget ∧ applyRollingSyncStep existing budget updated (d :: ds) =
        (d :: (applyRollingSyncStep existing budget (updated + 1) ds).1,
          (applyRollingSyncStep existing budget (updated + 1) ds).2)) := by
  cases hlook : existing.lookup d.name with
  | none =>
    refine .inl ⟨?_, by simp only [applyRollingSyncStep, hlook]⟩
    intro ⟨a, ha, _⟩
    rw [hlook] at ha
    cases ha
  | some a =>
  cases hmatch : applicationMatchesDesired a d with
  | true =>
    refine .inl ⟨?_, by simp only [applyRollingSyncStep, hlook, hmatch, if_true]⟩
    intro ⟨b, hb, hdiffers⟩
    rw [hlook] at hb
    rw [← Option.some.inj hb, hmatch] at hdiffers
    cases hdiffers
  | false =>
  have hout : OutOfDate existing d := ⟨a, hlook, hmatch⟩
  by_cases hspent : budget ≤ updated
  · exact .inr (.inl ⟨hout, hspent, by
      simp only [applyRollingSyncStep, hlook, hmatch, Bool.false_eq_true, if_false, if_pos hspent]⟩)
  · exact .inr (.inr ⟨hout, by omega, by
      simp only [applyRollingSyncStep, hlook, hmatch, Bool.false_eq_true, if_false, if_neg hspent]⟩)

variable (ds : List DesiredApplication)

theorem applyRollingSyncStep_sublist :
    ∀ updated, List.Sublist (applyRollingSyncStep existing budget updated ds).1 ds := by
  induction ds with
  | nil => intro updated; exact List.Sublist.refl []
  | cons d ds ih =>
    intro updated
    obtain ⟨-, h⟩ | ⟨-, -, h⟩ | ⟨-, -, h⟩ := applyRollingSyncStep_cons existing budget updated d ds
    · rw [h]; exact (ih updated).cons d
    · rw [h]; exact nil_sublist _
    · rw [h]; exact (ih (updated + 1)).cons_cons d

theorem outOfDate_of_updated :
    ∀ {updated}, d ∈ (applyRollingSyncStep existing budget updated ds).1 → OutOfDate existing d := by
  induction ds with
  | nil => intro updated hd; cases hd
  | cons e ds ih =>
    intro updated hd
    obtain ⟨-, h⟩ | ⟨-, -, h⟩ | ⟨hout, -, h⟩ := applyRollingSyncStep_cons existing budget updated e ds
    · rw [h] at hd; exact ih hd
    · rw [h] at hd; cases hd
    · rw [h] at hd
      obtain rfl | hd := mem_cons.mp hd
      · exact hout
      · exact ih hd

theorem applyRollingSyncStep_length (existing : Existing) (ds : List DesiredApplication) :
    ∀ updated : Nat, (updated : Int) ≤ budget →
      ((applyRollingSyncStep existing budget updated ds).1.length + updated : Int) ≤ budget := by
  induction ds with
  | nil => intro updated h; simpa [applyRollingSyncStep] using h
  | cons e ds ih =>
    intro updated hle
    obtain ⟨-, h⟩ | ⟨-, -, h⟩ | ⟨-, hlt, h⟩ := applyRollingSyncStep_cons existing budget updated e ds
    · rw [h]; exact ih updated hle
    · rw [h]; simpa using hle
    · have hnext := ih (updated + 1) (by omega)
      rw [h, length_cons]
      omega

theorem updated_of_outOfDate : ∀ {updated},
    (applyRollingSyncStep existing budget updated ds).2 = false → d ∈ ds → OutOfDate existing d →
      d ∈ (applyRollingSyncStep existing budget updated ds).1 := by
  induction ds with
  | nil => intro updated _ hd; cases hd
  | cons e ds ih =>
    intro updated hgo hd hout
    obtain ⟨hnot, h⟩ | ⟨-, -, h⟩ | ⟨-, -, h⟩ := applyRollingSyncStep_cons existing budget updated e ds
    · rw [h] at hgo ⊢
      obtain rfl | hd := mem_cons.mp hd
      · exact absurd hout hnot
      · exact ih hgo hd hout
    · rw [h] at hgo; cases hgo
    · rw [h] at hgo ⊢
      obtain rfl | hd := mem_cons.mp hd
      · exact mem_cons_self
      · exact mem_cons_of_mem e (ih hgo hd hout)
end

theorem stepMaxUpdate_nonneg (scaledValue : IntOrString → Nat → Option Int) (steps : List RollingSyncStep) (i n : Nat) :
    0 ≤ stepMaxUpdate scaledValue steps i n := by
  unfold stepMaxUpdate
  split
  · exact Int.natCast_nonneg n
  split
  · exact Int.natCast_nonneg n
  · split
    · exact Int.one_nonneg
    · split <;> omega

/-! ### All steps -/

def stepUpdates (scaledValue : IntOrString → Nat → Option Int) (steps : List RollingSyncStep)
    (desired : List DesiredApplication) (existing : Existing) (i : Nat) : List DesiredApplication × Bool :=
  applyRollingSyncStep existing (stepMaxUpdate scaledValue steps i (members steps desired i).length) 0
    (members steps desired i)

/-- The ways on from a step: it has no members, it is gated before or after its updates, or the next ones follow. -/
theorem applySteps_cons (scaledValue : IntOrString → Nat → Option Int)
    (applicationReleaseName : String → Application → PromotionStage → String) (existing : Existing)
    (hnamed : ∀ d ∈ desired, d.name ≠ "") (i : Nat) (later : List Nat) (inFlight : List String) :
    (members steps desired i = [] ∧
      applySteps scaledValue applicationReleaseName steps desired existing (i :: later) inFlight =
        applySteps scaledValue applicationReleaseName steps desired existing later inFlight) ∨
    (∃ step, applySteps scaledValue applicationReleaseName steps desired existing (i :: later) inFlight =
      ([], some step)) ∨
    (Clear applicationReleaseName steps desired existing i ∧
      ∃ step, applySteps scaledValue applicationReleaseName steps desired existing (i :: later) inFlight =
        ((stepUpdates scaledValue steps desired existing i).1.map (fun d => (d, i)), some step)) ∨
    (Clear applicationReleaseName steps desired existing i ∧ (stepUpdates scaledValue steps desired existing i).2 = false ∧
      ∃ inFlight', applySteps scaledValue applicationReleaseName steps desired existing (i :: later) inFlight =
        ((stepUpdates scaledValue steps desired existing i).1.map (fun d => (d, i)) ++
            (applySteps scaledValue applicationReleaseName steps desired existing later inFlight').1,
          (applySteps scaledValue applicationReleaseName steps desired existing later inFlight').2)) := by
  rw [applySteps]
  by_cases hempty : members steps desired i = []
  · rw [if_pos hempty]
    exact .inl ⟨hempty, rfl⟩
  rw [if_neg hempty]
  by_cases hblocked : priorStepsUnhealthy applicationReleaseName steps desired existing inFlight i = ""
  · have hclear := clear_of_unblocked hnamed hblocked
    simp only [hblocked, ne_eq, not_true_eq_false, if_false]
    cases hspent : (stepUpdates scaledValue steps desired existing i).2 with
    | true =>
      refine .inr (.inr (.inl ⟨hclear, (i + 1, ""), ?_⟩))
      rw [stepUpdates] at hspent
      rw [if_pos hspent]
      rfl
    | false =>
    refine .inr (.inr (.inr ⟨hclear, rfl, inFlight ++ (stepUpdates scaledValue steps desired existing i).1.map
      (·.name), ?_⟩))
    rw [stepUpdates] at hspent
    rw [if_neg (by rw [hspent]; exact Bool.false_ne_true)]
    rfl
  · refine .inr (.inl ⟨(i + 1, priorStepsUnhealthy applicationReleaseName steps desired existing inFlight i), ?_⟩)
    simp only [ne_eq, hblocked, not_false_eq_true, if_true]

section
variable (hnamed : ∀ d ∈ desired, d.name ≠ "")
include hnamed

/-- What there is to say of an update: its Application is a member of its step and out of date, and the gate is open. -/
theorem applySteps_update (is : List Nat) : ∀ {inFlight : List String} {d : DesiredApplication} {i : Nat},
    (d, i) ∈ (applySteps scaledValue applicationReleaseName steps desired existing is inFlight).1 →
      i ∈ is ∧ d ∈ members steps desired i ∧ OutOfDate existing d ∧
        Clear applicationReleaseName steps desired existing i := by
  induction is with
  | nil => intro inFlight d i h; cases h
  | cons j is ih =>
    intro inFlight d i h
    have hown : Clear applicationReleaseName steps desired existing j →
        (d, i) ∈ (stepUpdates scaledValue steps desired existing j).1.map (fun d => (d, j)) →
        i ∈ j :: is ∧ d ∈ members steps desired i ∧ OutOfDate existing d ∧
          Clear applicationReleaseName steps desired existing i := by
      intro hclear hmem
      obtain ⟨e, he, heq⟩ := mem_map.mp hmem
      obtain ⟨rfl, rfl⟩ := Prod.mk.inj heq
      exact ⟨mem_cons_self, (applyRollingSyncStep_sublist _ 0).subset he, outOfDate_of_updated _ he, hclear⟩
    have hlater : ∀ {inFlight' : List String},
        (d, i) ∈ (applySteps scaledValue applicationReleaseName steps desired existing is inFlight').1 →
        i ∈ j :: is ∧ d ∈ members steps desired i ∧ OutOfDate existing d ∧
          Clear applicationReleaseName steps desired existing i := by
      intro inFlight' hmem
      obtain ⟨hi, hrest⟩ := ih hmem
      exact ⟨mem_cons_of_mem j hi, hrest⟩
    obtain ⟨-, h'⟩ | ⟨step, h'⟩ | ⟨hclear, step, h'⟩ | ⟨hclear, -, inFlight', h'⟩ :=
      applySteps_cons scaledValue applicationReleaseName existing hnamed j is inFlight
    · rw [h'] at h; exact hlater h
    · rw [h'] at h; cases h
    · rw [h'] at h; exact hown hclear h
    · rw [h'] at h
      obtain h | h := mem_append.mp h
      · exact hown hclear h
      · exact hlater h

theorem applySteps_nodup (hdist : desired.Nodup) (is : List Nat) : ∀ {inFlight : List String}, is.Nodup →
    ((applySteps scaledValue applicationReleaseName steps desired existing is inFlight).1.map Prod.fst).Nodup := by
  have hown : ∀ j, ((stepUpdates scaledValue steps desired existing j).1.map (fun d => (d, j))).map Prod.fst =
      (stepUpdates scaledValue steps desired existing j).1 := by
    intro j
    rw [map_map]
    exact map_id _
  have hownNodup : ∀ j, (stepUpdates scaledValue steps desired existing j).1.Nodup := by
    intro j
    refine (applyRollingSyncStep_sublist _ 0).nodup ?_
    exact (perm_insertionSort _ _).nodup_iff.mpr (hdist.filter _)
  induction is with
  | nil => intro inFlight _; exact nodup_nil
  | cons j is ih =>
    intro inFlight his
    obtain ⟨hj, his⟩ := nodup_cons.mp his
    obtain ⟨-, h⟩ | ⟨step, h⟩ | ⟨-, step, h⟩ | ⟨-, -, inFlight', h⟩ :=
      applySteps_cons scaledValue applicationReleaseName existing hnamed j is inFlight
    · rw [h]; exact ih his
    · rw [h]; exact nodup_nil
    · rw [h, hown]; exact hownNodup j
    · rw [h, map_append, hown]
      refine List.Nodup.append (hownNodup j) (ih his) ?_
      intro d hd hlater
      obtain ⟨⟨e, i⟩, he, rfl⟩ := mem_map.mp hlater
      obtain ⟨hi, hmember, -⟩ := applySteps_update hnamed is he
      have hstep := (mem_members.mp ((applyRollingSyncStep_sublist _ 0).subset hd)).2
      rw [(mem_members.mp hmember).2] at hstep
      exact hj (hstep ▸ hi)

theorem applySteps_budget (i : Nat) (is : List Nat) : ∀ {inFlight : List String}, is.Nodup →
    (((applySteps scaledValue applicationReleaseName steps desired existing is inFlight).1.countP
      (fun u => u.2 == i) : Nat) : Int) ≤ stepMaxUpdate scaledValue steps i (members steps desired i).length := by
  have hnonneg := stepMaxUpdate_nonneg scaledValue steps i (members steps desired i).length
  have hown : ∀ j, (((stepUpdates scaledValue steps desired existing j).1.map (fun d => (d, j))).countP
      (fun u => u.2 == i) : Nat) = if j = i then (stepUpdates scaledValue steps desired existing j).1.length else 0 := by
    intro j
    rw [countP_map]
    by_cases hj : j = i
    · rw [if_pos hj]
      exact countP_eq_length.mpr (fun d _ => by simp [hj])
    · rw [if_neg hj]
      exact countP_eq_zero.mpr (fun d _ => by simp [hj])
  have hlen : ((stepUpdates scaledValue steps desired existing i).1.length : Int) ≤
      stepMaxUpdate scaledValue steps i (members steps desired i).length := by
    have h := applyRollingSyncStep_length existing (members steps desired i) 0 hnonneg
    simpa [stepUpdates] using h
  have howned : ∀ j, (((stepUpdates scaledValue steps desired existing j).1.map (fun d => (d, j))).countP
      (fun u => u.2 == i) : Int) ≤ stepMaxUpdate scaledValue steps i (members steps desired i).length := by
    intro j
    rw [hown]
    split
    · next hj => rw [hj]; exact hlen
    · exact hnonneg
  induction is with
  | nil => intro inFlight _; exact hnonneg
  | cons j is ih =>
    intro inFlight his
    obtain ⟨hj, his⟩ := nodup_cons.mp his
    obtain ⟨-, h⟩ | ⟨step, h⟩ | ⟨-, step, h⟩ | ⟨-, -, inFlight', h⟩ :=
      applySteps_cons scaledValue applicationReleaseName existing hnamed j is inFlight
    · rw [h]; exact ih his
    · rw [h]; exact hnonneg
    · rw [h]; exact howned j
    · rw [h, countP_append]
      by_cases hji : j = i
      · have hzero : (applySteps scaledValue applicationReleaseName steps desired existing is inFlight').1.countP
            (fun u => u.2 == i) = 0 := by
          refine countP_eq_zero.mpr ?_
          intro ⟨d, k⟩ hu hk
          have hk : k = i := by simpa using hk
          exact hj (hji ▸ hk ▸ (applySteps_update hnamed is hu).1)
        rw [hzero, Nat.add_zero]
        exact howned j
      · rw [hown, if_neg hji, Nat.zero_add]
        exact ih his

theorem applySteps_open (is : List Nat) : ∀ {inFlight : List String},
    (applySteps scaledValue applicationReleaseName steps desired existing is inFlight).2 = none →
      ∀ i ∈ is, members steps desired i ≠ [] → Clear applicationReleaseName steps desired existing i ∧
        ∀ d ∈ members steps desired i, OutOfDate existing d →
          (d, i) ∈ (applySteps scaledValue applicationReleaseName steps desired existing is inFlight).1 := by
  induction is with
  | nil => intro inFlight _ i hi; cases hi
  | cons j is ih =>
    intro inFlight hnone i hi hmembers
    obtain ⟨hempty, h⟩ | ⟨step, h⟩ | ⟨-, step, h⟩ | ⟨hclear, hgo, inFlight', h⟩ :=
      applySteps_cons scaledValue applicationReleaseName existing hnamed j is inFlight
    · rw [h] at hnone ⊢
      obtain rfl | hi := mem_cons.mp hi
      · exact absurd hempty hmembers
      · exact ih hnone i hi hmembers
    · rw [h] at hnone; cases hnone
    · rw [h] at hnone; cases hnone
    · rw [h] at hnone ⊢
      obtain rfl | hi := mem_cons.mp hi
      · refine ⟨hclear, ?_⟩
        intro d hd hout
        exact mem_append_left _ (mem_map.mpr ⟨d, updated_of_outOfDate _ hgo hd hout, rfl⟩)
      · obtain ⟨hopen, hupdated⟩ := ih hnone i hi hmembers
        exact ⟨hopen, fun d hd hout => mem_append_right _ (hupdated d hd hout)⟩
end

end

/-! ## The writes of a pass -/

def SyncOp.updates (i : Nat) : SyncOp → Bool
  | .update _ step => step == i
  | .create _ | .delete _ => false

section
variable {scaledValue : IntOrString → Nat → Option Int}
  {applicationReleaseName : String → Application → PromotionStage → String}
  {steps : List RollingSyncStep} {desired : List DesiredApplication} {existing : Existing}

theorem mem_applyAllApplicationUpdates {op : SyncOp} (h : op ∈ applyAllApplicationUpdates steps desired existing) :
    (∃ d ∈ desired, op = .create d ∧ existing.lookup d.name = none) ∨
      ∃ d ∈ desired, op = .update d steps.length ∧ OutOfDate existing d := by
  obtain ⟨d, hd, hop⟩ := mem_filterMap.mp h
  split at hop
  · next hnone => exact .inl ⟨d, hd, (Option.some.inj hop).symm, hnone⟩
  · next a ha =>
    split at hop
    · cases hop
    · next hdiffers =>
      exact .inr ⟨d, hd, (Option.some.inj hop).symm, a, ha, Bool.not_eq_true _ ▸ hdiffers⟩

theorem nodup_applyAllApplicationUpdates (hdist : (desired.map (·.name)).Nodup) :
    ((applyAllApplicationUpdates steps desired existing).map SyncOp.name).Nodup := by
  refine List.Sublist.nodup ?_ hdist
  induction desired with
  | nil => exact List.Sublist.refl []
  | cons d ds ih =>
    have ih := ih (nodup_cons.mp hdist).2
    rw [applyAllApplicationUpdates] at ih ⊢
    rw [filterMap_cons]
    split
    · exact ih.cons d.name
    · next op hop =>
      have hname : op.name = d.name := by
        split at hop
        · rw [← Option.some.inj hop]; rfl
        · split at hop
          · cases hop
          · rw [← Option.some.inj hop]; rfl
      rw [map_cons, map_cons, hname]
      exact ih.cons_cons d.name

section
variable (hnamed : ∀ d ∈ desired, d.name ≠ "") (hdist : (desired.map (·.name)).Nodup)
include hnamed

/-- The writes before the deletions: new Applications, and updates behind open gates. -/
theorem mem_applyApplicationUpdates {op : SyncOp}
    (h : op ∈ (applyApplicationUpdates scaledValue applicationReleaseName steps desired existing).1) :
    (∃ d ∈ desired, op = .create d ∧ existing.lookup d.name = none) ∨
      ∃ d ∈ desired, op = .update d (stepOf steps d) ∧ OutOfDate existing d ∧
        Clear applicationReleaseName steps desired existing (stepOf steps d) := by
  unfold applyApplicationUpdates at h
  split at h
  · next hempty =>
    have hsteps : steps = [] := isEmpty_iff.mp hempty
    obtain hcreate | ⟨d, hd, hop, hout⟩ := mem_applyAllApplicationUpdates h
    · exact .inl hcreate
    refine .inr ⟨d, hd, ?_, hout, ?_⟩
    · rw [hop, hsteps]
      rfl
    · intro e _ he
      rw [hsteps] at he
      exact absurd he (Nat.not_lt_zero _)
  · obtain h | h := mem_append.mp h
    · obtain ⟨d, hd, rfl⟩ := mem_map.mp h
      obtain ⟨hd, hlisted⟩ := mem_filter.mp hd
      refine .inl ⟨d, hd, rfl, ?_⟩
      simpa [listed] using hlisted
    · obtain ⟨⟨d, i⟩, hu, rfl⟩ := mem_map.mp h
      obtain ⟨-, hmember, hout, hclear⟩ := applySteps_update hnamed _ hu
      obtain ⟨hd, rfl⟩ := mem_members.mp hmember
      exact .inr ⟨d, hd, rfl, hout, hclear⟩

include hdist in
theorem nodup_applyApplicationUpdates :
    ((applyApplicationUpdates scaledValue applicationReleaseName steps desired existing).1.map SyncOp.name).Nodup := by
  unfold applyApplicationUpdates
  split
  · exact nodup_applyAllApplicationUpdates hdist
  rw [map_append]
  have hcreates : ((createMissingApplications desired existing).map SyncOp.name).Nodup := by
    rw [createMissingApplications, map_map]
    exact (filter_sublist.map _).nodup hdist
  have hupdates : ((applySteps scaledValue applicationReleaseName steps desired existing
      (List.range (steps.length + 1)) []).1.map Prod.fst).Nodup :=
    applySteps_nodup hnamed hdist.of_map _ nodup_range
  have hmem : ∀ u ∈ (applySteps scaledValue applicationReleaseName steps desired existing
      (List.range (steps.length + 1)) []).1, u.1 ∈ desired ∧ OutOfDate existing u.1 := by
    intro ⟨d, i⟩ hu
    obtain ⟨-, hmember, hout, -⟩ := applySteps_update hnamed _ hu
    exact ⟨(mem_members.mp hmember).1, hout⟩
  refine List.Nodup.append hcreates ?_ ?_
  · have hnames := List.Nodup.map_on (f := DesiredApplication.name) (by
      intro x hx y hy hname
      obtain ⟨u, hu, rfl⟩ := mem_map.mp hx
      obtain ⟨v, hv, rfl⟩ := mem_map.mp hy
      exact inj_on_of_nodup_map hdist (hmem u hu).1 (hmem v hv).1 hname) hupdates
    rw [map_map] at hnames ⊢
    exact hnames
  · intro name hcreated hupdated
    obtain ⟨op, hop, rfl⟩ := mem_map.mp hcreated
    obtain ⟨d, hd, rfl⟩ := mem_map.mp hop
    obtain ⟨op, hop, hname⟩ := mem_map.mp hupdated
    obtain ⟨u, hu, rfl⟩ := mem_map.mp hop
    obtain ⟨a, ha, -⟩ := (hmem u hu).2
    have hnew : existing.lookup d.name = none := by simpa [listed] using (mem_filter.mp hd).2
    have hname : u.1.name = d.name := hname
    rw [hname, hnew] at ha
    cases ha

theorem applyApplicationUpdates_open
    (h : (applyApplicationUpdates scaledValue applicationReleaseName steps desired existing).2 = none) :
    ∀ d ∈ desired, Clear applicationReleaseName steps desired existing (stepOf steps d) ∧ (OutOfDate existing d →
        .update d (stepOf steps d) ∈ (applyApplicationUpdates scaledValue applicationReleaseName steps desired existing).1) := by
  intro d hd
  unfold applyApplicationUpdates at h ⊢
  split at h
  · next hempty =>
    have hsteps : steps = [] := isEmpty_iff.mp hempty
    rw [if_pos hempty]
    constructor
    · intro e _ he
      rw [hsteps] at he
      exact absurd he (Nat.not_lt_zero _)
    intro ⟨a, ha, hdiffers⟩
    refine mem_filterMap.mpr ⟨d, hd, ?_⟩
    rw [ha, hsteps]
    simp only [hdiffers, Bool.false_eq_true, if_false]
    rfl
  · next hempty =>
    rw [if_neg hempty]
    have hle : stepOf steps d < steps.length + 1 := Nat.lt_succ_of_le findIdx_le_length
    have hmember : d ∈ members steps desired (stepOf steps d) := mem_members.mpr ⟨hd, rfl⟩
    obtain ⟨hclear, hupdated⟩ := applySteps_open hnamed _ h (stepOf steps d) (mem_range.mpr hle)
      (ne_nil_of_mem hmember)
    refine ⟨hclear, ?_⟩
    intro hout
    exact mem_append_right _ (mem_map.mpr ⟨_, hupdated d hmember hout, rfl⟩)

theorem mem_syncPlan_delete {name : String}
    (h : .delete name ∈ syncPlan scaledValue applicationReleaseName steps desired existing) :
    name ∈ obsolete desired existing ∧
      (applyApplicationUpdates scaledValue applicationReleaseName steps desired existing).2 = none := by
  obtain h | h := mem_append.mp h
  · obtain ⟨d, -, hop, -⟩ | ⟨d, -, hop, -⟩ := mem_applyApplicationUpdates hnamed h
    · cases hop
    · cases hop
  split at h
  · next hgate =>
    obtain ⟨n, hn, hop⟩ := mem_map.mp h
    rw [SyncOp.delete.inj hop] at hn
    exact ⟨hn, Option.isNone_iff_eq_none.mp hgate⟩
  · cases h

include hdist in
theorem nodup_syncPlan (honce : (existing.map (·.1)).Nodup) :
    ((syncPlan scaledValue applicationReleaseName steps desired existing).map SyncOp.name).Nodup := by
  rw [syncPlan, map_append]
  refine List.Nodup.append (nodup_applyApplicationUpdates hnamed hdist) ?_ ?_
  · split
    · rw [map_map]
      show ((obsolete desired existing).map id).Nodup
      rw [map_id]
      exact honce.filter _
    · exact nodup_nil
  intro name hwrote hdel
  obtain ⟨op, hop, rfl⟩ := mem_map.mp hwrote
  have hdes : op.name ∈ desired.map (·.name) := by
    obtain ⟨d, hd, rfl, -⟩ | ⟨d, hd, rfl, -⟩ := mem_applyApplicationUpdates hnamed hop
    · exact mem_map_of_mem hd
    · exact mem_map_of_mem hd
  split at hdel
  · rw [map_map] at hdel
    obtain ⟨n, hn, hname⟩ := mem_map.mp hdel
    have hname : n = op.name := hname
    have hgone := (mem_filter.mp hn).2
    rw [hname] at hgone
    simp only [contains_eq_mem, hdes, decide_true, Bool.not_true] at hgone
    cases hgone
  · cases hdel
end

theorem applyApplicationUpdates_budget (scaledValue : IntOrString → Nat → Option Int)
    (applicationReleaseName : String → Application → PromotionStage → String) (existing : Existing)
    (hnamed : ∀ d ∈ desired, d.name ≠ "") (i : Nat) (hi : i < steps.length) :
    (((applyApplicationUpdates scaledValue applicationReleaseName steps desired existing).1.countP
      (SyncOp.updates i) : Nat) : Int) ≤ stepMaxUpdate scaledValue steps i (members steps desired i).length := by
  unfold applyApplicationUpdates
  split
  · next hempty =>
    rw [isEmpty_iff.mp hempty] at hi
    exact absurd hi (Nat.not_lt_zero i)
  have hcreates : (createMissingApplications desired existing).countP (SyncOp.updates i) = 0 := by
    refine countP_eq_zero.mpr ?_
    intro op hop
    obtain ⟨d, -, rfl⟩ := mem_map.mp hop
    exact Bool.false_ne_true
  rw [countP_append, hcreates, Nat.zero_add, countP_map]
  exact applySteps_budget hnamed i _ nodup_range
end

/-! ### What of it takes place -/

theorem SetWorld.apps_set_ne {w : SetWorld} {name n : String} (h : n ≠ name) (a : Option SetApplication) :
    (w.set name a).apps n = w.apps n := if_neg h

section
variable {p : Pass} {w v : SetWorld}

theorem write_some {op : SyncOp} {v' : SetWorld} (h : p.write w v op = some v') :
    (∃ a, v' = v.set op.name a) ∧ ∀ d, op = .create d → (v.apps d.name).current = none := by
  unfold Pass.write at h
  split at h
  · cases h
  cases op with
  | create d =>
    simp only [Option.ite_none_right_eq_some, Option.some.injEq] at h
    refine ⟨⟨_, h.2.symm⟩, ?_⟩
    intro e he
    rw [← SyncOp.create.inj he]
    exact Option.isNone_iff_eq_none.mp h.1
  | update d i =>
    refine ⟨?_, fun e he => by cases he⟩
    simp only at h
    split at h
    · cases h
    · simp only [Option.ite_none_right_eq_some, Option.some.injEq] at h
      exact ⟨_, h.2.symm⟩
  | delete name =>
    simp only [Option.ite_none_right_eq_some, Option.some.injEq] at h
    exact ⟨⟨_, h.2.symm⟩, fun e he => by cases he⟩

variable (ops : List SyncOp)

theorem execute_isPrefix : ∀ v, (p.execute w v ops).1 <+: ops := by
  induction ops with
  | nil => intro v; exact prefix_rfl
  | cons op ops ih =>
    intro v
    unfold Pass.execute
    split
    · exact nil_prefix
    · exact prefix_cons_inj op |>.mpr (ih _)

theorem execute_create : ∀ {v}, (ops.map SyncOp.name).Nodup →
    ∀ d, .create d ∈ (p.execute w v ops).1 → (v.apps d.name).current = none := by
  induction ops with
  | nil => intro v _ d hd; cases hd
  | cons op ops ih =>
    intro v hnd d hd
    obtain ⟨hop, hops⟩ := nodup_cons.mp hnd
    unfold Pass.execute at hd
    split at hd
    · cases hd
    · next v' hwrite =>
      obtain ⟨⟨a, rfl⟩, hcreate⟩ := write_some hwrite
      obtain hfirst | hd := mem_cons.mp hd
      · exact hcreate d hfirst.symm
      have hne : d.name ≠ op.name := by
        intro hname
        exact hop (hname ▸ mem_map_of_mem ((execute_isPrefix ops _).subset hd))
      rw [← SetWorld.apps_set_ne hne a]
      exact ih hops d hd

theorem existing_once (p : Pass) (w : SetWorld) : ((p.existing w).map (·.1)).Nodup := by
  refine List.Sublist.nodup ?_ p.listedOnce
  unfold Pass.existing
  induction p.listed with
  | nil => exact List.Sublist.refl []
  | cons e es ih =>
    rw [filterMap_cons]
    cases hvalue : ((w.apps e.1).read e.2).value with
    | none => exact ih.cons e.1
    | some a => exact ih.cons_cons e.1
end

/-! ## The order -/

def lastStage (spec : ApplicationSpec) : Option PromotionStage := (stageOrder spec.stages).getLast?

def lastStageComplete (applicationReleaseName : Application → PromotionStage → String) (app : Application) : Bool :=
  match lastStage app.spec with
  | none => true
  | some stage =>
    app.status.releaseRef == applicationReleaseName app stage &&
      (app.status.stages.find? (fun s => s.1 == stage.name)).map Prod.snd == some "Complete"

/-- Converged for its spec: the status is of its generation, it is healthy, and its last release complete. -/
structure Converged (applicationReleaseName : Application → PromotionStage → String) (app : Application) : Prop where
  observed : app.status.observedGeneration = app.generation
  complete : lastStageComplete applicationReleaseName app = true
  assessed : app.status.resourceHealth ≠ []
  healthy : ∀ rh ∈ app.status.resourceHealth, rh.2 = "Healthy"

section
variable (scaledValue : IntOrString → Nat → Option Int)
  (applicationReleaseName : String → Application → PromotionStage → String)

/-- The Application is listed as it is rendered, and converged. -/
def Rolled (existing : Existing) (d : DesiredApplication) : Prop :=
  ∃ a, existing.lookup d.name = some a ∧ applicationMatchesDesired a d = true ∧
    Converged (applicationReleaseName d.name) a.app

structure InStepOrder (w : SetWorld) (p : Pass) : Prop where
  /-- An update is of an Application of its step, behind steps that are through. -/
  ordered : ∀ d i, .update d i ∈ p.performed scaledValue applicationReleaseName w →
    d ∈ p.desired ∧ OutOfDate (p.existing w) d ∧ i = stepOf p.steps d ∧
      ∀ e ∈ p.desired, stepOf p.steps e < i → Rolled applicationReleaseName (p.existing w) e
  /-- A step has at most `maxUpdate` updates. -/
  budget : ∀ i s m v, p.steps[i]? = some s → s.maxUpdate = some m →
    scaledValue m (members p.steps p.desired i).length = some v →
      (p.performed scaledValue applicationReleaseName w).countP (SyncOp.updates i) ≤ v.toNat
  /-- No Application is written twice. -/
  once : ((p.performed scaledValue applicationReleaseName w).map SyncOp.name).Nodup
  created : ∀ d, .create d ∈ p.performed scaledValue applicationReleaseName w →
    d ∈ p.desired ∧ (w.apps d.name).current = none
  /-- What is deleted is not rendered, all steps are through, and nothing is left out of date. -/
  deleted : ∀ name, .delete name ∈ p.performed scaledValue applicationReleaseName w → (∀ d ∈ p.desired, d.name ≠ name) ∧
      ∀ d ∈ p.desired,
        (∀ e ∈ p.desired, stepOf p.steps e < stepOf p.steps d → Rolled applicationReleaseName (p.existing w) e) ∧
        (OutOfDate (p.existing w) d → .update d (stepOf p.steps d) ∈ p.performed scaledValue applicationReleaseName w)

/-- What lets a pass keep to the order: an Application that passes the gate shows the release of its last stage complete, and
the `maxUpdate` of a step with something to update is at least one. -/
structure Gated (w : SetWorld) (p : Pass) : Prop where
  complete : ∀ e ∈ p.desired, ∀ a ∈ (p.existing w).lookup e.name, applicationMatchesDesired a e = true →
    applicationConverged (applicationReleaseName e.name) a.app = true →
    (∃ d ∈ p.desired, stepOf p.steps e < stepOf p.steps d ∧
      (OutOfDate (p.existing w) d ∨ obsolete p.desired (p.existing w) ≠ [])) →
    lastStageComplete (applicationReleaseName e.name) a.app = true
  positive : ∀ i ∈ List.range p.steps.length, ∀ s ∈ p.steps[i]?, ∀ m ∈ s.maxUpdate,
    ∀ v ∈ scaledValue m (members p.steps p.desired i).length,
      (∃ d ∈ members p.steps p.desired i, OutOfDate (p.existing w) d) → 1 ≤ v

instance (w : SetWorld) (p : Pass) : Decidable (Gated scaledValue applicationReleaseName w p) :=
  have _ : ∀ (q r : Prop) [Decidable q] [Decidable r], Decidable (q → r) := fun _ _ => instDecidableForall
  decidable_of_iff (_ ∧ _) ⟨fun h => ⟨h.1, h.2⟩, fun h => ⟨h.complete, h.positive⟩⟩
end

section
variable {scaledValue : IntOrString → Nat → Option Int}
  {applicationReleaseName : String → Application → PromotionStage → String} {w : SetWorld} {p : Pass}

theorem converged_of_gate {N : Application → PromotionStage → String} {app : Application}
    (h : applicationConverged N app = true) (hcomp : lastStageComplete N app = true) : Converged N app := by
  simp only [applicationConverged, Bool.and_eq_true, beq_iff_eq, Bool.not_eq_true', all_eq_true] at h
  obtain ⟨⟨⟨hobs, -⟩, hassessed⟩, hhealthy⟩ := h
  refine ⟨hobs.symm, hcomp, ?_, hhealthy⟩
  intro hnil
  rw [hnil] at hassessed
  cases hassessed

/-- Behind an open gate with something to write, the earlier steps are through. -/
theorem Gated.rolled (h : Gated scaledValue applicationReleaseName w p) {d : DesiredApplication} (hd : d ∈ p.desired)
    (hclear : Clear applicationReleaseName p.steps p.desired (p.existing w) (stepOf p.steps d))
    (hpend : OutOfDate (p.existing w) d ∨ obsolete p.desired (p.existing w) ≠ []) :
    ∀ e ∈ p.desired, stepOf p.steps e < stepOf p.steps d → Rolled applicationReleaseName (p.existing w) e := by
  intro e he hstep
  obtain ⟨a, ha, hmatch, hconverged⟩ := hclear e he hstep
  exact ⟨a, ha, hmatch,
    converged_of_gate hconverged (h.complete e he a ha hmatch hconverged ⟨d, hd, hstep, hpend⟩)⟩

theorem stepMaxUpdate_of_pos {i n : Nat} {s : RollingSyncStep} {m : IntOrString} {v : Int}
    (hs : p.steps[i]? = some s) (hm : s.maxUpdate = some m) (hv : scaledValue m n = some v) (hpos : 1 ≤ v) :
    stepMaxUpdate scaledValue p.steps i n = v := by
  simp only [stepMaxUpdate, hs, hm, hv]
  exact if_neg (by omega)

theorem countP_performed (scaledValue : IntOrString → Nat → Option Int)
    (applicationReleaseName : String → Application → PromotionStage → String) (w : SetWorld) (p : Pass) (i : Nat) :
    (p.performed scaledValue applicationReleaseName w).countP (SyncOp.updates i) ≤
      (applyApplicationUpdates scaledValue applicationReleaseName p.steps p.desired (p.existing w)).1.countP
        (SyncOp.updates i) := by
  refine le_trans (execute_isPrefix _ w).sublist.countP_le ?_
  rw [Pass.plan, syncPlan, countP_append]
  refine Nat.le_of_eq ?_
  have hdeletes : ∀ l : List String, (l.map SyncOp.delete).countP (SyncOp.updates i) = 0 := by
    intro l
    refine countP_eq_zero.mpr ?_
    intro op hop
    obtain ⟨name, -, rfl⟩ := mem_map.mp hop
    exact Bool.false_ne_true
  split
  · rw [hdeletes, Nat.add_zero]
  · rfl

theorem performed_of_delete {name : String} (hname : .delete name ∈ p.performed scaledValue applicationReleaseName w) :
    ∀ op ∈ (applyApplicationUpdates scaledValue applicationReleaseName p.steps p.desired (p.existing w)).1,
      op ∈ p.performed scaledValue applicationReleaseName w := by
  intro op hop
  have hinitial : p.performed scaledValue applicationReleaseName w <+: p.plan scaledValue applicationReleaseName w :=
    execute_isPrefix _ w
  obtain hshort | hlong := prefix_or_prefix_of_prefix hinitial (prefix_append _ _)
  · obtain ⟨d, -, hop, -⟩ | ⟨d, -, hop, -⟩ := mem_applyApplicationUpdates p.named (hshort.subset hname)
    · cases hop
    · cases hop
  · exact hlong.subset hop

theorem Gated.inStepOrder (h : Gated scaledValue applicationReleaseName w p) :
    InStepOrder scaledValue applicationReleaseName w p := by
  have hinitial : p.performed scaledValue applicationReleaseName w <+: p.plan scaledValue applicationReleaseName w :=
    execute_isPrefix _ w
  have hnd : ((p.plan scaledValue applicationReleaseName w).map SyncOp.name).Nodup :=
    nodup_syncPlan p.named p.distinct (existing_once p w)
  have hwrite : ∀ op ∈ p.performed scaledValue applicationReleaseName w, (∀ name, op ≠ .delete name) →
      op ∈ (applyApplicationUpdates scaledValue applicationReleaseName p.steps p.desired (p.existing w)).1 := by
    intro op hop hne
    obtain hop | hop := mem_append.mp (hinitial.subset hop)
    · exact hop
    · split at hop
      · obtain ⟨name, -, rfl⟩ := mem_map.mp hop
        exact absurd rfl (hne name)
      · cases hop
  constructor
  · intro d i hd
    obtain ⟨e, -, hop, -⟩ | ⟨e, he, hop, hout, hclear⟩ :=
      mem_applyApplicationUpdates p.named (hwrite _ hd (fun name hname => by cases hname))
    · cases hop
    · obtain ⟨rfl, rfl⟩ := SyncOp.update.inj hop
      exact ⟨he, hout, rfl, h.rolled he hclear (.inl hout)⟩
  · intro i s m v hs hm hv
    have hi : i < p.steps.length := (List.getElem?_eq_some_iff.mp hs).1
    have hcount := countP_performed scaledValue applicationReleaseName w p i
    by_cases hpend : ∃ d ∈ members p.steps p.desired i, OutOfDate (p.existing w) d
    · have hpos := h.positive i (mem_range.mpr hi) s hs m hm v hv hpend
      have hbudget := applyApplicationUpdates_budget scaledValue applicationReleaseName (p.existing w) p.named i hi
      rw [stepMaxUpdate_of_pos hs hm hv hpos] at hbudget
      omega
    have hnone : (applyApplicationUpdates scaledValue applicationReleaseName p.steps p.desired
        (p.existing w)).1.countP (SyncOp.updates i) = 0 := by
      refine countP_eq_zero.mpr ?_
      intro op hop hupdates
      obtain ⟨d, -, rfl, -⟩ | ⟨d, hd, rfl, hout, -⟩ := mem_applyApplicationUpdates p.named hop
      · cases hupdates
      · have hstep : stepOf p.steps d = i := by simpa [SyncOp.updates] using hupdates
        exact hpend ⟨d, mem_members.mpr ⟨hd, hstep⟩, hout⟩
    omega
  · exact List.Sublist.nodup (hinitial.sublist.map _) hnd
  · intro d hd
    refine ⟨?_, execute_create _ hnd d hd⟩
    obtain ⟨e, he, hop, -⟩ | ⟨e, -, hop, -⟩ :=
      mem_applyApplicationUpdates p.named (hwrite _ hd (fun name hname => by cases hname))
    · rw [SyncOp.create.inj hop]
      exact he
    · cases hop
  · intro name hname
    obtain ⟨hobsolete, hgate⟩ := mem_syncPlan_delete p.named (hinitial.subset hname)
    constructor
    · intro d hd heq
      have hgone := (mem_filter.mp hobsolete).2
      simp only [contains_eq_mem, ← heq, mem_map_of_mem hd, decide_true, Bool.not_true] at hgone
      cases hgone
    · intro d hd
      obtain ⟨hclear, hupdated⟩ := applyApplicationUpdates_open p.named hgate d hd
      exact ⟨h.rolled hd hclear (.inr (ne_nil_of_mem hobsolete)),
        fun hout => performed_of_delete hname _ (hupdated hout)⟩
end

/-- What the passes of a run are guarded by. -/
def PassGated (scaledValue : IntOrString → Nat → Option Int)
    (applicationReleaseName : String → Application → PromotionStage → String) (w : SetWorld) : SetEvent → Prop
  | .pass p => Gated scaledValue applicationReleaseName w p
  | .status _ _ | .other _ _ => True

instance decidablePassGated (scaledValue : IntOrString → Nat → Option Int)
    (applicationReleaseName : String → Application → PromotionStage → String) (w : SetWorld) :
    ∀ e, Decidable (PassGated scaledValue applicationReleaseName w e)
  | .pass p => inferInstanceAs (Decidable (Gated scaledValue applicationReleaseName w p))
  | .status _ _ | .other _ _ => .isTrue trivial

def PassInOrder (scaledValue : IntOrString → Nat → Option Int)
    (applicationReleaseName : String → Application → PromotionStage → String) (w : SetWorld) : SetEvent → Prop
  | .pass p => InStepOrder scaledValue applicationReleaseName w p
  | .status _ _ | .other _ _ => True

/-- **The order of a rolling sync.**  Every pass of a run keeps to the order of the steps. -/
theorem rolling_sync_in_order (scaledValue : IntOrString → Nat → Option Int)
    (applicationReleaseName : String → Application → PromotionStage → String) (w : SetWorld) (es : List SetEvent)
    (h : Guarded (setStep scaledValue applicationReleaseName) (PassGated scaledValue applicationReleaseName) w es) :
    Guarded (setStep scaledValue applicationReleaseName) (PassInOrder scaledValue applicationReleaseName) w es := by
  refine guarded_imp (motive := fun _ => True) (fun _ _ _ _ => trivial) ?_ trivial h
  intro v e _ he
  cases e with
  | pass p => exact Gated.inStepOrder he
  | status _ _ | other _ _ => trivial

section

/-- An integer, or a percentage rounded up. -/
def scaledRoundUp (m : IntOrString) (n : Nat) : Option Int :=
  match m with
  | .int v => some v
  | .string s =>
    match s.toList.reverse with
    | '%' :: digits => (Text.atoi digits.reverse).map (fun v => -((-(v * n)) / 100))
    | _ => none

/-- The releases of Applications without a source to poll, of one stage or of `eu` and `us`. -/
def shopReleaseName (name : String) (app : Application) (stage : PromotionStage) : String :=
  if app.spec.stages.length < 2 then name ++ "-release"
  else if stage.name = "us" then name ++ "-release-8ce70c1399"
  else name ++ "-release-c0422ba5a5"

def shopApplication (wave image : String) (stages : List PromotionStage) : DesiredApplication where
  name := "shop-" ++ wave
  labels := [("wave", wave)]
  annotations := []
  spec := { inline := false, trigger := .none, stages := stages, parameters := [] }
  rest := image

def euStage : PromotionStage := { name := "eu", ring := 1, autoPromote := true, parameters := [] }

def usStage : PromotionStage := { name := "us", ring := 2, autoPromote := true, parameters := [] }

/-- Canaries first, then production, one Application at a time. -/
def canaryThenProd : List RollingSyncStep :=
  [{ matchLabels := [("wave", "canary")], maxUpdate := none },
    { matchLabels := [("wave", "prod")], maxUpdate := some (.int 1) }]

/-- A pass that renders an image for both waves. -/
def shopPass (image : String) (stages : List PromotionStage) : Pass where
  steps := canaryThenProd
  desired := [shopApplication "canary" image stages, shopApplication "prod" image stages]
  listed := [("shop-canary", 0), ("shop-prod", 0)]
  written := fun _ => true
  distinct := by
    show ["shop-" ++ "canary", "shop-" ++ "prod"].Nodup
    decide
  named := by
    intro d hd
    simp only [List.mem_cons, List.not_mem_nil, or_false] at hd
    obtain rfl | rfl := hd
    · exact (by decide : "shop-" ++ "canary" ≠ "")
    · exact (by decide : "shop-" ++ "prod" ≠ "")
  listedOnce := by decide

def completeStatus (generation : Nat) (releaseRef : String) (stages : List PromotionStage) : ApplicationStatus :=
  { ApplicationStatus.zero with
    observedGeneration := generation
    releaseRef := releaseRef
    stages := stages.map (fun s => (s.name, "Complete"))
    resourceHealth := [("Deployment", "Healthy")] }

def noApplications : SetWorld := { apps := fun _ => .create none }

/-- Both are created, and a new image rolls out, to production when the canary is through. -/
def rolledOut : List SetEvent :=
  [.pass (shopPass "v1" [euStage]), .status "shop-canary" (completeStatus 1 "shop-canary-release" [euStage]),
    .pass (shopPass "v2" [euStage]), .pass (shopPass "v2" [euStage]),
    .status "shop-canary" (completeStatus 2 "shop-canary-release" [euStage]), .pass (shopPass "v2" [euStage])]

theorem rolling_sync_in_order_shop :
    Guarded (setStep scaledRoundUp shopReleaseName) (PassInOrder scaledRoundUp shopReleaseName) noApplications
      rolledOut :=
  rolling_sync_in_order scaledRoundUp shopReleaseName noApplications rolledOut (by decide)

/-- With two stages, production is updated when the canary is through in the first one. -/
def firstStageComplete : List SetEvent :=
  [.pass (shopPass "v1" [euStage, usStage]), .pass (shopPass "v2" [euStage, usStage]),
    .status "shop-canary" (completeStatus 2 "shop-canary-release-c0422ba5a5" [euStage, usStage])]

theorem prod_updated_behind_first_stage : ¬∀ es : List SetEvent, Guarded (setStep scaledRoundUp shopReleaseName)
      (PassInOrder scaledRoundUp shopReleaseName) noApplications es := by
  intro h
  have hall := h (firstStageComplete ++ [.pass (shopPass "v2" [euStage, usStage])])
  have hlast := (guarded_snoc.mp hall).2
  have hupdate : SyncOp.update (shopApplication "prod" "v2" [euStage, usStage]) 1 ∈
      (shopPass "v2" [euStage, usStage]).performed scaledRoundUp shopReleaseName
        (run (setStep scaledRoundUp shopReleaseName) noApplications firstStageComplete) := by
    decide
  obtain ⟨-, -, -, hrolled⟩ := InStepOrder.ordered hlast _ _ hupdate
  obtain ⟨a, ha, -, hconverged⟩ :=
    hrolled (shopApplication "canary" "v2" [euStage, usStage]) mem_cons_self (by decide)
  have hnot : ∀ b ∈ ((shopPass "v2" [euStage, usStage]).existing (run (setStep scaledRoundUp shopReleaseName)
      noApplications firstStageComplete)).lookup "shop-canary",
      lastStageComplete (shopReleaseName "shop-canary") b.app = false := by
    decide
  have hcomplete : lastStageComplete (shopReleaseName "shop-canary") a.app = true := hconverged.complete
  rw [hnot a ha] at hcomplete
  cases hcomplete
end

end Paprika.Applications
