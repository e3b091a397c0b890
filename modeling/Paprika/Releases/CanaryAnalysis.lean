import Paprika.Releases.Attempts

/-!
# The canary ladder

What is known of each weight when a canary Release is promoted.  The history of the attempt says which weight was in
force when the readiness gate and the analysis passed.

`canary_promotion`: every step before the final one was analysed, the configured interval after its weight was put in
force and while it was; of the final step, which is the last of the list or one of at least 100 per cent, only the
readiness gate has passed.
-/

namespace Paprika.Releases

open Lib.Run

/-- A canary weight and the time it was put in force. -/
structure Weight where
  step : Nat
  weight : Int
  since : Int
  deriving DecidableEq, Repr

/-- The weight in force, from the history, newest first. -/
def inForce : List Action → Option Weight
  | [] => none
  | .weightApplied step weight at_ :: _ => some { step := step, weight := weight, since := at_ }
  | _ :: h => inForce h

/-- Something has happened while the weight of the step was in force. -/
def passed (step : Nat) (weight : Int) (ok : Int → Action → Bool) : List Action → Bool
  | [] => false
  | a :: h => (inForce h).any (fun f => f.step == step && f.weight == weight && ok f.since a) || passed step weight ok h

def gate (_ : Int) : Action → Bool
  | .gatePassed _ => true
  | _ => false

/-- The readiness gate passes, a time after the weight was put in force. -/
def gateAfter (wait since : Int) : Action → Bool
  | .gatePassed at_ => decide (since + wait ≤ at_)
  | _ => false

/-- Every configured check passes, a time after the weight was put in force. -/
def checksAfter (wait since : Int) : Action → Bool
  | .checksPassed at_ => decide (since + wait ≤ at_)
  | _ => false

def CanaryConfig.hasChecks (c : CanaryConfig) : Bool := c.analysis.any (fun a => !a.checks.isEmpty)

/-- The weight of the step was analysed while it was in force, at least the interval after it was put in force. -/
def Analysed (c : CanaryConfig) (i : Nat) (h : List Action) : Prop :=
  ∃ w, c.steps[i]? = some w ∧ passed i w (gateAfter (getCanaryInterval c)) h = true ∧
    (c.hasChecks = true → passed i w (checksAfter (getCanaryInterval c)) h = true)

/-- The readiness gate passed while the weight of the step was in force. -/
def Gated (c : CanaryConfig) (i : Nat) (h : List Action) : Prop :=
  ∃ w, c.steps[i]? = some w ∧ passed i w gate h = true

/-- `promoteCanary` comes after the last step, and after a weight of 100 per cent. -/
def FinalStep (c : CanaryConfig) (f : Nat) : Prop := f + 1 = c.steps.length ∨ ∃ w, c.steps[f]? = some w ∧ 100 ≤ w

/-- The release has been `Canarying` in the attempt. -/
def WasCanarying (h : List Action) : Bool :=
  h.any (fun a => match a with
    | .status s => s.phase == .canarying
    | _ => false)

def Promoted (c : CanaryConfig) (h : List Action) : Prop :=
  ∃ f, f < c.steps.length ∧ FinalStep c f ∧ (∃ w t, inForce h = some { step := f, weight := w, since := t }) ∧
    (∀ i < f, Analysed c i h) ∧ Gated c f h

/-- Wherever the target stage is read, it has these canary steps. -/
def Steps (c : CanaryConfig) : AttemptEvent → Prop
  | .reconcile o _ _ => ∀ stage, o.stage = some stage → stage.canary = some c
  | .requestResync | .requestRollback => True

/-! ### The history grows -/

def Action.applies : Action → Bool
  | .weightApplied .. => true
  | _ => false

variable {t w : Int}

section
variable {c : CanaryConfig} {h : List Action} {a : Action} {i : Nat}

theorem inForce_cons (ha : a.applies = false) : inForce (a :: h) = inForce h := by
  cases a with
  | weightApplied _ _ _ => cases ha
  | status _ | clearResync | spendRetries | rolloutRead _ | gatePassed _ | checksPassed _ => rfl

variable {ok : Int → Action → Bool}

theorem passed_cons (hp : passed i w ok h = true) (a : Action) : passed i w ok (a :: h) = true := by simp [passed, hp]

theorem passed_of_inForce (hforce : inForce h = some { step := i, weight := w, since := t }) (hok : ok t a = true) :
    passed i w ok (a :: h) = true := by
  simp [passed, hforce, hok]

theorem Analysed.cons (hi : Analysed c i h) (a : Action) : Analysed c i (a :: h) := by
  obtain ⟨w, hw, hgate, hchecks⟩ := hi
  exact ⟨w, hw, passed_cons hgate a, fun hc => passed_cons (hchecks hc) a⟩

theorem Gated.cons (hi : Gated c i h) (a : Action) : Gated c i (a :: h) := by
  obtain ⟨w, hw, hgate⟩ := hi
  exact ⟨w, hw, passed_cons hgate a⟩

theorem Promoted.cons (hp : Promoted c h) (ha : a.applies = false) : Promoted c (a :: h) := by
  obtain ⟨f, hf, hfinal, ⟨w, t, hforce⟩, hpre, hgated⟩ := hp
  exact ⟨f, hf, hfinal, ⟨w, t, by rw [inForce_cons ha, hforce]⟩, fun i hi => (hpre i hi).cons a, hgated.cons a⟩

theorem wasCanarying_cons : WasCanarying (a :: h) = true ↔
    (∃ s, a = .status s ∧ s.phase = .canarying) ∨ WasCanarying h = true := by
  unfold WasCanarying
  rw [List.any_cons, Bool.or_eq_true]
  cases a <;> simp
end

/-! ### The invariant of the ladder -/

/-- On the ladder: all steps but the current one have been analysed, and the current one is in force, unless the weight
after it has been put in force by a reconcile that could not record it. -/
structure Ladder (c : CanaryConfig) (s : ReleaseStatus) (h : List Action) : Prop where
  bound : s.canaryStepIndex ≤ c.steps.length
  analysed : ∀ i, i + 1 < s.canaryStepIndex → Analysed c i h
  current : ∀ k, s.canaryStepIndex = k + 1 →
    (∃ w t, c.steps[k]? = some w ∧ inForce h = some { step := k, weight := w, since := t } ∧
      s.canaryStepStartedAt = some t) ∨
    (Analysed c k h ∧ ∃ w t, c.steps[k + 1]? = some w ∧ inForce h = some { step := k + 1, weight := w, since := t })

def LadderInv (c : CanaryConfig) (x : Attempt) : Prop :=
  match x.release.status.phase with
  | .unset | .pending | .promoting | .awaitingApproval =>
    WasCanarying x.history = false ∧ x.release.status.canaryStepIndex = 0
  | .canarying => Ladder c x.release.status x.history
  | .verifying | .complete => WasCanarying x.history = true → c.steps = [] ∨ Promoted c x.history
  | .failed | .rolledBack | .superseded => True

section
variable {c : CanaryConfig} {x : Attempt} {o : Observation} {active : Bool}
variable {s : ReleaseStatus}

theorem Ladder.cons {h : List Action} {a : Action} (hl : Ladder c s h) (ha : a.applies = false) :
    Ladder c s (a :: h) := by
  refine { bound := hl.bound, analysed := fun i hi => (hl.analysed i hi).cons a, current := ?_ }
  intro k hk
  rw [inForce_cons ha]
  obtain h | ⟨hanalysed, h⟩ := hl.current k hk
  · exact .inl h
  · exact .inr ⟨hanalysed.cons a, h⟩

theorem LadderInv.perform {a : Action} (h : LadderInv c x) (hstatus : ∀ s, a ≠ .status s) (happlies : a.applies = false) :
    LadderInv c (x.perform a) := by
  have hsame : (a.perform x.release).status = x.release.status := by
    cases a with
    | status s => exact absurd rfl (hstatus s)
    | clearResync | spendRetries | rolloutRead _ | weightApplied _ _ _ | gatePassed _ | checksPassed _ => rfl
  have hperf := perform_of_attempt (a := a) (x := x) (by rw [hsame])
  have hcanary : WasCanarying (a :: x.history) = WasCanarying x.history := by
    rw [Bool.eq_iff_iff, wasCanarying_cons]
    exact ⟨fun hc => hc.resolve_left (fun ⟨s, hs, _⟩ => hstatus s hs), .inr⟩
  unfold LadderInv at h ⊢
  rw [hperf]
  simp only [hsame]
  revert h
  split <;> intro h
  · exact ⟨hcanary.trans h.1, h.2⟩
  · exact ⟨hcanary.trans h.1, h.2⟩
  · exact ⟨hcanary.trans h.1, h.2⟩
  · exact ⟨hcanary.trans h.1, h.2⟩
  · exact h.cons happlies
  · exact fun hc => (h (hcanary.symm.trans hc)).imp_right (fun hp => hp.cons happlies)
  · exact fun hc => (h (hcanary.symm.trans hc)).imp_right (fun hp => hp.cons happlies)
  · trivial
  · trivial
  · trivial

theorem LadderInv.request (h : LadderInv c x) {r : Release} (hr : r.status = x.release.status) :
    LadderInv c { x with release := r } := by
  unfold LadderInv at h ⊢
  simp only [hr]
  exact h

section
variable (hs : s.hookAttempt = x.release.status.hookAttempt)
include hs

theorem perform_status :
    x.perform (.status s) = { release := { x.release with status := s }, history := .status s :: x.history } :=
  perform_of_attempt (a := .status s) hs

theorem LadderInv.ended (hphase : s.phase = .failed ∨ s.phase = .rolledBack) : LadderInv c (x.perform (.status s)) := by
  rw [perform_status hs]
  unfold LadderInv
  obtain hphase | hphase := hphase <;> simp only [hphase]

/-- A status of an attempt that has not been on the ladder; it may be at its foot. -/
theorem LadderInv.before (hcanary : WasCanarying x.history = false) (hfoot : s.canaryStepIndex = 0) :
    LadderInv c (x.perform (.status s)) := by
  have hstill : s.phase ≠ .canarying → WasCanarying (.status s :: x.history) = false := by
    intro hphase
    simp [WasCanarying] at hcanary ⊢
    exact ⟨hphase, hcanary⟩
  rw [perform_status hs]
  unfold LadderInv
  simp only
  split
  · next hphase => exact ⟨hstill (by rw [hphase]; decide), hfoot⟩
  · next hphase => exact ⟨hstill (by rw [hphase]; decide), hfoot⟩
  · next hphase => exact ⟨hstill (by rw [hphase]; decide), hfoot⟩
  · next hphase => exact ⟨hstill (by rw [hphase]; decide), hfoot⟩
  · exact { bound := by omega, analysed := fun i hi => by omega, current := fun k hk => by omega }
  · next hphase => exact fun hc => absurd (hc.symm.trans (hstill (by rw [hphase]; decide))) (by decide)
  · next hphase => exact fun hc => absurd (hc.symm.trans (hstill (by rw [hphase]; decide))) (by decide)
  · trivial
  · trivial
  · trivial

theorem LadderInv.onLadder
    (hphase : s.phase = .canarying) (hl : Ladder c s x.history) : LadderInv c (x.perform (.status s)) := by
  rw [perform_status hs]
  unfold LadderInv
  simp only [hphase]
  exact hl.cons rfl

theorem LadderInv.after
    (hphase : s.phase = .verifying ∨ s.phase = .complete) (hp : c.steps = [] ∨ Promoted c x.history) :
    LadderInv c (x.perform (.status s)) := by
  rw [perform_status hs]
  unfold LadderInv
  have hcons := hp.imp_right (fun hp => hp.cons (a := .status s) rfl)
  obtain hphase | hphase := hphase <;> simp only [hphase] <;> exact fun _ => hcons
end

theorem LadderInv.ladder (h : LadderInv c x) (hphase : x.release.status.phase = .canarying) :
    Ladder c x.release.status x.history := by
  unfold LadderInv at h
  simp only [hphase] at h
  exact h

theorem LadderInv.along_failRelease (h : LadderInv c x)
    (hs : s.hookAttempt = x.release.status.hookAttempt) : Along (LadderInv c) (failRelease s) x :=
  along_single.mpr ⟨h, LadderInv.ended hs (.inl rfl)⟩

/-- Behind the gate: before the first step it has not looked at the workloads, later it has passed. -/
theorem along_gate (h : LadderInv c x) (hs : s.hookAttempt = x.release.status.hookAttempt)
    {ready : Bool} {now : Int} {rest : List Action}
    (hopen : s.canaryStepStartedAt = none → Along (LadderInv c) rest x)
    (hgate : Along (LadderInv c) rest (x.perform (.gatePassed now))) :
    Along (LadderInv c)
      ((gateCanaryAdvance ready now c s).1 ++ if (gateCanaryAdvance ready now c s).2 then rest else []) x := by
  obtain ⟨hnone, hlist⟩ | ⟨-, hlist⟩ | hlist | hlist := gateCanaryAdvance_cases s c ready now
  · rw [hlist]
    exact hopen hnone
  · rw [hlist]
    exact ⟨h, hgate⟩
  · rw [hlist]
    exact h
  · rw [hlist]
    exact h.along_failRelease hs
end

/-! ### One reconcile -/

section
variable {c : CanaryConfig} {x : Attempt} {o : Observation} {active : Bool}

theorem perform_gatePassed (now : Int) :
    x.perform (.gatePassed now) = { release := x.release, history := .gatePassed now :: x.history } :=
  perform_of_attempt (a := .gatePassed now) rfl

theorem perform_checksPassed (now : Int) :
    x.perform (.checksPassed now) = { release := x.release, history := .checksPassed now :: x.history } :=
  perform_of_attempt (a := .checksPassed now) rfl

theorem perform_weightApplied (step : Nat) (weight now : Int) : x.perform (.weightApplied step weight now) =
      { release := x.release, history := .weightApplied step weight now :: x.history } :=
  perform_of_attempt (a := .weightApplied step weight now) rfl

theorem getCanaryInterval_pos (c : CanaryConfig) : 0 < getCanaryInterval c := by
  unfold getCanaryInterval
  split <;> omega

/-- A reconcile that is not held back comes at least the interval after the last step. -/
theorem throttle_waited {s : ReleaseStatus} (hthrottle : ¬checkCanaryThrottle o c s = true) {k : Nat}
    (hstart : s.canaryStepStartedAt = some t) (hk : s.canaryStepIndex = k + 1) :
    t + getCanaryInterval c ≤ o.now := by
  have hlate : t + ((k + 1 : Nat) : Int) * getCanaryInterval c ≤ o.now := by
    simpa [checkCanaryThrottle, hstart, hk] using hthrottle
  calc t + getCanaryInterval c
      ≤ t + ((k + 1 : Nat) : Int) * getCanaryInterval c := by
        have hmul : 0 ≤ (k : Int) * getCanaryInterval c :=
          Int.mul_nonneg (by omega) (Int.le_of_lt (getCanaryInterval_pos c))
        rw [Int.natCast_add, Int.natCast_one, Int.add_mul, Int.one_mul]
        omega
    _ ≤ o.now := hlate

/-- The promotion, while the final weight is in force and the steps before it have been analysed. -/
theorem along_handleCanaryPromotion (h : LadderInv c x) {s : ReleaseStatus}
    (hs : s.hookAttempt = x.release.status.hookAttempt) {f : Nat} (hw : c.steps[f]? = some w)
    (hstart : s.canaryStepStartedAt = some t)
    (hforce : inForce x.history = some { step := f, weight := w, since := t })
    (hpre : ∀ i < f, Analysed c i x.history) (hfinal : FinalStep c f) :
    Along (LadderInv c) (handleCanaryPromotion o c s) x := by
  apply along_gate h hs
  · intro hnone
    rw [hstart] at hnone
    cases hnone
  have hperf := perform_gatePassed (x := x) o.promotionAt
  have hkept : LadderInv c (x.perform (.gatePassed o.promotionAt)) := h.perform (fun _ => Action.noConfusion) rfl
  have hprom : Promoted c (x.perform (.gatePassed o.promotionAt)).history := by
    rw [hperf]
    refine ⟨f, (List.getElem?_eq_some_iff.mp hw).1, hfinal, ⟨w, t, ?_⟩, fun i hi => (hpre i hi).cons _,
      w, hw, passed_of_inForce hforce rfl⟩
    rw [inForce_cons rfl, hforce]
  have hatt : (x.perform (.gatePassed o.promotionAt)).release = x.release := by rw [hperf]
  split
  · exact along_single.mpr ⟨hkept, LadderInv.after (by rw [hatt]; exact hs) (.inl rfl) (.inr hprom)⟩
  · exact hkept
  · exact hkept.along_failRelease (by rw [hatt]; exact hs)

theorem Ladder.analysed_all {s : ReleaseStatus} {h : List Action} (hl : Ladder c s h)
    (hleft : ∀ k, s.canaryStepIndex = k + 1 → Analysed c k h) : ∀ i < s.canaryStepIndex, Analysed c i h := by
  intro i hi
  by_cases hlast : i + 1 = s.canaryStepIndex
  · exact hleft i hlast.symm
  · exact hl.analysed i (by omega)

/-- The weight of the step at hand is put in force and recorded, and promoted if it is a final one. -/
theorem along_stepApplied (h : LadderInv c x) (hphase : x.release.status.phase = .canarying) {weight : Int}
    (hweight : c.steps[x.release.status.canaryStepIndex]? = some weight)
    (hleft : ∀ k, x.release.status.canaryStepIndex = k + 1 → Analysed c k x.history) :
    Along (LadderInv c)
      (.weightApplied x.release.status.canaryStepIndex weight o.appliedAt ::
        .status (stepApplied o weight x.release.status) ::
          if canPromoteCanary x.release.status.canaryStepIndex c.steps weight then
            handleCanaryPromotion o c (stepApplied o weight x.release.status)
          else []) x := by
  have hl := h.ladder hphase
  have hpre := hl.analysed_all hleft
  have hbound := (List.getElem?_eq_some_iff.mp hweight).1
  -- the history once the weight is in force, and once that is recorded
  generalize hstep : x.release.status.canaryStepIndex = step at hweight hleft hpre hbound ⊢
  have happl := perform_weightApplied (x := x) step weight o.appliedAt
  have hrec : (x.perform (.weightApplied step weight o.appliedAt)).perform
      (.status (stepApplied o weight x.release.status)) =
      { release := { x.release with status := stepApplied o weight x.release.status }
        history := .status (stepApplied o weight x.release.status) :: .weightApplied step weight o.appliedAt ::
          x.history } := by
    rw [happl]
    exact perform_status rfl
  have hunrecorded : LadderInv c (x.perform (.weightApplied step weight o.appliedAt)) := by
    rw [happl]
    unfold LadderInv
    simp only [hphase]
    refine { bound := hl.bound, analysed := fun i hi => (hl.analysed i hi).cons _, current := ?_ }
    intro k hk
    have hk' : step = k + 1 := hstep.symm.trans hk
    subst hk'
    exact .inr ⟨(hleft k rfl).cons _, weight, o.appliedAt, hweight, rfl⟩
  have hon : LadderInv c ((x.perform (.weightApplied step weight o.appliedAt)).perform
      (.status (stepApplied o weight x.release.status))) := by
    apply LadderInv.onLadder
    · rw [happl]
      rfl
    · exact hphase
    · rw [happl]
      have hindex : (stepApplied o weight x.release.status).canaryStepIndex = step + 1 := by
        rw [← hstep]
        rfl
      refine { bound := by rw [hindex]; exact hbound, analysed := ?_, current := ?_ }
      · intro i hi
        rw [hindex] at hi
        exact (hpre i (by omega)).cons _
      · intro k hk
        rw [hindex] at hk
        obtain rfl : step = k := by omega
        exact .inl ⟨weight, o.appliedAt, hweight, rfl, rfl⟩
  refine ⟨h, hunrecorded, ?_⟩
  split
  · next hfinal =>
    apply along_handleCanaryPromotion hon
    · rw [hrec]
    · exact hweight
    · rfl
    · rw [hrec]
      rfl
    · rw [hrec]
      exact fun i hi => ((hpre i hi).cons _).cons _
    · simp only [canPromoteCanary, Bool.or_eq_true, decide_eq_true_eq] at hfinal
      obtain hlast | hwhole := hfinal
      · exact .inl (by omega)
      · exact .inr ⟨weight, hweight, hwhole⟩
  · exact hon

/-- The step at hand, once the gate has passed on the one before it: the analysis, and the step if it passes. -/
theorem along_advanceCanaryStep (h : LadderInv c x) (hphase : x.release.status.phase = .canarying)
    (hroll : ∀ a, c.analysis = some a → a.rollbackOnFail = true) {stage : Stage} {weight : Int}
    (hweight : c.steps[x.release.status.canaryStepIndex]? = some weight)
    (hgated : ∀ k, x.release.status.canaryStepIndex = k + 1 →
      (∃ w t, c.steps[k]? = some w ∧ inForce x.history = some { step := k, weight := w, since := t } ∧
        t + getCanaryInterval c ≤ o.now ∧ passed k w (gateAfter (getCanaryInterval c)) x.history = true) ∨
      Analysed c k x.history) :
    Along (LadderInv c) (advanceCanaryStep o stage c weight x.release.status) x := by
  -- what follows the analysis
  have hrest : ∀ {y : Attempt}, LadderInv c y → y.release = x.release →
      (∀ k, y.release.status.canaryStepIndex = k + 1 → Analysed c k y.history) →
      Along (LadderInv c)
        (if !o.weightApplied then []
        else if stage.trafficRouter && (decide (100 < weight) || !o.trafficRouted) then []
        else
          .weightApplied x.release.status.canaryStepIndex weight o.appliedAt ::
            .status (stepApplied o weight x.release.status) ::
              if canPromoteCanary x.release.status.canaryStepIndex c.steps weight then
                handleCanaryPromotion o c (stepApplied o weight x.release.status)
              else []) y := by
    intro y hy hrel hleft
    split
    · exact hy
    · split
      · exact hy
      · rw [← hrel] at hphase hweight ⊢
        exact along_stepApplied hy hphase hweight hleft
  unfold advanceCanaryStep
  split
  · obtain ⟨hrun, hno⟩ | ⟨hrun, a, ha, -⟩ | hrun | hrun := runCanaryAnalysis_cases o x.release.status c
    · -- there is no check, since failed checks would roll back
      rw [hrun]
      apply hrest h rfl
      intro k hk
      obtain ⟨w, t, hw, -, -, hgate⟩ | hanalysed := hgated k hk
      · refine ⟨w, hw, hgate, ?_⟩
        intro hchecks
        simp only [CanaryConfig.hasChecks, Option.any_eq_true, Bool.not_eq_true', List.isEmpty_eq_false_iff] at hchecks
        obtain ⟨a, ha, hne⟩ := hchecks
        exact absurd (hno a ha (hroll a ha)) hne
      · exact hanalysed
    · rw [hrun]
      have hperf := perform_checksPassed (x := x) o.now
      refine ⟨h, hrest (h.perform (fun _ => Action.noConfusion) rfl) (by rw [hperf]) ?_⟩
      rw [hperf]
      intro k hk
      obtain ⟨w, t, hw, hforce, hwaited, hgate⟩ | hanalysed := hgated k hk
      · refine ⟨w, hw, passed_cons hgate _, fun _ => passed_of_inForce hforce ?_⟩
        exact decide_eq_true hwaited
      · exact hanalysed.cons _
    · rw [hrun]
      exact h
    · rw [hrun]
      exact h.along_failRelease rfl
  · next hfirst =>
    apply hrest h rfl
    intro k hk
    omega

theorem LadderInv.along_reconcileCanary (h : LadderInv c x) (hphase : x.release.status.phase = .canarying)
    (hroll : ∀ a, c.analysis = some a → a.rollbackOnFail = true)
    (hsteps : ∀ stage, o.stage = some stage → stage.canary = some c) :
    Along (LadderInv c) (reconcileCanary o x.release.status) x := by
  have hl := h.ladder hphase
  unfold reconcileCanary
  split
  · exact h
  · next stage hstage =>
    rw [hsteps stage hstage]
    simp only [List.isEmpty_iff]
    split
    · next hempty => exact along_single.mpr ⟨h, LadderInv.after rfl (.inl rfl) (.inl hempty)⟩
    next hnonempty =>
    split
    · next hend =>
      -- all steps have been applied
      have hlen := List.getElem?_eq_none_iff.mp hend
      have hbound := hl.bound
      obtain ⟨k, hk⟩ : ∃ k, x.release.status.canaryStepIndex = k + 1 := by
        have hpos := List.length_pos_iff.mpr hnonempty
        exact ⟨x.release.status.canaryStepIndex - 1, by omega⟩
      obtain ⟨w, t, hw, hforce, hstart⟩ | ⟨-, w, t, hw, -⟩ := hl.current k hk
      · apply along_handleCanaryPromotion h rfl hw hstart hforce
        · intro i hi
          exact hl.analysed i (by omega)
        · exact .inl (by omega)
      · have hlt := (List.getElem?_eq_some_iff.mp hw).1
        omega
    · next weight hweight =>
      split
      · exact h
      · next hthrottle =>
        apply along_gate h rfl
        · intro hnone
          apply along_advanceCanaryStep h hphase hroll hweight
          intro k hk
          obtain ⟨w, t, hw, hforce, hstart⟩ | ⟨hanalysed, -⟩ := hl.current k hk
          · rw [hnone] at hstart
            cases hstart
          · exact .inr hanalysed
        · have hperf := perform_gatePassed (x := x) o.now
          have hkept : LadderInv c (x.perform (.gatePassed o.now)) := h.perform (fun _ => Action.noConfusion) rfl
          rw [hperf] at hkept ⊢
          apply along_advanceCanaryStep hkept hphase hroll hweight
          intro k hk
          obtain ⟨w, t, hw, hforce, hstart⟩ | ⟨hanalysed, -⟩ := hl.current k hk
          · left
            have hwaited : t + getCanaryInterval c ≤ o.now := throttle_waited hthrottle hstart hk
            exact ⟨w, t, hw, by rw [inForce_cons rfl, hforce], hwaited,
              passed_of_inForce hforce (decide_eq_true hwaited)⟩
          · exact .inr (hanalysed.cons _)

/-- The promotion of a Release that has not been on the ladder, which may put it at its foot. -/
theorem along_handlePromotingPhase (h : LadderInv c x) (hphase : x.release.status.phase = .promoting) (name : String) :
    Along (LadderInv c) (handlePromotingPhase o name x.release.status) x := by
  obtain ⟨hpre, hfoot⟩ : WasCanarying x.history = false ∧ x.release.status.canaryStepIndex = 0 := by
    unfold LadderInv at h
    simpa only [hphase] using h
  have hto : ∀ s : ReleaseStatus, s.hookAttempt = x.release.status.hookAttempt → s.canaryStepIndex = 0 →
      Along (LadderInv c) [.status s] x :=
    fun s hs hindex => along_single.mpr ⟨h, LadderInv.before hs hpre hindex⟩
  have hsame := hto x.release.status rfl hfoot
  unfold handlePromotingPhase
  split
  · exact h.along_failRelease rfl
  · exact h.along_failRelease rfl
  · exact hto _ rfl hfoot
  · split
    · unfold advanceAfterPromotion
      split
      · exact hto _ rfl hfoot
      split
      · exact hsame
      split
      · unfold reconcileRolloutManagedRelease
        split
        · exact h
        · split
          · exact hto _ rfl hfoot
          · exact h
        · next p _ =>
          split
          · have hread : LadderInv c (x.perform (.rolloutRead p)) := h.perform (fun _ => Action.noConfusion) rfl
            have hperf : x.perform (.rolloutRead p) = _ := perform_of_attempt (a := .rolloutRead p) rfl
            refine ⟨h, hread, LadderInv.before ?_ ?_ hfoot⟩
            · rw [hperf]
              rfl
            · rw [hperf]
              exact hpre
          · exact h
      · split
        · exact hto _ rfl rfl
        · exact hto _ rfl hfoot
    · exact hsame
    · exact hsame
    · exact hsame
    · exact h
    · exact h.along_failRelease rfl

/-- **One reconcile keeps the invariant of the ladder.** -/
theorem LadderInv.reconcile (h : LadderInv c x) (hroll : ∀ a, c.analysis = some a → a.rollbackOnFail = true)
    (hsteps : ∀ stage, o.stage = some stage → stage.canary = some c) :
    Along (LadderInv c) (reconcileReleasePhase o active x.release) x := by
  obtain ⟨-, hlist⟩ | ⟨-, hroll, hlist⟩ | ⟨-, hlist⟩ := reconcile_cases o active x.release
  · -- a resync of an ended attempt begins the next one
    rw [hlist, handleResyncAnnotation]
    split
    · have hnew : ∀ s : ReleaseStatus, s.hookAttempt = x.release.status.hookAttempt + 1 →
          x.perform (.status s) = { release := { x.release with status := s }, history := [] } := by
        intro s hs
        have hne : ¬((Action.status s).perform x.release).status.hookAttempt = x.release.status.hookAttempt := by
          show ¬s.hookAttempt = _
          omega
        unfold Attempt.perform
        rw [if_neg hne]
        rfl
      have hpend : LadderInv c (x.perform (.status
          { x.release.status with
            phase := .pending, canaryWeight := 0, canaryStepIndex := 0, canaryStepStartedAt := none,
            hookAttempt := x.release.status.hookAttempt + 1 })) := by
        rw [hnew _ rfl]
        exact ⟨rfl, rfl⟩
      exact ⟨h, hpend, hpend.perform (fun _ => Action.noConfusion) rfl⟩
    · exact along_single.mpr ⟨h, h.perform (fun _ => Action.noConfusion) rfl⟩
  · rw [hlist, handleFailedRollback]
    split
    · exact h
    have hspent : LadderInv c (x.perform .spendRetries) := h.perform (fun _ => Action.noConfusion) rfl
    have hperf : x.perform .spendRetries = _ := perform_of_attempt (a := .spendRetries) rfl
    refine ⟨h, hspent, LadderInv.ended ?_ (.inr rfl)⟩
    rw [hperf]
    rfl
  · rw [hlist]
    have hto : ∀ p : ReleasePhase, WasCanarying x.history = false ∧ x.release.status.canaryStepIndex = 0 →
        Along (LadderInv c) [.status { x.release.status with phase := p }] x :=
      fun p hpre => along_single.mpr ⟨h, LadderInv.before rfl hpre.1 hpre.2⟩
    cases hphase : x.release.status.phase with
    | complete | failed | rolledBack | superseded =>
      rw [dispatch_terminal (by rw [hphase]; rfl)]
      exact h
    | unset | pending =>
      have hpre : WasCanarying x.history = false ∧ x.release.status.canaryStepIndex = 0 := by
        unfold LadderInv at h
        simpa only [hphase] using h
      have hwait : x.release.status.phase.isWaiting = true := by rw [hphase]; rfl
      obtain hlist | hlist | ⟨-, hlist⟩ := dispatch_waiting o active hwait
      · rw [hlist]
        exact h
      · rw [hlist]
        exact hto _ hpre
      · rw [hlist]
        exact hto _ hpre
    | awaitingApproval =>
      have hpre : WasCanarying x.history = false ∧ x.release.status.canaryStepIndex = 0 := by
        unfold LadderInv at h
        simpa only [hphase] using h
      rw [dispatch_awaitingApproval hphase, handleAwaitingApprovalPhase]
      split
      · exact h
      · exact h
      · exact h.along_failRelease rfl
      · exact hto _ hpre
    | promoting =>
      rw [dispatch_promoting hphase]
      split
      · exact along_handlePromotingPhase h hphase _
      · exact h
    | canarying =>
      rw [dispatch_canarying hphase]
      split
      · exact h.along_reconcileCanary hphase hroll hsteps
      · exact h
    | verifying =>
      rw [dispatch_verifying hphase]
      split
      · unfold handleVerifyingPhase
        split
        · refine along_single.mpr ⟨h, ?_⟩
          have hperf := perform_status (x := x) (s := { x.release.status with phase := .complete }) rfl
          rw [hperf]
          unfold LadderInv at h ⊢
          simp only [hphase] at h ⊢
          intro hc
          obtain ⟨s, hs, hcanary⟩ | hc := wasCanarying_cons.mp hc
          · cases hs
            cases hcanary
          · exact (h hc).imp_right (fun hp => hp.cons rfl)
        · exact h.along_failRelease rfl
      · exact h
end

/-- **What is known of the weights of a promoted canary**, where failed checks roll back: every step before the final one was
analysed, and the final one has passed the readiness gate. -/
theorem canary_promotion (name target : String) (rollsBack : Bool) (c : CanaryConfig)
    (hroll : ∀ a, c.analysis = some a → a.rollbackOnFail = true) (es : List AttemptEvent) (hsteps : ∀ e ∈ es, Steps c e)
    (hphase : (run Attempt.step (.create name target rollsBack) es).release.status.phase = .verifying ∨
      (run Attempt.step (.create name target rollsBack) es).release.status.phase = .complete)
    (hcanarying : WasCanarying (run Attempt.step (.create name target rollsBack) es).history = true) :
    c.steps = [] ∨ Promoted c (run Attempt.step (.create name target rollsBack) es).history := by
  have hinv : LadderInv c (run Attempt.step (.create name target rollsBack) es) := by
    refine run_invariant_on (motive := LadderInv c) _ ?_ es _ ⟨rfl, rfl⟩ hsteps
    intro x e hx he
    cases e with
    | requestResync | requestRollback => exact hx.request rfl
    | reconcile o active done => exact (hx.reconcile hroll he).foldl_take done
  unfold LadderInv at hinv
  obtain hphase | hphase := hphase
  · simp only [hphase] at hinv
    exact hinv hcanarying
  · simp only [hphase] at hinv
    exact hinv hcanarying

section

/-- Two steps, an interval of a minute and one check. -/
def twoSteps : CanaryConfig :=
  { steps := [10, 100]
    intervalSeconds := 60
    progressDeadlineSeconds := 600
    analysis := some { checks := ["error-rate"], rollbackOnFail := true } }

/-- A reconcile at a time, which finds these steps and does all its work. -/
def canaryReconcile (now : Int) : AttemptEvent :=
  .reconcile
    { quietObservation with
      now := now
      appliedAt := now
      promotionAt := now
      stage := some { rolloutStrategy := false, canary := some twoSteps, trafficRouter := false } }
    false 8

/-- The Release begins, is promoted, and takes its two steps a minute apart. -/
def twoStepRun : List AttemptEvent := [canaryReconcile 0, canaryReconcile 1, canaryReconcile 2, canaryReconcile 62]

theorem steps_twoStepRun : ∀ e ∈ twoStepRun, Steps twoSteps e := by simp [twoStepRun, canaryReconcile, Steps]

theorem canary_promotion_two_steps :
    (run Attempt.step (.create "web-1" "prod" true) twoStepRun).release.status.phase = .verifying ∧
      (twoSteps.steps = [] ∨ Promoted twoSteps (run Attempt.step (.create "web-1" "prod" true) twoStepRun).history) :=
  ⟨by decide, canary_promotion "web-1" "prod" true twoSteps (by simp [twoSteps]) twoStepRun steps_twoStepRun
    (.inl (by decide)) (by decide)⟩

/-- The final step is promoted in the reconcile that applies it. -/
theorem final_step_is_not_analysed : ¬∀ es, (∀ e ∈ es, Steps twoSteps e) →
    (run Attempt.step (.create "web-1" "prod" true) es).release.status.phase = .verifying →
    ∀ i < twoSteps.steps.length, Analysed twoSteps i (run Attempt.step (.create "web-1" "prod" true) es).history := by
  intro h
  obtain ⟨w, hw, hgate, -⟩ := h twoStepRun steps_twoStepRun (by decide) 1 (by decide)
  obtain rfl : 100 = w := Option.some.inj hw
  exact absurd hgate (by decide)
end

end Paprika.Releases
