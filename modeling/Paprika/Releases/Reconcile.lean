import Paprika.Releases.Types

/-!
# Releases: one reconcile

`reconcileReleasePhase` of `release_controller.go` with its handlers, and the readiness gate of `canary_readiness.go`,
as the list of what a reconcile does.  A write that fails ends the reconcile, so what really happens is a prefix of the
list.

**`reconcile_cases`** says once which phases a reconcile can write from which.
-/

namespace Paprika.Releases

/-- `isReleaseTerminal`. -/
def ReleasePhase.isTerminal : ReleasePhase → Bool
  | .complete | .failed | .rolledBack | .superseded => true
  | .unset | .pending | .promoting | .canarying | .verifying | .awaitingApproval => false

def handleResyncAnnotation (s : ReleaseStatus) : List Action :=
  (if s.phase.isTerminal then
    [.status
      { s with
        phase := .pending
        canaryWeight := 0
        canaryStepIndex := 0
        canaryStepStartedAt := none
        hookAttempt := s.hookAttempt + 1 }]
  else []) ++ [.clearResync]

def shouldRollback (r : Release) : Bool :=
  match r.status.phase with
  | .rolledBack | .superseded => false
  | phase => r.rollsBack && (r.rollbackRequested || phase == .failed)

/-- `handleFailedRollback`: `rollback` and, in it, `markRolledBack`. -/
def handleFailedRollback (o : Observation) (s : ReleaseStatus) : List Action :=
  match o.rollback with
  | none => []
  | some previous => [.spendRetries, .status { s with phase := .rolledBack, rolledBackTo := previous }]

def failRelease (s : ReleaseStatus) : List Action := [.status { s with phase := .failed }]

def handlePendingPhase (o : Observation) (active : Bool) (s : ReleaseStatus) : List Action :=
  if !o.listed || active then [] else [.status { s with phase := .promoting }]

def handleAwaitingApprovalPhase (o : Observation) (s : ReleaseStatus) : List Action :=
  match o.approval with
  | .error | .waiting => []
  | .rejected => failRelease s
  | .approved => [.status { s with phase := .promoting }]

def initiateRelease (o : Observation) (s : ReleaseStatus) : List Action :=
  match o.stage with
  | none => []
  | some _ => [.status { s with phase := .promoting }]

def hasCanarySteps (stage : Stage) : Bool := stage.canary.any (fun c => !c.steps.isEmpty)

def rolloutPolicyError (o : Observation) (stage : Stage) : Bool :=
  (stage.rolloutStrategy || hasCanarySteps stage) && !o.policiesAllowRollout

def ofRolloutPhase : RolloutPhase → ReleasePhase
  | .healthy => .verifying
  | .failed | .degraded => .failed
  | .rolledBack => .rolledBack
  | .other => .canarying

def reconcileRolloutManagedRelease (o : Observation) (name : String) (s : ReleaseStatus) : List Action :=
  match o.rollout with
  | .error => []
  | .notFound =>
    if o.rolloutWritten then [.status { s with rolloutRef := name ++ "-rollout", phase := .canarying }] else []
  | .found p =>
    if o.rolloutWritten then
      [.rolloutRead p, .status { s with rolloutRef := name ++ "-rollout", phase := ofRolloutPhase p }]
    else []

def advanceAfterPromotion (o : Observation) (name : String) (s : ReleaseStatus) : List Action :=
  match o.stage with
  | none => [.status { s with phase := .verifying }]
  | some stage =>
    if rolloutPolicyError o stage then [.status s]
    else if stage.rolloutStrategy then reconcileRolloutManagedRelease o name s
    else
      match stage.canary.bind (fun c => c.steps.head?) with
      | some weight => [.status { s with phase := .canarying, canaryStepIndex := 0, canaryWeight := weight }]
      | none => [.status { s with phase := .verifying }]

def handlePromotingPhase (o : Observation) (name : String) (s : ReleaseStatus) : List Action :=
  match o.approval with
  | .error | .rejected => failRelease s
  | .waiting => [.status { s with phase := .awaitingApproval }]
  | .approved =>
    match o.promote with
    | .done => advanceAfterPromotion o name s
    | .policyWithheld | .hookPhasePending | .syncWavePending => [.status s]
    | .conftestBlocked => []
    | .failed => failRelease s

def handleVerifyingPhase (o : Observation) (s : ReleaseStatus) : List Action :=
  if o.verified then [.status { s with phase := .complete }] else failRelease s

/-! ### The canary ladder -/

def getCanaryInterval (c : CanaryConfig) : Int := if 0 < c.intervalSeconds then c.intervalSeconds else 30

def getCanaryProgressDeadline (c : CanaryConfig) : Int :=
  if 0 < c.progressDeadlineSeconds then c.progressDeadlineSeconds else 600

def checkCanaryThrottle (o : Observation) (c : CanaryConfig) (s : ReleaseStatus) : Bool :=
  match s.canaryStepStartedAt with
  | none => false
  | some startedAt => 0 < s.canaryStepIndex && decide (o.now < startedAt + s.canaryStepIndex * getCanaryInterval c)

/-- `gateCanaryAdvance`: the actions, and whether the release may go on.  Before the first step there is nothing to look
at. -/
def gateCanaryAdvance (ready : Bool) (now : Int) (c : CanaryConfig) (s : ReleaseStatus) : List Action × Bool :=
  match s.canaryStepStartedAt with
  | none => ([], true)
  | some startedAt =>
    if ready then ([.gatePassed now], true)
    else if getCanaryProgressDeadline c < now - startedAt then (failRelease s, false)
    else ([], false)

def handleCanaryPromotion (o : Observation) (c : CanaryConfig) (s : ReleaseStatus) : List Action :=
  let gate := gateCanaryAdvance o.finalWorkloadsReady o.promotionAt c s
  gate.1 ++
    if gate.2 then
      match o.promoteCanary with
      | .done => [.status { s with phase := .verifying, canaryWeight := 100 }]
      | .conftestBlocked => []
      | .failed => failRelease s
    else []

/-- `runCanaryAnalysis`, through `runCanaryAnalysisForStage`: the actions, and whether the step goes on. -/
def runCanaryAnalysis (o : Observation) (c : CanaryConfig) (s : ReleaseStatus) : List Action × Bool :=
  match c.analysis with
  | none => ([], true)
  | some analysis =>
    if analysis.checks.isEmpty then ([], true)
    else if !o.analyzer then ([], false)
    else if analysis.checks.all o.checkPasses then ([.checksPassed o.now], true)
    else if analysis.rollbackOnFail then (failRelease s, false)
    else ([], true)

def canPromoteCanary (stepIdx : Nat) (steps : List Int) (weight : Int) : Bool :=
  decide (steps.length ≤ stepIdx + 1) || decide (100 ≤ weight)

def stepApplied (o : Observation) (weight : Int) (s : ReleaseStatus) : ReleaseStatus :=
  { s with
    canaryWeight := weight
    canaryStepIndex := s.canaryStepIndex + 1
    canaryStepStartedAt := some o.appliedAt }

/-- `advanceCanaryStep`, with the failure of `applyTrafficWeight` on a weight over 100. -/
def advanceCanaryStep (o : Observation) (stage : Stage) (c : CanaryConfig) (weight : Int) (s : ReleaseStatus) :
    List Action :=
  let analysis := if 0 < s.canaryStepIndex then runCanaryAnalysis o c s else ([], true)
  analysis.1 ++
    if !analysis.2 || !o.weightApplied then []
    else if stage.trafficRouter && (decide (100 < weight) || !o.trafficRouted) then []
    else
      .weightApplied s.canaryStepIndex weight o.appliedAt :: .status (stepApplied o weight s) ::
        if canPromoteCanary s.canaryStepIndex c.steps weight then handleCanaryPromotion o c (stepApplied o weight s)
        else []

/-- `reconcileCanary`, with `transitionToVerifying` for a stage without canary steps. -/
def reconcileCanary (o : Observation) (s : ReleaseStatus) : List Action :=
  match o.stage with
  | none => []
  | some stage =>
    match stage.canary with
    | none => [.status { s with phase := .verifying }]
    | some c =>
      if c.steps.isEmpty then [.status { s with phase := .verifying }]
      else
        match c.steps[s.canaryStepIndex]? with
        | none => handleCanaryPromotion o c s
        | some weight =>
          if checkCanaryThrottle o c s then []
          else
            let gate := gateCanaryAdvance o.workloadsReady o.now c s
            gate.1 ++ if gate.2 then advanceCanaryStep o stage c weight s else []

/-! ### The dispatch by phase -/

/-- `checkConcurrentRelease`: what it writes, and the status that the reconcile goes on with. -/
def checkConcurrentRelease (active : Bool) (s : ReleaseStatus) : List Action × ReleaseStatus :=
  if active && s.phase == .unset then ([.status { s with phase := .pending }], { s with phase := .pending }) else ([], s)

/-- `reconcileReleasePhase` after the requests; `active` is what `hasActiveConcurrentRelease` finds. -/
def dispatchPhase (o : Observation) (active : Bool) (r : Release) : List Action :=
  if r.status.phase.isTerminal then []
  else
    match r.status.phase with
    | .pending => handlePendingPhase o active r.status
    | .awaitingApproval => handleAwaitingApprovalPhase o r.status
    | _ =>
      if !o.listed then []
      else
        let checked := checkConcurrentRelease active r.status
        checked.1 ++
          match checked.2.phase with
          | .unset => initiateRelease o checked.2
          | .promoting => handlePromotingPhase o r.name checked.2
          | .canarying => reconcileCanary o checked.2
          | .verifying => handleVerifyingPhase o checked.2
          | _ => []

def reconcileReleasePhase (o : Observation) (active : Bool) (r : Release) : List Action :=
  if r.resyncRequested then handleResyncAnnotation r.status
  else if shouldRollback r then handleFailedRollback o r.status
  else dispatchPhase o active r

def Action.perform : Action → Release → Release
  | .status s, r => { r with status := s }
  | .clearResync, r => { r with resyncRequested := false }
  | .spendRetries, r | .rolloutRead _, r | .weightApplied .., r | .gatePassed _, r | .checksPassed _, r => r

/-! ### What a reconcile can write -/

/-- `Promoting`, `AwaitingApproval`, `Canarying` or `Verifying`. -/
def ReleasePhase.inFlight : ReleasePhase → Bool
  | .promoting | .awaitingApproval | .canarying | .verifying => true
  | .unset | .pending | .complete | .failed | .rolledBack | .superseded => false

/-- Empty or `Pending`. -/
def ReleasePhase.isWaiting : ReleasePhase → Bool
  | .unset | .pending => true
  | .promoting | .awaitingApproval | .canarying | .verifying | .complete | .failed | .rolledBack | .superseded => false

/-- The moves from one phase to another: a release that waits begins, waits on or is rolled back, one in flight goes on
or ends, and one that has ended is rolled back or starts again. -/
def Moves (p q : ReleasePhase) : Prop :=
  if p.isWaiting then q = .pending ∨ q = .promoting ∨ q = .rolledBack
  else if p.isTerminal then q = .pending ∨ q = .rolledBack
  else q.isWaiting = false

/-- The statuses that the actions write, one after another, are moves, starting from a phase. -/
def Follows : ReleasePhase → List Action → Prop
  | _, [] => True
  | p, .status s :: rest => Moves p s.phase ∧ Follows s.phase rest
  | p, _ :: rest => Follows p rest

theorem isWaiting_of_terminal {p : ReleasePhase} (h : p.isTerminal = true) : p.isWaiting = false := by
  cases p with
  | complete | failed | rolledBack | superseded => rfl
  | unset | pending | promoting | canarying | verifying | awaitingApproval => cases h

theorem follows_of_terminal {p q : ReleasePhase} (hp : p.isTerminal = true) (hq : q.isTerminal = true) {l : List Action}
    (h : Follows p l) : Follows q l := by
  have hmoves : ∀ u, Moves p u → Moves q u := by
    intro u hu
    rw [Moves, isWaiting_of_terminal hp, if_neg Bool.false_ne_true, if_pos hp] at hu
    rw [Moves, isWaiting_of_terminal hq, if_neg Bool.false_ne_true, if_pos hq]
    exact hu
  induction l with
  | nil => trivial
  | cons a rest ih =>
    cases a with
    | status s => exact ⟨hmoves _ h.1, h.2⟩
    | clearResync | spendRetries | rolloutRead _ | weightApplied _ _ _ | gatePassed _ | checksPassed _ => exact ih h

theorem follows_single {p : ReleasePhase} (hp : p.inFlight = true) {s : ReleaseStatus} (hs : s.phase.isWaiting = false) :
    Follows p [.status s] := by
  refine ⟨?_, trivial⟩
  cases p with
  | promoting | awaitingApproval | canarying | verifying => exact hs
  | unset | pending | complete | failed | rolledBack | superseded => cases hp

section
variable (o : Observation) (s : ReleaseStatus) (c : CanaryConfig) {p : ReleasePhase}

theorem follows_failRelease (hp : p.inFlight = true) : Follows p (failRelease s) := follows_single hp rfl

theorem gateCanaryAdvance_cases (ready : Bool) (now : Int) :
    (s.canaryStepStartedAt = none ∧ gateCanaryAdvance ready now c s = ([], true)) ∨
    (ready = true ∧ gateCanaryAdvance ready now c s = ([.gatePassed now], true)) ∨
    gateCanaryAdvance ready now c s = ([], false) ∨ gateCanaryAdvance ready now c s = (failRelease s, false) := by
  unfold gateCanaryAdvance
  split
  · next hnone => exact .inl ⟨hnone, rfl⟩
  split
  · next hready => exact .inr (.inl ⟨hready, rfl⟩)
  · split
    · exact .inr (.inr (.inr rfl))
    · exact .inr (.inr (.inl rfl))

theorem follows_gate (hp : p.inFlight = true) (ready : Bool) (now : Int) {rest : List Action} (hrest : Follows p rest) :
    Follows p ((gateCanaryAdvance ready now c s).1 ++ if (gateCanaryAdvance ready now c s).2 then rest else []) := by
  obtain ⟨-, h⟩ | ⟨-, h⟩ | h | h := gateCanaryAdvance_cases s c ready now
  · rw [h]; exact hrest
  · rw [h]; exact hrest
  · rw [h]; trivial
  · rw [h]; exact follows_failRelease s hp

theorem follows_handleCanaryPromotion (hp : p.inFlight = true) : Follows p (handleCanaryPromotion o c s) := by
  apply follows_gate s c hp
  split
  · exact follows_single hp rfl
  · trivial
  · exact follows_failRelease s hp

theorem runCanaryAnalysis_cases : (runCanaryAnalysis o c s = ([], true) ∧
      ∀ a, c.analysis = some a → a.rollbackOnFail = true → a.checks = []) ∨
    (runCanaryAnalysis o c s = ([.checksPassed o.now], true) ∧
      ∃ a, c.analysis = some a ∧ a.checks.all o.checkPasses = true) ∨
    runCanaryAnalysis o c s = ([], false) ∨ runCanaryAnalysis o c s = (failRelease s, false) := by
  unfold runCanaryAnalysis
  split
  · next hnone => exact .inl ⟨rfl, fun a ha => by rw [hnone] at ha; cases ha⟩
  · next a ha =>
    split
    · next hempty =>
      refine .inl ⟨rfl, ?_⟩
      intro b hb _
      rw [← Option.some.inj (ha.symm.trans hb)]
      exact List.isEmpty_iff.mp hempty
    split
    · exact .inr (.inr (.inl rfl))
    split
    · next hall => exact .inr (.inl ⟨rfl, a, ha, hall⟩)
    split
    · exact .inr (.inr (.inr rfl))
    · next hkeep =>
      refine .inl ⟨rfl, ?_⟩
      intro b hb hroll
      rw [← Option.some.inj (ha.symm.trans hb)] at hroll
      exact absurd hroll hkeep

theorem follows_advanceCanaryStep (stage : Stage) (weight : Int) (hs : s.phase = .canarying) :
    Follows .canarying (advanceCanaryStep o stage c weight s) := by
  have hrest : Follows .canarying (if !o.weightApplied then [] else
      if stage.trafficRouter && (decide (100 < weight) || !o.trafficRouted) then []
      else .weightApplied s.canaryStepIndex weight o.appliedAt :: .status (stepApplied o weight s) ::
        if canPromoteCanary s.canaryStepIndex c.steps weight then handleCanaryPromotion o c (stepApplied o weight s)
        else []) := by
    split
    · trivial
    split
    · trivial
    have hphase : (stepApplied o weight s).phase = .canarying := hs
    refine ⟨by rw [hphase]; rfl, ?_⟩
    rw [hphase]
    split
    · exact follows_handleCanaryPromotion o _ c rfl
    · trivial
  unfold advanceCanaryStep
  split
  · obtain ⟨h, -⟩ | ⟨h, -⟩ | h | h := runCanaryAnalysis_cases o s c
    · simpa [h] using hrest
    · simpa [h, Follows] using hrest
    · simp [h, Follows]
    · simpa [h] using follows_failRelease s (p := .canarying) rfl
  · simpa using hrest

theorem follows_reconcileCanary (hs : s.phase = .canarying) : Follows .canarying (reconcileCanary o s) := by
  unfold reconcileCanary
  split
  · trivial
  split
  · exact follows_single rfl rfl
  · next c hc =>
    split
    · exact follows_single rfl rfl
    split
    · exact follows_handleCanaryPromotion o s c rfl
    · split
      · trivial
      · exact follows_gate s c rfl _ _ (follows_advanceCanaryStep o s c _ _ hs)

theorem isWaiting_ofRolloutPhase (p : RolloutPhase) : (ofRolloutPhase p).isWaiting = false := by cases p <;> rfl

theorem follows_handlePromotingPhase (name : String) (hs : s.phase = .promoting) :
    Follows .promoting (handlePromotingPhase o name s) := by
  have hsame : Follows .promoting [.status s] := follows_single rfl (by rw [hs]; rfl)
  have hverif : Follows .promoting [.status { s with phase := .verifying }] := follows_single rfl rfl
  unfold handlePromotingPhase
  split
  · exact follows_failRelease s rfl
  · exact follows_failRelease s rfl
  · exact follows_single rfl rfl
  · split
    · unfold advanceAfterPromotion
      split
      · exact hverif
      split
      · exact hsame
      split
      · unfold reconcileRolloutManagedRelease
        split
        · trivial
        · split
          · exact follows_single rfl rfl
          · trivial
        · split
          · exact follows_single rfl (isWaiting_ofRolloutPhase _)
          · trivial
      · split
        · exact follows_single rfl rfl
        · exact hverif
    · exact hsame
    · exact hsame
    · exact hsame
    · trivial
    · exact follows_failRelease s rfl
end

theorem checkConcurrentRelease_of_ne {active : Bool} {s : ReleaseStatus} (h : s.phase ≠ .unset) :
    checkConcurrentRelease active s = ([], s) := by
  unfold checkConcurrentRelease
  rw [if_neg (by simp [h])]

/-- The reconcile gets to the handler of the phase. -/
def Release.Dispatched (r : Release) : Prop := r.resyncRequested = false ∧ shouldRollback r = false

instance (r : Release) : Decidable r.Dispatched := inferInstanceAs (Decidable (_ ∧ _))

theorem reconcile_of_dispatched {o : Observation} {active : Bool} {r : Release} (h : r.Dispatched) :
    reconcileReleasePhase o active r = dispatchPhase o active r := by
  unfold reconcileReleasePhase
  rw [h.1, h.2]
  rfl

/-- The ways through a reconcile: a resync, a rollback, and the handler of the phase. -/
theorem reconcile_cases (o : Observation) (active : Bool) (r : Release) :
    (r.resyncRequested = true ∧ reconcileReleasePhase o active r = handleResyncAnnotation r.status) ∨
    (r.resyncRequested = false ∧ shouldRollback r = true ∧
      reconcileReleasePhase o active r = handleFailedRollback o r.status) ∨
    (r.Dispatched ∧ reconcileReleasePhase o active r = dispatchPhase o active r) := by
  cases hresync : r.resyncRequested with
  | true => exact .inl ⟨rfl, by unfold reconcileReleasePhase; rw [hresync]; rfl⟩
  | false =>
    cases hroll : shouldRollback r with
    | true => exact .inr (.inl ⟨rfl, rfl, by unfold reconcileReleasePhase; rw [hresync, hroll]; rfl⟩)
    | false => exact .inr (.inr ⟨⟨hresync, hroll⟩, reconcile_of_dispatched ⟨hresync, hroll⟩⟩)

section
variable {o : Observation} {active : Bool} {r : Release}

theorem dispatch_terminal (h : r.status.phase.isTerminal = true) : dispatchPhase o active r = [] := by
  unfold dispatchPhase
  rw [if_pos h]

theorem dispatch_promoting (h : r.status.phase = .promoting) :
    dispatchPhase o active r = if o.listed then handlePromotingPhase o r.name r.status else [] := by
  have hne : r.status.phase ≠ .unset := by rw [h]; exact ReleasePhase.noConfusion
  cases hlisted : o.listed <;>
    simp [dispatchPhase, h, hlisted, ReleasePhase.isTerminal, checkConcurrentRelease_of_ne hne]

theorem dispatch_canarying (h : r.status.phase = .canarying) :
    dispatchPhase o active r = if o.listed then reconcileCanary o r.status else [] := by
  have hne : r.status.phase ≠ .unset := by rw [h]; exact ReleasePhase.noConfusion
  cases hlisted : o.listed <;>
    simp [dispatchPhase, h, hlisted, ReleasePhase.isTerminal, checkConcurrentRelease_of_ne hne]

theorem dispatch_verifying (h : r.status.phase = .verifying) :
    dispatchPhase o active r = if o.listed then handleVerifyingPhase o r.status else [] := by
  have hne : r.status.phase ≠ .unset := by rw [h]; exact ReleasePhase.noConfusion
  cases hlisted : o.listed <;>
    simp [dispatchPhase, h, hlisted, ReleasePhase.isTerminal, checkConcurrentRelease_of_ne hne]

theorem dispatch_awaitingApproval (h : r.status.phase = .awaitingApproval) :
    dispatchPhase o active r = handleAwaitingApprovalPhase o r.status := by
  simp [dispatchPhase, h, ReleasePhase.isTerminal]

/-- A release that waits is queued, or begins if it has listed no active release of its target. -/
theorem dispatch_waiting (o : Observation) (active : Bool) (h : r.status.phase.isWaiting = true) :
    dispatchPhase o active r = [] ∨ dispatchPhase o active r = [.status { r.status with phase := .pending }] ∨
      (active = false ∧ dispatchPhase o active r = [.status { r.status with phase := .promoting }]) := by
  cases hphase : r.status.phase with
  | promoting | canarying | verifying | awaitingApproval | complete | failed | rolledBack | superseded =>
    rw [hphase] at h
    cases h
  | pending =>
    have hdispatch : dispatchPhase o active r = handlePendingPhase o active r.status := by
      simp [dispatchPhase, hphase, ReleasePhase.isTerminal]
    rw [hdispatch]
    unfold handlePendingPhase
    split
    · exact .inl rfl
    · next hgo =>
      simp only [Bool.or_eq_true, not_or, Bool.not_eq_true] at hgo
      exact .inr (.inr ⟨hgo.2, rfl⟩)
  | unset =>
  cases hlisted : o.listed with
  | false => exact .inl (by simp [dispatchPhase, hphase, hlisted, ReleasePhase.isTerminal])
  | true =>
  cases active with
  | true =>
    exact .inr (.inl (by
      simp [dispatchPhase, hphase, hlisted, ReleasePhase.isTerminal, checkConcurrentRelease]))
  | false =>
  have hcheck : checkConcurrentRelease false r.status = ([], r.status) := rfl
  have hdispatch : dispatchPhase o false r = initiateRelease o r.status := by
    simp [dispatchPhase, hphase, hlisted, ReleasePhase.isTerminal, hcheck]
  rw [hdispatch]
  unfold initiateRelease
  split
  · exact .inl rfl
  · exact .inr (.inr ⟨rfl, rfl⟩)
end

theorem moves_rolledBack (p : ReleasePhase) : Moves p .rolledBack := by
  cases p <;> simp [Moves, ReleasePhase.isWaiting, ReleasePhase.isTerminal]

/-- **What a reconcile writes are moves.** -/
theorem reconcile_follows (o : Observation) (active : Bool) (r : Release) :
    Follows r.status.phase (reconcileReleasePhase o active r) := by
  have hlisted : ∀ {l : List Action}, Follows r.status.phase l → Follows r.status.phase (if o.listed then l else []) := by
    intro l hl
    split
    · exact hl
    · trivial
  obtain ⟨-, h⟩ | ⟨-, -, h⟩ | ⟨-, h⟩ := reconcile_cases o active r
  · rw [h, handleResyncAnnotation]
    split
    · next hterm =>
      refine ⟨?_, trivial⟩
      rw [Moves, isWaiting_of_terminal hterm, if_neg Bool.false_ne_true, if_pos hterm]
      exact .inl rfl
    · trivial
  · rw [h, handleFailedRollback]
    split
    · trivial
    · exact ⟨moves_rolledBack _, trivial⟩
  · rw [h]
    cases hphase : r.status.phase with
    | complete | failed | rolledBack | superseded =>
      rw [dispatch_terminal (by rw [hphase]; rfl)]
      trivial
    | unset | pending =>
      have hwait : r.status.phase.isWaiting = true := by rw [hphase]; rfl
      obtain h | h | ⟨-, h⟩ := dispatch_waiting o active hwait
      · rw [h]; trivial
      · rw [h]; exact ⟨.inl rfl, trivial⟩
      · rw [h]; exact ⟨.inr (.inl rfl), trivial⟩
    | awaitingApproval =>
      rw [dispatch_awaitingApproval hphase, handleAwaitingApprovalPhase]
      split
      · trivial
      · trivial
      · exact follows_failRelease _ rfl
      · exact follows_single rfl rfl
    | promoting =>
      rw [hphase] at hlisted
      rw [dispatch_promoting hphase]
      exact hlisted (follows_handlePromotingPhase o r.status r.name hphase)
    | canarying =>
      rw [hphase] at hlisted
      rw [dispatch_canarying hphase]
      exact hlisted (follows_reconcileCanary o r.status hphase)
    | verifying =>
    rw [hphase] at hlisted
    rw [dispatch_verifying hphase, handleVerifyingPhase]
    apply hlisted
    split
    · exact follows_single rfl rfl
    · exact follows_failRelease _ rfl

end Paprika.Releases
