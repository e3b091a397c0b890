import Paprika.Promotion.Admission

/-!
# Promotion: what a reconcile does, one effect at a time

A reconcile works on a copy of the Application.  A `Guarantee` is a relation between that copy and the store (`ok`), and
one for the time between a finding that blocks the promotion and the status that records it (`ko`), such that every
effect of a reconcile, under the conditions under which the reconcile has it, keeps them.

The effects are the fields of the structure; the theorems say what each routine does in terms of them, so that an
invariant of promotion is proved by going through the effects, and not through the routines.
-/

namespace Paprika.Promotion

open Lib.Process Lib.Process.Routine

variable {Ω H : Type}

/-! ### Evidence -/

def GatesPassed (spec : Spec Ω) (log : List (Fact Ω H)) : Prop :=
  ∀ gate ∈ spec.gates, gate.type ≠ .duration → Fact.gatePassed gate ∈ attemptFacts log

/-- The tests, if there are any, have succeeded in the current attempt, in a Pipeline bound to the candidate. -/
structure SucceededFor (c : Candidate Ω H) (tests : Tests Ω) (pipeline : PipelineObject Ω H) : Prop where
  sourceApplicationUID : pipeline.sourceApplicationUID = c.source.applicationUID
  sourceReleaseUID : pipeline.sourceReleaseUID = c.source.releaseUID
  revision : pipeline.revision = c.source.revision
  attempt : pipeline.attempt = c.verificationAttempt
  controlled : pipeline.controlled = true
  spec : pipeline.spec = promotionTestPipeline c tests
  phase : pipeline.phase = .succeeded
  steps : ∀ step ∈ tests.steps, Pipelines.phaseOf pipeline.stepStatuses step.name = some .succeeded

def TestsPassed (spec : Spec Ω) (c : Candidate Ω H) (log : List (Fact Ω H)) : Prop :=
  ∀ tests, spec.tests = some tests → tests.steps ≠ [] →
    ∃ pipeline, Fact.testsSucceeded pipeline ∈ attemptFacts log ∧ SucceededFor c tests pipeline

/-- The candidate has been approved in the current attempt, if it has to be. -/
def Approved (spec : Spec Ω) (c : Candidate Ω H) (log : List (Fact Ω H)) : Prop :=
  spec.syncPolicy = .manual → Fact.approvalConsumed c.source.releaseUID ∈ attemptFacts log

/-- Every duration gate has elapsed since the start of the observation. -/
def Elapsed (spec : Spec Ω) (startedAt : Option Int) (now : Int) : Prop :=
  ∀ gate ∈ spec.gates, gate.type = .duration →
    ∃ t, startedAt = some t ∧ promotionObservationDurationElapsed gate t now = true

/-- The gates are behind the candidate: it waits for its approval only, or they have just been passed. -/
def Gated (spec : Spec Ω) (c : Candidate Ω H) (log : List (Fact Ω H)) (now : Int) : Prop :=
  c.phase = .awaitingApproval ∨ GatesPassed spec log ∧ Elapsed spec c.verificationStartedAt now

/-- A candidate may be marked ready: it has been, or it has passed everything. -/
def Qualified (spec : Spec Ω) (c : Candidate Ω H) (log : List (Fact Ω H)) (now : Int) : Prop :=
  c.phase = .ready ∧ Elapsed spec c.verificationStartedAt now ∨
    TestsPassed spec c log ∧ Approved spec c log ∧ Gated spec c log now

section
variable {older newer : List (Fact Ω H)} {spec : Spec Ω} {c : Candidate Ω H} {now : Int}

theorem GatesPassed.continues (h : GatesPassed spec older) (hlog : Continues older newer) : GatesPassed spec newer :=
  fun gate hgate htype => hlog.attemptFacts (h gate hgate htype)

theorem TestsPassed.continues (h : TestsPassed spec c older) (hlog : Continues older newer) :
    TestsPassed spec c newer := by
  intro tests htests hsteps
  obtain ⟨pipeline, hmem, hpipeline⟩ := h tests htests hsteps
  exact ⟨pipeline, hlog.attemptFacts hmem, hpipeline⟩

theorem Gated.continues (h : Gated spec c older now) (hlog : Continues older newer) : Gated spec c newer now :=
  h.imp_right (And.imp_left fun hgates => hgates.continues hlog)

theorem Elapsed.later {startedAt : Option Int} (h : Elapsed spec startedAt now) {later : Int} (hle : now ≤ later) :
    Elapsed spec startedAt later := by
  intro gate hgate htype
  obtain ⟨t, ht, helapsed⟩ := h gate hgate htype
  refine ⟨t, ht, ?_⟩
  simp only [promotionObservationDurationElapsed, decide_eq_true_eq] at helapsed ⊢
  have hmono : (now - t) * 1000000000 ≤ (later - t) * 1000000000 := by omega
  exact le_trans helapsed hmono
end

/-! ### Effects -/

def Candidate.Observing (c : Candidate Ω H) : Prop :=
  c.phase = .verifying ∨ c.phase = .awaitingApproval ∨ c.phase = .ready

variable [DecidableEq Ω] [DecidableEq H]

/-- The candidate changes in nothing but its message and its Pipeline. -/
structure Candidate.Amends (c c' : Candidate Ω H) : Prop where
  source : c'.source = c.source
  phase : c'.phase = c.phase
  configHash : c'.verificationConfigHash = c.verificationConfigHash
  attempt : c'.verificationAttempt = c.verificationAttempt
  consumed : c'.consumedVerificationAttempts = c.consumedVerificationAttempts
  startedAt : c'.verificationStartedAt = c.verificationStartedAt

/-- What a reconcile may note about its candidate. -/
def Fits (hash : Spec Ω → H) (now : Int) (app : Application Ω H) (c : Candidate Ω H) : Fact Ω H → Prop
  | .sourceReady source => source = c.source
  | .verifying configHash => c.verificationConfigHash = some configHash
  | .gatePassed _ | .testsSucceeded _ => True
  | .accepted c' spec => c' = c ∧ spec = app.spec ∧ c.phase = .ready ∧ c.verificationConfigHash = some (hash app.spec)
  | .left c' spec t =>
    c' = c ∧ spec = app.spec ∧ t = now ∧ c.phase = .ready ∧ c.verificationConfigHash = some (hash app.spec) ∧
      app.status.promotionReady = some true
  | .began _ | .interrupted | .rejected | .stamped _ | .approvalConsumed _ | .selected _ | .activated .. => False

/-- The attempts that a reconcile may activate. -/
inductive Attempts (hash : Spec Ω → H) (app : Application Ω H) (c : Candidate Ω H) :
    String → Option (AdmittedRelease H) → Candidate Ω H → Prop
  | refresh (uuid : String) : Attempts hash app c "" none (refreshedAttempt c uuid (hash app.spec))
  | retry {request uid token : String} {release : Option (AdmittedRelease H)}
      (valid : promotionRetryRequest request = some (uid, token))
      (fresh : promotionRetryAlreadyConsumed c token = false)
      (failed : c.phase = .failed)
      (limit : c.consumedVerificationAttempts.length < promotionRetryLimit)
      (unadmitted : release.any (acceptedPromotionReleaseMatches hash app c) = false) :
      Attempts hash app c request release (retryAttempt c token (hash app.spec))

/-- What a reconcile that starts at `now` keeps. -/
structure Guarantee (hash : Spec Ω → H) (D : Discipline (Action Ω H) (Store Ω H) (Start Ω H)) (now : Int) where
  ok : Application Ω H → Store Ω H → Prop
  ko : Reason → Application Ω H → Store Ω H → Prop
  rely : ∀ {s t}, D.rely s t → Rely s t
  notes : ∀ {fact s}, D.mayFail (.note fact) → D.idle s
  patches : ∀ {status facts s}, D.mayFail (.patchAppStatus status facts) → D.idle s
  inv : ∀ {l s}, ok l s → D.inv s
  idle : ∀ {l s}, ok l s → D.idle s
  stable : ∀ {l s t}, Rely s t → ok l s → ok l t
  blockedInv : ∀ {reason l s}, ko reason l s → D.inv s
  blockedStable : ∀ {reason l s t}, Rely s t → ko reason l s → ko reason l t
  began : ∀ {l s} (configHash : H), ok l s → ok l (s.record (.began configHash))
  note : ∀ {l s c fact}, ok l s → l.status.promotion = some c → Fits hash now l c fact → ok l (s.record fact)
  /-- The promotion is blocked, by a finding about the upstream or by something else. -/
  block : ∀ {reason l s}, ok l s → ko reason l s
  interrupt : ∀ {reason l s}, ok l s → promotionObservationInterrupted reason = true →
    ko reason l (s.record .interrupted)
  reject : ∀ {l s c}, ok l s → l.status.promotion = some c → c.phase = .failed →
    ko .upstreamCandidateChanged l (s.record .rejected)
  /-- The wait is recorded. -/
  wait : ∀ {reason l s} (message : String), ko reason l s →
    ok (waitingApplication hash reason message l) (s.publish (waitingApplication hash reason message l).status)
  amend : ∀ {l s c c'}, ok l s → l.status.promotion = some c → c.Amends c' → ok (l.setCandidate c') s
  /-- The candidate fails, or is on its way with a release. -/
  retire : ∀ {l s c} (phase : Phase) (message : String), ok l s → l.status.promotion = some c →
    (phase = .failed ∨ phase = .promoting ∨ phase = .complete) →
    ok (l.setCandidate { c with phase := phase, message := message }) s
  retried : ∀ {l s c}, ok l s → l.status.promotion = some c → c.phase = .promoting → ok (l.setCondition true) s
  startVerification : ∀ {l s c} (configHash : H), ok l s → l.status.promotion = some c → c.verificationConfigHash = none →
    ok (l.setCandidate (c.startVerification configHash)) s
  stamp : ∀ {l s c}, ok l s → l.status.promotion = some c → c.verificationConfigHash = some (hash l.spec) →
    c.verificationStartedAt = none →
    ok (l.setCandidate { c with verificationStartedAt := some now }) (s.record (.stamped now))
  consumeApproval : ∀ {l s}, ok l s →
    ok { l with approval := "" } (s.clearApproval.record (.approvalConsumed s.app.approval))
  consumeRetry : ∀ {l s}, ok l s → ok { l with retry := "" } s.clearRetry
  activate : ∀ {l s c next request release}, ok l s → l.status.promotion = some c →
    promotionRetryIntentMatches hash s.app l.generation c next request = true →
    Attempts hash l c request release next →
    ok { l.setCandidate next with approval := "", retry := request }
      ((s.publish { s.app.status with promotion := some next }).record (.activated request s.app release next))
  await : ∀ {l s c}, ok l s → l.status.promotion = some c → c.Observing →
    c.verificationConfigHash = some (hash l.spec) → Gated l.spec c s.log now → ok (l.setCandidate { c with phase := .awaitingApproval }) s
  markReady : ∀ {l s c}, ok l s → l.status.promotion = some c → c.Observing →
    c.verificationConfigHash = some (hash l.spec) → Qualified l.spec c s.log now → ok (markPromotionReady l) s
  publish : ∀ {l s}, ok l s → ok l (s.publish l.status)
  /-- What does not concern the candidate changes, and is written. -/
  deploy : ∀ {l s} (accepted : Option (Spec Ω)) (revision release : String), ok l s →
    ok { l with status := { l.status with
        acceptedDeployment := accepted, sourceRevision := revision, releaseRef := release } }
      (s.publish { l.status with
        acceptedDeployment := accepted, sourceRevision := revision, releaseRef := release })

section
variable {α : Type} (hash : Spec Ω → H) (D : Discipline (Action Ω H) (Store Ω H) (Start Ω H))

/-- How a routine ends; `E` is what holds when it is blocked. -/
def After (E : Reason → Application Ω H → Store Ω H → Prop) (R : α → Application Ω H → Store Ω H → Prop) :
    Except Failure α → Application Ω H → Store Ω H → Prop
  | .ok a, l, s => R a l s
  | .error (.blocked reason _), l, s => E reason l s
  | .error (.other _), _, s => D.idle s

/-- What a routine makes true. -/
def Runs (E : Reason → Application Ω H → Store Ω H → Prop) (m : Reconcile Ω H α) (l : Application Ω H) (s : Store Ω H)
    (R : α → Application Ω H → Store Ω H → Prop) : Prop :=
  wp D (perform hash) m (After D E R) l s

variable {hash D} {E : Reason → Application Ω H → Store Ω H → Prop} {l : Application Ω H} {s : Store Ω H}

theorem Runs.mono {m : Reconcile Ω H α} {R R' : α → Application Ω H → Store Ω H → Prop} (h : Runs hash D E m l s R)
    (hR : ∀ a l' s', R a l' s' → R' a l' s') : Runs hash D E m l s R' := by
  refine wp.mono h ?_
  intro r l' u hr
  cases r with
  | ok a => exact hR a l' u hr
  | error e => cases e <;> exact hr
end

namespace Guarantee

variable {hash : Spec Ω → H} {D : Discipline (Action Ω H) (Store Ω H) (Start Ω H)} {now : Int}
  (G : Guarantee hash D now) {α β : Type} {l : Application Ω H} {s : Store Ω H}

/-- A new candidate is selected, by a reconcile that has not done anything else with its copy yet. -/
def Selects (l : Application Ω H) (obs : Observation Ω H) : Prop :=
  ∀ {s} (source : SourceKey), G.ok l s → newlySelected l obs = some source → source.releaseUID ≠ "" →
    D.inv (s.record (.sourceReady source)) ∧
      ∀ t, Rely (s.record (.sourceReady source)) t → G.ok (l.setCandidate (newPromotionCandidate source))
          ((t.publish (l.setCandidate (newPromotionCandidate source)).status).record
            (.selected (newPromotionCandidate source)))

/-- What a routine makes true that may be blocked. -/
abbrev Does (m : Reconcile Ω H α) (l : Application Ω H) (s : Store Ω H)
    (R : α → Application Ω H → Store Ω H → Prop) : Prop :=
  Runs hash D G.ko m l s R

variable {G} {E : Reason → Application Ω H → Store Ω H → Prop}

/-! ### Rules -/

theorem spec_bind {m : Reconcile Ω H α} {f : α → Reconcile Ω H β} {R : β → Application Ω H → Store Ω H → Prop}
    (h : Runs hash D E m l s (fun a l' s' => Runs hash D E (f a) l' s' R)) : Runs hash D E (m >>= f) l s R := by
  refine wp_bind (wp.mono h ?_)
  intro r l' u hr
  cases r with
  | ok a => exact hr
  | error e => cases e <;> exact hr

variable {R : α → Application Ω H → Store Ω H → Prop} {message : String}

theorem spec_pure {a : α} (h : R a l s) : Runs hash D E (pure a) l s R := h

section
variable {R : β → Application Ω H → Store Ω H → Prop}

theorem spec_copy {f : Application Ω H → Reconcile Ω H β}
    (h : Runs hash D E (f l) l s R) : Runs hash D E (copy >>= f) l s R :=
  spec_bind (wp_copy h)

theorem spec_update {g : Application Ω H → Application Ω H} {f : Unit → Reconcile Ω H β}
    (h : Runs hash D E (f ()) (g l) s R) : Runs hash D E (update g >>= f) l s R :=
  spec_bind (wp_update h)

theorem spec_candidate {c : Candidate Ω H} {f : Candidate Ω H → Reconcile Ω H β}
    (hc : l.status.promotion = some c) (h : Runs hash D E (f c) l s R) :
    Runs hash D E (candidate >>= f) l s R := by
  refine spec_bind (spec_copy ?_)
  simp only [hc]
  exact spec_pure h
end

theorem spec_blocked {reason : Reason} (h : G.ok l s) : G.Does (promotionBlocked reason message) l s R :=
  wp_raise (G.block h)

theorem spec_other (h : G.ok l s) : Runs hash D E (raise (.other message)) l s R := wp_raise (G.idle h)

theorem spec_handle {m : Reconcile Ω H α} {f : Failure → Reconcile Ω H α} (h : G.Does m l s R)
    (hblocked : ∀ reason message l' s', G.ko reason l' s' → Runs hash D E (f (.blocked reason message)) l' s' R)
    (hother : ∀ message l' s', D.idle s' → Runs hash D E (f (.other message)) l' s' R) :
    Runs hash D E (handle m f) l s R := by
  refine wp_handle (wp.mono h ?_)
  intro r l' u hr
  cases r with
  | ok a => exact hr
  | error e =>
    cases e with
    | blocked reason message => exact hblocked reason message l' u hr
    | other message => exact hother message l' u hr

section
variable {R : Unit → Application Ω H → Store Ω H → Prop}

theorem spec_note (G : Guarantee hash D now) {fact : Fact Ω H}
    (h : ∀ t, Rely s t → D.inv (t.record fact) ∧ R () l (t.record fact)) :
    Runs hash D E (write (.note fact)) l s R := by
  refine wp_write ?_ ?_
  · intro t _ hcut
    rcases hcut with hfail | hnone
    · exact G.notes hfail
    · cases hnone
  · intro t ht u hu
    cases hu
    exact h t (G.rely ht)

theorem spec_patch (G : Guarantee hash D now) {facts : List (Fact Ω H)}
    (h : ∀ t, Rely s t → D.inv (facts.foldl Store.record (t.publish l.status)) ∧
      R () l (facts.foldl Store.record (t.publish l.status))) :
    Runs hash D E (patchAppStatus facts) l s R := by
  refine spec_copy (wp_write ?_ ?_)
  · intro t _ hcut
    rcases hcut with hfail | hnone
    · exact G.patches hfail
    · cases hnone
  · intro t ht u hu
    cases hu
    exact h t (G.rely ht)

theorem spec_write {a : Action Ω H} {l₀ : Application Ω H}
    (hok : G.ok l₀ s) (h : ∀ t, Rely s t → ∀ u, perform hash a t = some u → D.inv u ∧ R () l u) :
    Runs hash D E (write a) l s R := by
  refine wp_write ?_ ?_
  · intro t ht _
    exact G.idle (G.stable (G.rely ht) hok)
  · intro t ht u hu
    exact h t (G.rely ht) u hu
end

theorem spec_noteFits {c : Candidate Ω H} (fact : Fact Ω H) (hok : G.ok l s) (hc : l.status.promotion = some c)
    (hfact : Fits hash now l c fact) :
    Runs hash D E (write (.note fact)) l s (fun _ l' s' => G.ok l' s' ∧ l' = l ∧ s'.log = fact :: s.log) := by
  refine spec_note G ?_
  intro t ht
  have hnoted : G.ok l (t.record fact) := G.note (G.stable ht hok) hc hfact
  refine ⟨G.inv hnoted, hnoted, rfl, ?_⟩
  show fact :: t.log = fact :: s.log
  rw [ht.log]

theorem spec_publish (hok : G.ok l s) : Runs hash D E (patchAppStatus []) l s (fun _ l' s' => G.ok l' s' ∧ l' = l) := by
  refine spec_patch G ?_
  intro t ht
  have hpub : G.ok l (t.publish l.status) := G.publish (G.stable ht hok)
  exact ⟨G.inv hpub, hpub, rfl⟩

theorem spec_interrupted {reason : Reason}
    (hok : G.ok l s) (hreason : promotionObservationInterrupted reason = true) :
    G.Does (promotionInterrupted reason message) l s R := by
  refine spec_bind (spec_note G ?_)
  intro t ht
  have hko : G.ko reason l (t.record .interrupted) := G.interrupt (G.stable ht hok) hreason
  exact ⟨G.blockedInv hko, wp_raise hko⟩

theorem spec_rejected {c : Candidate Ω H} (hok : G.ok l s) (hc : l.status.promotion = some c) : G.Does (do
      modifyCandidate (fun c => { c with phase := .failed })
      write (.note .rejected)
      promotionBlocked .upstreamCandidateChanged message : Reconcile Ω H α) l s R := by
  refine spec_update (spec_bind (spec_note G ?_))
  intro t ht
  have hfailed : G.ok (l.setCandidate { c with phase := .failed }) t :=
    G.retire .failed c.message (G.stable ht hok) hc (Or.inl rfl)
  have hmap : Application.mapCandidate (fun c : Candidate Ω H => { c with phase := .failed }) l
      = l.setCandidate { c with phase := .failed } := by
    simp [Application.mapCandidate, Application.setCandidate, hc]
  have hko : G.ko .upstreamCandidateChanged (l.setCandidate { c with phase := .failed }) (t.record .rejected) :=
    G.reject hfailed rfl rfl
  rw [hmap]
  exact ⟨G.blockedInv hko, wp_raise hko⟩

end Guarantee

end Paprika.Promotion
