import Paprika.Promotion.Guarantee

/-!
# Promotion: the effects of each routine

For each routine of a reconcile, what it does to the copy and to the store in terms of the effects of a `Guarantee`.  The
routines of the verification come first, in the order of `Paprika.Promotion.Verification`, then admission and the
release; `Guarantee.keeps` puts them together.
-/

namespace Paprika.Promotion

open Lib.Process Lib.Process.Routine List

variable {Ω H : Type}

/-! ### The copy -/

namespace Application

variable (app : Application Ω H) (c c' : Candidate Ω H)

@[simp] theorem setCandidate_promotion : (app.setCandidate c).status.promotion = some c := rfl

@[simp] theorem setCandidate_setCandidate : (app.setCandidate c).setCandidate c' = app.setCandidate c' := rfl

variable {app c}

theorem setCandidate_self (hc : app.status.promotion = some c) : app.setCandidate c = app := by
  cases app with
  | mk name generation spec approval retry status =>
    cases status
    cases hc
    rfl

theorem mapCandidate_eq (hc : app.status.promotion = some c) (f : Candidate Ω H → Candidate Ω H) :
    app.mapCandidate f = app.setCandidate (f c) := by
  simp only [mapCandidate, setCandidate, hc, Option.map_some]

theorem approval_self (h : app.approval = "") : { app with approval := "" } = app := by
  cases app
  cases h
  rfl

end Application

section
variable {c c' : Candidate Ω H} {log : List (Fact Ω H)} {spec : Spec Ω}

section
variable (hsrc : c'.source = c.source) (hatt : c'.verificationAttempt = c.verificationAttempt)
include hsrc hatt

theorem promotionTestEnvironment_congr : promotionTestEnvironment c = promotionTestEnvironment c' := by
  unfold promotionTestEnvironment
  rw [hsrc, hatt]

theorem promotionTestPipeline_congr (tests : Tests Ω) :
    promotionTestPipeline c tests = promotionTestPipeline c' tests := by
  unfold promotionTestPipeline
  rw [promotionTestEnvironment_congr hsrc hatt]

theorem SucceededFor.congr {tests : Tests Ω} {pipeline : PipelineObject Ω H} (h : SucceededFor c tests pipeline) :
    SucceededFor c' tests pipeline where
  sourceApplicationUID := by rw [hsrc]; exact h.sourceApplicationUID
  sourceReleaseUID := by rw [hsrc]; exact h.sourceReleaseUID
  revision := by rw [hsrc]; exact h.revision
  attempt := by rw [hatt]; exact h.attempt
  controlled := h.controlled
  spec := h.spec.trans (promotionTestPipeline_congr hsrc hatt tests)
  phase := h.phase
  steps := h.steps

theorem TestsPassed.congr (h : TestsPassed spec c log) : TestsPassed spec c' log := by
  intro tests htests hsteps
  obtain ⟨pipeline, hmem, hpipeline⟩ := h tests htests hsteps
  exact ⟨pipeline, hmem, hpipeline.congr hsrc hatt⟩
end

end

/-! ### Waiting -/

/-- What a wait does to the candidate. -/
structure Waits (reason : Reason) (c c' : Candidate Ω H) : Prop where
  source : c'.source = c.source
  configHash : c'.verificationConfigHash = c.verificationConfigHash
  attempt : c'.verificationAttempt = c.verificationAttempt
  consumed : c'.consumedVerificationAttempts = c.consumedVerificationAttempts
  phase : c'.phase = c.phase ∨ c'.phase = .verifying ∧ c'.verificationStartedAt = none
  startedAt : c'.verificationStartedAt = c.verificationStartedAt ∨ c'.verificationStartedAt = none
  interrupted : promotionObservationInterrupted reason = true → c'.verificationStartedAt = none
  awaiting : c'.phase = .awaitingApproval →
    reason = .promotionAwaitingApproval ∧ c'.verificationStartedAt = c.verificationStartedAt

theorem Waits.message {reason : Reason} {c c' : Candidate Ω H} (h : Waits reason c c') (message : String) :
    Waits reason c { c' with message := message } :=
  ⟨h.source, h.configHash, h.attempt, h.consumed, h.phase, h.startedAt, h.interrupted, h.awaiting⟩

theorem waits_observed (reason : Reason) (c : Candidate Ω H)
    (hwait : c.phase = .awaitingApproval → reason = .promotionAwaitingApproval) :
    Waits reason c (c.observed reason) := by
  unfold Candidate.observed
  split
  · next hinterrupted =>
    refine ⟨rfl, rfl, rfl, rfl, .inl rfl, .inr rfl, fun _ => rfl, ?_⟩
    intro hphase
    rw [hwait hphase] at hinterrupted
    cases hinterrupted
  · next hinterrupted =>
    exact ⟨rfl, rfl, rfl, rfl, .inl rfl, .inl rfl, fun h => absurd h hinterrupted,
      fun hphase => ⟨hwait hphase, rfl⟩⟩

theorem waits_demoted (reason : Reason) (c : Candidate Ω H) : Waits reason c ((c.observed reason).demoted reason) := by
  have hphase : (c.observed reason).phase = c.phase := by
    unfold Candidate.observed
    split <;> rfl
  unfold Candidate.demoted
  rw [hphase]
  split
  · unfold Candidate.observed
    split <;> exact ⟨rfl, rfl, rfl, rfl, .inr ⟨rfl, rfl⟩, .inr rfl, fun _ => rfl, fun h => by cases h⟩
  · next hkept =>
    refine waits_observed reason c ?_
    intro hwait
    by_contra hreason
    exact hkept ⟨.inr hwait, hreason⟩

theorem waits_waitingApplication [DecidableEq H] (hash : Spec Ω → H) (reason : Reason) (message : String)
    {app : Application Ω H} {c : Candidate Ω H} (hc : app.status.promotion = some c) :
    ∃ c', (waitingApplication hash reason message app).status.promotion = some c' ∧ Waits reason c c' := by
  rw [waitingApplication, Application.mapCandidate_eq hc,
    Application.mapCandidate_eq (Application.setCandidate_promotion app _)]
  refine ⟨_, rfl, ?_⟩
  split
  · next hmay =>
    refine (waits_observed reason c ?_).message message
    intro hphase
    simp [promotionReadyMayWait, hc, hphase] at hmay
  · unfold updateWaitingPromotionCandidate
    split
    · exact (waits_demoted reason c).message message
    · exact waits_demoted reason c

theorem waitingApplication_none [DecidableEq H] (hash : Spec Ω → H) (reason : Reason) (message : String)
    {app : Application Ω H} (hc : app.status.promotion = none) :
    (waitingApplication hash reason message app).status.promotion = none := by
  simp only [waitingApplication, Application.setCondition, Application.mapCandidate, hc, Option.map_none]

/-- The candidate is neither on its way with a release nor given up. -/
def Pursued (c : Candidate Ω H) : Prop := c.phase ≠ .promoting ∧ c.phase ≠ .failed

/-- A candidate that is ready, and may be deployed, was verified for the specification. -/
def Labelled (hash : Spec Ω → H) (app : Application Ω H) : Prop :=
  ∀ c, app.status.promotion = some c → c.phase = .ready → app.status.promotionReady = some true →
    c.verificationConfigHash = some (hash app.spec)

theorem markPromotionReady_eq {app : Application Ω H} {c : Candidate Ω H} (hc : app.status.promotion = some c) :
    markPromotionReady app = (app.setCandidate
      { c with phase := .ready, message := "Upstream release verified and ready for deployment." }).setCondition true := by
  rw [markPromotionReady, Application.mapCandidate_eq hc]

section
variable [DecidableEq H] {hash : Spec Ω → H} {app : Application Ω H} {c next : Candidate Ω H} {request : String}
  {release : Option (AdmittedRelease H)}

section
variable (h : Attempts hash app c request release next)
include h

theorem Attempts.clearApproval : Attempts hash { app with approval := "" } c request release next := by
  cases h with
  | refresh uuid => exact .refresh uuid
  | retry valid fresh failed limit unadmitted => exact .retry valid fresh failed limit unadmitted

theorem Attempts.source : next.source = c.source := by cases h <;> rfl

theorem Attempts.phase : next.phase = .verifying := by cases h <;> rfl
end

omit [DecidableEq H] in
theorem Fits.isActivation {now : Int} {fact : Fact Ω H} (h : Fits hash now app c fact) : fact.isActivation = false := by
  cases fact <;> first | rfl | exact h.elim
end

variable {upstream : UpstreamObject}

theorem releaseUID_of_sourceReady {ref : Reference} {release : ReleaseObject}
    {unready : Option String} (h : promotionSourceReady upstream release unready = none) :
    (sourceKey ref upstream release).releaseUID ≠ "" := by
  unfold promotionSourceReady at h
  split at h
  · cases h
  split at h
  · cases h
  · next hrel => exact fun huid => hrel (.inl huid)

section
variable {c : Candidate Ω H} {existing : PipelineObject Ω H}

theorem promotionTestPipelineReady_fst {expected : Tests Ω}
    (h : (promotionTestPipelineReady c existing expected).1 = true) :
    existing.phase = .succeeded ∧ allStepsSucceeded existing expected = true ∧
      (promotionTestPipelineReady c existing expected).2 = c := by
  unfold promotionTestPipelineReady at h ⊢
  cases hphase : existing.phase <;> simp only [hphase] at h ⊢ <;> try cases h
  split at h
  · cases h
  split at h
  · next hobserved hsteps => exact ⟨trivial, hsteps, by simp [hobserved, hsteps]⟩
  · cases h

theorem SucceededFor.of_ready [DecidableEq Ω] [DecidableEq H]
    {tests : Tests Ω}
    (hmatches : promotionTestPipelineMatches c existing (promotionTestPipeline c tests) = true)
    (hphase : existing.phase = .succeeded)
    (hsteps : allStepsSucceeded existing (promotionTestPipeline c tests) = true) : SucceededFor c tests existing := by
  simp only [promotionTestPipelineMatches, Bool.and_eq_true, beq_iff_eq] at hmatches
  obtain ⟨⟨⟨⟨⟨⟨hcontrolled, hatt⟩, -⟩, hrel⟩, happ⟩, hrev⟩, hspec⟩ := hmatches
  refine ⟨happ, hrel, hrev, hatt, hcontrolled, hspec, hphase, ?_⟩
  intro step hstep
  simp only [allStepsSucceeded, promotionTestPipeline, all_map, all_eq_true, Function.comp_apply,
    beq_iff_eq] at hsteps
  exact hsteps step hstep
end

namespace Guarantee

variable [DecidableEq Ω] [DecidableEq H] {hash : Spec Ω → H} {D : Discipline (Action Ω H) (Store Ω H) (Start Ω H)} {now : Int}
  {G : Guarantee hash D now} {l : Application Ω H} {s : Store Ω H} {obs : Observation Ω H} {c : Candidate Ω H}
  {E : Reason → Application Ω H → Store Ω H → Prop}

/-! ### Waiting and annotations -/

theorem does_holdVerifiedPromotion (hok : G.ok l s) :
    Runs hash D E holdVerifiedPromotion l s (fun _ l' s' => G.ok l' s' ∧ l' = l) :=
  spec_bind ((spec_publish hok).mono fun _ _ _ h => spec_pure h)

theorem does_waitForPromotion {reason : Reason} (message : String) (hko : G.ko reason l s) :
    Runs hash D E (waitForPromotion hash reason message) l s
      (fun _ l' s' => G.ok l' s' ∧ l'.status.promotionReady = some false) := by
  refine spec_copy (spec_update (spec_bind (spec_patch G ?_)))
  intro t ht
  have hwaiting := G.wait message (G.blockedStable ht hko)
  refine ⟨G.inv hwaiting, ?_⟩
  split
  · refine (does_holdVerifiedPromotion hwaiting).mono ?_
    rintro _ l' s' ⟨hok, rfl⟩
    exact ⟨hok, rfl⟩
  · exact spec_pure ⟨hwaiting, rfl⟩

theorem does_consumePromotionApproval {uid : String} (hok : G.ok l s) :
    Runs hash D E (consumePromotionApproval hash uid) l s (fun _ l' s' =>
      G.ok l' s' ∧ l' = { l with approval := "" } ∧ s'.log = .approvalConsumed uid :: s.log) := by
  refine spec_copy (spec_bind (spec_write hok ?_))
  intro t ht u hu
  simp only [perform] at hu
  split at hu
  · next h =>
    cases hu
    have hcons := G.consumeApproval (G.stable ht hok)
    rw [h.2.2] at hcons
    refine ⟨G.inv hcons, wp_update ⟨hcons, rfl, ?_⟩⟩
    show Fact.approvalConsumed uid :: t.log = _
    rw [ht.log]
  · cases hu

theorem does_consumePromotionRetry {request : String} (hok : G.ok l s) :
    Runs hash D E (consumePromotionRetry request) l s (fun _ l' s' => G.ok l' s' ∧ l' = { l with retry := "" }) := by
  refine spec_bind (spec_write hok ?_)
  intro t ht u hu
  simp only [perform] at hu
  split at hu
  · cases hu
    have hcons := G.consumeRetry (G.stable ht hok)
    exact ⟨G.inv hcons, wp_update ⟨hcons, rfl⟩⟩
  · cases hu

/-! ### The source -/

theorem does_promotionSourceApplication (hok : G.ok l s) :
    G.Does (promotionSourceApplication obs) l s (fun source l' s' => G.ok l' s' ∧ l' = l ∧ s' = s ∧
      ∃ fromRef, l.spec.trigger.bind (·.fromRef) = some fromRef ∧ fromRef.name ≠ "" ∧
        upstreamReference l fromRef ≠ l.name ∧ obs.chain = .valid ∧ source.1 = upstreamReference l fromRef ∧
        obs.source.application = some source.2) := by
  refine spec_copy ?_
  cases hfrom : l.spec.trigger.bind (·.fromRef) with
  | none => exact spec_blocked hok
  | some fromRef =>
  simp only
  split
  · exact spec_blocked hok
  next hname =>
  split
  · exact spec_blocked hok
  next hself =>
  cases hchain : obs.chain with
  | unavailable => exact spec_interrupted hok rfl
  | invalid message => exact spec_interrupted hok rfl
  | valid =>
    cases happ : obs.source.application with
    | none => exact spec_interrupted hok rfl
    | some upstream => exact spec_pure ⟨hok, rfl, rfl, fromRef, rfl, hname, hself, rfl, rfl, rfl⟩

theorem does_promotionSourceRelease (hok : G.ok l s) :
    G.Does (promotionSourceRelease obs upstream) l s (fun release l' s' =>
      G.ok l' s' ∧ l' = l ∧ s' = s ∧ release = obs.source.releaseOf upstream) := by
  unfold promotionSourceRelease SourceObservation.releaseOf
  split
  · exact spec_pure ⟨hok, rfl, rfl, rfl⟩
  cases obs.source.release with
  | failed => exact spec_interrupted hok rfl
  | notFound => exact spec_pure ⟨hok, rfl, rfl, rfl⟩
  | found release => exact spec_pure ⟨hok, rfl, rfl, rfl⟩

variable {source : SourceObservation}

theorem wp_revalidatePromotionSource (G : Guarantee hash D now)
    {Q : Except Failure Unit → Application Ω H → Store Ω H → Prop} (hsame : Q (.ok ()) l s)
    (hchange : ∀ message, Q (.error (.blocked .upstreamCandidateChanged message)) l s)
    (hinterrupted : ∀ reason message, promotionObservationInterrupted reason = true → ∀ t, Rely s t →
      D.inv (t.record .interrupted) ∧ Q (.error (.blocked reason message)) l (t.record .interrupted)) :
    wp D (perform hash) (revalidatePromotionSource c source) Q l s := by
  have hwanting : ∀ reason message, promotionObservationInterrupted reason = true →
      wp D (perform hash) (promotionInterrupted reason message) Q l s := by
    intro reason message hreason
    refine wp_bind (wp_write ?_ ?_)
    · intro t _ hcut
      rcases hcut with hfail | hnone
      · exact G.notes hfail
      · cases hnone
    · intro t ht u hu
      cases hu
      exact hinterrupted reason message hreason t (G.rely ht)
  unfold revalidatePromotionSource
  cases source.application with
  | none => exact hwanting _ _ rfl
  | some upstream =>
  simp only
  split
  · exact hchange _
  cases source.release with
  | failed => exact hwanting _ _ rfl
  | notFound => exact hwanting _ _ rfl
  | found release =>
  simp only
  split
  · exact hchange _
  cases promotionSourceReady upstream release source.unready with
  | some message => exact hwanting _ _ rfl
  | none => exact hsame

section
variable (hok : G.ok l s)
include hok

theorem does_revalidatePromotionSource :
    G.Does (revalidatePromotionSource c source) l s (fun _ l' s' => G.ok l' s' ∧ l' = l ∧ s' = s) := by
  refine wp_revalidatePromotionSource G ⟨hok, rfl, rfl⟩ (fun _ => G.block hok) ?_
  intro reason message hreason t ht
  have hko := G.interrupt (G.stable ht hok) hreason
  exact ⟨G.blockedInv hko, hko⟩

/-! ### Attempts -/

theorem does_checkPromotionRetryPriorJobs :
    G.Does (checkPromotionRetryPriorJobs obs c) l s (fun _ l' s' => G.ok l' s' ∧ l' = l ∧ s' = s) := by
  unfold checkPromotionRetryPriorJobs
  split
  · exact spec_blocked hok
  · exact spec_pure ⟨hok, rfl, rfl⟩

theorem does_checkPromotionRetryPipeline {next : Candidate Ω H} :
    G.Does (checkPromotionRetryPipeline obs next) l s (fun _ l' s' => G.ok l' s' ∧ l' = l ∧ s' = s) := by
  refine spec_copy ?_
  split
  · exact spec_pure ⟨hok, rfl, rfl⟩
  split
  · exact spec_blocked hok
  · exact spec_pure ⟨hok, rfl, rfl⟩
  · exact spec_other hok

theorem does_checkPromotionRefreshPriorExecution :
    G.Does (checkPromotionRefreshPriorExecution obs c) l s (fun _ l' s' => G.ok l' s' ∧ l' = l ∧ s' = s) := by
  unfold checkPromotionRefreshPriorExecution
  split
  · exact spec_pure ⟨hok, rfl, rfl⟩
  split
  · exact spec_other hok
  · exact does_checkPromotionRetryPriorJobs hok
  split
  · exact spec_blocked hok
  · exact does_checkPromotionRetryPriorJobs hok

theorem does_clearPromotionApproval :
    Runs hash D E (clearPromotionApproval hash) l s (fun _ l' s' => G.ok l' s' ∧ l' = { l with approval := "" }) := by
  refine spec_copy ?_
  split
  · next h => exact spec_pure ⟨hok, (Application.approval_self h).symm⟩
  · refine (does_consumePromotionApproval hok).mono ?_
    rintro _ l' s' ⟨hok', hl, -⟩
    exact ⟨hok', hl⟩

/-- An attempt becomes active, if the Application is still what the reconcile has read. -/
theorem does_activatePromotionAttempt {next : Candidate Ω H} {request : String} {release : Option (AdmittedRelease H)}
    (hc : l.status.promotion = some c) (hnext : Attempts hash l c request release next) :
    G.Does (activatePromotionAttempt hash obs c next request release) l s (fun _ l' s' =>
      G.ok l' s' ∧ l' = { l.setCandidate next with approval := "", retry := request }) := by
  refine spec_bind ((does_clearPromotionApproval hok).mono ?_)
  rintro _ l' s₁ ⟨hok₁, rfl⟩
  refine spec_copy (spec_bind (spec_write hok₁ ?_))
  intro t ht u hu
  simp only [perform] at hu
  split at hu
  · cases hu
    have hok₂ := G.stable ht hok₁
    refine ⟨G.inv hok₂, spec_bind ((does_revalidatePromotionSource hok₂).mono ?_)⟩
    rintro _ l' s₂ ⟨hok₃, rfl, rfl⟩
    refine spec_bind (spec_write hok₃ ?_)
    intro t' ht' u' hu'
    simp only [perform] at hu'
    split at hu'
    · next hmatch =>
      cases hu'
      have hactive := G.activate (G.stable ht' hok₃) hc hmatch hnext.clearApproval
      exact ⟨G.inv hactive, wp_update ⟨hactive, rfl⟩⟩
    · cases hu'
  · cases hu

theorem does_reconcilePromotionRetry (hc : l.status.promotion = some c)
    (hphase : c.phase ≠ .promoting) :
    G.Does (reconcilePromotionRetry hash obs) l s (fun _ l' s' =>
      G.ok l' s' ∧ ∃ c', l'.status.promotion = some c' ∧ c'.phase ≠ .promoting) := by
  refine spec_copy (spec_candidate hc ?_)
  split
  · exact spec_pure ⟨hok, c, hc, hphase⟩
  split
  · exact spec_blocked hok
  next uid token hreq =>
  split
  · exact spec_blocked hok
  split
  · refine (does_consumePromotionRetry hok).mono ?_
    rintro _ l' s' ⟨hok', rfl⟩
    exact ⟨hok', c, hc, hphase⟩
  next hfresh =>
  split
  · exact spec_blocked hok
  next hlimit =>
  split
  · exact spec_blocked hok
  next hunadmitted =>
  rw [not_or, Bool.not_eq_true, not_not] at hfresh
  refine spec_bind ((does_checkPromotionRetryPriorJobs hok).mono ?_)
  rintro _ l' s₁ ⟨hok₁, rfl, rfl⟩
  refine spec_bind ((does_checkPromotionRetryPipeline hok₁).mono ?_)
  rintro _ l' s₂ ⟨hok₂, rfl, rfl⟩
  have hnext : Attempts hash l' c l'.retry obs.currentRelease (retryAttempt c token (hash l'.spec)) :=
    .retry hreq hfresh.1 hfresh.2 (Nat.lt_of_not_le hlimit) (Bool.not_eq_true _ ▸ hunadmitted)
  refine spec_bind ((does_activatePromotionAttempt hok₂ hc hnext).mono ?_)
  rintro _ l'' s₃ ⟨hok₃, rfl⟩
  refine (does_consumePromotionRetry hok₃).mono ?_
  rintro _ l'' s₄ ⟨hok₄, rfl⟩
  exact ⟨hok₄, _, rfl, fun h => by cases h⟩

theorem does_refreshPromotionVerification (hc : l.status.promotion = some c) :
    G.Does (refreshPromotionVerification hash obs c (hash l.spec)) l s (fun _ l' s' =>
      G.ok l' s' ∧ l'.spec = l.spec ∧ l'.status.promotion = some (refreshedAttempt c obs.uuid (hash l.spec))) := by
  refine spec_bind ((does_checkPromotionRefreshPriorExecution hok).mono ?_)
  rintro _ l' s₁ ⟨hok₁, rfl, rfl⟩
  refine spec_bind ((does_checkPromotionRetryPipeline hok₁).mono ?_)
  rintro _ l' s₂ ⟨hok₂, rfl, rfl⟩
  refine (does_activatePromotionAttempt hok₂ hc (.refresh obs.uuid)).mono ?_
  rintro _ l'' s₃ ⟨hok₃, rfl⟩
  exact ⟨hok₃, rfl, rfl⟩
end

/-! ### The candidate -/

theorem does_selectPromotionCandidate {ref : Reference} {release : ReleaseObject}
    (hsels : G.Selects l obs) (hok : G.ok l s)
    (hsrc : activePromotionCandidateChanged l.status.promotion upstream release = false →
      promotionSourceReady upstream release obs.source.unready = none → obs.incompatible = none →
      l.status.promotion.all (fun c => c.source != sourceKey ref upstream release) = true →
      newlySelected l obs = some (sourceKey ref upstream release))
    (hphase : ∀ c, l.status.promotion = some c → c.phase ≠ .promoting) :
    G.Does (selectPromotionCandidate hash obs ref upstream release) l s (fun _ l' s' =>
      G.ok l' s' ∧ ∃ c', l'.status.promotion = some c' ∧ Pursued c') := by
  refine spec_copy ?_
  split
  · next hchange =>
    cases hc : l.status.promotion with
    | none => simp [activePromotionCandidateChanged, hc] at hchange
    | some c => exact spec_rejected hok hc
  next hunchanged =>
  cases hready : promotionSourceReady upstream release obs.source.unready with
  | some message => exact spec_interrupted hok rfl
  | none =>
  cases hcompatible : obs.incompatible with
  | some message => exact spec_interrupted hok rfl
  | none =>
  simp only
  split
  · next hsame =>
    cases hc : l.status.promotion with
    | none => simp [hc] at hsame
    | some c =>
    simp only [hc, Option.any_some, beq_iff_eq] at hsame
    refine spec_bind ((spec_noteFits (.sourceReady (sourceKey ref upstream release)) hok hc
      hsame.symm).mono ?_)
    rintro _ l' s₁ ⟨hok₁, rfl, -⟩
    refine spec_bind ((does_reconcilePromotionRetry hok₁ hc (hphase c hc)).mono ?_)
    rintro _ l' s₂ ⟨hok₂, c', hc', hphase'⟩
    refine spec_candidate hc' ?_
    split
    · exact spec_blocked hok₂
    · next hfailed => exact spec_pure ⟨hok₂, c', hc', hphase', hfailed⟩
  · next hdiffers =>
    have hnew : l.status.promotion.all (fun c => c.source != sourceKey ref upstream release) = true := by
      cases hc : l.status.promotion with
      | none => rfl
      | some c => simpa [hc, bne_iff_ne] using hdiffers
    refine spec_bind (spec_note G ?_)
    intro t ht
    have hsel := hsels (sourceKey ref upstream release) (G.stable ht hok)
      (hsrc (Bool.not_eq_true _ ▸ hunchanged) hready hcompatible hnew) (releaseUID_of_sourceReady hready)
    refine ⟨hsel.1, spec_update (spec_patch G ?_)⟩
    intro u hu
    exact ⟨G.inv (hsel.2 u hu), hsel.2 u hu, _, rfl, (fun h => by cases h), fun h => by cases h⟩

theorem does_preparePromotionCandidate (hsels : G.Selects l obs) (hok : G.ok l s)
    (hneeds : promotionTriggerNeedsVerification l = true)
    (hphase : ∀ c, l.status.promotion = some c → c.phase ≠ .promoting) :
    G.Does (preparePromotionCandidate hash obs) l s (fun _ l' s' =>
      G.ok l' s' ∧ ∃ c', l'.status.promotion = some c' ∧ Pursued c') := by
  refine spec_bind ((does_promotionSourceApplication hok).mono ?_)
  rintro ⟨ref, upstream⟩ l' s' ⟨hok₁, rfl, rfl, fromRef, hfrom, hname, hself, hchain, href, happ⟩
  refine spec_bind ((does_promotionSourceRelease hok₁).mono ?_)
  rintro release l' s' ⟨hok₂, rfl, rfl, hrel⟩
  refine does_selectPromotionCandidate hsels hok₂ ?_ hphase
  simp only at href happ hrel
  subst href hrel
  intro hunchanged hready hcompatible hnew
  simp [newlySelected, hfrom, happ, hname, hself, hchain, hneeds, hunchanged, hready, hcompatible, hnew]

section
variable (hok : G.ok l s) (hc : l.status.promotion = some c) (hpursued : Pursued c)
include hok hc hpursued

theorem does_targetPromotionVerification :
    G.Does (targetPromotionVerification hash obs) l s (fun _ l' s' => G.ok l' s' ∧ l'.spec = l.spec ∧
      ∃ c', l'.status.promotion = some c' ∧ Pursued c' ∧ c'.verificationConfigHash = some (hash l.spec)) := by
  refine spec_copy (spec_candidate hc ?_)
  split
  · next hsame => exact spec_pure ⟨hok, rfl, c, hc, hpursued, hsame⟩
  split
  · refine (does_refreshPromotionVerification hok hc).mono ?_
    rintro _ l' s' ⟨hok', hspec, hc'⟩
    exact ⟨hok', hspec, _, hc', ⟨(fun h => by cases h), fun h => by cases h⟩, rfl⟩
  · next hnone =>
    have hstart := G.startVerification (hash l.spec) hok hc (by simpa using hnone)
    refine wp_update ?_
    rw [Application.mapCandidate_eq hc]
    exact ⟨hstart, rfl, _, rfl, ⟨(fun h => by cases h), fun h => by cases h⟩, rfl⟩

theorem does_preparePromotionVerification :
    G.Does (preparePromotionVerification hash obs) l s (fun configHash l' s' => G.ok l' s' ∧
      configHash = hash l'.spec ∧
      ∃ c', l'.status.promotion = some c' ∧ Pursued c' ∧ c'.verificationConfigHash = some (hash l'.spec)) := by
  refine spec_copy (spec_bind ((does_targetPromotionVerification hok hc hpursued).mono ?_))
  rintro _ l₁ s₁ ⟨hok₁, hspec, c₁, hc₁, hpursued₁, hhash⟩
  refine spec_bind ((spec_noteFits (.verifying (hash l.spec)) hok₁ hc₁ hhash).mono ?_)
  rintro _ l' s₂ ⟨hok₂, rfl, -⟩
  rw [← hspec] at hhash
  exact spec_pure ⟨hok₂, by rw [hspec], c₁, hc₁, hpursued₁, hhash⟩
end

/-! ### Tests and gates -/

/-- The verdict on the Pipeline changes the message of the candidate, or fails it. -/
theorem ok_promotionTestPipelineReady (existing : PipelineObject Ω H) (expected : Tests Ω) (hok : G.ok l s)
    (hc : l.status.promotion = some c) :
    G.ok (l.setCandidate (promotionTestPipelineReady c existing expected).2) s := by
  have hwaiting : ∀ message, G.ok (l.setCandidate { c with message := message }) s :=
    fun message => G.amend hok hc ⟨rfl, rfl, rfl, rfl, rfl, rfl⟩
  have hfailed : ∀ message, G.ok (l.setCandidate { c with phase := .failed, message := message }) s :=
    fun message => G.retire .failed message hok hc (.inl rfl)
  unfold promotionTestPipelineReady
  cases existing.phase with
  | failed => exact hfailed _
  | cancelled => exact hfailed _
  | running => exact hwaiting _
  | pending => exact hwaiting _
  | unset => exact hwaiting _
  | succeeded =>
  simp only
  split
  · exact hwaiting _
  split
  · rw [Application.setCandidate_self hc]
    exact hok
  · exact hfailed _

theorem does_reconcilePromotionTests (hok : G.ok l s) (hc : l.status.promotion = some c) :
    G.Does (reconcilePromotionTests obs) l s (fun ready l' s' => G.ok l' s' ∧ ∃ c', l' = l.setCandidate c' ∧
      (ready = true → c.Amends c' ∧ TestsPassed l.spec c' s'.log ∧ Continues s.log s'.log)) := by
  have hself := Application.setCandidate_self hc
  refine spec_copy (spec_candidate hc ?_)
  split
  · next hnone =>
    refine spec_pure ⟨hok, c, hself.symm, fun _ => ⟨⟨rfl, rfl, rfl, rfl, rfl, rfl⟩, ?_, Continues.refl⟩⟩
    intro tests htests
    rw [hnone] at htests
    cases htests
  next tests htests =>
  split
  · next hempty =>
    refine spec_pure ⟨hok, c, hself.symm, fun _ => ⟨⟨rfl, rfl, rfl, rfl, rfl, rfl⟩, ?_, Continues.refl⟩⟩
    intro tests' htests' hsteps
    rw [htests] at htests'
    cases htests'
    exact absurd (isEmpty_iff.mp hempty) hsteps
  split
  · exact spec_other hok
  · split
    · refine spec_update (spec_pure ⟨?_, _, Application.mapCandidate_eq hc _, fun h => by cases h⟩)
      rw [Application.mapCandidate_eq hc]
      exact G.amend hok hc ⟨rfl, rfl, rfl, rfl, rfl, rfl⟩
    · exact spec_other hok
  next existing hexisting =>
  split
  · next hmatches =>
    have href : c.Amends { c with verificationPipelineRef := some (promotionPipelineName c (some tests)) } :=
      ⟨rfl, rfl, rfl, rfl, rfl, rfl⟩
    have hjudged := ok_promotionTestPipelineReady existing (promotionTestPipeline c tests)
      (G.amend hok hc href) rfl
    rw [Application.setCandidate_setCandidate] at hjudged
    refine spec_update ?_
    split
    · next hverd =>
      obtain ⟨hphase, hsteps, hsame⟩ := promotionTestPipelineReady_fst hverd
      rw [hsame] at hjudged ⊢
      refine spec_bind ((spec_noteFits (.testsSucceeded existing) hjudged rfl trivial).mono ?_)
      rintro _ l' s' ⟨hok', rfl, hlog⟩
      refine spec_pure ⟨hok', _, rfl, fun _ => ⟨href, ?_, ?_⟩⟩
      · intro tests' htests' _
        rw [htests] at htests'
        cases htests'
        have hsucc : SucceededFor c tests existing := .of_ready hmatches hphase hsteps
        refine ⟨existing, ?_, hsucc.congr href.source href.attempt⟩
        rw [hlog, attemptFacts_cons rfl]
        exact mem_cons_self
      · rw [hlog]
        exact Continues.refl.cons rfl
    · exact spec_pure ⟨hjudged, _, rfl, fun h => by cases h⟩
  · refine spec_update (spec_pure ⟨?_, _, Application.mapCandidate_eq hc _, fun h => by cases h⟩)
    rw [Application.mapCandidate_eq hc]
    exact G.retire .failed _ hok hc (.inl rfl)

theorem does_stampPromotion (hok : G.ok l s) (hc : l.status.promotion = some c)
    (hhash : c.verificationConfigHash = some (hash l.spec)) :
    Runs hash D E (stampPromotion now) l s (fun _ l' s' => G.ok l' s' ∧ Continues s.log s'.log ∧
      ∃ t, l' = l.setCandidate { c with verificationStartedAt := some t } ∧
        (c.verificationStartedAt = none ∨ c.verificationStartedAt = some t)) := by
  refine spec_candidate hc ?_
  split
  · next hnone =>
    refine spec_update (spec_note G ?_)
    intro t ht
    have hstamped := G.stamp (G.stable ht hok) hc hhash hnone
    rw [Application.mapCandidate_eq hc]
    refine ⟨G.inv hstamped, hstamped, ?_, now, rfl, .inl hnone⟩
    show Continues s.log (.stamped now :: t.log)
    rw [ht.log]
    exact Continues.refl.cons rfl
  · next hsome =>
    obtain ⟨t, ht⟩ := Option.ne_none_iff_exists'.mp hsome
    refine spec_pure ⟨hok, Continues.refl, t, ?_, .inr ht⟩
    rw [← ht]
    exact (Application.setCandidate_self hc).symm

theorem does_verifyGatesFrom {startedAt : Int} (gates : List GateConfig) : ∀ (i : Nat) (s : Store Ω H), G.ok l s →
    l.status.promotion = some c → c.verificationStartedAt = some startedAt →
    G.Does (verifyGatesFrom obs now i gates) l s (fun _ l' s' => G.ok l' s' ∧ l' = l ∧ Continues s.log s'.log ∧
      (∀ gate ∈ gates, gate.type ≠ .duration → Fact.gatePassed gate ∈ attemptFacts s'.log) ∧
      ∀ gate ∈ gates, gate.type = .duration → promotionObservationDurationElapsed gate startedAt now = true) := by
  induction gates with
  | nil => exact fun i s hok _ _ => spec_pure ⟨hok, rfl, Continues.refl, by simp, by simp⟩
  | cons gate rest ih =>
    intro i s hok hc hstarted
    unfold verifyGatesFrom
    cases htype : gate.type with
    | duration =>
      refine spec_candidate hc ?_
      rw [hstarted, Option.any_some]
      split
      · next helapsed =>
        refine (ih (i + 1) s hok hc hstarted).mono ?_
        rintro _ l' s' ⟨hok', hl, hlog, hpassed, hdurs⟩
        refine ⟨hok', hl, hlog, ?_, ?_⟩
        · intro g hg hne
          rcases mem_cons.mp hg with rfl | hg
          · exact absurd htype hne
          · exact hpassed g hg hne
        · intro g hg hdur
          rcases mem_cons.mp hg with rfl | hg
          · exact helapsed
          · exact hdurs g hg hdur
      · exact spec_blocked hok
    | smokeTest =>
      cases obs.gate i with
      | some message =>
        refine spec_update ?_
        rw [Application.mapCandidate_eq hc]
        exact spec_blocked (G.retire .failed c.message hok hc (.inl rfl))
      | none =>
      refine spec_bind ((spec_noteFits (.gatePassed gate) hok hc trivial).mono ?_)
      rintro _ l' s₁ ⟨hok₁, rfl, hlog₁⟩
      refine (ih (i + 1) s₁ hok₁ hc hstarted).mono ?_
      rintro _ l'' s' ⟨hok', hl, hlog, hpassed, hdurs⟩
      have hnoted : Continues s.log s₁.log := by
        rw [hlog₁]
        exact Continues.refl.cons rfl
      refine ⟨hok', hl, hnoted.trans hlog, ?_, ?_⟩
      · intro g hg hne
        rcases mem_cons.mp hg with rfl | hg
        · refine hlog.attemptFacts ?_
          rw [hlog₁, attemptFacts_cons rfl]
          exact mem_cons_self
        · exact hpassed g hg hne
      intro g hg hdur
      rcases mem_cons.mp hg with rfl | hg
      · rw [htype] at hdur
        cases hdur
      · exact hdurs g hg hdur

theorem does_verifyPromotionGates (hok : G.ok l s) (hc : l.status.promotion = some c)
    (hhash : c.verificationConfigHash = some (hash l.spec)) :
    G.Does (verifyPromotionGates obs now) l s (fun _ l' s' => G.ok l' s' ∧ Continues s.log s'.log ∧
      ∃ startedAt, l' = l.setCandidate { c with verificationStartedAt := startedAt } ∧
        Gated l.spec { c with verificationStartedAt := startedAt } s'.log now) := by
  refine spec_copy (spec_candidate hc ?_)
  split
  · next hwait =>
    exact spec_pure ⟨hok, Continues.refl, c.verificationStartedAt, (Application.setCandidate_self hc).symm,
      .inl hwait⟩
  refine spec_bind ((does_stampPromotion hok hc hhash).mono ?_)
  rintro _ l₁ s₁ ⟨hok₁, hlog₁, t, rfl, -⟩
  refine (does_verifyGatesFrom l.spec.gates 0 s₁ hok₁ rfl rfl).mono ?_
  rintro _ l' s' ⟨hok', rfl, hlog, hpassed, hdurs⟩
  exact ⟨hok', hlog₁.trans hlog, some t, rfl,
    .inr ⟨hpassed, fun gate hgate htype => ⟨t, rfl, hdurs gate hgate htype⟩⟩⟩

theorem does_promotionDurationPending (gates : List GateConfig) : ∀ (c : Candidate Ω H) (l : Application Ω H)
    (s : Store Ω H), G.ok l s → l.status.promotion = some c → c.verificationConfigHash = some (hash l.spec) →
    Runs hash D E (promotionDurationPending now gates) l s (fun pending l' s' => G.ok l' s' ∧ ∃ startedAt,
      l' = l.setCandidate { c with verificationStartedAt := startedAt } ∧
      (c.verificationStartedAt = none ∨ c.verificationStartedAt = startedAt) ∧
      (pending = false → ∀ gate ∈ gates, gate.type = .duration →
        ∃ t, startedAt = some t ∧ promotionObservationDurationElapsed gate t now = true)) := by
  induction gates with
  | nil =>
    intro c l s hok hc _
    exact spec_pure ⟨hok, c.verificationStartedAt, (Application.setCandidate_self hc).symm, .inr rfl, by simp⟩
  | cons gate rest ih =>
    intro c l s hok hc hhash
    unfold promotionDurationPending
    cases htype : gate.type with
    | smokeTest =>
      refine (ih c l s hok hc hhash).mono ?_
      rintro pending l' s' ⟨hok', startedAt, hl, hstarted, hdurs⟩
      refine ⟨hok', startedAt, hl, hstarted, ?_⟩
      intro hpend g hg hdur
      rcases mem_cons.mp hg with rfl | hg
      · rw [htype] at hdur
        cases hdur
      · exact hdurs hpend g hg hdur
    | duration =>
    refine spec_bind ((does_stampPromotion hok hc hhash).mono ?_)
    rintro _ l₁ s₁ ⟨hok₁, -, t, rfl, hstarted⟩
    refine spec_candidate rfl ?_
    simp only [Option.any_some]
    split
    · next helapsed =>
      refine (ih { c with verificationStartedAt := some t } _ s₁ hok₁ rfl hhash).mono ?_
      rintro pending l' s' ⟨hok', startedAt, rfl, hsame, hdurs⟩
      have ht : startedAt = some t := by
        rcases hsame with hnone | hsame
        · cases hnone
        · exact hsame.symm
      refine ⟨hok', startedAt, rfl, ?_, ?_⟩
      · rw [ht]
        exact hstarted
      · intro hpend g hg hdur
        rcases mem_cons.mp hg with rfl | hg
        · exact ⟨t, ht, helapsed⟩
        · exact hdurs hpend g hg hdur
    · exact spec_pure ⟨hok₁, some t, rfl, hstarted, fun h => by cases h⟩

/-! ### Completion -/

theorem does_persistReadyPromotion {l₀ : Application Ω H} {facts : List (Fact Ω H)} (hok : G.ok l₀ s)
    (h : ∀ t, Rely s t → G.ok l (facts.foldl Store.record (t.publish l.status))) :
    Runs hash D E (persistReadyPromotion hash facts) l s (fun _ l' s' => G.ok l' s' ∧ l' = l) := by
  refine spec_copy (spec_write hok ?_)
  intro t ht u hu
  simp only [perform] at hu
  split at hu
  · cases hu
    exact ⟨G.inv (h t ht), h t ht, rfl⟩
  · cases hu

section
variable (hok : G.ok l s) (hc : l.status.promotion = some c) (hobs : c.Observing)
  (hhash : c.verificationConfigHash = some (hash l.spec)) (hqualified : Qualified l.spec c s.log now)
include hok hc hobs hhash hqualified

theorem does_persistMarkedReady :
    Runs hash D E (persistMarkedReady hash) l s (fun _ l' s' => G.ok l' s' ∧ Labelled hash l') := by
  have hready := G.markReady hok hc hobs hhash hqualified
  refine spec_update ((does_persistReadyPromotion hready fun t ht => G.publish (G.stable ht hready)).mono ?_)
  rintro _ l' s' ⟨hok', rfl⟩
  refine ⟨hok', ?_⟩
  rw [markPromotionReady_eq hc]
  intro c' hc' _ _
  cases hc'
  exact hhash

theorem does_restoreReadyPromotion :
    Runs hash D E (restoreReadyPromotion hash) l s (fun _ l' s' => G.ok l' s' ∧ Labelled hash l') := by
  refine spec_copy ?_
  split
  · refine spec_pure ⟨hok, ?_⟩
    intro c' hc' _ _
    rw [hc] at hc'
    cases hc'
    exact hhash
  · exact does_persistMarkedReady hok hc hobs hhash hqualified
end

section
variable (hok : G.ok l s)
include hok

theorem does_consumeManualApproval :
    Runs hash D E (consumeManualApproval hash c) l s (fun _ l' s' => G.ok l' s' ∧ l'.spec = l.spec ∧
      l'.status = l.status ∧ Approved l.spec c s'.log ∧ Continues s.log s'.log) := by
  refine spec_copy ?_
  split
  · refine (does_consumePromotionApproval hok).mono ?_
    rintro _ l' s' ⟨hok', rfl, hlog⟩
    refine ⟨hok', rfl, rfl, ?_, ?_⟩
    · intro _
      rw [hlog, attemptFacts_cons rfl]
      exact mem_cons_self
    · rw [hlog]
      exact Continues.refl.cons rfl
  · next hauto => exact spec_pure ⟨hok, rfl, rfl, fun hmanual => absurd hmanual hauto, Continues.refl⟩

/-- The source is looked at once more; a candidate that has changed is rejected. -/
theorem does_revalidateOrReject (hc : l.status.promotion = some c) :
    G.Does (handle (revalidatePromotionSource c source) rejectChangedCandidate) l s
      (fun _ l' s' => G.ok l' s' ∧ l' = l ∧ s' = s) := by
  refine wp_handle (wp_revalidatePromotionSource G ⟨hok, rfl, rfl⟩ ?_ ?_)
  · intro message
    exact spec_rejected hok hc
  · intro reason message hreason t ht
    have hko := G.interrupt (G.stable ht hok) hreason
    refine ⟨G.blockedInv hko, ?_⟩
    cases reason <;> first | exact wp_raise hko | cases hreason

theorem does_completePromotionVerification (hc : l.status.promotion = some c)
    (hobs : c.Observing)
    (hhash : c.verificationConfigHash = some (hash l.spec)) (htests : TestsPassed l.spec c s.log)
    (hgated : Gated l.spec c s.log now) :
    G.Does (completePromotionVerification hash obs (hash l.spec)) l s
      (fun _ l' s' => G.ok l' s' ∧ Labelled hash l') := by
  have hsame : Application.mapCandidate (fun c => { c with verificationConfigHash := some (hash l.spec) }) l = l := by
    rw [Application.mapCandidate_eq hc, ← hhash]
    exact Application.setCandidate_self hc
  refine spec_update ?_
  rw [hsame]
  refine spec_candidate hc (spec_bind ((does_revalidateOrReject hok hc).mono ?_))
  rintro _ l' s' ⟨_, rfl, rfl⟩
  refine spec_copy ?_
  split
  · refine spec_update ?_
    rw [Application.mapCandidate_eq hc]
    refine (does_waitForPromotion _ (G.block (G.await hok hc hobs hhash hgated))).mono ?_
    rintro _ l' s' ⟨hok', hwaiting⟩
    refine ⟨hok', ?_⟩
    intro c' _ _ htrue
    rw [hwaiting] at htrue
    cases htrue
  · refine spec_bind ((does_consumeManualApproval hok).mono ?_)
    rintro _ l₁ s₁ ⟨hok₁, hspec, hstatus, happroved, hlog⟩
    have hc₁ : l₁.status.promotion = some c := by rw [hstatus, hc]
    have hhash₁ : c.verificationConfigHash = some (hash l₁.spec) := by rw [hspec, hhash]
    have hqualified : Qualified l₁.spec c s₁.log now := by
      rw [hspec]
      exact .inr ⟨htests.continues hlog, happroved, hgated.continues hlog⟩
    exact spec_bind ((does_persistMarkedReady hok₁ hc₁ hobs hhash₁ hqualified).mono fun _ _ _ h => spec_pure h)

/-! ### The trigger -/

theorem does_verifyPromotionCandidate (hc : l.status.promotion = some c) (hpursued : Pursued c)
    (hhash : c.verificationConfigHash = some (hash l.spec)) :
    G.Does (verifyPromotionCandidate hash obs now (hash l.spec)) l s
      (fun _ l' s' => G.ok l' s' ∧ Labelled hash l') := by
  have hwaited : ∀ {l' : Application Ω H}, l'.status.promotionReady = some false → Labelled hash l' := by
    intro l' hwaiting c' _ _ htrue
    rw [hwaiting] at htrue
    cases htrue
  have hverify : c.Observing → G.Does (do
      let ready ← reconcilePromotionTests obs
      if ready then
        verifyPromotionGates obs now
        completePromotionVerification hash obs (hash l.spec)
      else
        let c ← candidate
        waitForPromotion hash .promotionVerificationPending c.message : Reconcile Ω H Bool) l s
      (fun _ l' s' => G.ok l' s' ∧ Labelled hash l') := by
    intro hobs
    refine spec_bind ((does_reconcilePromotionTests hok hc).mono ?_)
    rintro ready l₁ s₁ ⟨hok₁, c₁, rfl, hready⟩
    split
    · next h =>
      obtain ⟨hamends, htests, -⟩ := hready h
      have hhash₁ : c₁.verificationConfigHash = some (hash l.spec) := hamends.configHash.trans hhash
      refine spec_bind ((does_verifyPromotionGates hok₁ rfl hhash₁).mono ?_)
      rintro _ l₂ s₂ ⟨hok₂, hlog, startedAt, rfl, hgated⟩
      refine does_completePromotionVerification hok₂ rfl ?_ hhash₁ ?_ hgated
      · unfold Candidate.Observing at hobs ⊢
        rwa [← hamends.phase] at hobs
      · refine TestsPassed.congr (c := c₁) ?_ ?_ (htests.continues hlog)
        · rfl
        · rfl
    · refine spec_candidate rfl ((does_waitForPromotion _ (G.block hok₁)).mono ?_)
      rintro _ l' s' ⟨hok', hwaiting⟩
      exact ⟨hok', hwaited hwaiting⟩
  refine spec_copy (spec_candidate hc ?_)
  cases hphase : c.phase with
  | verifying => exact hverify (.inl hphase)
  | awaitingApproval => exact hverify (.inr (.inl hphase))
  | promoting => exact absurd hphase hpursued.1
  | failed => exact absurd hphase hpursued.2
  | complete =>
    refine spec_pure ⟨hok, ?_⟩
    intro c' hc' hready _
    rw [hc] at hc'
    cases hc'
    rw [hphase] at hready
    cases hready
  | ready =>
  refine spec_bind ((does_promotionDurationPending l.spec.gates c l s hok hc hhash).mono ?_)
  rintro pending l₁ s₁ ⟨hok₁, startedAt, rfl, -, helapsed⟩
  split
  · refine (does_waitForPromotion _ (G.block hok₁)).mono ?_
    rintro _ l' s' ⟨hok', hwaiting⟩
    exact ⟨hok', hwaited hwaiting⟩
  · next hpend =>
    have hqualified : Qualified l.spec { c with verificationStartedAt := startedAt } s₁.log now :=
      .inl ⟨hphase, helapsed (Bool.not_eq_true _ ▸ hpend)⟩
    exact spec_bind ((does_restoreReadyPromotion hok₁ rfl (.inr (.inr hphase)) hhash hqualified).mono fun _ _ _ h => spec_pure h)

theorem does_noteLeftReady (hlabelled : Labelled hash l) :
    Runs hash D E (noteLeftReady now) l s (fun _ l' s' => G.ok l' s' ∧ l' = l) := by
  refine spec_copy ?_
  cases hc : l.status.promotion with
  | none => exact spec_pure ⟨hok, rfl⟩
  | some c =>
  simp only
  split
  · next h =>
    refine (spec_noteFits (.left c l.spec now) hok hc
      ⟨rfl, rfl, rfl, h.1, hlabelled c hc h.1 h.2, h.2⟩).mono ?_
    rintro _ l' s' ⟨hok', hl, -⟩
    exact ⟨hok', hl⟩
  · exact spec_pure ⟨hok, rfl⟩
end

theorem does_reconcilePromotionTrigger (hsels : G.Selects l obs) (hok : G.ok l s) :
    Runs hash D E (reconcilePromotionTrigger hash obs now) l s (fun _ l' s' => G.ok l' s') := by
  refine spec_copy ?_
  split
  · next hneeds =>
    have hphase : ∀ c, l.status.promotion = some c → c.phase ≠ .promoting := by
      intro c hc
      have h := hneeds
      simp only [promotionTriggerNeedsVerification, hc, Option.all_some, Bool.and_eq_true, bne_iff_ne] at h
      exact h.2
    refine spec_bind (spec_note G ?_)
    intro t ht
    have hbegan := G.began (hash l.spec) (G.stable ht hok)
    refine ⟨G.inv hbegan, spec_bind (Runs.mono (R := fun _ l' s' => G.ok l' s' ∧ Labelled hash l')
      (spec_handle (G := G) ?_ ?_ ?_) ?_)⟩
    · refine spec_bind ((does_preparePromotionCandidate hsels hbegan hneeds hphase).mono ?_)
      rintro _ l₁ s₁ ⟨hok₁, c₁, hc₁, hpursued₁⟩
      refine spec_bind ((does_preparePromotionVerification hok₁ hc₁ hpursued₁).mono ?_)
      rintro configHash l₂ s₂ ⟨hok₂, rfl, c₂, hc₂, hpursued₂, hhash⟩
      exact does_verifyPromotionCandidate hok₂ hc₂ hpursued₂ hhash
    · intro reason message l' s' hko
      refine (does_waitForPromotion message hko).mono ?_
      rintro _ l'' s'' ⟨hok', hwaiting⟩
      refine ⟨hok', ?_⟩
      intro c' _ _ htrue
      rw [hwaiting] at htrue
      cases htrue
    · exact fun message l' s' hidle => wp_raise hidle
    · rintro stop l' s' ⟨hok', hlabelled⟩
      refine spec_bind ((does_noteLeftReady hok' hlabelled).mono ?_)
      rintro _ l'' s'' ⟨hok'', -⟩
      exact spec_pure hok''
  · exact spec_pure hok

/-! ### Admission and the release -/

theorem does_startNewReleaseFlow (hok : G.ok l s) :
    Runs hash D E (startNewReleaseFlow obs) l s (fun _ l' s' => G.ok l' s') := by
  unfold startNewReleaseFlow
  split
  · refine spec_update (spec_patch G ?_)
    intro t ht
    have hclear := G.deploy l.status.acceptedDeployment l.status.sourceRevision "" (G.stable ht hok)
    exact ⟨G.inv hclear, hclear⟩
  split
  · exact spec_pure hok
  · exact (spec_publish hok).mono fun _ _ _ h => h.1

theorem does_beginVerifiedPromotion (hok : G.ok l s) :
    Runs hash D E (beginVerifiedPromotion hash obs) l s (fun _ l' s' => G.ok l' s') := by
  refine spec_copy ?_
  split
  swap
  · exact spec_pure hok
  next hpromotionReady =>
  cases hc : l.status.promotion with
  | none => simp [promotionReady, hc] at hpromotionReady
  | some c =>
  have hphase : c.phase = .ready := by
    simp only [promotionReady, hc, Option.any_some, Bool.and_eq_true, beq_iff_eq] at hpromotionReady
    exact hpromotionReady.2
  refine spec_candidate hc ?_
  split
  · exact spec_other hok
  split
  · exact spec_other hok
  next hhash =>
  rw [ne_eq, not_not] at hhash
  split
  · exact (does_holdVerifiedPromotion hok).mono fun _ _ _ h => h.1
  split
  · exact (does_holdVerifiedPromotion hok).mono fun _ _ _ h => h.1
  split
  · refine spec_bind ((spec_noteFits (.accepted c l.spec) hok hc ⟨rfl, rfl, hphase, hhash⟩).mono ?_)
    rintro _ l' s' ⟨hok', rfl, -⟩
    exact spec_bind ((does_startNewReleaseFlow hok').mono fun _ _ _ h => spec_pure h)
  split
  · refine spec_update (spec_bind ((does_persistReadyPromotion hok ?_).mono fun _ _ _ h => spec_pure h.1))
    intro t ht
    exact G.note (G.deploy (some l.spec) c.source.revision l.status.releaseRef (G.stable ht hok)) hc
      ⟨rfl, rfl, hphase, hhash⟩
  · exact spec_pure hok

theorem does_prepareApplicationDeployment (hsels : G.Selects l obs) (hok : G.ok l s) :
    Runs hash D E (prepareApplicationDeployment hash obs now) l s (fun _ l' s' => G.ok l' s') := by
  refine spec_bind ((does_reconcilePromotionTrigger hsels hok).mono ?_)
  intro stop l' s' hok'
  split
  · exact spec_pure hok'
  · exact spec_bind ((does_beginVerifiedPromotion hok').mono fun _ _ _ h => spec_pure h)

theorem ok_markPromotionStarted (name : String) (hok : G.ok l s) :
    G.ok (markPromotionStarted name l) (s.publish (markPromotionStarted name l).status) := by
  have hcreated : ∀ {l'}, G.ok l' s → G.ok { l' with status := { l'.status with releaseRef := name } }
      (s.publish { l'.status with releaseRef := name }) :=
    fun {l'} h => G.deploy l'.status.acceptedDeployment l'.status.sourceRevision name h
  unfold markPromotionStarted
  split
  · next hready =>
    cases hc : l.status.promotion with
    | none => simp [promotionReady, hc] at hready
    | some c =>
      have hpromoting := hcreated (G.retire .promoting "Deploying the verified upstream revision" hok hc
        (.inr (.inl rfl)))
      simpa only [Application.mapCandidate, Application.setCandidate, hc, Option.map_some] using hpromoting
  · exact hcreated hok

theorem ok_markAcceptedPromotionRetry (hok : G.ok l s) : G.ok (markAcceptedPromotionRetry l) s := by
  unfold markAcceptedPromotionRetry
  cases hc : l.status.promotion with
  | none => exact hok
  | some c =>
  rw [Option.any_some]
  split
  · rw [Application.mapCandidate_eq hc]
    exact G.retried (G.retire .promoting _ hok hc (.inr (.inl rfl))) rfl rfl
  · exact hok

theorem ok_updatePromotionReleasePhase (release : AdmittedRelease H) (progress : ReleaseProgress) (hok : G.ok l s) :
    G.ok (updatePromotionReleasePhase hash release progress l) s := by
  have hretire : ∀ {l'} (phase : Phase) (message : String), G.ok l' s → (phase = .failed ∨ phase = .complete) →
      G.ok (l'.mapCandidate (fun c => { c with phase := phase, message := message })) s := by
    intro l' phase message hok' hphase
    cases hc : l'.status.promotion with
    | none =>
      have hsame : l'.mapCandidate (fun c => { c with phase := phase, message := message }) = l' := by
        simp only [Application.mapCandidate, hc, Option.map_none]
        rw [← hc]
      rw [hsame]
      exact hok'
    | some c =>
      rw [Application.mapCandidate_eq hc]
      exact G.retire phase message hok' hc (hphase.imp_right .inr)
  unfold updatePromotionReleasePhase
  split
  · cases progress with
    | active => exact ok_markAcceptedPromotionRetry hok
    | complete => exact hretire .complete _ (ok_markAcceptedPromotionRetry hok) (.inr rfl)
    | ended phase => exact hretire .failed _ hok (.inl rfl)
  · exact hok

theorem runs_routine (G : Guarantee hash D now) (o : Start Ω H) (hsels : ∀ obs, o = .reconcile obs → G.Selects l obs)
    (hok : G.ok l s) : Runs hash D E (o.routine hash now) l s (fun _ l' s' => G.ok l' s') := by
  cases o with
  | reconcile obs => exact does_prepareApplicationDeployment (hsels obs rfl) hok
  | releaseCreated name =>
    refine spec_update (spec_patch G ?_)
    intro t ht
    have hcreated := ok_markPromotionStarted name (G.stable ht hok)
    exact ⟨G.inv hcreated, hcreated⟩
  | releaseObserved release progress =>
    exact spec_update ((spec_publish (ok_updatePromotionReleasePhase release progress hok)).mono fun _ _ _ h => h.1)

/-- **The processes of a discipline with a guarantee for each keep its invariant.** -/
theorem keeps (guarantee : ∀ _ : Start Ω H, ∀ s : Store Ω H, Guarantee hash D s.clock)
    (hrely : ∀ {s t}, Rely s t → D.rely s t) (hrely' : ∀ {s t}, D.rely s t → Rely s t)
    (hinv : ∀ {s t}, Rely s t → D.inv s → D.inv t) (hidle : ∀ {s t}, Rely s t → D.idle s → D.idle t)
    (hcrash : D.mayCrash → ∀ s, D.inv s → D.idle s)
    (hstart : ∀ o s, D.mayStart o s → D.inv s → D.idle s → (guarantee o s).ok s.app s)
    (hsels : ∀ obs s, (guarantee (.reconcile obs) s).Selects s.app obs) : Keeps (rules hash) D where
  refl s := hrely (Rely.refl s)
  trans _ _ _ hst htu := hrely ((hrely' hst).trans (hrely' htu))
  environment e s := hrely (e.rely s)
  inv_stable _ _ hst := hinv (hrely' hst)
  idle_stable _ _ hst := hidle (hrely' hst)
  crash := hcrash
  body o s hmay hs hs' := by
    have hruns : Runs hash D (fun _ _ _ => False) (o.routine hash s.clock) s.app s
        (fun _ l' s' => (guarantee o s).ok l' s') := by
      refine runs_routine (guarantee o s) o ?_ (hstart o s hmay hs hs')
      rintro obs rfl
      exact hsels obs s
    refine Ensures.mono ?_ hruns
    intro u hu
    generalize (o.routine hash s.clock s.app).2.1 = r at hu
    generalize (o.routine hash s.clock s.app).2.2 = l' at hu
    cases r with
    | ok a => exact (guarantee o s).idle hu
    | error e =>
      cases e with
      | blocked reason message => exact hu.elim
      | other message => exact hu

end Guarantee

end Paprika.Promotion
