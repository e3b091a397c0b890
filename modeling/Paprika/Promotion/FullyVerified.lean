import Paprika.Promotion.Effects

/-!
# Promotion: only what is fully verified is admitted

Whenever `beginVerifiedPromotion` accepts a candidate for a specification, the candidate was verified for exactly that
specification, and since its current attempt became active every gate has passed, the tests have succeeded and, under
the manual policy, an approval was consumed.

A candidate in the API carries its evidence with it (`Justified`): when it waits for its approval, the gates have passed;
when it is ready, everything has.  The hash of a specification stands for the specification, which is what `hinj` says.
-/

namespace Paprika.Promotion

open Lib.Process Lib.Run Sample

variable {Ω H : Type}

def IsActive (c : Candidate Ω H) (log : List (Fact Ω H)) : Prop :=
  ∃ a, activation log = some a ∧ a.source = c.source ∧ a.verificationAttempt = c.verificationAttempt

/-- The candidate was verified for the specification, since its attempt became active. -/
structure FullyVerified (hash : Spec Ω → H) (c : Candidate Ω H) (spec : Spec Ω) (log : List (Fact Ω H)) : Prop where
  configHash : c.verificationConfigHash = some (hash spec)
  active : IsActive c log
  gates : GatesPassed spec log
  tests : TestsPassed spec c log
  approval : spec.syncPolicy = .manual →
    c.source.releaseUID ≠ "" ∧ Fact.approvalConsumed c.source.releaseUID ∈ attemptFacts log

/-- What the phase of a candidate promises. -/
structure Justified (hash : Spec Ω → H) (log : List (Fact Ω H)) (c : Candidate Ω H) : Prop where
  active : IsActive c log
  released : c.source.releaseUID ≠ ""
  awaiting : c.phase = .awaitingApproval → ∃ spec, c.verificationConfigHash = some (hash spec) ∧ GatesPassed spec log
  ready : c.phase = .ready → ∃ spec, FullyVerified hash c spec log

def AcceptsVerified (hash : Spec Ω → H) : Fact Ω H → List (Fact Ω H) → Prop
  | .accepted c spec, older => FullyVerified hash c spec older
  | _, _ => True

section
variable {hash : Spec Ω → H} {older newer : List (Fact Ω H)} {c c' : Candidate Ω H} {spec : Spec Ω}

theorem IsActive.continues (h : IsActive c older) (hlog : Continues older newer) : IsActive c newer := by
  obtain ⟨a, ha, hsame⟩ := h
  exact ⟨a, hlog.activation.trans ha, hsame⟩

theorem IsActive.congr (h : IsActive c older) (hsrc : c'.source = c.source)
    (hatt : c'.verificationAttempt = c.verificationAttempt) : IsActive c' older := by
  obtain ⟨a, ha, hsource', hattempt'⟩ := h
  exact ⟨a, ha, hsource'.trans hsrc.symm, hattempt'.trans hatt.symm⟩

theorem FullyVerified.continues (h : FullyVerified hash c spec older) (hlog : Continues older newer) :
    FullyVerified hash c spec newer where
  configHash := h.configHash
  active := h.active.continues hlog
  gates := h.gates.continues hlog
  tests := h.tests.continues hlog
  approval hmanual := ⟨(h.approval hmanual).1, hlog.attemptFacts (h.approval hmanual).2⟩

theorem FullyVerified.congr (h : FullyVerified hash c spec older) (hsrc : c'.source = c.source)
    (hatt : c'.verificationAttempt = c.verificationAttempt)
    (hhash : c'.verificationConfigHash = c.verificationConfigHash) : FullyVerified hash c' spec older where
  configHash := hhash.trans h.configHash
  active := h.active.congr hsrc hatt
  gates := h.gates
  tests := h.tests.congr hsrc hatt
  approval := by
    rw [hsrc]
    exact h.approval

theorem Justified.continues (h : Justified hash older c) (hlog : Continues older newer) : Justified hash newer c where
  active := h.active.continues hlog
  released := h.released
  awaiting hphase := by
    obtain ⟨spec, hhash, hgates⟩ := h.awaiting hphase
    exact ⟨spec, hhash, hgates.continues hlog⟩
  ready hphase := by
    obtain ⟨spec, hverif⟩ := h.ready hphase
    exact ⟨spec, hverif.continues hlog⟩

theorem Justified.of_phase (h : Justified hash older c) (hsrc : c'.source = c.source)
    (hatt : c'.verificationAttempt = c.verificationAttempt)
    (hhash : c'.verificationConfigHash = c.verificationConfigHash) (hphase : c'.phase = c.phase ∨ c'.phase = .verifying) :
    Justified hash older c' where
  active := h.active.congr hsrc hatt
  released := by
    rw [hsrc]
    exact h.released
  awaiting := by
    intro hwait
    rcases hphase with hsame | hverifying
    · rw [hhash]
      exact h.awaiting (hsame.symm.trans hwait)
    · rw [hverifying] at hwait
      cases hwait
  ready := by
    intro hready
    rcases hphase with hsame | hverifying
    · obtain ⟨spec, hverif⟩ := h.ready (hsame.symm.trans hready)
      exact ⟨spec, hverif.congr hsrc hatt hhash⟩
    · rw [hverifying] at hready
      cases hready

theorem Justified.other (hactive : IsActive c older) (hrel : c.source.releaseUID ≠ "")
    (hwait : c.phase ≠ .awaitingApproval) (hready : c.phase ≠ .ready) : Justified hash older c :=
  ⟨hactive, hrel, fun h => absurd h hwait, fun h => absurd h hready⟩
end

/-! ### The invariant -/

def StatusJustified (hash : Spec Ω → H) (log : List (Fact Ω H)) (status : Status Ω H) : Prop :=
  ∀ c, status.promotion = some c → Justified hash log c

/-- The candidate in the API is justified, and only verified candidates have been accepted. -/
structure AdmissionInv (hash : Spec Ω → H) (s : Store Ω H) : Prop where
  status : StatusJustified hash s.log s.app.status
  accepts : InOrder (AcceptsVerified hash) s.log

/-- So is the one of the copy. -/
structure AdmissionOk (hash : Spec Ω → H) (l : Application Ω H) (s : Store Ω H) : Prop where
  inv : AdmissionInv hash s
  copy : StatusJustified hash s.log l.status

section
variable {hash : Spec Ω → H} {s t : Store Ω H} {l : Application Ω H} {c c' : Candidate Ω H} {fact : Fact Ω H}

theorem StatusJustified.cons {log : List (Fact Ω H)} {status : Status Ω H} (h : StatusJustified hash log status)
    (hfact : fact.isActivation = false) : StatusJustified hash (fact :: log) status :=
  fun c hc => (h c hc).continues (Continues.refl.cons hfact)

theorem AdmissionInv.congr (h : AdmissionInv hash s) (hstatus : t.app.status = s.app.status) (hlog : t.log = s.log) :
    AdmissionInv hash t := by
  refine ⟨?_, ?_⟩
  · rw [hlog, hstatus]
    exact h.status
  · rw [hlog]
    exact h.accepts

section
variable (h : AdmissionOk hash l s)
include h

theorem AdmissionOk.congr {l' : Application Ω H} (hcopy : l'.status = l.status)
    (hstatus : t.app.status = s.app.status) (hlog : t.log = s.log) : AdmissionOk hash l' t := by
  refine ⟨h.inv.congr hstatus hlog, ?_⟩
  rw [hlog, hcopy]
  exact h.copy

theorem AdmissionOk.record (hactivation : fact.isActivation = false)
    (haccept : AcceptsVerified hash fact s.log) : AdmissionOk hash l (s.record fact) where
  inv := ⟨h.inv.status.cons hactivation, h.inv.accepts.cons haccept⟩
  copy := h.copy.cons hactivation

theorem AdmissionOk.setCandidate (hc' : Justified hash s.log c') : AdmissionOk hash (l.setCandidate c') s := by
  refine ⟨h.inv, ?_⟩
  intro c hc
  cases hc
  exact hc'

theorem AdmissionOk.publish : AdmissionOk hash l (s.publish l.status) := ⟨⟨h.copy, h.inv.accepts⟩, h.copy⟩

theorem AdmissionOk.activate (hactivates : fact.activates = some c')
    (hrel : c'.source.releaseUID ≠ "") (hverifying : c'.phase = .verifying)
    (haccept : AcceptsVerified hash fact s.log) {status : Status Ω H} (hstatus : status.promotion = some c')
    {l' : Application Ω H} (hl' : l'.status.promotion = some c') :
    AdmissionOk hash l' ((s.publish status).record fact) := by
  have hjustified : Justified hash (fact :: s.log) c' := by
    refine .other ⟨c', ?_, rfl, rfl⟩ hrel ?_ ?_
    · rw [activation, List.findSome?_cons, hactivates]
    · rw [hverifying]
      exact fun h => by cases h
    · rw [hverifying]
      exact fun h => by cases h
  refine ⟨⟨?_, h.inv.accepts.cons haccept⟩, ?_⟩
  · intro c hc
    rw [show ((s.publish status).record fact).app.status.promotion = some c' from hstatus] at hc
    cases hc
    exact hjustified
  · intro c hc
    rw [hl'] at hc
    cases hc
    exact hjustified
end

end

variable [DecidableEq Ω] [DecidableEq H]

/-- Any write may fail, and the controller may crash at any time. -/
def admissionDiscipline (hash : Spec Ω → H) : Discipline (Action Ω H) (Store Ω H) (Start Ω H) where
  rely := Rely
  inv := AdmissionInv hash
  idle _ := True
  mayStart _ _ := True
  mayFail _ := True
  mayCrash := True

/-- **Every effect of a reconcile keeps the evidence.** -/
def admissionGuarantee (hash : Spec Ω → H) (hinj : Function.Injective hash) (now : Int) :
    Guarantee hash (admissionDiscipline hash) now where
  ok := AdmissionOk hash
  ko _ := AdmissionOk hash
  rely h := h
  notes _ := trivial
  patches _ := trivial
  inv h := h.inv
  idle _ := trivial
  stable hst h := h.congr rfl hst.status hst.log
  blockedInv h := h.inv
  blockedStable hst h := h.congr rfl hst.status hst.log
  began _ h := h.record rfl trivial
  note := by
    intro l s c fact h hc hfits
    cases fact with
    | accepted c' spec =>
      obtain ⟨rfl, rfl, hphase, hhash⟩ := hfits
      obtain ⟨spec, hverified⟩ := (h.copy _ hc).ready hphase
      have hspec : spec = l.spec := hinj (Option.some_injective _ (hverified.configHash.symm.trans hhash))
      rw [hspec] at hverified
      exact h.record rfl hverified
    | _ => exact h.record hfits.isActivation trivial
  block h := h
  interrupt h _ := h.record rfl trivial
  reject h _ _ := h.record rfl trivial
  wait := by
    intro reason l s message h
    have hcopy : StatusJustified hash s.log (waitingApplication hash reason message l).status := by
      intro c' hc'
      cases hc : l.status.promotion with
      | none =>
        rw [waitingApplication_none hash reason message hc] at hc'
        cases hc'
      | some c =>
      obtain ⟨c'', hc'', hwaits⟩ := waits_waitingApplication hash reason message hc
      rw [hc''] at hc'
      cases hc'
      exact (h.copy c hc).of_phase hwaits.source hwaits.attempt hwaits.configHash
        (hwaits.phase.imp_right And.left)
    exact AdmissionOk.publish ⟨h.inv, hcopy⟩
  amend h hc hamends :=
    h.setCandidate ((h.copy _ hc).of_phase hamends.source hamends.attempt hamends.configHash (Or.inl hamends.phase))
  retire := by
    intro l s c phase message h hc hphase
    refine h.setCandidate (.other (h.copy c hc).active (h.copy c hc).released ?_ ?_)
    · rcases hphase with rfl | rfl | rfl <;> exact fun h => by cases h
    · rcases hphase with rfl | rfl | rfl <;> exact fun h => by cases h
  retried h _ _ := ⟨h.inv, h.copy⟩
  startVerification := by
    intro l s c _ h hc _
    refine h.setCandidate (.other (h.copy c hc).active (h.copy c hc).released ?_ ?_)
    · exact fun h => by cases h
    · exact fun h => by cases h
  stamp := by
    intro l s c h hc _ _
    have hstamped : Justified hash s.log { c with verificationStartedAt := some now } :=
      (h.copy c hc).of_phase rfl rfl rfl (Or.inl rfl)
    have hnoted : AdmissionOk hash l (s.record (.stamped now)) := h.record rfl trivial
    exact hnoted.setCandidate (hstamped.continues (Continues.refl.cons rfl))
  consumeApproval := by
    intro l s h
    have hcleared : AdmissionOk hash { l with approval := "" } s.clearApproval := h.congr rfl rfl rfl
    exact hcleared.record rfl trivial
  consumeRetry h := h.congr rfl rfl rfl
  activate := by
    intro l s c next request release h hc _ hattempts
    have hreleased : next.source.releaseUID ≠ "" := by
      rw [hattempts.source]
      exact (h.copy c hc).released
    have hactivates : (Fact.activated request s.app release next).activates = some next := rfl
    exact h.activate hactivates hreleased hattempts.phase trivial rfl rfl
  await := by
    intro l s c h hc _ hhash hgated
    refine h.setCandidate ⟨(h.copy c hc).active, (h.copy c hc).released, fun _ => ?_, (fun h => by cases h)⟩
    rcases hgated with hawaiting | ⟨hgates, -⟩
    · exact (h.copy c hc).awaiting hawaiting
    · exact ⟨l.spec, hhash, hgates⟩
  markReady := by
    intro l s c h hc _ hhash hqualified
    rw [markPromotionReady_eq hc]
    have hverified : FullyVerified hash c l.spec s.log := by
      rcases hqualified with ⟨hready, -⟩ | ⟨htests, happroved, hgated⟩
      · obtain ⟨spec, hverified⟩ := (h.copy c hc).ready hready
        have hspec : spec = l.spec := hinj (Option.some_injective _ (hverified.configHash.symm.trans hhash))
        rw [← hspec]
        exact hverified
      refine ⟨hhash, (h.copy c hc).active, ?_, htests, fun hmanual => ⟨(h.copy c hc).released, happroved hmanual⟩⟩
      rcases hgated with hawaiting | ⟨hgates, -⟩
      · obtain ⟨spec, hhash', hgates⟩ := (h.copy c hc).awaiting hawaiting
        have hspec : spec = l.spec := hinj (Option.some_injective _ (hhash'.symm.trans hhash))
        rw [← hspec]
        exact hgates
      · exact hgates
    have hmarked : AdmissionOk hash (l.setCandidate
        { c with phase := .ready, message := "Upstream release verified and ready for deployment." }) s := by
      refine h.setCandidate ⟨(h.copy c hc).active.congr rfl rfl, (h.copy c hc).released, (fun h => by cases h), ?_⟩
      exact fun _ => ⟨l.spec, hverified.congr rfl rfl rfl⟩
    exact ⟨hmarked.inv, hmarked.copy⟩
  publish h := h.publish
  deploy accepted revision release h := AdmissionOk.publish ⟨h.inv, h.copy⟩

theorem admissionGuarantee_selects (hash : Spec Ω → H) (hinj : Function.Injective hash) (now : Int)
    (l : Application Ω H) (obs : Observation Ω H) : (admissionGuarantee hash hinj now).Selects l obs := by
  intro s source h _ hrel
  have hok : AdmissionOk hash l s := h
  have hnoted : AdmissionOk hash l (s.record (.sourceReady source)) := hok.record rfl trivial
  refine ⟨hnoted.inv, ?_⟩
  intro t ht
  have hactivates : (Fact.selected (newPromotionCandidate source) : Fact Ω H).activates
      = some (newPromotionCandidate source) := rfl
  exact (hnoted.congr rfl ht.status ht.log).activate hactivates hrel rfl trivial rfl rfl

theorem admission_keeps (hash : Spec Ω → H) (hinj : Function.Injective hash) :
    Keeps (rules hash) (admissionDiscipline hash) := by
  refine Guarantee.keeps (fun _ s => admissionGuarantee hash hinj s.clock) (fun h => h) (fun h => h)
    (fun hst h => h.congr hst.status hst.log) (fun _ _ => trivial) (fun _ _ _ => trivial) ?_ ?_
  · intro o s _ hinv _
    exact AdmissionOk.mk hinv hinv.status
  · exact fun obs s => admissionGuarantee_selects hash hinj s.clock s.app obs

/-- **Promotion admission is fully verified.**  In every run, with any edits, failing writes and crashes, a candidate
that is accepted for a specification was fully verified for it. -/
theorem accepts_fully_verified (hash : Spec Ω → H) (hinj : Function.Injective hash) (app : Application Ω H)
    (clock : Int) (events : List (Event (Edit Ω) (Start Ω H))) {newer older : List (Fact Ω H)} {c : Candidate Ω H}
    {spec : Spec Ω}
    (hlog : (run (System.step (rules hash)) ⟨initial app clock, []⟩ events).store.log
      = newer ++ .accepted c spec :: older) : FullyVerified hash c spec older := by
  have hinv : AdmissionInv hash (initial app clock) := ⟨(fun c hc => by cases hc), InOrder.nil⟩
  have hrun := system_invariant_all (admission_keeps hash hinj) (fun _ _ => trivial) (fun _ => trivial) trivial hinv
    trivial events
  exact hrun.1.accepts newer _ older hlog

/-- The specification of `prod` that is approved by hand, behind a smoke test. -/
def Sample.manualSpec : Spec Unit :=
  spec .manual [{ type := .smokeTest, endpoint := "http://dev/healthz", timeout := 5 }]

/-- A reconcile finds the approval missing, and the next one consumes it. -/
def Sample.approvedRun : List (Event (Edit Unit) (Start Unit (Spec Unit))) :=
  reconcile (observation "r1" none) ++ [.environment (.approval "r1-uid")] ++
    reconcile (observation "r1" none)

theorem approved_deployment_is_verified : ∃ older, (store manualSpec approvedRun).log =
        .accepted (readyCandidate "r1" manualSpec (some 0)) manualSpec :: older ∧
      FullyVerified id (readyCandidate "r1" manualSpec (some 0)) manualSpec older := by
  have hlog : (store manualSpec approvedRun).log =
      [] ++ .accepted (readyCandidate "r1" manualSpec (some 0)) manualSpec ::
        (store manualSpec approvedRun).log.tail := by
    rfl
  exact ⟨_, hlog, accepts_fully_verified id Function.injective_id (application manualSpec) 0
    approvedRun hlog⟩

end Paprika.Promotion
