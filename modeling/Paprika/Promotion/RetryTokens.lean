import Paprika.Promotion.Effects

/-!
# Promotion: retry tokens

An explicit retry names a token, and the candidate keeps the tokens it has used.  As long as no reconcile goes back to a
source whose candidate has been replaced after a retry, every token activates at most one attempt of its source, there
are at most 32 of them, and an attempt becomes active only on a failed candidate that has not been admitted, with no
approval and no observation left over.

The list of tokens belongs to the candidate, and selecting a source makes a new candidate; `token_activates_twice` is
what becomes of that when the upstream returns to an earlier Release.
-/

namespace Paprika.Promotion

open Lib.Process Lib.Run List Sample

variable {Ω H : Type}

def retryToken (source : SourceKey) : Fact Ω H → Option String
  | .activated request _ _ next => if request ≠ "" ∧ next.source = source then some next.verificationAttempt else none
  | _ => none

/-- The tokens that have activated an attempt of the source, the last one first. -/
def tokensOf (source : SourceKey) (log : List (Fact Ω H)) : List String := log.filterMap (retryToken source)

section
variable {source : SourceKey} {fact : Fact Ω H} {log : List (Fact Ω H)}

theorem tokensOf_cons_none (h : retryToken source fact = none) : tokensOf source (fact :: log) = tokensOf source log := by
  rw [tokensOf, filterMap_cons_none h, tokensOf]

theorem tokensOf_cons_some {token : String} (h : retryToken source fact = some token) :
    tokensOf source (fact :: log) = token :: tokensOf source log := by
  rw [tokensOf, filterMap_cons_some h, tokensOf]

theorem retryToken_of_not_activation (h : fact.isActivation = false) : retryToken source fact = none := by
  cases fact <;> first | rfl | cases h

section
variable {app : Application Ω H} {release : Option (AdmittedRelease H)} {next : Candidate Ω H}

theorem retryToken_refresh : retryToken source (.activated "" app release next) = none := by simp [retryToken]

theorem retryToken_other {request : String}
    (h : next.source ≠ source) :
    retryToken source (.activated request app release next) = none := by
  simp [retryToken, h]

theorem retryToken_retry {request : String}
    (hreq : request ≠ "") (hsrc : next.source = source) :
    retryToken source (.activated request app release next) = some next.verificationAttempt := by
  simp [retryToken, hreq, hsrc]
end

end

/-- The source that a process selects, if it is not the one of the candidate. -/
def Start.selects (app : Application Ω H) : Start Ω H → Option SourceKey
  | .reconcile obs => newlySelected app obs
  | .releaseCreated _ | .releaseObserved _ _ => none

theorem newlySelected_ne {app : Application Ω H} {obs : Observation Ω H} {source : SourceKey} {c : Candidate Ω H}
    (h : newlySelected app obs = some source) (hc : app.status.promotion = some c) : c.source ≠ source := by
  simp only [newlySelected, Option.bind_eq_bind, Option.bind_eq_some_iff] at h
  obtain ⟨fromRef, -, upstream, -, h⟩ := h
  split at h
  · next hnew =>
    simp only [Bool.and_eq_true, hc, Option.all_some, bne_iff_ne] at hnew
    cases h
    exact hnew.2
  · cases h

variable [DecidableEq H]

/-- An attempt becomes active with nothing left over, and an explicit one only before admission. -/
def ActivatesFresh (hash : Spec Ω → H) : Fact Ω H → List (Fact Ω H) → Prop
  | .activated request app release next, _ =>
    app.approval = "" ∧ next.verificationStartedAt = none ∧ next.verificationPipelineRef = none ∧
      ∃ c, app.status.promotion = some c ∧ next.source = c.source ∧
        (request = "" ∧ next.consumedVerificationAttempts = c.consumedVerificationAttempts ∨
          request ≠ "" ∧ c.phase = .failed ∧ release.any (acceptedPromotionReleaseMatches hash app c) = false ∧
            next.consumedVerificationAttempts = c.consumedVerificationAttempts ++ [next.verificationAttempt])
  | _, _ => True

/-- Retry tokens are single-use and bounded. -/
structure SingleUse (hash : Spec Ω → H) (log : List (Fact Ω H)) : Prop where
  once : ∀ source, (tokensOf source log).Nodup
  bounded : ∀ source, (tokensOf source log).length ≤ promotionRetryLimit
  activations : InOrder (ActivatesFresh hash) log

def Accounted (log : List (Fact Ω H)) (status : Status Ω H) : Prop :=
  ∀ c, status.promotion = some c → tokensOf c.source log = c.consumedVerificationAttempts.reverse

structure RetryInv (hash : Spec Ω → H) (s : Store Ω H) : Prop where
  singleUse : SingleUse hash s.log
  status : Accounted s.log s.app.status

/-- `fresh` are the sources that may be selected: they have no tokens, unless they have become the candidate's. -/
structure RetryOk (hash : Spec Ω → H) (fresh : SourceKey → Prop) (l : Application Ω H) (s : Store Ω H) : Prop where
  inv : RetryInv hash s
  copy : Accounted s.log l.status
  fresh : ∀ source, fresh source → tokensOf source s.log = [] ∨ ∃ c, l.status.promotion = some c ∧ c.source = source
  generation : l.generation ≤ s.app.generation
  spec : s.app.generation = l.generation → s.app.spec = l.spec
  accepted : s.app.status.acceptedDeployment = l.status.acceptedDeployment
  revision : s.app.status.sourceRevision = l.status.sourceRevision

section
variable {hash : Spec Ω → H} {fresh : SourceKey → Prop} {l : Application Ω H} {s t : Store Ω H} {c c' : Candidate Ω H}
  {fact : Fact Ω H}

theorem RetryInv.stable (h : RetryInv hash s) (hst : Rely s t) : RetryInv hash t := by
  refine ⟨?_, ?_⟩
  · rw [hst.log]
    exact h.singleUse
  · rw [hst.log, hst.status]
    exact h.status

theorem RetryOk.stable (h : RetryOk hash fresh l s) (hst : Rely s t) : RetryOk hash fresh l t where
  inv := h.inv.stable hst
  copy := by
    rw [hst.log]
    exact h.copy
  fresh := by
    rw [hst.log]
    exact h.fresh
  generation := le_trans h.generation hst.generation
  spec := by
    intro hsame
    have hgen : t.app.generation = s.app.generation := by
      have hle := hst.generation
      have hle' := h.generation
      omega
    rw [hst.spec hgen, h.spec (hgen.symm.trans hsame)]
  accepted := by
    rw [hst.status]
    exact h.accepted
  revision := by
    rw [hst.status]
    exact h.revision

theorem SingleUse.cons (h : SingleUse hash s.log) (hfact : ∀ source, retryToken source fact = none)
    (hactivates : ActivatesFresh hash fact s.log) : SingleUse hash (fact :: s.log) where
  once source := by
    rw [tokensOf_cons_none (hfact source)]
    exact h.once source
  bounded source := by
    rw [tokensOf_cons_none (hfact source)]
    exact h.bounded source
  activations := h.activations.cons hactivates

omit [DecidableEq H] in
theorem Accounted.cons {log : List (Fact Ω H)} {status : Status Ω H} (h : Accounted log status)
    (hfact : ∀ source, retryToken source fact = none) : Accounted (fact :: log) status := by
  intro c hc
  rw [tokensOf_cons_none (hfact c.source)]
  exact h c hc

section
variable (h : RetryOk hash fresh l s)
include h

theorem RetryOk.record (hfact : ∀ source, retryToken source fact = none)
    (hactivates : ActivatesFresh hash fact s.log) : RetryOk hash fresh l (s.record fact) where
  inv := ⟨h.inv.singleUse.cons hfact hactivates, h.inv.status.cons hfact⟩
  copy := h.copy.cons hfact
  fresh source hsrc := by
    show tokensOf source (fact :: s.log) = [] ∨ _
    rw [tokensOf_cons_none (hfact source)]
    exact h.fresh source hsrc
  generation := h.generation
  spec := h.spec
  accepted := h.accepted
  revision := h.revision

theorem RetryOk.copyStatus (status : Status Ω H)
    (hpromo : ∀ c', status.promotion = some c' → ∃ c, l.status.promotion = some c ∧ c'.source = c.source ∧
      c'.consumedVerificationAttempts = c.consumedVerificationAttempts)
    (hsome : ∀ c, l.status.promotion = some c → ∃ c', status.promotion = some c' ∧ c'.source = c.source)
    (hacc : status.acceptedDeployment = l.status.acceptedDeployment)
    (hrev : status.sourceRevision = l.status.sourceRevision) :
    RetryOk hash fresh { l with status := status } s where
  inv := h.inv
  copy c' hc' := by
    obtain ⟨c, hc, hsrc, hcons⟩ := hpromo c' hc'
    rw [hsrc, hcons]
    exact h.copy c hc
  fresh source hsrc := by
    rcases h.fresh source hsrc with hnone | ⟨c, hc, rfl⟩
    · exact .inl hnone
    · obtain ⟨c', hc', hsame⟩ := hsome c hc
      exact .inr ⟨c', hc', hsame⟩
  generation := h.generation
  spec := h.spec
  accepted := h.accepted.trans hacc.symm
  revision := h.revision.trans hrev.symm

theorem RetryOk.setCandidate (hc : l.status.promotion = some c)
    (hsrc : c'.source = c.source) (hcons : c'.consumedVerificationAttempts = c.consumedVerificationAttempts) :
    RetryOk hash fresh (l.setCandidate c') s := by
  refine h.copyStatus _ ?_ ?_ rfl rfl
  · intro d hd
    cases hd
    exact ⟨c, hc, hsrc, hcons⟩
  · intro d hd
    rw [hc] at hd
    cases hd
    exact ⟨c', rfl, hsrc⟩

theorem RetryOk.publish : RetryOk hash fresh l (s.publish l.status) where
  inv := ⟨h.inv.singleUse, h.copy⟩
  copy := h.copy
  fresh := h.fresh
  generation := h.generation
  spec := h.spec
  accepted := rfl
  revision := rfl

theorem RetryOk.setCondition (ready : Bool) : RetryOk hash fresh (l.setCondition ready) s :=
  ⟨h.inv, h.copy, h.fresh, h.generation, h.spec, h.accepted, h.revision⟩

theorem RetryOk.waiting (reason : Reason) (message : String) :
    RetryOk hash fresh (waitingApplication hash reason message l) s := by
  refine h.copyStatus (waitingApplication hash reason message l).status ?_ ?_ rfl rfl
  · intro c' hc'
    cases hc : l.status.promotion with
    | none =>
      rw [waitingApplication_none hash reason message hc] at hc'
      cases hc'
    | some c =>
    obtain ⟨d, hd, hwaits⟩ := waits_waitingApplication hash reason message hc
    rw [hd] at hc'
    cases hc'
    exact ⟨c, rfl, hwaits.source, hwaits.consumed⟩
  · intro c hc
    obtain ⟨d, hd, hwaits⟩ := waits_waitingApplication hash reason message hc
    exact ⟨d, hd, hwaits.source⟩
end

/-- Only the specification and what has been accepted decide whether a Release has been admitted. -/
theorem acceptedPromotionReleaseMatches_congr {app app' : Application Ω H} (hspec : app'.spec = app.spec)
    (hacc : app'.status.acceptedDeployment = app.status.acceptedDeployment)
    (hrev : app'.status.sourceRevision = app.status.sourceRevision) (c : Candidate Ω H)
    (release : AdmittedRelease H) :
    acceptedPromotionReleaseMatches hash app' c release = acceptedPromotionReleaseMatches hash app c release := by
  unfold acceptedPromotionReleaseMatches promotionTriggered
  rw [hspec, hacc, hrev]

theorem promotionRetryRequest_ne_empty {request : String} {parts : String × String}
    (h : promotionRetryRequest request = some parts) : request ≠ "" := by
  rintro rfl
  cases h

section
variable {next : Candidate Ω H} {request : String} {release : Option (AdmittedRelease H)}

section
variable (h : RetryOk hash fresh l s) (hc : l.status.promotion = some c)
  (hattempts : Attempts hash l c request release next)
include h hc hattempts

/-- A token that the candidate does not know has not been used, and there is room for it. -/
theorem RetryOk.singleUse (hactivates : ActivatesFresh hash (.activated request s.app release next) s.log) :
    SingleUse hash (.activated request s.app release next :: s.log) := by
  cases hattempts with
  | refresh uuid => exact h.inv.singleUse.cons (fun _ => retryToken_refresh) hactivates
  | retry valid unused failed limit unadmitted =>
  rename_i uid token
  have hreq : request ≠ "" := promotionRetryRequest_ne_empty valid
  have hknown : tokensOf c.source s.log = c.consumedVerificationAttempts.reverse := h.copy c hc
  have htokens : tokensOf c.source (.activated request s.app release (retryAttempt c token (hash l.spec)) :: s.log)
      = token :: tokensOf c.source s.log := tokensOf_cons_some (retryToken_retry hreq rfl)
  have hkept : ∀ source, c.source ≠ source →
      tokensOf source (.activated request s.app release (retryAttempt c token (hash l.spec)) :: s.log)
        = tokensOf source s.log := fun source hother => tokensOf_cons_none (retryToken_other hother)
  refine ⟨?_, ?_, h.inv.singleUse.activations.cons hactivates⟩
  · intro source
    by_cases hsrc : c.source = source
    · rw [← hsrc, htokens, nodup_cons]
      refine ⟨?_, h.inv.singleUse.once c.source⟩
      rw [hknown, mem_reverse]
      simp only [promotionRetryAlreadyConsumed, Bool.or_eq_false_iff, contains_eq_mem,
        decide_eq_false_iff_not] at unused
      exact unused.2
    · rw [hkept source hsrc]
      exact h.inv.singleUse.once source
  · intro source
    by_cases hsrc : c.source = source
    · rw [← hsrc, htokens, hknown, length_cons, length_reverse]
      exact limit
    · rw [hkept source hsrc]
      exact h.inv.singleUse.bounded source

theorem RetryOk.accounted {status : Status Ω H} (hstatus : status.promotion = some next) :
    Accounted (.activated request s.app release next :: s.log) status := by
  intro c' hc'
  rw [hstatus] at hc'
  cases hc'
  have hknown := h.copy c hc
  cases hattempts with
  | refresh uuid =>
    rw [tokensOf_cons_none retryToken_refresh]
    exact hknown
  | retry valid _ _ _ _ =>
    rw [tokensOf_cons_some (retryToken_retry (promotionRetryRequest_ne_empty valid) rfl)]
    simp only [retryAttempt, reverse_append, reverse_singleton, singleton_append, hknown]
end

variable [DecidableEq Ω]

theorem RetryOk.activatesFresh (h : RetryOk hash fresh l s)
    (hmatch : promotionRetryIntentMatches hash s.app l.generation c next request = true)
    (hattempts : Attempts hash l c request release next) :
    ActivatesFresh hash (.activated request s.app release next) s.log := by
  simp only [promotionRetryIntentMatches, Bool.and_eq_true, beq_iff_eq] at hmatch
  obtain ⟨⟨⟨⟨hgen, -⟩, -⟩, happroval⟩, hpers⟩ := hmatch
  refine ⟨happroval, ?_, ?_, c, hpers, hattempts.source, ?_⟩
  · cases hattempts <;> rfl
  · cases hattempts <;> rfl
  cases hattempts with
  | refresh uuid => exact .inl ⟨rfl, rfl⟩
  | retry valid _ failed _ unadmitted =>
  refine .inr ⟨promotionRetryRequest_ne_empty valid, failed, ?_, rfl⟩
  rw [← unadmitted]
  congr 1
  funext admitted
  exact acceptedPromotionReleaseMatches_congr (h.spec hgen) h.accepted h.revision c admitted

theorem RetryOk.activate (h : RetryOk hash fresh l s) (hc : l.status.promotion = some c)
    (hmatch : promotionRetryIntentMatches hash s.app l.generation c next request = true)
    (hattempts : Attempts hash l c request release next) :
    RetryOk hash fresh { l.setCandidate next with approval := "", retry := request }
      ((s.publish { s.app.status with promotion := some next }).record (.activated request s.app release next)) where
  inv := ⟨h.singleUse hc hattempts (h.activatesFresh hmatch hattempts), h.accounted hc hattempts rfl⟩
  copy := h.accounted hc hattempts rfl
  fresh source hsrc := by
    by_cases hnext : next.source = source
    · exact .inr ⟨next, rfl, hnext⟩
    refine .inl ?_
    show tokensOf source (.activated request s.app release next :: s.log) = []
    rw [tokensOf_cons_none (retryToken_other hnext)]
    rcases h.fresh source hsrc with hnone | ⟨c', hc', hsame⟩
    · exact hnone
    · rw [hc] at hc'
      cases hc'
      exact absurd (hattempts.source.trans hsame) hnext
  generation := h.generation
  spec := h.spec
  accepted := h.accepted
  revision := h.revision
end

end

variable [DecidableEq Ω]

/-- Any write may fail, and the controller may crash at any time, but no process selects a source anew that has had an
explicit retry before. -/
def retryDiscipline (hash : Spec Ω → H) : Discipline (Action Ω H) (Store Ω H) (Start Ω H) where
  rely := Rely
  inv := RetryInv hash
  idle _ := True
  mayStart o s := ∀ source, o.selects s.app = some source → tokensOf source s.log = []
  mayFail _ := True
  mayCrash := True

/-- **Every effect of a reconcile keeps the account of the tokens.** -/
def retryGuarantee (hash : Spec Ω → H) (fresh : SourceKey → Prop) (now : Int) :
    Guarantee hash (retryDiscipline hash) now where
  ok := RetryOk hash fresh
  ko _ := RetryOk hash fresh
  rely h := h
  notes _ := trivial
  patches _ := trivial
  inv h := h.inv
  idle _ := trivial
  stable hst h := h.stable hst
  blockedInv h := h.inv
  blockedStable hst h := h.stable hst
  began _ h := h.record (fun _ => rfl) trivial
  note := by
    intro l s c fact h _ hfits
    refine h.record (fun source => retryToken_of_not_activation hfits.isActivation) ?_
    cases fact <;> trivial
  block h := h
  interrupt h _ := h.record (fun _ => rfl) trivial
  reject h _ _ := h.record (fun _ => rfl) trivial
  wait message h := (h.waiting _ message).publish
  amend h hc hamends := h.setCandidate hc hamends.source hamends.consumed
  retire _ _ h hc _ := h.setCandidate hc rfl rfl
  retried h _ _ := h.setCondition true
  startVerification _ h hc _ := h.setCandidate hc rfl rfl
  stamp := by
    intro l s c h hc _ _
    have hnoted : RetryOk hash fresh l (s.record (.stamped now)) := h.record (fun _ => rfl) trivial
    exact hnoted.setCandidate hc rfl rfl
  consumeApproval := by
    intro l s h
    have hcleared : RetryOk hash fresh { l with approval := "" } s.clearApproval :=
      ⟨⟨h.inv.singleUse, h.inv.status⟩, h.copy, h.fresh, h.generation, h.spec, h.accepted, h.revision⟩
    exact hcleared.record (fun _ => rfl) trivial
  consumeRetry h := ⟨⟨h.inv.singleUse, h.inv.status⟩, h.copy, h.fresh, h.generation, h.spec, h.accepted, h.revision⟩
  activate h hc hmatch hattempts := h.activate hc hmatch hattempts
  await h hc _ _ _ := h.setCandidate hc rfl rfl
  markReady := by
    intro l s c h hc _ _ _
    rw [markPromotionReady_eq hc]
    have hmarked : RetryOk hash fresh (l.setCandidate
        { c with phase := .ready, message := "Upstream release verified and ready for deployment." }) s :=
      h.setCandidate hc rfl rfl
    exact hmarked.setCondition true
  publish h := h.publish
  deploy _ _ _ h := ⟨⟨h.inv.singleUse, h.copy⟩, h.copy, h.fresh, h.generation, h.spec, rfl, rfl⟩

theorem retryGuarantee_selects (hash : Spec Ω → H) (now : Int) (l : Application Ω H) (obs : Observation Ω H) :
    (retryGuarantee hash (fun source => newlySelected l obs = some source) now).Selects l obs := by
  intro s source h hsel _
  have hok : RetryOk hash (fun source => newlySelected l obs = some source) l s := h
  have hnone : tokensOf source s.log = [] := by
    rcases hok.fresh source hsel with hnone | ⟨c, hc, hsame⟩
    · exact hnone
    · exact absurd hsame (newlySelected_ne hsel hc)
  have hnoted : RetryOk hash (fun source => newlySelected l obs = some source) l (s.record (.sourceReady source)) :=
    hok.record (fun _ => rfl) trivial
  refine ⟨hnoted.inv, ?_⟩
  intro t ht
  obtain ⟨hinv, -, -, hgen, hspec, -, -⟩ := hnoted.stable ht
  have hunused : Accounted t.log (l.setCandidate (newPromotionCandidate source)).status := by
    intro c hc
    cases hc
    rw [ht.log]
    exact (tokensOf_cons_none rfl).trans hnone
  have hsels : RetryOk hash (fun source => newlySelected l obs = some source)
      (l.setCandidate (newPromotionCandidate source))
      (t.publish (l.setCandidate (newPromotionCandidate source)).status) := by
    refine ⟨⟨hinv.singleUse, hunused⟩, hunused, ?_, hgen, hspec, rfl, rfl⟩
    intro source' hselected'
    rw [hsel] at hselected'
    cases hselected'
    exact .inr ⟨_, rfl, rfl⟩
  exact hsels.record (fun _ => rfl) trivial

theorem retry_keeps (hash : Spec Ω → H) : Keeps (rules hash) (retryDiscipline hash) := by
  refine Guarantee.keeps (fun o s => retryGuarantee hash (fun source => o.selects s.app = some source) s.clock)
    (fun h => h) (fun h => h) (fun hst h => h.stable hst) (fun _ _ => trivial) (fun _ _ _ => trivial) ?_ ?_
  · intro o s hmay hinv _
    exact RetryOk.mk hinv hinv.status (fun source hsrc => .inl (hmay source hsrc)) (le_refl _) (fun _ => rfl)
      rfl rfl
  · exact fun obs s => retryGuarantee_selects hash s.clock s.app obs

/-- **Retry tokens are single-use and bounded.**  In every run, with any edits, failing writes and crashes, in which no
reconcile selects a source anew that has had an explicit retry before. -/
theorem retry_tokens_single_use (hash : Spec Ω → H) (app : Application Ω H) (clock : Int)
    (events : List (Event (Edit Ω) (Start Ω H)))
    (hevents : Guarded (System.step (rules hash)) (Admissible (retryDiscipline hash)) ⟨initial app clock, []⟩ events) :
    SingleUse hash (run (System.step (rules hash)) ⟨initial app clock, []⟩ events).store.log := by
  have hinv : RetryInv hash (initial app clock) :=
    ⟨⟨fun _ => nodup_nil, fun _ => Nat.zero_le _, InOrder.nil⟩, fun c hc => by cases hc⟩
  exact (system_invariant (retry_keeps hash) hinv trivial hevents).1.singleUse

/-! ### Runs -/

instance (hash : Spec Ω → H) (s : System (Action Ω H) (Store Ω H)) :
    ∀ e : Event (Edit Ω) (Start Ω H), Decidable (Admissible (retryDiscipline hash) s e)
  | .environment _ => .isTrue trivial
  | .start o => inferInstanceAs (Decidable (s.pending = [] →
      ∀ source ∈ o.selects s.store.app, tokensOf source s.store.log = []))
  | .go _ => .isTrue fun _ _ _ _ => trivial
  | .crash => .isTrue trivial

def Sample.smokeSpec : Spec Unit :=
  spec .auto [{ type := .smokeTest, endpoint := "http://dev/healthz", timeout := 5 }]

/-- A reconcile finds the smoke test failing. -/
def Sample.failing (release : String) : List (Event (Edit Unit) (Start Unit (Spec Unit))) :=
  reconcile (observation release (some "connection refused"))

/-- The retry of the candidate of `r1`. -/
def Sample.retry : Event (Edit Unit) (Start Unit (Spec Unit)) :=
  .environment (.retry "r1-uid:11111111-1111-1111-1111-111111111111")

/-- A retry of a failed candidate. -/
def Sample.retriedRun : List (Event (Edit Unit) (Start Unit (Spec Unit))) :=
  failing "r1" ++ [retry] ++ failing "r1"

theorem retried_candidate_knows_its_token :
    tokensOf (Sample.sourceKey "r1") (store smokeSpec retriedRun).log =
        ["11111111-1111-1111-1111-111111111111"] ∧
      SingleUse id (store smokeSpec retriedRun).log := by
  refine ⟨by decide +kernel, ?_⟩
  unfold store
  exact retry_tokens_single_use id (application smokeSpec) 0 retriedRun (by decide)

/-- The upstream goes on to `r2` and comes back to `r1`, and the retry is asked for once more. -/
def Sample.returningRun : List (Event (Edit Unit) (Start Unit (Spec Unit))) :=
  retriedRun ++ failing "r2" ++ failing "r1" ++ failing "r1" ++ [retry] ++
    failing "r1"

theorem token_activates_twice : ¬SingleUse id (store smokeSpec returningRun).log := by
  intro h
  have htwice : tokensOf (Sample.sourceKey "r1") (store smokeSpec returningRun).log =
      ["11111111-1111-1111-1111-111111111111", "11111111-1111-1111-1111-111111111111"] := by decide +kernel
  have honce := h.once (Sample.sourceKey "r1")
  rw [htwice] at honce
  exact absurd honce (by decide)

end Paprika.Promotion
