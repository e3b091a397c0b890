import Paprika.Promotion.Store

/-!
# Promotion: verification

`reconcilePromotionTrigger` and what it calls (`application_promotion.go`, `application_promotion_retry.go`,
`application_promotion_refresh.go`), as routines that change a copy of the Application and make writes.  A routine that
answers `true` for a result ends the reconcile.

A reconcile reads the Application once, at its start, and the time as well.
-/

namespace Paprika.Promotion

open Lib.Process Lib.Process.Routine Pipelines

variable {Ω H : Type} [DecidableEq Ω] [DecidableEq H]

abbrev Reconcile (Ω H α : Type) := Routine (Action Ω H) (Application Ω H) Failure α

/-- `app.Status.Promotion`; a nil one would be dereferenced. -/
def candidate : Reconcile Ω H (Candidate Ω H) := do
  let app ← copy
  match app.status.promotion with
  | some c => pure c
  | none => raise (.other "nil pointer dereference")

def modifyCandidate (f : Candidate Ω H → Candidate Ω H) : Reconcile Ω H Unit := update (Application.mapCandidate f)

def promotionBlocked {α : Type} (reason : Reason) (message : String) : Reconcile Ω H α :=
  raise (.blocked reason message)

/-- `promotionBlocked` by what the upstream looks like. -/
def promotionInterrupted {α : Type} (reason : Reason) (message : String) : Reconcile Ω H α := do
  write (.note .interrupted)
  promotionBlocked reason message

def patchAppStatus (facts : List (Fact Ω H)) : Reconcile Ω H Unit := do
  let app ← copy
  write (.patchAppStatus app.status facts)

def holdVerifiedPromotion : Reconcile Ω H Bool := do
  patchAppStatus []
  pure true

/-! ### Waiting -/

/-- What `waitForPromotion` makes of the Application before it writes the status. -/
def waitingApplication (hash : Spec Ω → H) (reason : Reason) (message : String) (app : Application Ω H) :
    Application Ω H :=
  ((app.mapCandidate (Candidate.observed reason)).mapCandidate (fun c =>
    if promotionReadyMayWait hash app reason then { c with message := message }
    else updateWaitingPromotionCandidate reason message c)).setCondition false

def waitForPromotion (hash : Spec Ω → H) (reason : Reason) (message : String) : Reconcile Ω H Bool := do
  let app ← copy
  update (waitingApplication hash reason message)
  patchAppStatus []
  if promotionReadyMayWait hash app reason then holdVerifiedPromotion
  else pure (app.status.releaseRef == "")

/-! ### Annotations -/

def consumePromotionApproval (hash : Spec Ω → H) (uid : String) : Reconcile Ω H Unit := do
  let app ← copy
  write (.consumePromotionApproval app.generation (hash app.spec) uid)
  update (fun app => { app with approval := "" })

def consumePromotionRetry (request : String) : Reconcile Ω H Unit := do
  write (.consumePromotionRetry request)
  update (fun app => { app with retry := "" })

/-! ### The source -/

/-- The reference with its namespace filled in. -/
def upstreamReference (app : Application Ω H) (fromRef : Reference) : Reference :=
  if fromRef.ns = "" then { fromRef with ns := app.name.ns } else fromRef

def promotionSourceApplication (obs : Observation Ω H) : Reconcile Ω H (Reference × UpstreamObject) := do
  let app ← copy
  match app.spec.trigger.bind (·.fromRef) with
  | none => promotionBlocked .upstreamReferenceRequired "Promotion requires an upstream Application reference."
  | some fromRef =>
    if fromRef.name = "" then
      promotionBlocked .upstreamReferenceRequired "Promotion requires an upstream Application reference."
    else if upstreamReference app fromRef = app.name then
      promotionBlocked .invalidUpstreamReference "An Application cannot promote from itself."
    else
      match obs.chain with
      | .unavailable =>
        promotionInterrupted .upstreamUnavailable "An Application in the promotion reference chain is unavailable."
      | .invalid message => promotionInterrupted .invalidPromotionChain message
      | .valid =>
        match obs.source.application with
        | none =>
          promotionInterrupted .upstreamUnavailable
            "The upstream Application could not be read; waiting for current evidence."
        | some upstream => pure (upstreamReference app fromRef, upstream)

def promotionSourceRelease (obs : Observation Ω H) (upstream : UpstreamObject) : Reconcile Ω H ReleaseObject :=
  if upstream.releaseRef = "" then pure .zero
  else
    match obs.source.release with
    | .failed =>
      promotionInterrupted .upstreamUnavailable
        "The upstream Release could not be read; waiting for current evidence."
    | .notFound => pure .zero
    | .found release => pure release

/-- The Release that `promotionSourceRelease` answers, if it can be read. -/
def SourceObservation.releaseOf (source : SourceObservation) (upstream : UpstreamObject) : ReleaseObject :=
  if upstream.releaseRef = "" then .zero
  else
    match source.release with
    | .found release => release
    | .failed | .notFound => .zero

/-- The source that a reconcile of the Application selects, if it is not the one of its candidate. -/
def newlySelected (app : Application Ω H) (obs : Observation Ω H) : Option SourceKey := do
  let fromRef ← app.spec.trigger.bind (·.fromRef)
  let upstream ← obs.source.application
  let source := sourceKey (upstreamReference app fromRef) upstream (obs.source.releaseOf upstream)
  if promotionTriggerNeedsVerification app && fromRef.name != "" && upstreamReference app fromRef != app.name &&
      obs.chain == .valid &&
      !activePromotionCandidateChanged app.status.promotion upstream (obs.source.releaseOf upstream) &&
      (promotionSourceReady upstream (obs.source.releaseOf upstream) obs.source.unready).isNone &&
      obs.incompatible.isNone && app.status.promotion.all (fun c => c.source != source) then
    some source
  else none

def revalidatePromotionSource (c : Candidate Ω H) (source : SourceObservation) : Reconcile Ω H Unit :=
  match source.application with
  | none =>
    promotionInterrupted .upstreamUnavailable "The upstream Application became unavailable during verification."
  | some upstream =>
    if promotionCandidateIdentityChanged c upstream .zero then
      promotionBlocked .upstreamCandidateChanged
        "The upstream Application or selected release changed during verification."
    else
      match source.release with
      | .failed | .notFound =>
        promotionInterrupted .upstreamUnavailable "The upstream Release became unavailable during verification."
      | .found release =>
        if promotionCandidateIdentityChanged c upstream release then
          promotionBlocked .upstreamCandidateChanged
            "The upstream release UID or revision changed during verification."
        else
          match promotionSourceReady upstream release source.unready with
          | some message => promotionInterrupted .upstreamNotReady message
          | none => pure ()

/-! ### Attempts -/

def checkPromotionRetryPriorJobs (obs : Observation Ω H) (c : Candidate Ω H) : Reconcile Ω H Unit :=
  match c.verificationPipelineRef.bind obs.jobsUnstopped with
  | some message => promotionBlocked .promotionRetryJobsUnstopped message
  | none => pure ()

def checkPromotionRetryPipeline (obs : Observation Ω H) (next : Candidate Ω H) : Reconcile Ω H Unit := do
  let app ← copy
  if app.spec.tests.all (·.steps.isEmpty) then pure ()
  else
    match obs.attemptPipeline (promotionPipelineName next app.spec.tests) with
    | .found _ =>
      promotionBlocked .promotionRetryReplayed
        "This retry token already has a verification Pipeline; use a fresh token."
    | .notFound => pure ()
    | .failed => raise (.other "checking promotion retry identity")

/-- An approval is cleared before an attempt becomes active. -/
def clearPromotionApproval (hash : Spec Ω → H) : Reconcile Ω H Unit := do
  let app ← copy
  if app.approval = "" then pure ()
  else consumePromotionApproval hash app.approval

/-- `writePromotionVerificationAttempt`, with the clearing of the approval before it. -/
def activatePromotionAttempt (hash : Spec Ω → H) (obs : Observation Ω H) (original next : Candidate Ω H)
    (request : String) (release : Option (AdmittedRelease H)) : Reconcile Ω H Unit := do
  clearPromotionApproval hash
  let app ← copy
  write (.readPromotionVerificationTarget app.generation original next request)
  revalidatePromotionSource original obs.sourceAtAttempt
  write (.writePromotionVerificationAttempt app.generation original next request release)
  update (fun app => { app.setCandidate next with approval := "", retry := request })

def retryAttempt (c : Candidate Ω H) (token : String) (configHash : H) : Candidate Ω H :=
  { c with
    phase := .verifying
    verificationAttempt := token
    consumedVerificationAttempts := c.consumedVerificationAttempts ++ [token]
    verificationPipelineRef := none
    verificationStartedAt := none
    verificationConfigHash := some configHash
    message := "Explicit retry requested; waiting for fresh upstream verification." }

/-- `reconcilePromotionRetry`, with `validatePromotionRetryAdmission` and `activatePromotionRetry`. -/
def reconcilePromotionRetry (hash : Spec Ω → H) (obs : Observation Ω H) : Reconcile Ω H Unit := do
  let app ← copy
  let c ← candidate
  if app.retry = "" then pure ()
  else
    match promotionRetryRequest app.retry with
    | none =>
      promotionBlocked .invalidPromotionRetry
        "Promotion retry requires the current sourceReleaseUID followed by ':' and a fresh canonical UUID token."
    | some (uid, token) =>
      if uid ≠ c.source.releaseUID then
        promotionBlocked .invalidPromotionRetry
          "Promotion retry requires the current sourceReleaseUID followed by ':' and a fresh canonical UUID token."
      else if promotionRetryAlreadyConsumed c token ∨ c.phase ≠ .failed then consumePromotionRetry app.retry
      else if promotionRetryLimit ≤ c.consumedVerificationAttempts.length then
        promotionBlocked .promotionRetryLimitReached
          "This source candidate has consumed all 32 verification retries; a new upstream Release is required."
      else if obs.currentRelease.any (acceptedPromotionReleaseMatches hash app c) then
        promotionBlocked .promotionAlreadyAdmitted
          "Retry the already accepted Release with manual sync; verification retry only applies before admission."
      else do
        checkPromotionRetryPriorJobs obs c
        checkPromotionRetryPipeline obs (retryAttempt c token (hash app.spec))
        activatePromotionAttempt hash obs c (retryAttempt c token (hash app.spec)) app.retry obs.currentRelease
        consumePromotionRetry app.retry

def checkPromotionRefreshPriorExecution (obs : Observation Ω H) (c : Candidate Ω H) : Reconcile Ω H Unit :=
  match c.verificationPipelineRef with
  | none => pure ()
  | some name =>
    match obs.pipeline name with
    | .failed => raise (.other "reading previous promotion verification Pipeline")
    | .notFound => checkPromotionRetryPriorJobs obs c
    | .found pipeline =>
      if pipeline.observedGeneration ≠ pipeline.generation ∨
          (pipeline.phase ≠ .succeeded ∧ pipeline.phase ≠ .failed ∧ pipeline.phase ≠ .cancelled) then
        promotionBlocked .promotionVerificationPending
          "Waiting for the previous verification Pipeline to observe its current specification and stop before checking changed target settings."
      else checkPromotionRetryPriorJobs obs c

/-- The attempt of a changed target. -/
def refreshedAttempt (c : Candidate Ω H) (uuid : String) (configHash : H) : Candidate Ω H :=
  { c with
    phase := .verifying
    verificationAttempt := "config-" ++ uuid
    verificationPipelineRef := none
    verificationStartedAt := none
    verificationConfigHash := some configHash
    message := "Target settings changed; waiting for fresh upstream verification." }

def refreshPromotionVerification (hash : Spec Ω → H) (obs : Observation Ω H) (c : Candidate Ω H) (configHash : H) :
    Reconcile Ω H Unit := do
  checkPromotionRefreshPriorExecution obs c
  checkPromotionRetryPipeline obs (refreshedAttempt c obs.uuid configHash)
  activatePromotionAttempt hash obs c (refreshedAttempt c obs.uuid configHash) "" none

/-! ### The candidate -/

/-- The candidate that `selectPromotionCandidate` selects. -/
def newPromotionCandidate (source : SourceKey) : Candidate Ω H :=
  { source := source
    phase := .verifying
    verificationPipelineRef := none
    verificationConfigHash := none
    verificationAttempt := ""
    consumedVerificationAttempts := []
    verificationStartedAt := none
    message := "" }

def selectPromotionCandidate (hash : Spec Ω → H) (obs : Observation Ω H) (ref : Reference) (upstream : UpstreamObject)
    (release : ReleaseObject) : Reconcile Ω H Unit := do
  let app ← copy
  if activePromotionCandidateChanged app.status.promotion upstream release then
    modifyCandidate (fun c => { c with phase := .failed })
    write (.note .rejected)
    promotionBlocked .upstreamCandidateChanged
      "The upstream Application advanced or changed identity during verification; this candidate was rejected."
  else
    match promotionSourceReady upstream release obs.source.unready with
    | some message => promotionInterrupted .upstreamNotReady message
    | none =>
      match obs.incompatible with
      | some message => promotionInterrupted .incompatiblePromotionSource message
      | none => do
        write (.note (.sourceReady (sourceKey ref upstream release)))
        if app.status.promotion.any (fun c => c.source == sourceKey ref upstream release) then
          reconcilePromotionRetry hash obs
          let c ← candidate
          if c.phase = .failed then promotionBlocked .promotionVerificationFailed c.message
        else
          update (fun app => app.setCandidate (newPromotionCandidate (sourceKey ref upstream release)))
          patchAppStatus [.selected (newPromotionCandidate (sourceKey ref upstream release))]

def preparePromotionCandidate (hash : Spec Ω → H) (obs : Observation Ω H) : Reconcile Ω H Unit := do
  let source ← promotionSourceApplication obs
  let release ← promotionSourceRelease obs source.2
  selectPromotionCandidate hash obs source.1 source.2 release

def Candidate.startVerification (configHash : H) (c : Candidate Ω H) : Candidate Ω H :=
  { c with phase := .verifying, verificationStartedAt := none, verificationConfigHash := some configHash }

/-- The cases of `preparePromotionVerification`. -/
def targetPromotionVerification (hash : Spec Ω → H) (obs : Observation Ω H) : Reconcile Ω H Unit := do
  let app ← copy
  let c ← candidate
  if c.verificationConfigHash = some (hash app.spec) then pure ()
  else if c.verificationConfigHash.isSome then refreshPromotionVerification hash obs c (hash app.spec)
  else modifyCandidate (Candidate.startVerification (hash app.spec))

/-- `preparePromotionVerification`; it answers the hash of the specification. -/
def preparePromotionVerification (hash : Spec Ω → H) (obs : Observation Ω H) : Reconcile Ω H H := do
  let app ← copy
  targetPromotionVerification hash obs
  write (.note (.verifying (hash app.spec)))
  pure (hash app.spec)

/-! ### Tests and gates -/

/-- The candidate takes over what `promotionTestPipelineReady` makes of it. -/
def judgePromotionTests (existing : PipelineObject Ω H) (expected : Tests Ω) (c : Candidate Ω H) :
    Reconcile Ω H Bool := do
  update (fun app => app.setCandidate (promotionTestPipelineReady c existing expected).2)
  if (promotionTestPipelineReady c existing expected).1 then
    write (.note (.testsSucceeded existing))
    pure true
  else pure false

def reconcilePromotionTests (obs : Observation Ω H) : Reconcile Ω H Bool := do
  let app ← copy
  let c ← candidate
  match app.spec.tests with
  | none => pure true
  | some tests =>
    if tests.steps.isEmpty then pure true
    else
      match obs.pipeline (promotionPipelineName c (some tests)) with
      | .failed => raise (.other "getting promotion verification Pipeline")
      | .notFound =>
        if obs.pipelineCreated then do
          modifyCandidate (fun c =>
            { c with
              verificationPipelineRef := some (promotionPipelineName c (some tests))
              message := "Waiting for upstream integration tests." })
          pure false
        else raise (.other "creating promotion verification Pipeline")
      | .found existing =>
        if promotionTestPipelineMatches c existing (promotionTestPipeline c tests) then
          judgePromotionTests existing (promotionTestPipeline c tests)
            { c with verificationPipelineRef := some (promotionPipelineName c (some tests)) }
        else do
          modifyCandidate (fun c =>
            { c with
              phase := .failed
              message := "The verification Pipeline does not match this Application and immutable upstream candidate." })
          pure false

/-- `candidate.VerificationStartedAt` is set, unless it is already. -/
def stampPromotion (now : Int) : Reconcile Ω H Unit := do
  let c ← candidate
  if c.verificationStartedAt = none then do
    modifyCandidate (fun c => { c with verificationStartedAt := some now })
    write (.note (.stamped now))

/-- The loop of `verifyPromotionGates`; `i` is the position of the next gate. -/
def verifyGatesFrom (obs : Observation Ω H) (now : Int) : Nat → List GateConfig → Reconcile Ω H Unit
  | _, [] => pure ()
  | i, config :: rest => do
    match config.type with
    | .duration =>
      let c ← candidate
      if c.verificationStartedAt.any (fun startedAt => promotionObservationDurationElapsed config startedAt now) then
        verifyGatesFrom obs now (i + 1) rest
      else
        promotionBlocked .promotionVerificationPending
          "Waiting for the upstream observation duration before promotion."
    | .smokeTest =>
      match obs.gate i with
      | none =>
        write (.note (.gatePassed config))
        verifyGatesFrom obs now (i + 1) rest
      | some message =>
        modifyCandidate (fun c => { c with phase := .failed })
        promotionBlocked .promotionGateFailed ("An upstream verification gate failed: " ++ message)

def verifyPromotionGates (obs : Observation Ω H) (now : Int) : Reconcile Ω H Unit := do
  let app ← copy
  let c ← candidate
  if c.phase = .awaitingApproval then pure ()
  else
    stampPromotion now
    verifyGatesFrom obs now 0 app.spec.gates

def promotionDurationPending (now : Int) : List GateConfig → Reconcile Ω H Bool
  | [] => pure false
  | gate :: rest => do
    match gate.type with
    | .smokeTest => promotionDurationPending now rest
    | .duration =>
      stampPromotion now
      let c ← candidate
      if c.verificationStartedAt.any (fun startedAt => promotionObservationDurationElapsed gate startedAt now) then
        promotionDurationPending now rest
      else pure true

/-! ### Completion -/

def markPromotionReady (app : Application Ω H) : Application Ω H :=
  (app.mapCandidate (fun c =>
    { c with phase := .ready, message := "Upstream release verified and ready for deployment." })).setCondition true

def persistReadyPromotion (hash : Spec Ω → H) (facts : List (Fact Ω H)) : Reconcile Ω H Unit := do
  let app ← copy
  write (.writeReadyPromotion app.generation (hash app.spec) app.status facts)

def persistMarkedReady (hash : Spec Ω → H) : Reconcile Ω H Unit := do
  update markPromotionReady
  persistReadyPromotion hash []

def restoreReadyPromotion (hash : Spec Ω → H) : Reconcile Ω H Unit := do
  let app ← copy
  if app.status.promotionReady = some true then pure ()
  else persistMarkedReady hash

/-- What `completePromotionVerification` does when the source is no longer what it was. -/
def rejectChangedCandidate : Failure → Reconcile Ω H Unit
  | .blocked .upstreamCandidateChanged message => do
    modifyCandidate (fun c => { c with phase := .failed })
    write (.note .rejected)
    promotionBlocked .upstreamCandidateChanged message
  | failure => raise failure

def consumeManualApproval (hash : Spec Ω → H) (c : Candidate Ω H) : Reconcile Ω H Unit := do
  let app ← copy
  if app.spec.syncPolicy = .manual then consumePromotionApproval hash c.source.releaseUID else pure ()

def completePromotionVerification (hash : Spec Ω → H) (obs : Observation Ω H) (configHash : H) :
    Reconcile Ω H Bool := do
  modifyCandidate (fun c => { c with verificationConfigHash := some configHash })
  let c ← candidate
  handle (revalidatePromotionSource c obs.sourceAtCompletion) rejectChangedCandidate
  let app ← copy
  if app.spec.syncPolicy = .manual ∧ app.approval ≠ c.source.releaseUID then
    modifyCandidate (fun c => { c with phase := .awaitingApproval })
    waitForPromotion hash .promotionAwaitingApproval
      "Approve this candidate by setting paprika.io/promote to its sourceReleaseUID."
  else
    consumeManualApproval hash c
    persistMarkedReady hash
    pure false

/-- What `reconcilePromotionTrigger` does once the candidate is selected and the target is known. -/
def verifyPromotionCandidate (hash : Spec Ω → H) (obs : Observation Ω H) (now : Int) (configHash : H) :
    Reconcile Ω H Bool := do
  let app ← copy
  let c ← candidate
  match c.phase with
  | .complete => pure false
  | .ready =>
    let pending ← promotionDurationPending now app.spec.gates
    if pending then
      waitForPromotion hash .promotionObservationPending
        "Waiting for a fresh uninterrupted upstream observation window before admission."
    else
      restoreReadyPromotion hash
      pure false
  | .verifying | .awaitingApproval | .promoting | .failed =>
    let ready ← reconcilePromotionTests obs
    if ready then
      verifyPromotionGates obs now
      completePromotionVerification hash obs configHash
    else
      let c ← candidate
      waitForPromotion hash .promotionVerificationPending c.message

def handlePromotionTriggerError (hash : Spec Ω → H) : Failure → Reconcile Ω H Bool
  | .blocked reason message => waitForPromotion hash reason message
  | .other message => raise (.other message)

def noteLeftReady (now : Int) : Reconcile Ω H Unit := do
  let app ← copy
  match app.status.promotion with
  | some c =>
    if c.phase = .ready ∧ app.status.promotionReady = some true then write (.note (.left c app.spec now))
    else pure ()
  | none => pure ()

/-- `reconcilePromotionTrigger`.  The errors that it hands to `handlePromotionTriggerError` are exactly the blocked ones
of its parts. -/
def reconcilePromotionTrigger (hash : Spec Ω → H) (obs : Observation Ω H) (now : Int) : Reconcile Ω H Bool := do
  let app ← copy
  if promotionTriggerNeedsVerification app then
    write (.note (.began (hash app.spec)))
    let stop ← handle
      (do
        preparePromotionCandidate hash obs
        let configHash ← preparePromotionVerification hash obs
        verifyPromotionCandidate hash obs now configHash)
      (handlePromotionTriggerError hash)
    noteLeftReady now
    pure stop
  else pure false

end Paprika.Promotion
