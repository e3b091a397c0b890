import Paprika.Promotion.Types

/-!
# Promotion: the decisions

The functions of `application_promotion.go`, `application_promotion_retry.go` and `application_trigger_policy.go` that
only look at their arguments: what counts as a ready source, as the same candidate, as the Pipeline of a candidate, as
a retry request, and what a wait does to the candidate.
-/

namespace Paprika.Promotion

open Pipelines

variable {Ω H : Type} [DecidableEq Ω] [DecidableEq H]

def promotionTriggered (app : Application Ω H) : Bool :=
  app.spec.trigger.any (fun trigger => trigger.type == .promotion)

def promotionTriggerNeedsVerification (app : Application Ω H) : Bool :=
  promotionTriggered app && app.status.promotion.all (fun c => c.phase != .promoting)

def promotionReady (app : Application Ω H) : Bool :=
  promotionTriggered app && app.status.promotion.any (fun c => c.phase == .ready)

/-- `app.Spec.Trigger.Gates` and `app.Spec.Trigger.Tests`. -/
def Spec.gates (spec : Spec Ω) : List GateConfig := spec.trigger.elim [] (·.gates)

def Spec.tests (spec : Spec Ω) : Option (Tests Ω) := spec.trigger.bind (·.tests)

/-! ### The source -/

def sourceKey (ref : Reference) (upstream : UpstreamObject) (release : ReleaseObject) : SourceKey :=
  { application := ref, applicationUID := upstream.uid, release := release.name, releaseUID := release.uid,
    revision := release.revision }

/-- `promotionCandidateIdentityChanged`: only positive evidence counts. -/
def promotionCandidateIdentityChanged (c : Candidate Ω H) (upstream : UpstreamObject) (release : ReleaseObject) : Bool :=
  (upstream.uid != "" && c.source.applicationUID != upstream.uid) ||
    (upstream.releaseRef != "" && c.source.release != upstream.releaseRef) ||
    (release.uid != "" && c.source.releaseUID != release.uid) ||
    (release.revision != "" && c.source.revision != release.revision)

def activePromotionCandidateChanged (promotion : Option (Candidate Ω H)) (upstream : UpstreamObject)
    (release : ReleaseObject) : Bool :=
  promotion.any (fun c => c.source.releaseUID != "" && c.phase != .complete && c.phase != .failed &&
    promotionCandidateIdentityChanged c upstream release)

/-- `promotionSourceReady`: the checks that fix the identity of the source, and then whatever the others report. -/
def promotionSourceReady (upstream : UpstreamObject) (release : ReleaseObject) (unready : Option String) :
    Option String :=
  if upstream.uid = "" then
    some "the upstream Application has not completed reconciliation of its current specification"
  else if release.uid = "" ∨ release.name ≠ upstream.releaseRef then
    some "the upstream release has not completed its current specification"
  else if release.revision = "" then
    some "the upstream release does not identify the exact deployed Git commit"
  else unready

/-! ### Duration gates -/

/-- The duration of a gate in nanoseconds, in 64 bits as the source computes it. -/
def observationDuration (config : GateConfig) : Int :=
  if (config.timeout * 1000000000).bmod 18446744073709551616 ≤ 0 then 60000000000
  else (config.timeout * 1000000000).bmod 18446744073709551616

def promotionObservationDurationElapsed (config : GateConfig) (startedAt now : Int) : Bool :=
  observationDuration config ≤ (now - startedAt) * 1000000000

/-! ### The verification Pipeline -/

def promotionPipelineName (c : Candidate Ω H) (tests : Option (Tests Ω)) : PipelineIdentity Ω H :=
  { sourceApplicationUID := c.source.applicationUID, sourceReleaseUID := c.source.releaseUID, tests := tests,
    attempt := if c.verificationAttempt = "" then none
      else some (c.verificationAttempt, c.verificationConfigHash) }

def quote (value : String) : String := "'" ++ value.replace "'" "'\\''" ++ "'"

def promotionTestEnvironment (c : Candidate Ω H) : String :=
  "export PAPRIKA_PROMOTION_REVISION=" ++ quote c.source.revision ++ "\n" ++
  "export PAPRIKA_PROMOTION_SOURCE_APPLICATION=" ++ quote c.source.application.name ++ "\n" ++
  "export PAPRIKA_PROMOTION_SOURCE_NAMESPACE=" ++ quote c.source.application.ns ++ "\n" ++
  "export PAPRIKA_PROMOTION_SOURCE_RELEASE=" ++ quote c.source.release ++ "\n" ++
  (if c.verificationAttempt = "" then ""
    else "export PAPRIKA_PROMOTION_ATTEMPT=" ++ quote c.verificationAttempt ++ "\n")

def promotionTestPipeline (c : Candidate Ω H) (tests : Tests Ω) : Tests Ω :=
  { tests with
    steps := tests.steps.map (fun step => { step with script := promotionTestEnvironment c ++ step.script }) }

def promotionTestPipelineMatches (c : Candidate Ω H) (existing : PipelineObject Ω H) (expected : Tests Ω) : Bool :=
  existing.controlled && existing.attempt == c.verificationAttempt &&
    (c.verificationAttempt == "" || existing.configHash == c.verificationConfigHash) &&
    existing.sourceReleaseUID == c.source.releaseUID && existing.sourceApplicationUID == c.source.applicationUID &&
    existing.revision == c.source.revision && existing.spec == expected

def allStepsSucceeded (existing : PipelineObject Ω H) (expected : Tests Ω) : Bool :=
  expected.steps.all (fun step => phaseOf existing.stepStatuses step.name == some .succeeded)

/-- `promotionTestPipelineReady` with `promotionTestStepsReady`: the verdict and the candidate after it. -/
def promotionTestPipelineReady (c : Candidate Ω H) (existing : PipelineObject Ω H) (expected : Tests Ω) :
    Bool × Candidate Ω H :=
  match existing.phase with
  | .failed | .cancelled =>
    (false, { c with phase := .failed, message := "Upstream integration tests failed or were cancelled." })
  | .succeeded =>
    if existing.observedGeneration ≠ existing.generation then
      (false, { c with message := "Waiting for integration tests to observe their current specification." })
    else if allStepsSucceeded existing expected then (true, c)
    else
      (false, { c with phase := .failed, message := "Every integration test step must succeed before promotion." })
  | .running | .pending | .unset => (false, { c with message := "Waiting for upstream integration tests." })

/-! ### Waiting -/

def promotionObservationInterrupted : Reason → Bool
  | .upstreamNotReady | .upstreamUnavailable | .invalidPromotionChain | .incompatiblePromotionSource => true
  | _ => false

def promotionReadyMayWait (hash : Spec Ω → H) (app : Application Ω H) (reason : Reason) : Bool :=
  (reason == .upstreamNotReady || reason == .upstreamUnavailable || reason == .promotionObservationPending) &&
    app.status.promotion.any (fun c => c.phase == .ready && c.verificationConfigHash == some (hash app.spec))

/-- A finding about the upstream ends the observation. -/
def Candidate.observed (reason : Reason) (c : Candidate Ω H) : Candidate Ω H :=
  if promotionObservationInterrupted reason then { c with verificationStartedAt := none } else c

/-- A candidate that was ready, or waited for its approval, is verified again. -/
def Candidate.demoted (reason : Reason) (c : Candidate Ω H) : Candidate Ω H :=
  if (c.phase = .ready ∨ c.phase = .awaitingApproval) ∧ reason ≠ .promotionAwaitingApproval then
    { c with phase := .verifying, verificationStartedAt := none }
  else c

def updateWaitingPromotionCandidate (reason : Reason) (message : String) (c : Candidate Ω H) : Candidate Ω H :=
  if (c.demoted reason).phase ≠ .failed ∨ (c.demoted reason).message = "" ∨ reason = .upstreamCandidateChanged ∨
      reason = .promotionGateFailed then
    { c.demoted reason with message := message }
  else c.demoted reason

/-! ### Retry requests -/

def promotionRetryLimit : Nat := 32

/-- `strings.Cut` at the first colon. -/
def cutColon : List Char → Option (List Char × List Char)
  | [] => none
  | ch :: rest =>
    if ch = ':' then some ([], rest) else (cutColon rest).map (fun parts => (ch :: parts.1, parts.2))

def isLowerHex (ch : Char) : Bool := ch.isDigit || ('a' ≤ ch && ch ≤ 'f')

/-- `validPromotionRetryToken`: a lower-case UUID other than the nil one. -/
def validPromotionRetryToken (token : String) : Bool :=
  let chars := token.toList
  chars.length == 36 && chars[8]? == some '-' && chars[13]? == some '-' && chars[18]? == some '-' &&
    chars[23]? == some '-' && (chars.filter (fun ch => ch != '-')).length == 32 &&
    (chars.filter (fun ch => ch != '-')).all isLowerHex && token != "00000000-0000-0000-0000-000000000000"

def promotionRetryRequest (request : String) : Option (String × String) :=
  match cutColon request.toList with
  | none => none
  | some (uid, token) =>
    if uid.isEmpty || !validPromotionRetryToken (String.ofList token) then none
    else some (String.ofList uid, String.ofList token)

def promotionRetryAlreadyConsumed (c : Candidate Ω H) (token : String) : Bool :=
  token == c.verificationAttempt || c.consumedVerificationAttempts.contains token

def acceptedPromotionReleaseMatches (hash : Spec Ω → H) (app : Application Ω H) (c : Candidate Ω H)
    (release : AdmittedRelease H) : Bool :=
  match app.status.acceptedDeployment with
  | none => false
  | some accepted =>
    let configHash := hash (if promotionTriggered app then accepted else app.spec)
    app.status.sourceRevision == c.source.revision && release.active &&
      c.verificationConfigHash == some configHash && release.configHash == some configHash &&
      release.source == c.source && c.source.revision != "" && c.source.application.name != "" &&
      c.source.application.ns != "" && c.source.applicationUID != "" && c.source.release != "" &&
      c.source.releaseUID != ""

def promotionDeploymentIntentChanged (app : Application Ω H) (c : Candidate Ω H) : Bool :=
  app.status.acceptedDeployment != some app.spec || app.status.sourceRevision != c.source.revision

end Paprika.Promotion
