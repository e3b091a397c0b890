import Paprika.Promotion.Verification

/-!
# Promotion: admission and the release

`beginVerifiedPromotion` (`application_trigger_policy.go`), one reconcile as a whole, and what the delivery path later
does to the candidate.  `rules` puts them together: the processes that write to the store, one at a time, and the edits
in between.
-/

namespace Paprika.Promotion

open Lib.Process Lib.Process.Routine Lib.Run

variable {Ω H : Type} [DecidableEq Ω] [DecidableEq H]

def startNewReleaseFlow (obs : Observation Ω H) : Reconcile Ω H Unit :=
  if obs.releaseWindowAllows && obs.releaseCleared then do
    update (fun app => { app with status := { app.status with releaseRef := "" } })
    patchAppStatus []
  else if obs.releaseWindowAllows then pure ()
  else patchAppStatus []

/-- The accepted deployment becomes the specification, at the revision of the candidate. -/
def activateDeploymentIntent (c : Candidate Ω H) (app : Application Ω H) : Application Ω H :=
  { app with
    status := { app.status with acceptedDeployment := some app.spec, sourceRevision := c.source.revision } }

/-- `beginVerifiedPromotion`, with `validateVerifiedPromotionConfiguration` and `promotionAdmissionHold`. -/
def beginVerifiedPromotion (hash : Spec Ω → H) (obs : Observation Ω H) : Reconcile Ω H Bool := do
  let app ← copy
  if promotionReady app then
    let c ← candidate
    if app.spec.stages = [] then raise (.other "promotion requires a deployment stage")
    else if c.verificationConfigHash ≠ some (hash app.spec) then
      raise (.other "promotion deployment settings changed after verification")
    else if app.status.promotionReady = some false then holdVerifiedPromotion
    else if !obs.windowAllows then holdVerifiedPromotion
    else if app.status.releaseRef ≠ "" then
      write (.note (.accepted c app.spec))
      startNewReleaseFlow obs
      pure true
    else if promotionDeploymentIntentChanged app c then
      update (activateDeploymentIntent c)
      persistReadyPromotion hash [.accepted c app.spec]
      pure false
    else pure false
  else pure false

def prepareApplicationDeployment (hash : Spec Ω → H) (obs : Observation Ω H) (now : Int) : Reconcile Ω H Unit := do
  let stop ← reconcilePromotionTrigger hash obs now
  if stop then pure ()
  else
    let _ ← beginVerifiedPromotion hash obs
    pure ()

/-! ### The release -/

/-- The phases of a Release, as far as `updatePromotionReleasePhase` tells them apart. -/
inductive ReleaseProgress
  | active
  | complete
  | ended (phase : String)
  deriving DecidableEq

def markPromotionStarted (release : String) (app : Application Ω H) : Application Ω H :=
  let created := { app with status := { app.status with releaseRef := release } }
  if promotionReady app then
    created.mapCandidate (fun c => { c with phase := .promoting, message := "Deploying the verified upstream revision" })
  else created

def promotionTracksRelease (hash : Spec Ω → H) (app : Application Ω H) (c : Candidate Ω H)
    (release : AdmittedRelease H) : Bool :=
  promotionTriggered app &&
    match c.phase with
    | .promoting => true
    | .failed => acceptedPromotionReleaseMatches hash app c release
    | .verifying | .awaitingApproval | .ready | .complete => false

def markAcceptedPromotionRetry (app : Application Ω H) : Application Ω H :=
  if app.status.promotion.any (fun c => c.phase == .failed) then
    (app.mapCandidate (fun c =>
      { c with phase := .promoting, message := "Retrying the already accepted promoted release" })).setCondition true
  else app

def updatePromotionReleasePhase (hash : Spec Ω → H) (release : AdmittedRelease H) (progress : ReleaseProgress)
    (app : Application Ω H) : Application Ω H :=
  if app.status.promotion.any (fun c => promotionTracksRelease hash app c release) then
    match progress with
    | .active => markAcceptedPromotionRetry app
    | .complete => (markAcceptedPromotionRetry app).mapCandidate (fun c =>
      { c with
        phase := .complete
        message := "Promoted release completed; application health is evaluated independently" })
    | .ended phase => app.mapCandidate (fun c =>
      { c with phase := .failed, message := "Promoted release ended in phase " ++ phase })
  else app

/-! ### The system -/

inductive Start (Ω H : Type)
  | reconcile (obs : Observation Ω H)
  | releaseCreated (name : String)
  | releaseObserved (release : AdmittedRelease H) (progress : ReleaseProgress)

def Start.routine (hash : Spec Ω → H) (now : Int) : Start Ω H → Reconcile Ω H Unit
  | .reconcile obs => prepareApplicationDeployment hash obs now
  | .releaseCreated name => do
    update (markPromotionStarted name)
    patchAppStatus []
  | .releaseObserved release progress => do
    update (updatePromotionReleasePhase hash release progress)
    patchAppStatus []

/-- The controller of one Application, and everybody else. -/
def rules (hash : Spec Ω → H) : Rules (Action Ω H) (Store Ω H) (Edit Ω) (Start Ω H) where
  environment e s := e.apply s
  body o s := (o.routine hash s.clock s.app).1
  perform := perform hash

/-- An Application that has not seen a candidate, and no process at work. -/
def initial (app : Application Ω H) (clock : Int) : Store Ω H :=
  { app := { app with status := { app.status with promotion := none } }, log := [], clock := clock }

/-! ### A system to look at

`prod` is promoted from `dev`; a specification is its own hash. -/

namespace Sample

def spec (policy : SyncPolicy) (gates : List GateConfig) : Spec Unit :=
  { trigger := some
      { type := .promotion, fromRef := some { name := "dev", ns := "" }, tests := none, gates := gates }
    syncPolicy := policy
    stages := ["prod"]
    settings := () }

def application (spec : Spec Unit) : Application Unit (Spec Unit) :=
  { name := { name := "prod", ns := "apps" }
    generation := 1
    spec := spec
    approval := ""
    retry := ""
    status :=
      { promotion := none, promotionReady := none, acceptedDeployment := none, sourceRevision := "", releaseRef := "" } }

/-- `dev` is ready, with a release of this name. -/
def source (release : String) : SourceObservation :=
  { application := some { uid := "dev-uid", releaseRef := release }
    release := .found { name := release, uid := release ++ "-uid", revision := release ++ "-commit" }
    unready := none }

def sourceKey (release : String) : SourceKey :=
  { application := { name := "dev", ns := "apps" }
    applicationUID := "dev-uid"
    release := release
    releaseUID := release ++ "-uid"
    revision := release ++ "-commit" }

/-- Everything is as it should be, except for what is said about the gates. -/
def observation (release : String) (gate : Option String) : Observation Unit (Spec Unit) :=
  { chain := .valid
    source := source release
    incompatible := none
    currentRelease := none
    jobsUnstopped := fun _ => none
    attemptPipeline := fun _ => .notFound
    sourceAtAttempt := source release
    uuid := "uuid"
    pipeline := fun _ => .notFound
    pipelineCreated := true
    gate := fun _ => gate
    sourceAtCompletion := source release
    windowAllows := true
    releaseWindowAllows := true
    releaseCleared := true }

def readyCandidate (release : String) (spec : Spec Unit) (startedAt : Option Int) : Candidate Unit (Spec Unit) :=
  { source := sourceKey release
    phase := .ready
    verificationPipelineRef := none
    verificationConfigHash := some spec
    verificationAttempt := ""
    consumedVerificationAttempts := []
    verificationStartedAt := startedAt
    message := "Upstream release verified and ready for deployment." }

/-- A reconcile whose writes all go through. -/
def reconcile (obs : Observation Unit (Spec Unit)) : List (Event (Edit Unit) (Start Unit (Spec Unit))) :=
  .start (.reconcile obs) :: List.replicate 12 (.go true)

def store (spec : Spec Unit) (events : List (Event (Edit Unit) (Start Unit (Spec Unit)))) : Store Unit (Spec Unit) :=
  (run (System.step (rules id)) ⟨initial (application spec) 0, []⟩ events).store

end Sample

end Paprika.Promotion
