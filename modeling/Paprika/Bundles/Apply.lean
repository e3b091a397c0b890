import Paprika.Bundles.Types
import Paprika.Lib.Run

/-!
# Bundles: the calls

`ApplyBundle` of `apply_bundle.go` as a program that makes one request to the API server at a time.

* `Pc` — which request a call makes next, with what it has read so far; `advance` — what the request and its answer do;
* `request` — a request of a call that no one interferes with.
-/

namespace Paprika.Bundles

open Lib Lib.ApiObject

/-- What the calls and the controllers share. -/
structure Cluster where
  ns : ApiObject Unit
  application : ApiObject Application
  stage : ApiObject Stage
  release : String → ApiObject Release
  snapshot : String → ApiObject Snapshot

/-! ### A call -/

/-- An error, a bundle that is blocked or only simulated, or the release that the bundle is at. -/
inductive Result where
  | error
  | skipped
  | applied (release : String)
  deriving DecidableEq

/-- What `ensureStage` is called for: the release that the Application has already, or a new one. -/
structure Target where
  app : Application
  found : Bool

/-- The next request of a call; `retries` is how often a conflict makes it read again. -/
inductive Pc where
  | getNamespace
  | createNamespace
  | preflight
  | findApplication
  | findRelease (app : Application)
  | preflightStage
  | getApplication
  | createApplication
  | readApplication (retries : Nat)
  | updateApplication (retries version : Nat) (existing : Application)
  | createStage (t : Target)
  | readStage (t : Target) (retries : Nat)
  | updateStage (t : Target) (retries version : Nat) (stage : Stage)
  | createRelease (app : Application)
  | createSnapshot (app : Application)
  | readRelease (app : Application) (retries : Nat)
  | updateRelease (app : Application) (retries version : Nat) (status : ReleaseStatus)
  | readReference (app : Application) (retries : Nat)
  | updateReference (app : Application) (retries version : Nat) (status : ApplicationStatus)
  | readPrevious (previous : String) (retries : Nat)
  | updatePrevious (previous : String) (retries version : Nat) (status : ReleaseStatus)
  | cleanUp
  | done (result : Result)

def Pc.fail : Pc := .done .error

/-- `retry.DefaultRetry` makes five attempts. -/
def defaultRetries : Nat := 4

def retryOnConflict (retries : Nat) (again : Nat → Pc) (giveUp : Pc) : Pc :=
  match retries with
  | 0 => giveUp
  | n + 1 => again n

namespace Setup

variable (S : Setup) (r : Request)

def targetRelease (t : Target) : String := if t.found then t.app.status.releaseRef else S.releaseName r

def stageLabels (t : Target) : List (String × String) := S.baseLabels (S.targetRelease r t) r.projectName

/-- After the evaluation of the bundle. -/
def evaluated : Pc :=
  match r.evaluation with
  | .error => .fail
  | .blocked => .done .skipped
  | .passed _ => if r.dryRun then .done .skipped else .findApplication

/-- After `ensureStage`. -/
def stageReady (t : Target) : Pc :=
  if t.found then .done (.applied (S.targetRelease r t)) else .createRelease t.app

def referenceWritten (app : Application) : Pc :=
  if app.status.releaseRef ≠ "" ∧ app.status.releaseRef ≠ S.releaseName r then
    .readPrevious app.status.releaseRef defaultRetries
  else .done (.applied (S.releaseName r))

/-- The Application with what `createOrUpdateApplication` writes over `stored`. -/
def updatedApplication (existing stored : Application) : Application :=
  { stored with labels := setLabels existing.labels (applicationLabels r), spec := S.applicationSpec r }

/-- After an answer to a creation. -/
def onReply (reply : Reply) (ok alreadyExists conflict error : Pc) : Pc :=
  match reply with
  | .ok => ok
  | .alreadyExists => alreadyExists
  | .conflict => conflict
  | .error => error

/-- The next request, its effect and what the call does with the answer. -/
def advance (c : Cluster) (o : Outcome) : Pc → Pc × Cluster
  | .getNamespace =>
    match get c.ns o with
    | .error => (.fail, c)
    | .notFound => (.createNamespace, c)
    | .found _ _ => (.preflight, c)
  | .createNamespace =>
    let answer := create c.ns () o
    (onReply answer.1 .preflight .fail .fail .fail, { c with ns := answer.2 })
  | .preflight =>
    match get c.application o with
    | .error => (.fail, c)
    | .notFound => (evaluated r, c)
    | .found _ app => (if validateLegacyBundleApplication app then evaluated r else .fail, c)
  | .findApplication =>
    match get c.application o with
    | .error => (.fail, c)
    | .notFound => (.preflightStage, c)
    | .found _ app =>
      (if !validateLegacyBundleApplication app then .fail
        else if app.status.releaseRef = "" then .preflightStage
        else .findRelease app, c)
  | .findRelease app =>
    match get (c.release app.status.releaseRef) o with
    | .error => (.fail, c)
    | .notFound => (.preflightStage, c)
    | .found _ release =>
      (if release.status.phase = .complete ∧ release.bundleSHA = S.sha r.bundle then .createStage ⟨app, true⟩
        else .preflightStage, c)
  | .preflightStage =>
    match get c.stage o with
    | .error => (.fail, c)
    | .notFound => (.getApplication, c)
    | .found _ stage => (if S.preflightOwners stage.owners then .getApplication else .fail, c)
  | .getApplication =>
    match get c.application o with
    | .error => (.fail, c)
    | .notFound => (.createApplication, c)
    | .found _ _ => (.readApplication defaultRetries, c)
  | .createApplication =>
    let answer := create c.application (S.buildApplication r) o
    (onReply answer.1 (.createStage ⟨S.buildApplication r, false⟩) .fail .fail .fail, { c with application := answer.2 })
  | .readApplication retries =>
    match get c.application o with
    | .error => (.fail, c)
    | .notFound => (.fail, c)
    | .found version existing =>
      (if validateLegacyBundleApplication existing then .updateApplication retries version existing else .fail, c)
  | .updateApplication retries version existing =>
    let answer := update c.application version (S.updatedApplication r existing) o
    (onReply answer.1 (.createStage ⟨answer.2.current.getD existing, false⟩) .fail
      (retryOnConflict retries .readApplication .fail) .fail, { c with application := answer.2 })
  | .createStage t =>
    let answer := create c.stage { labels := labelsOf (S.stageLabels r t), owners := [S.controllerOwner t.app] } o
    (onReply answer.1 (S.stageReady r t) (.readStage t defaultRetries) .fail .fail, { c with stage := answer.2 })
  | .readStage t retries =>
    match get c.stage o with
    | .error => (.fail, c)
    | .notFound => (.fail, c)
    | .found version stage =>
      match repairApplicationControllerOwner stage.owners (S.controllerOwner t.app) with
      | none => (.fail, c)
      | some owners =>
        (if owners = stage.owners ∧ labelsChanged stage.labels (S.stageLabels r t) = false then S.stageReady r t
          else .updateStage t retries version { labels := repairLabels stage.labels (S.stageLabels r t), owners := owners }, c)
  | .updateStage t retries version stage =>
    let answer := update c.stage version (fun _ => stage) o
    (onReply answer.1 (S.stageReady r t) .fail (retryOnConflict retries (.readStage t) .fail) .fail,
      { c with stage := answer.2 })
  | .createRelease app =>
    let answer := create (c.release (S.releaseName r)) (S.buildRelease r app) o
    (onReply answer.1 (.createSnapshot app) .fail .fail .fail,
      { c with release := Function.update c.release (S.releaseName r) answer.2 })
  | .createSnapshot app =>
    let name := snapshotName (S.releaseName r)
    let answer := create (c.snapshot name) (S.buildSnapshot r) o
    (onReply answer.1 (.readRelease app defaultRetries) .cleanUp .cleanUp .cleanUp,
      { c with snapshot := Function.update c.snapshot name answer.2 })
  | .readRelease app retries =>
    match get (c.release (S.releaseName r)) o with
    | .error => (.cleanUp, c)
    | .notFound => (.cleanUp, c)
    | .found version release =>
      (.updateRelease app retries version { release.status with policyResults := r.policyResults }, c)
  | .updateRelease app retries version status =>
    let answer := update (c.release (S.releaseName r)) version (fun stored => { stored with status := status }) o
    (onReply answer.1 (.readReference app defaultRetries) .cleanUp (retryOnConflict retries (.readRelease app) .cleanUp)
      .cleanUp, { c with release := Function.update c.release (S.releaseName r) answer.2 })
  | .readReference app retries =>
    match get c.application o with
    | .error => (.cleanUp, c)
    | .notFound => (.cleanUp, c)
    | .found version fresh =>
      (if validateLegacyBundleApplication fresh then
          .updateReference app retries version { fresh.status with releaseRef := S.releaseName r }
        else .cleanUp, c)
  | .updateReference app retries version status =>
    let answer := update c.application version (fun stored => { stored with status := status }) o
    (onReply answer.1 (S.referenceWritten r app) .cleanUp (retryOnConflict retries (.readReference app) .cleanUp) .cleanUp,
      { c with application := answer.2 })
  | .readPrevious previous retries =>
    match get (c.release previous) o with
    | .error => (.done (.applied (S.releaseName r)), c)
    | .notFound => (.done (.applied (S.releaseName r)), c)
    | .found version release =>
      (if isTerminalReleasePhase release.status.phase then
          .updatePrevious previous retries version { release.status with phase := .superseded }
        else .done (.applied (S.releaseName r)), c)
  | .updatePrevious previous retries version status =>
    let answer := update (c.release previous) version (fun stored => { stored with status := status }) o
    (onReply answer.1 (.done (.applied (S.releaseName r))) (.done (.applied (S.releaseName r)))
      (retryOnConflict retries (.readPrevious previous) (.done (.applied (S.releaseName r))))
      (.done (.applied (S.releaseName r))), { c with release := Function.update c.release previous answer.2 })
  | .cleanUp =>
    (.fail, { c with release := Function.update c.release (S.releaseName r) (delete (c.release (S.releaseName r)) o) })
  | .done result => (.done result, c)

/-- A request of a call that no one interferes with. -/
def request (s : Pc × Cluster) (o : Outcome) : Pc × Cluster := S.advance r s.2 o s.1

end Setup

end Paprika.Bundles
