import Mathlib.Data.List.DropRight
import Paprika.Lib.Text
import Paprika.Applications.RingAdvance

/-!
# The release flow of an Application

What one reconcile of an Application makes of its stage cursor, its release reference, its recorded source and its
releases: the source of a triggered Application, the sync trigger, the healthy phase with its promotion to the next ring,
and the release of the current stage.  Around the reconciles the release controller moves the releases, operators ask for
syncs, publishers of inline bundles replace the reference, and history is pruned.

A reconcile is one step; what it reads of the rest of the cluster is its `Observation`.  `digest` stands for the ten
hexadecimal digits that the name of a release takes from the SHA-256 sum of its identity.
-/

namespace Paprika.Applications

open Releases (ReleasePhase)

/-! ### Data -/

/-- What the naming and the flow of releases read of an Application besides `ApplicationSpec`: its name, whether its
trigger is of type `GitOps`, whether its sync policy is `Manual`, whether its source is of type `Git`, and the hash and
revision of its inline artifact. -/
structure SourceSettings where
  name : String
  gitOps : Bool
  syncManual : Bool
  git : Bool
  artifact : Option (String × String)
  deriving DecidableEq, Repr

/-- What a release is made of: the recorded source and the parameters of the Application. -/
structure Content where
  sourceHash : String
  sourceRevision : String
  parameters : List (String × String)
  deriving DecidableEq, Repr

/-- A `Release` of the Application: its target by the name of the stage, the source identity in its annotations, and the
automatic retries counted in them. -/
structure StageRelease where
  name : String
  stage : String
  content : Content
  phase : ReleasePhase
  autoRetryCount : Nat
  deriving DecidableEq, Repr

/-- `status.promotion`: whether the candidate is `Ready`, and what it is of. -/
structure Candidate where
  ready : Bool
  revision : String
  sourceApplicationUID : String
  sourceReleaseUID : String
  deriving DecidableEq, Repr

/-- The Application with its releases; `accepted` says that a deployment has been accepted, `syncTrigger` and `manualSync`
that the annotations are set. -/
structure ReleaseFlow where
  settings : SourceSettings
  app : Application
  releases : List StageRelease
  candidate : Option Candidate
  accepted : Bool
  syncTrigger : Bool
  manualSync : Bool
  deriving DecidableEq, Repr

/-- How far the build pipeline has come. -/
inductive BuildState
  | passed | running | failed
  deriving DecidableEq, Repr

/-- What one reconcile reads of the rest of the cluster: whether the promotion trigger ends it, whether the settings are
the verified ones, whether the promotion is admitted, whether the snapshot of the inline artifact is valid and whether
the current release selects it, the source as it resolves and whether resolving it timed out, whether the sync windows
allow an automatic and a manual sync, whether the management policies allow to apply, the build, whether the project
blocks it, the health of the Application and of its resources, and whether conditions of other phases are retired. -/
structure Observation where
  held : Bool
  verified : Bool
  admitted : Bool
  artifactValid : Bool
  artifactSelected : Bool
  source : Option (String × String)
  timedOut : Bool
  window : Bool
  manualWindow : Bool
  policy : Bool
  build : BuildState
  blocked : Bool
  health : HealthStatus
  resourceHealth : List (String × String)
  retired : Bool
  deriving DecidableEq, Repr

/-- The content of the releases that the Application makes now. -/
def contentOf (app : Application) : Content :=
  { sourceHash := app.status.sourceHash, sourceRevision := app.status.sourceRevision, parameters := app.spec.parameters }

namespace ReleaseFlow

def create (settings : SourceSettings) (uid : String) (spec : ApplicationSpec) : ReleaseFlow :=
  { settings := settings, app := .create uid spec, releases := [], candidate := none, accepted := false,
    syncTrigger := false, manualSync := false }

/-- `client.Get` of a Release; there is none without a name. -/
def release? (x : ReleaseFlow) (name : String) : Option StageRelease :=
  if name = "" then none else x.releases.find? (fun r => r.name == name)

def setRelease (x : ReleaseFlow) (name : String) (f : StageRelease → StageRelease) : ReleaseFlow :=
  { x with releases := x.releases.map (fun r => if r.name = name then f r else r) }

/-- `updatePhase`, `setApplicationPhase`. -/
def setPhase (x : ReleaseFlow) (phase : ApplicationPhase) : ReleaseFlow :=
  { x with app := { x.app with status := { x.app.status with phase := phase } } }

def setSource (x : ReleaseFlow) (hash revision : String) : ReleaseFlow :=
  { x with app := { x.app with status := { x.app.status with sourceHash := hash, sourceRevision := revision } } }

/-- `evaluateHealth` and `evaluateResourceHealth`. -/
def evaluate (x : ReleaseFlow) (seen : Observation) : ReleaseFlow :=
  { x with
    app := { x.app with status := { x.app.status with health := seen.health, resourceHealth := seen.resourceHealth } } }

end ReleaseFlow

def maxReleaseAutoRetries : Nat := 3

def applicationReleasePhaseTerminal : ReleasePhase → Bool
  | .complete | .failed | .rolledBack | .superseded => true
  | .unset | .pending | .promoting | .canarying | .verifying | .awaitingApproval => false

def getCurrentRelease (x : ReleaseFlow) : Option StageRelease := x.release? x.app.status.releaseRef

def getCurrentReleasePhase (x : ReleaseFlow) : ReleasePhase := ((getCurrentRelease x).map StageRelease.phase).getD .unset

def promotionReady (x : ReleaseFlow) : Bool := promotionTriggered x.app && x.candidate.any Candidate.ready

def manualSyncRequested (x : ReleaseFlow) : Bool := x.manualSync

def releaseAutoRetriesExhausted (x : ReleaseFlow) (release : StageRelease) : Bool :=
  maxReleaseAutoRetries ≤ release.autoRetryCount && release.content.sourceHash == x.app.status.sourceHash

/-! ### Names of releases -/

def maxKubernetesNameLength : Nat := 63

def cutName (length : Nat) (name : String) : String :=
  String.ofList ((name.toList.take length).rdropWhile (fun c => c == '-'))

def truncateKubernetesName (name : String) : String := cutName maxKubernetesNameLength name

def addNameSuffix (base suffix : String) : String :=
  if suffix = "" then truncateKubernetesName base
  else if maxKubernetesNameLength ≤ suffix.length + 1 then truncateKubernetesName suffix
  else if maxKubernetesNameLength - suffix.length - 1 < base.length then
    cutName (maxKubernetesNameLength - suffix.length - 1) base ++ "-" ++ suffix
  else base ++ "-" ++ suffix

def stableApplicationReleaseName (appName : String) : String := truncateKubernetesName (appName ++ "-release")

/-- `releaseParameters`: those of the stage replace those of the Application. -/
def releaseParameters (app : Application) (stage : PromotionStage) (stableReleaseName : String) : List (String × String) :=
  let params := app.spec.parameters.filter (fun p => !(stage.parameters.map Prod.fst).contains p.1) ++ stage.parameters
  if (params.map Prod.fst).contains "release-name" then params else ("release-name", stableReleaseName) :: params

/-- `appendIdentityField`. -/
def identityField (key value : String) : String := if value = "" then "" else key ++ "=" ++ value ++ "\n"

/-- `writeReleaseParametersIdentity`. -/
def releaseParametersIdentity (params : List (String × String)) : String :=
  (params.insertionSort (fun a b => a.1 ≤ b.1)).foldl (fun s p => s ++ "param:" ++ p.1 ++ "=" ++ p.2 ++ "\n") ""

/-- The stage that the identity of a release names: of an accepted deployment it is the current one, whatever stage the
release is for. -/
def identityStage (x : ReleaseFlow) (targetStage : PromotionStage) : PromotionStage :=
  if promotionTriggered x.app && x.accepted then (currentStageIn x.app).getD targetStage else targetStage

def hasReleaseIdentityInput (x : ReleaseFlow) (targetStage : PromotionStage) : Bool :=
  x.app.status.sourceHash != "" || x.app.status.sourceRevision != "" ||
    (promotionTriggered x.app && x.candidate.any (fun c => c.sourceReleaseUID != "")) ||
    !x.app.spec.parameters.isEmpty || !targetStage.parameters.isEmpty

def releaseIdentity (x : ReleaseFlow) (targetStage : PromotionStage) : String :=
  let stage := identityStage x targetStage
  if hasReleaseIdentityInput x stage then
    identityField "sourceHash" x.app.status.sourceHash ++ identityField "sourceRevision" x.app.status.sourceRevision ++
      (match x.candidate with
        | some candidate =>
          if promotionTriggered x.app then
            identityField "promotionApplicationUID" candidate.sourceApplicationUID ++
              identityField "promotionReleaseUID" candidate.sourceReleaseUID
          else ""
        | none => "") ++
      identityField "stage" stage.name ++
      releaseParametersIdentity (releaseParameters x.app stage (stableApplicationReleaseName x.settings.name))
  else ""

def multiRingIdentity (app : Application) (targetStage : PromotionStage) : String :=
  if app.spec.stages.length < 2 then "" else "ring=" ++ targetStage.name

section
variable (digest : String → String)

def applicationReleaseName (x : ReleaseFlow) (targetStage : PromotionStage) : String :=
  let base := stableApplicationReleaseName x.settings.name
  let identity :=
    if releaseIdentity x targetStage = "" then multiRingIdentity x.app targetStage else releaseIdentity x targetStage
  if identity = "" then base else addNameSuffix base (digest identity)

def releaseIdentityChanged (x : ReleaseFlow) : Bool :=
  !isInlineSource x.app && x.app.status.releaseRef != "" &&
    match currentStageIn x.app with
    | some current =>
      applicationReleaseName digest x current != "" && x.app.status.releaseRef != applicationReleaseName digest x current
    | none => false

def buildRelease (x : ReleaseFlow) (targetStage : PromotionStage) : StageRelease :=
  { name := applicationReleaseName digest x targetStage
    stage := targetStage.name
    content := contentOf x.app
    phase := .unset
    autoRetryCount := 0 }
end

/-- The source identity of a release, taken from another one where it has none. -/
def Content.inherit (next verified : Content) : Content :=
  { next with
    sourceHash := if next.sourceHash = "" then verified.sourceHash else next.sourceHash
    sourceRevision := if next.sourceRevision = "" then verified.sourceRevision else next.sourceRevision }

def inheritVerifiedRing (next verified : StageRelease) : StageRelease :=
  { next with content := next.content.inherit verified.content }

/-! ### The source -/

/-- `sourceContentHash`: what follows the last colon. -/
def sourceContentHash (hash : String) : List Char := (Lib.Text.afterLast [':'] hash.toList).getD hash.toList

def promotionSourceSelectionPending (app : Application) : Bool :=
  promotionTriggered app && app.status.sourceRevision == ""

/-- `resolveSourceHash`; there is nothing to resolve for an inline source. -/
def resolveSourceHash (seen : Observation) (x : ReleaseFlow) : Option (String × String) :=
  if isInlineSource x.app then some ("", "") else seen.source

/-- `recordResolvedSource`: the status it leaves, and whether the managed content changed; `none` is an error. -/
def recordResolvedSource (x : ReleaseFlow) (newHash newRevision : String) : Option (ReleaseFlow × Bool) :=
  if newHash = "" ∧ newRevision = "" then some (x, false)
  else if promotionTriggered x.app ∧ newRevision ≠ x.app.status.sourceRevision then none
  else if x.app.status.sourceHash ≠ "" ∧ sourceContentHash x.app.status.sourceHash = sourceContentHash newHash then
    some (x, false)
  else some (x.setSource newHash newRevision, x.app.status.sourceHash != "")

def checkSourceChanged (seen : Observation) (x : ReleaseFlow) : Option (ReleaseFlow × Bool) :=
  if promotionSourceSelectionPending x.app then some (x, false)
  else (resolveSourceHash seen x).bind (fun found => recordResolvedSource x found.1 found.2)

/-! ### A new release flow -/

/-- `supersedeCurrentRelease`: `none` while the current release is running, else the releases. -/
def supersedeCurrentRelease (x : ReleaseFlow) : Option (List StageRelease) :=
  match getCurrentRelease x with
  | some release =>
    if applicationReleasePhaseTerminal release.phase then
      some (x.setRelease release.name (fun r => { r with phase := .superseded })).releases
    else none
  | none => some x.releases

def syncWindowAllows (seen : Observation) (manual : Bool) : Bool := if manual then seen.manualWindow else seen.window

def ReleaseFlow.restart (x : ReleaseFlow) (releases : List StageRelease) (currentStage : String) : ReleaseFlow :=
  { x with
    releases := releases
    app :=
      { x.app with
        status := { x.app.status with currentStage := currentStage, releaseRef := "", phase := .pending } } }

/-- `startNewReleaseFlow`: only a manual sync keeps the stage.  Nothing is written while the current release is running. -/
def startNewReleaseFlow (seen : Observation) (manual : Bool) (x : ReleaseFlow) : ReleaseFlow :=
  if syncWindowAllows seen manual then
    match supersedeCurrentRelease x with
    | some releases => x.restart releases (if manual then x.app.status.currentStage else "")
    | none => x
  else x

def requestReleaseResync (x : ReleaseFlow) (name : String) (manual : Bool) : ReleaseFlow :=
  x.setRelease name (fun r => { r with autoRetryCount := if manual then 0 else r.autoRetryCount + 1 })

/-! ### The sync trigger -/

def syncTriggerRefreshesSource (x : ReleaseFlow) : Bool :=
  x.app.status.phase == .healthy && !isInlineSource x.app && !promotionTriggered x.app

def finishSyncTrigger (x : ReleaseFlow) : ReleaseFlow :=
  if manualSyncRequested x then (requestReleaseResync x x.app.status.releaseRef true).setPhase .pending else x

/-- `handleSyncTrigger`.  A refresh that timed out keeps the trigger. -/
def handleSyncTrigger (seen : Observation) (x : ReleaseFlow) : ReleaseFlow :=
  let consumed := { x with syncTrigger := false }
  if syncTriggerRefreshesSource x then
    if seen.timedOut then x
    else
      match (resolveSourceHash seen x).bind (fun found => recordResolvedSource consumed found.1 found.2) with
      | some (y, true) => startNewReleaseFlow seen (manualSyncRequested x) y
      | some (y, false) => finishSyncTrigger y
      | none => consumed
  else finishSyncTrigger consumed

/-! ### Before the flow: the source of a triggered Application

The parts that may end a reconcile leave `error` with what they have written. -/

def reconcilePromotionTrigger (seen : Observation) (x : ReleaseFlow) : Except ReleaseFlow ReleaseFlow :=
  if promotionTriggered x.app && seen.held then .error x else .ok x

def beginVerifiedPromotion (seen : Observation) (x : ReleaseFlow) : Except ReleaseFlow ReleaseFlow :=
  if !promotionReady x then .ok x
  else if x.app.spec.stages.isEmpty || !seen.verified then .error x
  else if !seen.admitted then .error (if x.app.status.releaseRef = "" then x else x.evaluate seen)
  else if x.app.status.releaseRef ≠ "" then .error (startNewReleaseFlow seen false x)
  else
    match x.candidate with
    | some candidate =>
      if !x.accepted || x.app.status.sourceRevision ≠ candidate.revision then
        .ok { x.setSource "" candidate.revision with accepted := true }
      else .ok x
    | none => .ok x

def prepareInlineArtifactSource (seen : Observation) (x : ReleaseFlow) : Except ReleaseFlow ReleaseFlow :=
  match x.settings.artifact with
  | some (hash, revision) =>
    if !isInlineSource x.app then .ok x
    else if !seen.artifactValid then .error (x.setPhase .failed)
    else if promotionReady x || ((getCurrentRelease x).any (fun release =>
        release.content.sourceHash == hash && release.content.sourceRevision == revision) && seen.artifactSelected) then
      .ok (x.setSource hash revision)
    else .ok x
  | none => .ok x

def triggeredSourceEligible (x : ReleaseFlow) : Bool :=
  if !(x.settings.gitOps || x.app.spec.trigger != .none) || isInlineSource x.app then false
  else if promotionTriggered x.app then promotionReady x
  else if (manualTriggered x.app || x.settings.syncManual) && !manualSyncRequested x then false
  else x.app.status.sourceHash == "" || manualSyncRequested x

def triggeredSourceNeedsResolution (x : ReleaseFlow) : Bool :=
  x.app.status.sourceHash == "" || (!promotionTriggered x.app && manualSyncRequested x)

def resolveTriggeredSource (seen : Observation) (x : ReleaseFlow) : Except ReleaseFlow ReleaseFlow :=
  match checkSourceChanged seen x with
  | some (y, changed) =>
    if y.app.status.sourceHash = "" ∨ (x.settings.git = true ∧ y.app.status.sourceRevision = "") then .error y
    else if changed && !promotionTriggered x.app && x.app.status.releaseRef != "" then
      .error (startNewReleaseFlow seen true y)
    else .ok y
  | none => .error x

section
variable (digest : String → String)

def prepareTriggeredSource (seen : Observation) (x : ReleaseFlow) : Except ReleaseFlow ReleaseFlow :=
  if triggeredSourceEligible x then
    (if triggeredSourceNeedsResolution x then resolveTriggeredSource seen x else .ok x).bind fun y =>
      if promotionReady y && y.app.status.releaseRef != "" && releaseIdentityChanged digest y then
        .error (startNewReleaseFlow seen false y)
      else .ok y
  else .ok x

/-- `prepareReconcile`; the source is prepared twice in a row. -/
def prepareReconcile (seen : Observation) (x : ReleaseFlow) : Except ReleaseFlow ReleaseFlow :=
  (reconcilePromotionTrigger seen x).bind fun x =>
    (beginVerifiedPromotion seen x).bind fun x =>
      (prepareInlineArtifactSource seen x).bind fun x =>
        (prepareTriggeredSource digest seen x).bind fun x => prepareTriggeredSource digest seen x

/-! ### The healthy phase -/

/-- `finishCompletedRing`, with `promoteToNextRing`: the release of the next ring is created where there is none of its
name. -/
def finishCompletedRing (seen : Observation) (x : ReleaseFlow) (active : StageRelease) : ReleaseFlow :=
  let y := (x.setPhase .healthy).evaluate seen
  match promoteToNextRing (fun _ stage => applicationReleaseName digest y stage) y.app with
  | some advance =>
    if advance.release = "" then y
    else
      let release :=
        inheritVerifiedRing
          { name := advance.release, stage := advance.stage, content := contentOf y.app, phase := .unset,
            autoRetryCount := 0 }
          active
      { y with
        releases := if (y.release? advance.release).isSome then y.releases else y.releases ++ [release]
        app :=
          { y.app with
            status :=
              { y.app.status with currentStage := advance.stage, releaseRef := advance.release, phase := .promoting } } }
  | none => y

/-- The phase of the Application while its release is in a phase, and whether the release is still under way
(`handleActiveRelease`). -/
def activePhase : ReleasePhase → Option (ApplicationPhase × Bool)
  | .pending | .promoting | .awaitingApproval => some (.promoting, true)
  | .canarying => some (.canarying, true)
  | .verifying => some (.verifying, true)
  | .complete => some (.healthy, false)
  | .failed => some (.degraded, true)
  | .rolledBack => some (.rolledBack, true)
  | .unset | .superseded => none

/-- `handleActiveRelease`: what it leaves, and whether the reconcile goes on to evaluate the Application. -/
def handleActiveRelease (x : ReleaseFlow) (phase : ReleasePhase) : ReleaseFlow × Bool :=
  match activePhase phase with
  | some (appPhase, requeue) => (x.setPhase appPhase, !requeue)
  | none => (x, false)

def handleTriggeredHealthyPhase (seen : Observation) (x : ReleaseFlow) : ReleaseFlow :=
  match getCurrentRelease x with
  | some release =>
    if release.phase = .complete then finishCompletedRing digest seen x release
    else if release.phase = .unset ∨ x.app.spec.stages = [] then x.evaluate seen
    else (handleActiveRelease x release.phase).1
  | none => x.evaluate seen

def holdExhaustedRelease (seen : Observation) (x : ReleaseFlow) : ReleaseFlow :=
  match checkSourceChanged seen x with
  | some (y, true) => startNewReleaseFlow seen false y
  | some (y, false) => if releaseIdentityChanged digest y then startNewReleaseFlow seen false y else y
  | none => if releaseIdentityChanged digest x then startNewReleaseFlow seen false x else x

/-- The end of `handleHealthyPhase`: the source is polled, then the identity of the release is compared. -/
def pollSource (seen : Observation) (x : ReleaseFlow) : ReleaseFlow :=
  match checkSourceChanged seen x with
  | some (y, true) => startNewReleaseFlow seen false y
  | some (y, false) =>
    if releaseIdentityChanged digest y then startNewReleaseFlow seen false y
    else
      match getCurrentRelease y with
      | some release =>
        if release.phase = .complete then finishCompletedRing digest seen y release else y.evaluate seen
      | none => y.evaluate seen
  | none => x

def handleHealthyPhase (seen : Observation) (x : ReleaseFlow) : ReleaseFlow :=
  if promotionTriggered x.app || manualTriggered x.app then handleTriggeredHealthyPhase digest seen x
  else if getCurrentReleasePhase x = .superseded ∨ getCurrentReleasePhase x = .rolledBack then
    if !manualSyncRequested x && (getCurrentRelease x).any (releaseAutoRetriesExhausted x) then
      holdExhaustedRelease digest seen
        { x with app := { x.app with status := { x.app.status with resourceHealth := seen.resourceHealth } } }
    else startNewReleaseFlow seen false x
  else if getCurrentReleasePhase x = .complete then pollSource digest seen (x.setPhase .healthy)
  else pollSource digest seen x

/-! ### The release of the current stage -/

def markPromotionStarted (x : ReleaseFlow) : ReleaseFlow :=
  if promotionReady x then { x with candidate := x.candidate.map (fun c => { c with ready := false }) } else x

/-- `status.releaseRef`. -/
def ReleaseFlow.setReleaseRef (x : ReleaseFlow) (name : String) : ReleaseFlow :=
  { x with app := { x.app with status := { x.app.status with releaseRef := name } } }

/-- `adoptExistingRelease`.  An active release is adopted in memory only, unless the phase is written. -/
def adoptExistingRelease (seen : Observation) (x : ReleaseFlow) (existing : StageRelease) : ReleaseFlow :=
  let y := markPromotionStarted (x.setReleaseRef existing.name)
  if applicationReleasePhaseTerminal existing.phase then
    if !manualSyncRequested x && releaseAutoRetriesExhausted x existing then y.setPhase .rolledBack
    else (requestReleaseResync y existing.name (manualSyncRequested x)).setPhase .pending
  else
    match activePhase existing.phase with
    | some (phase, _) => if phase = x.app.status.phase ∧ seen.retired = false then x else y.setPhase phase
    | none => y.setPhase .promoting

def releaseNeedsManualSync (x : ReleaseFlow) : Bool :=
  !manualSyncRequested x && (x.settings.syncManual || manualTriggered x.app) && !promotionReady x

/-- The end of `reconcileRelease`: the release of the stage is created, or the existing one adopted.  Under a manual
sync the reference is written with the phase or not at all. -/
def createRelease (seen : Observation) (x : ReleaseFlow) (targetStage : PromotionStage) : ReleaseFlow × Bool :=
  let release := buildRelease digest x targetStage
  if release.name = "" then (x.setPhase .failed, false)
  else
    match x.release? release.name with
    | some existing => (adoptExistingRelease seen x existing, false)
    | none =>
      let y := { x with releases := x.releases ++ [release] }
      if x.app.status.phase = .promoting ∧ seen.retired = false ∧ manualSyncRequested x = true then (y, true)
      else ((markPromotionStarted (y.setReleaseRef release.name)).setPhase .promoting, true)

/-- `reconcileRelease` before the manual sync annotation is cleared. -/
def reconcileTargetStage (seen : Observation) (x : ReleaseFlow) : ReleaseFlow × Bool :=
  if x.app.spec.stages = [] then (x, true)
  else if publisherOwnsReleaseRef x.app && x.app.status.releaseRef == "" then (x.setPhase .pending, false)
  else
    match currentStageIn x.app with
    | some targetStage =>
      if getCurrentReleasePhase x ≠ .unset then handleActiveRelease x (getCurrentReleasePhase x)
      else if publisherOwnsReleaseRef x.app then (x.setPhase .pending, false)
      else if !seen.policy then (x.setPhase .pending, false)
      else if !manualSyncRequested x && !x.settings.syncManual && !seen.window then (x.setPhase .pending, false)
      else if releaseNeedsManualSync x then (x.setPhase .pending, true)
      else if promotionTriggered x.app && !promotionReady x then (x.setPhase .pending, false)
      else createRelease digest seen x targetStage
    | none => (x, true)

/-- `reconcileRelease`, and the evaluation behind it in `reconcileReleaseFlow`. -/
def reconcileReleaseFlow (seen : Observation) (x : ReleaseFlow) : ReleaseFlow :=
  let (y, evaluates) := reconcileTargetStage digest seen x
  let y := { y with manualSync := false }
  if evaluates then y.evaluate seen else y

def appNeedsReplacementReleaseFlow (phase : ApplicationPhase) : Bool := phase == .healthy || phase == .rolledBack

/-- `reconcileApp` behind `prepareReconcile`. -/
def reconcilePrepared (seen : Observation) (x : ReleaseFlow) : ReleaseFlow :=
  if x.syncTrigger then handleSyncTrigger seen x
  else if appNeedsReplacementReleaseFlow x.app.status.phase then handleHealthyPhase digest seen x
  else
    match seen.build with
    | .running => x.setPhase .building
    | .failed => x.setPhase .failed
    | .passed => if seen.blocked then x.setPhase .failed else reconcileReleaseFlow digest seen x

def reconcileApp (seen : Observation) (x : ReleaseFlow) : ReleaseFlow :=
  match prepareReconcile digest seen x with
  | .ok y => reconcilePrepared digest seen y
  | .error y => y
end

/-! ### Runs -/

/-- What happens to an Application.  The release controller moves a release to a phase, or rolls it back to another release and
points the Application at that one. -/
inductive FlowEvent
  | reconcile (seen : Observation)
  | release (name : String) (phase : ReleasePhase)
  | rollback (name previous : String)
  | publish (release : StageRelease)
  | promotion (candidate : Option Candidate)
  | sync (manual : Bool)
  | requestManualSync
  | prune (name : String)

/-- A write of a release phase; completion clears the count of retries, a rollback spends it. -/
def StageRelease.setPhase (r : StageRelease) (phase : ReleasePhase) : StageRelease :=
  { r with
    phase := phase
    autoRetryCount :=
      if phase = .complete then 0 else if phase = .rolledBack then maxReleaseAutoRetries else r.autoRetryCount }

/-- `collectRollbackCandidates`; there is a manifest snapshot of an inline source from the beginning, else from the
promotion that renders it. -/
def rollbackCandidate (x : ReleaseFlow) (release other : StageRelease) : Bool :=
  other.name != release.name && other.stage == release.stage && other.phase != .failed &&
    (isInlineSource x.app || other.phase != .unset)

/-- `prunableReleaseHistory`. -/
def prunable (x : ReleaseFlow) (r : StageRelease) : Bool :=
  r.name != x.app.status.releaseRef && applicationReleasePhaseTerminal r.phase

def flowStep (digest : String → String) (x : ReleaseFlow) : FlowEvent → ReleaseFlow
  | .reconcile seen => reconcileApp digest seen x
  | .release name phase => if phase = .unset then x else x.setRelease name (fun r => r.setPhase phase)
  | .rollback name previous =>
    match x.release? name, x.release? previous with
    | some release, some other =>
      if rollbackCandidate x release other then
        (x.setRelease name (fun r => r.setPhase .rolledBack)).setReleaseRef other.name
      else x
    | _, _ => x
  | .publish release =>
    if publisherOwnsReleaseRef x.app && release.name != "" && (x.release? release.name).isNone then
      { x with releases := x.releases ++ [{ release with phase := .unset, autoRetryCount := 0 }] }.setReleaseRef release.name
    else x
  | .promotion candidate => { x with candidate := candidate }
  | .sync manual => { x with syncTrigger := true, manualSync := x.manualSync || manual }
  | .requestManualSync => { x with manualSync := true }
  | .prune name => { x with releases := x.releases.filter (fun r => !(r.name == name && prunable x r)) }

end Paprika.Applications
