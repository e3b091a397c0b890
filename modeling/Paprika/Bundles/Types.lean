import Paprika.Lib.ApiObject
import Paprika.Lib.KeyedMap
import Paprika.Releases.Types

/-!
# Bundles: the objects

The objects that `ApplyBundle` writes, with what `apply_bundle.go` builds and checks of them.

* `buildApplication`, `buildRelease`, `buildSnapshot` — what a call creates;
* `repairApplicationControllerOwner`, `repairLabels` — what it does to a stage that there is.
-/

namespace Paprika.Bundles

open Lib Lib.KeyedMap
open Releases (ReleasePhase)

/-! ### Labels -/

abbrev Labels := Map String String

/-- A label, empty where there is none. -/
def Labels.get (labels : Labels) (k : String) : String := (labels.lookup k).getD ""

def managedByLabel : String := "app.paprika.io/managed-by"

def nameLabel : String := "app.paprika.io/name"

def releaseLabel : String := "app.paprika.io/release"

def historyLabel : String := "app.paprika.io/history"

def projectLabelKey : String := "app.paprika.io/project"

def defaultProjectName : String := "default"

/-- The labels that differ are set. -/
def repairLabels (existing : Labels) (labels : List (String × String)) : Labels :=
  labels.foldl (fun m e => if Labels.get m e.1 = e.2 then m else m.insert e.1 e.2) existing

def labelsChanged (existing : Labels) (labels : List (String × String)) : Bool :=
  labels.any fun e => Labels.get existing e.1 != e.2

def labelsOf (labels : List (String × String)) : Labels := labels.foldl (fun m e => m.insert e.1 e.2) ∅

def setLabels (existing : Labels) (labels : List (String × String)) : Labels :=
  labels.foldl (fun m e => m.insert e.1 e.2) existing

/-! ### Owners -/

structure OwnerReference where
  apiVersion : String
  kind : String
  name : String
  uid : String
  controller : Option Bool
  blockOwnerDeletion : Option Bool
  deriving DecidableEq

/-- `strings.Cut` at the slash: the group of a version. -/
def cutGroup (apiVersion : String) : Option String :=
  if apiVersion.toList.contains '/' then some (String.ofList (apiVersion.toList.takeWhile (· != '/'))) else none

def sameApplicationOwnerIdentity (left right : OwnerReference) : Bool :=
  if left.kind ≠ right.kind ∨ left.name ≠ right.name then false
  else if left.apiVersion = right.apiVersion then true
  else match cutGroup left.apiVersion, cutGroup right.apiVersion with
    | some leftGroup, some rightGroup => leftGroup == rightGroup
    | _, _ => false

def isController (owner : OwnerReference) : Bool := owner.controller == some true

/-- The loop of `repairApplicationControllerOwner`: the first reference to the owner is replaced, later ones are dropped. -/
def replaceOwner (desired : OwnerReference) : Bool → List OwnerReference → List OwnerReference
  | inserted, [] => if inserted then [] else [desired]
  | inserted, owner :: owners =>
    if sameApplicationOwnerIdentity owner desired then
      if inserted then replaceOwner desired true owners else desired :: replaceOwner desired true owners
    else owner :: replaceOwner desired inserted owners

/-- The owners after the repair, unless another resource controls the stage. -/
def repairApplicationControllerOwner (owners : List OwnerReference) (desired : OwnerReference) :
    Option (List OwnerReference) :=
  match owners.filter isController with
  | [] => some (replaceOwner desired false owners)
  | [owner] => if sameApplicationOwnerIdentity owner desired then some (replaceOwner desired false owners) else none
  | _ => none

def groupVersion : String := "pipelines.paprika.io/v1alpha1"

/-! ### Objects -/

/-- `ApplicationSpec`: whether a promotion triggers it, and the ConfigMap of its inline source, empty if there is none, with
whether the source names an artifact. -/
structure ApplicationSpec where
  project : String
  promotion : Bool
  configMapRef : String
  artifact : Bool
  deriving DecidableEq

structure ApplicationStatus where
  releaseRef : String
  acceptedDeployment : Option ApplicationSpec
  deriving DecidableEq

structure Application where
  uid : String
  labels : Labels
  spec : ApplicationSpec
  status : ApplicationStatus

structure Stage where
  labels : Labels
  owners : List OwnerReference

structure PolicyResult where
  name : String
  severity : String
  action : String
  passed : Bool
  message : String
  deriving DecidableEq

structure ReleaseStatus where
  phase : ReleasePhase
  policyResults : List PolicyResult
  deriving DecidableEq

/-- A `Release`, with its annotation `paprika.io/bundle-sha`. -/
structure Release where
  labels : Labels
  bundleSHA : String
  owners : List OwnerReference
  target : String
  configMapRef : String
  status : ReleaseStatus

/-- The ConfigMap of a bundle; `owner` is the Release that it goes with. -/
structure Snapshot where
  labels : Labels
  owner : String
  manifests : String

def applicationHasPromotionContract (spec : ApplicationSpec) : Bool := spec.promotion || spec.artifact

def validateLegacyBundleApplication (app : Application) : Bool :=
  !applicationHasPromotionContract app.spec && !app.status.acceptedDeployment.any applicationHasPromotionContract

def isTerminalReleasePhase : ReleasePhase → Bool
  | .complete | .failed | .rolledBack | .superseded => true
  | _ => false

/-! ### Requests -/

/-- What `evaluateBundle` returns. -/
inductive Evaluation where
  | error
  | blocked
  | passed (results : List PolicyResult)

/-- A call: the prepared bundle, the result of its evaluation, the time in seconds, and the UID that an Application gets if
the call creates one. -/
structure Request where
  project : String
  bundle : String
  evaluation : Evaluation
  dryRun : Bool
  now : Int
  uid : String

def Request.policyResults (r : Request) : List PolicyResult :=
  match r.evaluation with
  | .passed results => results
  | _ => []

def Request.projectName (r : Request) : String := if r.project = "" then defaultProjectName else r.project

/-- The Application that all calls are for; `sha` is the SHA-256 of a bundle in hexadecimal digits. -/
structure Setup where
  appName : String
  sha : String → String

namespace Setup

variable (S : Setup)

/-- `generateReleaseName` -/
def releaseName (r : Request) : String :=
  S.appName ++ "-release-" ++ String.ofList ((S.sha r.bundle).toList.take 8) ++ "-" ++ toString r.now

def snapshotName (release : String) : String := release ++ "-manifests"

def stageName : String := S.appName ++ "-default"

def baseLabels (releaseName project : String) : List (String × String) :=
  [(managedByLabel, "paprika"), (nameLabel, S.appName), (releaseLabel, releaseName), (historyLabel, "true"),
    (projectLabelKey, project)]

/-- `applicationControllerOwner` -/
def controllerOwner (app : Application) : OwnerReference :=
  { apiVersion := groupVersion, kind := "Application", name := S.appName, uid := app.uid, controller := some true,
    blockOwnerDeletion := none }

/-- `preflightStageApplicationOwner` accepts the owners of the stage. -/
def preflightOwners (owners : List OwnerReference) : Bool :=
  let desired : OwnerReference :=
    { apiVersion := groupVersion, kind := "Application", name := S.appName, uid := "", controller := none,
      blockOwnerDeletion := none }
  (owners.filter isController).all (sameApplicationOwnerIdentity · desired) && (owners.filter isController).length ≤ 1

/-- The labels that `buildApplication` gives. -/
def applicationLabels (r : Request) : List (String × String) :=
  [(managedByLabel, "paprika"), (projectLabelKey, r.projectName)]

def applicationSpec (r : Request) : ApplicationSpec :=
  { project := r.projectName, promotion := false, configMapRef := snapshotName (S.releaseName r), artifact := false }

/-- `buildApplication`, as it is created: without a status. -/
def buildApplication (r : Request) : Application :=
  { uid := r.uid, labels := labelsOf (applicationLabels r), spec := S.applicationSpec r,
    status := { releaseRef := "", acceptedDeployment := none } }

def buildRelease (r : Request) (app : Application) : Release :=
  { labels := labelsOf (S.baseLabels (S.releaseName r) r.projectName)
    bundleSHA := S.sha r.bundle
    owners := [S.controllerOwner app]
    target := S.stageName
    configMapRef := snapshotName (S.releaseName r)
    status := { phase := .unset, policyResults := [] } }

/-- The ConfigMap of `createSnapshot`. -/
def buildSnapshot (r : Request) : Snapshot :=
  { labels := labelsOf (S.baseLabels (S.releaseName r) r.projectName)
    owner := S.releaseName r
    manifests := r.bundle }

end Setup

end Paprika.Bundles
