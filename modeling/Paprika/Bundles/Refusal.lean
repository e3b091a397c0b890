import Paprika.Bundles.Apply
import Paprika.Bundles.Evaluation

/-!
# Bundles: what is refused or only simulated

`ApplyBundle` from the request to the first write of the bundle: `ensureNamespace`, the preparation, the promotion preflight,
the project and the policies, and the dry run.  What follows is `Setup.advance`.

* `applyBundle` — a call with the answers of the API server;
* `ensureNamespace_cases` — what it leaves: everything as it is, or a namespace more;
* **`refused_changes_nothing_iff`** — a refusal leaves everything as it is exactly when the namespace was found.
-/

namespace Paprika.Bundles

open Lib Lib.ApiObject
open Engine (Object)
open Governance (AppProject ProjectValidator)

/-! ### The call -/

structure ApplyBundleRequest where
  ns : String
  name : String
  project : String
  manifests : List Char
  skipPolicies : List String
  policyOverrides : List (String × String)
  dryRun : Bool

/-- The objects behind the API server, by namespace and name. -/
structure World where
  ns : String → ApiObject Unit
  application : String → String → ApiObject Application
  stage : String → String → ApiObject Stage
  release : String → String → ApiObject Release
  snapshot : String → String → ApiObject Snapshot
  project : String → String → Option AppProject
  policies : List Policy

/-- How the requests of a call end; a read of the project or the policies may fail with a text. -/
structure Outcomes where
  getNamespace : Outcome
  createNamespace : Outcome
  getApplication : Outcome
  getProject : Option String
  listPolicies : Option String
  writes : List Outcome
  errorText : String

/-- `PaprikaServer`, with its evaluator, its validator, whether it has project policies, and the clock in seconds. -/
structure Server where
  libraries : Libraries
  evaluator : Option (List Char → EvaluateOptions → Except String EvaluationResult)
  governanceValidator : Option ProjectValidator
  governancePolicyEvaluator : Bool
  sha : String → String
  now : Int
  uid : String

inductive Refusal where
  | prepare (text : String)
  | deriveName (text : String)
  | preflight (text : String)
  | parse (text : String)
  | evaluate (text : String)

inductive Answer where
  | invalid (text : String)
  | unavailable (text : String)
  | refused (e : Refusal)
  | blocked (results : List PolicyResult) (reason : String)
  | simulated (app : Application) (release : Release) (results : List PolicyResult)
  | carriedOut (pc : Pc) (results : List PolicyResult)

def Answer.isRefusal : Answer → Bool
  | .refused _ | .blocked _ _ | .simulated _ _ _ => true
  | _ => false

def ensureNamespace (os : Outcomes) (name : String) (w : World) : Except String Unit × World :=
  match get (w.ns name) os.getNamespace with
  | .found _ _ => (.ok (), w)
  | .error => (.error ("get namespace: " ++ os.errorText), w)
  | .notFound =>
    let answer := create (w.ns name) () os.createNamespace
    let w := { w with ns := Function.update w.ns name answer.2 }
    match answer.1 with
    | .ok => (.ok (), w)
    | _ => (.error ("create namespace: " ++ os.errorText), w)

def preflightBundleApplication (os : Outcomes) (w : World) (ns name : String) : Except String Unit :=
  match get (w.application ns name) os.getApplication with
  | .notFound => .ok ()
  | .error => .error ("inspect existing bundle Application: " ++ os.errorText)
  | .found _ app =>
    if validateLegacyBundleApplication app then .ok ()
    else .error "ApplyBundle cannot overwrite a promotion or versioned artifact Application; update its full Application manifest or publisher instead"

def resolveByName (os : Outcomes) (w : World) (ns name : String) : Except String AppProject :=
  match os.getProject with
  | some text => .error ("get appproject " ++ ns ++ "/" ++ name ++ ": " ++ text)
  | none =>
    match w.project ns name with
    | some project => .ok project
    | none =>
      if name = "default" then .ok permissiveDefaultProject
      else .error ("get appproject " ++ ns ++ "/" ++ name ++ ": " ++ os.errorText)

namespace Server

variable (s : Server)

def listPolicies (os : Outcomes) (w : World) : Except String (List Policy) :=
  match os.listPolicies with
  | some text => .error ("list policies: " ++ text)
  | none => .ok w.policies

def evaluatePolicies (os : Outcomes) (w : World) (bundle : List Char) (opts : EvaluateOptions) :
    Except String EvaluationResult :=
  match s.evaluator with
  | some evaluate => (evaluate bundle opts).mapError ("policy evaluator: " ++ ·)
  | none =>
    (listPolicies os w).bind fun policies => (celEvaluate s.libraries policies bundle opts).mapError ("policy evaluator: " ++ ·)

def evaluatePoliciesForProject (os : Outcomes) (w : World) (project : String) (manifests : List Object)
    (opts : EvaluateOptions) : Except String EvaluationResult :=
  match (listPolicies os w).bind fun policies => violationsOf s.libraries policies project manifests opts with
  | .error text => .error ("evaluate project policies: " ++ text)
  | .ok violations => .ok (projectResult violations)

/-- The boundary of the project: its violations, and the message of the first that blocks. -/
def boundary (os : Outcomes) (w : World) (manifests : List Object) (ns project : String) :
    Except String (List PolicyResult × Option String) :=
  match s.governanceValidator with
  | none => .ok ([], none)
  | some v =>
    match resolveByName os w ns project with
    | .error text => .error ("resolve project: " ++ text)
    | .ok p =>
      match v.validateBundle p ⟨.inline, "", "", some ⟨none⟩⟩ [] ns "" manifests with
      | (_, some err) => .error ("validate bundle: " ++ s.libraries.sprintf err.format err.args)
      | (violations, none) =>
        .ok (toPolicyResults s.libraries violations,
          ((violations.filter (·.action = .enforce)).head?.map fun v => s.libraries.sprintf v.message.format v.message.args))

def evaluateBundle (os : Outcomes) (w : World) (bundle : List Char) (manifests : List Object) (r : ApplyBundleRequest)
    (appName project : String) : Except String EvaluationResult :=
  match s.boundary os w manifests r.ns project with
  | .error text => .error text
  | .ok (results, some message) => .ok { passed := false, blocked := true, message := message, results := results }
  | .ok (boundaryResults, none) =>
    let opts : EvaluateOptions :=
      { ns := r.ns, applicationName := appName, skipPolicies := r.skipPolicies, policyOverrides := r.policyOverrides }
    let evaluated :=
      if s.governancePolicyEvaluator then s.evaluatePoliciesForProject os w project manifests opts
      else s.evaluatePolicies os w bundle opts
    evaluated.map fun result => { result with results := result.results ++ boundaryResults }

/-- The manifests, which only the validator and the project policies look at. -/
def governedManifests (bundle : List Char) : Except String (List Object) :=
  if s.governanceValidator.isSome || s.governancePolicyEvaluator then manifestsFromBundle s.libraries bundle else .ok []

def setup (appName : String) : Setup := { appName := appName, sha := s.sha }

/-- What is left to write, as a call of the Application. -/
def plan (project : String) (bundle : List Char) (results : List PolicyResult) : Request :=
  { project := project, bundle := String.ofList bundle, evaluation := .passed results, dryRun := false, now := s.now
    uid := s.uid }

/-- The Application of the answer to a dry run: without the name of a snapshot, and without a UID. -/
def simulatedApplication (appName : String) (r : Request) : Application :=
  let app := (s.setup appName).buildApplication r
  { app with uid := "", spec := { app.spec with configMapRef := "" } }

def simulatedRelease (appName : String) (r : Request) (results : List PolicyResult) : Release :=
  let release := (s.setup appName).buildRelease r (s.simulatedApplication appName r)
  { release with owners := [], configMapRef := "", status := { release.status with policyResults := results } }

end Server

/-- What the writes of a call for one Application see of the objects. -/
def World.cluster (w : World) (ns appName : String) : Cluster :=
  { ns := w.ns ns, application := w.application ns appName, stage := w.stage ns (appName ++ "-default")
    release := w.release ns, snapshot := w.snapshot ns }

def World.put (w : World) (ns appName : String) (c : Cluster) : World :=
  { w with
    ns := Function.update w.ns ns c.ns
    application := Function.update w.application ns (Function.update (w.application ns) appName c.application)
    stage := Function.update w.stage ns (Function.update (w.stage ns) (appName ++ "-default") c.stage)
    release := Function.update w.release ns c.release
    snapshot := Function.update w.snapshot ns c.snapshot }

namespace Server

variable (s : Server)

/-- `applyIfNeeded`, up to where the answers reach. -/
def applyIfNeeded (os : Outcomes) (w : World) (ns appName : String) (r : Request) : Pc × World :=
  let written := Run.run ((s.setup appName).request r) (.findApplication, w.cluster ns appName) os.writes
  (written.1, w.put ns appName written.2)

/-- `ApplyBundle`, once there is the namespace. -/
def applyInNamespace (os : Outcomes) (r : ApplyBundleRequest) (project : String) (w : World) : Answer × World :=
  match prepareBundle s.libraries r.manifests r.ns with
  | .error text => (.refused (.prepare ("prepare bundle: " ++ text)), w)
  | .ok bundle =>
    match if r.name = "" then deriveAppName s.libraries bundle else .ok r.name with
    | .error text => (.refused (.deriveName ("derive application name: " ++ text)), w)
    | .ok appName =>
      match preflightBundleApplication os w r.ns appName with
      | .error text => (.refused (.preflight text), w)
      | .ok () =>
        match s.governedManifests bundle with
        | .error text => (.refused (.parse ("parse bundle: " ++ text)), w)
        | .ok manifests =>
          match s.evaluateBundle os w bundle manifests r appName project with
          | .error text => (.refused (.evaluate ("evaluate policies: " ++ text)), w)
          | .ok result =>
            let call := s.plan project bundle result.results
            if result.blocked then (.blocked result.results result.message, w)
            else if r.dryRun then
              (.simulated (s.simulatedApplication appName call) (s.simulatedRelease appName call result.results)
                result.results, w)
            else
              let written := s.applyIfNeeded os w r.ns appName call
              (.carriedOut written.1 result.results, written.2)

def applyBundle (os : Outcomes) (r : ApplyBundleRequest) (w : World) : Answer × World :=
  if r.ns = "" then (.invalid "namespace is required", w)
  else
    let project := if r.project = "" then defaultProjectName else r.project
    match ensureNamespace os r.ns w with
    | (.error text, w) => (.unavailable ("ensure namespace: " ++ text), w)
    | (.ok (), w) => s.applyInNamespace os r project w

end Server

/-! ### What a call leaves -/

section
variable {os : Outcomes} {r : ApplyBundleRequest} {w w' : World} {name : String}

/-- The read of the namespace, the first request of the call, finds it. -/
def NamespaceFound (os : Outcomes) (r : ApplyBundleRequest) (w : World) : Prop :=
  ∃ version, get (w.ns r.ns) os.getNamespace = .found version ()

/-- Where it goes on, the namespace was found and nothing is changed, or it was not and there is one version more of it. -/
theorem ensureNamespace_cases (h : ensureNamespace os name w = (.ok (), w')) :
    ((∃ version, get (w.ns name) os.getNamespace = .found version ()) ∧ w' = w) ∨
      (get (w.ns name) os.getNamespace = .notFound ∧ (w.ns name).current = none ∧
        w' = { w with ns := Function.update w.ns name ((w.ns name).write (some ())) }) := by
  rw [ensureNamespace] at h
  cases hget : get (w.ns name) os.getNamespace with
  | error =>
    rw [hget] at h
    cases h
  | found version a =>
    rw [hget] at h
    cases h
    exact .inl ⟨⟨version, rfl⟩, rfl⟩
  | notFound =>
  rw [hget] at h
  right
  rcases create_cases (w.ns name) () os.createNamespace with hok | halready | hlost | hfailed
  · obtain ⟨hreply, hnone, hwrote⟩ := hok
    simp only [hreply, hwrote] at h
    cases h
    exact ⟨rfl, hnone, rfl⟩
  · simp only [halready.1] at h
    cases h
  · simp only [hlost.1] at h
    cases h
  · simp only [hfailed.1] at h
    cases h

theorem refused_in_namespace {s : Server} {project : String} (h : (s.applyInNamespace os r project w).1.isRefusal = true) :
    (s.applyInNamespace os r project w).2 = w := by
  rw [Server.applyInNamespace] at h ⊢
  cases hprep : prepareBundle s.libraries r.manifests r.ns with
  | error text => rfl
  | ok bundle =>
  simp only [hprep] at h ⊢
  cases hname : if r.name = "" then deriveAppName s.libraries bundle else .ok r.name with
  | error text => rfl
  | ok appName =>
  simp only [hname] at h ⊢
  cases hpreflight : preflightBundleApplication os w r.ns appName with
  | error text => rfl
  | ok _ =>
  simp only [hpreflight] at h ⊢
  cases hmanifests : s.governedManifests bundle with
  | error text => rfl
  | ok manifests =>
  simp only [hmanifests] at h ⊢
  cases hevaluate : s.evaluateBundle os w bundle manifests r appName project with
  | error text => rfl
  | ok result =>
  simp only [hevaluate] at h ⊢
  split_ifs at h ⊢ with hblocked hdryRun
  · rfl
  · rfl
  · cases h

theorem refused_after_ensureNamespace {s : Server} (h : (s.applyBundle os r w).1.isRefusal = true) :
    ensureNamespace os r.ns w = (.ok (), (s.applyBundle os r w).2) := by
  rw [Server.applyBundle] at h ⊢
  by_cases hns : r.ns = ""
  · rw [if_pos hns] at h
    cases h
  rw [if_neg hns] at h ⊢
  rcases hensure : ensureNamespace os r.ns w with ⟨_ | _, w'⟩
  · simp only [hensure] at h
    cases h
  · simp only [hensure] at h ⊢
    rw [refused_in_namespace h]

/-- **What is refused changes nothing, where the namespace is found.**  Where it is not, the refusal leaves it created. -/
theorem refused_changes_nothing_iff (s : Server) (os : Outcomes) (r : ApplyBundleRequest) (w : World)
    (h : (s.applyBundle os r w).1.isRefusal = true) : (s.applyBundle os r w).2 = w ↔ NamespaceFound os r w := by
  rcases ensureNamespace_cases (refused_after_ensureNamespace h) with ⟨hfound, hsame⟩ | ⟨hget, -, hcreated⟩
  · exact ⟨fun _ => hfound, fun _ => hsame⟩
  constructor
  · intro hsame
    rw [hsame] at hcreated
    have hversion := congrArg (fun v : World => (v.ns r.ns).version) hcreated
    simp only [Function.update_self, Versioned.version_write] at hversion
    omega
  · rintro ⟨version, hfound⟩
    rw [hget] at hfound
    cases hfound

/-! ### Runs -/

/-- A manifest of one name, as it is read before and after its labels are set. -/
def webManifest : Object := [("metadata", .obj [("name", .str "web")])]

def sampleLibraries : Libraries where
  unmarshal _ := .ok (some webManifest)
  marshal _ := .ok "metadata:\n    labels:\n        app.paprika.io/managed-by: paprika\n        app.paprika.io/name: web\n    name: web\n    namespace: shop\n".toList
  evalPolicy _ _ := (true, "")
  sprintf format _ := format

/-- A server whose evaluator passes everything. -/
def sampleServer : Server where
  libraries := sampleLibraries
  evaluator := some fun _ _ => .ok { passed := true, blocked := false, message := "", results := [] }
  governanceValidator := none
  governancePolicyEvaluator := false
  sha _ := "9f86d081884c7d65"
  now := 1750000000
  uid := ""

def sampleWorld (ns : Option Unit) : World where
  ns _ := Versioned.create ns
  application _ _ := Versioned.create none
  stage _ _ := Versioned.create none
  release _ _ := Versioned.create none
  snapshot _ _ := Versioned.create none
  project _ _ := none
  policies := []

def sampleOutcomes : Outcomes :=
  { getNamespace := .ok 0, createNamespace := .ok 0, getApplication := .ok 0, getProject := none, listPolicies := none
    writes := [], errorText := "" }

/-- A dry run for the namespace `shop`. -/
def dryRun : ApplyBundleRequest :=
  { ns := "shop", name := "web", project := "", manifests := "metadata: {name: web}".toList, skipPolicies := []
    policyOverrides := [], dryRun := true }

theorem refused_changes_nothing_iff_shop :
    (sampleServer.applyBundle sampleOutcomes dryRun (sampleWorld (some ()))).2 = sampleWorld (some ()) ↔
      NamespaceFound sampleOutcomes dryRun (sampleWorld (some ())) :=
  refused_changes_nothing_iff sampleServer sampleOutcomes dryRun (sampleWorld (some ())) (by decide +kernel)

theorem dryRun_creates_namespace :
    ¬ ∀ (s : Server) (os : Outcomes) (r : ApplyBundleRequest) (w : World), (s.applyBundle os r w).1.isRefusal = true →
      (s.applyBundle os r w).2 = w := by
  intro hall
  have hsame := hall sampleServer sampleOutcomes dryRun (sampleWorld none) (by decide +kernel)
  have hversion := congrArg (fun v : World => (v.ns "shop").version) hsame
  exact absurd hversion (by decide +kernel)
end

end Paprika.Bundles
