import Paprika.Applications.ObservedGeneration

/-!
# Rolling sync of an ApplicationSet

One pass of `applicationset_controller.go` over the Applications of its set: `applyApplicationUpdates` with
`applyRollingSync`, and the deletions of `Reconcile`.

What a pass does is decided by what it has rendered and listed, and not by the writes, so a pass is first a list of
writes (`Pass.plan`), of which those before the first refused one take place (`Pass.execute`).  A listed Application may
be an old version, and then its update is refused; a change of a status between the list and a write is one before the
pass, of which the list is behind.
-/

namespace Paprika.Applications

open Lib Lib.Run

/-! ## Applications of a set -/

/-- `map[string]string`, where a key that there is not reads as empty. -/
abbrev Labels := List (String × String)

def Labels.get (m : Labels) (k : String) : String := (m.lookup k).getD ""

def Labels.set (m : Labels) (k v : String) : Labels := (k, v) :: m.filter (fun e => e.1 != k)

def Labels.merge (m entries : Labels) : Labels := entries.foldl (fun m e => m.set e.1 e.2) m

/-- An Application as it is stored; `rest` is what its spec has besides `app.spec`. -/
structure SetApplication where
  labels : Labels
  annotations : Labels
  rest : String
  app : Application
  deriving DecidableEq, Repr

/-- An Application as it is rendered from the template. -/
structure DesiredApplication where
  name : String
  labels : Labels
  annotations : Labels
  spec : ApplicationSpec
  rest : String
  deriving DecidableEq, Repr

def applicationMatchesDesired (existing : SetApplication) (desired : DesiredApplication) : Bool :=
  decide (existing.app.spec = desired.spec) && decide (existing.rest = desired.rest) &&
    desired.labels.all (fun e => existing.labels.get e.1 == e.2) &&
    desired.annotations.all (fun e => existing.annotations.get e.1 == e.2)

/-- What `Create` stores. -/
def createApplication (d : DesiredApplication) : SetApplication where
  labels := d.labels
  annotations := d.annotations
  rest := d.rest
  app := .create d.name d.spec

/-- What `updateApplication` stores; a change of the spec is a new generation. -/
def updateApplication (existing : SetApplication) (d : DesiredApplication) : SetApplication where
  labels := existing.labels.merge d.labels
  annotations := existing.annotations.merge d.annotations
  rest := d.rest
  app :=
    { existing.app with
      spec := d.spec
      generation :=
        if existing.app.spec = d.spec ∧ existing.rest = d.rest then existing.app.generation
        else existing.app.generation + 1 }

/-! ## Steps -/

inductive IntOrString
  | int (n : Int)
  | string (s : String)
  deriving DecidableEq, Repr

structure RollingSyncStep where
  matchLabels : Labels
  maxUpdate : Option IntOrString
  deriving DecidableEq, Repr

def stepMatches (appLabels matchLabels : Labels) : Bool := matchLabels.all (fun e => appLabels.get e.1 == e.2)

/-- `assignSyncSteps`, of one Application: its first step, or the implicit one after the last. -/
def stepOf (steps : List RollingSyncStep) (d : DesiredApplication) : Nat :=
  steps.findIdx (fun s => stepMatches d.labels s.matchLabels)

/-- In the order of their names. -/
def byName (ds : List DesiredApplication) : List DesiredApplication := ds.insertionSort (fun a b => a.name ≤ b.name)

def members (steps : List RollingSyncStep) (desired : List DesiredApplication) (i : Nat) : List DesiredApplication :=
  byName (desired.filter (fun d => stepOf steps d == i))

theorem mem_members {steps : List RollingSyncStep} {desired : List DesiredApplication} {i : Nat}
    {d : DesiredApplication} : d ∈ members steps desired i ↔ d ∈ desired ∧ stepOf steps d = i := by
  unfold members byName
  rw [(List.perm_insertionSort _ _).mem_iff, List.mem_filter, beq_iff_eq]

/-- The Applications of the set that a pass has listed, `existingByName`. -/
abbrev Existing := List (String × SetApplication)

/-- A listed Application that is not as it is rendered. -/
def OutOfDate (existing : Existing) (d : DesiredApplication) : Prop :=
  ∃ a, existing.lookup d.name = some a ∧ applicationMatchesDesired a d = false

instance (existing : Existing) (d : DesiredApplication) : Decidable (OutOfDate existing d) :=
  decidable_of_iff (∃ a ∈ existing.lookup d.name, applicationMatchesDesired a d = false) Iff.rfl

section

/- `GetScaledValueFromIntOrPercent`, rounding up, and `applicationReleaseName` of the Application of a name. -/
variable (scaledValue : IntOrString → Nat → Option Int)
  (applicationReleaseName : String → Application → PromotionStage → String)
  (steps : List RollingSyncStep) (desired : List DesiredApplication) (existing : Existing)

def stepMaxUpdate (step members : Nat) : Int :=
  match steps[step]? with
  | none => members
  | some s =>
    match s.maxUpdate with
    | none => members
    | some m =>
      match scaledValue m members with
      | none => 1
      | some v => if v < 1 then 1 else v

/-- An Application of an earlier step does not let the later ones go on. -/
def blocks (inFlight : List String) (d : DesiredApplication) : Bool :=
  match existing.lookup d.name with
  | none => true
  | some a =>
    inFlight.contains d.name || !applicationMatchesDesired a d ||
      !applicationConverged (applicationReleaseName d.name) a.app

/-- `priorStepsUnhealthy`; the empty name is that of no Application. -/
def priorStepsUnhealthy (inFlight : List String) (step : Nat) : String :=
  match (byName desired).find?
      (fun d => decide (stepOf steps d < step) && blocks applicationReleaseName existing inFlight d) with
  | none => ""
  | some d => d.name

/-- `applyRollingSyncStep`: the members to update, and whether the budget is spent. -/
def applyRollingSyncStep (budget : Int) : Nat → List DesiredApplication → List DesiredApplication × Bool
  | _, [] => ([], false)
  | updated, d :: ds =>
    match existing.lookup d.name with
    | none => applyRollingSyncStep budget updated ds
    | some a =>
      if applicationMatchesDesired a d then applyRollingSyncStep budget updated ds
      else if budget ≤ updated then ([], true)
      else
        let next := applyRollingSyncStep budget (updated + 1) ds
        (d :: next.1, next.2)

/-- The updates of the steps of a list in order, and the step that is gated with what it waits for. -/
def applySteps : List Nat → List String → List (DesiredApplication × Nat) × Option (Nat × String)
  | [], _ => ([], none)
  | i :: later, inFlight =>
    if members steps desired i = [] then applySteps later inFlight
    else
      let blocked := priorStepsUnhealthy applicationReleaseName steps desired existing inFlight i
      if blocked ≠ "" then ([], some (i + 1, blocked))
      else
        let step := applyRollingSyncStep existing
          (stepMaxUpdate scaledValue steps i (members steps desired i).length) 0 (members steps desired i)
        if step.2 then (step.1.map (fun d => (d, i)), some (i + 1, ""))
        else
          let next := applySteps later (inFlight ++ step.1.map (·.name))
          (step.1.map (fun d => (d, i)) ++ next.1, next.2)

/-- A write of a pass. -/
inductive SyncOp
  | create (d : DesiredApplication)
  | update (d : DesiredApplication) (step : Nat)
  | delete (name : String)
  deriving DecidableEq, Repr

def SyncOp.name : SyncOp → String
  | .create d => d.name
  | .update d _ => d.name
  | .delete name => name

def listed (d : DesiredApplication) : Bool := (existing.lookup d.name).isSome

def createMissingApplications : List SyncOp := (desired.filter (fun d => !listed existing d)).map .create

/-- `applyAllApplicationUpdates`; every Application is in the implicit step. -/
def applyAllApplicationUpdates : List SyncOp :=
  desired.filterMap (fun d =>
    match existing.lookup d.name with
    | none => some (.create d)
    | some a => if applicationMatchesDesired a d then none else some (.update d steps.length))

/-- The Applications that are no longer rendered. -/
def obsolete : List String := (existing.map (·.1)).filter (fun n => !(desired.map (·.name)).contains n)

/-- `applyApplicationUpdates`: the writes, and the gate. -/
def applyApplicationUpdates : List SyncOp × Option (Nat × String) :=
  if steps.isEmpty then (applyAllApplicationUpdates steps desired existing, none)
  else
    let updates := applySteps scaledValue applicationReleaseName steps desired existing
      (List.range (steps.length + 1)) []
    (createMissingApplications desired existing ++ updates.1.map (fun u => .update u.1 u.2), updates.2)

/-- The writes of a pass, in order. -/
def syncPlan : List SyncOp :=
  let updates := applyApplicationUpdates scaledValue applicationReleaseName steps desired existing
  updates.1 ++ if updates.2.isNone then (obsolete desired existing).map .delete else []
end

/-! ## Runs -/

/-- The Applications by name, with all their versions; `none` where there is none. -/
structure SetWorld where
  apps : String → Versioned (Option SetApplication)

def SetWorld.set (w : SetWorld) (name : String) (a : Option SetApplication) : SetWorld :=
  { apps := fun n => if n = name then (w.apps n).write a else w.apps n }

/-- A pass: the steps of the set, what is rendered, what is listed and how many versions behind, and for which
Applications the API takes a write. -/
structure Pass where
  steps : List RollingSyncStep
  desired : List DesiredApplication
  listed : List (String × Nat)
  written : String → Bool
  distinct : (desired.map (·.name)).Nodup
  named : ∀ d ∈ desired, d.name ≠ ""
  listedOnce : (listed.map (·.1)).Nodup

namespace Pass

variable (p : Pass) (w : SetWorld)

/-- `listOwnedApplications`. -/
def existing : Existing := p.listed.filterMap (fun e => ((w.apps e.1).read e.2).value.map (fun a => (e.1, a)))

/-- The version that the pass has read. -/
def copyOf (name : String) : Copy (Option SetApplication) := (w.apps name).read ((p.listed.lookup name).getD 0)

/-- One write of a pass that began in `w`, in `v`; `none` when it is refused. -/
def write (v : SetWorld) (op : SyncOp) : Option SetWorld :=
  if !p.written op.name then none
  else
    match op with
    | .create d => if (v.apps d.name).current.isNone then some (v.set d.name (some (createApplication d))) else none
    | .update d _ =>
      match (p.copyOf w d.name).value with
      | none => none
      | some a =>
        if (p.copyOf w d.name).version = (v.apps d.name).version then
          some (v.set d.name (some (updateApplication a d)))
        else none
    | .delete name => if (v.apps name).current.isSome then some (v.set name none) else none

/-- The writes up to the first one that is refused: those that take place, and what they leave. -/
def execute (v : SetWorld) : List SyncOp → List SyncOp × SetWorld
  | [] => ([], v)
  | op :: ops =>
    match p.write w v op with
    | none => ([], v)
    | some v' =>
      let next := execute v' ops
      (op :: next.1, next.2)

end Pass

/-- `status` is what the Application controller writes, `other` whatever else becomes of an Application. -/
inductive SetEvent
  | pass (p : Pass)
  | status (name : String) (s : ApplicationStatus)
  | other (name : String) (a : Option SetApplication)

section
variable (scaledValue : IntOrString → Nat → Option Int)
  (applicationReleaseName : String → Application → PromotionStage → String)

def Pass.plan (p : Pass) (w : SetWorld) : List SyncOp :=
  syncPlan scaledValue applicationReleaseName p.steps p.desired (p.existing w)

/-- The writes that take place. -/
def Pass.performed (p : Pass) (w : SetWorld) : List SyncOp :=
  (p.execute w w (p.plan scaledValue applicationReleaseName w)).1

def setStep (w : SetWorld) : SetEvent → SetWorld
  | .pass p => (p.execute w w (p.plan scaledValue applicationReleaseName w)).2
  | .status name s =>
    match (w.apps name).current with
    | none => w
    | some a => w.set name (some { a with app := { a.app with status := s } })
  | .other name a => w.set name a
end

end Paprika.Applications
