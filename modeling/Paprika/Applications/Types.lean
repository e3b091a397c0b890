import Mathlib.Data.List.Sort

/-!
# Applications: data model

The parts of `application_types.go` that decide which release an Application is at and whether its status is current,
with the helpers of `application_controller.go` that read the stages.
-/

namespace Paprika.Applications

/-- `ApplicationPhase`; `unset` is the empty string. -/
inductive ApplicationPhase
  | unset | pending | building | promoting | canarying | verifying | healthy | degraded | failed | rolledBack
  deriving DecidableEq, Repr

/-- `HealthStatus`; `unset` is the empty string. -/
inductive HealthStatus
  | unset | healthy | degraded | unknown | progressing
  deriving DecidableEq, Repr

/-- `ApplicationPromotionStage`. -/
structure PromotionStage where
  name : String
  ring : Int
  autoPromote : Bool
  parameters : List (String × String)
  deriving DecidableEq, Repr

/-- The type of `spec.trigger`, where there is one. -/
inductive Trigger
  | none | manual | promotion
  deriving DecidableEq, Repr

/-- `ApplicationSpec`; `inline` says that the source is of type `Inline`. -/
structure ApplicationSpec where
  inline : Bool
  trigger : Trigger
  stages : List PromotionStage
  parameters : List (String × String)
  deriving DecidableEq, Repr

/-- `ApplicationStatus`: stages and resources by name with their phase and health, and of the conditions only whether the
diff is unavailable. -/
structure ApplicationStatus where
  observedGeneration : Nat
  phase : ApplicationPhase
  currentStage : String
  stages : List (String × String)
  synced : Bool
  outOfSync : Nat
  diffUnavailable : Bool
  sourceHash : String
  sourceRevision : String
  releaseRef : String
  gates : List String
  health : HealthStatus
  resourceHealth : List (String × String)
  deriving DecidableEq, Repr

/-- The zero value `ApplicationStatus{}`. -/
def ApplicationStatus.zero : ApplicationStatus :=
  { observedGeneration := 0, phase := .unset, currentStage := "", stages := [], synced := false, outOfSync := 0,
    diffUnavailable := false, sourceHash := "", sourceRevision := "", releaseRef := "", gates := [], health := .unset,
    resourceHealth := [] }

structure Application where
  uid : String
  generation : Nat
  spec : ApplicationSpec
  status : ApplicationStatus
  deriving DecidableEq, Repr

def Application.create (uid : String) (spec : ApplicationSpec) : Application :=
  { uid := uid, generation := 1, spec := spec, status := .zero }

def isInlineSource (app : Application) : Bool := app.spec.inline

def promotionTriggered (app : Application) : Bool := app.spec.trigger == .promotion

def manualTriggered (app : Application) : Bool := app.spec.trigger == .manual

/-! ### Stages -/

/-- `stageOrder`: ring order, declaration order breaking ties. -/
def stageOrder (stages : List PromotionStage) : List PromotionStage := stages.insertionSort (fun a b => a.ring ≤ b.ring)

/-- The first stage of the lowest ring. -/
def lowestRing : List PromotionStage → Option PromotionStage
  | [] => none
  | stage :: stages => some (stages.foldl (fun first s => if s.ring < first.ring then s else first) stage)

/-- `currentStageIn`, of the stages and the recorded one. -/
def stageIn (stages : List PromotionStage) (currentStage : String) : Option PromotionStage :=
  if currentStage = "" then lowestRing stages
  else
    match stages.find? (fun s => s.name == currentStage) with
    | some stage => some stage
    | none => lowestRing stages

def currentStageIn (app : Application) : Option PromotionStage := stageIn app.spec.stages app.status.currentStage

def currentStageIndex (app : Application) : Option Nat :=
  (currentStageIn app).bind (fun stage => (stageOrder app.spec.stages).findIdx? (fun s => s.name == stage.name))

variable {s : PromotionStage} {stages : List PromotionStage}

theorem mem_stageOrder : s ∈ stageOrder stages ↔ s ∈ stages := (List.perm_insertionSort _ stages).mem_iff

theorem stageIn_of_mem (hs : s ∈ stages) (hname : s.name ≠ "") :
    ∃ stage, stageIn stages s.name = some stage ∧ stage.name = s.name := by
  unfold stageIn
  rw [if_neg hname]
  cases hfind : stages.find? (fun t => t.name == s.name) with
  | none => exact absurd (List.find?_eq_none.mp hfind s hs) (by simp)
  | some stage => exact ⟨stage, rfl, by simpa using List.find?_some hfind⟩

end Paprika.Applications
