import Mathlib.Combinatorics.Hall.Basic
import Paprika.Lib.Unstructured

/-!
# Engine: what a live object has to contain

A desired value is compared with the live one field by field (`specContainsAt`): fields that only the live value has are
allowed, and each element of a desired list has to be contained in some element of the live one.

**`lists_matched`** — what the comparison of two lists says, and when the elements have distinct matches.
-/

namespace Paprika.Engine

open Lib.Unstructured List

/-! ### Printing -/

mutual

/-- `fmt.Sprintf("%v", value)`; the fields of a map are in order. -/
def sprint : Value → String
  | .null => "<nil>"
  | .bool b => toString b
  | .num n => toString n
  | .str s => s
  | .arr entries => "[" ++ " ".intercalate (sprintAll entries) ++ "]"
  | .obj fields => "map[" ++ " ".intercalate (sprintFields fields) ++ "]"

def sprintAll : List Value → List String
  | [] => []
  | v :: rest => sprint v :: sprintAll rest

def sprintFields : Fields → List String
  | [] => []
  | (k, v) :: rest => (k ++ ":" ++ sprint v) :: sprintFields rest
end

/-! ### Comparing -/

section

-- `resource.ParseQuantity`, which is not part of the repository: the amount that a text says.
variable (parseQuantity : String → Option Rat)

def isZeroNumber : Value → Bool
  | .str s => s = "0"
  | .num n => n = 0
  | _ => false

def isOmittedKubernetesDefault (path : List String) (desired : Value) : Bool :=
  (path.getLast? = some "value" && (match desired with | .str s => s = "" | _ => false) && path.contains "env") ||
    (path.getLast? = some "initialDelaySeconds" && isZeroNumber desired &&
      path.any (["livenessProbe", "readinessProbe", "startupProbe"].contains ·))

def isResourceQuantityPath : List String → Bool
  | [] => false
  | part :: rest =>
    (part = "resources" && rest.any (["limits", "requests"].contains ·)) || isResourceQuantityPath rest

def quantitiesEqual (desired live : Value) : Bool :=
  match parseQuantity (sprint desired), parseQuantity (sprint live) with
  | some desiredQty, some liveQty => desiredQty = liveQty
  | _, _ => false

mutual

def specContainsAt (path : List String) : Value → Value → Bool
  | .obj dMap, .obj lMap => mapContains path dMap lMap
  | .arr dSlice, .arr lSlice => !decide (dSlice.length > lSlice.length) && eachContained path dSlice lSlice
  | desired, live =>
    (isResourceQuantityPath path && quantitiesEqual parseQuantity desired live) || sprint desired = sprint live

def mapContains (path : List String) : Fields → Fields → Bool
  | [], _ => true
  | (k, dv) :: rest, lMap =>
    (match lMap.lookup k with
      -- A declared null says that the field is absent.
      | none => (match dv with | .null => true | _ => isOmittedKubernetesDefault (path ++ [k]) dv)
      | some lv => specContainsAt (path ++ [k]) dv lv) && mapContains path rest lMap

/-- The loop of `sliceContains`. -/
def eachContained (path : List String) : List Value → List Value → Bool
  | [], _ => true
  | dv :: rest, lSlice => lSlice.any (fun lv => specContainsAt path dv lv) && eachContained path rest lSlice
end

def sliceContains (path : List String) (dSlice lSlice : List Value) : Bool :=
  !decide (dSlice.length > lSlice.length) && eachContained parseQuantity path dSlice lSlice

/-! ### What a comparison of lists says -/

/-- Each element of the desired list is contained in an element of the live list that is its own. -/
def Matched (path : List String) (dSlice lSlice : List Value) : Prop :=
  ∃ assign : Fin dSlice.length → Fin lSlice.length, Function.Injective assign ∧
    ∀ i, specContainsAt parseQuantity path dSlice[i] lSlice[assign i] = true

/-- The live elements that contain one of the desired elements. -/
def suppliers (path : List String) (dSlice lSlice : List Value) (wanted : Finset (Fin dSlice.length)) :
    Finset (Fin lSlice.length) :=
  wanted.biUnion fun i => Finset.univ.filter fun j => specContainsAt parseQuantity path dSlice[i] lSlice[j] = true

variable {parseQuantity} {path : List String} {dSlice lSlice : List Value}

theorem eachContained_iff : eachContained parseQuantity path dSlice lSlice = true ↔
    ∀ dv ∈ dSlice, ∃ lv ∈ lSlice, specContainsAt parseQuantity path dv lv = true := by
  induction dSlice with
  | nil => simp [eachContained]
  | cons dv rest ih => rw [eachContained, Bool.and_eq_true, ih, any_eq_true, forall_mem_cons]

theorem sliceContains_iff : sliceContains parseQuantity path dSlice lSlice = true ↔ dSlice.length ≤ lSlice.length ∧
      ∀ dv ∈ dSlice, ∃ lv ∈ lSlice, specContainsAt parseQuantity path dv lv = true := by
  rw [sliceContains, Bool.and_eq_true, eachContained_iff]
  simp

theorem Matched.sliceContains (h : Matched parseQuantity path dSlice lSlice) :
    sliceContains parseQuantity path dSlice lSlice = true := by
  obtain ⟨assign, hinj, hcont⟩ := h
  refine sliceContains_iff.mpr ⟨?_, fun dv hdv => ?_⟩
  · simpa using Fintype.card_le_of_injective assign hinj
  · obtain ⟨i, hi, rfl⟩ := mem_iff_getElem.mp hdv
    exact ⟨_, getElem_mem _, hcont ⟨i, hi⟩⟩

theorem matched_iff : Matched parseQuantity path dSlice lSlice ↔
    ∀ wanted, wanted.card ≤ (suppliers parseQuantity path dSlice lSlice wanted).card := by
  refine Iff.symm ((Finset.all_card_le_biUnion_card_iff_exists_injective _).trans ?_)
  simp only [Finset.mem_filter, Finset.mem_univ, true_and]
  rfl

theorem matched_of_apart (h : Engine.sliceContains parseQuantity path dSlice lSlice = true)
    (hapart : ∀ i i' : Fin dSlice.length, ∀ lv ∈ lSlice, specContainsAt parseQuantity path dSlice[i] lv = true →
      specContainsAt parseQuantity path dSlice[i'] lv = true → i = i') :
    Matched parseQuantity path dSlice lSlice := by
  have hsome : ∀ i : Fin dSlice.length, ∃ j : Fin lSlice.length,
      specContainsAt parseQuantity path dSlice[i] lSlice[j] = true := by
    intro i
    obtain ⟨lv, hlv, hcont⟩ := (sliceContains_iff.mp h).2 dSlice[i] (getElem_mem _)
    obtain ⟨j, hj, rfl⟩ := mem_iff_getElem.mp hlv
    exact ⟨⟨j, hj⟩, hcont⟩
  choose assign hassign using hsome
  refine ⟨assign, fun i i' heq => ?_, hassign⟩
  exact hapart i i' _ (getElem_mem _) (hassign i) (heq ▸ hassign i')
end

/-- **Lists are matched, but not one to one.** -/
theorem lists_matched (parseQuantity : String → Option Rat) (path : List String) (dSlice lSlice : List Value) :
    (sliceContains parseQuantity path dSlice lSlice = true ↔ dSlice.length ≤ lSlice.length ∧
      ∀ dv ∈ dSlice, ∃ lv ∈ lSlice, specContainsAt parseQuantity path dv lv = true) ∧
    (Matched parseQuantity path dSlice lSlice ↔
      ∀ wanted, wanted.card ≤ (suppliers parseQuantity path dSlice lSlice wanted).card) ∧
    (Matched parseQuantity path dSlice lSlice → sliceContains parseQuantity path dSlice lSlice = true) ∧
    (sliceContains parseQuantity path dSlice lSlice = true →
      (∀ i i' : Fin dSlice.length, ∀ lv ∈ lSlice, specContainsAt parseQuantity path dSlice[i] lv = true →
        specContainsAt parseQuantity path dSlice[i'] lv = true → i = i') →
      Matched parseQuantity path dSlice lSlice) :=
  ⟨sliceContains_iff, matched_iff, Matched.sliceContains, matched_of_apart⟩

/-- One of two equal arguments is replaced. -/
theorem replaced_unreported :
    sliceContains (fun _ => none) ["spec", "args"] [.str "-v", .str "-v"] [.str "-v", .str "-q"] = true ∧
      ¬Matched (fun _ => none) ["spec", "args"] [.str "-v", .str "-v"] [.str "-v", .str "-q"] := by
  refine ⟨by decide, ?_⟩
  unfold Matched
  decide

end Paprika.Engine
