import Paprika.Lib.Text
import Paprika.Rollouts.Types

/-!
# What the strategies share

`internal/rollout/core/core.go`, and the two things each strategy package repeats with its own constants:
the construction of a ReplicaSet name from the rollout name, a marker and a hash, and the inverse
`hashFromRSName`.

The names are `ro.Name + marker + hash`.  A hash holds no dash, so the marker and the hash can be read off
the name (`rsName_inj`), and `hashFromRSName` recovers the hash of a name built with the marker it looks for
first (`hashAfter_rsName`) — whatever the rollout is called.
-/

namespace Paprika.Rollouts

open Lib.Text String

variable {P : Type}

/-- `core.IsAborted`: the durable flag or the annotation. -/
def isAborted (ro : Rollout P) (status : RolloutStatus) : Bool :=
  status.abort || (ro.annotations abortAnnotation).isSome

def abortResult (ro : Rollout P) (status : RolloutStatus) (stableHash : String)
    (desiredReplicas : Int) : SyncResult P where
  phase := .aborted
  action := .abort
  message := "Rollout aborted; stable ReplicaSet retained"
  replicaSets :=
    ⟨status.stableRS, desiredReplicas, none,
      [(stableLabel, "true"), (revisionLabel, stableHash), (rolloutLabel, ro.name)]⟩ ::
    (if status.canaryRS = "" then [] else
      [⟨status.canaryRS, 0, none,
        [(canaryLabel, "true"), (revisionLabel, stableHash), (rolloutLabel, ro.name)]⟩])

/-! ### ReplicaSet names -/

/-- `strings.LastIndex` and the slice behind it. -/
def textAfterLast (sep name : String) : Option String := (afterLast sep.toList name.toList).map String.ofList

/-- The body of every `hashFromRSName`: the text behind the first of the markers that occurs, else the text
behind the last dash, else nothing. -/
def hashAfter (markers : List String) (name : String) : String :=
  match markers.findSome? (fun marker => textAfterLast marker name) with
  | some hash => hash
  | none => (textAfterLast "-" name).getD ""

/-- `ro.Name + marker + hash`. -/
def rsName (ro : Rollout P) (marker hash : String) : String := ro.name ++ marker ++ hash

/-- A marker is a text that ends in a dash; the part before that dash is `stem`. -/
def IsMarker (marker stem : String) : Prop := marker.toList = stem.toList ++ ['-']

theorem isMarker_dash : IsMarker "-" "" := rfl
theorem isMarker_stable : IsMarker "-stable-" "-stable" := rfl
theorem isMarker_canary : IsMarker "-canary-" "-canary" := rfl
theorem isMarker_active : IsMarker "-active-" "-active" := rfl
theorem isMarker_preview : IsMarker "-preview-" "-preview" := rfl

variable {hash marker stem : String}

section
variable (ro : Rollout P)
include ro

theorem rsName_toList (hm : IsMarker marker stem) :
    (rsName ro marker hash).toList = (ro.name.toList ++ stem.toList) ++ '-' :: hash.toList := by
  simp [rsName, show marker.toList = stem.toList ++ ['-'] from hm]

theorem textAfterLast_rsName (hm : IsMarker marker stem)
    (hh : '-' ∉ hash.toList) : textAfterLast marker (rsName ro marker hash) = some hash := by
  have hname : (rsName ro marker hash).toList
      = ro.name.toList ++ (stem.toList ++ ['-']) ++ hash.toList := by
    rw [rsName_toList ro hm]; simp
  rw [textAfterLast, hname, show marker.toList = stem.toList ++ ['-'] from hm, afterLast_append hh]
  simp

/-- **`hashFromRSName` recovers the hash** of a name built with the first marker it looks for. -/
theorem hashAfter_rsName (markers : List String)
    (hm : IsMarker marker stem) (hh : '-' ∉ hash.toList) :
    hashAfter (marker :: markers) (rsName ro marker hash) = hash := by
  simp [hashAfter, textAfterLast_rsName ro hm hh]

/-- **Names are injective** in the marker and the hash. -/
theorem rsName_inj {m₁ m₂ s₁ s₂ h₁ h₂ : String} (hm₁ : IsMarker m₁ s₁)
    (hm₂ : IsMarker m₂ s₂) (hh₁ : '-' ∉ h₁.toList) (hh₂ : '-' ∉ h₂.toList)
    (heq : rsName ro m₁ h₁ = rsName ro m₂ h₂) : s₁ = s₂ ∧ h₁ = h₂ := by
  have hlist := congrArg String.toList heq
  rw [rsName_toList ro hm₁, rsName_toList ro hm₂] at hlist
  obtain ⟨hstem, hhash⟩ := tail_unique hh₁ hh₂ hlist
  exact ⟨toList_inj.mp (List.append_cancel_left hstem), toList_inj.mp hhash⟩

theorem rsName_ne_empty (hm : IsMarker marker stem) : rsName ro marker hash ≠ "" := by
  intro h
  have hlist := congrArg String.toList h
  rw [rsName_toList ro hm] at hlist
  simp at hlist

/-- A dash-free text found behind the last occurrence of some marker stands behind *that* marker. -/
theorem textAfterLast_marker {m₁ s₁ m₂ s₂ found : String}
    (hm₁ : IsMarker m₁ s₁) (hm₂ : IsMarker m₂ s₂) (hh : '-' ∉ hash.toList) (hf : '-' ∉ found.toList)
    (h : textAfterLast m₂ (rsName ro m₁ hash) = some found) :
    found = hash ∧ ∃ front, ro.name.toList ++ s₁.toList = front ++ s₂.toList := by
  obtain ⟨rest, hrest, hfound⟩ := Option.map_eq_some_iff.mp h
  obtain ⟨front, hsplit⟩ := afterLast_split hrest
  have hrest' : rest = found.toList := by rw [← hfound, toList_ofList]
  subst hrest'
  rw [rsName_toList ro hm₁, show m₂.toList = s₂.toList ++ ['-'] from hm₂] at hsplit
  have heq : (ro.name.toList ++ s₁.toList) ++ '-' :: hash.toList
      = (front ++ s₂.toList) ++ '-' :: found.toList := by simpa using hsplit
  obtain ⟨hfront, htail⟩ := tail_unique hh hf heq
  exact ⟨(toList_inj.mp htail).symm, front, hfront⟩
end

end Paprika.Rollouts
