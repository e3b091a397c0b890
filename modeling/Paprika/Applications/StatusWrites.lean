import Paprika.Applications.Types
import Paprika.Releases.Types

/-!
# Applications: writing the status

One attempt of `patchAppStatusPreserving` of `application_controller.go` and of `patchReleaseStatus` of
`release_controller.go`: what is written over the object as it is re-read.  Both stamp the generation of that object.
-/

namespace Paprika.Applications

open Releases (ReleaseStatus)

def publisherOwnsReleaseRef (fresh : Application) : Bool := isInlineSource fresh && !promotionTriggered fresh

/-- The stored release reference is kept. -/
def keepsReleaseRef (preserveReleaseRef : Bool) (desired : ApplicationStatus) (fresh : Application) : Bool :=
  preserveReleaseRef && fresh.status.releaseRef != "" && (desired.releaseRef == "" || publisherOwnsReleaseRef fresh)

def adoptConcurrentStatus (preserveReleaseRef : Bool) (desired : ApplicationStatus) (fresh : Application) :
    ApplicationStatus :=
  { desired with
    releaseRef :=
      if keepsReleaseRef preserveReleaseRef desired fresh then fresh.status.releaseRef else desired.releaseRef
    gates := if desired.gates.isEmpty && !fresh.status.gates.isEmpty then fresh.status.gates else desired.gates }

/-- One attempt of `patchAppStatusPreserving`: the status is left alone if it would not change. -/
def patchAppStatusPreserving (preserveReleaseRef : Bool) (fresh : Application) (desired : ApplicationStatus) :
    Option Application :=
  let status :=
    { adoptConcurrentStatus preserveReleaseRef desired fresh with observedGeneration := fresh.generation }
  if fresh.status = status then none else some { fresh with status := status }

/-- A `Release`, with what the generation of its spec has to do with its status. -/
structure ReleaseObject where
  generation : Nat
  observedGeneration : Nat
  status : ReleaseStatus
  deriving DecidableEq, Repr

def patchReleaseStatus (fresh : ReleaseObject) (desired : ReleaseStatus) : ReleaseObject :=
  { fresh with status := desired, observedGeneration := fresh.generation }

end Paprika.Applications
