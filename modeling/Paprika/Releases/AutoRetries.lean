import Paprika.Lib.Versioned
import Paprika.Releases.Attempts

/-!
# Automatic retries

A Release that has ended is put back to `Pending` when it carries the resync annotation.  The Application controller
sets it when it adopts a Release that has ended (`adoptExistingRelease`, which counts up and stops at
`maxReleaseAutoRetries`) and when it finds drift (`selfHealDriftSync`, which does not count); a manual sync takes the
counter away, and so does a Release that completes, by a patch of its own.

Between two of the events manual sync, completion and change of the source hash at most `maxReleaseAutoRetries`
automatic requests are answered, provided that the resyncs for drift are counted where the counter is compared, that no
adoption comes between a completion and its patch, and that the Release controller reads what it has written
(`auto_retries_capped`).
-/

namespace Paprika.Releases

open Lib Lib.Run List

/-! ## The Release and its counter -/

/-- Who has asked for a resync: the Application controller of its own accord, or an operator. -/
inductive ResyncOrigin
  | automatic | operator
  deriving DecidableEq, Repr

structure RetryRelease where
  release : Release
  /-- Who has written the resync annotation. -/
  origin : ResyncOrigin
  /-- `paprika.io/auto-retry-count` as `Atoi` reads it. -/
  count : Option Int
  /-- `paprika.io/source-hash`. -/
  sourceHash : String
  deriving DecidableEq, Repr

def maxReleaseAutoRetries : Nat := 3

def releaseAutoRetryCount (r : RetryRelease) : Int :=
  match r.count with
  | none => 0
  | some count => if count < 0 then 0 else count

/-- `releaseAutoRetriesExhausted`; `sourceHash` is that of the Application. -/
def releaseAutoRetriesExhausted (sourceHash : String) (r : RetryRelease) : Bool :=
  !decide (releaseAutoRetryCount r < maxReleaseAutoRetries) && decide (r.sourceHash = sourceHash)

namespace RetryRelease

def phase (r : RetryRelease) : ReleasePhase := r.release.status.phase

def wantsRetry (r : RetryRelease) : Bool := r.release.resyncRequested && decide (r.origin = .automatic)

def operatorAsks (r : RetryRelease) : Bool := r.release.resyncRequested && decide (r.origin = .operator)

def withStatus (r : RetryRelease) (s : ReleaseStatus) : RetryRelease := { r with release := { r.release with status := s } }

def withoutResync (r : RetryRelease) : RetryRelease := { r with release := { r.release with resyncRequested := false } }

def requestReleaseResync (r : RetryRelease) (origin : ResyncOrigin) : RetryRelease where
  release := { r.release with resyncRequested := true, rollbackRequested := false }
  origin := origin
  count := if origin = .operator then none else some (releaseAutoRetryCount r + 1)
  sourceHash := r.sourceHash

/-- The resync annotation alone, as the self-heal and the API set it. -/
def annotateResync (r : RetryRelease) (origin : ResyncOrigin) : RetryRelease :=
  { r with release := { r.release with resyncRequested := true }, origin := origin }

def annotateRollback (r : RetryRelease) (requested : Bool) : RetryRelease :=
  { r with release := { r.release with rollbackRequested := requested } }

end RetryRelease

/-! ## Runs -/

/-- Why the Application controller asks for a resync of its own accord. -/
inductive RetryCause
  | adoption | drift
  deriving DecidableEq, Repr

/-- What has happened since the last manual sync, completion or change of the source hash. -/
structure RetryTally where
  /-- How often the Release was put back from a terminal phase to `Pending` without an operator's request. -/
  putBacks : Nat
  adoptions : Nat
  drifts : Nat
  /-- The automatic request that no reconcile has answered. -/
  asked : Option RetryCause
  deriving DecidableEq, Repr

namespace RetryTally

def zero : RetryTally := { putBacks := 0, adoptions := 0, drifts := 0, asked := none }

/-- After a completion or a change of the source hash; a request that is not answered is carried over. -/
def restart (t : RetryTally) : RetryTally where
  putBacks := 0
  adoptions := if t.asked = some .adoption then 1 else 0
  drifts := if t.asked = some .drift then 1 else 0
  asked := t.asked

def adopted (t : RetryTally) : RetryTally := { t with adoptions := t.adoptions + 1, asked := some .adoption }

def drifted (t : RetryTally) : RetryTally := { t with drifts := t.drifts + 1, asked := some .drift }

def answered (t : RetryTally) : RetryTally := { t with putBacks := t.putBacks + 1, asked := none }

/-- The requests that no reconcile has answered. -/
def outstanding (t : RetryTally) : Nat := if t.asked = none then 0 else 1

end RetryTally

structure RetryWorld where
  release : Versioned RetryRelease
  tally : RetryTally
  /-- The version of the last write of the Release controller or of the last manual sync. -/
  since : Nat
  /-- A completion is about to remove the counter. -/
  clearing : Bool

/-- `adoptExistingRelease`. -/
structure Adoption where
  /-- How many versions behind the Release is read. -/
  behind : Nat
  /-- `manualSyncRequested`. -/
  manual : Bool
  /-- `app.Status.SourceHash`. -/
  sourceHash : String
  /-- Whether the request is written. -/
  written : Bool
  deriving DecidableEq, Repr

structure ReleaseReconcile where
  behind : Nat
  observation : Observation
  /-- `hasActiveConcurrentRelease`. -/
  active : Bool
  /-- How many of its actions go through. -/
  written : Nat

inductive RetryEvent
  | adopt (a : Adoption)
  /-- `requestCurrentReleaseResync`. -/
  | manualSync
  /-- `selfHealDriftSync`. -/
  | driftSync (behind : Nat)
  /-- `requestSelectiveReleaseResync`. -/
  | selectiveSync
  | sourceChanged
  /-- `supersedeCurrentRelease`, `supersedeRelease`. -/
  | supersede
  | reconcile (e : ReleaseReconcile)
  /-- The patch of `completeRelease`. -/
  | clearCount
  /-- Any other write, such as a request for a rollback. -/
  | annotate (rollbackRequested : Bool)

namespace RetryWorld

variable (w : RetryWorld)

def create (name target : String) (rollsBack : Bool) (sourceHash : String) : RetryWorld where
  release := Versioned.create
    { release := Release.create name target rollsBack, origin := .automatic, count := none, sourceHash := sourceHash }
  tally := .zero
  since := 0
  clearing := false

def current : RetryRelease := w.release.current

/-- A write of the Application controller, the API or an operator. -/
def write (r : RetryRelease) : RetryWorld := { w with release := w.release.write r }

def put (r : RetryRelease) : RetryWorld := { w with release := w.release.write r, since := w.release.version + 1 }

/-- The tally after `Status().Update`; `copy` is what the reconcile works on. -/
def tallyAfter (copy : RetryRelease) (s : ReleaseStatus) : RetryTally :=
  if s.phase = .complete then w.tally.restart
  else if w.current.phase.isTerminal = true ∧ s.phase = .pending ∧ copy.operatorAsks = false then w.tally.answered
  else w.tally

/-- One action of a reconcile that works on `copy`. -/
def perform (copy : RetryRelease) : Action → RetryWorld
  | .status s =>
    { w.put (w.current.withStatus s) with
      tally := w.tallyAfter copy s
      clearing := if s.phase = .complete then copy.count.isSome else w.clearing }
  | .clearResync => w.put w.current.withoutResync
  | .spendRetries =>
    if copy.count = some maxReleaseAutoRetries then w
    else w.put { w.current with count := some maxReleaseAutoRetries }
  | .rolloutRead _ | .weightApplied .. | .gatePassed _ | .checksPassed _ => w

def copyOf (behind : Nat) : RetryRelease := (w.release.read behind).value

/-- Whether the adoption asks for a resync, and on whose behalf. -/
def adopts (a : Adoption) : Option ResyncOrigin :=
  let copy := w.copyOf a.behind
  if !copy.phase.isTerminal || !a.written then none
  else if a.manual then some .operator
  else if releaseAutoRetriesExhausted a.sourceHash copy then none
  else some .automatic

def manualSync : RetryWorld :=
  { w.put (w.current.requestReleaseResync .operator) with tally := .zero }

/-- `selfHealDriftSync` patches the version that it has read. -/
def driftSyncs (behind : Nat) : Bool :=
  let read := w.release.read behind
  decide (read.value.phase = .complete) && !read.value.release.rollbackRequested &&
    !read.value.release.resyncRequested && decide (read.version = w.release.version)

def actions (e : ReleaseReconcile) : List Action :=
  (reconcileReleasePhase e.observation e.active (w.copyOf e.behind).release).take e.written

def step : RetryEvent → RetryWorld
  | .adopt a =>
    match w.adopts a with
    | none => w
    | some .operator => w.manualSync
    | some .automatic =>
      { w.write (w.current.requestReleaseResync .automatic) with tally := w.tally.adopted }
  | .manualSync => w.manualSync
  | .driftSync behind =>
    if w.driftSyncs behind then
      { w.write (w.current.annotateResync .automatic) with tally := w.tally.drifted }
    else w
  | .selectiveSync => w.write (w.current.annotateResync .operator)
  | .sourceChanged => { w with tally := w.tally.restart }
  | .supersede =>
    if w.current.phase.isTerminal then
      w.write (w.current.withStatus { w.current.release.status with phase := .superseded })
    else w
  | .reconcile e => (w.actions e).foldl (fun v a => v.perform (w.copyOf e.behind) a) { w with clearing := false }
  | .clearCount => if w.clearing then { w.put { w.current with count := none } with clearing := false } else w
  | .annotate requested => w.write (w.current.annotateRollback requested)

/-- What keeps the retries within the cap: an adoption finds the counter and the uncounted resyncs for drift below it,
the counter is removed before anything is adopted, and the Release controller reads what it has written. -/
def Counts : RetryEvent → Prop
  | .adopt a => w.adopts a = some .automatic → releaseAutoRetryCount w.current + w.tally.drifts < maxReleaseAutoRetries
  | .clearCount => w.clearing = true → w.tally.adoptions = 0
  | .reconcile e => w.since ≤ (w.release.read e.behind).version
  | _ => True

instance decidableCounts (w : RetryWorld) : ∀ e, Decidable (w.Counts e)
  | .adopt _ | .clearCount => inferInstanceAs (Decidable (_ → _))
  | .reconcile _ => inferInstanceAs (Decidable (_ ≤ _))
  | .manualSync | .driftSync _ | .selectiveSync | .sourceChanged | .supersede | .annotate _ => .isTrue trivial

end RetryWorld

def AutoRetriesCapped (w : RetryWorld) (es : List RetryEvent) : Prop :=
  ∀ before after, es = before ++ after → (run RetryWorld.step w before).tally.putBacks ≤ maxReleaseAutoRetries

/-! ## What a reconcile writes -/

section
variable {o : Observation} {s t : ReleaseStatus}

theorem pending_handlePromotingPhase {name : String} (hs : s.phase = .promoting)
    (ht : Action.status t ∈ handlePromotingPhase o name s) : t.phase ≠ .pending := by
  have hone : ∀ {u : ReleaseStatus}, Action.status t ∈ [Action.status u] → u.phase ≠ .pending → t.phase ≠ .pending := by
    intro u hu hne
    rw [Action.status.inj (mem_singleton.mp hu)]
    exact hne
  have hsame : s.phase ≠ .pending := by rw [hs]; exact ReleasePhase.noConfusion
  have hother : ∀ {p : ReleasePhase}, p.isWaiting = false → p ≠ .pending := by
    intro p hp heq
    rw [heq] at hp
    cases hp
  unfold handlePromotingPhase at ht
  split at ht
  · exact hone ht (hother rfl)
  · exact hone ht (hother rfl)
  · exact hone ht (hother rfl)
  · split at ht
    · unfold advanceAfterPromotion at ht
      split at ht
      · exact hone ht (hother rfl)
      split at ht
      · exact hone ht hsame
      split at ht
      · unfold reconcileRolloutManagedRelease at ht
        split at ht
        · cases ht
        · split at ht
          · exact hone ht (hother rfl)
          · cases ht
        · split at ht
          · obtain ht | ht := mem_cons.mp ht
            · cases ht
            · exact hone ht (hother (isWaiting_ofRolloutPhase _))
          · cases ht
      · split at ht
        · exact hone ht (hother rfl)
        · exact hone ht (hother rfl)
    · exact hone ht hsame
    · exact hone ht hsame
    · exact hone ht hsame
    · cases ht
    · exact hone ht (hother rfl)

theorem pending_reconcileCanary (hs : s.phase = .canarying) (ht : Action.status t ∈ reconcileCanary o s) :
    t.phase ≠ .pending := by
  obtain h | ⟨u, hu, -, hphase⟩ := mem_reconcileCanary ht
  · cases h
  rw [Action.status.inj hu]
  obtain h | h | ⟨h, -⟩ := hphase
  · rw [h, hs]; exact ReleasePhase.noConfusion
  · rw [h]; exact ReleasePhase.noConfusion
  · rw [h]; exact ReleasePhase.noConfusion

/-- The handler of a phase writes `Pending` only as all that it writes, and only for a Release that waits. -/
theorem pending_dispatchPhase {active : Bool} {r : Release} (ht : Action.status t ∈ dispatchPhase o active r)
    (hpend : t.phase = .pending) : r.status.phase.isTerminal = false ∧ dispatchPhase o active r = [.status t] := by
  have hfailed : ∀ {u : ReleaseStatus}, Action.status t ∈ failRelease u → False := by
    intro u hu
    rw [Action.status.inj (mem_singleton.mp hu)] at hpend
    cases hpend
  cases hphase : r.status.phase with
  | complete | failed | rolledBack | superseded =>
    rw [dispatch_terminal (by rw [hphase]; rfl)] at ht
    cases ht
  | unset | pending =>
    refine ⟨rfl, ?_⟩
    have hwait : r.status.phase.isWaiting = true := by rw [hphase]; rfl
    obtain h | h | ⟨-, h⟩ := dispatch_waiting o active hwait
    · rw [h] at ht
      cases ht
    · rw [h] at ht ⊢
      rw [mem_singleton.mp ht]
    · rw [h] at ht ⊢
      rw [mem_singleton.mp ht]
  | awaitingApproval =>
    rw [dispatch_awaitingApproval hphase, handleAwaitingApprovalPhase] at ht
    split at ht
    · cases ht
    · cases ht
    · exact absurd ht hfailed
    · rw [Action.status.inj (mem_singleton.mp ht)] at hpend
      cases hpend
  | promoting =>
    rw [dispatch_promoting hphase] at ht
    split at ht
    · exact absurd hpend (pending_handlePromotingPhase hphase ht)
    · cases ht
  | canarying =>
    rw [dispatch_canarying hphase] at ht
    split at ht
    · exact absurd hpend (pending_reconcileCanary hphase ht)
    · cases ht
  | verifying =>
  rw [dispatch_verifying hphase, handleVerifyingPhase] at ht
  split at ht
  · split at ht
    · rw [Action.status.inj (mem_singleton.mp ht)] at hpend
      cases hpend
    · exact absurd ht hfailed
  · cases ht
end

/-! ## The tally and the counter -/

/-- The requests since the last reset are within the cap, and the counter covers the adoptions among them. -/
structure Accounted (t : RetryTally) (r : RetryRelease) : Prop where
  covered : t.putBacks + t.outstanding ≤ t.adoptions + t.drifts
  capped : t.putBacks + t.outstanding ≤ maxReleaseAutoRetries
  counted : (t.adoptions : Int) ≤ releaseAutoRetryCount r
  adoptions_le : t.adoptions ≤ maxReleaseAutoRetries
  adoption : t.asked = some .adoption → 1 ≤ t.adoptions
  drift : t.asked = some .drift → 1 ≤ t.drifts
  complete : r.phase = .complete → t.putBacks = 0

section
variable {t : RetryTally} {r r' : RetryRelease}

theorem releaseAutoRetryCount_nonneg (r : RetryRelease) : 0 ≤ releaseAutoRetryCount r := by
  unfold releaseAutoRetryCount
  split
  · exact Int.le_refl 0
  · split
    · exact Int.le_refl 0
    · omega

theorem releaseAutoRetryCount_of_count (h : r'.count = r.count) : releaseAutoRetryCount r' = releaseAutoRetryCount r := by
  unfold releaseAutoRetryCount
  rw [h]

theorem count_requestReleaseResync :
    releaseAutoRetryCount (r.requestReleaseResync .automatic) = releaseAutoRetryCount r + 1 := by
  have hnonneg := releaseAutoRetryCount_nonneg r
  show (if releaseAutoRetryCount r + 1 < 0 then 0 else releaseAutoRetryCount r + 1) = _
  rw [if_neg (by omega)]

theorem accounted_zero : Accounted .zero r where
  covered := Nat.le_refl 0
  capped := Nat.zero_le _
  counted := releaseAutoRetryCount_nonneg r
  adoptions_le := Nat.zero_le _
  adoption := by intro h; cases h
  drift := by intro h; cases h
  complete := by intro _; rfl

namespace Accounted

section
variable (h : Accounted t r)
include h

theorem of_count (hcount : r'.count = r.count) (hphase : r'.phase = .complete → r.phase = .complete) :
    Accounted t r' where
  covered := h.covered
  capped := h.capped
  counted := by rw [releaseAutoRetryCount_of_count hcount]; exact h.counted
  adoptions_le := h.adoptions_le
  adoption := h.adoption
  drift := h.drift
  complete := fun hc => h.complete (hphase hc)

theorem restart (hcount : r'.count = r.count) : Accounted t.restart r' := by
  have hcap : 1 ≤ maxReleaseAutoRetries := by decide
  have hcounted := h.counted
  have hle := h.adoptions_le
  cases hasked : t.asked with
  | none =>
    refine ⟨?_, ?_, ?_, ?_, ?_, ?_, ?_⟩ <;>
      simp [RetryTally.restart, RetryTally.outstanding, hasked, releaseAutoRetryCount_nonneg]
  | some cause =>
  cases cause with
  | adoption =>
    have hone := h.adoption hasked
    have hcounted' : (1 : Int) ≤ releaseAutoRetryCount r' := by
      rw [releaseAutoRetryCount_of_count hcount]
      omega
    refine ⟨?_, ?_, ?_, ?_, ?_, ?_, ?_⟩ <;>
      simp [RetryTally.restart, RetryTally.outstanding, hasked, hcap, hcounted']
  | drift =>
    refine ⟨?_, ?_, ?_, ?_, ?_, ?_, ?_⟩ <;>
      simp [RetryTally.restart, RetryTally.outstanding, hasked, hcap, releaseAutoRetryCount_nonneg]

theorem adopted (hbelow : releaseAutoRetryCount r + t.drifts < maxReleaseAutoRetries) :
    Accounted t.adopted (r.requestReleaseResync .automatic) := by
  have hcovered := h.covered
  have hcounted := h.counted
  have hone : t.adopted.outstanding = 1 := rfl
  refine ⟨?_, ?_, ?_, ?_, ?_, ?_, h.complete⟩
  · show t.putBacks + t.adopted.outstanding ≤ t.adoptions + 1 + t.drifts
    omega
  · show t.putBacks + t.adopted.outstanding ≤ maxReleaseAutoRetries
    omega
  · show ((t.adoptions + 1 : Nat) : Int) ≤ _
    rw [count_requestReleaseResync]
    omega
  · show t.adoptions + 1 ≤ maxReleaseAutoRetries
    omega
  · intro _
    exact Nat.le_add_left 1 t.adoptions
  · intro hdrift
    cases hdrift

theorem drifted (hcomp : r.phase = .complete) : Accounted t.drifted (r.annotateResync .automatic) := by
  have hzero := h.complete hcomp
  have hone : t.drifted.outstanding = 1 := rfl
  have hcap : 1 ≤ maxReleaseAutoRetries := by decide
  refine ⟨?_, ?_, h.counted, h.adoptions_le, ?_, ?_, h.complete⟩
  · show t.putBacks + t.drifted.outstanding ≤ t.adoptions + (t.drifts + 1)
    omega
  · show t.putBacks + t.drifted.outstanding ≤ maxReleaseAutoRetries
    omega
  · intro hadoption
    cases hadoption
  · intro _
    exact Nat.le_add_left 1 t.drifts

theorem answered (hasked : t.asked ≠ none) (hcount : r'.count = r.count)
    (hphase : r'.phase ≠ .complete) : Accounted t.answered r' := by
  have hcovered := h.covered
  have hcapped := h.capped
  have hone : t.outstanding = 1 := if_neg hasked
  have hnone : t.answered.outstanding = 0 := rfl
  refine ⟨?_, ?_, ?_, h.adoptions_le, ?_, ?_, fun hc => absurd hc hphase⟩
  · show t.putBacks + 1 + t.answered.outstanding ≤ t.adoptions + t.drifts
    omega
  · show t.putBacks + 1 + t.answered.outstanding ≤ maxReleaseAutoRetries
    omega
  · rw [releaseAutoRetryCount_of_count hcount]
    exact h.counted
  · intro hadoption
    cases hadoption
  · intro hdrift
    cases hdrift

/-- `markRolledBack` spends the retries, and the counter covers whatever there was. -/
theorem spent : Accounted t { r with count := some maxReleaseAutoRetries } where
  covered := h.covered
  capped := h.capped
  counted := Int.ofNat_le.mpr h.adoptions_le
  adoptions_le := h.adoptions_le
  adoption := h.adoption
  drift := h.drift
  complete := h.complete

theorem cleared (hnone : t.adoptions = 0) : Accounted t { r with count := none } where
  covered := h.covered
  capped := h.capped
  counted := by rw [hnone]; exact Int.le_refl 0
  adoptions_le := h.adoptions_le
  adoption := h.adoption
  drift := h.drift
  complete := h.complete
end

end Accounted
end

/-! ## The copies that the Release controller may read -/

/-- What the tally says of a copy: an ended one that asks for a retry has not been answered, one in flight is not behind
an end, and when every request has been answered the annotation is only still to be removed. -/
structure Readable (t : RetryTally) (current copy : RetryRelease) : Prop where
  unanswered : copy.phase.isTerminal = true → copy.wantsRetry = true → t.asked ≠ none
  ongoing : copy.phase.isTerminal = false → current.phase.isTerminal = false
  removable : t.asked = none → current.wantsRetry = true →
    copy.release.resyncRequested = true ∧ copy.phase.isTerminal = false

structure RetryInv (w : RetryWorld) : Prop where
  accounted : Accounted w.tally w.current
  since_le : w.since ≤ w.release.version
  readable : ∀ c, w.release.Holds c → w.since ≤ c.version → Readable w.tally w.current c.value

section
variable {w : RetryWorld} {t : RetryTally} {r copy : RetryRelease} {clearing : Bool}

theorem requested_of_wantsRetry (h : r.wantsRetry = true) : r.release.resyncRequested = true :=
  (Bool.and_eq_true_iff.mp h).1

/-- The current version is readable when an end that asks for a retry has not been answered. -/
theorem readable_self (h : r.phase.isTerminal = true → r.wantsRetry = true → t.asked ≠ none) : Readable t r r where
  unanswered := h
  ongoing := id
  removable := by
    intro hasked hwants
    refine ⟨requested_of_wantsRetry hwants, ?_⟩
    by_contra hterm
    exact h (Bool.not_eq_false _ ▸ hterm) hwants hasked

/-- After a write of the Release controller the only copy that it may read is the new version. -/
theorem inv_put (hacc : Accounted t r) (hunanswered : r.phase.isTerminal = true → r.wantsRetry = true → t.asked ≠ none) :
    RetryInv { w.put r with tally := t, clearing := clearing } where
  accounted := hacc
  since_le := Nat.le_refl _
  readable := by
    intro c hc hsince
    rw [hc.eq_current hsince]
    exact readable_self hunanswered

namespace RetryInv

section
variable (h : RetryInv w)
include h

theorem readable_current : Readable w.tally w.current w.current := h.readable _ w.release.holds_current h.since_le

theorem unanswered : w.current.phase.isTerminal = true → w.current.wantsRetry = true → w.tally.asked ≠ none :=
  h.readable_current.unanswered

theorem write (hacc : Accounted t r) (hself : Readable t r r)
    (hold : ∀ v, Readable w.tally w.current v → Readable t r v) : RetryInv { w.write r with tally := t } where
  accounted := hacc
  since_le := Nat.le_succ_of_le h.since_le
  readable := by
    intro c hc hsince
    obtain hvalue | hc := hc.of_write
    · rw [hvalue]
      exact hself
    · exact hold c.value (h.readable c hc hsince)

theorem withTally (hacc : Accounted t w.current) (hasked : t.asked = w.tally.asked) :
    RetryInv { w with tally := t } where
  accounted := hacc
  since_le := h.since_le
  readable := by
    intro c hc hsince
    obtain ⟨hunanswered, hongoing, hremovable⟩ := h.readable c hc hsince
    exact ⟨by rw [hasked]; exact hunanswered, hongoing, by rw [hasked]; exact hremovable⟩

theorem withClearing : RetryInv { w with clearing := clearing } := ⟨h.accounted, h.since_le, h.readable⟩
end

end RetryInv

/-! ### One reconcile -/

/-- Where every request has been answered, none is to be seen. -/
def Settled (w : RetryWorld) : Prop := w.tally.asked = none → w.current.wantsRetry = false

theorem settled_unanswered (h : Settled w) (hwants : w.current.wantsRetry = true) : w.tally.asked ≠ none := by
  intro hasked
  rw [h hasked] at hwants
  cases hwants

theorem RetryInv.perform (h : RetryInv w) (hset : Settled w) (copy : RetryRelease) {a : Action}
    (ha : ∀ s, a = .status s → s.phase = .pending → w.current.phase.isTerminal = false) :
    RetryInv (w.perform copy a) ∧ Settled (w.perform copy a) := by
  cases a with
  | rolloutRead _ | weightApplied _ _ _ | gatePassed _ | checksPassed _ => exact ⟨h, hset⟩
  | clearResync =>
    refine ⟨inv_put (h.accounted.of_count rfl id) ?_, fun _ => rfl⟩
    intro _ hwants
    cases hwants
  | spendRetries =>
    show RetryInv (if _ then _ else _) ∧ Settled (if _ then _ else _)
    split
    · exact ⟨h, hset⟩
    · exact ⟨inv_put h.accounted.spent h.unanswered, hset⟩
  | status s =>
  have hasked : (w.tallyAfter copy s).asked = w.tally.asked := by
    unfold RetryWorld.tallyAfter
    split
    · rfl
    · split
      · next hback => rw [ha s rfl hback.2.1] at hback; cases hback.1
      · rfl
  have haccounted : Accounted (w.tallyAfter copy s) (w.current.withStatus s) := by
    unfold RetryWorld.tallyAfter
    split
    · exact h.accounted.restart rfl
    · next hne =>
      split
      · next hback => rw [ha s rfl hback.2.1] at hback; cases hback.1
      · exact h.accounted.of_count rfl (fun hc => absurd hc hne)
  refine ⟨inv_put haccounted ?_, ?_⟩
  · intro _ hwants
    rw [hasked]
    exact settled_unanswered hset hwants
  · intro hnone
    exact hset (hasked ▸ hnone)

theorem RetryInv.foldl {l : List Action} (hl : ∀ s, Action.status s ∈ l → s.phase ≠ .pending) :
    ∀ {w : RetryWorld}, RetryInv w → Settled w → RetryInv (l.foldl (fun v a => v.perform copy a) w) := by
  induction l with
  | nil => intro w h _; exact h
  | cons a rest ih =>
    intro w h hset
    have hstep := h.perform hset copy (a := a) (by
      intro s hs hpend
      exact absurd hpend (hl s (hs ▸ mem_cons_self)))
    exact ih (fun s hs => hl s (mem_cons_of_mem a hs)) hstep.1 hstep.2

theorem RetryInv.clearResync (h : RetryInv w) (copy : RetryRelease) : RetryInv (w.perform copy .clearResync) := by
  refine inv_put (h.accounted.of_count rfl id) ?_
  intro _ hwants
  cases hwants

theorem RetryInv.takeBack (h : RetryInv w) (hread : Readable w.tally w.current copy)
    (hterm : copy.phase.isTerminal = true) (hrequested : copy.release.resyncRequested = true) {s : ReleaseStatus}
    (hs : s.phase = .pending) : RetryInv (w.perform copy (.status s)) := by
  have hne : s.phase ≠ .complete := by rw [hs]; exact ReleasePhase.noConfusion
  have haccounted : Accounted (w.tallyAfter copy s) (w.current.withStatus s) := by
    unfold RetryWorld.tallyAfter
    rw [if_neg hne]
    split
    · next hback =>
      have hwants : copy.wantsRetry = true := by
        have horigin := hback.2.2
        cases ho : copy.origin with
        | automatic => simp [RetryRelease.wantsRetry, hrequested, ho]
        | operator => simp [RetryRelease.operatorAsks, hrequested, ho] at horigin
      exact h.accounted.answered (hread.unanswered hterm hwants) rfl hne
    · exact h.accounted.of_count rfl (fun hc => absurd hc hne)
  refine inv_put haccounted ?_
  intro hended
  have hpend : (w.current.withStatus s).phase = .pending := hs
  rw [hpend] at hended
  cases hended

theorem RetryInv.reconcile (h : RetryInv w) {e : ReleaseReconcile} (hfresh : w.since ≤ (w.release.read e.behind).version) :
    RetryInv (w.step (.reconcile e)) := by
  have hinv : RetryInv { w with clearing := false } := h.withClearing
  have hread : Readable w.tally w.current (w.copyOf e.behind) := h.readable _ (w.release.holds_read e.behind) hfresh
  have hset : (w.copyOf e.behind).release.resyncRequested = false → Settled { w with clearing := false } := by
    intro hno hasked
    cases hwants : w.current.wantsRetry with
    | false => exact hwants
    | true =>
      have hyes := (hread.removable hasked hwants).1
      rw [hno] at hyes
      cases hyes
  show RetryInv (((reconcileReleasePhase e.observation e.active (w.copyOf e.behind).release).take e.written).foldl _ _)
  obtain ⟨hrequested, hacts⟩ | ⟨hno, -, hacts⟩ | ⟨hdispatched, hacts⟩ :=
    reconcile_cases e.observation e.active (w.copyOf e.behind).release
  · rw [hacts, handleResyncAnnotation]
    cases hterm : (w.copyOf e.behind).phase.isTerminal with
    | true =>
      rw [RetryRelease.phase] at hterm
      rw [if_pos hterm]
      rcases e.written with _ | _ | n
      · exact hinv
      · exact hinv.takeBack hread hterm hrequested rfl
      · rw [singleton_append, take_succ_cons, take_succ_cons, take_nil]
        exact (hinv.takeBack hread hterm hrequested rfl).clearResync (w.copyOf e.behind)
    | false =>
    rw [RetryRelease.phase] at hterm
    rw [if_neg (by rw [hterm]; exact Bool.false_ne_true)]
    cases e.written with
    | zero => exact hinv
    | succ n =>
      rw [nil_append, take_succ_cons, take_nil]
      exact hinv.clearResync (w.copyOf e.behind)
  · rw [hacts]
    refine RetryInv.foldl ?_ hinv (hset hno)
    intro s hs
    have hs := mem_of_mem_take hs
    unfold handleFailedRollback at hs
    split at hs
    · cases hs
    · simp only [mem_cons, Action.status.injEq, not_mem_nil, or_false, reduceCtorEq, false_or] at hs
      rw [hs]
      exact ReleasePhase.noConfusion
  · rw [hacts]
    by_cases hpend : ∃ s, Action.status s ∈ dispatchPhase e.observation e.active (w.copyOf e.behind).release ∧
        s.phase = .pending
    · obtain ⟨s, hs, hphase⟩ := hpend
      obtain ⟨hongoing, hone⟩ := pending_dispatchPhase hs hphase
      rw [hone]
      cases e.written with
      | zero => exact hinv
      | succ n =>
        rw [take_succ_cons, take_nil]
        exact (hinv.perform (hset hdispatched.1) (w.copyOf e.behind) (a := .status s)
          (fun _ _ _ => hread.ongoing hongoing)).1
    · refine RetryInv.foldl ?_ hinv (hset hdispatched.1)
      intro s hs hphase
      exact hpend ⟨s, mem_of_mem_take hs, hphase⟩

/-! ### The other steps -/

theorem RetryInv.manualSync : RetryInv w.manualSync := by
  refine inv_put accounted_zero ?_
  intro _ hwants
  simp [RetryRelease.wantsRetry, RetryRelease.requestReleaseResync] at hwants

section
variable (h : RetryInv w)
include h

theorem RetryInv.adopted (hbelow : releaseAutoRetryCount w.current + w.tally.drifts < maxReleaseAutoRetries) :
    RetryInv { w.write (w.current.requestReleaseResync .automatic) with tally := w.tally.adopted } := by
  have hasked : w.tally.adopted.asked ≠ none := by intro hnone; cases hnone
  refine h.write (h.accounted.adopted hbelow) (readable_self (fun _ _ => hasked)) ?_
  intro v hv
  exact ⟨fun _ _ => hasked, hv.ongoing, fun hnone => absurd hnone hasked⟩

theorem RetryInv.drifted {behind : Nat} (hdrift : w.driftSyncs behind = true) :
    RetryInv { w.write (w.current.annotateResync .automatic) with tally := w.tally.drifted } := by
  have hasked : w.tally.drifted.asked ≠ none := by intro hnone; cases hnone
  simp only [RetryWorld.driftSyncs, Bool.and_eq_true, decide_eq_true_eq] at hdrift
  have hcur : (w.release.read behind).value = w.current :=
    (w.release.holds_read behind).eq_current (Nat.le_of_eq hdrift.2.symm)
  have hcomp : w.current.phase = .complete := by
    rw [← hcur]
    exact hdrift.1.1.1
  refine h.write (h.accounted.drifted hcomp) (readable_self (fun _ _ => hasked)) ?_
  intro v hv
  exact ⟨fun _ _ => hasked, hv.ongoing, fun hnone => absurd hnone hasked⟩

/-- A write that leaves the tally alone, the phase as it is, or an end as an end, and asks for no retry of its own. -/
theorem RetryInv.other (hcount : r.count = w.current.count)
    (hterm : r.phase.isTerminal = w.current.phase.isTerminal)
    (hcomp : r.phase = .complete → w.current.phase = .complete)
    (hwants : r.wantsRetry = true → w.current.wantsRetry = true) : RetryInv (w.write r) := by
  refine h.write (t := w.tally) (h.accounted.of_count hcount hcomp) (readable_self ?_) ?_
  · intro hended hretry
    exact h.unanswered (hterm ▸ hended) (hwants hretry)
  · intro v hv
    exact ⟨hv.unanswered, fun hv' => hterm ▸ hv.ongoing hv', fun hasked hretry => hv.removable hasked (hwants hretry)⟩

theorem RetryInv.step {e : RetryEvent} (he : w.Counts e) : RetryInv (w.step e) := by
  cases e with
  | adopt a =>
    cases hadopts : w.adopts a with
    | none => simpa only [RetryWorld.step, hadopts] using h
    | some origin =>
      cases origin with
      | operator => simpa only [RetryWorld.step, hadopts] using RetryInv.manualSync
      | automatic => simpa only [RetryWorld.step, hadopts] using h.adopted (he hadopts)
  | manualSync => exact RetryInv.manualSync
  | driftSync behind =>
    show RetryInv (if _ then _ else _)
    split
    · next hdrift => exact h.drifted hdrift
    · exact h
  | selectiveSync =>
    refine h.other rfl rfl id ?_
    intro hwants
    simp [RetryRelease.wantsRetry, RetryRelease.annotateResync] at hwants
  | sourceChanged => exact h.withTally (h.accounted.restart rfl) rfl
  | supersede =>
    show RetryInv (if _ then _ else _)
    split
    · next hterm => exact h.other rfl hterm.symm (fun hc => by cases hc) id
    · exact h
  | reconcile e => exact h.reconcile he
  | clearCount =>
    show RetryInv (if _ then _ else _)
    split
    · next hclearing => exact inv_put (h.accounted.cleared (he hclearing)) h.unanswered
    · exact h
  | annotate requested => exact h.other rfl rfl id id
end

theorem inv_create (name target : String) (rollsBack : Bool) (sourceHash : String) :
    RetryInv (RetryWorld.create name target rollsBack sourceHash) where
  accounted := accounted_zero
  since_le := Nat.le_refl 0
  readable := by
    intro c hc _
    rw [hc.eq_current (Nat.zero_le _)]
    refine readable_self ?_
    intro hterm
    cases hterm
end

/-! ## The cap -/

/-- **The cap on automatic retries.** -/
theorem auto_retries_capped (name target : String) (rollsBack : Bool) (sourceHash : String) (es : List RetryEvent)
    (h : Guarded RetryWorld.step RetryWorld.Counts (RetryWorld.create name target rollsBack sourceHash) es) :
    AutoRetriesCapped (RetryWorld.create name target rollsBack sourceHash) es := by
  intro before after hsplit
  rw [hsplit] at h
  have hinv : RetryInv (run RetryWorld.step (RetryWorld.create name target rollsBack sourceHash) before) :=
    guarded_invariant (fun w e hw he => hw.step he) (inv_create name target rollsBack sourceHash) (guarded_append.mp h).1
  have hcapped := hinv.accounted.capped
  omega

/-- A reconcile of the current version in which every action goes through. -/
def fullReconcile (o : Observation) : RetryEvent :=
  .reconcile { behind := 0, observation := o, active := false, written := 2 }

/-- A run of the Release that completes, or fails in its verification. -/
def attemptRun (verified : Bool) : List RetryEvent :=
  [fullReconcile quietObservation, fullReconcile quietObservation,
    fullReconcile { quietObservation with verified := verified }]

/-- A Release that has failed is superseded, adopted and taken back, and fails again. -/
def adoptedRun (sourceHash : String) : List RetryEvent :=
  [.supersede, .adopt { behind := 0, manual := false, sourceHash := sourceHash, written := true },
    fullReconcile quietObservation] ++ attemptRun false

/-- The release completes and is taken back for drift, and fails. -/
def driftRun : List RetryEvent := attemptRun true ++ [.driftSync 0, fullReconcile quietObservation] ++ attemptRun false

def shopRetries : RetryWorld := .create "shop-1" "prod" false "abc"

/-- A drift, two adoptions, and a manual sync after which the counter starts anew. -/
theorem auto_retries_capped_shop : AutoRetriesCapped shopRetries
      (driftRun ++ adoptedRun "abc" ++ adoptedRun "abc" ++ [.manualSync, fullReconcile quietObservation] ++
        attemptRun false ++ adoptedRun "abc") :=
  auto_retries_capped "shop-1" "prod" false "abc" _ (by decide)

/-- The drift is not counted: three adoptions follow it. -/
theorem auto_retries_exceed_cap :
    ¬AutoRetriesCapped shopRetries (driftRun ++ adoptedRun "abc" ++ adoptedRun "abc" ++ adoptedRun "abc") := by
  intro h
  exact absurd (h _ [] (append_nil _).symm) (by decide +kernel)

end Paprika.Releases
