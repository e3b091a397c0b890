import Paprika.Lib.Process
import Paprika.Promotion.Evidence

/-!
# Promotion: the Application in the API and the writes to it

The store holds the Application, the clock and, for the record, what has happened so far (`Fact`, newest first).  A
reconcile makes its writes one at a time (`Action`); the optimistic ones are refused when the Application is no longer
what the reconcile has read.  Between two writes anybody may edit the specification and the two annotations, and the
clock advances (`Edit`).

What has happened since the current verification attempt became active is `attemptFacts`.
-/

namespace Paprika.Promotion

open List

variable {Ω H : Type}

inductive Fact (Ω H : Type)
  /-- A reconcile has begun the verification of a specification with this hash. -/
  | began (configHash : H)
  /-- The upstream was not found ready, reachable, with a valid chain and compatible. -/
  | interrupted
  /-- The candidate was rejected, since the upstream had moved on. -/
  | rejected
  /-- The upstream was found ready, and compatible, with this identity. -/
  | sourceReady (source : SourceKey)
  /-- The candidate is being verified for a specification with this hash. -/
  | verifying (configHash : H)
  /-- The observation has started. -/
  | stamped (now : Int)
  | gatePassed (gate : GateConfig)
  | testsSucceeded (pipeline : PipelineObject Ω H)
  | approvalConsumed (uid : String)
  /-- A new candidate was selected. -/
  | selected (candidate : Candidate Ω H)
  /-- A fresh attempt became active, with the Application and its Release as they were found. -/
  | activated (request : String) (app : Application Ω H) (release : Option (AdmittedRelease H))
      (next : Candidate Ω H)
  /-- The verification has left the candidate ready for this specification. -/
  | left (candidate : Candidate Ω H) (spec : Spec Ω) (now : Int)
  /-- The candidate was accepted for deployment with this specification. -/
  | accepted (candidate : Candidate Ω H) (spec : Spec Ω)
  deriving DecidableEq

def Fact.isActivation : Fact Ω H → Bool
  | .selected _ | .activated .. => true
  | _ => false

def Fact.activates : Fact Ω H → Option (Candidate Ω H)
  | .selected c => some c
  | .activated _ _ _ next => some next
  | _ => none

/-- What has happened since the current attempt became active. -/
def attemptFacts (log : List (Fact Ω H)) : List (Fact Ω H) := log.takeWhile (fun fact => !fact.isActivation)

/-- The candidate as it was when the current attempt became active. -/
def activation (log : List (Fact Ω H)) : Option (Candidate Ω H) := log.findSome? Fact.activates

/-! ### The store -/

structure Store (Ω H : Type) where
  app : Application Ω H
  log : List (Fact Ω H)
  clock : Int
  deriving DecidableEq

def Application.setCandidate (app : Application Ω H) (c : Candidate Ω H) : Application Ω H :=
  { app with status := { app.status with promotion := some c } }

def Application.setCondition (app : Application Ω H) (ready : Bool) : Application Ω H :=
  { app with status := { app.status with promotionReady := some ready } }

/-- The candidate of an Application changed in place. -/
def Application.mapCandidate (f : Candidate Ω H → Candidate Ω H) (app : Application Ω H) : Application Ω H :=
  { app with status := { app.status with promotion := app.status.promotion.map f } }

def Store.record (s : Store Ω H) (fact : Fact Ω H) : Store Ω H := { s with log := fact :: s.log }

def Store.publish (s : Store Ω H) (status : Status Ω H) : Store Ω H := { s with app := { s.app with status := status } }

/-- The approval annotation is deleted. -/
def Store.clearApproval (s : Store Ω H) : Store Ω H := { s with app := { s.app with approval := "" } }

/-- The retry annotation is deleted. -/
def Store.clearRetry (s : Store Ω H) : Store Ω H := { s with app := { s.app with retry := "" } }

/-! ### Writes -/

/-- What a reconcile does to the API, and what it notes. -/
inductive Action (Ω H : Type)
  | note (fact : Fact Ω H)
  | patchAppStatus (status : Status Ω H) (facts : List (Fact Ω H))
  | consumePromotionApproval (generation : Nat) (configHash : H) (uid : String)
  | consumePromotionRetry (request : String)
  /-- The check of `writePromotionVerificationAttempt` before it looks at the upstream. -/
  | readPromotionVerificationTarget (generation : Nat) (original next : Candidate Ω H) (request : String)
  | writePromotionVerificationAttempt (generation : Nat) (original next : Candidate Ω H) (request : String)
      (release : Option (AdmittedRelease H))
  | writeReadyPromotion (generation : Nat) (configHash : H) (status : Status Ω H) (facts : List (Fact Ω H))

section
variable [DecidableEq Ω] [DecidableEq H] (hash : Spec Ω → H)

def promotionRetryIntentMatches (latest : Application Ω H) (generation : Nat) (original next : Candidate Ω H)
    (request : String) : Bool :=
  latest.generation == generation && some (hash latest.spec) == next.verificationConfigHash &&
    latest.retry == request && latest.approval == "" && latest.status.promotion == some original

/-- One write. -/
def perform : Action Ω H → Store Ω H → Option (Store Ω H)
  | .note fact, s => some (s.record fact)
  | .patchAppStatus status facts, s => some (facts.foldl Store.record (s.publish status))
  | .consumePromotionApproval generation configHash uid, s =>
    if s.app.generation = generation ∧ hash s.app.spec = configHash ∧ s.app.approval = uid then
      some (s.clearApproval.record (.approvalConsumed uid))
    else none
  | .consumePromotionRetry request, s => if s.app.retry = request then some s.clearRetry else none
  | .readPromotionVerificationTarget generation original next request, s =>
    if promotionRetryIntentMatches hash s.app generation original next request then some s else none
  | .writePromotionVerificationAttempt generation original next request release, s =>
    if promotionRetryIntentMatches hash s.app generation original next request then
      some ((s.publish { s.app.status with promotion := some next }).record (.activated request s.app release next))
    else none
  | .writeReadyPromotion generation configHash status facts, s =>
    if s.app.generation = generation ∧ hash s.app.spec = configHash then
      some (facts.foldl Store.record (s.publish status))
    else none
end

/-! ### Edits -/

/-- What others do to the Application, and the passing of time in seconds. -/
inductive Edit (Ω : Type)
  | spec (desired : Spec Ω)
  | approval (value : String)
  | retry (value : String)
  | tick (seconds : Nat)

def Edit.apply (s : Store Ω H) : Edit Ω → Store Ω H
  | .spec desired => { s with app := { s.app with spec := desired, generation := s.app.generation + 1 } }
  | .approval value => { s with app := { s.app with approval := value } }
  | .retry value => { s with app := { s.app with retry := value } }
  | .tick seconds => { s with clock := s.clock + seconds }

/-- What the edits leave alone: the status, the record, and the specification of a generation. -/
structure Rely (s t : Store Ω H) : Prop where
  status : t.app.status = s.app.status
  log : t.log = s.log
  clock : s.clock ≤ t.clock
  generation : s.app.generation ≤ t.app.generation
  spec : t.app.generation = s.app.generation → t.app.spec = s.app.spec

theorem Rely.refl (s : Store Ω H) : Rely s s where
  status := rfl
  log := rfl
  clock := le_refl _
  generation := le_refl _
  spec _ := rfl

theorem Rely.trans {s t u : Store Ω H} (hst : Rely s t) (htu : Rely t u) : Rely s u where
  status := htu.status.trans hst.status
  log := htu.log.trans hst.log
  clock := le_trans hst.clock htu.clock
  generation := le_trans hst.generation htu.generation
  spec := by
    intro h
    have hst' := hst.generation
    have htu' := htu.generation
    rw [htu.spec (by omega), hst.spec (by omega)]

theorem Edit.rely (s : Store Ω H) (e : Edit Ω) : Rely s (e.apply s) := by
  cases e with
  | spec desired =>
    refine ⟨rfl, rfl, le_refl _, Nat.le_add_right _ 1, ?_⟩
    intro h
    simp [Edit.apply] at h
  | approval value => exact ⟨rfl, rfl, le_refl _, le_refl _, fun _ => rfl⟩
  | retry value => exact ⟨rfl, rfl, le_refl _, le_refl _, fun _ => rfl⟩
  | tick seconds =>
    refine ⟨rfl, rfl, ?_, le_refl _, fun _ => rfl⟩
    show s.clock ≤ s.clock + (seconds : Int)
    omega

/-! ### The record of an attempt -/

section
variable {log : List (Fact Ω H)} {fact : Fact Ω H}

@[simp] theorem attemptFacts_cons (h : fact.isActivation = false) :
    attemptFacts (fact :: log) = fact :: attemptFacts log := by
  simp [attemptFacts, h]

theorem activation_cons (h : fact.isActivation = false) : activation (fact :: log) = activation log := by
  cases fact <;> first | rfl | simp [Fact.isActivation] at h

/-- The record goes on, without a new attempt. -/
def Continues (older newer : List (Fact Ω H)) : Prop :=
  ∃ facts, newer = facts ++ older ∧ ∀ f ∈ facts, f.isActivation = false

theorem Continues.refl : Continues log log := ⟨[], rfl, by simp⟩

theorem Continues.cons {older : List (Fact Ω H)} (h : Continues older log) (hfact : fact.isActivation = false) :
    Continues older (fact :: log) := by
  obtain ⟨facts, rfl, hfacts⟩ := h
  refine ⟨fact :: facts, rfl, ?_⟩
  intro f hf
  rcases mem_cons.mp hf with rfl | hf
  · exact hfact
  · exact hfacts f hf

theorem Continues.trans {a b c : List (Fact Ω H)} (hab : Continues a b) (hbc : Continues b c) : Continues a c := by
  obtain ⟨xs, rfl, hxs⟩ := hab
  obtain ⟨ys, rfl, hys⟩ := hbc
  refine ⟨ys ++ xs, (append_assoc ys xs a).symm, ?_⟩
  intro f hf
  exact (mem_append.mp hf).elim (hys f) (hxs f)

theorem Continues.attemptFacts {older newer : List (Fact Ω H)} (h : Continues older newer) {f : Fact Ω H}
    (hf : f ∈ attemptFacts older) : f ∈ attemptFacts newer := by
  obtain ⟨facts, rfl, hfacts⟩ := h
  induction facts with
  | nil => exact hf
  | cons g rest ih =>
    have hg : g.isActivation = false := hfacts g mem_cons_self
    rw [cons_append, attemptFacts_cons hg]
    exact mem_cons_of_mem _ (ih fun f hf => hfacts f (mem_cons_of_mem _ hf))

theorem Continues.activation {older newer : List (Fact Ω H)} (h : Continues older newer) :
    activation newer = activation older := by
  obtain ⟨facts, rfl, hfacts⟩ := h
  induction facts with
  | nil => rfl
  | cons g rest ih =>
    have hg : g.isActivation = false := hfacts g mem_cons_self
    rw [cons_append, activation_cons hg]
    exact ih fun f hf => hfacts f (mem_cons_of_mem _ hf)

/-- Every fact was in order when it happened. -/
def InOrder (P : Fact Ω H → List (Fact Ω H) → Prop) (log : List (Fact Ω H)) : Prop :=
  ∀ newer fact older, log = newer ++ fact :: older → P fact older

theorem InOrder.nil {P : Fact Ω H → List (Fact Ω H) → Prop} : InOrder P [] := by
  intro newer fact older h
  simp at h

theorem InOrder.cons {P : Fact Ω H → List (Fact Ω H) → Prop} (h : InOrder P log) (hfact : P fact log) :
    InOrder P (fact :: log) := by
  intro newer f older hlog
  cases newer with
  | nil =>
    rw [nil_append, List.cons.injEq] at hlog
    obtain ⟨rfl, rfl⟩ := hlog
    exact hfact
  | cons g rest =>
    rw [cons_append, List.cons.injEq] at hlog
    exact h rest f older hlog.2
end

end Paprika.Promotion
