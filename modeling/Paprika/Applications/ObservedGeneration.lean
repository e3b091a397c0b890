import Paprika.Lib.Run
import Paprika.Lib.Versioned
import Paprika.Applications.StatusWrites

/-!
# Statuses and the generation they are for

Reconciles read an object, compute a status from that copy, re-read the object and write the status over it with the
generation they have just read.  Any number of them run beside each other, cached reads may be old, and the spec is
edited at any time.

**`observed_generation_honest`**: the stored status says of which generation it is in every state of a run if and only
if no status update of the run goes through over another generation than that of the copy the status was computed from.
-/

namespace Paprika.Applications

open Lib Lib.Run

/-- Objects `α` with a generation that edits `ε` raise, and statuses `δ` that are written over them. -/
structure StatusKind (α δ ε : Type) where
  generation : α → Nat
  observed : α → Nat
  edit : ε → α → α
  put : α → δ → Option α
  generation_edit : ∀ e a, generation (edit e a) = generation a + 1
  observed_edit : ∀ e a, observed (edit e a) = observed a
  generation_put : ∀ {a d b}, put a d = some b → generation b = generation a
  observed_put : ∀ {a d b}, put a d = some b → observed b = generation a

/-- An object, and of which generation the copy of its spec was from which its status was computed; 0 when no status has
been written yet. -/
structure Recorded (α : Type) where
  object : α
  basis : Nat
  deriving DecidableEq

/-- A reconcile: the copy it has read, the status it has computed, and what it has re-read. -/
structure StatusWriter (α δ : Type) where
  copy : α
  desired : Option δ
  fresh : Option (Copy (Recorded α))

/-- The stored object and the reconciles under way. -/
structure StatusWorld (α δ : Type) where
  store : Versioned (Recorded α)
  writers : Nat → Option (StatusWriter α δ)

/-- The spec is edited; a reconcile begins; it computes a status; it re-reads the object; it updates it.  The reads may
be some versions behind, and a write that is refused may be tried again. -/
inductive StatusEvent (δ ε : Type)
  | edit (e : ε)
  | get (i : Nat) (behind : Nat)
  | compute (i : Nat) (d : δ)
  | reread (i : Nat) (behind : Nat)
  | update (i : Nat)

section
variable {α δ ε : Type} (K : StatusKind α δ ε)

def StatusWorld.create (a : α) : StatusWorld α δ :=
  { store := .create { object := a, basis := 0 }, writers := fun _ => none }

def StatusWorld.setWriter (x : StatusWorld α δ) (i : Nat) (w : StatusWriter α δ) : StatusWorld α δ :=
  { x with writers := fun j => if j = i then some w else x.writers j }

/-- What an update of the reconcile goes through with: the copy its status was computed from, what it has re-read, and
the object it writes. -/
def StatusWorld.writes (x : StatusWorld α δ) (i : Nat) : Option (α × Copy (Recorded α) × α) :=
  (x.writers i).bind fun w =>
    w.desired.bind fun d =>
      w.fresh.bind fun fresh =>
        if fresh.version = x.store.version then (K.put fresh.value.object d).map (fun b => (w.copy, fresh, b)) else none

def statusStep (x : StatusWorld α δ) : StatusEvent δ ε → StatusWorld α δ
  | .edit e =>
    { x with store := x.store.write { x.store.current with object := K.edit e x.store.current.object } }
  | .get i behind => x.setWriter i { copy := (x.store.read behind).value.object, desired := none, fresh := none }
  | .compute i d =>
    match x.writers i with
    | some w => x.setWriter i { w with desired := some d, fresh := none }
    | none => x
  | .reread i behind =>
    match x.writers i with
    | some w => x.setWriter i { w with fresh := some (x.store.read behind) }
    | none => x
  | .update i =>
    match x.writes K i with
    | some (copy, _, b) => { x with store := x.store.write { object := b, basis := K.generation copy } }
    | none => x

/-- The status says of which generation it is. -/
def Recorded.Honest (r : Recorded α) : Prop := K.observed r.object = r.basis

/-- An update that goes through is over the generation from which its status was computed. -/
def SameGeneration (x : StatusWorld α δ) : StatusEvent δ ε → Prop
  | .update i => ∀ copy fresh b, x.writes K i = some (copy, fresh, b) →
      K.generation fresh.value.object = K.generation copy
  | .edit _ | .get .. | .compute .. | .reread .. => True

variable {K}

theorem writes_put {x : StatusWorld α δ} {i : Nat} {copy b : α} {fresh : Copy (Recorded α)}
    (h : x.writes K i = some (copy, fresh, b)) : ∃ d, K.put fresh.value.object d = some b := by
  simp only [StatusWorld.writes, Option.bind_eq_some_iff] at h
  obtain ⟨w, _, d, _, f, _, h⟩ := h
  split at h
  · simp only [Option.map_eq_some_iff, Prod.mk.injEq] at h
    obtain ⟨b', hput, -, rfl, rfl⟩ := h
    exact ⟨d, hput⟩
  · cases h

/-- **One step.**  A step keeps the stored status honest if and only if it is not an update over another generation. -/
theorem honest_step {x : StatusWorld α δ} (h : x.store.current.Honest K) (e : StatusEvent δ ε) :
    (statusStep K x e).store.current.Honest K ↔ SameGeneration K x e := by
  cases e with
  | edit e =>
    refine ⟨fun _ => trivial, fun _ => ?_⟩
    show K.observed (K.edit e x.store.current.object) = x.store.current.basis
    rw [K.observed_edit]
    exact h
  | get i behind => exact ⟨fun _ => trivial, fun _ => h⟩
  | compute i d =>
    refine ⟨fun _ => trivial, fun _ => ?_⟩
    simp only [statusStep]
    split
    · exact h
    · exact h
  | reread i behind =>
    refine ⟨fun _ => trivial, fun _ => ?_⟩
    simp only [statusStep]
    split
    · exact h
    · exact h
  | update i =>
  cases hwrite : x.writes K i with
  | none =>
    have hstep : statusStep K x (.update i) = x := by simp only [statusStep, hwrite]
    rw [hstep]
    refine ⟨fun _ copy fresh b hsome => ?_, fun _ => h⟩
    rw [hwrite] at hsome
    cases hsome
  | some written =>
  obtain ⟨copy, fresh, b⟩ := written
  obtain ⟨d, hput⟩ := writes_put hwrite
  have hstep : (statusStep K x (.update i)).store.current = { object := b, basis := K.generation copy } := by
    simp only [statusStep, hwrite, Versioned.current_write]
  rw [hstep]
  show K.observed b = K.generation copy ↔ _
  rw [K.observed_put hput]
  constructor
  · intro hsame copy' fresh' b' hsome
    rw [hwrite] at hsome
    cases hsome
    exact hsame
  · exact fun hsame => hsame copy fresh b hwrite

/-- **All runs.**  The stored status is honest all along if and only if no update of the run is over another generation
than the one its status was computed from. -/
theorem honest_iff {x : StatusWorld α δ} (hx : x.store.current.Honest K) (es : List (StatusEvent δ ε)) :
    (∀ n, (run (statusStep K) x (es.take n)).store.current.Honest K) ↔
      Guarded (statusStep K) (SameGeneration K) x es := by
  induction es generalizing x with
  | nil => simpa [Guarded] using hx
  | cons e es ih =>
    constructor
    · intro h
      have hstep : (statusStep K x e).store.current.Honest K := h 1
      exact ⟨(honest_step hx e).mp hstep, (ih hstep).mp (fun n => h (n + 1))⟩
    intro h n
    have hstep := (honest_step hx e).mpr h.1
    cases n with
    | zero => exact hx
    | succ n => exact (ih hstep).mpr h.2 n
end

/-! ### Applications and Releases -/

/-- Applications, with the status to write and whether the stored release reference may be kept. -/
def applicationKind : StatusKind Application (Bool × ApplicationStatus) ApplicationSpec where
  generation := fun app => app.generation
  observed := fun app => app.status.observedGeneration
  edit := fun spec app => { app with spec := spec, generation := app.generation + 1 }
  put := fun app d => patchAppStatusPreserving d.1 app d.2
  generation_edit := fun _ _ => rfl
  observed_edit := fun _ _ => rfl
  generation_put := by
    intro app d b h
    unfold patchAppStatusPreserving at h
    simp only at h
    split at h
    · cases h
    · rw [← Option.some.inj h]
  observed_put := by
    intro app d b h
    unfold patchAppStatusPreserving at h
    simp only at h
    split at h
    · cases h
    · rw [← Option.some.inj h]

/-- Releases; of an edit of their spec only that there is one. -/
def releaseKind : StatusKind ReleaseObject Releases.ReleaseStatus Unit where
  generation := fun release => release.generation
  observed := fun release => release.observedGeneration
  edit := fun _ release => { release with generation := release.generation + 1 }
  put := fun release d => some (patchReleaseStatus release d)
  generation_edit := fun _ _ => rfl
  observed_edit := fun _ _ => rfl
  generation_put := by
    intro release d b h
    rw [← Option.some.inj h]
    rfl
  observed_put := by
    intro release d b h
    rw [← Option.some.inj h]
    rfl

/-- `promotionSourceApplicationReady`, whether it finds no fault. -/
def promotionSourceApplicationReady (app : Application) : Bool :=
  app.uid != "" && app.status.observedGeneration == app.generation && app.status.phase == .healthy &&
    (app.status.synced && app.status.outOfSync == 0 && !app.status.diffUnavailable) &&
    (app.status.health == .unset || app.status.health == .healthy)

/-- `applicationConverged`; `applicationReleaseName` hashes the identity of the release. -/
def applicationConverged (applicationReleaseName : Application → PromotionStage → String) (app : Application) : Bool :=
  app.generation == app.status.observedGeneration &&
    (match app.spec.stages with
    | [] => true
    | stage :: _ =>
      app.status.releaseRef == applicationReleaseName app stage &&
        ((app.status.stages.find? (fun s => s.1 == stage.name)).map Prod.snd == some "Complete")) &&
    !app.status.resourceHealth.isEmpty && app.status.resourceHealth.all (fun rh => rh.2 == "Healthy")

/-- The status is honest, and neither promotion nor a rolling sync takes it for that of a later spec. -/
structure ApplicationHonest (applicationReleaseName : Application → PromotionStage → String)
    (r : Recorded Application) : Prop where
  observed : r.object.status.observedGeneration = r.basis
  ready : promotionSourceApplicationReady r.object = true → r.basis = r.object.generation
  converged : applicationConverged applicationReleaseName r.object = true → r.basis = r.object.generation

theorem applicationHonest_iff (applicationReleaseName : Application → PromotionStage → String) (r : Recorded Application) :
    ApplicationHonest applicationReleaseName r ↔ r.Honest applicationKind := by
  constructor
  · exact fun h => h.observed
  intro h
  have hobs : r.object.status.observedGeneration = r.basis := h
  refine { observed := hobs, ready := ?_, converged := ?_ }
  · intro hready
    simp only [promotionSourceApplicationReady, Bool.and_eq_true, beq_iff_eq] at hready
    exact hobs.symm.trans hready.1.1.1.2
  · intro hconverged
    simp only [applicationConverged, Bool.and_eq_true, beq_iff_eq] at hconverged
    exact hobs.symm.trans hconverged.1.1.1.symm

/-- **The generation of a status** is not taken for that of a later spec if and only if no update goes through over another
generation than the one its status was computed from. -/
theorem observed_generation_honest (applicationReleaseName : Application → PromotionStage → String) :
    (∀ uid spec (es : List (StatusEvent (Bool × ApplicationStatus) ApplicationSpec)),
      (∀ n, ApplicationHonest applicationReleaseName
        (run (statusStep applicationKind) (.create (.create uid spec)) (es.take n)).store.current) ↔
      Guarded (statusStep applicationKind) (SameGeneration applicationKind) (.create (.create uid spec)) es) ∧
    (∀ es : List (StatusEvent Releases.ReleaseStatus Unit), (∀ n, (run (statusStep releaseKind)
        (.create { generation := 1, observedGeneration := 0, status := .zero }) (es.take n)).store.current.Honest
          releaseKind) ↔
      Guarded (statusStep releaseKind) (SameGeneration releaseKind)
        (.create { generation := 1, observedGeneration := 0, status := .zero }) es) := by
  constructor
  · intro uid spec es
    simp only [applicationHonest_iff]
    exact honest_iff (K := applicationKind) (x := .create (.create uid spec)) rfl es
  · intro es
    exact honest_iff (K := releaseKind)
      (x := .create { generation := 1, observedGeneration := 0, status := .zero }) rfl es

section

/-- A Git source and one stage. -/
def oneStage : ApplicationSpec :=
  { inline := false
    trigger := .none
    stages := [{ name := "prod", ring := 1, autoPromote := false, parameters := [] }]
    parameters := [] }

def healthyStatus : ApplicationStatus :=
  { ApplicationStatus.zero with phase := .healthy, synced := true, health := .healthy }

/-- The spec is edited between the read of a reconcile and its write. -/
def editedMeanwhile : List (StatusEvent (Bool × ApplicationStatus) ApplicationSpec) :=
  [.get 0 0, .edit { oneStage with parameters := [("image", "v2")] }, .compute 0 (true, healthyStatus), .reread 0 0,
    .update 0]

/-- Promotion takes the status of the first generation for that of the second. -/
theorem observed_generation_of_a_later_spec : ¬∀ es (name : Application → PromotionStage → String),
    ApplicationHonest name
      (run (statusStep applicationKind) (.create (.create "app-uid" oneStage)) es).store.current := by
  intro h
  exact absurd ((h editedMeanwhile (fun _ _ => "")).ready (by decide)) (by decide)
end

end Paprika.Applications
