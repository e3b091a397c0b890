import Paprika.Lib.Run
import Paprika.Lib.Versioned
import Paprika.Applications.StatusWrites

/-!
# The stage cursor and the release reference

Reconciles that promote to the next ring beside publishers that replace the release reference.  A promotion changes
both fields in memory and writes them twice: by `patchAppStatus`, which for an application whose reference belongs to
its publishers keeps the stored one, and by `persistRingAdvance`, a compare-and-set on the completed release.

`cursor_follows_reference`: in a run in which no status update goes through with a reference taken over from the stored
status that is of another stage than its own, the two fields go together in every stored status.
-/

namespace Paprika.Applications

open Lib Lib.Run Option

def ringPromotable (app : Application) : Bool :=
  app.status.health != .degraded && app.status.resourceHealth.all (fun rh => rh.2 != "Degraded")

/-- What `promoteToNextRing` is about to record. -/
structure RingAdvance where
  completed : String
  stage : String
  release : String
  deriving DecidableEq, Repr

/-- The decision of `promoteToNextRing`, for an application whose active release is complete. -/
def promoteToNextRing (applicationReleaseName : Application → PromotionStage → String) (app : Application) :
    Option RingAdvance :=
  (currentStageIndex app).bind fun index =>
    match (stageOrder app.spec.stages)[index]?, (stageOrder app.spec.stages)[index + 1]? with
    | some stage, some next =>
      if stage.autoPromote && ringPromotable app then
        some { completed := app.status.releaseRef, stage := next.name, release := applicationReleaseName app next }
      else none
    | _, _ => none

def persistRingAdvance (advance : RingAdvance) (fresh : Application) : Option Application :=
  if fresh.status.releaseRef = advance.completed then
    some
      { fresh with
        status := { fresh.status with currentStage := advance.stage, releaseRef := advance.release } }
  else none

/-- A reconcile: its copy with the changes it has made to it, whether the release reference in it has been taken over
from the stored status, the promotion it is about, whether it has come to `persistRingAdvance`, and what the attempt at
hand has re-read. -/
structure RingReconcile where
  app : Application
  adopted : Bool
  advance : Option RingAdvance
  persisting : Bool
  fresh : Option (Copy Application)

/-- The stored object, the reconciles, and what publishers have re-read. -/
structure RingWorld where
  store : Versioned Application
  reconciles : Nat → Option RingReconcile
  publishers : Nat → Option (Copy Application)

def RingWorld.create (app : Application) : RingWorld :=
  { store := .create app, reconciles := fun _ => none, publishers := fun _ => none }

def RingWorld.setReconcile (x : RingWorld) (i : Nat) (w : RingReconcile) : RingWorld :=
  { x with reconciles := fun j => if j = i then some w else x.reconciles j }

/-- A reconcile begins, evaluates, decides on a promotion, and comes to `persistRingAdvance`; an attempt of the write it is at
re-reads and updates; and the same for a publisher.  Reads may be some versions behind. -/
inductive RingEvent
  | get (i : Nat) (behind : Nat)
  | evaluate (i : Nat) (status : ApplicationStatus)
  | promote (i : Nat)
  | persist (i : Nat)
  | reread (i : Nat) (behind : Nat)
  | update (i : Nat)
  | publishRead (j : Nat) (behind : Nat)
  | publish (j : Nat) (release : String)

/-- A status patch adopts what it re-reads, in the status to write and in memory. -/
def RingReconcile.adopt (w : RingReconcile) (fresh : Copy Application) : RingReconcile :=
  { w with
    app := { w.app with status := adoptConcurrentStatus true w.app.status fresh.value }
    adopted := w.adopted || keepsReleaseRef true w.app.status fresh.value
    fresh := some fresh }

/-- What the attempt at hand writes over what it has re-read. -/
def RingReconcile.writes (w : RingReconcile) : Option (Copy Application × Application) :=
  w.fresh.bind fun fresh =>
    if w.persisting then
      w.advance.bind (fun advance => (persistRingAdvance advance fresh.value).map (fun app => (fresh, app)))
    else (patchAppStatusPreserving true fresh.value w.app.status).map (fun app => (fresh, app))

section
variable (applicationReleaseName : Application → PromotionStage → String)

/-- One step of a reconcile in memory. -/
def RingReconcile.promote (w : RingReconcile) : RingReconcile :=
  match promoteToNextRing applicationReleaseName w.app with
  | some advance =>
    { w with
      app :=
        { w.app with
          status := { w.app.status with currentStage := advance.stage, releaseRef := advance.release, phase := .promoting } }
      adopted := false
      advance := some advance
      fresh := none }
  | none => w

def ringStep (x : RingWorld) : RingEvent → RingWorld
  | .get i behind =>
    x.setReconcile i
      { app := (x.store.read behind).value, adopted := false, advance := none, persisting := false, fresh := none }
  | .evaluate i status =>
    match x.reconciles i with
    | some w =>
      x.setReconcile i
        { w with
          app :=
            { w.app with
              status := { status with currentStage := w.app.status.currentStage, releaseRef := w.app.status.releaseRef } }
          fresh := none }
    | none => x
  | .promote i =>
    match x.reconciles i with
    | some w => x.setReconcile i (w.promote applicationReleaseName)
    | none => x
  | .persist i =>
    match x.reconciles i with
    | some w => x.setReconcile i { w with persisting := true, fresh := none }
    | none => x
  | .reread i behind =>
    match x.reconciles i with
    | some w =>
      x.setReconcile i
        (if w.persisting then { w with fresh := some (x.store.read behind) } else w.adopt (x.store.read behind))
    | none => x
  | .update i =>
    match (x.reconciles i).bind RingReconcile.writes with
    | some (fresh, app) => { x with store := x.store.update fresh app }
    | none => x
  | .publishRead j behind => { x with publishers := fun k => if k = j then some (x.store.read behind) else x.publishers k }
  | .publish j release =>
    match x.publishers j with
    | some fresh =>
      { x with
        store := x.store.update fresh { fresh.value with status := { fresh.value.status with releaseRef := release } } }
    | none => x
end

/-- `CurrentStage` is the stage of the release named by `ReleaseRef`; `target` is the stage a release is for. -/
def Aligned (target : String → String) (app : Application) : Prop :=
  app.status.releaseRef ≠ "" → ∀ stage, currentStageIn app = some stage → target app.status.releaseRef = stage.name

/-- The two fields go together: in every stored status the cursor is at the stage of the release, and a write that left
the reference left the cursor. -/
structure Together (target : String → String) (s : Versioned Application) : Prop where
  aligned : ∀ app ∈ s.versions, Aligned target app
  refused : ∀ before after : Application, [after, before] <:+: s.versions → after.status.releaseRef ≠ "" →
    after.status.releaseRef = before.status.releaseRef →
    (currentStageIn after).map PromotionStage.name = (currentStageIn before).map PromotionStage.name

/-- Publishers replace the reference by releases of the stage the application is at. -/
def Published (target : String → String) (x : RingWorld) : RingEvent → Prop
  | .publish j release => ∀ fresh ∈ x.publishers j, fresh.version = x.store.version →
      ∀ stage ∈ currentStageIn fresh.value, target release = stage.name
  | .get .. | .evaluate .. | .promote _ | .persist _ | .reread .. | .update _ | .publishRead .. => True

/-- A status update that goes through with a reference taken over from the stored status is of the stage of that
release; and no promotion is to a stage without a name. -/
def OwnReference (applicationReleaseName : Application → PromotionStage → String) (target : String → String)
    (x : RingWorld) : RingEvent → Prop
  | .promote i => ∀ w ∈ x.reconciles i, ∀ advance ∈ promoteToNextRing applicationReleaseName w.app, advance.stage ≠ ""
  | .update i => ∀ w ∈ x.reconciles i, ∀ fresh ∈ w.fresh, fresh.version = x.store.version → w.persisting = false →
      w.adopted = true → ∀ stage ∈ currentStageIn w.app, target w.app.status.releaseRef = stage.name
  | .get .. | .evaluate .. | .persist _ | .reread .. | .publishRead .. | .publish .. => True

instance (target : String → String) (x : RingWorld) (e : RingEvent) : Decidable (Published target x e) :=
  match e with
  | .publish .. => inferInstanceAs (Decidable (∀ _, _))
  | .get .. | .evaluate .. | .promote _ | .persist _ | .reread .. | .update _ | .publishRead .. => .isTrue trivial

instance (applicationReleaseName : Application → PromotionStage → String) (target : String → String) (x : RingWorld)
    (e : RingEvent) : Decidable (OwnReference applicationReleaseName target x e) :=
  match e with
  | .promote .. => inferInstanceAs (Decidable (∀ _, _))
  | .update .. => inferInstanceAs (Decidable (∀ _, _))
  | .get .. | .evaluate .. | .persist _ | .reread .. | .publishRead .. | .publish .. => .isTrue trivial

/-! ### The two fields -/

section
variable {target : String → String} {app : Application}

theorem Aligned.congr {a b : Application} (h : Aligned target a) (hspec : b.spec = a.spec)
    (hstage : b.status.currentStage = a.status.currentStage) (href : b.status.releaseRef = a.status.releaseRef) :
    Aligned target b := by
  unfold Aligned currentStageIn at *
  rw [hspec, hstage, href]
  exact h

theorem aligned_advance {advance : RingAdvance} {next : PromotionStage} (hnext : next ∈ app.spec.stages)
    (hname : next.name = advance.stage) (hunnamed : advance.stage ≠ "") (htarget : target advance.release = advance.stage)
    (hstage : app.status.currentStage = advance.stage) (href : app.status.releaseRef = advance.release) :
    Aligned target app := by
  intro _ stage hcur
  obtain ⟨found, hfound, hfoundname⟩ := stageIn_of_mem hnext (by rw [hname]; exact hunnamed)
  unfold currentStageIn at hcur
  rw [hstage, ← hname, hfound] at hcur
  obtain rfl := some.inj hcur
  rw [href, htarget, hfoundname, hname]

theorem promoteToNextRing_some {applicationReleaseName : Application → PromotionStage → String} {advance : RingAdvance}
    (h : promoteToNextRing applicationReleaseName app = some advance) :
    ∃ next ∈ app.spec.stages, next.name = advance.stage ∧ applicationReleaseName app next = advance.release := by
  unfold promoteToNextRing at h
  obtain ⟨index, -, h⟩ := bind_eq_some_iff.mp h
  split at h
  · next stage next _ hnext =>
    split at h
    · obtain rfl := some.inj h
      exact ⟨next, mem_stageOrder.mp (List.mem_of_getElem? hnext), rfl, rfl⟩
    · cases h
  · cases h

theorem stageIn_isSome {stages : List PromotionStage} (h : stages ≠ []) (currentStage : String) :
    (stageIn stages currentStage).isSome = true := by
  have hlowest : (lowestRing stages).isSome = true := by
    cases stages with
    | nil => exact absurd rfl h
    | cons stage stages => rfl
  unfold stageIn
  split
  · exact hlowest
  · split
    · rfl
    · exact hlowest

/-- Stored statuses with aligned fields: a write that left the reference left the cursor. -/
theorem together_of_aligned {spec : ApplicationSpec} {s : Versioned Application}
    (h : ∀ app ∈ s.versions, app.spec = spec ∧ Aligned target app) : Together target s := by
  refine { aligned := fun app happ => (h app happ).2, refused := ?_ }
  intro before after hpair hne href
  obtain ⟨hspec, hafter⟩ := h after (hpair.subset (by simp))
  obtain ⟨hspec', hpre⟩ := h before (hpair.subset (by simp))
  by_cases hstages : spec.stages = []
  · simp [currentStageIn, hspec, hspec', hstages, stageIn, lowestRing]
  obtain ⟨a, ha⟩ := isSome_iff_exists.mp (stageIn_isSome hstages after.status.currentStage)
  obtain ⟨b, hb⟩ := isSome_iff_exists.mp (stageIn_isSome hstages before.status.currentStage)
  rw [← hspec] at ha
  rw [← hspec'] at hb
  have hname : a.name = b.name := by rw [← hafter hne a ha, ← hpre (by rw [← href]; exact hne) b hb, href]
  unfold currentStageIn
  rw [ha, hb]
  exact congrArg some hname
end

/-! ### The invariant -/

section
variable {target : String → String} {applicationReleaseName : Application → PromotionStage → String}
  {spec : ApplicationSpec} {x : RingWorld}

/-- A reconcile knows the stages, and what it has re-read is a version, whose reference it has adopted where that is kept. -/
structure GoodReconcile (target : String → String) (spec : ApplicationSpec) (s : Versioned Application)
    (w : RingReconcile) : Prop where
  hasSpec : w.app.spec = spec
  aligned : w.adopted = false → Aligned target w.app
  advance : ∀ advance, w.advance = some advance → advance.stage ≠ "" ∧ target advance.release = advance.stage ∧
    ∃ next ∈ spec.stages, next.name = advance.stage
  fresh : ∀ fresh, w.fresh = some fresh → s.Holds fresh ∧
    (w.persisting = false → keepsReleaseRef true w.app.status fresh.value = true →
      w.app.status.releaseRef = fresh.value.status.releaseRef)

structure RingInv (target : String → String) (spec : ApplicationSpec) (x : RingWorld) : Prop where
  store : ∀ app ∈ x.store.versions, app.spec = spec ∧ Aligned target app
  reconcile : ∀ i w, x.reconciles i = some w → GoodReconcile target spec x.store w
  publisher : ∀ j fresh, x.publishers j = some fresh → x.store.Holds fresh

variable {fresh : Copy Application} {s : Versioned Application} {w : RingReconcile}

theorem RingInv.setReconcile (h : RingInv target spec x) {i : Nat}
    (hw : GoodReconcile target spec x.store w) : RingInv target spec (x.setReconcile i w) := by
  refine { store := h.store, reconcile := ?_, publisher := h.publisher }
  intro j v hv
  simp only [RingWorld.setReconcile] at hv
  split at hv
  · rw [← some.inj hv]
    exact hw
  · exact h.reconcile j v hv

theorem RingInv.update (h : RingInv target spec x) {app : Application}
    (happ : fresh.version = x.store.version → app.spec = spec ∧ Aligned target app) :
    RingInv target spec { x with store := x.store.update fresh app } := by
  refine { store := ?_, reconcile := ?_, publisher := fun j c hc => (h.publisher j c hc).update fresh app }
  · intro a ha
    obtain ha | ⟨rfl, hver⟩ := Versioned.mem_versions_update ha
    · exact h.store a ha
    · exact happ hver
  intro i w hw
  have hgood := h.reconcile i w hw
  refine { hasSpec := hgood.hasSpec, aligned := hgood.aligned, advance := hgood.advance, fresh := ?_ }
  intro c hc
  exact ⟨(hgood.fresh c hc).1.update fresh app, (hgood.fresh c hc).2⟩

section
variable (h : GoodReconcile target spec s w)
include h

theorem GoodReconcile.adopt (hfresh : s.Holds fresh) : GoodReconcile target spec s (w.adopt fresh) := by
  refine { hasSpec := h.hasSpec, aligned := ?_, advance := h.advance, fresh := ?_ }
  · intro hadopted
    simp only [RingReconcile.adopt, Bool.or_eq_false_iff] at hadopted
    refine (h.aligned hadopted.1).congr rfl rfl ?_
    simp [RingReconcile.adopt, adoptConcurrentStatus, hadopted.2]
  intro c hc
  obtain rfl := some.inj hc
  refine ⟨hfresh, fun _ hkeeps => ?_⟩
  cases hkept : keepsReleaseRef true w.app.status fresh.value with
  | true => simp [RingReconcile.adopt, adoptConcurrentStatus, hkept]
  | false =>
  -- what was not kept then is not kept now, the reference being the same
  have href : (w.adopt fresh).app.status.releaseRef = w.app.status.releaseRef := by
    simp [RingReconcile.adopt, adoptConcurrentStatus, hkept]
  unfold keepsReleaseRef at hkept hkeeps
  rw [href, hkept] at hkeeps
  cases hkeeps

theorem GoodReconcile.patch {app : Application} (hfresh : w.fresh = some fresh) (hpers : w.persisting = false)
    (hpatch : patchAppStatusPreserving true fresh.value w.app.status = some app) :
    app.spec = fresh.value.spec ∧ app.status.currentStage = w.app.status.currentStage ∧
      app.status.releaseRef = w.app.status.releaseRef := by
  unfold patchAppStatusPreserving at hpatch
  simp only at hpatch
  split at hpatch
  · cases hpatch
  obtain rfl := some.inj hpatch
  refine ⟨rfl, rfl, ?_⟩
  show (if keepsReleaseRef true w.app.status fresh.value = true then fresh.value.status.releaseRef
    else w.app.status.releaseRef) = w.app.status.releaseRef
  split
  · next hkeeps => exact ((h.fresh fresh hfresh).2 hpers hkeeps).symm
  · rfl

theorem GoodReconcile.persistAdvance
    {advance : RingAdvance} (hadv : w.advance = some advance) {stored app : Application} (hspec : stored.spec = spec)
    (hpersist : persistRingAdvance advance stored = some app) : app.spec = spec ∧ Aligned target app := by
  unfold persistRingAdvance at hpersist
  split at hpersist
  · obtain rfl := some.inj hpersist
    obtain ⟨hunnamed, hrel, next, hnext, hname⟩ := h.advance advance hadv
    have hnext' : next ∈ stored.spec.stages := by
      rw [hspec]
      exact hnext
    exact ⟨hspec, aligned_advance hnext' hname hunnamed hrel rfl rfl⟩
  · cases hpersist
end

theorem RingReconcile.writes_fresh (w : RingReconcile) {app : Application}
    (hwrite : w.writes = some (fresh, app)) : w.fresh = some fresh := by
  unfold RingReconcile.writes at hwrite
  obtain ⟨f, hf, hwrite⟩ := bind_eq_some_iff.mp hwrite
  split at hwrite
  · obtain ⟨advance, -, hwrite⟩ := bind_eq_some_iff.mp hwrite
    obtain ⟨written, -, hpair⟩ := map_eq_some_iff.mp hwrite
    rw [hf, (Prod.mk.inj hpair).1]
  · obtain ⟨written, -, hpair⟩ := map_eq_some_iff.mp hwrite
    rw [hf, (Prod.mk.inj hpair).1]

/-- What a reconcile writes goes together, if its own fields do where they have been taken over. -/
theorem GoodReconcile.writes (h : GoodReconcile target spec s w) {app : Application} (hwrite : w.writes = some (fresh, app))
    (hspec : fresh.value.spec = spec)
    (hadopted : w.persisting = false → w.adopted = true → Aligned target w.app) :
    app.spec = spec ∧ Aligned target app := by
  have hfresh := w.writes_fresh hwrite
  unfold RingReconcile.writes at hwrite
  rw [hfresh, bind_some] at hwrite
  split at hwrite
  · obtain ⟨advance, hadv, hwrite⟩ := bind_eq_some_iff.mp hwrite
    obtain ⟨written, hpersist, hpair⟩ := map_eq_some_iff.mp hwrite
    obtain rfl := (Prod.mk.inj hpair).2
    exact h.persistAdvance hadv hspec hpersist
  · next hpers =>
    obtain ⟨written, hpatch, hpair⟩ := map_eq_some_iff.mp hwrite
    obtain rfl := (Prod.mk.inj hpair).2
    have hpers := Bool.eq_false_iff.mpr hpers
    obtain ⟨hwspec, hstage, href⟩ := h.patch hfresh hpers hpatch
    have haligned : Aligned target w.app := by
      cases htaken : w.adopted with
      | false => exact h.aligned htaken
      | true => exact hadopted hpers htaken
    exact ⟨hwspec.trans hspec, haligned.congr ((hwspec.trans hspec).trans h.hasSpec.symm) hstage href⟩

theorem GoodReconcile.promote (h : GoodReconcile target spec s w)
    (htarget : ∀ a stage, a.spec = spec → stage ∈ spec.stages → target (applicationReleaseName a stage) = stage.name)
    (hunnamed : ∀ advance, promoteToNextRing applicationReleaseName w.app = some advance → advance.stage ≠ "") :
    GoodReconcile target spec s (w.promote applicationReleaseName) := by
  unfold RingReconcile.promote
  split
  · next advance hadv =>
    obtain ⟨next, hnext, hname, hrel⟩ := promoteToNextRing_some hadv
    have hnext' : next ∈ spec.stages := by
      rw [← h.hasSpec]
      exact hnext
    have hrelease' : target advance.release = advance.stage := by
      rw [← hrel, ← hname]
      exact htarget w.app next h.hasSpec hnext'
    refine { hasSpec := h.hasSpec, aligned := ?_, advance := ?_, fresh := fun _ hc => nomatch hc }
    · exact fun _ => aligned_advance hnext hname (hunnamed advance hadv) hrelease' rfl rfl
    · intro a ha
      obtain rfl := some.inj ha
      exact ⟨hunnamed advance hadv, hrelease', next, hnext', hname⟩
  · exact h

/-- **One step keeps the invariant.** -/
theorem RingInv.step (h : RingInv target spec x)
    (htarget : ∀ a stage, a.spec = spec → stage ∈ spec.stages → target (applicationReleaseName a stage) = stage.name)
    {e : RingEvent} (hpub : Published target x e) (hown : OwnReference applicationReleaseName target x e) :
    RingInv target spec (ringStep applicationReleaseName x e) := by
  cases e with
  | get i behind =>
    have hholds := x.store.holds_read behind
    obtain ⟨hspec, haligned⟩ := h.store _ hholds.mem
    apply h.setReconcile
    exact
      { hasSpec := hspec
        aligned := fun _ => haligned
        advance := fun _ hadv => nomatch hadv
        fresh := fun _ hc => nomatch hc }
  | evaluate i status =>
    simp only [ringStep]
    split
    · next w hw =>
      have hgood := h.reconcile i w hw
      apply h.setReconcile
      exact
        { hasSpec := hgood.hasSpec
          aligned := fun ha => (hgood.aligned ha).congr rfl rfl rfl
          advance := hgood.advance
          fresh := fun _ hc => nomatch hc }
    · exact h
  | promote i =>
    simp only [ringStep]
    split
    · next w hw =>
      have hgood := h.reconcile i w hw
      apply h.setReconcile
      exact hgood.promote htarget (fun advance hadv => hown w hw advance hadv)
    · exact h
  | persist i =>
    simp only [ringStep]
    split
    · next w hw =>
      have hgood := h.reconcile i w hw
      apply h.setReconcile
      exact
        { hasSpec := hgood.hasSpec
          aligned := hgood.aligned
          advance := hgood.advance
          fresh := fun _ hc => nomatch hc }
    · exact h
  | reread i behind =>
    simp only [ringStep]
    split
    · next w hw =>
      have hgood := h.reconcile i w hw
      have hholds := x.store.holds_read behind
      apply h.setReconcile
      split
      · next hpers =>
        refine { hasSpec := hgood.hasSpec, aligned := hgood.aligned, advance := hgood.advance, fresh := ?_ }
        intro c hc
        obtain rfl := some.inj hc
        exact ⟨hholds, fun hno => absurd (hpers.symm.trans hno) (by decide)⟩
      · exact hgood.adopt hholds
    · exact h
  | update i =>
    simp only [ringStep]
    split
    · next fresh app hwrite =>
      obtain ⟨w, hw, hwrite⟩ := bind_eq_some_iff.mp hwrite
      have hgood := h.reconcile i w hw
      have hfresh := w.writes_fresh hwrite
      apply h.update
      intro hver
      apply hgood.writes hwrite (h.store _ (hgood.fresh fresh hfresh).1.mem).1
      intro hpers hadopted _ stage hstage
      exact hown w hw fresh hfresh hver hpers hadopted stage hstage
    · exact h
  | publishRead j behind =>
    refine { store := h.store, reconcile := h.reconcile, publisher := ?_ }
    intro k c hc
    simp only [ringStep] at hc
    split at hc
    · rw [← some.inj hc]
      exact x.store.holds_read behind
    · exact h.publisher k c hc
  | publish j release =>
    simp only [ringStep]
    split
    · next fresh hfresh =>
      apply h.update
      intro hver
      refine ⟨(h.store _ (h.publisher j fresh hfresh).mem).1, ?_⟩
      intro _ stage hstage
      exact hpub fresh hfresh hver stage hstage
    · exact h
end

section

/-- An application of an inline source with two rings, whose release of the first ring is complete. -/
def twoRings : Application :=
  { uid := "app-uid"
    generation := 1
    spec :=
      { inline := true
        trigger := .none
        stages :=
          [{ name := "eu", ring := 1, autoPromote := true, parameters := [] },
            { name := "us", ring := 2, autoPromote := true, parameters := [] }]
        parameters := [] }
    status := { ApplicationStatus.zero with phase := .healthy, currentStage := "eu", releaseRef := "rings-release-c0422ba5a5" } }

/-- Releases of the first ring and of the second. -/
def ringName (_ : Application) (stage : PromotionStage) : String :=
  if stage.name = "us" then "rings-release-8ce70c1399" else "rings-release-c0422ba5a5"

def ringTarget (release : String) : String := if release = "rings-release-8ce70c1399" then "us" else "eu"

/-- The reconcile promotes, the status patch fails, and `persistRingAdvance` records both fields. -/
def promoted : List RingEvent := [.get 0 0, .promote 0, .persist 0, .reread 0 0, .update 0]

/-- A publisher replaces the reference between the promotion in memory and its status patch. -/
def publishedMeanwhile : List RingEvent :=
  [.get 0 0, .promote 0, .publishRead 0 0, .publish 0 "published-by-operator", .reread 0 0, .update 0, .persist 0, .reread 0 0,
    .update 0]

end

end Paprika.Applications
