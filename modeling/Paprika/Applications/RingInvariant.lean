import Paprika.Applications.ReleaseFlow

/-!
# What a step keeps of ring order

`RingByRing` is the condition on a step: other content is taken up under a sync that keeps the stage at the first ring
only, and a ring is left only behind a complete release of that ring and of the content that goes on.  `OrderInv` is the
invariant, over any promotions and contents recorded so far; there is one lemma for each function of the flow, and
`OrderInv.step` for a step.
-/

namespace Paprika.Applications

open Lib Lib.Run
open Releases (ReleasePhase)
open List Option Bool

/-! ### What a release has behind it -/

def stagesBefore (stages : List PromotionStage) (name : String) : List PromotionStage :=
  (stageOrder stages).takeWhile (fun s => s.name != name)

/-- The content is recorded: in the status, or by a publisher in one of its releases. -/
def ContentRecorded (x : ReleaseFlow) (c : Content) : Prop :=
  contentOf x.app = c ∨ publisherOwnsReleaseRef x.app = true ∧ ∃ r ∈ x.releases, r.content = c

/-- The step from `x` to `y` promotes the Application from the stage `p`, which allows it and has a complete release of
the content, to the next one, and the Application is not degraded. -/
structure Promotes (x y : ReleaseFlow) (p : PromotionStage) (c : Content) : Prop where
  leaves : ∃ index next, currentStageIndex x.app = some index ∧ (stageOrder x.app.spec.stages)[index]? = some p ∧
    (stageOrder x.app.spec.stages)[index + 1]? = some next ∧ y.app.status.currentStage = next.name
  complete : ∃ r ∈ x.releases, r.stage = p.name ∧ r.content = c ∧ r.phase = .complete
  allowed : p.autoPromote = true
  healthy : ringPromotable y.app = true

/-! ### The condition -/

/-- The Application is at a stage that no other precedes. -/
def AtFirstRing (x : ReleaseFlow) : Prop :=
  ∀ current ∈ currentStageIn x.app, stagesBefore x.app.spec.stages current.name = []

/-- The current release has been taken up. -/
def Started (x : ReleaseFlow) : Prop := getCurrentReleasePhase x ≠ .unset

/-- The current release has been taken up and has not ended. -/
def underWay (x : ReleaseFlow) : Bool :=
  getCurrentReleasePhase x != .unset && !applicationReleasePhaseTerminal (getCurrentReleasePhase x)

/-- The reconcile resolves the source for a sync that keeps the stage. -/
def takesUpSource (x : ReleaseFlow) : Bool :=
  !promotionTriggered x.app &&
    (triggeredSourceEligible x || (manualSyncRequested x && x.syncTrigger && syncTriggerRefreshesSource x))

/-- A sync that keeps the stage finds other content at the first ring only, unless the release that there is stays. -/
def TakesUpAtFirstRing (seen : Observation) (x : ReleaseFlow) : Prop :=
  takesUpSource x = true → ∀ found ∈ seen.source,
    (x.app.status.sourceHash = "" ∨ sourceContentHash x.app.status.sourceHash ≠ sourceContentHash found.1) →
      AtFirstRing x ∨ Started x ∧ (x.app.status.sourceHash = "" ∨ underWay x = true ∨ seen.manualWindow = false)

/-- The release is of the current stage, and of the content that the next release gets. -/
def OfCurrentRing (x : ReleaseFlow) (active : StageRelease) : Prop :=
  (∀ current ∈ currentStageIn x.app, active.stage = current.name) ∧
    active.content = if isInlineSource x.app then (contentOf x.app).inherit active.content else contentOf x.app

def mayPromote (x : ReleaseFlow) : Bool :=
  match currentStageIndex x.app with
  | some index =>
    match (stageOrder x.app.spec.stages)[index]?, (stageOrder x.app.spec.stages)[index + 1]? with
    | some stage, some _ => stage.autoPromote && ringPromotable x.app
    | _, _ => false
  | none => false

/-- Behind a complete release the Application goes on to the next ring only if the release is of the current stage and of
the content that goes on.  Of an Application that polls its source this is asked of a release that has the name of the
current stage and content. -/
def LeavesCurrentRing (digest : String → String) (seen : Observation) (x : ReleaseFlow) : Prop :=
  x.syncTrigger = false → appNeedsReplacementReleaseFlow x.app.status.phase = true →
    mayPromote (x.evaluate seen) = true → ∀ active ∈ getCurrentRelease x, active.phase = .complete →
      if promotionTriggered x.app || manualTriggered x.app then OfCurrentRing x active
      else ∀ polled ∈ checkSourceChanged seen (x.setPhase .healthy), releaseIdentityChanged digest polled.1 = false →
        OfCurrentRing polled.1 active

/-- The condition on a step. -/
def RingByRing (digest : String → String) (x : ReleaseFlow) : FlowEvent → Prop
  | .reconcile seen =>
    TakesUpAtFirstRing seen x ∧ ∀ y ∈ (prepareReconcile digest seen x).toOption, LeavesCurrentRing digest seen y
  | .publish release =>
    release.stage ∈ x.app.spec.stages.map PromotionStage.name → stagesBefore x.app.spec.stages release.stage = []
  | .release .. | .rollback .. | .promotion _ | .sync _ | .requestManualSync | .prune _ => True

instance (x : ReleaseFlow) : Decidable (AtFirstRing x) := inferInstanceAs (Decidable (∀ _, _))

instance (x : ReleaseFlow) : Decidable (Started x) := inferInstanceAs (Decidable (_ ≠ _))

instance (seen : Observation) (x : ReleaseFlow) : Decidable (TakesUpAtFirstRing seen x) :=
  inferInstanceAs (Decidable (_ → _))

instance (x : ReleaseFlow) (active : StageRelease) : Decidable (OfCurrentRing x active) :=
  inferInstanceAs (Decidable (_ ∧ _))

instance (digest : String → String) (seen : Observation) (x : ReleaseFlow) :
    Decidable (LeavesCurrentRing digest seen x) :=
  inferInstanceAs (Decidable (_ → _))

instance (digest : String → String) (x : ReleaseFlow) (e : FlowEvent) : Decidable (RingByRing digest x e) :=
  match e with
  | .reconcile .. => inferInstanceAs (Decidable (_ ∧ _))
  | .publish .. => inferInstanceAs (Decidable (_ → _))
  | .release .. | .rollback .. | .promotion _ | .sync _ | .requestManualSync | .prune _ => .isTrue trivial

/-! ### Stages in ring order -/

variable {app : Application} {index : Nat} {next p : PromotionStage}

section
variable {stages : List PromotionStage}

/-- The first of two stages in ring order. -/
def earlier (first s : PromotionStage) : PromotionStage := if s.ring < first.ring then s else first

instance : Std.Associative earlier where
  assoc := by
    intro a b c
    unfold earlier
    split <;> split <;> (try split) <;> first | rfl | omega

theorem head?_stageOrder (stages : List PromotionStage) : (stageOrder stages).head? = lowestRing stages := by
  have hmin : ∀ (stages : List PromotionStage) (first : PromotionStage),
      (stageOrder (first :: stages)).head? = some (stages.foldl earlier first) := by
    intro stages
    induction stages with
    | nil => intro first; rfl
    | cons s stages ih =>
      intro first
      obtain ⟨rest, hrest⟩ := List.head?_eq_some_iff.mp (ih s)
      show (List.orderedInsert _ first (stageOrder (s :: stages))).head? = some (stages.foldl earlier (earlier first s))
      rw [hrest, List.orderedInsert, foldl_assoc]
      unfold earlier
      split
      · next hle => rw [if_neg (by omega)]; rfl
      · next hlt => rw [if_pos (by omega)]; rfl
  cases stages with
  | nil => rfl
  | cons first stages => exact hmin stages first

variable {stage : PromotionStage}

theorem stagesBefore_lowest (h : lowestRing stages = some stage) : stagesBefore stages stage.name = [] := by
  obtain ⟨rest, hrest⟩ := List.head?_eq_some_iff.mp ((head?_stageOrder stages).trans h)
  unfold stagesBefore
  rw [hrest]
  simp

theorem stagesBefore_stageIn (h : stageIn stages "" = some stage) : stagesBefore stages stage.name = [] :=
  stagesBefore_lowest h

/-- A cursor on a stage is at that stage, or at the lowest ring where the stage has no name. -/
theorem stageIn_name (hnext : next ∈ stages) (h : stageIn stages next.name = some stage) :
    stage.name = next.name ∨ stagesBefore stages stage.name = [] := by
  by_cases hname : next.name = ""
  · rw [hname] at h
    exact .inr (stagesBefore_stageIn h)
  · obtain ⟨found, hfound, heq⟩ := stageIn_of_mem hnext hname
    obtain rfl := some.inj (hfound.symm.trans h)
    exact .inl heq

/-- The current stage by its position in ring order: nothing before that position has its name. -/
theorem currentStageIndex_some (h : currentStageIndex app = some index) :
    ∃ current stage, currentStageIn app = some current ∧ (stageOrder app.spec.stages)[index]? = some stage ∧
      stage.name = current.name ∧ ∀ p ∈ (stageOrder app.spec.stages).take index, p.name ≠ current.name := by
  obtain ⟨current, hcur, hindex⟩ := bind_eq_some_iff.mp h
  obtain ⟨hlt, hname, hpre⟩ := List.findIdx?_eq_some_iff_getElem.mp hindex
  refine ⟨current, _, hcur, List.getElem?_eq_getElem hlt, by simpa using hname, ?_⟩
  intro p hp
  obtain ⟨j, hj, rfl⟩ := mem_iff_getElem.mp hp
  rw [length_take] at hj
  have hne := hpre j (by omega)
  simpa using hne

theorem mem_take_of_mem_takeWhile {α : Type} {q : α → Bool} {l : List α} {a b : α} : ∀ {k : Nat}, l[k]? = some b →
    q b = false → a ∈ l.takeWhile q → a ∈ l.take k := by
  induction l with
  | nil => intro k hb _ _; simp at hb
  | cons c l ih =>
    intro k hb hq ha
    rw [takeWhile_cons] at ha
    split at ha
    · next hc =>
      cases k with
      | zero =>
        obtain rfl := some.inj hb
        exact absurd hc (by simp [hq])
      | succ k =>
        obtain rfl | ha := mem_cons.mp ha
        · exact mem_cons_self
        · exact mem_cons_of_mem c (ih hb hq ha)
    · cases ha

theorem stagesBefore_next {name : String}
    (hstage : (stageOrder stages)[index]? = some stage) (hnext : (stageOrder stages)[index + 1]? = some next)
    (hpre : ∀ q ∈ (stageOrder stages).take index, q.name ≠ name) (hp : p ∈ stagesBefore stages next.name) :
    p = stage ∨ p ∈ stagesBefore stages name := by
  have htake : p ∈ (stageOrder stages).take (index + 1) := mem_take_of_mem_takeWhile hnext (by simp) hp
  rw [take_add_one, hstage] at htake
  obtain hin | hlast := mem_append.mp htake
  · right
    unfold stagesBefore
    rw [← take_append_drop index (stageOrder stages), takeWhile_append_of_pos (by simpa using hpre)]
    exact mem_append_left _ hin
  · left
    simpa using hlast
end

/-! ### Releases by name -/

section
variable {x : ReleaseFlow} {name : String}
variable {f : StageRelease → StageRelease} {r : StageRelease}

theorem mem_of_release? (h : x.release? name = some r) : r ∈ x.releases ∧ r.name = name ∧ name ≠ "" := by
  unfold ReleaseFlow.release? at h
  split at h
  · cases h
  · next hname => exact ⟨mem_of_find?_eq_some h, by simpa using List.find?_some h, hname⟩

theorem release?_setRelease (target : String) (hf : ∀ r, (f r).name = r.name) :
    (x.setRelease target f).release? name = (x.release? name).map (fun r => if r.name = target then f r else r) := by
  unfold ReleaseFlow.release? ReleaseFlow.setRelease
  split
  · rfl
  rw [List.find?_map]
  congr 2
  funext r
  show ((if r.name = target then f r else r).name == name) = (r.name == name)
  split
  · rw [hf]
  · rfl

theorem mem_setRelease {target : String}
    (h : r ∈ (x.setRelease target f).releases) : ∃ r₀ ∈ x.releases, r = f r₀ ∨ r = r₀ := by
  obtain ⟨r₀, hr₀, heq⟩ := mem_map.mp h
  refine ⟨r₀, hr₀, ?_⟩
  split at heq
  · exact .inl heq.symm
  · exact .inr heq.symm

theorem same_setRelease {target : String}
    (h : r ∈ (x.setRelease target f).releases) (hstage : ∀ r, (f r).stage = r.stage)
    (hcont : ∀ r, (f r).content = r.content) : ∃ r₀ ∈ x.releases, r.stage = r₀.stage ∧ r.content = r₀.content := by
  obtain ⟨r₀, hr₀, rfl | rfl⟩ := mem_setRelease h
  · exact ⟨r₀, hr₀, hstage r₀, hcont r₀⟩
  · exact ⟨r, hr₀, rfl, rfl⟩

theorem release?_filter {keep : StageRelease → Bool} (h : ∀ r, r.name = name → keep r = true) :
    ({ x with releases := x.releases.filter keep } : ReleaseFlow).release? name = x.release? name := by
  unfold ReleaseFlow.release?
  split
  · rfl
  rw [List.find?_filter]
  congr 1
  funext r
  by_cases hname : r.name = name
  · simp [hname, h r hname]
  · simp [hname]
end

/-! ### The invariant -/

section
variable {spec : ApplicationSpec} {V : PromotionStage → Content → Prop} {W : Content → Prop} {x y : ReleaseFlow}
  {seen : Observation}

/-- The Application finds its source itself. -/
def Own (x : ReleaseFlow) : Prop := isInlineSource x.app = false ∧ promotionTriggered x.app = false

/-- Every stage before the current one has been left with the recorded content. -/
def RingsBehind (V : PromotionStage → Content → Prop) (x : ReleaseFlow) : Prop :=
  ∀ current ∈ currentStageIn x.app, ∀ p ∈ stagesBefore x.app.spec.stages current.name, V p (contentOf x.app)

/-- `V` are the promotions and `W` the contents recorded so far. -/
structure OrderInv (spec : ApplicationSpec) (V : PromotionStage → Content → Prop) (W : Content → Prop)
    (x : ReleaseFlow) : Prop where
  hasSpec : x.app.spec = spec
  order : ∀ r ∈ x.releases, r.stage ∈ spec.stages.map PromotionStage.name → ∀ p ∈ stagesBefore spec.stages r.stage,
    V p r.content
  recorded : ∀ r ∈ x.releases, W r.content
  behind : Own x → Started x ∨ RingsBehind V x
  rested : Own x → appNeedsReplacementReleaseFlow x.app.status.phase = true → Started x
  selected : promotionTriggered x.app = true → x.app.status.releaseRef = "" → x.app.status.currentStage = ""

/-- A release of content that is recorded, with every stage before its own left with it. -/
def InOrder (spec : ApplicationSpec) (V : PromotionStage → Content → Prop) (W : Content → Prop) (r : StageRelease) :
    Prop :=
  (r.stage ∈ spec.stages.map PromotionStage.name → ∀ p ∈ stagesBefore spec.stages r.stage, V p r.content) ∧ W r.content

theorem OrderInv.inOrder (h : OrderInv spec V W x) {r : StageRelease} (hr : r ∈ x.releases) : InOrder spec V W r :=
  ⟨h.order r hr, h.recorded r hr⟩

theorem InOrder.congr {r r₀ : StageRelease} (h : InOrder spec V W r₀) (hstage : r.stage = r₀.stage)
    (hcont : r.content = r₀.content) : InOrder spec V W r := by
  unfold InOrder
  rw [hstage, hcont]
  exact h

theorem OrderInv.inOrder_append (h : OrderInv spec V W x) {new : StageRelease} (hnew : InOrder spec V W new) :
    ∀ r ∈ x.releases ++ [new], InOrder spec V W r :=
  forall_mem_append.mpr ⟨fun _ hr => h.inOrder hr, forall_mem_singleton.mpr hnew⟩

variable {releases : List StageRelease}

theorem OrderInv.inOrder_of_same (h : OrderInv spec V W x)
    (hmem : ∀ r ∈ releases, ∃ r₀ ∈ x.releases, r.stage = r₀.stage ∧ r.content = r₀.content) :
    ∀ r ∈ releases, InOrder spec V W r := by
  intro r hr
  obtain ⟨r₀, hr₀, hstage, hcont⟩ := hmem r hr
  exact (h.inOrder hr₀).congr hstage hcont

theorem OrderInv.mono (h : OrderInv spec V W x) {V' : PromotionStage → Content → Prop} {W' : Content → Prop}
    (hV : ∀ p c, V p c → V' p c) (hW : ∀ c, W c → W' c) : OrderInv spec V' W' x :=
  { hasSpec := h.hasSpec
    order := fun r hr hstage p hp => hV p r.content (h.order r hr hstage p hp)
    recorded := fun r hr => hW r.content (h.recorded r hr)
    behind := fun hown => (h.behind hown).imp_right (fun hb current hc p hp => hV p _ (hb current hc p hp))
    rested := h.rested
    selected := h.selected }

theorem started_iff : Started x ↔ ∃ r, getCurrentRelease x = some r ∧ r.phase ≠ .unset := by
  unfold Started getCurrentReleasePhase
  cases getCurrentRelease x <;> simp

theorem AtFirstRing.ringsBehind (h : AtFirstRing x) : RingsBehind V x := by
  intro current hcur p hp
  rw [h current hcur] at hp
  cases hp

theorem atFirstRing_of_cursor (h : x.app.status.currentStage = "") : AtFirstRing x := by
  intro current hcur
  unfold currentStageIn at hcur
  rw [h] at hcur
  exact stagesBefore_stageIn hcur

/-- Of an Application and its releases only the stages, the two fields, the content, the releases and the phase matter. -/
theorem OrderInv.congr (h : OrderInv spec V W x) (hspec : y.app.spec = x.app.spec) (hreleases : y.releases = x.releases)
    (href : y.app.status.releaseRef = x.app.status.releaseRef)
    (hcursor : y.app.status.currentStage = x.app.status.currentStage)
    (hcont : contentOf y.app = contentOf x.app)
    (hphase : Own x → appNeedsReplacementReleaseFlow y.app.status.phase = true → Started x) : OrderInv spec V W y := by
  have hown : Own y → Own x := by
    unfold Own isInlineSource promotionTriggered
    rw [hspec]
    exact id
  have hstart : Started x → Started y := by
    unfold Started getCurrentReleasePhase getCurrentRelease ReleaseFlow.release?
    rw [hreleases, href]
    exact id
  have hbehind : RingsBehind V x → RingsBehind V y := by
    unfold RingsBehind currentStageIn
    rw [hspec, hcursor, hcont]
    exact id
  refine
    { hasSpec := hspec.trans h.hasSpec
      order := by rw [hreleases]; exact h.order
      recorded := by rw [hreleases]; exact h.recorded
      behind := fun hy => (h.behind (hown hy)).imp hstart hbehind
      rested := fun hy hp => hstart (hphase (hown hy) hp)
      selected := ?_ }
  unfold promotionTriggered
  rw [hspec, href, hcursor]
  exact h.selected

variable {phase : ApplicationPhase}

section
variable (h : OrderInv spec V W x)
include h

theorem OrderInv.setPhase
    (hphase : Own x → appNeedsReplacementReleaseFlow phase = true → Started x) : OrderInv spec V W (x.setPhase phase) :=
  h.congr rfl rfl rfl rfl rfl hphase

theorem OrderInv.evaluate : OrderInv spec V W (x.evaluate seen) := h.congr rfl rfl rfl rfl rfl h.rested

theorem OrderInv.setWorkingPhase
    (hphase : appNeedsReplacementReleaseFlow phase = false) : OrderInv spec V W (x.setPhase phase) :=
  h.setPhase (fun _ hp => absurd (hphase.symm.trans hp) (by decide))

/-- Other content may be recorded at the first ring, or while there is a release that has been taken up. -/
theorem OrderInv.setSource (hash revision : String)
    (hown : Own x → AtFirstRing x ∨ Started x) : OrderInv spec V W (x.setSource hash revision) := by
  refine
    { hasSpec := h.hasSpec, order := h.order, recorded := h.recorded, behind := ?_, rested := h.rested
      selected := h.selected }
  intro hx
  obtain hfirst | hstart := hown hx
  · have hfirst' : AtFirstRing (x.setSource hash revision) := hfirst
    exact .inr hfirst'.ringsBehind
  · exact .inl hstart

theorem OrderInv.setRelease (name : String) {f : StageRelease → StageRelease}
    (hname : ∀ r, (f r).name = r.name) (hstage : ∀ r, (f r).stage = r.stage) (hcont : ∀ r, (f r).content = r.content)
    (hphase : ∀ r, r.phase ≠ .unset → (f r).phase ≠ .unset) : OrderInv spec V W (x.setRelease name f) := by
  have hin : ∀ r ∈ (x.setRelease name f).releases, InOrder spec V W r :=
    h.inOrder_of_same (fun _ hr => same_setRelease hr hstage hcont)
  have hstart : Started x → Started (x.setRelease name f) := by
    intro hx
    obtain ⟨r, hr, hne⟩ := started_iff.mp hx
    refine started_iff.mpr ⟨if r.name = name then f r else r, ?_, ?_⟩
    · show (x.setRelease name f).release? x.app.status.releaseRef = _
      rw [release?_setRelease name hname]
      show (getCurrentRelease x).map _ = _
      rw [hr]
      rfl
    · split
      · exact hphase r hne
      · exact hne
  exact
    { hasSpec := h.hasSpec
      order := fun r hr => (hin r hr).1
      recorded := fun r hr => (hin r hr).2
      behind := fun hx => (h.behind hx).imp_left hstart
      rested := fun hx hp => hstart (h.rested hx hp)
      selected := h.selected }

theorem OrderInv.requestReleaseResync (name : String) (manual : Bool) :
    OrderInv spec V W (requestReleaseResync x name manual) :=
  h.setRelease name (fun _ => rfl) (fun _ => rfl) (fun _ => rfl) (fun _ hp => hp)
end

/-! ### A new flow -/

theorem supersedeCurrentRelease_some (h : supersedeCurrentRelease x = some releases) : underWay x = false ∧
      ∀ r ∈ releases, ∃ r₀ ∈ x.releases, r.stage = r₀.stage ∧ r.content = r₀.content := by
  unfold supersedeCurrentRelease at h
  unfold underWay getCurrentReleasePhase
  split at h
  · next release hrel =>
    split at h
    · next hterm =>
      obtain rfl := some.inj h
      exact ⟨by simp [hrel, hterm], fun r hr => same_setRelease hr (fun _ => rfl) (fun _ => rfl)⟩
    · cases h
  · next hnone =>
    obtain rfl := some.inj h
    exact ⟨by simp [hnone], fun r hr => ⟨r, hr, rfl, rfl⟩⟩

theorem OrderInv.startNewReleaseFlow (h : OrderInv spec V W x) {manual : Bool}
    (hprom : manual = true → promotionTriggered x.app = false)
    (hmanual : manual = true → Own x → AtFirstRing x ∨ underWay x = true ∨ seen.manualWindow = false) :
    OrderInv spec V W (startNewReleaseFlow seen manual x) := by
  unfold Applications.startNewReleaseFlow
  split
  · next hwindow =>
    split
    · next releases hreleases =>
      obtain ⟨hended, hmem⟩ := supersedeCurrentRelease_some hreleases
      have hin := h.inOrder_of_same hmem
      refine
        { hasSpec := h.hasSpec
          order := fun r hr => (hin r hr).1
          recorded := fun r hr => (hin r hr).2
          behind := ?_
          rested := fun _ hp => nomatch hp
          selected := ?_ }
      · intro hx
        right
        apply AtFirstRing.ringsBehind
        cases manual with
        | false => exact atFirstRing_of_cursor rfl
        | true =>
        have hfirst : AtFirstRing x := by
          obtain hfirst | hway | hclosed := hmanual rfl hx
          · exact hfirst
          · exact absurd hway (by simp [hended])
          · have hopen : seen.manualWindow = true := hwindow
            exact absurd (hclosed.symm.trans hopen) (by decide)
        exact hfirst
      · intro hx _
        cases manual with
        | false => rfl
        | true =>
          have htrig : promotionTriggered x.app = true := hx
          exact absurd ((hprom rfl).symm.trans htrig) (by decide)
    · exact h
  · exact h

theorem OrderInv.startOver (h : OrderInv spec V W x) : OrderInv spec V W (Applications.startNewReleaseFlow seen false x) :=
  h.startNewReleaseFlow (fun hm => nomatch hm) (fun hm => nomatch hm)

/-! ### The source -/

/-- What a part of a reconcile leaves alone while it looks for the source. -/
structure Kept (x y : ReleaseFlow) : Prop where
  hasSpec : y.app.spec = x.app.spec
  releases : y.releases = x.releases
  releaseRef : y.app.status.releaseRef = x.app.status.releaseRef
  currentStage : y.app.status.currentStage = x.app.status.currentStage
  phase : y.app.status.phase = x.app.status.phase
  candidate : y.candidate = x.candidate
  syncTrigger : y.syncTrigger = x.syncTrigger

theorem Kept.refl (x : ReleaseFlow) : Kept x x := ⟨rfl, rfl, rfl, rfl, rfl, rfl, rfl⟩

theorem Kept.setSource (x : ReleaseFlow) (hash revision : String) : Kept x (x.setSource hash revision) :=
  ⟨rfl, rfl, rfl, rfl, rfl, rfl, rfl⟩

theorem Kept.trans {z : ReleaseFlow} (h : Kept x y) (h' : Kept y z) : Kept x z :=
  { hasSpec := h'.hasSpec.trans h.hasSpec
    releases := h'.releases.trans h.releases
    releaseRef := h'.releaseRef.trans h.releaseRef
    currentStage := h'.currentStage.trans h.currentStage
    phase := h'.phase.trans h.phase
    candidate := h'.candidate.trans h.candidate
    syncTrigger := h'.syncTrigger.trans h.syncTrigger }

theorem Kept.getCurrentRelease (h : Kept x y) : getCurrentRelease y = getCurrentRelease x := by
  unfold Applications.getCurrentRelease ReleaseFlow.release?
  rw [h.releases, h.releaseRef]

theorem Kept.promotionReady (h : Kept x y) : promotionReady y = promotionReady x := by
  unfold Applications.promotionReady promotionTriggered
  rw [h.hasSpec, h.candidate]

theorem Kept.promotes {z : ReleaseFlow} (h : Kept x y) {c : Content} (hp : Promotes y z p c) : Promotes x z p c := by
  obtain ⟨⟨index, next, hindex, hstage, hnext, hcursor⟩, ⟨r, hr, hcomp⟩, hallow, hhealthy⟩ := hp
  unfold currentStageIndex currentStageIn at hindex
  rw [h.hasSpec, h.currentStage] at hindex
  rw [h.hasSpec] at hstage hnext
  rw [h.releases] at hr
  exact ⟨⟨index, next, hindex, hstage, hnext, hcursor⟩, ⟨r, hr, hcomp⟩, hallow, hhealthy⟩

variable {changed : Bool}

/-- What is recorded is other content, or the first; only the former counts as a change. -/
theorem recordResolvedSource_some {hash revision : String}
    (h : recordResolvedSource x hash revision = some (y, changed)) :
    (y = x ∧ changed = false) ∨
      (y = x.setSource hash revision ∧ (hash ≠ "" ∨ revision ≠ "") ∧ (changed = true → x.app.status.sourceHash ≠ "") ∧
        (x.app.status.sourceHash = "" ∨ sourceContentHash x.app.status.sourceHash ≠ sourceContentHash hash)) := by
  unfold recordResolvedSource at h
  split at h
  · obtain ⟨rfl, rfl⟩ := Prod.mk.inj (some.inj h)
    exact .inl ⟨rfl, rfl⟩
  · next husable =>
    split at h
    · cases h
    split at h
    · obtain ⟨rfl, rfl⟩ := Prod.mk.inj (some.inj h)
      exact .inl ⟨rfl, rfl⟩
    · next hother =>
      obtain ⟨rfl, rfl⟩ := Prod.mk.inj (some.inj h)
      refine .inr ⟨rfl, by tauto, by simp, by tauto⟩

section
variable (h : checkSourceChanged seen x = some (y, changed))
include h

theorem checkSourceChanged_some : (y = x ∧ changed = false) ∨
      ∃ found, seen.source = some found ∧ y = x.setSource found.1 found.2 ∧
        (changed = true → x.app.status.sourceHash ≠ "") ∧
        (x.app.status.sourceHash = "" ∨ sourceContentHash x.app.status.sourceHash ≠ sourceContentHash found.1) := by
  unfold checkSourceChanged at h
  split at h
  · obtain ⟨rfl, rfl⟩ := Prod.mk.inj (some.inj h)
    exact .inl ⟨rfl, rfl⟩
  obtain ⟨found, hfound, h⟩ := bind_eq_some_iff.mp h
  obtain hsame | ⟨hy, husable, hchanged, hother⟩ := recordResolvedSource_some h
  · exact .inl hsame
  unfold resolveSourceHash at hfound
  split at hfound
  · obtain rfl := some.inj hfound
    simp at husable
  · exact .inr ⟨found, hfound, hy, hchanged, hother⟩

theorem kept_checkSourceChanged : Kept x y := by
  obtain ⟨rfl, -⟩ | ⟨found, -, rfl, -⟩ := checkSourceChanged_some h
  · exact Kept.refl y
  · exact Kept.setSource x _ _
end

theorem OrderInv.checkSourceChanged (h : OrderInv spec V W x) (hstart : Own x → Started x)
    (hy : checkSourceChanged seen x = some (y, changed)) : OrderInv spec V W y := by
  obtain ⟨rfl, -⟩ | ⟨found, -, rfl, -⟩ := checkSourceChanged_some hy
  · exact h
  · exact h.setSource _ _ (fun hown => .inr (hstart hown))

/-! ### Before the flow -/

/-- A part of a reconcile that looks for the source: where it ends the reconcile the invariant holds, and where it does
not, the condition too. -/
def Prepares (spec : ApplicationSpec) (V : PromotionStage → Content → Prop) (W : Content → Prop) (seen : Observation)
    (x : ReleaseFlow) : Except ReleaseFlow ReleaseFlow → Prop
  | .error y => OrderInv spec V W y
  | .ok y => OrderInv spec V W y ∧ Kept x y ∧ TakesUpAtFirstRing seen y

theorem Prepares.bind {res : Except ReleaseFlow ReleaseFlow} {f : ReleaseFlow → Except ReleaseFlow ReleaseFlow}
    (h : Prepares spec V W seen x res)
    (hf : ∀ y, OrderInv spec V W y → Kept x y → TakesUpAtFirstRing seen y → Prepares spec V W seen y (f y)) :
    Prepares spec V W seen x (res.bind f) := by
  cases res with
  | error y => exact h
  | ok y =>
  obtain ⟨hinv, hkept, htakes⟩ := h
  have hnext := hf y hinv hkept htakes
  show Prepares spec V W seen x (f y)
  cases hres : f y with
  | error z =>
    rw [hres] at hnext
    exact hnext
  | ok z =>
    rw [hres] at hnext
    exact ⟨hnext.1, hkept.trans hnext.2.1, hnext.2.2⟩

/-- Only an Application that finds its source itself takes up a source at its stage. -/
theorem own_of_takesUpSource (h : takesUpSource x = true) : Own x := by
  obtain ⟨hpromo, hways⟩ := and_eq_true_iff.mp h
  refine ⟨?_, by simpa using hpromo⟩
  by_contra hinline
  rw [not_eq_false] at hinline
  obtain htrig | hsync := or_eq_true_iff.mp hways
  · simp [triggeredSourceEligible, hinline] at htrig
  · simp [syncTriggerRefreshesSource, hinline] at hsync

theorem takesUp_of_not_own (h : ¬Own x) : TakesUpAtFirstRing seen x :=
  fun htakes => absurd (own_of_takesUpSource htakes) h

theorem OrderInv.resolveTriggeredSource (h : OrderInv spec V W x) (htakes : TakesUpAtFirstRing seen x)
    (heligible : triggeredSourceEligible x = true) :
    Prepares spec V W seen x (resolveTriggeredSource seen x) := by
  unfold Applications.resolveTriggeredSource
  split
  · next y changed hy =>
    obtain ⟨rfl, rfl⟩ | ⟨found, hfound, rfl, hchanged, hother⟩ := checkSourceChanged_some hy
    · split
      · exact h
      · exact ⟨h, Kept.refl y, htakes⟩
    have hrecord : Own x → AtFirstRing x ∨
        Started x ∧ (x.app.status.sourceHash = "" ∨ underWay x = true ∨ seen.manualWindow = false) := by
      intro hown
      exact htakes (by simp [takesUpSource, hown.2, heligible]) found hfound hother
    have hinv : OrderInv spec V W (x.setSource found.1 found.2) :=
      h.setSource _ _ (fun hown => (hrecord hown).imp_right And.left)
    split
    · exact hinv
    · next hresolved =>
      split
      · next hflow =>
        simp only [and_eq_true, not_eq_true', bne_iff_ne] at hflow
        obtain ⟨⟨hchange, hpromo⟩, -⟩ := hflow
        apply hinv.startNewReleaseFlow (fun _ => hpromo)
        intro _ hown
        obtain hfirst | ⟨-, hempty | hstays⟩ := hrecord hown
        · exact .inl hfirst
        · exact absurd hempty (hchanged hchange)
        · exact .inr hstays
      · refine ⟨hinv, Kept.setSource x _ _, ?_⟩
        -- what has just been recorded is not other content
        intro _ again hagain hdiffers
        obtain rfl := some.inj (hfound.symm.trans hagain)
        obtain hempty | hdiffers := hdiffers
        · exact absurd (.inl hempty) hresolved
        · exact absurd rfl hdiffers
  · exact h

section
variable {digest : String → String}

section
variable (h : OrderInv spec V W x) (htakes : TakesUpAtFirstRing seen x)
include h htakes

theorem OrderInv.prepareTriggeredSource : Prepares spec V W seen x (prepareTriggeredSource digest seen x) := by
  unfold Applications.prepareTriggeredSource
  split
  · next heligible =>
    apply Prepares.bind
    · split
      · exact h.resolveTriggeredSource htakes heligible
      · exact ⟨h, Kept.refl x, htakes⟩
    · intro y hy _ htakes'
      split
      · exact hy.startOver
      · exact ⟨hy, Kept.refl y, htakes'⟩
  · exact ⟨h, Kept.refl x, htakes⟩

theorem OrderInv.beginVerifiedPromotion : Prepares spec V W seen x (beginVerifiedPromotion seen x) := by
  unfold Applications.beginVerifiedPromotion
  split
  · exact ⟨h, Kept.refl x, htakes⟩
  · next hready =>
    have hpromo : promotionTriggered x.app = true := by
      unfold promotionReady at hready
      simp only [not_eq_true', not_eq_false, and_eq_true] at hready
      exact hready.1
    have hforeign : ¬Own x := fun hown => absurd (hown.2.symm.trans hpromo) (by decide)
    split
    · exact h
    split
    · split
      · exact h
      · exact h.evaluate
    split
    · exact h.startOver
    split
    · split
      · refine ⟨?_, ⟨rfl, rfl, rfl, rfl, rfl, rfl, rfl⟩, takesUp_of_not_own hforeign⟩
        exact (h.setSource _ _ (fun hown => absurd hown hforeign)).congr rfl rfl rfl rfl rfl h.rested
      · exact ⟨h, Kept.refl x, htakes⟩
    · exact ⟨h, Kept.refl x, htakes⟩
end

theorem beginVerifiedPromotion_ok (h : beginVerifiedPromotion seen x = .ok y) (hready : promotionReady y = true) :
    y.app.status.releaseRef = "" := by
  unfold beginVerifiedPromotion at h
  split at h
  · next hnot =>
    obtain rfl := Except.ok.inj h
    exact absurd hready (by simpa using hnot)
  split at h
  · cases h
  split at h
  · cases h
  split at h
  · cases h
  · next href =>
    split at h
    · split at h
      · obtain rfl := Except.ok.inj h
        show x.app.status.releaseRef = ""
        simpa using href
      · obtain rfl := Except.ok.inj h
        simpa using href
    · obtain rfl := Except.ok.inj h
      simpa using href

section
variable (h : OrderInv spec V W x)
include h

theorem OrderInv.prepareInlineArtifactSource (htakes : TakesUpAtFirstRing seen x) :
    Prepares spec V W seen x (prepareInlineArtifactSource seen x) := by
  unfold Applications.prepareInlineArtifactSource
  split
  · next hash revision _ =>
    split
    · exact ⟨h, Kept.refl x, htakes⟩
    · next hinline =>
      have hforeign : ¬Own x := fun hown => hinline (by rw [hown.1]; rfl)
      split
      · exact h.setPhase (fun hown => absurd hown hforeign)
      · split
        · refine ⟨h.setSource _ _ (fun hown => absurd hown hforeign), Kept.setSource x _ _, ?_⟩
          exact takesUp_of_not_own hforeign
        · exact ⟨h, Kept.refl x, htakes⟩
  · exact ⟨h, Kept.refl x, htakes⟩

/-- Before the flow: where the reconcile goes on, a ready candidate has no release. -/
theorem OrderInv.prepareReconcile (htakes : TakesUpAtFirstRing seen x) :
    Prepares spec V W seen x (prepareReconcile digest seen x) ∧
      ∀ y, prepareReconcile digest seen x = .ok y → promotionReady y = true → y.app.status.releaseRef = "" := by
  have hbegun : ∀ b, OrderInv spec V W b → TakesUpAtFirstRing seen b →
      Prepares spec V W seen b ((Applications.prepareInlineArtifactSource seen b).bind fun x =>
        (Applications.prepareTriggeredSource digest seen x).bind fun x => Applications.prepareTriggeredSource digest seen x) := by
    intro b hb htakes
    apply (hb.prepareInlineArtifactSource htakes).bind
    intro a ha _ htakes
    apply (ha.prepareTriggeredSource htakes).bind
    intro a ha _ htakes
    exact ha.prepareTriggeredSource htakes
  unfold Applications.prepareReconcile Applications.reconcilePromotionTrigger
  split
  · exact ⟨h, fun y hy => nomatch hy⟩
  refine ⟨?_, ?_⟩
  · apply (h.beginVerifiedPromotion htakes).bind
    intro b hb _ htakes
    exact hbegun b hb htakes
  intro y hy hready
  have hprepares := h.beginVerifiedPromotion htakes
  cases hb : Applications.beginVerifiedPromotion seen x with
  | error b =>
    simp only [Except.bind, hb] at hy
    cases hy
  | ok b =>
  rw [hb] at hprepares
  have hrest := hbegun b hprepares.1 hprepares.2.2
  have hy' : ((Applications.prepareInlineArtifactSource seen b).bind fun x =>
      (Applications.prepareTriggeredSource digest seen x).bind fun x =>
        Applications.prepareTriggeredSource digest seen x) = .ok y := by
    simpa only [Except.bind, hb] using hy
  rw [hy'] at hrest
  have hkept := hrest.2.1
  rw [hkept.releaseRef]
  exact beginVerifiedPromotion_ok hb (by rw [← hkept.promotionReady]; exact hready)

/-! ### The sync trigger -/

theorem OrderInv.finishSyncTrigger : OrderInv spec V W (finishSyncTrigger x) := by
  unfold Applications.finishSyncTrigger
  split
  · exact (h.requestReleaseResync x.app.status.releaseRef true).setWorkingPhase rfl
  · exact h

theorem OrderInv.handleSyncTrigger (htakes : TakesUpAtFirstRing seen x)
    (htrigger : x.syncTrigger = true) : OrderInv spec V W (handleSyncTrigger seen x) := by
  have hcons : OrderInv spec V W { x with syncTrigger := false } := h.congr rfl rfl rfl rfl rfl h.rested
  unfold Applications.handleSyncTrigger
  split
  · next hrefresh =>
    have hphase : appNeedsReplacementReleaseFlow x.app.status.phase = true := by
      unfold syncTriggerRefreshesSource at hrefresh
      simp only [and_eq_true, beq_iff_eq] at hrefresh
      rw [hrefresh.1.1]
      rfl
    have hpromo : promotionTriggered x.app = false := by
      unfold syncTriggerRefreshesSource at hrefresh
      simpa using (and_eq_true_iff.mp hrefresh).2
    split
    · exact h
    cases hresult : (resolveSourceHash seen x).bind (fun found =>
        recordResolvedSource { x with syncTrigger := false } found.1 found.2) with
    | none =>
      simp only [hresult]
      exact hcons
    | some result =>
      obtain ⟨y, changed⟩ := result
      obtain ⟨found, hfound, hy⟩ := bind_eq_some_iff.mp hresult
      simp only [hresult]
      cases changed with
      | false =>
        apply OrderInv.finishSyncTrigger
        obtain ⟨rfl, -⟩ | ⟨rfl, -⟩ := recordResolvedSource_some hy
        · exact hcons
        · exact hcons.setSource found.1 found.2 (fun hown => .inr (h.rested hown hphase))
      | true =>
      obtain ⟨-, hno⟩ | ⟨rfl, -, hchanged, hother⟩ := recordResolvedSource_some hy
      · cases hno
      have hinv := hcons.setSource found.1 found.2 (fun hown => .inr (h.rested hown hphase))
      apply hinv.startNewReleaseFlow (fun _ => hpromo)
      intro hmanual hown
      have hsrc : seen.source = some found := by
        unfold resolveSourceHash at hfound
        rw [if_neg (by rw [show isInlineSource x.app = false from hown.1]; decide)] at hfound
        exact hfound
      have hup : takesUpSource x = true := by
        unfold takesUpSource
        rw [hpromo, htrigger, hrefresh, show manualSyncRequested x = true from hmanual]
        simp
      obtain hfirst | ⟨-, hempty | hstays⟩ := htakes hup found hsrc hother
      · exact .inl hfirst
      · exact absurd hempty (hchanged rfl)
      · exact .inr hstays
  · exact hcons.finishSyncTrigger
end

/-! ### The promotion -/

theorem promoteToNextRing_eq_some {releaseName : Application → PromotionStage → String}
    {advance : RingAdvance} (h : promoteToNextRing releaseName app = some advance) :
    ∃ index stage next, currentStageIndex app = some index ∧ (stageOrder app.spec.stages)[index]? = some stage ∧
      (stageOrder app.spec.stages)[index + 1]? = some next ∧ stage.autoPromote = true ∧ ringPromotable app = true ∧
      advance.stage = next.name := by
  unfold promoteToNextRing at h
  obtain ⟨index, hindex, h⟩ := bind_eq_some_iff.mp h
  split at h
  · next stage next hstage hnext =>
    split at h
    · next hmay =>
      obtain ⟨hallow, hhealthy⟩ := and_eq_true_iff.mp hmay
      obtain rfl := some.inj h
      exact ⟨index, stage, next, hindex, hstage, hnext, hallow, hhealthy, rfl⟩
    · cases h
  · cases h

theorem Content.inherit_self (c : Content) : c.inherit c = c := by
  cases c
  simp [Content.inherit]

variable {active : StageRelease} {current : PromotionStage}

theorem OfCurrentRing.inherit (h : OfCurrentRing x active) :
    (contentOf x.app).inherit active.content = active.content := by
  have hcont := h.2
  split at hcont
  · exact hcont.symm
  · rw [← hcont]
    exact active.content.inherit_self

theorem mayPromote_of_next {stage : PromotionStage} (hindex : currentStageIndex x.app = some index)
    (hstage : (stageOrder x.app.spec.stages)[index]? = some stage)
    (hnext : (stageOrder x.app.spec.stages)[index + 1]? = some next) (hallow : stage.autoPromote = true)
    (hhealthy : ringPromotable x.app = true) : mayPromote x = true := by
  unfold mayPromote
  rw [hindex]
  dsimp only
  rw [hstage, hnext]
  dsimp only
  rw [hallow]
  exact hhealthy

section
variable (h : OrderInv spec V W x)
include h

/-- Behind a release of the current stage that is in order, only the current stage is missing before the next one. -/
theorem OrderInv.behindNext (hmem : active ∈ x.releases) (hof : active.stage = current.name)
    {stage : PromotionStage} (hstage : (stageOrder x.app.spec.stages)[index]? = some stage)
    (hname : stage.name = current.name) (hpre : ∀ q ∈ (stageOrder x.app.spec.stages).take index, q.name ≠ current.name)
    (hnext : (stageOrder x.app.spec.stages)[index + 1]? = some next) (hleft : V stage active.content) :
    ∀ p ∈ stagesBefore x.app.spec.stages next.name, V p active.content := by
  intro p hp
  obtain rfl | hp := stagesBefore_next hstage hnext hpre hp
  · exact hleft
  · rw [h.hasSpec, ← hof] at hp
    refine h.order active hmem ?_ p hp
    rw [hof, ← hname, ← h.hasSpec]
    exact mem_map_of_mem (mem_stageOrder.mp (mem_of_getElem? hstage))

/-- **The promotion keeps ring order**: what precedes the next stage is the stage that is left, or precedes that one. -/
theorem OrderInv.finishCompletedRing
    (hactive : getCurrentRelease x = some active) (hcomp : active.phase = .complete)
    (hof : mayPromote (x.evaluate seen) = true → OfCurrentRing x active)
    (hV : ∀ p, Promotes x (finishCompletedRing digest seen x active) p active.content → V p active.content) :
    OrderInv spec V W (finishCompletedRing digest seen x active) := by
  have hstart : Started x := started_iff.mpr ⟨active, hactive, by rw [hcomp]; decide⟩
  have hmem := (mem_of_release? hactive).1
  have hrest : OrderInv spec V W ((x.setPhase .healthy).evaluate seen) := (h.setPhase (fun _ _ => hstart)).evaluate
  unfold Applications.finishCompletedRing at hV ⊢
  dsimp only at hV ⊢
  cases hpromote : promoteToNextRing
      (fun _ stage => applicationReleaseName digest ((x.setPhase .healthy).evaluate seen) stage)
      ((x.setPhase .healthy).evaluate seen).app with
  | none => exact hrest
  | some advance =>
    simp only [hpromote] at hV ⊢
    split at hV
    · next hname =>
      rw [if_pos hname]
      exact hrest
    · next hname =>
      rw [if_neg hname]
      obtain ⟨index, stage, next, hindex, hstage, hnext, hallow, hhealthy, hadv⟩ :=
        promoteToNextRing_eq_some hpromote
      have hindex : currentStageIndex x.app = some index := hindex
      have hstage : (stageOrder x.app.spec.stages)[index]? = some stage := hstage
      have hnext : (stageOrder x.app.spec.stages)[index + 1]? = some next := hnext
      have hring : OfCurrentRing x active := hof (mayPromote_of_next hindex hstage hnext hallow hhealthy)
      obtain ⟨current, found, hcur, hfound, hname', hpre⟩ := currentStageIndex_some hindex
      obtain rfl := some.inj (hfound.symm.trans hstage)
      have hof' : active.stage = current.name := hring.1 current hcur
      have hleft : V found active.content := by
        apply hV
        refine { leaves := ⟨index, next, hindex, hstage, hnext, hadv⟩, complete := ?_, allowed := hallow
                 healthy := hhealthy }
        exact ⟨active, hmem, by rw [hof', hname'], rfl, hcomp⟩
      have hnextmem : next ∈ x.app.spec.stages := mem_stageOrder.mp (mem_of_getElem? hnext)
      have hbehind := h.behindNext hmem hof' hstage hname' hpre hnext hleft
      have hnew : InOrder spec V W
          { name := advance.release, stage := advance.stage, content := active.content, phase := .unset,
            autoRetryCount := 0 } := by
        refine ⟨fun _ p hp => hbehind p ?_, h.recorded active hmem⟩
        rw [h.hasSpec, ← hadv]
        exact hp
      have hin : ∀ r ∈ (if (x.release? advance.release).isSome then x.releases else x.releases ++
          [inheritVerifiedRing
            { name := advance.release, stage := advance.stage, content := contentOf x.app, phase := .unset,
              autoRetryCount := 0 } active]), InOrder spec V W r := by
        split
        · exact fun r hr => h.inOrder hr
        · exact h.inOrder_append (hnew.congr rfl hring.inherit)
      refine
        { hasSpec := h.hasSpec
          order := fun r hr => (hin r hr).1
          recorded := fun r hr => (hin r hr).2
          behind := ?_
          rested := fun _ hp => nomatch hp
          selected := fun _ href => absurd href hname }
      intro hown
      right
      intro stage' hstage' p hp
      have hcont : active.content = contentOf x.app := by
        have hc := hring.2
        rw [if_neg (by rw [show isInlineSource x.app = false from hown.1]; decide)] at hc
        exact hc
      have hstage' : stageIn x.app.spec.stages advance.stage = some stage' := hstage'
      rw [hadv] at hstage'
      show V p (contentOf x.app)
      rw [← hcont]
      obtain heq | hnone := stageIn_name hnextmem hstage'
      · apply hbehind
        rw [← heq]
        exact hp
      · have hp : p ∈ stagesBefore x.app.spec.stages stage'.name := hp
        rw [hnone] at hp
        cases hp

/-! ### The healthy phase -/

theorem OrderInv.handleActiveRelease : OrderInv spec V W (handleActiveRelease x (getCurrentReleasePhase x)).1 := by
  unfold Applications.handleActiveRelease
  split
  · next phase requeue hphase =>
    apply h.setPhase
    intro _ _ hunset
    rw [hunset] at hphase
    cases hphase
  · exact h

theorem OrderInv.handleTriggeredHealthyPhase
    (hof : mayPromote (x.evaluate seen) = true → ∀ active ∈ getCurrentRelease x, active.phase = .complete →
      OfCurrentRing x active)
    (hV : ∀ p c, Promotes x (handleTriggeredHealthyPhase digest seen x) p c → V p c) :
    OrderInv spec V W (handleTriggeredHealthyPhase digest seen x) := by
  unfold Applications.handleTriggeredHealthyPhase at hV ⊢
  cases hrel : getCurrentRelease x with
  | none => exact h.evaluate
  | some release =>
  simp only [hrel] at hV ⊢
  by_cases hcomp : release.phase = .complete
  · rw [if_pos hcomp] at hV ⊢
    apply h.finishCompletedRing hrel hcomp (fun hmay => hof hmay release hrel hcomp)
    exact fun p hp => hV p _ hp
  rw [if_neg hcomp]
  split
  · exact h.evaluate
  have hphase : getCurrentReleasePhase x = release.phase := by
    unfold getCurrentReleasePhase
    rw [hrel]
    rfl
  rw [← hphase]
  exact h.handleActiveRelease

theorem OrderInv.pollSource (hstart : Own x → Started x)
    (hof : mayPromote (x.evaluate seen) = true → ∀ active ∈ getCurrentRelease x, active.phase = .complete →
      ∀ polled ∈ Applications.checkSourceChanged seen x, releaseIdentityChanged digest polled.1 = false →
        OfCurrentRing polled.1 active)
    (hV : ∀ p c, Promotes x (pollSource digest seen x) p c → V p c) : OrderInv spec V W (pollSource digest seen x) := by
  unfold Applications.pollSource at hV ⊢
  cases hpoll : Applications.checkSourceChanged seen x with
  | none => exact h
  | some polled =>
  obtain ⟨y, changed⟩ := polled
  have hy := h.checkSourceChanged hstart hpoll
  have hkept := kept_checkSourceChanged hpoll
  cases changed with
  | true =>
    simp only
    exact hy.startOver
  | false =>
  simp only [hpoll] at hV ⊢
  by_cases hident : releaseIdentityChanged digest y = true
  · rw [if_pos hident]
    exact hy.startOver
  rw [if_neg hident] at hV ⊢
  cases hrel : Applications.getCurrentRelease y with
  | none => exact hy.evaluate
  | some release =>
  simp only [hrel] at hV ⊢
  by_cases hcomp : release.phase = .complete
  · rw [if_pos hcomp] at hV ⊢
    apply hy.finishCompletedRing hrel hcomp
    · intro hmay
      have hmay' : mayPromote (x.evaluate seen) = true := by
        unfold mayPromote currentStageIndex currentStageIn at hmay ⊢
        simp only [ReleaseFlow.evaluate, hkept.hasSpec, hkept.currentStage] at hmay ⊢
        exact hmay
      exact hof hmay' release (by rw [← hkept.getCurrentRelease]; exact hrel) hcomp (y, false) hpoll
        (by simpa using hident)
    · exact fun p hp => hV p _ (hkept.promotes hp)
  · rw [if_neg hcomp]
    exact hy.evaluate

theorem OrderInv.holdExhaustedRelease (hstart : Own x → Started x) :
    OrderInv spec V W (holdExhaustedRelease digest seen x) := by
  unfold Applications.holdExhaustedRelease
  cases hpoll : Applications.checkSourceChanged seen x with
  | none =>
    simp only
    split
    · exact h.startOver
    · exact h
  | some polled =>
  obtain ⟨y, changed⟩ := polled
  have hy := h.checkSourceChanged hstart hpoll
  cases changed with
  | true =>
    simp only
    exact hy.startOver
  | false =>
  simp only
  split
  · exact hy.startOver
  · exact hy

theorem OrderInv.handleHealthyPhase (hsync : x.syncTrigger = false)
    (hphase : appNeedsReplacementReleaseFlow x.app.status.phase = true) (hleaves : LeavesCurrentRing digest seen x)
    (hV : ∀ p c, Promotes x (handleHealthyPhase digest seen x) p c → V p c) :
    OrderInv spec V W (handleHealthyPhase digest seen x) := by
  have hstart : Own x → Started x := fun hown => h.rested hown hphase
  unfold Applications.handleHealthyPhase at hV ⊢
  by_cases htrig : (promotionTriggered x.app || manualTriggered x.app) = true
  · rw [if_pos htrig] at hV ⊢
    apply h.handleTriggeredHealthyPhase _ hV
    intro hmay active hactive hcomp
    have hring := hleaves hsync hphase hmay active hactive hcomp
    rw [if_pos htrig] at hring
    exact hring
  rw [if_neg htrig] at hV ⊢
  by_cases hended : getCurrentReleasePhase x = .superseded ∨ getCurrentReleasePhase x = .rolledBack
  · rw [if_pos hended]
    split
    · apply OrderInv.holdExhaustedRelease
      · exact h.congr rfl rfl rfl rfl rfl h.rested
      · exact hstart
    · exact h.startOver
  rw [if_neg hended] at hV ⊢
  by_cases hcomp : getCurrentReleasePhase x = .complete
  · rw [if_pos hcomp] at hV ⊢
    have hhealthy : OrderInv spec V W (x.setPhase .healthy) := h.setPhase (fun hown _ => hstart hown)
    apply hhealthy.pollSource hstart
    · intro hmay active hactive hac polled hpolled hident
      have hring := hleaves hsync hphase hmay active hactive hac
      rw [if_neg htrig] at hring
      exact hring polled hpolled hident
    · exact fun p c hp => hV p c ⟨hp.leaves, hp.complete, hp.allowed, hp.healthy⟩
  · rw [if_neg hcomp] at hV ⊢
    apply h.pollSource hstart _ hV
    intro _ active hactive hac
    refine absurd ?_ hcomp
    unfold getCurrentReleasePhase
    rw [show getCurrentRelease x = some active from hactive, ← hac]
    rfl

/-! ### The release of the current stage -/

theorem OrderInv.markPromotionStarted : OrderInv spec V W (markPromotionStarted x) := by
  unfold Applications.markPromotionStarted
  split
  · exact h.congr rfl rfl rfl rfl rfl h.rested
  · exact h

theorem OrderInv.select (hunset : getCurrentReleasePhase x = .unset)
    (hbehind : Own x → RingsBehind V x) {name : String} (hname : name ≠ "") :
    OrderInv spec V W (Applications.markPromotionStarted (x.setReleaseRef name)) := by
  have hsel : OrderInv spec V W (x.setReleaseRef name) :=
    { hasSpec := h.hasSpec
      order := h.order
      recorded := h.recorded
      behind := fun hown => .inr (hbehind hown)
      rested := fun hown hp => absurd hunset (h.rested hown hp)
      selected := fun _ href => absurd href hname }
  exact hsel.markPromotionStarted
end

variable {existing : StageRelease}

theorem started_select (h : x.release? existing.name = some existing)
    (hphase : existing.phase ≠ .unset) : Started (markPromotionStarted (x.setReleaseRef existing.name)) := by
  refine started_iff.mpr ⟨existing, ?_, hphase⟩
  unfold markPromotionStarted
  split <;> exact h

section
variable (h : OrderInv spec V W x)
include h

theorem OrderInv.adoptExistingRelease (hunset : getCurrentReleasePhase x = .unset)
    (hbehind : Own x → RingsBehind V x) (hname : existing.name ≠ "")
    (hexisting : x.release? existing.name = some existing) :
    OrderInv spec V W (adoptExistingRelease seen x existing) := by
  have hselect := h.select hunset hbehind hname
  unfold Applications.adoptExistingRelease
  dsimp only
  split
  · next hterm =>
    have hphase : existing.phase ≠ .unset := by
      intro hno
      rw [hno] at hterm
      cases hterm
    split
    · exact hselect.setPhase (fun _ _ => started_select hexisting hphase)
    · exact (hselect.requestReleaseResync existing.name (manualSyncRequested x)).setWorkingPhase rfl
  · split
    · next phase requeue hactive =>
      split
      · exact h
      apply hselect.setPhase
      intro _ _
      apply started_select hexisting
      intro hno
      rw [hno] at hactive
      cases hactive
    · exact hselect.setWorkingPhase rfl

/-- **The release of the current stage is in order**: every stage before it has been left with the recorded content. -/
theorem OrderInv.createRelease (hunset : getCurrentReleasePhase x = .unset)
    (hbehind : RingsBehind V x) (hW : W (contentOf x.app))
    (hcur : currentStageIn x.app = some current) :
    OrderInv spec V W (createRelease digest seen x current).1 := by
  unfold Applications.createRelease
  dsimp only
  split
  · exact h.setWorkingPhase rfl
  · next hname =>
    split
    · next existing hexisting =>
      have hfound := (mem_of_release? hexisting).2.1
      apply h.adoptExistingRelease hunset (fun _ => hbehind)
      · rw [hfound]
        exact hname
      · rw [hfound]
        exact hexisting
    · have hunstarted : ∀ hown : Own x, appNeedsReplacementReleaseFlow x.app.status.phase = true → False :=
        fun hown hp => h.rested hown hp hunset
      have hbuilt : InOrder spec V W (buildRelease digest x current) := by
        refine ⟨fun _ p hp => hbehind current hcur p ?_, hW⟩
        rw [h.hasSpec]
        exact hp
      have hin := h.inOrder_append hbuilt
      have hcreated : ∀ ref, ref = x.app.status.releaseRef ∨ ref ≠ "" →
          OrderInv spec V W
            ({ x with releases := x.releases ++ [buildRelease digest x current] }.setReleaseRef ref) := by
        intro ref href
        refine
          { hasSpec := h.hasSpec
            order := fun r hr => (hin r hr).1
            recorded := fun r hr => (hin r hr).2
            behind := fun _ => .inr hbehind
            rested := fun hown hp => absurd hp (hunstarted hown)
            selected := ?_ }
        intro hpromo hnone
        obtain rfl | hne := href
        · exact h.selected hpromo hnone
        · exact absurd hnone hne
      split
      · exact hcreated _ (.inl rfl)
      · exact (hcreated _ (.inr hname)).markPromotionStarted.setWorkingPhase rfl

theorem OrderInv.reconcileTargetStage
    (hready : promotionReady x = true → x.app.status.releaseRef = "") (hW : W (contentOf x.app)) :
    OrderInv spec V W (reconcileTargetStage digest seen x).1 := by
  have hpend : OrderInv spec V W (x.setPhase .pending) := h.setWorkingPhase rfl
  unfold Applications.reconcileTargetStage
  split
  · exact h
  split
  · exact hpend
  split
  · next current hcur =>
    split
    · exact h.handleActiveRelease
    · next hunset =>
      have hunset := of_not_not hunset
      split
      · exact hpend
      · next hpublisher =>
        split
        · exact hpend
        split
        · exact hpend
        split
        · exact hpend
        split
        · exact hpend
        · next hcand =>
          apply h.createRelease hunset _ hW hcur
          cases hpromo : promotionTriggered x.app with
          | true =>
            -- a promoted deployment starts over before its release is made
            have hisready : promotionReady x = true := by simpa [hpromo] using hcand
            exact (atFirstRing_of_cursor (h.selected hpromo (hready hisready))).ringsBehind
          | false =>
            have hinline : isInlineSource x.app = false := by
              simpa [publisherOwnsReleaseRef, hpromo] using hpublisher
            exact (h.behind ⟨hinline, hpromo⟩).resolve_left (fun hstart => hstart hunset)
  · exact h

theorem OrderInv.reconcileReleaseFlow
    (hready : promotionReady x = true → x.app.status.releaseRef = "") (hW : W (contentOf x.app)) :
    OrderInv spec V W (reconcileReleaseFlow digest seen x) := by
  have htarget : OrderInv spec V W (Applications.reconcileTargetStage digest seen x).1 :=
    h.reconcileTargetStage hready hW
  have hclear : OrderInv spec V W { (Applications.reconcileTargetStage digest seen x).1 with manualSync := false } :=
    htarget.congr rfl rfl rfl rfl rfl htarget.rested
  unfold Applications.reconcileReleaseFlow
  dsimp only
  split
  · exact hclear.evaluate
  · exact hclear
end

theorem contentOf_markPromotionStarted : contentOf (markPromotionStarted x).app = contentOf x.app := by
  unfold markPromotionStarted
  split <;> rfl

theorem contentOf_createRelease : contentOf (createRelease digest seen x current).1.app = contentOf x.app := by
  have hadopt : ∀ existing, contentOf (adoptExistingRelease seen x existing).app = contentOf x.app := by
    intro existing
    have hselect : contentOf (markPromotionStarted (x.setReleaseRef existing.name)).app = contentOf x.app :=
      contentOf_markPromotionStarted
    unfold adoptExistingRelease
    dsimp only
    split
    · split <;> exact hselect
    split
    · split
      · rfl
      · exact hselect
    · exact hselect
  unfold createRelease
  dsimp only
  split
  · rfl
  split
  · exact hadopt _
  split
  · rfl
  · show contentOf (markPromotionStarted _).app = contentOf x.app
    rw [contentOf_markPromotionStarted]
    rfl

theorem contentOf_reconcileReleaseFlow : contentOf (reconcileReleaseFlow digest seen x).app = contentOf x.app := by
  have htarget : contentOf (reconcileTargetStage digest seen x).1.app = contentOf x.app := by
    unfold reconcileTargetStage handleActiveRelease
    repeat' split
    all_goals first | rfl | exact contentOf_createRelease
  unfold reconcileReleaseFlow
  dsimp only
  split
  · exact htarget
  · exact htarget

/-! ### One step -/

section
variable (h : OrderInv spec V W x)
include h

theorem OrderInv.reconcileApp (htakes : TakesUpAtFirstRing seen x)
    (hleaves : ∀ y ∈ (Applications.prepareReconcile digest seen x).toOption, LeavesCurrentRing digest seen y)
    (hW : W (contentOf (reconcileApp digest seen x).app))
    (hV : ∀ p c, Promotes x (reconcileApp digest seen x) p c → V p c) :
    OrderInv spec V W (reconcileApp digest seen x) := by
  have hprep : Prepares spec V W seen x (Applications.prepareReconcile digest seen x) ∧ _ := h.prepareReconcile htakes
  obtain ⟨hprepares, hready⟩ := hprep
  unfold Applications.reconcileApp at hW hV ⊢
  cases hprepared : Applications.prepareReconcile digest seen x with
  | error y =>
    rw [hprepared] at hprepares
    exact hprepares
  | ok y =>
  rw [hprepared] at hprepares
  obtain ⟨hy, hkept, htakes'⟩ := hprepares
  simp only [hprepared] at hW hV ⊢
  unfold reconcilePrepared at hW hV ⊢
  by_cases hsync : y.syncTrigger = true
  · rw [if_pos hsync]
    exact hy.handleSyncTrigger htakes' hsync
  rw [if_neg hsync] at hW hV ⊢
  by_cases hphase : appNeedsReplacementReleaseFlow y.app.status.phase = true
  · rw [if_pos hphase] at hV ⊢
    apply hy.handleHealthyPhase (eq_false_iff.mpr hsync) hphase
    · exact hleaves y (by rw [hprepared]; rfl)
    · exact fun p c hp => hV p c (hkept.promotes hp)
  rw [if_neg hphase] at hW ⊢
  split
  · exact hy.setWorkingPhase rfl
  · exact hy.setWorkingPhase rfl
  · next hbuild =>
    simp only [hbuild] at hW
    split
    · exact hy.setWorkingPhase rfl
    · next hblocked =>
      rw [if_neg hblocked, contentOf_reconcileReleaseFlow] at hW
      exact hy.reconcileReleaseFlow (hready y hprepared) hW

theorem OrderInv.setReleasePhase (name : String) {phase : ReleasePhase} (hphase : phase ≠ .unset) :
    OrderInv spec V W (x.setRelease name (fun r => r.setPhase phase)) :=
  h.setRelease name (fun _ => rfl) (fun _ => rfl) (fun _ => rfl) (fun _ _ => hphase)

/-- **One step keeps the invariant**, given what it adds to the promotions and to the contents. -/
theorem OrderInv.step {e : FlowEvent} (hguard : RingByRing digest x e)
    (hW : ∀ c, ContentRecorded (flowStep digest x e) c → W c)
    (hV : ∀ p c, Promotes x (flowStep digest x e) p c → V p c) : OrderInv spec V W (flowStep digest x e) := by
  cases e with
  | reconcile seen => exact h.reconcileApp hguard.1 hguard.2 (hW _ (.inl rfl)) hV
  | release name phase =>
    simp only [flowStep]
    split
    · exact h
    · next hphase => exact h.setReleasePhase name hphase
  | rollback name previous =>
    simp only [flowStep]
    split
    · next release other hrel hother =>
      split
      · next hcand =>
        obtain ⟨-, hname, hpres⟩ := mem_of_release? hother
        have hrolled : OrderInv spec V W (x.setRelease name (fun r => r.setPhase .rolledBack)) :=
          h.setReleasePhase name (by decide)
        have hstart : Own x → Started ((x.setRelease name (fun r => r.setPhase .rolledBack)).setReleaseRef other.name) := by
          intro hown
          refine started_iff.mpr ⟨if other.name = name then other.setPhase .rolledBack else other, ?_, ?_⟩
          · show (x.setRelease name (fun r => r.setPhase .rolledBack)).release? other.name = _
            rw [release?_setRelease (f := fun r => r.setPhase .rolledBack) name (fun _ => rfl), hname, hother]
            simp only [Option.map_some, hname]
          unfold rollbackCandidate at hcand
          simp only [hown.1, Bool.false_or, Bool.and_eq_true, bne_iff_ne] at hcand
          split
          · exact fun hno => nomatch hno
          · exact hcand.2
        exact
          { hasSpec := hrolled.hasSpec
            order := hrolled.order
            recorded := hrolled.recorded
            behind := fun hown => .inl (hstart hown)
            rested := fun hown _ => hstart hown
            selected := fun _ href => absurd (hname.symm.trans href) hpres }
      · exact h
    · exact h
  | publish release =>
    simp only [flowStep] at hW ⊢
    split at hW
    · next hpublishes =>
      rw [if_pos hpublishes]
      simp only [and_eq_true, bne_iff_ne] at hpublishes
      obtain ⟨⟨howns, hname⟩, -⟩ := hpublishes
      have hforeign : ¬Own x := by
        intro hown
        simp [publisherOwnsReleaseRef, hown.1] at howns
      have hpub : InOrder spec V W { release with phase := .unset, autoRetryCount := 0 } := by
        refine ⟨?_, hW _ (.inr ⟨howns, _, mem_append_right _ (mem_singleton_self _), rfl⟩)⟩
        intro hstage p hp
        have hnone : stagesBefore x.app.spec.stages release.stage = [] := hguard (by rw [h.hasSpec]; exact hstage)
        have hp : p ∈ stagesBefore spec.stages release.stage := hp
        rw [← h.hasSpec, hnone] at hp
        cases hp
      have hin := h.inOrder_append hpub
      exact
        { hasSpec := h.hasSpec
          order := fun r hr => (hin r hr).1
          recorded := fun r hr => (hin r hr).2
          behind := fun hown => absurd hown hforeign
          rested := fun hown => absurd hown hforeign
          selected := fun _ href => absurd href hname }
    · next hpublishes =>
      rw [if_neg hpublishes]
      exact h
  | promotion candidate => exact h.congr rfl rfl rfl rfl rfl h.rested
  | sync manual => exact h.congr rfl rfl rfl rfl rfl h.rested
  | requestManualSync => exact h.congr rfl rfl rfl rfl rfl h.rested
  | prune name =>
    have hcur : getCurrentRelease (flowStep digest x (.prune name)) = getCurrentRelease x := by
      apply release?_filter
      intro r hr
      have hr : r.name = x.app.status.releaseRef := hr
      simp [prunable, hr]
    have hstart : Started x → Started (flowStep digest x (.prune name)) := by
      intro hx
      obtain ⟨r, hr, hne⟩ := started_iff.mp hx
      exact started_iff.mpr ⟨r, hcur.trans hr, hne⟩
    exact
      { hasSpec := h.hasSpec
        order := fun r hr => h.order r (mem_of_mem_filter hr)
        recorded := fun r hr => h.recorded r (mem_of_mem_filter hr)
        behind := fun hown => (h.behind hown).imp_left hstart
        rested := fun hown hp => hstart (h.rested hown hp)
        selected := h.selected }
end

end
end

end Paprika.Applications
