import Mathlib.Data.List.Nodup
import Paprika.Lib.Run
import Paprika.Releases.Reconcile

/-!
# Releases of one namespace, reconciled at the same time

Every Release of the namespace with what its own reconcile has still to do.  A reconcile reads its Release and lists
the namespace when it starts and writes later, one write at a time, while the other Releases take steps of their own;
reconciles of one Release do not overlap.  Releases are created at any time, annotated, superseded by the Application
controller once they have ended, and deleted.

`one_release_per_target`: at most one Release of a target is in flight and the others wait, in every run in which the
check of a Release that waits is not made while another Release of the target is `Canarying`, a phase that
`hasActiveConcurrentRelease` does not look for, or has itself made the check and not yet written its phase.
-/

namespace Paprika.Releases

open Lib.Run List

/-- A Release and what its reconcile has still to do. -/
structure Slot where
  release : Release
  todo : List Action
  deriving DecidableEq

abbrev Namespace := List Slot

/-- The phases that `hasActiveConcurrentRelease` looks for. -/
def ReleasePhase.isActive : ReleasePhase → Bool
  | .promoting | .verifying | .awaitingApproval => true
  | .unset | .pending | .canarying | .complete | .failed | .rolledBack | .superseded => false

def hasActiveConcurrentRelease (items : Namespace) (r : Release) : Bool :=
  items.any (fun other =>
    other.release.name != r.name && other.release.target == r.target && other.release.status.phase.isActive)

/-- What can happen next. -/
inductive Event
  | create (name target : String) (rollsBack : Bool)
  | requestResync (name : String)
  | requestRollback (name : String)
  | supersede (name : String)
  | delete (name : String)
  | start (name : String) (o : Observation)
  | go (name : String) (ok : Bool)

/-- `supersedeRelease`, `supersedeCurrentRelease`: only a Release that has ended is superseded. -/
def Release.supersede (r : Release) : Release :=
  if r.status.phase.isTerminal then { r with status := { r.status with phase := .superseded } } else r

/-- The next action of a reconcile, which ends when a write fails. -/
def Slot.go (ok : Bool) (x : Slot) : Slot :=
  match x.todo with
  | [] => x
  | a :: rest => if ok then { release := a.perform x.release, todo := rest } else { x with todo := [] }

/-- The start of a reconcile, unless one is at work. -/
def Slot.start (items : Namespace) (o : Observation) (x : Slot) : Slot :=
  if x.todo.isEmpty then
    { x with todo := reconcileReleasePhase o (hasActiveConcurrentRelease items x.release) x.release }
  else x

def update (name : String) (f : Slot → Slot) (items : Namespace) : Namespace :=
  items.map (fun x => if x.release.name == name then f x else x)

def step (items : Namespace) : Event → Namespace
  | .create name target rollsBack =>
    if items.any (fun x => x.release.name == name) then items
    else items ++ [{ release := .create name target rollsBack, todo := [] }]
  | .requestResync name => update name (fun x => { x with release := { x.release with resyncRequested := true } }) items
  | .requestRollback name =>
    update name (fun x => { x with release := { x.release with rollbackRequested := true } }) items
  | .supersede name => update name (fun x => { x with release := x.release.supersede }) items
  | .delete name => items.filter (fun x => !(x.release.name == name && x.todo.isEmpty))
  | .start name o => update name (Slot.start items o) items
  | .go name ok => update name (Slot.go ok) items

/-! ### The law -/

def Slot.InFlight (x : Slot) : Prop := x.release.status.phase.inFlight = true

def Slot.Waiting (x : Slot) : Prop := x.release.status.phase.isWaiting = true

instance (x : Slot) : Decidable x.InFlight := inferInstanceAs (Decidable (_ = _))

instance (x : Slot) : Decidable x.Waiting := inferInstanceAs (Decidable (_ = _))

def Rivals (x y : Slot) : Prop := x.release.name ≠ y.release.name ∧ x.release.target = y.release.target

instance (x y : Slot) : Decidable (Rivals x y) := inferInstanceAs (Decidable (_ ∧ _))

/-- At most one Release of a target is in flight. -/
def OneInFlight (items : Namespace) : Prop := ∀ x ∈ items, ∀ y ∈ items, Rivals x y → x.InFlight → ¬y.InFlight

instance (items : Namespace) : Decidable (OneInFlight items) := inferInstanceAs (Decidable (∀ _, _))

/-- Between two states, a Release that waits goes on waiting for as long as another of its target is in flight. -/
def StaysQueued (before after : Namespace) : Prop :=
  ∀ y ∈ before, ∀ y' ∈ after, y'.release.name = y.release.name → y.Waiting →
    ∀ x ∈ after, Rivals x y' → x.InFlight → y'.Waiting

/-- One release per target at a time, in the states of a run and from each to the next. -/
def OneAtATime (es : List Event) : Prop :=
  OneInFlight (run step [] es) ∧
    ∀ pre e post, es = pre ++ e :: post → StaysQueued (run step [] pre) (step (run step [] pre) e)

def Action.begins : Action → Bool
  | .status s => s.phase.inFlight
  | _ => false

/-- A reconcile has passed the check and still has to write the phase. -/
def Slot.Begins (x : Slot) : Prop := ¬x.InFlight ∧ ∃ a ∈ x.todo, a.begins = true

instance (x : Slot) : Decidable x.Begins := inferInstanceAs (Decidable (_ ∧ _))

/-- The next thing to do is to record a rollback. -/
def Slot.RecordsRollback (x : Slot) : Prop :=
  x.todo.head?.any (fun a => match a with
    | .status s => s.phase == .rolledBack
    | _ => false) = true

instance (x : Slot) : Decidable x.RecordsRollback := inferInstanceAs (Decidable (_ = _))

/-- When the check protects: no other Release of the target is `Canarying` or about to begin; and no rollback of a
Release that waits is recorded while another is in flight. -/
def Serialised (items : Namespace) : Event → Prop
  | .start name _ => ∀ x ∈ items, x.release.name = name → x.Waiting →
      hasActiveConcurrentRelease items x.release = false →
      ∀ y ∈ items, Rivals y x → y.release.status.phase ≠ .canarying ∧ ¬y.Begins
  | .go name _ => ∀ x ∈ items, x.release.name = name → x.Waiting → x.RecordsRollback →
      ∀ y ∈ items, Rivals y x → ¬y.InFlight
  | _ => True

instance (items : Namespace) (e : Event) : Decidable (Serialised items e) :=
  match e with
  | .start .. => inferInstanceAs (Decidable (∀ _, _))
  | .go .. => inferInstanceAs (Decidable (∀ _, _))
  | .create .. | .requestResync _ | .requestRollback _ | .supersede _ | .delete _ => .isTrue trivial

/-! ### What one step does to a Release -/

/-- What a step can do to a Release: nothing that counts, supersede it, give its reconcile something to do, take one
action on it, or drop what is left to do. -/
def Changed (items : Namespace) (e : Event) (y y' : Slot) : Prop :=
  (y'.release.status = y.release.status ∧ y'.todo = y.todo) ∨
  (y.release.status.phase.isTerminal = true ∧ y'.release.status.phase = .superseded ∧ y'.todo = y.todo) ∨
  (∃ o, e = .start y.release.name o ∧ y.todo = [] ∧ y'.release = y.release ∧
    y'.todo = reconcileReleasePhase o (hasActiveConcurrentRelease items y.release) y.release) ∨
  (∃ a rest, e = .go y.release.name true ∧ y.todo = a :: rest ∧ y'.release = a.perform y.release ∧ y'.todo = rest) ∨
  (y'.release = y.release ∧ y'.todo = [])

variable {e : Event} {items : Namespace}

theorem mem_step {y' : Slot} (h : y' ∈ step items e) :
    (∃ name target rollsBack, e = .create name target rollsBack ∧ (∀ x ∈ items, x.release.name ≠ name) ∧
      y' = { release := .create name target rollsBack, todo := [] }) ∨
    ∃ y ∈ items, y'.release.name = y.release.name ∧ y'.release.target = y.release.target ∧ Changed items e y y' := by
  have hupdate : ∀ {name : String} {f : Slot → Slot}, y' ∈ update name f items →
      y' ∈ items ∨ ∃ y ∈ items, y.release.name = name ∧ y' = f y := by
    intro name f h
    obtain ⟨y, hy, rfl⟩ := mem_map.mp h
    split
    · next hname => exact .inr ⟨y, hy, beq_iff_eq.mp hname, rfl⟩
    · exact .inl hy
  have hsame : y' ∈ items → (∃ name target rollsBack, e = .create name target rollsBack ∧
        (∀ x ∈ items, x.release.name ≠ name) ∧ y' = { release := .create name target rollsBack, todo := [] }) ∨
      ∃ y ∈ items, y'.release.name = y.release.name ∧ y'.release.target = y.release.target ∧ Changed items e y y' :=
    fun hy => .inr ⟨y', hy, rfl, rfl, .inl ⟨rfl, rfl⟩⟩
  cases e with
  | create name target rollsBack =>
    simp only [step] at h
    split at h
    · exact hsame h
    · next hfresh =>
      obtain hy | hy := mem_append.mp h
      · exact hsame hy
      · refine .inl ⟨name, target, rollsBack, rfl, ?_, mem_singleton.mp hy⟩
        intro x hx heq
        exact hfresh (any_eq_true.mpr ⟨x, hx, beq_iff_eq.mpr heq⟩)
  | requestResync name | requestRollback name =>
    obtain hy | ⟨y, hy, -, rfl⟩ := hupdate h
    · exact hsame hy
    · exact .inr ⟨y, hy, rfl, rfl, .inl ⟨rfl, rfl⟩⟩
  | supersede name =>
    obtain hy | ⟨y, hy, -, rfl⟩ := hupdate h
    · exact hsame hy
    refine .inr ⟨y, hy, ?_⟩
    unfold Release.supersede
    split
    · next hterm => exact ⟨rfl, rfl, .inr (.inl ⟨hterm, rfl, rfl⟩)⟩
    · exact ⟨rfl, rfl, .inl ⟨rfl, rfl⟩⟩
  | delete name => exact hsame (mem_filter.mp h).1
  | start name o =>
    obtain hy | ⟨y, hy, rfl, rfl⟩ := hupdate h
    · exact hsame hy
    refine .inr ⟨y, hy, ?_⟩
    unfold Slot.start
    split
    · next hempty => exact ⟨rfl, rfl, .inr (.inr (.inl ⟨o, rfl, isEmpty_iff.mp hempty, rfl, rfl⟩))⟩
    · exact ⟨rfl, rfl, .inl ⟨rfl, rfl⟩⟩
  | go name ok =>
  obtain hy | ⟨y, hy, rfl, rfl⟩ := hupdate h
  · exact hsame hy
  refine .inr ⟨y, hy, ?_⟩
  unfold Slot.go
  split
  · exact ⟨rfl, rfl, .inl ⟨rfl, rfl⟩⟩
  · next a rest htodo =>
    cases ok with
    | true =>
      have hname : (a.perform y.release).name = y.release.name := by cases a <;> rfl
      have htarget : (a.perform y.release).target = y.release.target := by cases a <;> rfl
      exact ⟨hname, htarget, .inr (.inr (.inr (.inl ⟨a, rest, rfl, htodo, rfl, rfl⟩)))⟩
    | false => exact ⟨rfl, rfl, .inr (.inr (.inr (.inr ⟨rfl, rfl⟩)))⟩

/-! ### The invariant -/

def Slot.Holds (x : Slot) : Prop := x.InFlight ∨ x.Begins

theorem holds_of_mem {x : Slot} {a : Action} (ha : a ∈ x.todo) (hbegins : a.begins = true) : x.Holds := by
  by_cases h : x.InFlight
  · exact .inl h
  · exact .inr ⟨h, a, ha, hbegins⟩

structure Inv (items : Namespace) : Prop where
  names : (items.map (·.release.name)).Nodup
  follows : ∀ x ∈ items, Follows x.release.status.phase x.todo
  exclusive : ∀ x ∈ items, ∀ y ∈ items, Rivals x y → x.Holds → ¬y.Holds

theorem inv_nil : Inv [] :=
  { names := nodup_nil
    follows := by simp
    exclusive := by simp }

theorem Inv.eq_of_name (h : Inv items) {x y : Slot} (hx : x ∈ items) (hy : y ∈ items)
    (hname : x.release.name = y.release.name) : x = y :=
  inj_on_of_nodup_map h.names hx hy hname

theorem names_step (h : (items.map (·.release.name)).Nodup) (e : Event) :
    ((step items e).map (·.release.name)).Nodup := by
  have hupdate : ∀ {name : String} {f : Slot → Slot}, (∀ x, (f x).release.name = x.release.name) →
      ((update name f items).map (·.release.name)).Nodup := by
    intro name f hf
    have hmap : (update name f items).map (·.release.name) = items.map (·.release.name) := by
      simp only [update, map_map]
      apply map_congr_left
      intro x _
      simp only [Function.comp_apply]
      split
      · exact hf x
      · rfl
    rw [hmap]
    exact h
  cases e with
  | create name target rollsBack =>
    simp only [step]
    split
    · exact h
    · next hfresh =>
      rw [map_append, nodup_append]
      refine ⟨h, by simp, ?_⟩
      intro a ha b hb heq
      obtain ⟨x, hx, rfl⟩ := mem_map.mp ha
      rw [map_singleton, mem_singleton] at hb
      exact hfresh (any_eq_true.mpr ⟨x, hx, beq_iff_eq.mpr (heq.trans hb)⟩)
  | requestResync name | requestRollback name => exact hupdate (fun _ => rfl)
  | supersede name =>
    apply hupdate
    intro x
    simp only [Release.supersede]
    split <;> rfl
  | delete name => exact h.sublist (filter_sublist.map _)
  | start name o =>
    apply hupdate
    intro x
    simp only [Slot.start]
    split <;> rfl
  | go name ok =>
    apply hupdate
    intro x
    simp only [Slot.go]
    split
    · rfl
    · next a rest _ =>
      cases ok with
      | false => rfl
      | true => cases a <;> rfl

/-- What starts to do something that puts a Release in flight is in flight already or has passed the check. -/
theorem reconcile_inFlight {o : Observation} {active : Bool} {r : Release} {a : Action}
    (ha : a ∈ reconcileReleasePhase o active r) (hbegins : a.begins = true) :
    r.status.phase.inFlight = true ∨ r.status.phase.isWaiting = true ∧ active = false := by
  obtain ⟨s, hs, hphase⟩ : ∃ s, Action.status s ∈ reconcileReleasePhase o active r ∧ s.phase.inFlight = true := by
    cases a with
    | status s => exact ⟨s, ha, hbegins⟩
    | clearResync | spendRetries | rolloutRead _ | weightApplied _ _ _ | gatePassed _ | checksPassed _ => cases hbegins
  obtain ⟨-, h⟩ | ⟨-, -, h⟩ | ⟨-, h⟩ := reconcile_cases o active r
  · rw [h, handleResyncAnnotation] at hs
    split at hs
    · simp only [cons_append, nil_append, mem_cons, Action.status.injEq, reduceCtorEq, not_mem_nil,
        or_false] at hs
      rw [hs] at hphase
      cases hphase
    · simp at hs
  · rw [h, handleFailedRollback] at hs
    split at hs
    · cases hs
    · simp only [mem_cons, reduceCtorEq, false_or, Action.status.injEq, not_mem_nil, or_false] at hs
      rw [hs] at hphase
      cases hphase
  · rw [h] at hs
    cases hwait : r.status.phase.isWaiting with
    | true =>
      obtain h | h | ⟨hactive, -⟩ := dispatch_waiting o active hwait
      · rw [h] at hs; cases hs
      · rw [h, mem_singleton] at hs
        rw [Action.status.inj hs] at hphase
        cases hphase
      · exact .inr ⟨rfl, hactive⟩
    | false =>
    left
    by_contra hflight
    have hterm : r.status.phase.isTerminal = true := by
      revert hwait hflight
      cases r.status.phase <;> simp [ReleasePhase.isWaiting, ReleasePhase.isTerminal, ReleasePhase.inFlight]
    rw [dispatch_terminal hterm] at hs
    cases hs

/-- A Release that holds after a step has held before, or its check has just found no active release. -/
theorem holds_step {x' : Slot} (hx' : x' ∈ step items e) (hholds : x'.Holds) :
    ∃ x ∈ items, x'.release.name = x.release.name ∧ x'.release.target = x.release.target ∧
      (x.Holds ∨ ∃ o, e = .start x.release.name o ∧ x.Waiting ∧
        hasActiveConcurrentRelease items x.release = false) := by
  obtain ⟨name, target, rollsBack, -, -, rfl⟩ | ⟨x, hx, hname, htarget, hchange⟩ := mem_step hx'
  · obtain hflight | ⟨-, s, hs, -⟩ := hholds
    · cases hflight
    · cases hs
  refine ⟨x, hx, hname, htarget, ?_⟩
  obtain ⟨hstatus, htodo⟩ | ⟨hterm, hphase, htodo⟩ | ⟨o, he, -, hrelease, htodo⟩ | ⟨a, rest, -, htodo, hrelease, hrest⟩ |
    ⟨hrelease, htodo⟩ := hchange
  · left
    unfold Slot.Holds Slot.Begins Slot.InFlight at hholds
    rw [hstatus, htodo] at hholds
    exact hholds
  · left
    obtain hflight | ⟨-, s, hs, hin⟩ := hholds
    · unfold Slot.InFlight at hflight
      rw [hphase] at hflight
      cases hflight
    · rw [htodo] at hs
      exact holds_of_mem hs hin
  · obtain hflight | ⟨-, s, hs, hin⟩ := hholds
    · unfold Slot.InFlight at hflight
      rw [hrelease] at hflight
      exact .inl (.inl hflight)
    · rw [htodo] at hs
      obtain hflight | ⟨hwait, hactive⟩ := reconcile_inFlight hs hin
      · exact .inl (.inl hflight)
      · exact .inr ⟨o, he, hwait, hactive⟩
  · left
    obtain hflight | ⟨-, s, hs, hin⟩ := hholds
    · unfold Slot.InFlight at hflight
      rw [hrelease] at hflight
      cases a with
      | status s => exact holds_of_mem (a := .status s) (by rw [htodo]; exact mem_cons_self) hflight
      | clearResync | spendRetries | rolloutRead _ | weightApplied _ _ _ | gatePassed _ | checksPassed _ =>
        exact .inl hflight
    · rw [hrest] at hs
      exact holds_of_mem (by rw [htodo]; exact mem_cons_of_mem a hs) hin
  · left
    obtain hflight | ⟨-, s, hs, -⟩ := hholds
    · unfold Slot.InFlight at hflight
      rw [hrelease] at hflight
      exact .inl hflight
    · rw [htodo] at hs
      cases hs

theorem Inv.follows_step (h : Inv items) (e : Event) :
    ∀ x' ∈ step items e, Follows x'.release.status.phase x'.todo := by
  intro x' hx'
  obtain ⟨name, target, rollsBack, -, -, rfl⟩ | ⟨x, hx, -, -, hchange⟩ := mem_step hx'
  · trivial
  have hx := h.follows x hx
  obtain ⟨hstatus, htodo⟩ | ⟨hterm, hphase, htodo⟩ | ⟨o, -, -, hrelease, htodo⟩ | ⟨a, rest, -, htodo, hrelease, hrest⟩ |
    ⟨-, htodo⟩ := hchange
  · rw [hstatus, htodo]
    exact hx
  · rw [hphase, htodo]
    exact follows_of_terminal hterm rfl hx
  · rw [hrelease, htodo]
    exact reconcile_follows o _ x.release
  · rw [htodo] at hx
    rw [hrelease, hrest]
    cases a with
    | status s => exact hx.2
    | clearResync | spendRetries | rolloutRead _ | weightApplied _ _ _ | gatePassed _ | checksPassed _ => exact hx
  · rw [htodo]
    trivial

/-- **One step keeps the invariant** when the check protects. -/
theorem Inv.next (h : Inv items) (he : Serialised items e) : Inv (step items e) := by
  refine { names := names_step h.names e, follows := h.follows_step e, exclusive := ?_ }
  intro x' hx' y' hy' hrivals hxholds hyholds
  obtain ⟨x, hx, hxname, hxtarget, hxcases⟩ := holds_step hx' hxholds
  obtain ⟨y, hy, hyname, hytarget, hycases⟩ := holds_step hy' hyholds
  have hxy : Rivals x y := by
    unfold Rivals at hrivals ⊢
    rw [← hxname, ← hyname, ← hxtarget, ← hytarget]
    exact hrivals
  -- the one whose check has just passed finds the other neither active, nor canarying, nor about to begin
  have hpass : ∀ {a b : Slot}, a ∈ items → b ∈ items → Rivals b a → a.Waiting → (∃ o, e = .start a.release.name o) →
      hasActiveConcurrentRelease items a.release = false → ¬b.Holds := by
    intro a b ha hb hrivals hwait he' hactive
    obtain ⟨o, rfl⟩ := he'
    obtain ⟨hcanary, hbegins⟩ := he a ha rfl hwait hactive b hb hrivals
    rintro (hflight | hb')
    · have hinactive : b.release.status.phase.isActive = false := by
        cases hb' : b.release.status.phase.isActive with
        | false => rfl
        | true =>
        have htrue : hasActiveConcurrentRelease items a.release = true := by
          refine any_eq_true.mpr ⟨b, hb, ?_⟩
          simp [hrivals.1, hrivals.2, hb']
        rw [htrue] at hactive
        cases hactive
      unfold Slot.InFlight at hflight
      revert hcanary hinactive hflight
      cases b.release.status.phase <;> simp [ReleasePhase.isActive, ReleasePhase.inFlight]
    · exact hbegins hb'
  obtain hxh | ⟨o, hxe, hxw, hxa⟩ := hxcases
  · obtain hyh | ⟨o, hye, hyw, hya⟩ := hycases
    · exact h.exclusive x hx y hy hxy hxh hyh
    · exact hpass hy hx hxy hyw ⟨o, hye⟩ hya hxh
  · obtain hyh | ⟨o', hye, -, -⟩ := hycases
    · exact hpass hx hy ⟨hxy.1.symm, hxy.2.symm⟩ hxw ⟨o, hxe⟩ hxa hyh
    · rw [hxe] at hye
      exact hxy.1 (Event.start.inj hye).1

theorem inv_run {es : List Event} (h : Guarded step Serialised [] es) : Inv (run step [] es) :=
  guarded_invariant (motive := Inv) (fun _ _ hs he => hs.next he) inv_nil h

theorem Inv.oneInFlight (h : Inv items) : OneInFlight items :=
  fun x hx y hy hrivals hflight hy' => h.exclusive x hx y hy hrivals (.inl hflight) (.inl hy')

/-- A Release that stops waiting begins, and then no other is in flight, or is rolled back while no other is. -/
theorem Inv.staysQueued (h : Inv items) (he : Serialised items e) : StaysQueued items (step items e) := by
  intro y hy y' hy' hname hwait x' hx' hrivals hflight
  have hafter := h.next he
  obtain ⟨name, target, rollsBack, -, hfresh, rfl⟩ | ⟨z, hz, hzname, hztarget, hchange⟩ := mem_step hy'
  · rfl
  have hzy : z = y := h.eq_of_name hz hy (hzname.symm.trans hname)
  subst hzy
  unfold Slot.Waiting at hwait ⊢
  obtain ⟨hstatus, -⟩ | ⟨hterm, -, -⟩ | ⟨o, -, -, hrelease, -⟩ | ⟨a, rest, rfl, htodo, hrelease, -⟩ | ⟨hrelease, -⟩ := hchange
  · rw [hstatus]
    exact hwait
  · revert hterm hwait
    cases z.release.status.phase <;> simp [ReleasePhase.isWaiting, ReleasePhase.isTerminal]
  · rw [hrelease]
    exact hwait
  · rw [hrelease]
    cases a with
    | clearResync | spendRetries | rolloutRead _ | weightApplied _ _ _ | gatePassed _ | checksPassed _ => exact hwait
    | status s =>
    have hfollow := h.follows z hz
    rw [htodo] at hfollow
    have hmoves := hfollow.1
    rw [Moves, if_pos hwait] at hmoves
    show s.phase.isWaiting = true
    obtain hs | hs | hs := hmoves
    · rw [hs]
      rfl
    · -- it begins: both would be in flight
      have hy'flight : y'.InFlight := by
        unfold Slot.InFlight
        rw [hrelease]
        show s.phase.inFlight = true
        rw [hs]
        rfl
      exact absurd hy'flight (hafter.oneInFlight x' hx' y' hy' hrivals hflight)
    · -- it is rolled back: the other was in flight before
      exfalso
      obtain ⟨_, _, _, heq, -, -⟩ | ⟨x, hx, hxname, hxtarget, hxchange⟩ := mem_step hx'
      · cases heq
      have hrival : Rivals x z := by
        unfold Rivals at hrivals ⊢
        rw [← hxname, ← hzname, ← hxtarget, ← hztarget]
        exact hrivals
      have hxflight : x.InFlight := by
        unfold Slot.InFlight at hflight ⊢
        obtain ⟨hstatus, -⟩ | ⟨-, hphase, -⟩ | ⟨o, heq, -, -, -⟩ | ⟨a, rest, heq, -, -, -⟩ | ⟨hrel, -⟩ := hxchange
        · rw [← hstatus]
          exact hflight
        · rw [hphase] at hflight
          cases hflight
        · cases heq
        · exact absurd (Event.go.inj heq).1.symm hrival.1
        · rw [← hrel]
          exact hflight
      exact he z hz rfl hwait (by simp [Slot.RecordsRollback, htodo, hs]) x hx hrival hxflight
  · rw [hrelease]
    exact hwait

/-- **One release per target.**  In every run whose checks are serialised, at most one Release of a target is in flight,
and the others wait until it has ended. -/
theorem one_release_per_target (es : List Event) (h : Guarded step Serialised [] es) : OneAtATime es := by
  refine ⟨(inv_run h).oneInFlight, ?_⟩
  rintro pre e post rfl
  obtain ⟨hpre, hrest⟩ := guarded_append.mp h
  exact (inv_run hpre).staysQueued hrest.1

section

/-- The second Release finds the first in flight, waits, and begins when the first has completed. -/
theorem one_release_per_target_queued :
    OneAtATime [.create "a" "prod" false, .start "a" quietObservation, .go "a" true, .create "b" "prod" false,
      .start "b" quietObservation, .go "b" true, .start "a" quietObservation, .go "a" true, .start "a" quietObservation,
      .go "a" true, .start "b" quietObservation, .go "b" true] :=
  one_release_per_target _ (by decide)

/-- Both Releases list the namespace before either has written its phase. -/
def overlappingChecks : List Event :=
  [.create "a" "prod" false, .create "b" "prod" false, .start "a" quietObservation, .start "b" quietObservation,
    .go "a" true, .go "b" true]

/-- The second Release makes its check while the first is on its canary steps. -/
def checkDuringCanary : List Event :=
  let canary : Observation :=
    { quietObservation with
      stage := some
        { rolloutStrategy := false
          canary := some { steps := [10, 100], intervalSeconds := 60, progressDeadlineSeconds := 600, analysis := none }
          trafficRouter := false } }
  [.create "a" "prod" false, .start "a" canary, .go "a" true, .start "a" canary, .go "a" true, .create "b" "prod" false,
    .start "b" canary, .go "b" true]

theorem two_releases_in_flight : ¬OneAtATime overlappingChecks ∧ ¬OneAtATime checkDuringCanary := by
  have hrace : ¬OneInFlight (run step [] overlappingChecks) := by decide
  have hcanary : ¬OneInFlight (run step [] checkDuringCanary) := by decide
  exact ⟨fun h => hrace h.1, fun h => hcanary h.1⟩
end

end Paprika.Releases
