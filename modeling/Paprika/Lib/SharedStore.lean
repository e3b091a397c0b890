import Mathlib.Logic.Relation
import Paprika.Lib.Run

/-!
# Programs over a shared store, and keys that are used once

Any number of programs run against one store.  An operation on the store is one atomic step, the steps of the
programs are interleaved in any order, and every operation may fail: before it takes effect, or after it did without
the program being told.  Entries may also vanish at any time.

* `Program` — a program as a tree of its operations and of what it does with each reply; `Program.exec` runs the first.
* `Conforms` — a program logic: what a program writes, under the keys it owns, once, and what it returns, in terms of
  the effects that it was told of.
* **`invariant_run`** — programs that conform, with no key owned by two of them, write no key twice and take no entry
  twice, and whoever takes an entry takes what was written there (`Invariant.took_unique`, `Invariant.wrote_unique`).
* **`Grounded`** — every write rests on the writes of what its writer had taken; `invariant_run` makes it a rule of
  induction along chains of takes and writes.
* `root_unique` — a chain in which every node has one parent has one root.
-/

namespace Paprika.Lib.SharedStore

open Lib.Run List

variable {κ υ ρ α : Type}

/-- A program over a store.  A reply `none` is an error; a read replies with what it found, if anything, and a
replacement with whether the expected entry was there. -/
inductive Program (κ υ ρ : Type) where
  | done (r : ρ)
  | get (k : κ) (next : Option (Option υ) → Program κ υ ρ)
  | getDel (k : κ) (next : Option (Option υ) → Program κ υ ρ)
  | set (k : κ) (v : υ) (next : Bool → Program κ υ ρ)
  | replace (old : κ) (expected : υ) (new : κ) (v : υ) (next : Option Bool → Program κ υ ρ)

def Program.result? : Program κ υ ρ → Option ρ
  | .done r => some r
  | _ => none

theorem Program.eq_done_of_result? {P : Program κ υ ρ} {r : ρ} (h : P.result? = some r) : P = .done r := by
  cases P with
  | done s => simpa [Program.result?] using h
  | get | getDel | set | replace => simp [Program.result?] at h

/-- How an operation ends: it works, it takes effect and reports an error, or it fails without effect. -/
inductive Outcome where
  | ok
  | lost
  | failed
  deriving DecidableEq

/-- What an operation does to the store: an entry is taken out, or one is written. -/
inductive Effect (κ υ : Type) where
  | took (k : κ) (v : υ)
  | wrote (k : κ) (v : υ)
  deriving DecidableEq

/-- What the store holds under each key. -/
abbrev Store (κ υ : Type) := κ → Option υ

section
variable [DecidableEq κ]

def Store.erase (m : Store κ υ) (k : κ) : Store κ υ := fun j => if j = k then none else m j

def Store.insert (m : Store κ υ) (k : κ) (v : υ) : Store κ υ := fun j => if j = k then some v else m j

/-- The effect of taking what is found. -/
def taken (k : κ) : Option υ → List (Effect κ υ)
  | some v => [.took k v]
  | none => []

variable [DecidableEq υ]

/-- The first operation of a program: what is left of the program, the store, the effects, and those of them that the
program is told of. -/
def Program.exec (o : Outcome) (m : Store κ υ) :
    Program κ υ ρ → Program κ υ ρ × Store κ υ × List (Effect κ υ) × List (Effect κ υ)
  | .done r => (.done r, m, [], [])
  | .get k next => (next (if o = .ok then some (m k) else none), m, [], [])
  | .getDel k next =>
    match o with
    | .ok => (next (some (m k)), m.erase k, taken k (m k), taken k (m k))
    | .lost => (next none, m.erase k, taken k (m k), [])
    | .failed => (next none, m, [], [])
  | .set k v next =>
    match o with
    | .ok => (next true, m.insert k v, [.wrote k v], [.wrote k v])
    | .lost => (next false, m.insert k v, [.wrote k v], [])
    | .failed => (next false, m, [], [])
  | .replace old expected new v next =>
    if o = .failed then (next none, m, [], [])
    else if m old = some expected then
      -- a successor that exists already is an error
      if (m new).isSome then (next none, m, [], [])
      else
        let effects : List (Effect κ υ) := [.took old expected, .wrote new v]
        if o = .ok then (next (some true), (m.erase old).insert new v, effects, effects)
        else (next none, (m.erase old).insert new v, effects, [])
    else (next (if o = .ok then some false else none), m, [], [])
end

/-! ### Conforming programs -/

/-- What is asked of a program: the keys it owns, what it may write given the effects it was told of, and what holds
of its result and these effects. -/
structure Contract (κ υ ρ : Type) where
  owns : κ → Prop
  may : List (Effect κ υ) → κ → υ → Prop
  post : List (Effect κ υ) → ρ → Prop

/-- The program meets the contract, having been told of `seen`; `fresh` says that it has not tried to write yet. -/
def Conforms (C : Contract κ υ ρ) : Program κ υ ρ → Bool → List (Effect κ υ) → Prop
  | .done r, _, seen => C.post seen r
  | .get _ next, fresh, seen => ∀ reply, Conforms C (next reply) fresh seen
  | .getDel k next, fresh, seen => ∀ reply, Conforms C (next reply) fresh (seen ++ taken k (reply.getD none))
  | .set k v next, fresh, seen =>
    fresh = true ∧ C.owns k ∧ C.may seen k v ∧
      Conforms C (next true) false (seen ++ [.wrote k v]) ∧ Conforms C (next false) false seen
  | .replace old expected new v next, fresh, seen =>
    fresh = true ∧ C.owns new ∧ C.may (seen ++ [.took old expected]) new v ∧
      Conforms C (next (some true)) false (seen ++ [.took old expected, .wrote new v]) ∧
      Conforms C (next (some false)) false seen ∧ Conforms C (next none) false seen

/-! ### Runs -/

/-- A program at work: what it was started for, what it was told, whether it has yet to try to write, and what is left
of it. -/
structure Process (α κ υ ρ : Type) where
  cause : α
  seen : List (Effect κ υ)
  fresh : Bool
  now : Program κ υ ρ

/-- The store, the programs in the order of their start, and the effects so far with their authors. -/
structure State (α κ υ ρ : Type) where
  store : Store κ υ
  processes : List (Process α κ υ ρ)
  effects : List (Nat × Effect κ υ)

/-- A program starts, the program of a number runs its first operation, or an entry vanishes. -/
inductive Event (α κ : Type) where
  | start (a : α)
  | advance (i : Nat) (o : Outcome)
  | vanish (k : κ)

/-- Whether the first operation of a program tries to write. -/
def Program.writes : Program κ υ ρ → Bool
  | .set .. => true
  | .replace .. => true
  | _ => false

variable [DecidableEq κ] [DecidableEq υ]

/-- The first operation of a process. -/
def Process.exec (o : Outcome) (m : Store κ υ) (p : Process α κ υ ρ) : Process α κ υ ρ :=
  { p with
    seen := p.seen ++ (p.now.exec o m).2.2.2
    fresh := p.fresh && !p.now.writes
    now := (p.now.exec o m).1 }

/-- One step; `program i a` is the `i`-th program when it is started for `a`. -/
def step (program : Nat → α → Program κ υ ρ) (s : State α κ υ ρ) : Event α κ → State α κ υ ρ
  | .start a => { s with processes := s.processes ++ [⟨a, [], true, program s.processes.length a⟩] }
  | .advance i o =>
    match s.processes[i]? with
    | none => s
    | some p =>
      { store := (p.now.exec o s.store).2.1
        processes := s.processes.set i (p.exec o s.store)
        effects := s.effects ++ (p.now.exec o s.store).2.2.1.map (fun e => (i, e)) }
  | .vanish k => { s with store := s.store.erase k }

/-- Nothing stored and nothing started. -/
def State.init : State α κ υ ρ := ⟨fun _ => none, [], []⟩

/-! ### What one operation does -/

section
variable {C : Contract κ υ ρ} {o : Outcome} {m : Store κ υ} {P : Program κ υ ρ}

theorem Program.told_subset {e : Effect κ υ} (he : e ∈ (P.exec o m).2.2.2) : e ∈ (P.exec o m).2.2.1 := by
  cases P with
  | done r => exact he
  | get k next => exact he
  | getDel k next =>
    cases o with
    | ok => exact he
    | lost => simp [Program.exec] at he
    | failed => exact he
  | set k v next =>
    cases o with
    | ok => exact he
    | lost => simp [Program.exec] at he
    | failed => exact he
  | replace old expected new v next =>
    revert he
    simp only [Program.exec]
    split_ifs <;> simp

theorem Program.found_of_took {k : κ} {v : υ} (h : Effect.took k v ∈ (P.exec o m).2.2.1) : m k = some v := by
  cases P with
  | done r => simp [Program.exec] at h
  | get j next => simp [Program.exec] at h
  | getDel j next =>
    have htaken : Effect.took k v ∈ taken j (m j) := by
      cases o with
      | ok => exact h
      | lost => exact h
      | failed => simp [Program.exec] at h
    cases hj : m j with
    | none => simp [hj, taken] at htaken
    | some w =>
      simp only [hj, taken, mem_singleton, Effect.took.injEq] at htaken
      rw [htaken.1, htaken.2, hj]
  | set j w next => cases o <;> simp [Program.exec] at h
  | replace old expected new w next =>
    revert h
    simp only [Program.exec]
    split_ifs with _ hold <;> simp
    all_goals
      intro hk hv
      rw [hk, hv, hold]

theorem Program.absent_of_unwritten {k : κ} (hk : m k = none) (hw : ∀ v, Effect.wrote k v ∉ (P.exec o m).2.2.1) :
    (P.exec o m).2.1 k = none := by
  have herase : ∀ j, m.erase j k = none := by
    intro j
    rw [Store.erase]
    split_ifs
    · rfl
    · exact hk
  cases P with
  | done r => exact hk
  | get j next => exact hk
  | getDel j next =>
    cases o with
    | ok | lost => exact herase j
    | failed => exact hk
  | set j w next =>
    have hne : o ≠ .failed → k ≠ j := by
      rintro ho rfl
      refine hw w ?_
      cases o with
      | ok | lost => exact mem_singleton.mpr rfl
      | failed => exact absurd rfl ho
    cases o with
    | ok | lost =>
      show m.insert j w k = none
      rw [Store.insert, if_neg (hne (by decide)), hk]
    | failed => exact hk
  | replace old expected new w next =>
    revert hw
    simp only [Program.exec]
    split_ifs <;> intro hw
    · exact hk
    · exact hk
    all_goals try exact hk
    all_goals
      show (m.erase old).insert new w k = none
      have hne : k ≠ new := by
        rintro rfl
        exact hw w (by simp)
      rw [Store.insert, if_neg hne, herase]

/-- A conforming program writes once, what the contract allows on the ground of what it was told and takes with it. -/
theorem Conforms.of_wrote {fresh : Bool} {seen : List (Effect κ υ)} (h : Conforms C P fresh seen) {k : κ} {v : υ}
    (hw : Effect.wrote k v ∈ (P.exec o m).2.2.1) :
    fresh = true ∧ P.writes = true ∧ C.owns k ∧ (∀ j w, Effect.wrote j w ∈ (P.exec o m).2.2.1 → j = k ∧ w = v) ∧
      ∃ ground, C.may ground k v ∧ ∀ e ∈ ground, e ∈ seen ∨ e ∈ (P.exec o m).2.2.1 := by
  cases P with
  | done r => simp [Program.exec] at hw
  | get j next => simp [Program.exec] at hw
  | getDel j next => cases hj : m j <;> cases o <;> simp [Program.exec, taken, hj] at hw
  | set j w next =>
    obtain ⟨hfresh, howns, hmay, _⟩ := h
    have heffects : (Program.exec o m (.set j w next)).2.2.1 = [.wrote j w] := by
      cases o with
      | ok => rfl
      | lost => rfl
      | failed => simp [Program.exec] at hw
    rw [heffects] at hw ⊢
    simp only [mem_singleton, Effect.wrote.injEq] at hw
    obtain ⟨rfl, rfl⟩ := hw
    refine ⟨hfresh, rfl, howns, ?_, seen, hmay, fun e he => .inl he⟩
    intro j' w' hj'
    simpa using hj'
  | replace old expected new w next =>
    obtain ⟨hfresh, howns, hmay, _⟩ := h
    have heffects : (Program.exec o m (.replace old expected new w next)).2.2.1
        = [.took old expected, .wrote new w] := by
      revert hw
      simp only [Program.exec]
      split_ifs <;> simp
    rw [heffects] at hw ⊢
    simp only [mem_cons, reduceCtorEq, Effect.wrote.injEq, not_mem_nil, or_false, false_or] at hw
    obtain ⟨rfl, rfl⟩ := hw
    refine ⟨hfresh, rfl, howns, ?_, _, hmay, ?_⟩
    · intro j' w' hj'
      simpa using hj'
    · intro e he
      rcases mem_append.mp he with hseen | hnew
      · exact .inl hseen
      · exact .inr (by simp at hnew ⊢; exact .inl hnew)

theorem Conforms.exec {fresh : Bool} {seen : List (Effect κ υ)} (h : Conforms C P fresh seen) :
    Conforms C (P.exec o m).1 (fresh && !P.writes) (seen ++ (P.exec o m).2.2.2) := by
  cases P with
  | done r => simpa [Program.exec, Program.writes, Conforms] using h
  | get k next => simpa [Program.exec, Program.writes] using h _
  | getDel k next =>
    cases o with
    | ok => simpa [Program.exec, Program.writes] using h (some (m k))
    | lost => simpa [Program.exec, Program.writes, taken] using h none
    | failed => simpa [Program.exec, Program.writes, taken] using h none
  | set k v next =>
    obtain ⟨_, _, _, htrue, hfalse⟩ := h
    cases o with
    | ok => simpa [Program.exec, Program.writes] using htrue
    | lost => simpa [Program.exec, Program.writes] using hfalse
    | failed => simpa [Program.exec, Program.writes] using hfalse
  | replace old expected new v next =>
  obtain ⟨_, _, _, htrue, hfalse, hnone⟩ := h
  simp only [Program.exec, Program.writes, Bool.not_true, Bool.and_false]
  split_ifs
  · simpa using hnone
  · simpa using hnone
  · simpa using htrue
  · simpa using hnone
  · simpa using hfalse
  · simpa using hnone
end

/-! ### The ledger of effects -/

/-- The store and the effects fit: what is stored was written, what was taken had been written and is not stored any
more, and no key was written or taken by two. -/
structure Ledger (m : Store κ υ) (es : List (Nat × Effect κ υ)) : Prop where
  stored : ∀ k v, m k = some v → ∃ i, (i, Effect.wrote k v) ∈ es
  gone : ∀ i k v, (i, Effect.took k v) ∈ es → m k = none
  took_wrote : ∀ i k v, (i, Effect.took k v) ∈ es → ∃ j, (j, Effect.wrote k v) ∈ es
  took_unique : ∀ i j k v w, (i, Effect.took k v) ∈ es → (j, Effect.took k w) ∈ es → i = j ∧ v = w
  wrote_unique : ∀ i j k v w, (i, Effect.wrote k v) ∈ es → (j, Effect.wrote k w) ∈ es → i = j ∧ v = w

section
variable {m : Store κ υ} {es : List (Nat × Effect κ υ)}

omit [DecidableEq κ] [DecidableEq υ] in
theorem ledger_init : Ledger (fun _ => none : Store κ υ) [] := by constructor <;> simp

omit [DecidableEq υ] in
theorem Ledger.vanish (h : Ledger m es) (k : κ) : Ledger (m.erase k) es := by
  refine ⟨?_, ?_, h.took_wrote, h.took_unique, h.wrote_unique⟩
  · intro j v hj
    by_cases hjk : j = k
    · simp [Store.erase, hjk] at hj
    · exact h.stored j v (by simpa [Store.erase, hjk] using hj)
  · intro i j v hj
    by_cases hjk : j = k
    · simp [Store.erase, hjk]
    · simpa [Store.erase, hjk] using h.gone i j v hj

omit [DecidableEq υ] in
theorem Ledger.take (h : Ledger m es) {k : κ} {v : υ} (hk : m k = some v) (i : Nat) :
    Ledger (m.erase k) (es ++ [(i, .took k v)]) := by
  have hnever : ∀ j w, (j, Effect.took k w) ∉ es := by
    intro j w hj
    rw [h.gone j k w hj] at hk
    cases hk
  refine ⟨?_, ?_, ?_, ?_, ?_⟩
  · intro j w hj
    obtain ⟨l, hl⟩ := (h.vanish k).stored j w hj
    exact ⟨l, mem_append_left _ hl⟩
  · intro j l w hl
    rcases mem_append.mp hl with hold | hnew
    · exact (h.vanish k).gone j l w hold
    · simp only [mem_singleton, Prod.mk.injEq, Effect.took.injEq] at hnew
      simp [Store.erase, hnew.2.1]
  · intro j l w hl
    rcases mem_append.mp hl with hold | hnew
    · obtain ⟨n, hn⟩ := h.took_wrote j l w hold
      exact ⟨n, mem_append_left _ hn⟩
    · simp only [mem_singleton, Prod.mk.injEq, Effect.took.injEq] at hnew
      obtain ⟨_, rfl, rfl⟩ := hnew
      obtain ⟨n, hn⟩ := h.stored l w hk
      exact ⟨n, mem_append_left _ hn⟩
  · intro j l n w x hj hl
    simp only [mem_append, mem_singleton, Prod.mk.injEq, Effect.took.injEq] at hj hl
    rcases hj with hj | ⟨rfl, rfl, rfl⟩
    · rcases hl with hl | ⟨rfl, rfl, rfl⟩
      · exact h.took_unique j l n w x hj hl
      · exact absurd hj (hnever j w)
    · rcases hl with hl | ⟨rfl, _, rfl⟩
      · exact absurd hl (hnever l x)
      · exact ⟨rfl, rfl⟩
  · intro j l n w x hj hl
    simp only [mem_append, mem_singleton, Prod.mk.injEq, reduceCtorEq, and_false, or_false] at hj hl
    exact h.wrote_unique j l n w x hj hl

omit [DecidableEq υ] in
theorem Ledger.write (h : Ledger m es) {k : κ} (hk : ∀ j w, (j, Effect.wrote k w) ∉ es) (i : Nat) (v : υ) :
    Ledger (m.insert k v) (es ++ [(i, .wrote k v)]) := by
  refine ⟨?_, ?_, ?_, ?_, ?_⟩
  · intro j w hj
    by_cases hjk : j = k
    · simp only [Store.insert, hjk, if_true, Option.some.injEq] at hj
      exact ⟨i, by simp [hjk, hj]⟩
    · obtain ⟨l, hl⟩ := h.stored j w (by simpa [Store.insert, hjk] using hj)
      exact ⟨l, mem_append_left _ hl⟩
  · intro j l w hl
    simp only [mem_append, mem_singleton, Prod.mk.injEq, reduceCtorEq, and_false, or_false] at hl
    have hlk : l ≠ k := by
      intro hlk
      obtain ⟨n, hn⟩ := h.took_wrote j l w hl
      exact hk n w (hlk ▸ hn)
    simpa [Store.insert, hlk] using h.gone j l w hl
  · intro j l w hl
    simp only [mem_append, mem_singleton, Prod.mk.injEq, reduceCtorEq, and_false, or_false] at hl
    obtain ⟨n, hn⟩ := h.took_wrote j l w hl
    exact ⟨n, mem_append_left _ hn⟩
  · intro j l n w x hj hl
    simp only [mem_append, mem_singleton, Prod.mk.injEq, reduceCtorEq, and_false, or_false] at hj hl
    exact h.took_unique j l n w x hj hl
  · intro j l n w x hj hl
    simp only [mem_append, mem_singleton, Prod.mk.injEq, Effect.wrote.injEq] at hj hl
    rcases hj with hj | ⟨rfl, rfl, rfl⟩
    · rcases hl with hl | ⟨rfl, rfl, rfl⟩
      · exact h.wrote_unique j l n w x hj hl
      · exact absurd hj (hk j w)
    · rcases hl with hl | ⟨rfl, _, rfl⟩
      · exact absurd hl (hk l x)
      · exact ⟨rfl, rfl⟩

theorem Ledger.exec (h : Ledger m es) (i : Nat) (o : Outcome) {P : Program κ υ ρ}
    (hw : ∀ k v, Effect.wrote k v ∈ (P.exec o m).2.2.1 → ∀ j w, (j, Effect.wrote k w) ∉ es) :
    Ledger (P.exec o m).2.1 (es ++ (P.exec o m).2.2.1.map (fun e => (i, e))) := by
  cases P with
  | done r => simpa [Program.exec] using h
  | get k next => simpa [Program.exec] using h
  | getDel k next =>
    have htake : Ledger (m.erase k) (es ++ (taken k (m k)).map (fun e => (i, e))) := by
      cases hk : m k with
      | none => simpa [taken] using h.vanish k
      | some v => simpa [taken] using h.take hk i
    cases o with
    | ok => exact htake
    | lost => exact htake
    | failed => simpa [Program.exec] using h
  | set k v next =>
    cases o with
    | ok => exact h.write (hw k v (by simp [Program.exec])) i v
    | lost => exact h.write (hw k v (by simp [Program.exec])) i v
    | failed => simpa [Program.exec] using h
  | replace old expected new v next =>
  have hboth : m old = some expected → (∀ j w, (j, Effect.wrote new w) ∉ es) →
      Ledger ((m.erase old).insert new v) (es ++ [(i, .took old expected)] ++ [(i, .wrote new v)]) := by
    intro hold hnew
    refine (h.take hold i).write ?_ i v
    intro j w hj
    simp only [mem_append, mem_singleton, Prod.mk.injEq, reduceCtorEq, and_false, or_false] at hj
    exact hnew j w hj
  revert hw
  simp only [Program.exec]
  split_ifs with hfail hold hnew hok
  · intro _
    simpa using h
  · intro _
    simpa using h
  · intro hw
    simpa using hboth hold (hw new v (by simp))
  · intro hw
    simpa using hboth hold (hw new v (by simp))
  · intro _
    simpa using h
  · intro _
    simpa using h
end

/-! ### The invariant of a run -/

/-- The `i`-th program was started for `a`. -/
def Started (s : State α κ υ ρ) (i : Nat) (a : α) : Prop := ∃ p, s.processes[i]? = some p ∧ p.cause = a

/-- A write rests on what its writer was told and took, and that on the writes of what was taken. -/
inductive Grounded (contract : Nat → α → Contract κ υ ρ) (s : State α κ υ ρ) : Nat → κ → υ → Prop where
  | intro (i : Nat) (k : κ) (v : υ) (a : α) (ground : List (Effect κ υ)) (origin : κ → υ → Nat)
      (wrote : (i, Effect.wrote k v) ∈ s.effects) (started : Started s i a)
      (grounds : ∀ e ∈ ground, (i, e) ∈ s.effects) (may : (contract i a).may ground k v)
      (rests : ∀ j w, Effect.took j w ∈ ground → Grounded contract s (origin j w) j w) : Grounded contract s i k v

/-- What holds throughout a run of conforming programs. -/
structure Invariant (contract : Nat → α → Contract κ υ ρ) (s : State α κ υ ρ) : Prop where
  ledger : Ledger s.store s.effects
  conforms : ∀ i p, s.processes[i]? = some p → Conforms (contract i p.cause) p.now p.fresh p.seen
  told : ∀ i p, s.processes[i]? = some p → ∀ e ∈ p.seen, (i, e) ∈ s.effects
  fresh : ∀ i p, s.processes[i]? = some p → p.fresh = true → ∀ k v, (i, Effect.wrote k v) ∉ s.effects
  owned : ∀ i k v, (i, Effect.wrote k v) ∈ s.effects → ∃ a, Started s i a ∧ (contract i a).owns k
  wrote_once : ∀ i j k v w, (i, Effect.wrote j v) ∈ s.effects → (i, Effect.wrote k w) ∈ s.effects → j = k
  grounded : ∀ i k v, (i, Effect.wrote k v) ∈ s.effects → Grounded contract s i k v

section
variable {contract : Nat → α → Contract κ υ ρ} {program : Nat → α → Program κ υ ρ} {s t : State α κ υ ρ}

omit [DecidableEq κ] [DecidableEq υ] in
theorem Grounded.mono (hstart : ∀ i a, Started s i a → Started t i a) (heffects : ∀ e ∈ s.effects, e ∈ t.effects)
    {i : Nat} {k : κ} {v : υ} (h : Grounded contract s i k v) : Grounded contract t i k v := by
  induction h with
  | intro i k v a ground origin wrote started grounds may _ ih =>
    exact .intro i k v a ground origin (heffects _ wrote) (hstart _ _ started)
      (fun e he => heffects _ (grounds e he)) may ih

omit [DecidableEq κ] [DecidableEq υ] in
theorem invariant_init : Invariant contract (State.init : State α κ υ ρ) := by
  constructor
  · exact ledger_init
  all_goals simp [State.init]

theorem Invariant.start (h : Invariant contract s)
    (hconf : ∀ i a, Conforms (contract i a) (program i a) true []) (a : α) :
    Invariant contract (step program s (.start a)) := by
  have hcases : ∀ i p, (step program s (.start a)).processes[i]? = some p → s.processes[i]? = some p ∨
        i = s.processes.length ∧ p = ⟨a, [], true, program s.processes.length a⟩ := by
    intro i p hp
    simp only [step] at hp
    rcases Nat.lt_trichotomy i s.processes.length with hlt | heq | hgt
    · rw [List.getElem?_append_left hlt] at hp
      exact .inl hp
    · subst heq
      simp only [List.getElem?_concat_length, Option.some.injEq] at hp
      exact .inr ⟨rfl, hp.symm⟩
    · rw [List.getElem?_eq_none (by simp; omega)] at hp
      cases hp
  have hstart : ∀ i b, Started s i b → Started (step program s (.start a)) i b := by
    intro i b hb
    obtain ⟨p, hp, hcause⟩ := hb
    refine ⟨p, ?_, hcause⟩
    have hlt : i < s.processes.length := by
      by_contra hge
      rw [List.getElem?_eq_none (by omega)] at hp
      cases hp
    simp only [step]
    rw [List.getElem?_append_left hlt, hp]
  refine ⟨h.ledger, ?_, ?_, ?_, ?_, h.wrote_once, ?_⟩
  · intro i p hp
    rcases hcases i p hp with hold | ⟨rfl, rfl⟩
    · exact h.conforms i p hold
    · exact hconf s.processes.length a
  · intro i p hp
    rcases hcases i p hp with hold | ⟨rfl, rfl⟩
    · exact h.told i p hold
    · simp
  · intro i p hp
    rcases hcases i p hp with hold | ⟨rfl, rfl⟩
    · exact h.fresh i p hold
    · intro _ k v hw
      -- no effect has an author that was not started
      obtain ⟨b, ⟨p, hp, _⟩, _⟩ := h.owned _ k v hw
      simp at hp
  · intro i k v hw
    obtain ⟨b, hb, howns⟩ := h.owned i k v hw
    exact ⟨b, hstart i b hb, howns⟩
  · intro i k v hw
    exact (h.grounded i k v hw).mono hstart (fun e he => he)

/-- The state after the first operation of process `p`, the one of number `i`. -/
def State.advanced (s : State α κ υ ρ) (i : Nat) (p : Process α κ υ ρ) (o : Outcome) : State α κ υ ρ :=
  { store := (p.now.exec o s.store).2.1
    processes := s.processes.set i (p.exec o s.store)
    effects := s.effects ++ (p.now.exec o s.store).2.2.1.map (fun e => (i, e)) }

section
variable {i j : Nat} {p : Process α κ υ ρ} {o : Outcome}

theorem mem_effects_advanced {e : Effect κ υ} : (j, e) ∈ (s.advanced i p o).effects ↔
    (j, e) ∈ s.effects ∨ j = i ∧ e ∈ (p.now.exec o s.store).2.2.1 := by
  simp only [State.advanced, mem_append, mem_map, Prod.mk.injEq]
  constructor
  · rintro (hold | ⟨_, he, rfl, rfl⟩)
    · exact .inl hold
    · exact .inr ⟨rfl, he⟩
  · rintro (hold | ⟨rfl, he⟩)
    · exact .inl hold
    · exact .inr ⟨e, he, rfl, rfl⟩

section
variable (hi : s.processes[i]? = some p)
include hi

theorem processes_advanced (j : Nat) :
    (s.advanced i p o).processes[j]? = if j = i then some (p.exec o s.store) else s.processes[j]? := by
  have hlt : i < s.processes.length := (List.getElem?_eq_some_iff.mp hi).1
  by_cases hj : j = i
  · rw [if_pos hj, hj]
    exact List.getElem?_set_self hlt
  · rw [if_neg hj]
    exact List.getElem?_set_ne (Ne.symm hj)

theorem processes_advanced_cases {q : Process α κ υ ρ} (hq : (s.advanced i p o).processes[j]? = some q) :
    j = i ∧ q = p.exec o s.store ∨ j ≠ i ∧ s.processes[j]? = some q := by
  rw [processes_advanced hi] at hq
  by_cases hj : j = i
  · rw [if_pos hj] at hq
    exact .inl ⟨hj, (Option.some.inj hq).symm⟩
  · rw [if_neg hj] at hq
    exact .inr ⟨hj, hq⟩

theorem started_self_advanced : Started (s.advanced i p o) i p.cause :=
  ⟨p.exec o s.store, by rw [processes_advanced hi, if_pos rfl], rfl⟩

theorem Started.advanced {a : α} (h : Started s j a) : Started (s.advanced i p o) j a := by
  obtain ⟨q, hq, rfl⟩ := h
  by_cases hj : j = i
  · subst hj
    rw [hi] at hq
    rw [← Option.some.inj hq]
    exact started_self_advanced hi
  · exact ⟨q, by rw [processes_advanced hi, if_neg hj, hq], rfl⟩
end

section
variable (h : Invariant contract s)
include h

theorem Invariant.unwritten
    (hown : ∀ i j a b k, (contract i a).owns k → (contract j b).owns k → i = j) (hi : s.processes[i]? = some p) {k : κ}
    {v : υ} (hw : Effect.wrote k v ∈ (p.now.exec o s.store).2.2.1) : ∀ j w, (j, Effect.wrote k w) ∉ s.effects := by
  intro j w hj
  obtain ⟨hfresh, _, howns, _⟩ := (h.conforms i p hi).of_wrote hw
  obtain ⟨b, _, hb⟩ := h.owned j k w hj
  have hij := hown i j p.cause b k howns hb
  subst hij
  exact h.fresh i p hi hfresh k w hj

theorem Invariant.grounds_now (hi : s.processes[i]? = some p) {k : κ} {v : υ}
    (hw : Effect.wrote k v ∈ (p.now.exec o s.store).2.2.1) : Grounded contract (s.advanced i p o) i k v := by
  obtain ⟨_, _, _, _, ground, hmay, hground⟩ := (h.conforms i p hi).of_wrote hw
  have hgrounds : ∀ e ∈ ground, (i, e) ∈ (s.advanced i p o).effects := by
    intro e he
    rcases hground e he with hseen | hnow
    · exact mem_effects_advanced.mpr (.inl (h.told i p hi e hseen))
    · exact mem_effects_advanced.mpr (.inr ⟨rfl, hnow⟩)
  have htook : ∀ k v, Effect.took k v ∈ ground → ∃ l, Grounded contract (s.advanced i p o) l k v := by
    intro k v he
    have hwrote : ∃ l, (l, Effect.wrote k v) ∈ s.effects := by
      rcases hground _ he with hseen | hnow
      · exact h.ledger.took_wrote i k v (h.told i p hi _ hseen)
      · exact h.ledger.stored k v (Program.found_of_took hnow)
    obtain ⟨l, hl⟩ := hwrote
    exact ⟨l, (h.grounded l k v hl).mono (fun _ _ ha => ha.advanced hi)
      (fun e he => mem_effects_advanced.mpr (.inl he))⟩
  classical
  refine .intro i k v p.cause ground
    (fun k v => if hk : ∃ l, Grounded contract (s.advanced i p o) l k v then hk.choose else 0)
    (mem_effects_advanced.mpr (.inr ⟨rfl, hw⟩)) (started_self_advanced hi) hgrounds hmay ?_
  intro k v he
  simp only [htook k v he, dif_pos]
  exact (htook k v he).choose_spec

theorem Invariant.advanced
    (hown : ∀ i j a b k, (contract i a).owns k → (contract j b).owns k → i = j) (hi : s.processes[i]? = some p) :
    Invariant contract (s.advanced i p o) := by
  have hp := h.conforms i p hi
  have hledger : Ledger (s.advanced i p o).store (s.advanced i p o).effects :=
    h.ledger.exec i o (fun k v hw => h.unwritten hown hi hw)
  refine ⟨hledger, ?_, ?_, ?_, ?_, ?_, ?_⟩
  · intro j q hq
    rcases processes_advanced_cases hi hq with ⟨rfl, rfl⟩ | ⟨_, hold⟩
    · exact hp.exec
    · exact h.conforms j q hold
  · intro j q hq e he
    rw [mem_effects_advanced]
    rcases processes_advanced_cases hi hq with ⟨rfl, rfl⟩ | ⟨_, hold⟩
    · rcases mem_append.mp he with hseen | htold
      · exact .inl (h.told j p hi e hseen)
      · exact .inr ⟨rfl, Program.told_subset htold⟩
    · exact .inl (h.told j q hold e he)
  · intro j q hq hfresh k v hw
    rcases processes_advanced_cases hi hq with ⟨rfl, rfl⟩ | ⟨hj, hold⟩
    · simp only [Process.exec, Bool.and_eq_true, Bool.not_eq_true'] at hfresh
      rcases mem_effects_advanced.mp hw with hpre | ⟨_, hnow⟩
      · exact h.fresh j p hi hfresh.1 k v hpre
      · rw [(hp.of_wrote hnow).2.1] at hfresh
        exact absurd hfresh.2 (by decide)
    · rcases mem_effects_advanced.mp hw with hpre | ⟨hji, _⟩
      · exact h.fresh j q hold hfresh k v hpre
      · exact hj hji
  · intro j k v hw
    rcases mem_effects_advanced.mp hw with hpre | ⟨rfl, hnow⟩
    · obtain ⟨a, ha, howns⟩ := h.owned j k v hpre
      exact ⟨a, ha.advanced hi, howns⟩
    · exact ⟨p.cause, started_self_advanced hi, (hp.of_wrote hnow).2.2.1⟩
  · intro j k l v w hk hl
    rcases mem_effects_advanced.mp hk with hkold | ⟨rfl, hknow⟩
    · rcases mem_effects_advanced.mp hl with hlold | ⟨rfl, hlnow⟩
      · exact h.wrote_once j k l v w hkold hlold
      · exact absurd hkold (h.fresh j p hi (hp.of_wrote hlnow).1 k v)
    · rcases mem_effects_advanced.mp hl with hlold | ⟨_, hlnow⟩
      · exact absurd hlold (h.fresh j p hi (hp.of_wrote hknow).1 l w)
      · exact ((hp.of_wrote hlnow).2.2.2.1 k v hknow).1
  · intro j k v hw
    rcases mem_effects_advanced.mp hw with hpre | ⟨rfl, hnow⟩
    · exact (h.grounded j k v hpre).mono (fun _ _ ha => ha.advanced hi)
        (fun e he => mem_effects_advanced.mpr (.inl he))
    · exact h.grounds_now hi hnow
end

end

theorem Invariant.advance (h : Invariant contract s)
    (hown : ∀ i j a b k, (contract i a).owns k → (contract j b).owns k → i = j) (i : Nat) (o : Outcome) :
    Invariant contract (step program s (.advance i o)) := by
  simp only [step]
  cases hi : s.processes[i]? with
  | none => exact h
  | some p => exact h.advanced hown hi

/-- **The invariant rule.**  It holds at the end of every run of conforming programs that own no key in common. -/
theorem invariant_run (hown : ∀ i j a b k, (contract i a).owns k → (contract j b).owns k → i = j)
    (hconf : ∀ i a, Conforms (contract i a) (program i a) true []) (events : List (Event α κ)) :
    Invariant contract (run (step program) State.init events) := by
  refine run_invariant _ (motive := Invariant contract) ?_ events _ invariant_init
  intro s e h
  cases e with
  | start a => exact h.start hconf a
  | advance i o => exact h.advance hown i o
  | vanish k =>
  refine ⟨h.ledger.vanish k, h.conforms, h.told, h.fresh, h.owned, h.wrote_once, ?_⟩
  intro i j v hw
  have hgrounded : Grounded contract s i j v := h.grounded i j v hw
  refine Grounded.mono ?_ ?_ hgrounded
  · exact fun _ _ ha => ha
  · exact fun _ he => he

omit [DecidableEq κ] [DecidableEq υ] in
theorem Invariant.result (h : Invariant contract s) {i : Nat} {p : Process α κ υ ρ} (hp : s.processes[i]? = some p)
    {r : ρ} (hr : p.now.result? = some r) : (contract i p.cause).post p.seen r := by
  have hconf := h.conforms i p hp
  rw [Program.eq_done_of_result? hr] at hconf
  exact hconf
end

/-! ### Lineages -/

/-- Where every node has one parent, two ends of a chain that have none are the same. -/
theorem root_unique {N : Type} {parent : N → N → Prop} (hparent : ∀ a b c, parent a c → parent b c → a = b)
    {r r' x : N} (hr : ∀ a, ¬parent a r) (hr' : ∀ a, ¬parent a r') (h : Relation.ReflTransGen parent r x)
    (h' : Relation.ReflTransGen parent r' x) : r = r' := by
  induction h with
  | refl =>
    cases h' with
    | refl => rfl
    | tail _ hlast => exact absurd hlast (hr _)
  | tail _ hlast ih =>
    cases h' with
    | refl => exact absurd hlast (hr' _)
    | tail hrest hlast' =>
      rw [hparent _ _ _ hlast hlast'] at ih
      exact ih hrest

end Paprika.Lib.SharedStore
