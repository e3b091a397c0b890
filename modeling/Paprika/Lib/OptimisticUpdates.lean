import Mathlib.Data.List.Nodup
import Paprika.Lib.Run
import Paprika.Lib.Versioned

/-!
# Operations that read an object, compute and write it back at the version that they read

Any number of operations work on one versioned object.  Each reads it, makes an attempt from what it read and from what
its environment shows it then, and writes the outcome back if the object still has the version that it read; otherwise
it starts over, a number of times.  Reads and writes may fail, and a write may take effect without the operation being
told.  The steps of all operations are interleaved in any order.

* `Attempt` — what an operation makes of the object that it read; `State`, `Event` and `step` — the system;
* `Serial` — operations that are run one after another on the object itself, with the answers that they give;
* **`inv_run`** — in every run the log of the points where operations took effect is serial from the first object to the
  current one, has one point for every operation that returned an answer or whose reply was lost, with its answer, and no
  point for any other;
* **`precedes`** — an operation that was done before another one started comes first in the log;
* `Serial.simulate` — the same serial run seen through an abstraction of the object.
-/

namespace Paprika.Lib.OptimisticUpdates

open Lib.Run Lib.Versioned List

variable {α β χ ρ : Type*}

/-- What an attempt makes of the object: it refuses it, answers without a write, or writes and answers then. -/
inductive Attempt (α ρ : Type*) where
  | refused
  | answered (r : ρ)
  | write (a : α) (r : ρ)

/-- The attempt on the object itself: the object afterwards, and the answer. -/
def Attempt.serve (a : α) : Attempt α ρ → Option (α × ρ)
  | .refused => none
  | .answered r => some (a, r)
  | .write b r => some (b, r)

@[simp] theorem Attempt.serve_answered (a : α) (r : ρ) : (Attempt.answered r).serve a = some (a, r) := rfl

/-- The point where an operation took effect: its number, what it was shown there, and its answer. -/
structure Point (β χ ρ : Type*) where
  process : Nat
  op : β
  env : χ
  result : ρ
  deriving DecidableEq

/-! ### Operations one after another -/

section
variable {serve : β → χ → α → Option (α × ρ)} {a b : α}

/-- The operations of a log, one after another, with the answers of the log. -/
def Serial (serve : β → χ → α → Option (α × ρ)) : α → List (Point β χ ρ) → α → Prop
  | a, [], b => a = b
  | a, x :: xs, b => ∃ c, serve x.op x.env a = some (c, x.result) ∧ Serial serve c xs b

@[simp] theorem serial_nil : Serial serve a [] b ↔ a = b := Iff.rfl

variable {xs : List (Point β χ ρ)}

@[simp] theorem serial_cons {x : Point β χ ρ} :
    Serial serve a (x :: xs) b ↔ ∃ c, serve x.op x.env a = some (c, x.result) ∧ Serial serve c xs b := Iff.rfl

theorem serial_append {ys : List (Point β χ ρ)} :
    Serial serve a (xs ++ ys) b ↔ ∃ c, Serial serve a xs c ∧ Serial serve c ys b := by
  induction xs generalizing a with
  | nil => simp
  | cons x xs ih =>
    simp only [cons_append, serial_cons, ih]
    constructor
    · rintro ⟨c, hx, d, hxs, hys⟩
      exact ⟨d, ⟨c, hx, hxs⟩, hys⟩
    · rintro ⟨d, ⟨c, hx, hxs⟩, hys⟩
      exact ⟨c, hx, d, hxs, hys⟩

theorem Serial.snoc {x : Point β χ ρ} {c : α} (h : Serial serve a xs b)
    (hx : serve x.op x.env b = some (c, x.result)) : Serial serve a (xs ++ [x]) c :=
  serial_append.mpr ⟨b, h, c, hx, rfl⟩

theorem Serial.eq {c : α} : ∀ {a : α}, Serial serve a xs b → Serial serve a xs c → b = c := by
  induction xs with
  | nil =>
    intro a hb hc
    exact hb.symm.trans hc
  | cons x xs ih =>
    rintro a ⟨d, hd, hb⟩ ⟨e, he, hc⟩
    obtain rfl : d = e := by simpa [hd] using he
    exact ih hb hc

theorem Serial.keeps {motive : α → Prop}
    (hstep : ∀ x ∈ xs, ∀ a c, motive a → serve x.op x.env a = some (c, x.result) → motive c) :
    ∀ {a : α}, motive a → Serial serve a xs b → motive b := by
  induction xs with
  | nil =>
    intro a ha h
    exact h ▸ ha
  | cons x xs ih =>
    rintro a ha ⟨c, hc, h⟩
    exact ih (fun y hy => hstep y (mem_cons_of_mem x hy)) (hstep x mem_cons_self a c ha hc) h

/-- A serial run seen through an abstraction that every operation respects where the invariant holds. -/
theorem Serial.simulate {γ : Type*} {serve' : β → χ → γ → Option (γ × ρ)} {view : α → γ} {motive : α → Prop}
    (hstep : ∀ op env a c r, motive a → serve op env a = some (c, r) →
      motive c ∧ serve' op env (view a) = some (view c, r)) :
    ∀ {a : α}, motive a → Serial serve a xs b → Serial serve' (view a) xs (view b) := by
  induction xs with
  | nil =>
    intro a _ h
    exact congrArg view h
  | cons x xs ih =>
    rintro a ha ⟨c, hc, h⟩
    obtain ⟨hkeep, hview⟩ := hstep x.op x.env a c x.result ha hc
    exact ⟨view c, hview, ih hkeep h⟩
end

/-! ### The system -/

/-- Where an operation stands.  It has returned an answer, or an error: without any effect, or after its write took
effect. -/
inductive Phase (χ α ρ : Type*) where
  | reading
  | writing (copy : Copy α) (env : χ) (a : α) (r : ρ)
  | returned (r : ρ)
  | failed
  | lost

/-- An operation at work, and how many attempts it has left. -/
structure Process (β χ α ρ : Type*) where
  op : β
  attempts : Nat
  phase : Phase χ α ρ

/-- What an operation has returned, if it returned an answer. -/
def Process.result? (p : Process β χ α ρ) : Option ρ :=
  match p.phase with
  | .returned r => some r
  | _ => none

/-- Whether an operation took effect and was not told. -/
def Process.isLost (p : Process β χ α ρ) : Bool :=
  match p.phase with
  | .lost => true
  | _ => false

theorem Process.result?_of_returned {p : Process β χ α ρ} {r : ρ} (h : p.phase = .returned r) : p.result? = some r := by
  rw [Process.result?, h]

structure State (α β χ ρ : Type*) where
  object : Versioned α
  processes : List (Process β χ α ρ)
  log : List (Point β χ ρ)

/-- How a write ends: it is answered, it is carried out and the answer is lost, or it fails without effect. -/
inductive Outcome where
  | ok
  | lost
  | failed
  deriving DecidableEq

/-- An operation is called, or reads the object and makes its attempt, or writes. -/
inductive Event (β χ : Type*) where
  | start (op : β)
  | read (i : Nat) (ok : Bool) (env : χ)
  | update (i : Nat) (o : Outcome)

namespace State

variable (s : State α β χ ρ)

def setPhase (i : Nat) (phase : Phase χ α ρ) : State α β χ ρ :=
  { s with processes := s.processes.modify i fun p => { p with phase := phase } }

/-- The operation took effect. -/
def addPoint (x : Point β χ ρ) : State α β χ ρ := { s with log := s.log ++ [x] }

def write (a : α) : State α β χ ρ := { s with object := s.object.write a }

/-- A conflict: the operation starts over while it has attempts left. -/
def retry (i : Nat) : State α β χ ρ :=
  { s with processes := s.processes.modify i fun p =>
      if 1 < p.attempts then { p with attempts := p.attempts - 1, phase := .reading } else { p with phase := .failed } }

/-- What the object is, as a reader gets it. -/
def copy : Copy α := { version := s.object.version, value := s.object.current }

/-- The write of operation `i` arrives. -/
def updated (i : Nat) (op : β) (env : χ) (copy : Copy α) (a : α) (r : ρ) (o : Outcome) : State α β χ ρ :=
  match o with
  | .failed => s.setPhase i .failed
  | .lost =>
    if copy.version = s.object.version then ((s.write a).setPhase i .lost).addPoint ⟨i, op, env, r⟩
    else s.setPhase i .failed
  | .ok =>
    if copy.version = s.object.version then ((s.write a).setPhase i (.returned r)).addPoint ⟨i, op, env, r⟩
    else s.retry i

end State

/-- The operations on an object: which calls are admitted, what an attempt does, and how many attempts a call has. -/
structure Protocol (α β χ ρ : Type*) where
  admits : β → Bool
  attempt : β → χ → α → Attempt α ρ
  steps : Nat

namespace Protocol

variable (P : Protocol α β χ ρ)

/-- An operation on the object itself. -/
def serve (op : β) (env : χ) (a : α) : Option (α × ρ) := (P.attempt op env a).serve a

def start (s : State α β χ ρ) (op : β) : State α β χ ρ :=
  { s with processes := s.processes ++ [⟨op, P.steps, if P.admits op then .reading else .failed⟩] }

/-- Operation `i` has read the object. -/
def attempted (s : State α β χ ρ) (i : Nat) (op : β) (env : χ) : State α β χ ρ :=
  match P.attempt op env s.object.current with
  | .refused => s.setPhase i .failed
  | .answered r => (s.setPhase i (.returned r)).addPoint ⟨i, op, env, r⟩
  | .write a r => s.setPhase i (.writing s.copy env a r)

/-- One step; an event that cannot happen changes nothing. -/
def step (s : State α β χ ρ) : Event β χ → State α β χ ρ
  | .start op => P.start s op
  | .read i ok env =>
    match s.processes[i]? with
    | some ⟨op, _, .reading⟩ => if ok then P.attempted s i op env else s.setPhase i .failed
    | _ => s
  | .update i o =>
    match s.processes[i]? with
    | some ⟨op, _, .writing copy env a r⟩ => s.updated i op env copy a r o
    | _ => s

/-- The object before any call. -/
def init (a : α) : State α β χ ρ := ⟨create a, [], []⟩

end Protocol

/-! ### What a step does -/

section
variable {P : Protocol α β χ ρ} {s t : State α β χ ρ} {e : Event β χ} {i : Nat} {p : Process β χ α ρ}

/-- An operation that has still something to do. -/
def Process.Running (p : Process β χ α ρ) : Prop :=
  p.phase = .reading ∨ ∃ copy env a r, p.phase = .writing copy env a r

/-- What a step does to the operation that takes it: it goes on or fails without effect, or it takes effect. -/
inductive Step (P : Protocol α β χ ρ) (s : State α β χ ρ) : State α β χ ρ → Prop where
  | idle : Step P s s
  | start (op : β) : Step P s (P.start s op)
  | failed (i : Nat) (p : Process β χ α ρ) (hp : s.processes[i]? = some p) (hrunning : p.Running) :
      Step P s (s.setPhase i .failed)
  | computed (i : Nat) (p : Process β χ α ρ) (env : χ) (a : α) (r : ρ) (hp : s.processes[i]? = some p)
      (hrunning : p.Running) (ha : P.attempt p.op env s.object.current = .write a r) :
      Step P s (s.setPhase i (.writing s.copy env a r))
  | answered (i : Nat) (p : Process β χ α ρ) (env : χ) (r : ρ) (hp : s.processes[i]? = some p)
      (hrunning : p.Running) (hr : P.attempt p.op env s.object.current = .answered r) :
      Step P s ((s.setPhase i (.returned r)).addPoint ⟨i, p.op, env, r⟩)
  | written (i : Nat) (p : Process β χ α ρ) (copy : Copy α) (env : χ) (a : α) (r : ρ) (phase : Phase χ α ρ)
      (hp : s.processes[i]? = some p) (hwriting : p.phase = .writing copy env a r)
      (hversion : copy.version = s.object.version) (hphase : phase = .returned r ∨ phase = .lost) :
      Step P s (((s.write a).setPhase i phase).addPoint ⟨i, p.op, env, r⟩)
  | conflict (i : Nat) (p : Process β χ α ρ) (hp : s.processes[i]? = some p) (hrunning : p.Running) :
      Step P s (s.retry i)

theorem Protocol.step_attempted {op : β} {attempts : Nat} (env : χ)
    (hp : s.processes[i]? = some ⟨op, attempts, .reading⟩) : Step P s (P.attempted s i op env) := by
  have hrun : Process.Running (⟨op, attempts, .reading⟩ : Process β χ α ρ) := .inl rfl
  cases hatt : P.attempt op env s.object.current with
  | refused => simpa only [Protocol.attempted, hatt] using Step.failed i _ hp hrun
  | answered r => simpa only [Protocol.attempted, hatt] using Step.answered i _ env r hp hrun hatt
  | write a r => simpa only [Protocol.attempted, hatt] using Step.computed i _ env a r hp hrun hatt

theorem Protocol.step_updated {op : β} {attempts : Nat} {env : χ} {copy : Copy α} {a : α} {r : ρ}
    (hp : s.processes[i]? = some ⟨op, attempts, .writing copy env a r⟩) (o : Outcome) :
    Step P s (s.updated i op env copy a r o) := by
  have hrun : Process.Running (⟨op, attempts, .writing copy env a r⟩ : Process β χ α ρ) :=
    .inr ⟨copy, env, a, r, rfl⟩
  cases o with
  | failed => exact .failed i _ hp hrun
  | lost =>
    by_cases hver : copy.version = s.object.version
    · simpa only [State.updated, if_pos hver] using
        Step.written i _ copy env a r .lost hp rfl hver (.inr rfl)
    · simpa only [State.updated, if_neg hver] using Step.failed i _ hp hrun
  | ok =>
    by_cases hver : copy.version = s.object.version
    · simpa only [State.updated, if_pos hver] using
        Step.written i _ copy env a r (.returned r) hp rfl hver (.inl rfl)
    · simpa only [State.updated, if_neg hver] using Step.conflict i _ hp hrun

theorem Protocol.step_cases (P : Protocol α β χ ρ) (s : State α β χ ρ) (e : Event β χ) : Step P s (P.step s e) := by
  cases e with
  | start op => exact .start op
  | read i ok env =>
    rw [Protocol.step]
    rcases hp : s.processes[i]? with _ | ⟨op, attempts, phase⟩
    · exact .idle
    cases phase with
    | reading =>
      cases ok with
      | true => exact Protocol.step_attempted env hp
      | false => exact .failed i _ hp (.inl rfl)
    | writing copy env a r => exact .idle
    | returned r => exact .idle
    | failed => exact .idle
    | lost => exact .idle
  | update i o =>
    rw [Protocol.step]
    rcases hp : s.processes[i]? with _ | ⟨op, attempts, phase⟩
    · exact .idle
    cases phase with
    | writing copy env a r => exact Protocol.step_updated hp o
    | reading => exact .idle
    | returned r => exact .idle
    | failed => exact .idle
    | lost => exact .idle

/-! ### The invariant -/

/-- The numbers of the operations that took effect. -/
def State.served (s : State α β χ ρ) : List Nat := s.log.map (·.process)

/-- What an operation has to do with the object and with the log. -/
def Process.Fits (P : Protocol α β χ ρ) (s : State α β χ ρ) (i : Nat) (p : Process β χ α ρ) : Prop :=
  match p.phase with
  | .reading => i ∉ s.served
  | .writing copy env a r => i ∉ s.served ∧ s.object.Holds copy ∧ P.attempt p.op env copy.value = .write a r
  | .returned r => ∃ x ∈ s.log, x.process = i ∧ x.op = p.op ∧ x.result = r
  | .failed => i ∉ s.served
  | .lost => ∃ x ∈ s.log, x.process = i ∧ x.op = p.op

structure Inv (P : Protocol α β χ ρ) (a₀ : α) (s : State α β χ ρ) : Prop where
  serial : Serial P.serve a₀ s.log s.object.current
  fits : ∀ (i : Nat) (p : Process β χ α ρ), s.processes[i]? = some p → p.Fits P s i
  known : ∀ i ∈ s.served, i < s.processes.length
  once : s.served.Nodup

variable {a₀ : α}

theorem Process.Running.unserved (h : p.Running) (hfits : p.Fits P s i) : i ∉ s.served := by
  rw [Process.Fits] at hfits
  rcases h with hphase | ⟨copy, env, a, r, hphase⟩
  · rw [hphase] at hfits
    exact hfits
  · rw [hphase] at hfits
    exact hfits.1

/-- An operation does not mind what happens to the log and the object but its own points. -/
theorem Process.Fits.frame (h : p.Fits P s i) (hobj : ∀ copy, s.object.Holds copy → t.object.Holds copy)
    (hlog : ∀ x, x.process = i → (x ∈ t.log ↔ x ∈ s.log)) : p.Fits P t i := by
  have hserved : i ∉ s.served → i ∉ t.served := by
    intro hnot hin
    obtain ⟨x, hx, hi⟩ := mem_map.mp hin
    exact hnot (mem_map.mpr ⟨x, (hlog x hi).mp hx, hi⟩)
  unfold Process.Fits at h ⊢
  cases hphase : p.phase with
  | reading =>
    rw [hphase] at h
    exact hserved h
  | writing copy env a r =>
    rw [hphase] at h
    exact ⟨hserved h.1, hobj copy h.2.1, h.2.2⟩
  | returned r =>
    rw [hphase] at h
    obtain ⟨x, hx, hi, hfacts⟩ := h
    exact ⟨x, (hlog x hi).mpr hx, hi, hfacts⟩
  | failed =>
    rw [hphase] at h
    exact hserved h
  | lost =>
    rw [hphase] at h
    obtain ⟨x, hx, hi, hop⟩ := h
    exact ⟨x, (hlog x hi).mpr hx, hi, hop⟩

theorem getElem?_modify_cases {γ : Type*} {f : γ → γ} {l : List γ} {i j : Nat} {y : γ}
    (h : (l.modify i f)[j]? = some y) : (i ≠ j ∧ l[j]? = some y) ∨ ∃ x, i = j ∧ l[j]? = some x ∧ y = f x := by
  rw [List.getElem?_modify] at h
  cases hx : l[j]? with
  | none => simp [hx] at h
  | some x =>
  by_cases hij : i = j
  · refine .inr ⟨x, hij, rfl, ?_⟩
    simpa [hx, hij] using h.symm
  · refine .inl ⟨hij, ?_⟩
    simpa [hx, hij] using h

theorem Inv.modify (h : Inv P a₀ s) {f : Process β χ α ρ → Process β χ α ρ} (hp : s.processes[i]? = some p)
    (hfits : (f p).Fits P s i) : Inv P a₀ { s with processes := s.processes.modify i f } := by
  refine ⟨h.serial, ?_, ?_, h.once⟩
  · intro j q hq
    rcases getElem?_modify_cases hq with ⟨-, hold⟩ | ⟨x, rfl, hold, rfl⟩
    · exact (h.fits j q hold).frame (fun _ hholds => hholds) (fun _ _ => Iff.rfl)
    · obtain rfl : p = x := Option.some.inj (hp.symm.trans hold)
      exact hfits.frame (fun _ hholds => hholds) (fun _ _ => Iff.rfl)
  · intro j hj
    rw [length_modify]
    exact h.known j hj

theorem Inv.point (h : Inv P a₀ s) (hp : s.processes[i]? = some p) (hrun : p.Running) {object : Versioned α}
    {env : χ} {r : ρ} {phase : Phase χ α ρ} (hobj : ∀ copy, s.object.Holds copy → object.Holds copy)
    (hserve : P.serve p.op env s.object.current = some (object.current, r))
    (hphase : phase = .returned r ∨ phase = .lost) :
    Inv P a₀ ((({ s with object := object } : State α β χ ρ).setPhase i phase).addPoint ⟨i, p.op, env, r⟩) := by
  have hunserved : i ∉ s.served := hrun.unserved (h.fits i p hp)
  have hserved : ((({ s with object := object } : State α β χ ρ).setPhase i phase).addPoint
      ⟨i, p.op, env, r⟩).served = s.served ++ [i] := by simp [State.served, State.addPoint, State.setPhase]
  refine ⟨h.serial.snoc hserve, ?_, ?_, ?_⟩
  · intro j q hq
    rcases getElem?_modify_cases hq with ⟨hne, hold⟩ | ⟨x, rfl, hold, rfl⟩
    · refine (h.fits j q hold).frame hobj ?_
      intro x hx
      show x ∈ s.log ++ [_] ↔ x ∈ s.log
      refine ⟨fun hin => (mem_append.mp hin).resolve_right ?_, mem_append_left _⟩
      intro hnew
      rw [mem_singleton.mp hnew] at hx
      exact hne hx
    · obtain rfl : p = x := Option.some.inj (hp.symm.trans hold)
      have hnew : (⟨i, p.op, env, r⟩ : Point β χ ρ) ∈ s.log ++ [⟨i, p.op, env, r⟩] := mem_append_right _ mem_cons_self
      rcases hphase with rfl | rfl
      · exact ⟨_, hnew, rfl, rfl, rfl⟩
      · exact ⟨_, hnew, rfl, rfl⟩
  · intro j hj
    show j < (s.processes.modify i _).length
    rw [length_modify]
    rw [hserved] at hj
    rcases mem_append.mp hj with hold | hnew
    · exact h.known j hold
    · rw [mem_singleton.mp hnew]
      exact (List.getElem?_eq_some_iff.mp hp).1
  · rw [hserved, nodup_append]
    refine ⟨h.once, nodup_singleton i, ?_⟩
    intro j hj k hk
    rw [mem_singleton.mp hk]
    exact fun heq => hunserved (heq ▸ hj)

theorem inv_init (P : Protocol α β χ ρ) (a : α) : Inv P a (Protocol.init a) := by
  refine ⟨rfl, ?_, ?_, nodup_nil⟩
  · intro i p hp
    simp [Protocol.init] at hp
  · intro i hi
    simp [Protocol.init, State.served] at hi

theorem Inv.start (h : Inv P a₀ s) (op : β) : Inv P a₀ (P.start s op) := by
  refine ⟨h.serial, ?_, ?_, h.once⟩
  · intro i p hp
    rw [Protocol.start, List.getElem?_append] at hp
    by_cases hlt : i < s.processes.length
    · rw [if_pos hlt] at hp
      exact (h.fits i p hp).frame (fun _ hholds => hholds) (fun _ _ => Iff.rfl)
    rw [if_neg hlt] at hp
    have hnew : i ∉ s.served := fun hin => hlt (h.known i hin)
    obtain ⟨-, rfl⟩ := List.getElem?_eq_some_iff.mp hp
    simp only [getElem_singleton, Process.Fits]
    cases P.admits op with
    | true => exact hnew
    | false => exact hnew
  · intro i hi
    refine Nat.lt_of_lt_of_le (h.known i hi) ?_
    show s.processes.length ≤ (s.processes ++ [_]).length
    simp

theorem Inv.step (h : Inv P a₀ s) (hstep : Step P s t) : Inv P a₀ t := by
  cases hstep with
  | idle => exact h
  | start op => exact h.start op
  | failed i p hp hrun => exact h.modify hp (hrun.unserved (h.fits i p hp))
  | computed i p env a r hp hrun ha =>
    exact h.modify hp ⟨hrun.unserved (h.fits i p hp), s.object.holds_current, ha⟩
  | answered i p env r hp hrun hr =>
    exact h.point hp hrun (fun _ hholds => hholds) (by rw [Protocol.serve, hr]; rfl) (.inl rfl)
  | written i p copy env a r phase hp hwriting hver hphase =>
    have hfits := h.fits i p hp
    rw [Process.Fits, hwriting] at hfits
    obtain ⟨-, hholds, hatt⟩ := hfits
    rw [hholds.eq_current (Nat.le_of_eq hver.symm)] at hatt
    exact h.point hp (.inr ⟨copy, env, a, r, hwriting⟩) (fun _ hholds => hholds.write a)
      (by rw [Protocol.serve, hatt]; rfl) hphase
  | conflict i p hp hrun =>
  have hunserved := hrun.unserved (h.fits i p hp)
  refine h.modify hp ?_
  split_ifs
  · exact hunserved
  · exact hunserved

/-- **Every run is serial**, in the order of its log. -/
theorem inv_run (P : Protocol α β χ ρ) (a : α) (es : List (Event β χ)) : Inv P a (run P.step (Protocol.init a) es) :=
  run_invariant P.step (fun s e h => h.step (P.step_cases s e)) es (Protocol.init a) (inv_init P a)

/-! ### What the log says of the operations -/

theorem Inv.point_unique (h : Inv P a₀ s) {x y : Point β χ ρ} (hx : x ∈ s.log) (hy : y ∈ s.log)
    (hxy : x.process = y.process) : x = y :=
  inj_on_of_nodup_map h.once hx hy hxy

/-- An operation that took effect has returned its answer, or its reply was lost. -/
theorem Inv.of_mem_log (h : Inv P a₀ s) {x : Point β χ ρ} (hx : x ∈ s.log) :
    ∃ p, s.processes[x.process]? = some p ∧ p.op = x.op ∧ (p.phase = .returned x.result ∨ p.phase = .lost) := by
  have hserved : x.process ∈ s.served := mem_map.mpr ⟨x, hx, rfl⟩
  have hlt := h.known x.process hserved
  have hp : s.processes[x.process]? = some s.processes[x.process] := List.getElem?_eq_getElem hlt
  refine ⟨_, hp, ?_⟩
  have hfits := h.fits _ _ hp
  rw [Process.Fits] at hfits
  cases hphase : s.processes[x.process].phase with
  | reading =>
    rw [hphase] at hfits
    exact absurd hserved hfits
  | writing copy env a r =>
    rw [hphase] at hfits
    exact absurd hserved hfits.1
  | failed =>
    rw [hphase] at hfits
    exact absurd hserved hfits
  | returned r =>
    rw [hphase] at hfits
    obtain ⟨y, hy, hi, hop, rfl⟩ := hfits
    obtain rfl : y = x := h.point_unique hy hx hi
    exact ⟨hop.symm, .inl rfl⟩
  | lost =>
    rw [hphase] at hfits
    obtain ⟨y, hy, hi, hop⟩ := hfits
    obtain rfl : y = x := h.point_unique hy hx hi
    exact ⟨hop.symm, .inr rfl⟩

theorem Inv.of_returned (h : Inv P a₀ s) {r : ρ} (hp : s.processes[i]? = some p) (hr : p.phase = .returned r) :
    ∃ x ∈ s.log, x.process = i ∧ x.op = p.op ∧ x.result = r := by
  have hfits := h.fits i p hp
  rw [Process.Fits, hr] at hfits
  exact hfits

theorem Inv.of_failed (h : Inv P a₀ s) (hp : s.processes[i]? = some p) (hfailed : p.phase = .failed) :
    ∀ x ∈ s.log, x.process ≠ i := by
  have hfits := h.fits i p hp
  rw [Process.Fits, hfailed] at hfits
  intro x hx hi
  exact hfits (mem_map.mpr ⟨x, hx, hi⟩)

/-! ### The order of the log -/

theorem Step.log_extends (h : Step P s t) : s.log <+: t.log := by
  cases h with
  | answered => exact prefix_append _ _
  | written => exact prefix_append _ _
  | idle | start | failed | computed | conflict => exact prefix_refl _

theorem log_prefix (P : Protocol α β χ ρ) (s : State α β χ ρ) (es : List (Event β χ)) :
    s.log <+: (run P.step s es).log :=
  run_invariant P.step (motive := fun t => s.log <+: t.log)
    (fun t e h => h.trans (P.step_cases t e).log_extends) es s (prefix_refl _)

/-- **The log respects the order of time**: of two operations that took effect, one that had returned before the other
was called comes first. -/
theorem precedes (P : Protocol α β χ ρ) (a : α) (es fs : List (Event β χ)) {r : ρ}
    (hp : (run P.step (Protocol.init a) es).processes[i]? = some p) (hr : p.phase = .returned r) {j : Nat}
    (hj : (run P.step (Protocol.init a) es).processes.length ≤ j) :
    ∃ before after, (run P.step (Protocol.init a) (es ++ fs)).log = before ++ after ∧
      (∃ x ∈ before, x.process = i ∧ x.result = r) ∧ ∀ x ∈ before, x.process ≠ j := by
  have hinv := inv_run P a es
  obtain ⟨after, hafter⟩ := log_prefix P (run P.step (Protocol.init a) es) fs
  refine ⟨_, after, by rw [run_append, hafter], ?_, ?_⟩
  · obtain ⟨x, hx, hi, -, hres⟩ := hinv.of_returned hp hr
    exact ⟨x, hx, hi, hres⟩
  · intro x hx hprocess
    have hlt := hinv.known x.process (mem_map.mpr ⟨x, hx, rfl⟩)
    omega
end

end Paprika.Lib.OptimisticUpdates
