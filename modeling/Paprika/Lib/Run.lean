import Mathlib.Data.List.Basic
import Mathlib.Data.List.Induction

/-!
# Finite runs of a deterministic step function

A run folds a step function over a list of events.  Three rules carry every safety result built on it:

* **`run_invariant`**, **`run_invariant_on`** — a property that one step (one admissible step) preserves
  holds after every run;
* **`run_crossing`** — a property that is lost along a run is lost in one of its steps;
* **`guarded_history`** — the invariant rule under a side condition on each step (`Guarded`), with the whole event
  history in scope, so that the motive may speak about earlier steps of the run.

A guard is a predicate of the state *before* the step and of the event, never of what the step computes.
-/

namespace Paprika.Lib.Run

variable {σ ε : Type*} (step : σ → ε → σ)

/-- The state after the events `es`, in order. -/
def run (s : σ) (es : List ε) : σ := es.foldl step s

@[simp] theorem run_nil (s : σ) : run step s [] = s := rfl

@[simp] theorem run_cons (s : σ) (e : ε) (es : List ε) : run step s (e :: es) = run step (step s e) es := rfl

@[simp] theorem run_append (s : σ) (es fs : List ε) :
    run step s (es ++ fs) = run step (run step s es) fs := List.foldl_append ..

variable {es : List ε} {motive : σ → Prop} {ok : ε → Prop}

/-- **Invariant rule.**  What one step preserves holds at the end of every run. -/
theorem run_invariant (hstep : ∀ s e, motive s → motive (step s e)) (es : List ε) :
    ∀ s, motive s → motive (run step s es) := by
  induction es with
  | nil => intro s hs; exact hs
  | cons e es ih => intro s hs; exact ih _ (hstep s e hs)

/-- **Invariant rule for admissible events.**  What one admissible step preserves holds at the end of every
run of admissible events. -/
theorem run_invariant_on (hstep : ∀ s e, motive s → ok e → motive (step s e)) (es : List ε) :
    ∀ s, motive s → (∀ e ∈ es, ok e) → motive (run step s es) := by
  induction es with
  | nil => intro s hs _; exact hs
  | cons e es ih =>
    intro s hs hok
    exact ih _ (hstep s e hs (hok e List.mem_cons_self)) (fun f hf => hok f (List.mem_cons_of_mem e hf))

/-- **Crossing.**  A property that holds at the start and not at the end is lost in some step of the run. -/
theorem run_crossing {p : σ → Prop} : ∀ {s : σ}, p s → ¬p (run step s es) →
    ∃ pre e post, es = pre ++ e :: post ∧ p (run step s pre) ∧ ¬p (step (run step s pre) e) := by
  induction es with
  | nil => intro s hs hend; exact absurd hs hend
  | cons e es ih =>
    intro s hs hend
    by_cases he : p (step s e)
    · obtain ⟨pre, f, post, rfl, hpre, hf⟩ := ih he hend
      exact ⟨e :: pre, f, post, rfl, hpre, hf⟩
    · exact ⟨[], e, es, rfl, hs, he⟩

/-- Every event of the list meets `guard` in the state it is applied to. -/
def Guarded (guard : σ → ε → Prop) : σ → List ε → Prop
  | _, [] => True
  | s, e :: es => guard s e ∧ Guarded guard (step s e) es

instance decidableGuarded (guard : σ → ε → Prop) [∀ s e, Decidable (guard s e)] :
    ∀ s es, Decidable (Guarded step guard s es)
  | _, [] => .isTrue trivial
  | s, e :: es => @instDecidableAnd _ _ _ (decidableGuarded guard (step s e) es)

variable {step} {guard : σ → ε → Prop}

theorem guarded_nil {s : σ} : Guarded step guard s [] ↔ True := .rfl

theorem guarded_cons {s : σ} {e : ε} :
    Guarded step guard s (e :: es) ↔ guard s e ∧ Guarded step guard (step s e) es := .rfl

theorem guarded_append {s : σ} {fs : List ε} : Guarded step guard s (es ++ fs) ↔
      Guarded step guard s es ∧ Guarded step guard (run step s es) fs := by
  induction es generalizing s with
  | nil => simp [guarded_nil]
  | cons e es ih => simp only [List.cons_append, guarded_cons, ih, run_cons, and_assoc]

theorem guarded_snoc {s : σ} {e : ε} :
    Guarded step guard s (es ++ [e]) ↔ Guarded step guard s es ∧ guard (run step s es) e := by
  simp [guarded_append, guarded_cons, guarded_nil]

theorem guarded_and {guard' : σ → ε → Prop} : ∀ {s : σ},
    Guarded step (fun s e => guard s e ∧ guard' s e) s es ↔ Guarded step guard s es ∧ Guarded step guard' s es := by
  induction es with
  | nil => intro s; simp [guarded_nil]
  | cons e es ih => intro s; simp only [guarded_cons, ih]; tauto

/-- What holds of every admissible step from a state of the invariant holds of every step of a run. -/
theorem guarded_of_invariant
    (hstep : ∀ s e, motive s → ok e → motive (step s e)) (hguard : ∀ s e, motive s → ok e → guard s e) : ∀ {s : σ}, motive s → (∀ e ∈ es, ok e) → Guarded step guard s es := by
  induction es with
  | nil => intro s _ _; trivial
  | cons e es ih =>
    intro s hs hok
    have he := hok e List.mem_cons_self
    exact ⟨hguard s e hs he, ih (hstep s e hs he) (fun f hf => hok f (List.mem_cons_of_mem e hf))⟩

/-- **History rule.**  Induction along a guarded run, one event at the end of the history at a time. -/
theorem guarded_history {s : σ} {motive : List ε → Prop} (nil : motive [])
    (snoc : ∀ es e, Guarded step guard s es → motive es → guard (run step s es) e → motive (es ++ [e])) :
    ∀ es, Guarded step guard s es → motive es := by
  intro es
  induction es using List.reverseRecOn with
  | nil => intro _; exact nil
  | append_singleton es e ih =>
    intro h
    obtain ⟨hes, he⟩ := guarded_snoc.mp h
    exact snoc es e hes (ih hes) he

/-- **Guarded invariant rule.**  What one guarded step preserves holds at the end of every guarded run. -/
theorem guarded_invariant (hstep : ∀ s e, motive s → guard s e → motive (step s e))
    {s : σ} (hs : motive s) (h : Guarded step guard s es) : motive (run step s es) := by
  refine guarded_history (motive := fun es => motive (run step s es)) hs ?_ es h
  intro es e _ ih he
  simpa using hstep _ e ih he

/-- **Guarded invariant rule for admissible events.** -/
theorem guarded_invariant_on (hstep : ∀ s e, motive s → ok e → guard s e → motive (step s e)) {s : σ} (hs : motive s)
    (hok : ∀ e ∈ es, ok e) (h : Guarded step guard s es) : motive (run step s es) := by
  induction es generalizing s with
  | nil => exact hs
  | cons e es ih =>
    have he := hok e List.mem_cons_self
    exact ih (hstep s e hs he h.1) (fun f hf => hok f (List.mem_cons_of_mem e hf)) h.2

/-- What a guard and the invariant that it keeps imply holds of every step of a guarded run. -/
theorem guarded_imp {guard' : σ → ε → Prop}
    (hstep : ∀ s e, motive s → guard s e → motive (step s e)) (himp : ∀ s e, motive s → guard s e → guard' s e) : ∀ {s : σ}, motive s → Guarded step guard s es → Guarded step guard' s es := by
  induction es with
  | nil => intro s _ _; trivial
  | cons e es ih =>
    intro s hs h
    exact ⟨himp s e hs h.1, ih (hstep s e hs h.1) h.2⟩

/-! ### Histories, newest entry first -/

/-- A position in a grown history is the new entry or a position of the old history. -/
theorem position_cons {α : Type*} {r t : α} {log later earlier : List α} (h : r :: log = later ++ t :: earlier) :
    (later = [] ∧ r = t ∧ log = earlier) ∨ ∃ rest, later = r :: rest ∧ log = rest ++ t :: earlier := by
  cases later with
  | nil =>
    obtain ⟨hr, hlog⟩ := List.cons.inj h
    exact Or.inl ⟨rfl, hr, hlog⟩
  | cons u rest =>
    obtain ⟨hr, hlog⟩ := List.cons.inj h
    exact Or.inr ⟨rest, by rw [hr], hlog⟩

end Paprika.Lib.Run
