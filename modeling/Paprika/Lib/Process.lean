import Paprika.Lib.Run

/-!
# Processes that write to a shared store

A process works out, from what it reads when it starts, a list of writes, and attempts them one after another; the
first that is refused or fails ends it, and so may a crash at any time.  Between two writes the environment may change
the store.  At most one process is at work.

* `Ensures` — what the writes of a process make true, whatever the environment does in between; `ensures_append` puts
  two parts of a process together.
* `Routine` — processes written as programs with a local copy and errors, and **`wp_bind`** and its siblings, the rules
  for reasoning about them.
* **`system_invariant`** — an invariant that every process keeps, and the environment does not touch, holds in every
  run.
-/

namespace Paprika.Lib.Process

open Lib.Run

variable {A σ ι ο L E α β : Type}

/-- What the environment can do to the store, what a process starts to write, and what a write does; `none` is a write
that the store refuses. -/
structure Rules (A σ ι ο : Type) where
  environment : ι → σ → σ
  body : ο → σ → List A
  perform : A → σ → Option σ

/-- The store with the writes that the process at work has still to make. -/
structure System (A σ : Type) where
  store : σ
  pending : List A

/-- What can happen next: a change of the environment, the start of a process, the next write, which goes through
unless it is refused or fails, and a crash of the process. -/
inductive Event (ι ο : Type)
  | environment (i : ι)
  | start (o : ο)
  | go (ok : Bool)
  | crash

/-- One step.  A process does not start while another is at work. -/
def System.step (R : Rules A σ ι ο) (s : System A σ) : Event ι ο → System A σ
  | .environment i => { s with store := R.environment i s.store }
  | .start o => if s.pending.isEmpty then { s with pending := R.body o s.store } else s
  | .go ok =>
    match s.pending with
    | [] => s
    | a :: rest =>
      match if ok then R.perform a s.store else none with
      | some t => { store := t, pending := rest }
      | none => { s with pending := [] }
  | .crash => { s with pending := [] }

/-- How an invariant is to be kept: `rely` is what the environment may do, `inv` holds at all times and `idle` while
no process is at work; `mayStart` are the processes that may start, `mayFail` the writes that may fail, and `mayCrash`
says whether a process may crash. -/
structure Discipline (A σ ο : Type) where
  rely : σ → σ → Prop
  inv : σ → Prop
  idle : σ → Prop
  mayStart : ο → σ → Prop
  mayFail : A → Prop
  mayCrash : Prop

/-- The writes keep the invariant from `s`, leave the store idle where they are cut short, and end in `Q`. -/
def Ensures (D : Discipline A σ ο) (perform : A → σ → Option σ) : List A → (σ → Prop) → σ → Prop
  | [], Q, s => Q s
  | a :: rest, Q, s => ∀ t, D.rely s t →
      ((D.mayFail a ∨ perform a t = none) → D.idle t) ∧
      ∀ u, perform a t = some u → D.inv u ∧ Ensures D perform rest Q u

/-- Only what may start starts, only what may fail fails, and nothing crashes that may not. -/
def Admissible (D : Discipline A σ ο) (s : System A σ) : Event ι ο → Prop
  | .environment _ => True
  | .start o => s.pending = [] → D.mayStart o s.store
  | .go ok => ok = false → ∀ a rest, s.pending = a :: rest → D.mayFail a
  | .crash => D.mayCrash

section
variable {D : Discipline A σ ο} {perform : A → σ → Option σ}

theorem Ensures.mono {Q Q' : σ → Prop} (hQ : ∀ s, Q s → Q' s) {xs : List A} :
    ∀ {s : σ}, Ensures D perform xs Q s → Ensures D perform xs Q' s := by
  induction xs with
  | nil => exact fun h => hQ _ h
  | cons a rest ih =>
    intro s h t ht
    obtain ⟨hcut, hgo⟩ := h t ht
    refine ⟨hcut, ?_⟩
    intro u hu
    exact ⟨(hgo u hu).1, ih (hgo u hu).2⟩

theorem ensures_append {Q : σ → Prop} {xs ys : List A} : ∀ {s : σ},
    Ensures D perform xs (fun u => Ensures D perform ys Q u) s → Ensures D perform (xs ++ ys) Q s := by
  induction xs with
  | nil => exact fun h => h
  | cons a rest ih =>
    intro s h t ht
    obtain ⟨hcut, hgo⟩ := h t ht
    refine ⟨hcut, ?_⟩
    intro u hu
    exact ⟨(hgo u hu).1, ih (hgo u hu).2⟩
end

/-! ### Runs -/

/-- What the rules of a system must meet for the discipline. -/
structure Keeps (R : Rules A σ ι ο) (D : Discipline A σ ο) : Prop where
  refl : ∀ s, D.rely s s
  trans : ∀ s t u, D.rely s t → D.rely t u → D.rely s u
  environment : ∀ i s, D.rely s (R.environment i s)
  inv_stable : ∀ s t, D.rely s t → D.inv s → D.inv t
  idle_stable : ∀ s t, D.rely s t → D.idle s → D.idle t
  crash : D.mayCrash → ∀ s, D.inv s → D.idle s
  body : ∀ o s, D.mayStart o s → D.inv s → D.idle s → Ensures D R.perform (R.body o s) D.idle s

def SystemInv (R : Rules A σ ι ο) (D : Discipline A σ ο) (s : System A σ) : Prop :=
  D.inv s.store ∧ Ensures D R.perform s.pending D.idle s.store

section
variable {R : Rules A σ ι ο} {D : Discipline A σ ο}

/-- **One step keeps the invariant.** -/
theorem Keeps.step (h : Keeps R D) {s : System A σ} (hs : SystemInv R D s) (e : Event ι ο)
    (he : Admissible D s e) : SystemInv R D (s.step R e) := by
  obtain ⟨hinv, hpend⟩ := hs
  cases e with
  | environment i =>
    have hrely := h.environment i s.store
    refine ⟨h.inv_stable _ _ hrely hinv, ?_⟩
    show Ensures D R.perform s.pending D.idle (R.environment i s.store)
    cases hp : s.pending with
    | nil =>
      rw [hp] at hpend
      exact h.idle_stable _ _ hrely hpend
    | cons a rest =>
      rw [hp] at hpend
      exact fun t ht => hpend t (h.trans _ _ _ hrely ht)
  | start o =>
    simp only [System.step]
    split
    · next hempty =>
      have hnil : s.pending = [] := List.isEmpty_iff.mp hempty
      rw [hnil] at hpend
      exact ⟨hinv, h.body o s.store (he hnil) hinv hpend⟩
    · exact ⟨hinv, hpend⟩
  | go ok =>
    simp only [System.step]
    split
    · exact ⟨hinv, hpend⟩
    · next a rest hp =>
      rw [hp] at hpend
      obtain ⟨hcut, hgo⟩ := hpend s.store (h.refl _)
      split
      · next t ht =>
        cases ok with
        | true => exact hgo t ht
        | false => cases ht
      · next hnone =>
        refine ⟨hinv, hcut ?_⟩
        cases ok with
        | true => exact Or.inr hnone
        | false => exact Or.inl (he rfl a rest hp)
  | crash => exact ⟨hinv, h.crash he s.store hinv⟩

/-- **Invariant rule.**  In every admissible run from an idle store. -/
theorem system_invariant (h : Keeps R D) {s : σ} (hinv : D.inv s) (hidle : D.idle s) {es : List (Event ι ο)}
    (hes : Guarded (System.step R) (Admissible D) ⟨s, []⟩ es) : SystemInv R D (run (System.step R) ⟨s, []⟩ es) := by
  have hstart : SystemInv R D ⟨s, []⟩ := ⟨hinv, hidle⟩
  exact guarded_invariant (motive := SystemInv R D) (fun _ e hs he => h.step hs e he) hstart hes

theorem system_invariant_all (h : Keeps R D) (hstart : ∀ o s, D.mayStart o s) (hfail : ∀ a, D.mayFail a)
    (hcrash : D.mayCrash) {s : σ} (hinv : D.inv s) (hidle : D.idle s) (es : List (Event ι ο)) :
    SystemInv R D (run (System.step R) ⟨s, []⟩ es) := by
  refine run_invariant (System.step R) (motive := SystemInv R D) (fun t e ht => h.step ht e ?_) es ⟨s, []⟩
    ⟨hinv, hidle⟩
  cases e with
  | environment _ => trivial
  | start o => exact fun _ => hstart o _
  | go ok => exact fun _ a _ _ => hfail a
  | crash => exact hcrash
end

/-! ### Routines -/

/-- What a program writes, how it ends and what its local copy is then. -/
def Routine (A L E α : Type) : Type := L → List A × Except E α × L

namespace Routine

instance : Monad (Routine A L E) where
  pure a := fun l => ([], .ok a, l)
  bind m f := fun l =>
    match m l with
    | (xs, .error e, l') => (xs, .error e, l')
    | (xs, .ok a, l') => (xs ++ (f a l').1, (f a l').2.1, (f a l').2.2)

def copy : Routine A L E L := fun l => ([], .ok l, l)

def update (f : L → L) : Routine A L E Unit := fun l => ([], .ok (), f l)

def raise (e : E) : Routine A L E α := fun l => ([], .error e, l)

/-- A write; what follows happens only if it goes through. -/
def write (a : A) : Routine A L E Unit := fun l => ([a], .ok (), l)

/-- An error is handled with the local copy as it is then. -/
def handle (m : Routine A L E α) (h : E → Routine A L E α) : Routine A L E α := fun l =>
  match m l with
  | (xs, .ok a, l') => (xs, .ok a, l')
  | (xs, .error e, l') => (xs ++ (h e l').1, (h e l').2.1, (h e l').2.2)

/-- The weakest precondition of a routine, on its local copy and the store. -/
def wp (D : Discipline A σ ο) (perform : A → σ → Option σ) (m : Routine A L E α) (Q : Except E α → L → σ → Prop) (l : L)
    (s : σ) : Prop :=
  Ensures D perform (m l).1 (Q (m l).2.1 (m l).2.2) s

section
variable {D : Discipline A σ ο} {perform : A → σ → Option σ} {Q Q' : Except E α → L → σ → Prop} {l : L} {s : σ}

theorem wp_raise {e : E} (h : Q (.error e) l s) : wp D perform (raise e : Routine A L E α) Q l s := h

theorem wp_copy {Q : Except E L → L → σ → Prop} (h : Q (.ok l) l s) : wp D perform (copy : Routine A L E L) Q l s := h

section
variable {Q : Except E Unit → L → σ → Prop}

theorem wp_update {f : L → L} (h : Q (.ok ()) (f l) s) : wp D perform (update f : Routine A L E Unit) Q l s := h

theorem wp_write {a : A}
    (hcut : ∀ t, D.rely s t → (D.mayFail a ∨ perform a t = none) → D.idle t)
    (hgo : ∀ t, D.rely s t → ∀ u, perform a t = some u → D.inv u ∧ Q (.ok ()) l u) :
    wp D perform (write a : Routine A L E Unit) Q l s :=
  fun t ht => ⟨hcut t ht, hgo t ht⟩
end

section
variable {m : Routine A L E α}

theorem wp.mono (h : wp D perform m Q l s) (hQ : ∀ r l' u, Q r l' u → Q' r l' u) : wp D perform m Q' l s :=
  Ensures.mono (hQ _ _) h

/-- **Sequencing.**  An error ends the routine, a result is what the rest goes on with. -/
theorem wp_bind {f : α → Routine A L E β} {Q : Except E β → L → σ → Prop}
    (h : wp D perform m (fun r l' u => match r with
      | .ok a => wp D perform (f a) Q l' u
      | .error e => Q (.error e) l' u) l s) : wp D perform (m >>= f) Q l s := by
  have hbind : (m >>= f) l = match m l with
      | (xs, .error e, l') => (xs, .error e, l')
      | (xs, .ok a, l') => (xs ++ (f a l').1, (f a l').2.1, (f a l').2.2) := rfl
  unfold wp at h ⊢
  rw [hbind]
  generalize m l = out at h ⊢
  obtain ⟨xs, r, l'⟩ := out
  cases r with
  | error e => exact h
  | ok a => exact ensures_append h

/-- **Error handling.** -/
theorem wp_handle {f : E → Routine A L E α}
    (h : wp D perform m (fun r l' u => match r with
      | .ok a => Q (.ok a) l' u
      | .error e => wp D perform (f e) Q l' u) l s) : wp D perform (handle m f) Q l s := by
  have hhandle : handle m f l = match m l with
      | (xs, .ok a, l') => (xs, .ok a, l')
      | (xs, .error e, l') => (xs ++ (f e l').1, (f e l').2.1, (f e l').2.2) := rfl
  unfold wp at h ⊢
  rw [hhandle]
  generalize m l = out at h ⊢
  obtain ⟨xs, r, l'⟩ := out
  cases r with
  | ok a => exact h
  | error e => exact ensures_append h
end

end

end Routine

end Paprika.Lib.Process
