import Paprika.Lib.Run

/-!
# Two systems on one history

Two step functions read the same events.  What an observer of both may compare is `agree`.

* **`lockstep`** — a relation that every guarded step keeps relates the ends of every guarded run;
* **`agree_iff_guarded`** — where a guarded step keeps the relation, the relation implies agreement, and a step that is
  not guarded ends it, the two agree at every point of a history exactly if all its steps are guarded.
-/

namespace Paprika.Lib.Lockstep

open Lib.Run

variable {σ τ ε : Type*} {left : σ → ε → σ} {right : τ → ε → τ} {related agree : σ → τ → Prop} {guard : σ → ε → Prop}

theorem lockstep (hkeep : ∀ s t e, related s t → guard s e → related (left s e) (right t e)) {es : List ε} :
    ∀ {s : σ} {t : τ}, related s t → Guarded left guard s es → related (run left s es) (run right t es) := by
  induction es with
  | nil => intro s t h _; exact h
  | cons e es ih => intro s t h hes; exact ih (hkeep s t e h hes.1) hes.2

theorem agree_iff_guarded (hagree : ∀ s t, related s t → agree s t)
    (hkeep : ∀ s t e, related s t → guard s e → related (left s e) (right t e))
    (hends : ∀ s t e, related s t → ¬guard s e → ¬agree (left s e) (right t e)) {s : σ} {t : τ} (h : related s t)
    (es : List ε) : (∀ pre, pre <+: es → agree (run left s pre) (run right t pre)) ↔ Guarded left guard s es := by
  constructor
  · intro hall
    induction es generalizing s t with
    | nil => trivial
    | cons e es ih =>
      have he : guard s e := by
        by_contra hne
        exact hends s t e h hne (hall [e] (by simp))
      refine ⟨he, ih (hkeep s t e h he) ?_⟩
      intro pre hpre
      exact hall (e :: pre) (List.cons_prefix_cons.mpr ⟨rfl, hpre⟩)
  · rintro hes pre ⟨post, rfl⟩
    exact hagree _ _ (lockstep hkeep h (guarded_append.mp hes).1)

end Paprika.Lib.Lockstep
