import Paprika.Lib.SharedStore
import Paprika.Lib.Text

/-!
# Confirmation tokens

`confirm.go`: a token is issued for a principal, a tool and its arguments, and consumed once.  A `Consume` looks for a
tombstone, takes the record, and leaves a tombstone before it looks at the record.

* `issue`, `consume` — the programs, over the cache that all instances share;
* `Valid` — what holds throughout a run: each key is written once, a tombstone by who took the record it is for;
* **`confirmation_spent_once`** — a token confirms one call at most, the one it was issued for, and a token that is used
  is reported as used, as long as no tombstone is taken for a record (`Orderly`).
-/

namespace Paprika.Mcp

open Lib.Run Lib.SharedStore List

/-! ### Tokens and records -/

/-- Who calls which tool with which arguments. -/
structure ToolCall where
  principal : String
  tool : String
  args : List UInt8
  deriving DecidableEq

structure ConfirmRecord where
  principal : String
  tool : String
  argsHash : String
  deriving DecidableEq

/-- What is stored: a record, or the `1` of a tombstone. -/
inductive Payload where
  | record (rec : ConfirmRecord)
  | tombstone
  deriving DecidableEq

/-- The random tokens, in the letters of URLs, and the hexadecimal SHA-256 of arguments. -/
structure Confirmer where
  token : Nat → String
  fresh : Function.Injective token
  letters : ∀ i, ':' ∉ (token i).toList
  argsHash : List UInt8 → String

def recordKey (token : String) : String := "mcp:confirm:" ++ token

def usedKey (token : String) : String := "mcp:confirm:" ++ token ++ ":used"

variable {u : String}

theorem recordKey_inj {t : String} (h : recordKey t = recordKey u) : t = u := by
  have hlist := congrArg String.toList h
  simpa [recordKey, String.toList_inj] using hlist

theorem usedKey_eq (t : String) : usedKey t = recordKey (t ++ ":used") := by
  rw [usedKey, recordKey, String.append_assoc]

theorem usedKey_inj {t : String} (h : usedKey t = usedKey u) : t = u := by
  rw [usedKey_eq, usedKey_eq] at h
  have hlist := congrArg String.toList (recordKey_inj h)
  simpa [String.toList_inj] using hlist

theorem recordKey_ne_usedKey {t : String} (ht : ':' ∉ t.toList) (u : String) : recordKey t ≠ usedKey u := by
  rw [usedKey_eq]
  intro h
  refine ht ?_
  rw [recordKey_inj h, String.toList_append]
  exact mem_append_right _ (by decide)

namespace Confirmer

variable (C : Confirmer)

def confirmRecord (call : ToolCall) : ConfirmRecord :=
  { principal := call.principal, tool := call.tool, argsHash := C.argsHash call.args }

/-- `matches`; the comparison of the hashes takes the same time for all. -/
def isFor (rec : ConfirmRecord) (call : ToolCall) : Bool :=
  if rec.principal ≠ call.principal ∨ rec.tool ≠ call.tool then false else rec.argsHash == C.argsHash call.args

theorem isFor_iff {rec : ConfirmRecord} {call : ToolCall} : C.isFor rec call = true ↔ rec = C.confirmRecord call := by
  rw [isFor]
  split_ifs with hother
  · constructor
    · intro h
      cases h
    · rintro rfl
      exact absurd hother (by simp [confirmRecord])
  rw [not_or, not_not, not_not] at hother
  rw [beq_iff_eq]
  constructor
  · intro hhash
    rw [confirmRecord, ← hother.1, ← hother.2, ← hhash]
  · rintro rfl
    rfl

end Confirmer

/-! ### The programs -/

/-- What a call returns: a token, that it is confirmed, or one of the errors; `failed` is an error of the store. -/
inductive Result where
  | token (t : String)
  | confirmed
  | used
  | invalid
  | mismatch
  | malformed
  | failed
  deriving DecidableEq

inductive Request where
  | issue (call : ToolCall)
  | consume (token : String) (call : ToolCall)

abbrev Step := Program String Payload Result

abbrev System := State Request String Payload Result

namespace Confirmer

variable (C : Confirmer)

def issue (i : Nat) (call : ToolCall) : Step :=
  .set (recordKey (C.token i)) (.record (C.confirmRecord call)) fun ok => .done (if ok then .token (C.token i) else .failed)

/-- What `Consume` returns for the record that it took. -/
def verdict (call : ToolCall) : Payload → Result
  | .tombstone => .malformed
  | .record rec => if C.isFor rec call then .confirmed else .mismatch

/-- `burn`, with the record taken. -/
def entomb (t : String) (call : ToolCall) (payload : Payload) : Step :=
  .set (usedKey t) .tombstone fun ok => .done (if ok then C.verdict call payload else .failed)

def burn (t : String) (call : ToolCall) : Step :=
  .getDel (recordKey t) fun
    | none => .done .failed
    | some none => .done .invalid
    | some (some payload) => C.entomb t call payload

/-- `checkNotUsed` comes first. -/
def consume (t : String) (call : ToolCall) : Step :=
  .get (usedKey t) fun
    | none => .done .failed
    | some (some _) => .done .used
    | some none => C.burn t call

def program (i : Nat) : Request → Step
  | .issue call => C.issue i call
  | .consume t call => C.consume t call

def step (s : System) (e : Event Request String) : System := Lib.SharedStore.step C.program s e

def run (es : List (Event Request String)) : System := Lib.Run.run C.step State.init es

end Confirmer

/-! ### The invariant -/

abbrev Effects := List (Nat × Effect String Payload)

/-- Where the `i`-th call is: it has tried to write or not, and a `Consume` that goes on to a tombstone has taken the
record. -/
inductive Stage (C : Confirmer) (es : Effects) (i : Nat) : Request → Bool → Step → Prop where
  | issuing (call : ToolCall) : Stage C es i (.issue call) true (C.issue i call)
  | issued (call : ToolCall) (fresh : Bool) (r : Result) : Stage C es i (.issue call) fresh (.done r)
  | checking (t : String) (call : ToolCall) : Stage C es i (.consume t call) true (C.consume t call)
  | burning (t : String) (call : ToolCall) : Stage C es i (.consume t call) true (C.burn t call)
  | marking (t : String) (call : ToolCall) (payload : Payload) (took : (i, Effect.took (recordKey t) payload) ∈ es) :
      Stage C es i (.consume t call) true (C.entomb t call payload)
  | consumed (t : String) (call : ToolCall) (fresh : Bool) (r : Result)
      (took : r = .confirmed → (i, Effect.took (recordKey t) (.record (C.confirmRecord call))) ∈ es) :
      Stage C es i (.consume t call) fresh (.done r)

/-- What the `i`-th call may have written: a record under its token, or a tombstone for a record that it took. -/
inductive Writes (C : Confirmer) (es : Effects) (i : Nat) : Request → String → Payload → Prop where
  | record (call : ToolCall) : Writes C es i (.issue call) (recordKey (C.token i)) (.record (C.confirmRecord call))
  | tombstone (t : String) (call : ToolCall) (payload : Payload) (took : (i, Effect.took (recordKey t) payload) ∈ es) :
      Writes C es i (.consume t call) (usedKey t) .tombstone

structure Valid (C : Confirmer) (s : System) : Prop where
  ledger : Ledger s.store s.effects
  stage : ∀ i p, s.processes[i]? = some p → Stage C s.effects i p.cause p.fresh p.now
  fresh : ∀ i p, s.processes[i]? = some p → p.fresh = true → ∀ k v, (i, Effect.wrote k v) ∉ s.effects
  wrote : ∀ i k v, (i, Effect.wrote k v) ∈ s.effects → ∃ r, Started s i r ∧ Writes C s.effects i r k v

variable {m : Store String Payload}

section
variable {C : Confirmer} {s : System} {i j : Nat} {p : Process Request String Payload Result} {o : Outcome}
  {es es' : Effects} {k t : String} {v : Payload} {r : Request} {fresh : Bool} {P : Step}

theorem Stage.mono (h : Stage C es i r fresh P) (hes : ∀ e ∈ es, e ∈ es') : Stage C es' i r fresh P := by
  cases h with
  | issuing call => exact .issuing call
  | issued call fresh r => exact .issued call fresh r
  | checking t call => exact .checking t call
  | burning t call => exact .burning t call
  | marking t call payload took => exact .marking t call payload (hes _ took)
  | consumed t call fresh r took => exact .consumed t call fresh r fun hr => hes _ (took hr)

theorem Writes.mono (h : Writes C es i r k v) (hes : ∀ e ∈ es, e ∈ es') : Writes C es' i r k v := by
  cases h with
  | record call => exact .record call
  | tombstone t call payload took => exact .tombstone t call payload (hes _ took)

theorem verdict_confirmed {call : ToolCall} (h : C.verdict call v = .confirmed) : v = .record (C.confirmRecord call) := by
  cases v with
  | tombstone => cases h
  | record rec =>
    rw [Confirmer.verdict] at h
    split_ifs at h with hfor
    rw [C.isFor_iff.mp hfor]

theorem Stage.exec (h : Stage C es i r fresh P)
    (hes : ∀ e ∈ es, e ∈ es') (hnow : ∀ e ∈ (P.exec o m).2.2.1, (i, e) ∈ es') :
    Stage C es' i r (fresh && !P.writes) (P.exec o m).1 := by
  cases h with
  | issuing call => cases o <;> exact .issued call _ _
  | issued call fresh r => exact .issued call _ r
  | checking t call =>
    simp only [Confirmer.consume, Program.exec, Program.writes, Bool.not_false, Bool.and_self]
    split_ifs
    · cases hused : m (usedKey t) with
      | none => exact .burning t call
      | some payload => exact .consumed t call _ _ fun hr => by cases hr
    · exact .consumed t call _ _ fun hr => by cases hr
  | burning t call =>
    cases o with
    | ok =>
      cases hrecord : m (recordKey t) with
      | none =>
        simp only [Confirmer.burn, Program.exec, hrecord]
        exact .consumed t call _ _ fun hr => by cases hr
      | some payload =>
      have htook : (i, Effect.took (recordKey t) payload) ∈ es' := by
        refine hnow _ ?_
        simp only [Confirmer.burn, Program.exec, hrecord, taken, mem_singleton]
      simp only [Confirmer.burn, Program.exec, hrecord]
      exact .marking t call payload htook
    | lost => exact .consumed t call _ _ fun hr => by cases hr
    | failed => exact .consumed t call _ _ fun hr => by cases hr
  | marking t call payload took =>
    cases o with
    | ok =>
      refine .consumed t call _ _ fun hr => ?_
      rw [← verdict_confirmed hr]
      exact hes _ took
    | lost => exact .consumed t call _ _ fun hr => by cases hr
    | failed => exact .consumed t call _ _ fun hr => by cases hr
  | consumed t call fresh r took => exact .consumed t call _ r fun hr => hes _ (took hr)

theorem Stage.wrote (h : Stage C es i r fresh P) (hw : Effect.wrote k v ∈ (P.exec o m).2.2.1) :
    fresh = true ∧ P.writes = true ∧ Writes C es i r k v := by
  cases h with
  | issuing call =>
    have hkv : k = recordKey (C.token i) ∧ v = .record (C.confirmRecord call) := by
      cases o with
      | ok | lost => simpa [Confirmer.issue, Program.exec] using hw
      | failed => cases hw
    rw [hkv.1, hkv.2]
    exact ⟨rfl, rfl, .record call⟩
  | issued call fresh r => cases hw
  | checking t call => cases hw
  | burning t call =>
    cases hrecord : m (recordKey t) <;> cases o <;> simp [Confirmer.burn, Program.exec, taken, hrecord] at hw
  | marking t call payload took =>
    have hkv : k = usedKey t ∧ v = .tombstone := by
      cases o with
      | ok | lost => simpa [Confirmer.entomb, Program.exec] using hw
      | failed => cases hw
    rw [hkv.1, hkv.2]
    exact ⟨rfl, rfl, .tombstone t call payload took⟩
  | consumed t call fresh r took => cases hw

/-- What is written now was not written before: a token is new, and a record is taken once. -/
theorem Valid.unwritten (h : Valid C s) (hi : s.processes[i]? = some p) (hw : Effect.wrote k v ∈ (p.now.exec o s.store).2.2.1) :
    ∀ j w, (j, Effect.wrote k w) ∉ s.effects := by
  intro j w hj
  obtain ⟨hfresh, -, hnow⟩ := (h.stage i p hi).wrote hw
  obtain ⟨r, hr, hpre⟩ := h.wrote j k w hj
  have hsame : i = j := by
    generalize hcause : p.cause = cause at hnow
    cases hnow with
    | record call =>
      generalize hk : recordKey (C.token i) = key at hpre
      cases hpre with
      | record call' => exact C.fresh (recordKey_inj hk)
      | tombstone t call' payload took => exact absurd hk (recordKey_ne_usedKey (C.letters i) t)
    | tombstone t call payload took =>
    generalize hk : usedKey t = key at hpre
    cases hpre with
    | record call' => exact absurd hk.symm (recordKey_ne_usedKey (C.letters j) t)
    | tombstone t' call' payload' took' =>
      rw [usedKey_inj hk] at took
      exact (h.ledger.took_unique i j _ _ _ took took').1
  exact h.fresh i p hi hfresh k w (hsame ▸ hj)

theorem Valid.advanced (h : Valid C s) (hi : s.processes[i]? = some p) (o : Outcome) : Valid C (s.advanced i p o) := by
  have hstage := h.stage i p hi
  have hmono : ∀ e ∈ s.effects, e ∈ (s.advanced i p o).effects := fun e he => mem_effects_advanced.mpr (.inl he)
  refine ⟨h.ledger.exec i o fun k v hw => h.unwritten hi hw, ?_, ?_, ?_⟩
  · intro j q hq
    rcases processes_advanced_cases hi hq with ⟨rfl, rfl⟩ | ⟨-, hold⟩
    · exact hstage.exec hmono fun e he => mem_effects_advanced.mpr (.inr ⟨rfl, he⟩)
    · exact (h.stage j q hold).mono hmono
  · intro j q hq hfresh k v hw
    rcases processes_advanced_cases hi hq with ⟨rfl, rfl⟩ | ⟨hj, hold⟩
    · simp only [Process.exec, Bool.and_eq_true, Bool.not_eq_true'] at hfresh
      rcases mem_effects_advanced.mp hw with hpre | ⟨-, hnow⟩
      · exact h.fresh j p hi hfresh.1 k v hpre
      · rw [(hstage.wrote hnow).2.1] at hfresh
        cases hfresh.2
    · rcases mem_effects_advanced.mp hw with hpre | ⟨hji, -⟩
      · exact h.fresh j q hold hfresh k v hpre
      · exact hj hji
  · intro j k v hw
    rcases mem_effects_advanced.mp hw with hpre | ⟨rfl, hnow⟩
    · obtain ⟨r, hr, hwrite⟩ := h.wrote j k v hpre
      exact ⟨r, hr.advanced hi, hwrite.mono hmono⟩
    · exact ⟨p.cause, started_self_advanced hi, (hstage.wrote hnow).2.2.mono hmono⟩

theorem processes_start (C : Confirmer) (s : System) (r : Request) (hi : (C.step s (.start r)).processes[i]? = some p) :
    s.processes[i]? = some p ∨ i = s.processes.length ∧ p = ⟨r, [], true, C.program i r⟩ := by
  replace hi : (s.processes ++ [⟨r, [], true, C.program s.processes.length r⟩])[i]? = some p := hi
  rcases Nat.lt_trichotomy i s.processes.length with hlt | rfl | hgt
  · rw [List.getElem?_append_left hlt] at hi
    exact .inl hi
  · rw [List.getElem?_concat_length] at hi
    exact .inr ⟨rfl, (Option.some.inj hi).symm⟩
  · rw [List.getElem?_eq_none (by rw [length_append, length_singleton]; omega)] at hi
    cases hi

theorem started_start (h : Started s i r) (C : Confirmer) (r' : Request) : Started (C.step s (.start r')) i r := by
  obtain ⟨p, hp, hcause⟩ := h
  refine ⟨p, ?_, hcause⟩
  have hlt := (List.getElem?_eq_some_iff.mp hp).1
  show (s.processes ++ [_])[i]? = some p
  rw [List.getElem?_append_left hlt, hp]

theorem Stage.program (C : Confirmer) (i : Nat) (r : Request) : Stage C es i r true (C.program i r) := by
  cases r with
  | issue call => exact .issuing call
  | consume t call => exact .checking t call

/-- **Step lemma.** -/
theorem Valid.step (h : Valid C s) (e : Event Request String) : Valid C (C.step s e) := by
  cases e with
  | start r =>
    refine ⟨h.ledger, ?_, ?_, ?_⟩
    · intro i p hi
      rcases processes_start C s r hi with hold | ⟨rfl, rfl⟩
      · exact h.stage i p hold
      · exact .program C _ r
    · intro i p hi hfresh k v hw
      rcases processes_start C s r hi with hold | ⟨rfl, rfl⟩
      · exact h.fresh i p hold hfresh k v hw
      · -- a call that has not started has written nothing
        obtain ⟨_, ⟨q, hq, -⟩, -⟩ := h.wrote _ k v hw
        exact absurd (List.getElem?_eq_some_iff.mp hq).1 (Nat.lt_irrefl _)
    · intro i k v hw
      obtain ⟨r', hr', hwrite⟩ := h.wrote i k v hw
      exact ⟨r', started_start hr' C r, hwrite⟩
  | advance i o =>
    simp only [Confirmer.step, Lib.SharedStore.step]
    cases hi : s.processes[i]? with
    | none => exact h
    | some p => exact h.advanced hi o
  | vanish k => exact ⟨h.ledger.vanish k, h.stage, h.fresh, h.wrote⟩

theorem valid_run (C : Confirmer) (es : List (Event Request String)) : Valid C (C.run es) := by
  refine run_invariant _ (motive := Valid C) (fun s e h => h.step e) es _ ⟨ledger_init, ?_, ?_, ?_⟩
  all_goals simp [State.init]
end

/-! ### Spent once -/

/-- The `i`-th call is a `Consume` that returned nil. -/
def Confirmed (s : System) (i : Nat) (t : String) (call : ToolCall) : Prop :=
  ∃ p, s.processes[i]? = some p ∧ p.cause = .consume t call ∧ p.now.result? = some .confirmed

/-- The arguments that the calls of a run are for. -/
def argsOf (es : List (Event Request String)) : List (List UInt8) :=
  es.filterMap fun
    | .start (.issue call) => some call.args
    | .start (.consume _ call) => some call.args
    | _ => none

section
variable {C : Confirmer} {s : System} {i j : Nat} {t : String} {call call' : ToolCall} {es : List (Event Request String)}

section
variable (h : Valid C s) (hi : Confirmed s i t call)
include h hi

theorem Confirmed.took : (i, Effect.took (recordKey t) (.record (C.confirmRecord call))) ∈ s.effects := by
  obtain ⟨p, hp, hcause, hres⟩ := hi
  have hstage := h.stage i p hp
  rw [hcause, Program.eq_done_of_result? hres] at hstage
  generalize p.fresh = fresh at hstage
  cases hstage with
  | consumed t call fresh r took => exact took rfl

theorem confirmed_unique (hj : Confirmed s j t call') : i = j :=
  (h.ledger.took_unique i j _ _ _ (hi.took h) (hj.took h)).1

theorem confirmed_issued :
    ∃ n call', t = C.token n ∧ Started s n (.issue call') ∧ C.confirmRecord call' = C.confirmRecord call := by
  obtain ⟨n, hn⟩ := h.ledger.took_wrote _ _ _ (hi.took h)
  obtain ⟨r, hr, hwrite⟩ := h.wrote n _ _ hn
  generalize hk : recordKey t = key at hwrite
  generalize hv : Payload.record (C.confirmRecord call) = payload at hwrite
  cases hwrite with
  | record call' => exact ⟨n, call', recordKey_inj hk, hr, (Payload.record.inj hv).symm⟩
  | tombstone t' call' payload took => cases hv
end

theorem effects_mono (C : Confirmer) (es : List (Event Request String)) (s : System) :
    ∀ e ∈ s.effects, e ∈ (Lib.Run.run C.step s es).effects := by
  intro e he
  refine run_invariant C.step (motive := fun s => e ∈ s.effects) ?_ es s he
  intro s' ev hs'
  cases ev with
  | start r => exact hs'
  | vanish k => exact hs'
  | advance i o =>
  simp only [Confirmer.step, Lib.SharedStore.step]
  cases hi : s'.processes[i]? with
  | none => exact hs'
  | some p => exact mem_append_left _ hs'

theorem start_mem (C : Confirmer) (es : List (Event Request String)) :
    ∀ (i : Nat) p, (C.run es).processes[i]? = some p → Event.start p.cause ∈ es := by
  have hstep : ∀ s e, (∀ (i : Nat) p, s.processes[i]? = some p → Event.start p.cause ∈ es) → e ∈ es →
      ∀ (i : Nat) p, (C.step s e).processes[i]? = some p → Event.start p.cause ∈ es := ?_
  · exact run_invariant_on C.step hstep es _ (by simp [State.init]) fun _ he => he
  intro s e hs he i p hi
  cases e with
  | start r =>
    rcases processes_start C s r hi with hold | ⟨rfl, rfl⟩
    · exact hs i p hold
    · exact he
  | advance n o =>
    simp only [Confirmer.step, Lib.SharedStore.step] at hi
    cases hn : s.processes[n]? with
    | none =>
      rw [hn] at hi
      exact hs i p hi
    | some q =>
    simp only [hn] at hi
    replace hi : (s.advanced n q o).processes[i]? = some p := hi
    rw [processes_advanced hn] at hi
    split_ifs at hi with hin
    · rw [← Option.some.inj hi]
      exact hs n q hn
    · exact hs i p hi
  | vanish k => exact hs i p hi

theorem took_before (h : Valid C s) {k : String} (hwrote : ∃ n v, (n, Effect.wrote k v) ∈ s.effects)
    (hgone : s.store k = none) (es : List (Event Request String)) :
    ∀ i v, (i, Effect.took k v) ∈ (Lib.Run.run C.step s es).effects → (i, Effect.took k v) ∈ s.effects := by
  refine (run_invariant C.step
    (motive := fun s' => Valid C s' ∧ (∃ n v, (n, Effect.wrote k v) ∈ s'.effects) ∧ s'.store k = none ∧
      ∀ i v, (i, Effect.took k v) ∈ s'.effects → (i, Effect.took k v) ∈ s.effects) ?_ es s
    ⟨h, hwrote, hgone, fun _ _ hi => hi⟩).2.2.2
  rintro s' e ⟨hs', ⟨n, v, hn⟩, hnone, hpre⟩
  refine ⟨hs'.step e, ?_⟩
  cases e with
  | start r => exact ⟨⟨n, v, hn⟩, hnone, hpre⟩
  | vanish k' =>
    refine ⟨⟨n, v, hn⟩, ?_, hpre⟩
    show s'.store.erase k' k = none
    rw [Store.erase]
    split_ifs
    · rfl
    · exact hnone
  | advance i o =>
  simp only [Confirmer.step, Lib.SharedStore.step]
  cases hi : s'.processes[i]? with
  | none => exact ⟨⟨n, v, hn⟩, hnone, hpre⟩
  | some p =>
  refine ⟨⟨n, v, mem_effects_advanced.mpr (.inl hn)⟩, ?_, ?_⟩
  · exact Program.absent_of_unwritten hnone fun w hw => hs'.unwritten hi hw n v hn
  intro i' w hw
  rcases mem_effects_advanced.mp hw with hold | ⟨-, hnow⟩
  · exact hpre i' w hold
  · rw [Program.found_of_took hnow] at hnone
    cases hnone

/-- The `j`-th call is about to take the record of `t`, which was issued. -/
def Reaches (C : Confirmer) (s : System) (j : Nat) (t : String) : Prop :=
  (∃ p call, s.processes[j]? = some p ∧ p.now = C.burn t call) ∧ ∃ n v, (n, Effect.wrote (recordKey t) v) ∈ s.effects

theorem confirmed_before {pre post : List (Event Request String)} {o : Outcome} (ho : o ≠ .failed)
    (hreaches : Reaches C (C.run pre) j t) (hi : Confirmed (C.run (pre ++ .advance j o :: post)) i t call) :
    i = j ∨ ∃ v, (i, Effect.took (recordKey t) v) ∈ (C.run pre).effects := by
  have hrun : C.run (pre ++ .advance j o :: post) = Lib.Run.run C.step (C.run pre) (.advance j o :: post) :=
    run_append ..
  have hvalid := valid_run C (pre ++ .advance j o :: post)
  have htook := hi.took hvalid
  obtain ⟨⟨p, call', hp, hnow⟩, hwrote⟩ := hreaches
  cases hrecord : (C.run pre).store (recordKey t) with
  | none =>
    rw [hrun] at htook
    exact .inr ⟨_, took_before (valid_run C pre) hwrote hrecord _ _ _ htook⟩
  | some v =>
  left
  have hnew : (j, Effect.took (recordKey t) v) ∈ (C.step (C.run pre) (.advance j o)).effects := by
    simp only [Confirmer.step, Lib.SharedStore.step, hp, hnow, Confirmer.burn, Program.exec, hrecord, taken]
    refine mem_append_right _ ?_
    cases o with
    | ok | lost => exact mem_singleton.mpr rfl
    | failed => exact absurd rfl ho
  have hlater : (j, Effect.took (recordKey t) v) ∈ (C.run (pre ++ .advance j o :: post)).effects := by
    rw [hrun]
    exact effects_mono C post _ _ hnew
  exact (hvalid.ledger.took_unique i j _ _ _ htook hlater).1

/-! ### Tombstones -/

/-- The `Consume` that took the record of `t` leaves the tombstone, which is the last it does. -/
def Entombs (C : Confirmer) (s : System) (e : Event Request String) (t : String) : Prop :=
  ∃ j o p call payload, e = .advance j o ∧ o ≠ .failed ∧ s.processes[j]? = some p ∧ p.now = C.entomb t call payload

/-- No `Consume` takes a tombstone for a record, as it does for a token that is another one with `:used` behind it. -/
def Orderly (C : Confirmer) (s : System) : Event Request String → Prop
  | .advance i _ => ∀ p t u call, s.processes[i]? = some p → p.now = C.burn t call → t = u ++ ":used" →
      s.store (usedKey u) ≠ some .tombstone
  | _ => True

theorem Stage.keeps_tombstone {o : Outcome} {es : Effects} {r : Request} {fresh : Bool} {P : Step}
    (h : Stage C es i r fresh P) (hu : m (usedKey u) = some .tombstone)
    (horderly : ∀ t call, P = C.burn t call → t ≠ u ++ ":used") : (P.exec o m).2.1 (usedKey u) = some .tombstone := by
  cases h with
  | issuing call =>
    have hne : usedKey u ≠ recordKey (C.token i) := (recordKey_ne_usedKey (C.letters i) u).symm
    cases o with
    | ok | lost =>
      show m.insert _ _ (usedKey u) = _
      rw [Store.insert, if_neg hne, hu]
    | failed => exact hu
  | issued call fresh r => exact hu
  | checking t call => exact hu
  | burning t call =>
    have hne : usedKey u ≠ recordKey t := by
      rw [usedKey_eq]
      intro h
      exact horderly t call rfl (recordKey_inj h).symm
    cases o with
    | ok | lost =>
      show m.erase _ (usedKey u) = _
      rw [Store.erase, if_neg hne, hu]
    | failed => exact hu
  | marking t call payload took =>
    cases o with
    | ok | lost =>
      show m.insert _ _ (usedKey u) = _
      rw [Store.insert]
      split_ifs
      · rfl
      · exact hu
    | failed => exact hu
  | consumed t call fresh r took => exact hu

variable {e : Event Request String}

theorem tombstone_step (h : Valid C s) (horderly : Orderly C s e)
    (hu : s.store (usedKey u) = some .tombstone) (hlives : e ≠ .vanish (usedKey u)) :
    (C.step s e).store (usedKey u) = some .tombstone := by
  cases e with
  | start r => exact hu
  | vanish k =>
    show s.store.erase k (usedKey u) = _
    rw [Store.erase, if_neg ?_, hu]
    rintro rfl
    exact hlives rfl
  | advance i o =>
  simp only [Confirmer.step, Lib.SharedStore.step]
  cases hi : s.processes[i]? with
  | none => exact hu
  | some p =>
    refine (h.stage i p hi).keeps_tombstone hu ?_
    intro t call hnow ht
    exact horderly p t u call hi hnow ht hu

/-- Where the tombstone is, a call that looks for it finds that the token is used. -/
theorem consume_step {i₀ : Nat} (hu : s.store (usedKey t) = some .tombstone)
    (hok : ∀ o, e = .advance i₀ o → o = .ok)
    (hsame : ∀ p call, s.processes[i₀]? = some p → p.cause = .consume t call →
      p.now = C.consume t call ∨ p.now = .done .used)
    (p : Process Request String Payload Result) (call : ToolCall) (hp : (C.step s e).processes[i₀]? = some p)
    (hcause : p.cause = .consume t call) : p.now = C.consume t call ∨ p.now = .done .used := by
  cases e with
  | start r =>
    rcases processes_start C s r hp with hold | ⟨rfl, rfl⟩
    · exact hsame p call hold hcause
    · replace hcause : r = .consume t call := hcause
      subst hcause
      exact .inl rfl
  | vanish k => exact hsame p call hp hcause
  | advance i o =>
  simp only [Confirmer.step, Lib.SharedStore.step] at hp
  cases hi : s.processes[i]? with
  | none =>
    rw [hi] at hp
    exact hsame p call hp hcause
  | some q =>
  simp only [hi] at hp
  replace hp : (s.advanced i q o).processes[i₀]? = some p := hp
  rw [processes_advanced hi] at hp
  split_ifs at hp with hii
  · subst hii
    obtain rfl := hok o rfl
    obtain rfl := Option.some.inj hp
    right
    rcases hsame q call hi hcause with hnow | hnow
    · show (q.now.exec .ok s.store).1 = _
      rw [hnow]
      simp only [Confirmer.consume, Program.exec, if_true, hu]
    · show (q.now.exec .ok s.store).1 = _
      rw [hnow]
      rfl
  · exact hsame p call hp hcause
end

/-- There is a tombstone, and the `i`-th call, if it is a `Consume` of the token, has not looked for it or has found it. -/
structure Waits (C : Confirmer) (i : Nat) (t : String) (s : System) : Prop where
  valid : Valid C s
  stored : s.store (usedKey t) = some .tombstone
  unread : ∀ p call, s.processes[i]? = some p → p.cause = .consume t call → p.now = C.consume t call ∨ p.now = .done .used

/-! ### The two halves -/

/-- A token confirms one call, the one it was issued for, and none whose `Consume` reaches the store after another did. -/
structure SpentOnce (C : Confirmer) (es : List (Event Request String)) : Prop where
  once : ∀ i j t call call', Confirmed (C.run es) i t call → Confirmed (C.run es) j t call' → i = j
  bound : ∀ i t call, Confirmed (C.run es) i t call → ∃ n, t = C.token n ∧ Started (C.run es) n (.issue call)
  first : ∀ pre j o post, es = pre ++ .advance j o :: post → o ≠ .failed → ∀ t, Reaches C (C.run pre) j t →
    ∀ i call, Confirmed (C.run es) i t call → i = j ∨ ∃ v, (i, Effect.took (recordKey t) v) ∈ (C.run pre).effects

/-- A `Consume` that starts after the tombstone was left, and while it has not expired, returns that the token is used. -/
def ReportsUsed (C : Confirmer) (es : List (Event Request String)) : Prop :=
  ∀ pre e post t, es = pre ++ e :: post → Entombs C (C.run pre) e t → Event.vanish (usedKey t) ∉ post →
    ∀ (i : Nat) p call r, (C.run es).processes[i]? = some p → (C.run pre).processes.length ≤ i → p.cause = .consume t call →
      (∀ o, Event.advance i o ∈ post → o = .ok) → p.now.result? = some r → r = .used

theorem spentOnce_run (C : Confirmer) (es : List (Event Request String))
    (hsha : ∀ a ∈ argsOf es, ∀ b ∈ argsOf es, C.argsHash a = C.argsHash b → a = b) : SpentOnce C es := by
  have h := valid_run C es
  refine ⟨fun i j t call call' hi hj => confirmed_unique h hi hj, ?_, ?_⟩
  · intro i t call hi
    obtain ⟨n, call', ht, hn, hrecord⟩ := confirmed_issued h hi
    refine ⟨n, ht, ?_⟩
    obtain ⟨q, hq, hcause⟩ := hn
    obtain ⟨p, hp, hconsume, -⟩ := hi
    have hissue := start_mem C es n q hq
    have hstart := start_mem C es i p hp
    rw [hcause] at hissue
    rw [hconsume] at hstart
    rw [Confirmer.confirmRecord, Confirmer.confirmRecord, ConfirmRecord.mk.injEq] at hrecord
    have hargs : call'.args = call.args :=
      hsha _ (mem_filterMap.mpr ⟨_, hissue, rfl⟩) _ (mem_filterMap.mpr ⟨_, hstart, rfl⟩) hrecord.2.2
    have hsame : call' = call := by
      cases call'
      cases call
      simp only [ToolCall.mk.injEq]
      exact ⟨hrecord.1, hrecord.2.1, hargs⟩
    exact ⟨q, hq, hsame ▸ hcause⟩
  · rintro pre j o post rfl ho t hreaches i call hi
    exact confirmed_before ho hreaches hi

theorem reportsUsed_run (C : Confirmer) (es : List (Event Request String))
    (horderly : Guarded C.step (Orderly C) State.init es) : ReportsUsed C es := by
  rintro pre e post t rfl ⟨j, o, q, call', payload, rfl, ho, hq, hnow⟩ hlives i p call r hp hi hcause hok hres
  have hrun : C.run (pre ++ .advance j o :: post) = Lib.Run.run C.step (C.step (C.run pre) (.advance j o)) post :=
    run_append ..
  have hguard : Guarded C.step (Orderly C) (C.step (C.run pre) (.advance j o)) post := (guarded_append.mp horderly).2.2
  have hadvanced : C.step (C.run pre) (.advance j o) = (C.run pre).advanced j q o := by
    simp only [Confirmer.step, Lib.SharedStore.step, hq]
    rfl
  have hentombed : (C.step (C.run pre) (.advance j o)).store (usedKey t) = some .tombstone := by
    rw [hadvanced, State.advanced, hnow]
    cases o with
    | ok | lost =>
      show Store.insert _ (usedKey t) Payload.tombstone (usedKey t) = _
      rw [Store.insert, if_pos rfl]
    | failed => exact absurd rfl ho
  have hlate : ∀ p, (C.step (C.run pre) (.advance j o)).processes[i]? ≠ some p := by
    intro p hp
    rw [hadvanced] at hp
    have hlt := (List.getElem?_eq_some_iff.mp hp).1
    rw [State.advanced, length_set] at hlt
    omega
  have hstep : ∀ s e, Waits C i t s → e ∈ post → Orderly C s e → Waits C i t (C.step s e) := by
    rintro s e ⟨hs, hu, hsame⟩ he ho
    refine ⟨hs.step e, tombstone_step hs ho hu fun hv => hlives (hv ▸ he), ?_⟩
    exact fun p call hp hcause => consume_step hu (fun o heq => hok o (heq ▸ he)) hsame p call hp hcause
  have hend := guarded_invariant_on hstep
    ⟨(valid_run C pre).step _, hentombed, fun p _ hp => absurd hp (hlate p)⟩ (fun _ he => he) hguard
  rcases hend.unread p call (by rw [← hrun]; exact hp) hcause with hnow | hnow
  · rw [hnow] at hres
    cases hres
  · rw [hnow] at hres
    exact (Option.some.inj hres).symm

/-- **A token is spent once**, in every run, where no two of the arguments have the same hash; and in every orderly run it
is reported as used from then on. -/
theorem confirmation_spent_once (C : Confirmer) (es : List (Event Request String))
    (hsha : ∀ a ∈ argsOf es, ∀ b ∈ argsOf es, C.argsHash a = C.argsHash b → a = b) :
    SpentOnce C es ∧ (Guarded C.step (Orderly C) State.init es → ReportsUsed C es) :=
  ⟨spentOnce_run C es hsha, reportsUsed_run C es⟩

/-! ### A replay -/

section

/-- Tokens that are told apart by their length, and the hash of `{}` that every call here is for. -/
def shop : Confirmer where
  token i := String.ofList (List.replicate (i + 1) 'x')
  fresh := Lib.Text.marks_injective
  letters i := by
    rw [String.toList_ofList, List.mem_replicate]
    rintro ⟨-, h⟩
    exact absurd h (by decide)
  argsHash _ := "44136fa355b3678a1146ad16f7e8649e94fb4fc21fe77e8310c060f61caaff8a"

def rollback : ToolCall := { principal := "ada", tool := "rollback_release", args := [123, 125] }

/-- A token is issued and consumed, and presented again. -/
def spent : List (Event Request String) :=
  [.start (.issue rollback), .advance 0 .ok, .start (.consume "x" rollback), .advance 1 .ok, .advance 1 .ok, .advance 1 .ok]

def again (i : Nat) : List (Event Request String) := [.start (.consume "x" rollback), .advance i .ok, .advance i .ok]

/-- The token with `:used` behind it, whose record is the tombstone. -/
def takesTombstone : List (Event Request String) :=
  [.start (.consume "x:used" rollback), .advance 2 .ok, .advance 2 .ok, .advance 2 .ok]

theorem confirmation_spent_once_shop : SpentOnce shop (spent ++ again 2) ∧
      (Guarded shop.step (Orderly shop) State.init (spent ++ again 2) → ReportsUsed shop (spent ++ again 2)) :=
  confirmation_spent_once shop (spent ++ again 2) (by decide)

/-- After that a token that was used is reported as one that never was. -/
theorem used_is_forgotten : ¬ReportsUsed shop (spent ++ takesTombstone ++ again 3) := by
  intro h
  have hused := h (spent.take 5) (.advance 1 .ok) (takesTombstone ++ again 3) "x" rfl
    ⟨1, .ok, _, rollback, _, rfl, by decide, rfl, rfl⟩ (by simp [takesTombstone, again]) 3 _ rollback .invalid rfl (by decide) rfl
    ?_ rfl
  · cases hused
  · intro o ho
    revert ho
    simp [takesTombstone, again]
end

end Paprika.Mcp
