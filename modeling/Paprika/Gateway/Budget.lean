import Mathlib.Data.Finset.Insert
import Mathlib.Data.Fintype.Defs
import Paprika.Lib.Run
import Paprika.Lib.Semaphore

/-!
# The work budget of the gateway

`budget.go`: a query takes a place among the admitted ones, then a slot of its provider and then one of all, waiting for each
in a bounded queue, and gives them back when it is done, or when it fails on the way.

* `advance` — the next atomic operation of a query: a channel operation, a section under the mutex, or a look at its context;
* `Event`, `step` — any number of queries in any order, with contexts that end at any time;
* `Exact` — every channel has as many elements as queries hold a slot of it; `exact_step` keeps it;
* **`budget_exact`** — the limits, the provider's slots, failed and finished queries.
-/

namespace Paprika.Gateway

open Lib Lib.Run Lib.Semaphore List Option Function Bool

/-! ### Queries -/

/-- Which slot a query waits for. -/
inductive Level where
  | provider
  | global
  deriving DecidableEq

instance : Fintype Level := ⟨{.provider, .global}, fun l => by cases l <;> decide⟩

/-- The next operation of a query.  In `waitForQuerySlot` it takes the slot at once or waits in the queue, which it leaves
with the slot or without; then it executes; and it gives back what it has, to fail or because it is done. -/
inductive Pc where
  | entered
  | admitting
  | enrolling
  | checking (l : Level)
  | trying (l : Level)
  | confirming (l : Level)
  | queueing (l : Level)
  | queued (l : Level)
  | confirmingQueued (l : Level)
  | backingOut (l : Level) (queued : Bool)
  | leavingQueue (l : Level) (acquired : Bool)
  | bounding
  | executing
  | releasingGlobal (failing : Bool)
  | releasingProvider (failing : Bool)
  | unenrolling (failing : Bool)
  | unadmitting (failing : Bool)
  | failed
  | released
  deriving DecidableEq

/-- A query, with the number of the slots of its provider. -/
structure Query where
  provider : String
  slots : Nat
  pc : Pc

/-- The channels: of the admitted queries, and those of all queries or of the slots of a provider. -/
inductive Channel where
  | admitted
  | active (slots : Option Nat)
  | waiting (slots : Option Nat)
  deriving DecidableEq

/-- `executionBudget`.  The slots of a provider are numbered; `next` is the number of the next ones. -/
structure Budget where
  channel : Channel → Semaphore
  refs : Nat → Nat
  providers : String → Option Nat
  next : Nat
  perProvider : Nat
  perProviderWaiting : Nat

def maxConcurrentQueue : Nat := 32

def maxProviderQueue : Nat := 8

/-- The concurrency that a budget is made with. -/
def concurrencyOf (concurrency : Int) : Nat := if concurrency < 1 then 1 else concurrency.toNat

def capacityOf (concurrency : Nat) : Channel → Nat
  | .admitted => concurrency + maxConcurrentQueue
  | .active none => concurrency
  | .waiting none => maxConcurrentQueue
  | .active (some _) => min 2 concurrency
  | .waiting (some _) => maxProviderQueue

/-- The channels of a provider that has no slots yet are those that it is going to be given. -/
def newExecutionBudget (concurrency : Int) : Budget where
  channel ch := make (capacityOf (concurrencyOf concurrency) ch)
  refs _ := 0
  providers _ := none
  next := 0
  perProvider := min 2 (concurrencyOf concurrency)
  perProviderWaiting := maxProviderQueue

def Budget.set (b : Budget) (ch : Channel) (s : Semaphore) : Budget :=
  { b with channel := Function.update b.channel ch s }

/-- `providerSlots`, where the provider has none: new channels. -/
def Budget.makeSlots (b : Budget) (provider : String) : Budget :=
  { b with
    channel := Function.update (Function.update b.channel (.active (some b.next)) (make b.perProvider))
      (.waiting (some b.next)) (make b.perProviderWaiting)
    refs := Function.update b.refs b.next 1
    providers := Function.update b.providers provider (some b.next)
    next := b.next + 1 }

def Budget.providerSlots (b : Budget) (provider : String) : Budget × Nat :=
  match b.providers provider with
  | none => (b.makeSlots provider, b.next)
  | some slots => ({ b with refs := Function.update b.refs slots (b.refs slots + 1) }, slots)

def Budget.releaseProvider (b : Budget) (provider : String) (slots : Nat) : Budget :=
  { b with
    refs := Function.update b.refs slots (b.refs slots - 1)
    providers := if b.refs slots - 1 = 0 then Function.update b.providers provider none else b.providers }

namespace Query

variable (q : Query)

def activeChannel : Level → Channel
  | .provider => .active (some q.slots)
  | .global => .active none

def waitingChannel : Level → Channel
  | .provider => .waiting (some q.slots)
  | .global => .waiting none

/-- `waitForQuerySlot` has got the slot. -/
def acquired : Level → Pc
  | .provider => .checking .global
  | .global => .bounding

/-- `waitForQuerySlot` has failed. -/
def refused : Level → Pc
  | .provider => .unenrolling true
  | .global => .releasingProvider true

/-- A send that does not wait. -/
def trySend (b : Budget) (ch : Channel) (sent full : Pc) : Budget × Pc :=
  match (b.channel ch).take with
  | some s => (b.set ch s, sent)
  | none => (b, full)

/-- A receive; it waits where there is nothing. -/
def receive (b : Budget) (ch : Channel) (received : Pc) : Budget × Pc :=
  match (b.channel ch).give with
  | some s => (b.set ch s, received)
  | none => (b, q.pc)

/-- The next operation; `ended` says what it finds of the context, and which case it takes where it could take both. -/
def advance (b : Budget) (ended : Bool) : Budget × Query :=
  let move (x : Budget × Pc) : Budget × Query := (x.1, { q with pc := x.2 })
  match q.pc with
  | .entered => (b, { q with pc := if ended then .failed else .admitting })
  | .admitting => move (trySend b .admitted .enrolling .failed)
  | .enrolling => ((b.providerSlots q.provider).1, { q with slots := (b.providerSlots q.provider).2, pc := .checking .provider })
  | .checking l => (b, { q with pc := if ended then refused l else .trying l })
  | .trying l => move (trySend b (q.activeChannel l) (.confirming l) (.queueing l))
  | .confirming l => (b, { q with pc := if ended then .backingOut l false else acquired l })
  | .queueing l => move (trySend b (q.waitingChannel l) (.queued l) (refused l))
  | .queued l =>
    if ended then (b, { q with pc := .leavingQueue l false })
    else move (trySend b (q.activeChannel l) (.confirmingQueued l) (.queued l))
  | .confirmingQueued l => (b, { q with pc := if ended then .backingOut l true else .leavingQueue l true })
  | .backingOut l queued => move (q.receive b (q.activeChannel l) (if queued then .leavingQueue l false else refused l))
  | .leavingQueue l got => move (q.receive b (q.waitingChannel l) (if got then acquired l else refused l))
  | .bounding => (b, { q with pc := if ended then .releasingGlobal true else .executing })
  | .executing => (b, q)
  | .releasingGlobal failing => move (q.receive b (.active none) (.releasingProvider failing))
  | .releasingProvider failing => move (q.receive b (.active (some q.slots)) (.unenrolling failing))
  | .unenrolling failing => (b.releaseProvider q.provider q.slots, { q with pc := .unadmitting failing })
  | .unadmitting failing => move (q.receive b .admitted (if failing then .failed else .released))
  | .failed => (b, q)
  | .released => (b, q)

end Query

/-! ### Any number of queries -/

structure State where
  budget : Budget
  queries : List Query

/-- A call of `begin`, the next operation of a query, and a call of the function that `begin` has returned. -/
inductive Event where
  | start (provider : String)
  | advance (i : Nat) (ended : Bool)
  | release (i : Nat)

def initial (concurrency : Int) : State := { budget := newExecutionBudget concurrency, queries := [] }

def step (s : State) : Event → State
  | .start provider => { s with queries := s.queries ++ [{ provider := provider, slots := 0, pc := .entered }] }
  | .advance i ended =>
    match s.queries[i]? with
    | none => s
    | some q => { budget := (q.advance s.budget ended).1, queries := s.queries.set i (q.advance s.budget ended).2 }
  | .release i =>
    match s.queries[i]? with
    | none => s
    | some q => if q.pc = .executing then { s with queries := s.queries.set i { q with pc := .releasingGlobal false } } else s

/-! ### What a query holds -/

namespace Pc

/-- It holds a slot of its provider, or one of all. -/
def active (l : Level) : Pc → Bool
  | .checking m | .trying m | .queueing m | .queued m | .leavingQueue m false => l == .provider && m == .global
  | .confirming m | .confirmingQueued m | .backingOut m _ | .leavingQueue m true => l == m || l == .provider
  | .bounding | .executing | .releasingGlobal _ => true
  | .releasingProvider _ => l == .provider
  | _ => false

def waiting (l : Level) : Pc → Bool
  | .queued m | .confirmingQueued m | .backingOut m true | .leavingQueue m _ => l == m
  | _ => false

/-- It counts among the references to the slots of its provider. -/
def enrolled : Pc → Bool
  | .entered | .admitting | .enrolling | .unadmitting _ | .failed | .released => false
  | _ => true

def admitted : Pc → Bool
  | .entered | .admitting | .failed | .released => false
  | _ => true

end Pc

def holds : Channel → Query → Bool
  | .admitted, q => q.pc.admitted
  | .active none, q => q.pc.active .global
  | .active (some slots), q => q.slots == slots && q.pc.active .provider
  | .waiting none, q => q.pc.waiting .global
  | .waiting (some slots), q => q.slots == slots && q.pc.waiting .provider

def refers (slots : Nat) (q : Query) : Bool := q.slots == slots && q.pc.enrolled

/-! ### What one operation does -/

section
variable {q : Query} {old new : Pc} {l : Level}

/-- What a query holds besides one kind of slots. -/
structure SameBut (old new : Pc) (active waiting : Option Level) (admitted : Bool) : Prop where
  active : ∀ l, some l ≠ active → new.active l = old.active l
  waiting : ∀ l, some l ≠ waiting → new.waiting l = old.waiting l
  admitted : admitted = false → new.admitted = old.admitted

theorem holds_of_sameBut {a w : Option Level} {adm : Bool} (h : SameBut q.pc new a w adm) {ch : Channel}
    (ha : ∀ l, a = some l → ch ≠ q.activeChannel l) (hw : ∀ l, w = some l → ch ≠ q.waitingChannel l)
    (hadm : adm = true → ch ≠ .admitted) : holds ch { q with pc := new } = holds ch q := by
  rcases ch with - | slots | slots
  · refine h.admitted ?_
    cases adm with
    | false => rfl
    | true => exact absurd rfl (hadm rfl)
  · cases slots with
    | none => exact h.active .global fun hl => ha .global hl.symm rfl
    | some slots =>
    by_cases hslots : q.slots = slots
    · subst hslots
      have hsame := h.active .provider fun hl => ha .provider hl.symm rfl
      simp only [holds, hsame]
    · have hne : (q.slots == slots) = false := beq_false_of_ne hslots
      simp only [holds, hne, Bool.false_and]
  · cases slots with
    | none => exact h.waiting .global fun hl => hw .global hl.symm rfl
    | some slots =>
    by_cases hslots : q.slots = slots
    · subst hslots
      have hsame := h.waiting .provider fun hl => hw .provider hl.symm rfl
      simp only [holds, hsame]
    · have hne : (q.slots == slots) = false := beq_false_of_ne hslots
      simp only [holds, hne, Bool.false_and]

theorem holds_activeChannel (q : Query) (l : Level) : holds (q.activeChannel l) q = q.pc.active l := by
  cases l with
  | provider =>
    show (q.slots == q.slots && _) = _
    rw [beq_self_eq_true, Bool.true_and]
  | global => rfl

theorem holds_waitingChannel (q : Query) (l : Level) : holds (q.waitingChannel l) q = q.pc.waiting l := by
  cases l with
  | provider =>
    show (q.slots == q.slots && _) = _
    rw [beq_self_eq_true, Bool.true_and]
  | global => rfl
end

/-- What a query does that stays with the slots of its provider: nothing, a slot taken, or a slot given back. -/
inductive Keeps (b : Budget) (q : Query) (new : Pc) : Budget → Prop where
  | stay (hsame : ∀ ch, holds ch { q with pc := new } = holds ch q) : Keeps b q new b
  | take (ch : Channel) (s : Semaphore) (htake : (b.channel ch).take = some s) (hold : holds ch q = false)
      (hnew : holds ch { q with pc := new } = true) (hother : ∀ ch' ≠ ch, holds ch' { q with pc := new } = holds ch' q) :
      Keeps b q new (b.set ch s)
  | give (ch : Channel) (s : Semaphore) (hgive : (b.channel ch).give = some s) (hold : holds ch q = true)
      (hnew : holds ch { q with pc := new } = false) (hother : ∀ ch' ≠ ch, holds ch' { q with pc := new } = holds ch' q) :
      Keeps b q new (b.set ch s)

/-- What a query does: it keeps to its slots, gets those of its provider, or leaves them. -/
inductive Move (b : Budget) (q : Query) : Budget × Query → Prop where
  | keeps (new : Pc) (b' : Budget) (hkeeps : Keeps b q new b') (henrolled : new.enrolled = q.pc.enrolled) :
      Move b q (b', { q with pc := new })
  | enroll (hpc : q.pc = .enrolling) :
      Move b q ((b.providerSlots q.provider).1,
        { q with slots := (b.providerSlots q.provider).2, pc := .checking .provider })
  | unenroll (failing : Bool) (hpc : q.pc = .unenrolling failing) :
      Move b q (b.releaseProvider q.provider q.slots, { q with pc := .unadmitting failing })

namespace Move

variable {b : Budget} {q : Query} {old sent full received : Pc} {l : Level}

theorem idle : Move b q (b, q) := .keeps q.pc b (.stay fun _ => rfl) rfl

theorem stays (hpc : q.pc = old) (h : SameBut old full none none false) (he : full.enrolled = old.enrolled) :
    Move b q (b, { q with pc := full }) := by
  subst hpc
  exact .keeps full b (.stay fun _ => holds_of_sameBut h (fun _ hl => by cases hl) (fun _ hl => by cases hl)
    (fun h => by cases h)) he

theorem sends {ch : Channel} (hold : holds ch q = false) (hnew : holds ch { q with pc := sent } = true)
    (hother : ∀ ch' ≠ ch, holds ch' { q with pc := sent } = holds ch' q)
    (hfull : Move b q (b, { q with pc := full })) (he : sent.enrolled = q.pc.enrolled) :
    Move b q ((Query.trySend b ch sent full).1, { q with pc := (Query.trySend b ch sent full).2 }) := by
  rw [Query.trySend]
  cases htake : (b.channel ch).take with
  | none => exact hfull
  | some s => exact .keeps sent (b.set ch s) (.take ch s htake hold hnew hother) he

theorem receives {ch : Channel} (hold : holds ch q = true) (hnew : holds ch { q with pc := received } = false)
    (hother : ∀ ch' ≠ ch, holds ch' { q with pc := received } = holds ch' q)
    (he : received.enrolled = q.pc.enrolled) :
    Move b q ((q.receive b ch received).1, { q with pc := (q.receive b ch received).2 }) := by
  rw [Query.receive]
  cases hgive : (b.channel ch).give with
  | none => exact .keeps q.pc b (.stay fun _ => rfl) rfl
  | some s => exact .keeps received (b.set ch s) (.give ch s hgive hold hnew hother) he

section
variable (hpc : q.pc = old)
include hpc

theorem sends_active (h : SameBut old sent (some l) none false) (hold : old.active l = false)
    (hnew : sent.active l = true) (he : sent.enrolled = old.enrolled) (hfull : Move b q (b, { q with pc := full })) :
    Move b q ((Query.trySend b (q.activeChannel l) sent full).1,
      { q with pc := (Query.trySend b (q.activeChannel l) sent full).2 }) := by
  subst hpc
  refine sends ?_ ?_ ?_ hfull he
  · rw [holds_activeChannel, hold]
  · exact (holds_activeChannel { q with pc := sent } l).trans hnew
  · intro ch' hch
    exact holds_of_sameBut h (fun m hm => by cases hm; exact hch) (fun _ hl => by cases hl) (fun h => by cases h)

theorem sends_waiting (h : SameBut old sent none (some l) false) (hold : old.waiting l = false)
    (hnew : sent.waiting l = true) (he : sent.enrolled = old.enrolled) (hfull : Move b q (b, { q with pc := full })) :
    Move b q ((Query.trySend b (q.waitingChannel l) sent full).1,
      { q with pc := (Query.trySend b (q.waitingChannel l) sent full).2 }) := by
  subst hpc
  refine sends ?_ ?_ ?_ hfull he
  · rw [holds_waitingChannel, hold]
  · exact (holds_waitingChannel { q with pc := sent } l).trans hnew
  · intro ch' hch
    exact holds_of_sameBut h (fun _ hl => by cases hl) (fun m hm => by cases hm; exact hch) (fun h => by cases h)

theorem sends_admitted (h : SameBut old sent none none true) (hold : old.admitted = false)
    (hnew : sent.admitted = true) (he : sent.enrolled = old.enrolled) (hfull : Move b q (b, { q with pc := full })) :
    Move b q ((Query.trySend b .admitted sent full).1, { q with pc := (Query.trySend b .admitted sent full).2 }) := by
  subst hpc
  refine sends hold hnew ?_ hfull he
  intro ch' hch
  exact holds_of_sameBut h (fun _ hl => by cases hl) (fun _ hl => by cases hl) (fun _ => hch)

theorem receives_active (h : SameBut old received (some l) none false) (hold : old.active l = true)
    (hnew : received.active l = false) (he : received.enrolled = old.enrolled) :
    Move b q ((q.receive b (q.activeChannel l) received).1,
      { q with pc := (q.receive b (q.activeChannel l) received).2 }) := by
  subst hpc
  refine receives ?_ ?_ ?_ he
  · rw [holds_activeChannel, hold]
  · exact (holds_activeChannel { q with pc := received } l).trans hnew
  · intro ch' hch
    exact holds_of_sameBut h (fun m hm => by cases hm; exact hch) (fun _ hl => by cases hl) (fun h => by cases h)

theorem receives_waiting (h : SameBut old received none (some l) false)
    (hold : old.waiting l = true) (hnew : received.waiting l = false) (he : received.enrolled = old.enrolled) :
    Move b q ((q.receive b (q.waitingChannel l) received).1,
      { q with pc := (q.receive b (q.waitingChannel l) received).2 }) := by
  subst hpc
  refine receives ?_ ?_ ?_ he
  · rw [holds_waitingChannel, hold]
  · exact (holds_waitingChannel { q with pc := received } l).trans hnew
  · intro ch' hch
    exact holds_of_sameBut h (fun _ hl => by cases hl) (fun m hm => by cases hm; exact hch) (fun h => by cases h)

theorem receives_admitted (h : SameBut old received none none true) (hold : old.admitted = true)
    (hnew : received.admitted = false) (he : received.enrolled = old.enrolled) :
    Move b q ((q.receive b .admitted received).1, { q with pc := (q.receive b .admitted received).2 }) := by
  subst hpc
  refine receives hold hnew ?_ he
  intro ch' hch
  exact holds_of_sameBut h (fun _ hl => by cases hl) (fun _ hl => by cases hl) (fun _ => hch)
end

end Move

/-- Each operation is one of the moves; which one, and what it takes or gives back, is read off the two places. -/
theorem advance_move (b : Budget) (q : Query) (ended : Bool) : Move b q (q.advance b ended) := by
  cases hpc : q.pc with
  | entered =>
    simp only [Query.advance, hpc]
    cases ended <;> exact .stays hpc ⟨by decide, by decide, by decide⟩ rfl
  | admitting =>
    simp only [Query.advance, hpc]
    exact .sends_admitted hpc ⟨by decide, by decide, by decide⟩ rfl rfl rfl
      (.stays hpc ⟨by decide, by decide, by decide⟩ rfl)
  | enrolling =>
    simp only [Query.advance, hpc]
    exact .enroll hpc
  | checking l =>
    simp only [Query.advance, hpc]
    cases l <;> cases ended <;> exact .stays hpc ⟨by decide, by decide, by decide⟩ rfl
  | trying l =>
    simp only [Query.advance, hpc]
    cases l <;> exact .sends_active hpc ⟨by decide, by decide, by decide⟩ rfl rfl rfl
      (.stays hpc ⟨by decide, by decide, by decide⟩ rfl)
  | confirming l =>
    simp only [Query.advance, hpc]
    cases l <;> cases ended <;> exact .stays hpc ⟨by decide, by decide, by decide⟩ rfl
  | queueing l =>
    simp only [Query.advance, hpc]
    cases l <;> exact .sends_waiting hpc ⟨by decide, by decide, by decide⟩ rfl rfl rfl
      (.stays hpc ⟨by decide, by decide, by decide⟩ rfl)
  | queued l =>
    cases ended with
    | true =>
      simp only [Query.advance, hpc, if_true]
      cases l <;> exact .stays hpc ⟨by decide, by decide, by decide⟩ rfl
    | false =>
      simp only [Query.advance, hpc, false_eq_true, if_false]
      cases l <;> exact .sends_active hpc ⟨by decide, by decide, by decide⟩ rfl rfl rfl
        (.stays hpc ⟨by decide, by decide, by decide⟩ rfl)
  | confirmingQueued l =>
    simp only [Query.advance, hpc]
    cases l <;> cases ended <;> exact .stays hpc ⟨by decide, by decide, by decide⟩ rfl
  | backingOut l queued =>
    simp only [Query.advance, hpc]
    cases l <;> cases queued <;> exact .receives_active hpc ⟨by decide, by decide, by decide⟩ rfl rfl rfl
  | leavingQueue l got =>
    simp only [Query.advance, hpc]
    cases l <;> cases got <;> exact .receives_waiting hpc ⟨by decide, by decide, by decide⟩ rfl rfl rfl
  | bounding =>
    simp only [Query.advance, hpc]
    cases ended <;> exact .stays hpc ⟨by decide, by decide, by decide⟩ rfl
  | executing =>
    simp only [Query.advance, hpc]
    exact .idle
  | releasingGlobal failing =>
    simp only [Query.advance, hpc]
    cases failing <;> exact .receives_active (l := .global) hpc ⟨by decide, by decide, by decide⟩ rfl rfl rfl
  | releasingProvider failing =>
    simp only [Query.advance, hpc]
    cases failing <;> exact .receives_active (l := .provider) hpc ⟨by decide, by decide, by decide⟩ rfl rfl rfl
  | unenrolling failing =>
    simp only [Query.advance, hpc]
    exact .unenroll failing hpc
  | unadmitting failing =>
    simp only [Query.advance, hpc]
    cases failing <;> exact .receives_admitted hpc ⟨by decide, by decide, by decide⟩ rfl rfl rfl
  | failed =>
    simp only [Query.advance, hpc]
    exact .idle
  | released =>
    simp only [Query.advance, hpc]
    exact .idle

/-! ### The invariant -/

structure Exact (c : Nat) (s : State) : Prop where
  accounts : ∀ ch, (s.budget.channel ch).Accounts (holds ch) s.queries
  capacity : ∀ ch, (s.budget.channel ch).capacity = capacityOf c ch
  perProvider : s.budget.perProvider = min 2 c
  perProviderWaiting : s.budget.perProviderWaiting = maxProviderQueue
  refs : ∀ slots, s.budget.refs slots = s.queries.countP (refers slots)
  known : ∀ q ∈ s.queries, q.pc.enrolled = true → s.budget.providers q.provider = some q.slots
  listed : ∀ p slots, s.budget.providers p = some slots → slots < s.budget.next ∧ 0 < s.budget.refs slots
  injective : ∀ p p' slots, s.budget.providers p = some slots → s.budget.providers p' = some slots → p = p'

theorem exact_initial (concurrency : Int) : Exact (concurrencyOf concurrency) (initial concurrency) where
  accounts ch := accounts_make _ fun _ hp => by cases hp
  capacity _ := rfl
  perProvider := rfl
  perProviderWaiting := rfl
  refs _ := rfl
  known _ hq := by cases hq
  listed _ _ h := by cases h
  injective _ _ _ h := by cases h

section
variable {c i : Nat} {s : State} {q : Query} {r : Budget × Query} {new : Pc} {b : Budget} {ch : Channel}

/-- A slot of all is taken after one of the provider's, and given back before it. -/
theorem active_provider_of_global {pc : Pc} (h : pc.active .global = true) : pc.active .provider = true := by
  cases pc with
  | leavingQueue l got =>
    cases got with
    | true => exact or_true _
    | false => exact absurd h (by simp [Pc.active])
  | checking l | trying l | queueing l | queued l => exact absurd h (by simp [Pc.active])
  | confirming l | confirmingQueued l | backingOut l queued => exact or_true _
  | bounding | executing | releasingGlobal failing => rfl
  | _ => exact absurd h (by simp [Pc.active])

theorem enrolled_of_active {pc : Pc} {l : Level} (h : pc.active l = true) : pc.enrolled = true := by
  cases pc <;> first | rfl | exact absurd h false_ne_true

theorem enrolled_of_waiting {pc : Pc} {l : Level} (h : pc.waiting l = true) : pc.enrolled = true := by
  cases pc <;> first | rfl | exact absurd h false_ne_true

theorem admitted_of_enrolled {pc : Pc} (h : pc.enrolled = true) : pc.admitted = true := by
  cases pc <;> first | rfl | exact absurd h false_ne_true

theorem admitted_of_holds (h : holds ch q = true) : q.pc.admitted = true := by
  rcases ch with - | slots | slots
  · exact h
  · cases slots with
    | none => exact admitted_of_enrolled (enrolled_of_active (l := .global) h)
    | some slots => exact admitted_of_enrolled (enrolled_of_active (and_eq_true_iff.mp h).2)
  · cases slots with
    | none => exact admitted_of_enrolled (enrolled_of_waiting (l := .global) h)
    | some slots => exact admitted_of_enrolled (enrolled_of_waiting (and_eq_true_iff.mp h).2)

theorem holds_false_of_admitted (h : q.pc.admitted = false) (ch : Channel) : holds ch q = false := by
  refine eq_false_of_not_eq_true fun hold => ?_
  rw [admitted_of_holds hold] at h
  cases h

theorem Exact.unused (h : Exact c s) (hq : q ∈ s.queries) {slots : Nat} (hslots : s.budget.next ≤ slots) :
    refers slots q = false := by
  rw [refers, and_eq_false_iff]
  by_cases he : q.pc.enrolled = true
  · left
    have hlt := (h.listed _ _ (h.known q hq he)).1
    exact beq_false_of_ne (by omega)
  · exact .inr (eq_false_of_not_eq_true he)

theorem holds_false_of_refers {slots : Nat} (h : refers slots q = false) :
    holds (.active (some slots)) q = false ∧ holds (.waiting (some slots)) q = false := by
  rw [refers, and_eq_false_iff] at h
  simp only [holds, and_eq_false_iff]
  rcases h with h | h
  · exact ⟨.inl h, .inl h⟩
  refine ⟨.inr (eq_false_of_not_eq_true fun ha => ?_), .inr (eq_false_of_not_eq_true fun hw => ?_)⟩
  · rw [enrolled_of_active ha] at h
    cases h
  · rw [enrolled_of_waiting hw] at h
    cases h

theorem mem_set_self {qs : List Query} {q' p : Query} (hp : p ∈ qs.set i q') : p = q' ∨ p ∈ qs :=
  (mem_or_eq_of_mem_set hp).symm

section
variable (h : Exact c s) (hi : i < s.queries.length) (hq : s.queries[i] = q)
include h hi hq

theorem Exact.of_channels (he : new.enrolled = q.pc.enrolled) {channel : Channel → Semaphore}
    (haccounts : ∀ ch, (channel ch).Accounts (holds ch) (s.queries.set i { q with pc := new }))
    (hcap : ∀ ch, (channel ch).capacity = capacityOf c ch) :
    Exact c { budget := { s.budget with channel := channel }, queries := s.queries.set i { q with pc := new } } := by
  refine { h with accounts := haccounts, capacity := hcap, refs := ?_, known := ?_ }
  · intro slots
    refine (h.refs slots).trans (countP_keep hi ?_).symm
    rw [hq]
    simp only [refers, he]
  · intro p hp hpe
    rcases mem_set_self hp with rfl | hp
    · exact h.known q (hq ▸ getElem_mem hi) (he.symm.trans hpe)
    · exact h.known p hp hpe

theorem Exact.of_set (he : new.enrolled = q.pc.enrolled) {t : Semaphore}
    (ht : t.Accounts (holds ch) (s.queries.set i { q with pc := new })) (hcap : t.capacity = (s.budget.channel ch).capacity)
    (hother : ∀ ch' ≠ ch, holds ch' { q with pc := new } = holds ch' q) :
    Exact c { budget := s.budget.set ch t, queries := s.queries.set i { q with pc := new } } := by
  refine h.of_channels hi hq he ?_ ?_
  · intro ch'
    by_cases hch : ch' = ch
    · rw [hch, update_self]
      exact ht
    · rw [update_of_ne hch]
      exact accounts_keep (h.accounts ch') hi (by rw [hq]; exact hother ch' hch)
  intro ch'
  by_cases hch : ch' = ch
  · rw [hch, update_self, hcap]
    exact h.capacity ch
  · rw [update_of_ne hch]
    exact h.capacity ch'

theorem Exact.of_keeps (hkeeps : Keeps s.budget q new b) (he : new.enrolled = q.pc.enrolled) :
    Exact c { budget := b, queries := s.queries.set i { q with pc := new } } := by
  cases hkeeps with
  | stay hsame =>
    exact h.of_channels hi hq he (fun ch => accounts_keep (h.accounts ch) hi (by rw [hq]; exact hsame ch)) h.capacity
  | take ch t htake hold hnew hother =>
    have hcap := congrArg Semaphore.capacity (take_some htake).2
    exact h.of_set hi hq he (accounts_take (h.accounts ch) hi htake (by rw [hq]; exact hold) hnew) hcap hother
  | give ch t hgive hold hnew hother =>
    have hcap := congrArg Semaphore.capacity (give_some hgive).2
    exact h.of_set hi hq he (accounts_give (h.accounts ch) hi hgive (by rw [hq]; exact hold) hnew) hcap hother
end

/-! ### The slots of a provider -/

theorem holds_enroll (hpc : q.pc = .enrolling) (slots : Nat) (ch : Channel) :
    holds ch { q with slots := slots, pc := .checking .provider } = holds ch q := by
  rcases ch with - | s | s <;> first | (simp only [holds, hpc]; rfl) | (cases s <;> simp [holds, hpc, Pc.active, Pc.waiting])

theorem holds_unenroll {failing : Bool} (hpc : q.pc = .unenrolling failing) (ch : Channel) :
    holds ch { q with pc := .unadmitting failing } = holds ch q := by
  rcases ch with - | s | s <;> first | (simp only [holds, hpc]; rfl) | (cases s <;> simp [holds, hpc, Pc.active, Pc.waiting])

theorem refs_enroll (hi : i < s.queries.length) (hq : s.queries[i] = q) (hpc : q.pc = .enrolling) (slots n : Nat) :
    (s.queries.set i { q with slots := slots, pc := .checking .provider }).countP (refers n) =
      s.queries.countP (refers n) + if n = slots then 1 else 0 := by
  have hold : refers n q = false := by simp [refers, hpc, Pc.enrolled]
  by_cases hn : n = slots
  · rw [if_pos hn, countP_gain hi (by rw [hq]; exact hold) (by simp [refers, hn, Pc.enrolled])]
  · have hnew : refers n { q with slots := slots, pc := .checking .provider } = false := by
      simp only [refers, beq_false_of_ne (Ne.symm hn), Bool.false_and]
    rw [if_neg hn, countP_keep hi (by rw [hq, hold, hnew]), Nat.add_zero]

section
variable (h : Exact c s) (hi : i < s.queries.length) (hq : s.queries[i] = q)
include h hi hq

theorem Exact.join (hpc : q.pc = .enrolling)
    {slots : Nat} (hprov : s.budget.providers q.provider = some slots) :
    Exact c
      { budget := { s.budget with refs := Function.update s.budget.refs slots (s.budget.refs slots + 1) }
        queries := s.queries.set i { q with slots := slots, pc := .checking .provider } } := by
  refine { h with accounts := ?_, refs := ?_, known := ?_, listed := ?_ }
  · intro ch
    exact accounts_keep (h.accounts ch) hi (by rw [hq]; exact holds_enroll hpc slots ch)
  · intro n
    show update _ _ _ _ = _
    rw [update_apply, refs_enroll hi hq hpc, ← h.refs]
    split_ifs with hn
    · rw [hn]
    · rfl
  · intro p hp hpe
    rcases mem_set_self hp with rfl | hp
    · exact hprov
    · exact h.known p hp hpe
  · intro p n hp
    obtain ⟨hlt, hpos⟩ := h.listed p n hp
    refine ⟨hlt, ?_⟩
    show 0 < update s.budget.refs slots (s.budget.refs slots + 1) n
    by_cases hn : n = slots
    · rw [hn, update_self]
      omega
    · rw [update_of_ne hn]
      exact hpos

theorem Exact.create (hpc : q.pc = .enrolling)
    (hprov : s.budget.providers q.provider = none) :
    Exact c
      { budget := s.budget.makeSlots q.provider
        queries := s.queries.set i { q with slots := s.budget.next, pc := .checking .provider } } := by
  have hunused : ∀ p ∈ s.queries.set i { q with slots := s.budget.next, pc := .checking .provider },
      holds (.active (some s.budget.next)) p = false ∧ holds (.waiting (some s.budget.next)) p = false := by
    intro p hp
    rcases mem_set_self hp with rfl | hp
    · simp [holds, Pc.active, Pc.waiting]
    · exact holds_false_of_refers (h.unused hp (Nat.le_refl _))
  refine { h with accounts := ?_, capacity := ?_, refs := ?_, known := ?_, listed := ?_, injective := ?_ }
  · intro ch
    by_cases hw : ch = .waiting (some s.budget.next)
    · subst hw
      have hnew := accounts_make (s.budget.perProviderWaiting) fun p hp => (hunused p hp).2
      simp only [Budget.makeSlots, update_self]
      exact hnew
    by_cases ha : ch = .active (some s.budget.next)
    · subst ha
      have hnew := accounts_make (s.budget.perProvider) fun p hp => (hunused p hp).1
      simp only [Budget.makeSlots, update_of_ne hw, update_self]
      exact hnew
    · simp only [Budget.makeSlots, update_of_ne hw, update_of_ne ha]
      exact accounts_keep (h.accounts ch) hi (by rw [hq]; exact holds_enroll hpc s.budget.next ch)
  · intro ch
    by_cases hw : ch = .waiting (some s.budget.next)
    · subst hw
      simp only [Budget.makeSlots, update_self]
      exact h.perProviderWaiting
    by_cases ha : ch = .active (some s.budget.next)
    · subst ha
      simp only [Budget.makeSlots, update_of_ne hw, update_self]
      exact h.perProvider
    · simp only [Budget.makeSlots, update_of_ne hw, update_of_ne ha]
      exact h.capacity ch
  · intro n
    show update _ _ _ _ = _
    rw [update_apply, refs_enroll hi hq hpc]
    split_ifs with hn
    · have hzero : s.queries.countP (refers n) = 0 := by
        refine countP_eq_zero.mpr fun p hp => ?_
        rw [h.unused hp (Nat.le_of_eq hn.symm)]
        decide
      rw [hzero]
    · exact h.refs n
  · intro p hp hpe
    show update _ _ _ _ = _
    rcases mem_set_self hp with rfl | hp
    · exact update_self ..
    have hknown := h.known p hp hpe
    have hne : p.provider ≠ q.provider := by
      intro heq
      rw [heq, hprov] at hknown
      cases hknown
    rw [update_of_ne hne]
    exact hknown
  · intro p n hp
    replace hp : update s.budget.providers q.provider (some s.budget.next) p = some n := hp
    show n < s.budget.next + 1 ∧ 0 < update s.budget.refs s.budget.next 1 n
    by_cases hpq : p = q.provider
    · rw [hpq, update_self] at hp
      cases hp
      rw [update_self]
      omega
    · rw [update_of_ne hpq] at hp
      obtain ⟨hlt, hpos⟩ := h.listed p n hp
      rw [update_of_ne (by omega)]
      omega
  · intro p p' n hp hp'
    replace hp : update s.budget.providers q.provider (some s.budget.next) p = some n := hp
    replace hp' : update s.budget.providers q.provider (some s.budget.next) p' = some n := hp'
    by_cases hpq : p = q.provider
    · by_cases hpq' : p' = q.provider
      · rw [hpq, hpq']
      · rw [hpq, update_self] at hp
        rw [update_of_ne hpq'] at hp'
        cases hp
        exact absurd (h.listed p' _ hp').1 (Nat.lt_irrefl _)
    rw [update_of_ne hpq] at hp
    by_cases hpq' : p' = q.provider
    · rw [hpq', update_self] at hp'
      cases hp'
      exact absurd (h.listed p _ hp).1 (Nat.lt_irrefl _)
    · rw [update_of_ne hpq'] at hp'
      exact h.injective p p' n hp hp'

/-- The last query that refers to the slots of a provider takes them out of the map. -/
theorem Exact.leave {failing : Bool}
    (hpc : q.pc = .unenrolling failing) :
    Exact c
      { budget := s.budget.releaseProvider q.provider q.slots
        queries := s.queries.set i { q with pc := .unadmitting failing } } := by
  have hmem : q ∈ s.queries := hq ▸ getElem_mem hi
  have henrolled : q.pc.enrolled = true := by rw [hpc]; rfl
  have hprov := h.known q hmem henrolled
  have hrefs : ∀ n, update s.budget.refs q.slots (s.budget.refs q.slots - 1) n
      = (s.queries.set i { q with pc := .unadmitting failing }).countP (refers n) := by
    intro n
    have hnew : refers n { q with pc := .unadmitting failing } = false := and_false _
    by_cases hn : n = q.slots
    · subst hn
      have hold : refers q.slots q = true := by simp [refers, henrolled]
      rw [Function.update_self, countP_lose hi (by rw [hq]; exact hold) hnew, h.refs]
    · have hold : refers n q = false := by simp only [refers, beq_false_of_ne (Ne.symm hn), Bool.false_and]
      rw [Function.update_of_ne hn, countP_keep hi (by rw [hq, hold, hnew]), h.refs]
  have hlast : ∀ p n, (s.budget.releaseProvider q.provider q.slots).providers p = some n →
      s.budget.providers p = some n ∧ (n = q.slots → s.budget.refs q.slots - 1 ≠ 0) := by
    intro p n hp
    simp only [Budget.releaseProvider] at hp
    split_ifs at hp with hzero
    · have hpq : p ≠ q.provider := by
        rintro rfl
        rw [update_self] at hp
        cases hp
      rw [update_of_ne hpq] at hp
      refine ⟨hp, ?_⟩
      rintro rfl
      exact absurd (h.injective p q.provider _ hp hprov) hpq
    · exact ⟨hp, fun _ => hzero⟩
  refine { h with accounts := ?_, refs := hrefs, known := ?_, listed := ?_, injective := ?_ }
  · intro ch
    exact accounts_keep (h.accounts ch) hi (by rw [hq]; exact holds_unenroll hpc ch)
  · intro p hp hpe
    rcases mem_set_self hp with rfl | hp'
    · cases hpe
    have hknown := h.known p hp' hpe
    simp only [Budget.releaseProvider]
    split_ifs with hzero
    · have hne : p.provider ≠ q.provider := by
        intro heq
        rw [heq, hprov] at hknown
        have hslots : p.slots = q.slots := (some.inj hknown).symm
        have hpos : 0 < (s.queries.set i { q with pc := .unadmitting failing }).countP (refers q.slots) :=
          countP_pos_iff.mpr ⟨p, hp, by simp [refers, hslots, hpe]⟩
        rw [← hrefs q.slots, update_self] at hpos
        omega
      rw [update_of_ne hne]
      exact hknown
    · exact hknown
  · intro p n hp
    obtain ⟨hp, hpositive⟩ := hlast p n hp
    obtain ⟨hlt, hpos⟩ := h.listed p n hp
    refine ⟨hlt, ?_⟩
    show 0 < update s.budget.refs q.slots (s.budget.refs q.slots - 1) n
    by_cases hn : n = q.slots
    · rw [hn, update_self]
      exact Nat.pos_of_ne_zero (hpositive hn)
    · rw [update_of_ne hn]
      exact hpos
  · intro p p' n hp hp'
    exact h.injective p p' n (hlast p n hp).1 (hlast p' n hp').1

theorem exact_move (hmove : Move s.budget q r) : Exact c { budget := r.1, queries := s.queries.set i r.2 } := by
  cases hmove with
  | keeps new b hkeeps he => exact h.of_keeps hi hq hkeeps he
  | enroll hpc =>
    rw [Budget.providerSlots]
    cases hprov : s.budget.providers q.provider with
    | none => exact h.create hi hq hpc hprov
    | some slots => exact h.join hi hq hpc hprov
  | unenroll failing hpc => exact h.leave hi hq hpc
end

/-- **Step lemma.** -/
theorem exact_step (s : State) (e : Event) (h : Exact c s) : Exact c (step s e) := by
  cases e with
  | start provider =>
    refine { h with accounts := ?_, refs := ?_, known := ?_ }
    · intro ch
      refine accounts_append (h.accounts ch) ?_
      rcases ch with - | slots | slots <;> first | rfl | (cases slots <;> simp [holds, Pc.active, Pc.waiting])
    · intro slots
      have hnone : refers slots { provider := provider, slots := 0, pc := .entered } = false := and_false _
      exact (h.refs slots).trans (countP_concat hnone).symm
    · intro q hq he
      rcases mem_append.mp hq with hq | hq
      · exact h.known q hq he
      · rw [mem_singleton.mp hq] at he
        cases he
  | advance i ended =>
    simp only [step]
    cases hq : s.queries[i]? with
    | none => exact h
    | some q =>
      obtain ⟨hi, hq⟩ := List.getElem?_eq_some_iff.mp hq
      exact exact_move h hi hq (advance_move s.budget q ended)
  | release i =>
    simp only [step]
    cases hq : s.queries[i]? with
    | none => exact h
    | some q =>
    obtain ⟨hi, hq⟩ := List.getElem?_eq_some_iff.mp hq
    show Exact c (if q.pc = .executing then _ else _)
    split_ifs with hpc
    · have hmove : Move s.budget q (s.budget, { q with pc := .releasingGlobal false }) :=
        .stays hpc ⟨by decide, by decide, by decide⟩ rfl
      exact exact_move h hi hq hmove
    · exact h

/-! ### What follows -/

/-- A query whose call has returned, with a context to query the provider in. -/
def executes (q : Query) : Bool := q.pc == .executing

section
variable (h : Exact c s)
include h

theorem Exact.same_slots {q' : Query} (hq : q ∈ s.queries) (hq' : q' ∈ s.queries)
    (he : q.pc.enrolled = true) (he' : q'.pc.enrolled = true) (hp : q.provider = q'.provider) : q.slots = q'.slots := by
  have hknown := h.known q hq he
  rw [hp, h.known q' hq' he'] at hknown
  exact (some.inj hknown).symm

/-- Queries of one provider that hold a slot of it are no more than it has slots: they share them. -/
theorem Exact.provider_le (provider : String) :
    s.queries.countP (fun q => q.provider == provider && q.pc.active .provider) ≤ min 2 c := by
  by_cases hsome : ∃ q ∈ s.queries, q.provider = provider ∧ q.pc.active .provider = true
  · obtain ⟨q, hq, hprov, hactive⟩ := hsome
    refine (countP_le (h.accounts (.active (some q.slots))) ?_).trans (le_of_eq (h.capacity (.active (some q.slots))))
    intro q' hq' hq'p
    obtain ⟨hprovider', hactive'⟩ := and_eq_true_iff.mp hq'p
    have hsame := h.same_slots hq' hq (enrolled_of_active hactive') (enrolled_of_active hactive)
      ((beq_iff_eq.mp hprovider').trans hprov.symm)
    simp only [holds, hsame, beq_self_eq_true, hactive', Bool.and_self]
  · have hnone : s.queries.countP (fun q => q.provider == provider && q.pc.active .provider) = 0 := by
      refine countP_eq_zero.mpr fun q hq hqp => hsome ?_
      obtain ⟨hprov, hactive⟩ := and_eq_true_iff.mp hqp
      exact ⟨q, hq, beq_iff_eq.mp hprov, hactive⟩
    rw [hnone]
    exact Nat.zero_le _

theorem Exact.executes_le : s.queries.countP executes ≤ c := by
  refine (countP_le (h.accounts (.active none)) ?_).trans (le_of_eq (h.capacity (.active none)))
  intro q _ he
  simp only [holds, beq_iff_eq.mp he]
  rfl

theorem Exact.executes_provider_le (provider : String) :
    s.queries.countP (fun q => q.provider == provider && executes q) ≤ min 2 c := by
  refine (countP_mono_left fun q _ hq => ?_).trans (h.provider_le provider)
  obtain ⟨hprov, he⟩ := and_eq_true_iff.mp hq
  rw [hprov, beq_iff_eq.mp he]
  rfl

theorem Exact.admitted_le : s.queries.countP (fun q => q.pc.admitted) ≤ c + maxConcurrentQueue :=
  (countP_le (h.accounts .admitted) fun _ _ hq => hq).trans (le_of_eq (h.capacity .admitted))

theorem Exact.global_lt (hc : 2 < c) (provider : String) :
    s.queries.countP (fun q => q.provider == provider && q.pc.active .global) < c := by
  have hle : s.queries.countP (fun q => q.provider == provider && q.pc.active .global)
      ≤ s.queries.countP (fun q => q.provider == provider && q.pc.active .provider) := by
    refine countP_mono_left fun q _ hq => ?_
    obtain ⟨hprov, hactive⟩ := and_eq_true_iff.mp hq
    rw [hprov, active_provider_of_global hactive]
    rfl
  have hprov := h.provider_le provider
  omega

theorem Exact.receives (hi : s.queries[i]? = some q) (hold : holds ch q = true) (received : Pc) :
    (q.receive s.budget ch received).2 = received := by
  obtain ⟨hlt, rfl⟩ := List.getElem?_eq_some_iff.mp hi
  obtain ⟨t, ht⟩ := isSome_iff_exists.mp (give_isSome (h.accounts ch) hlt hold)
  rw [Query.receive, ht]

theorem Exact.listed_iff (provider : String) (slots : Nat) : s.budget.providers provider = some slots
      ↔ ∃ q ∈ s.queries, q.pc.enrolled = true ∧ q.provider = provider ∧ q.slots = slots := by
  constructor
  · intro hp
    have hpos := (h.listed provider slots hp).2
    rw [h.refs] at hpos
    obtain ⟨q, hq, hrefers⟩ := countP_pos_iff.mp hpos
    obtain ⟨hslots, he⟩ := and_eq_true_iff.mp hrefers
    have hslots := beq_iff_eq.mp hslots
    have hknown := h.known q hq he
    rw [hslots] at hknown
    exact ⟨q, hq, he, h.injective _ _ _ hknown hp, hslots⟩
  · rintro ⟨q, hq, he, rfl, rfl⟩
    exact h.known q hq he

theorem Exact.without (hi : s.queries[i]? = some q) (hnone : q.pc.admitted = false) :
    (∀ ch, (s.budget.channel ch).length = (s.queries.eraseIdx i).countP (holds ch))
      ∧ (∀ slots, s.budget.refs slots = (s.queries.eraseIdx i).countP (refers slots))
      ∧ ∀ provider slots, s.budget.providers provider = some slots
          ↔ ∃ q ∈ s.queries.eraseIdx i, q.pc.enrolled = true ∧ q.provider = provider ∧ q.slots = slots := by
  obtain ⟨hlt, rfl⟩ := List.getElem?_eq_some_iff.mp hi
  have henrolled : s.queries[i].pc.enrolled = false :=
    eq_false_of_not_eq_true fun he => by rw [admitted_of_enrolled he] at hnone; cases hnone
  refine ⟨fun ch => ?_, fun slots => ?_, fun provider slots => ?_⟩
  · exact (h.accounts ch).exact.trans (countP_eraseIdx hlt (holds_false_of_admitted hnone ch)).symm
  · refine (h.refs slots).trans (countP_eraseIdx hlt ?_).symm
    rw [refers, henrolled, Bool.and_false]
  · rw [h.listed_iff]
    constructor
    · rintro ⟨q, hq, he, hprov⟩
      refine ⟨q, ?_, he, hprov⟩
      rcases mem_cons.mp ((getElem_cons_eraseIdx_perm hlt).mem_iff.mpr hq) with rfl | hq
      · rw [henrolled] at he
        cases he
      · exact hq
    · rintro ⟨q, hq, he⟩
      exact ⟨q, mem_of_mem_eraseIdx hq, he⟩

theorem Exact.empty (hnone : ∀ q ∈ s.queries, q.pc.admitted = false) :
    (∀ ch, (s.budget.channel ch).length = 0) ∧ ∀ provider, s.budget.providers provider = none := by
  refine ⟨fun ch => ?_, fun provider => ?_⟩
  · refine (h.accounts ch).exact.trans (countP_eq_zero.mpr fun q hq => ?_)
    rw [holds_false_of_admitted (hnone q hq) ch]
    decide
  by_contra hsome
  obtain ⟨slots, hslots⟩ := ne_none_iff_exists'.mp hsome
  obtain ⟨q, hq, he, -⟩ := (h.listed_iff provider slots).mp hslots
  have hadmitted := hnone q hq
  rw [admitted_of_enrolled he] at hadmitted
  cases hadmitted
end

end

/-- **The budget is exact**, however the queries are interleaved. -/
theorem budget_exact (concurrency : Int) (es : List Event) :
    let s := run step (initial concurrency) es
    let c := concurrencyOf concurrency
    s.queries.countP executes ≤ c
      ∧ (∀ provider, s.queries.countP (fun q => q.provider == provider && executes q) ≤ min 2 c)
      ∧ s.queries.countP (fun q => q.pc.admitted) ≤ c + maxConcurrentQueue
      ∧ (∀ q ∈ s.queries, ∀ q' ∈ s.queries, q.pc.enrolled = true → q'.pc.enrolled = true → q.provider = q'.provider →
          q.slots = q'.slots)
      ∧ (∀ i q, s.queries[i]? = some q → q.pc = .failed →
          (∀ ch, (s.budget.channel ch).length = (s.queries.eraseIdx i).countP (holds ch))
            ∧ (∀ slots, s.budget.refs slots = (s.queries.eraseIdx i).countP (refers slots))
            ∧ ∀ provider slots, s.budget.providers provider = some slots
                ↔ ∃ q ∈ s.queries.eraseIdx i, q.pc.enrolled = true ∧ q.provider = provider ∧ q.slots = slots)
      ∧ (2 < concurrency → ∀ provider,
          s.queries.countP (fun q => q.provider == provider && q.pc.active .global) < (s.budget.channel (.active none)).capacity)
      ∧ (∀ (i : Nat) q ch received, s.queries[i]? = some q → holds ch q = true →
          (q.receive s.budget ch received).2 = received)
      ∧ ((∀ q ∈ s.queries, q.pc = .failed ∨ q.pc = .released) →
          (∀ ch, (s.budget.channel ch).length = 0) ∧ ∀ provider, s.budget.providers provider = none) := by
  intro s c
  have h : Exact c s := run_invariant step exact_step es _ (exact_initial concurrency)
  refine ⟨h.executes_le, h.executes_provider_le, h.admitted_le, ?_, ?_, ?_, ?_, ?_⟩
  · intro q hq q' hq' he he' hp
    exact h.same_slots hq hq' he he' hp
  · intro i q hi hfailed
    exact h.without hi (by rw [hfailed]; rfl)
  · intro hc provider
    rw [h.capacity]
    refine h.global_lt ?_ provider
    show 2 < if concurrency < 1 then 1 else concurrency.toNat
    rw [if_neg (by omega)]
    omega
  · intro i q ch received hi hold
    exact h.receives hi hold received
  · intro hover
    refine h.empty fun q hq => ?_
    rcases hover q hq with hpc | hpc
    · rw [hpc]
      rfl
    · rw [hpc]
      rfl

end Paprika.Gateway
