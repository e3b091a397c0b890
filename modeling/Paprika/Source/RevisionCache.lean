import Paprika.Lib.Run

/-!
# Source: which commit a revision is on

`gitcli_flight.go`: the `revisionCache` of one mirror keeps the last answer of an `ls-remote` for each revision and shares
the `ls-remote` that is in flight.  Lookups wait for calls, calls run and finish in any order, and the clock may stand
still between two events.

* `RevisionCache.Inv` — what the stored answers, the calls and the lookups have to do with one another, `inv_run` in every
  run;
* `stored_forward` — a stored answer is only replaced by one that started later;
* `forgotten_iff` — after a `forget`, no later lookup takes an answer from before it, exactly when no `ls-remote` of the
  revision was running;
* `revisions_fresh_iff` — the three together.
-/

namespace Paprika.Source

open Lib.Run List Option

/-! ### The cache -/

structure RevisionAnswer where
  started : Int
  sha : String
  ref : String
  call : Nat
  deriving DecidableEq, Repr

/-- `revisionCall`: when its `ls-remote` began, and once it is done what it returned. -/
structure RevisionCall where
  rev : String
  started : Int
  begun : Option Int
  result : Option (Except String (String × String))

/-- What has become of a lookup. -/
inductive LookupOutcome
  | waiting (call : Nat)
  | answered (a : RevisionAnswer)
  | failed (err : String)
  | cancelled
  deriving DecidableEq, Repr

structure Lookup where
  rev : String
  notBefore : Int
  outcome : LookupOutcome
  deriving DecidableEq, Repr

/-- `revisionCache`, with the clock, and with the calls and the lookups that there have been. -/
structure RevisionCache where
  now : Int
  entries : String → Option RevisionAnswer
  inflight : String → Option Nat
  calls : List RevisionCall
  lookups : List Lookup

def RevisionCache.empty (now : Int) : RevisionCache := ⟨now, fun _ => none, fun _ => none, [], []⟩

/-- Write one entry of a map. -/
def store {α : Type} (m : String → Option α) (rev : String) (v : Option α) : String → Option α :=
  fun r => if r = rev then v else m r

@[simp] theorem store_self {α : Type} (m : String → Option α) (rev : String) (v : Option α) : store m rev v rev = v :=
  if_pos rfl

theorem store_of_ne {α : Type} {m : String → Option α} {rev r : String} {v : Option α} (h : r ≠ rev) :
    store m rev v r = m r :=
  if_neg h

variable {a : RevisionAnswer} {k : Nat}

namespace RevisionCache

variable (c : RevisionCache)

/-- The stored answer that a lookup accepts. -/
def hit (rev : String) (notBefore : Int) : Option RevisionAnswer :=
  (c.entries rev).filter (fun a => decide (notBefore ≤ a.started))

/-- The call in flight that a lookup accepts. -/
def joinable (rev : String) (notBefore : Int) : Option Nat :=
  (c.inflight rev).filter (fun k => c.calls[k]?.any (fun call => decide (notBefore ≤ call.started)))

def addLookup (rev : String) (notBefore : Int) (outcome : LookupOutcome) : RevisionCache :=
  { c with lookups := c.lookups ++ [⟨rev, notBefore, outcome⟩] }

/-- A new call, which takes the place of the one in flight. -/
def addCall (rev : String) : RevisionCache :=
  { c with
    inflight := store c.inflight rev (some c.calls.length)
    calls := c.calls ++ [⟨rev, c.now, none, none⟩] }

/-- `lookup`, up to where it waits. -/
def lookup (rev : String) (notBefore : Int) : RevisionCache :=
  match c.hit rev notBefore with
  | some a => c.addLookup rev notBefore (.answered a)
  | none =>
    match c.joinable rev notBefore with
    | some k => c.addLookup rev notBefore (.waiting k)
    | none => (c.addCall rev).addLookup rev notBefore (.waiting c.calls.length)

def lsRemote (k : Nat) : RevisionCache :=
  { c with calls := c.calls.modify k (fun call => { call with begun := call.begun.or (some c.now) }) }

/-- The answer of call `k` is stored unless a later one is. -/
def storeAnswer (k : Nat) (call : RevisionCall) : Except String (String × String) → String → Option RevisionAnswer
  | .error _ => c.entries
  | .ok (sha, ref) =>
    if (c.entries call.rev).all (fun a => decide (a.started < call.started)) then
      store c.entries call.rev (some ⟨call.started, sha, ref, k⟩)
    else c.entries

/-- The end of `run`. -/
def finish (k : Nat) (call : RevisionCall) (result : Except String (String × String)) : RevisionCache :=
  { c with
    entries := c.storeAnswer k call result
    inflight := if c.inflight call.rev = some k then store c.inflight call.rev none else c.inflight
    calls := c.calls.modify k (fun call => { call with result := some result }) }

/-- What a lookup that waits for call `k` is told once it is done. -/
def outcomeOf (k : Nat) (call : RevisionCall) : Except String (String × String) → LookupOutcome
  | .error err => .failed err
  | .ok (sha, ref) => .answered ⟨call.started, sha, ref, k⟩

def setOutcome (i : Nat) (outcome : LookupOutcome) : RevisionCache :=
  { c with lookups := c.lookups.modify i (fun l => { l with outcome := outcome }) }

def forget (rev : String) : RevisionCache := { c with entries := store c.entries rev none }

/-! ### The steps -/

/-- What can happen next: the clock moves on, a lookup arrives, a call begins its `ls-remote` or is done with it, a lookup
takes the result it waits for or is cancelled, or a revision is forgotten. -/
inductive Event
  | tick (d : Nat)
  | lookup (rev : String) (notBefore : Int)
  | lsRemote (k : Nat)
  | finish (k : Nat) (result : Except String (String × String))
  | receive (i : Nat)
  | cancel (i : Nat)
  | forget (rev : String)

def waitsFor (i : Nat) : Option Nat :=
  c.lookups[i]?.bind (fun l => match l.outcome with
    | .waiting k => some k
    | _ => none)

/-- One step; an event that cannot happen changes nothing.  A lookup accepts answers from before its arrival, or from its
arrival on. -/
def step : Event → RevisionCache
  | .tick d => { c with now := c.now + d }
  | .lookup rev notBefore => if notBefore ≤ c.now then c.lookup rev notBefore else c
  | .lsRemote k => c.lsRemote k
  | .finish k result =>
    match c.calls[k]? with
    | some call => if call.begun.isSome && call.result.isNone then c.finish k call result else c
    | none => c
  | .receive i =>
    match c.waitsFor i with
    | some k =>
      match c.calls[k]? with
      | some call =>
        match call.result with
        | some result => c.setOutcome i (outcomeOf k call result)
        | none => c
      | none => c
    | none => c
  | .cancel i => if (c.waitsFor i).isSome then c.setOutcome i .cancelled else c
  | .forget rev => c.forget rev

/-- What a step can do. -/
inductive Step (c : RevisionCache) : Event → RevisionCache → Prop
  | idle (e : Event) : Step c e c
  | tick (d : Nat) : Step c (.tick d) { c with now := c.now + d }
  | hit {rev : String} {notBefore : Int} {a : RevisionAnswer} (hentry : c.entries rev = some a)
      (hfresh : notBefore ≤ a.started) : Step c (.lookup rev notBefore) (c.addLookup rev notBefore (.answered a))
  | join {rev : String} {notBefore : Int} {k : Nat} {call : RevisionCall} (hflight : c.inflight rev = some k)
      (hcall : c.calls[k]? = some call) (hfresh : notBefore ≤ call.started) :
      Step c (.lookup rev notBefore) (c.addLookup rev notBefore (.waiting k))
  | miss {rev : String} {notBefore : Int} (hle : notBefore ≤ c.now) :
      Step c (.lookup rev notBefore) ((c.addCall rev).addLookup rev notBefore (.waiting c.calls.length))
  | lsRemote (k : Nat) : Step c (.lsRemote k) (c.lsRemote k)
  | finish {k : Nat} {call : RevisionCall} {result : Except String (String × String)} (hcall : c.calls[k]? = some call)
      (hbegun : call.begun ≠ none) (hrunning : call.result = none) : Step c (.finish k result) (c.finish k call result)
  | receive {i k : Nat} {call : RevisionCall} {result : Except String (String × String)} (hwaits : c.waitsFor i = some k)
      (hcall : c.calls[k]? = some call) (hdone : call.result = some result) :
      Step c (.receive i) (c.setOutcome i (outcomeOf k call result))
  | cancel (i : Nat) : Step c (.cancel i) (c.setOutcome i .cancelled)
  | forget (rev : String) : Step c (.forget rev) (c.forget rev)

theorem hit_eq_some {rev : String} {notBefore : Int} (h : c.hit rev notBefore = some a) :
    c.entries rev = some a ∧ notBefore ≤ a.started := by
  obtain ⟨hentry, hle⟩ := filter_eq_some_iff.mp h
  exact ⟨hentry, by simpa using hle⟩

theorem joinable_eq_some {rev : String} {notBefore : Int} (h : c.joinable rev notBefore = some k) :
    c.inflight rev = some k ∧ ∃ call, c.calls[k]? = some call ∧ notBefore ≤ call.started := by
  obtain ⟨hflight, hany⟩ := filter_eq_some_iff.mp h
  refine ⟨hflight, ?_⟩
  cases hcall : c.calls[k]? with
  | none => simp [hcall] at hany
  | some call => exact ⟨call, rfl, by simpa [hcall] using hany⟩

theorem step_cases (e : Event) : Step c e (c.step e) := by
  cases e with
  | tick d => exact .tick d
  | lookup rev notBefore =>
    rw [step]
    by_cases hle : notBefore ≤ c.now
    · rw [if_pos hle, lookup]
      cases hhit : c.hit rev notBefore with
      | some a =>
        obtain ⟨hentry, hfresh⟩ := c.hit_eq_some hhit
        exact .hit hentry hfresh
      | none =>
      cases hjoin : c.joinable rev notBefore with
      | some k =>
        obtain ⟨hflight, call, hcall, hfresh⟩ := c.joinable_eq_some hjoin
        exact .join hflight hcall hfresh
      | none => exact .miss hle
    · rw [if_neg hle]
      exact .idle _
  | lsRemote k => exact .lsRemote k
  | finish k result =>
    rw [step]
    cases hcall : c.calls[k]? with
    | none => exact .idle _
    | some call =>
    by_cases hrun : (call.begun.isSome && call.result.isNone) = true
    · obtain ⟨hbegun, hrunning⟩ := Bool.and_eq_true_iff.mp hrun
      simp only [hrun, if_true]
      exact .finish hcall (isSome_iff_ne_none.mp hbegun) (isNone_iff_eq_none.mp hrunning)
    · simp only [hrun]
      exact .idle _
  | receive i =>
    rw [step]
    cases hwaits : c.waitsFor i with
    | none => exact .idle _
    | some k =>
    cases hcall : c.calls[k]? with
    | none => simpa [hcall] using Step.idle _
    | some call =>
      cases hdone : call.result with
      | none => simpa [hcall, hdone] using Step.idle _
      | some result => simpa [hcall, hdone] using Step.receive hwaits hcall hdone
  | cancel i =>
    rw [step]
    by_cases hwaits : (c.waitsFor i).isSome = true
    · rw [if_pos hwaits]
      exact .cancel i
    · rw [if_neg hwaits]
      exact .idle _
  | forget rev => exact .forget rev

/-! ### Calls -/

end RevisionCache

/-- The same call later on: what is known of it stays. -/
structure RevisionCall.Later (call later : RevisionCall) : Prop where
  rev : later.rev = call.rev
  started : later.started = call.started
  begun : ∀ t, call.begun = some t → later.begun = some t
  result : ∀ r, call.result = some r → later.result = some r

namespace RevisionCache

variable {c d : RevisionCache} {e : Event}

def CallsLater (c d : RevisionCache) : Prop :=
  ∀ (k : Nat) (call : RevisionCall), c.calls[k]? = some call → ∃ later, d.calls[k]? = some later ∧ call.Later later

theorem callsLater_of_eq (h : d.calls = c.calls) : c.CallsLater d := by
  intro k call hcall
  exact ⟨call, by rw [h]; exact hcall, rfl, rfl, fun _ ht => ht, fun _ hr => hr⟩

theorem callsLater_modify {j : Nat} {f : RevisionCall → RevisionCall} (h : d.calls = c.calls.modify j f)
    (hf : ∀ call, c.calls[j]? = some call → call.Later (f call)) : c.CallsLater d := by
  intro k call hcall
  rw [h, List.getElem?_modify, hcall]
  by_cases hjk : j = k
  · exact ⟨f call, by simp [hjk], hf call (hjk ▸ hcall)⟩
  · exact ⟨call, by simp [hjk], rfl, rfl, fun _ ht => ht, fun _ hr => hr⟩

theorem Step.callsLater (h : Step c e d) : c.CallsLater d := by
  cases h with
  | miss =>
    intro k call hcall
    have hlt : k < c.calls.length := (List.getElem?_eq_some_iff.mp hcall).1
    exact ⟨call, by show (c.calls ++ _)[k]? = _; rw [List.getElem?_append_left hlt, hcall], rfl, rfl, fun _ ht => ht,
      fun _ hr => hr⟩
  | lsRemote k =>
    refine callsLater_modify rfl ?_
    intro call _
    exact ⟨rfl, rfl, fun t ht => by show call.begun.or _ = some t; rw [ht]; rfl, fun _ hr => hr⟩
  | finish hcall hbegun hrunning =>
    refine callsLater_modify rfl ?_
    intro call hcall'
    have hsame := some.inj (hcall'.symm.trans hcall)
    refine ⟨rfl, rfl, fun _ ht => ht, ?_⟩
    intro r hr
    rw [hsame, hrunning] at hr
    cases hr
  | idle => exact callsLater_of_eq rfl
  | tick => exact callsLater_of_eq rfl
  | hit => exact callsLater_of_eq rfl
  | join => exact callsLater_of_eq rfl
  | receive => exact callsLater_of_eq rfl
  | cancel => exact callsLater_of_eq rfl
  | forget => exact callsLater_of_eq rfl

/-! ### The invariant -/

def AnswerOf (c : RevisionCache) (rev : String) (a : RevisionAnswer) : Prop :=
  ∃ call, c.calls[a.call]? = some call ∧ call.rev = rev ∧ call.started = a.started ∧
    call.result = some (.ok (a.sha, a.ref))

/-- What a lookup waits for and what it has got is of its revision, and as fresh as asked. -/
structure Served (c : RevisionCache) (l : Lookup) : Prop where
  waiting : ∀ k, l.outcome = .waiting k →
    ∃ call, c.calls[k]? = some call ∧ call.rev = l.rev ∧ l.notBefore ≤ call.started
  answered : ∀ a, l.outcome = .answered a → c.AnswerOf l.rev a ∧ l.notBefore ≤ a.started

/-- The invariant. -/
structure Inv (c : RevisionCache) : Prop where
  started : ∀ (k : Nat) (call : RevisionCall), c.calls[k]? = some call → call.started ≤ c.now
  begun : ∀ (k : Nat) (call : RevisionCall) (t : Int), c.calls[k]? = some call → call.begun = some t → call.started ≤ t
  result : ∀ (k : Nat) (call : RevisionCall), c.calls[k]? = some call → call.result ≠ none → call.begun ≠ none
  entries : ∀ rev a, c.entries rev = some a → c.AnswerOf rev a
  inflight : ∀ rev k, c.inflight rev = some k → ∃ call, c.calls[k]? = some call ∧ call.rev = rev ∧ call.result = none
  lookups : ∀ l ∈ c.lookups, Served c l

theorem AnswerOf.later {rev : String} (h : c.AnswerOf rev a) (hlater : c.CallsLater d) : d.AnswerOf rev a := by
  obtain ⟨call, hcall, hrev, hstart, hres⟩ := h
  obtain ⟨later, hlater, hsame⟩ := hlater _ _ hcall
  exact ⟨later, hlater, hsame.rev.trans hrev, hsame.started.trans hstart, hsame.result _ hres⟩

variable {i : Nat} {l : Lookup} {notBefore : Int} {outcome : LookupOutcome}

theorem Served.later (h : Served c l) (hlater : c.CallsLater d) : Served d l := by
  constructor
  · intro k hk
    obtain ⟨call, hcall, hrev, hfresh⟩ := h.waiting k hk
    obtain ⟨later, hlater, hsame⟩ := hlater _ _ hcall
    exact ⟨later, hlater, hsame.rev.trans hrev, by rw [hsame.started]; exact hfresh⟩
  · intro a ha
    obtain ⟨hanswer, hfresh⟩ := h.answered a ha
    exact ⟨hanswer.later hlater, hfresh⟩

theorem Inv.frame (h : Inv c) (hcalls : d.calls = c.calls) (hnow : c.now ≤ d.now) (hinflight : d.inflight = c.inflight)
    (hents : ∀ rev a, d.entries rev = some a → c.entries rev = some a)
    (hlookups : ∀ l ∈ d.lookups, l ∈ c.lookups ∨ Served c l) : Inv d := by
  have hlater : c.CallsLater d := callsLater_of_eq hcalls
  constructor
  · intro k call hcall
    rw [hcalls] at hcall
    exact Int.le_trans (h.started k call hcall) hnow
  · intro k call t hcall
    rw [hcalls] at hcall
    exact h.begun k call t hcall
  · intro k call hcall
    rw [hcalls] at hcall
    exact h.result k call hcall
  · intro rev a ha
    exact (h.entries rev a (hents rev a ha)).later hlater
  · intro rev k hk
    rw [hinflight] at hk
    rw [hcalls]
    exact h.inflight rev k hk
  · intro l hl
    rcases hlookups l hl with hl | hl
    · exact (h.lookups l hl).later hlater
    · exact hl.later hlater

theorem getElem?_addLookup {rev : String} (hl : (c.addLookup rev notBefore outcome).lookups[i]? = some l) :
    c.lookups[i]? = some l ∨ l = ⟨rev, notBefore, outcome⟩ := by
  rw [addLookup, List.getElem?_append] at hl
  split_ifs at hl with hlt
  · exact .inl hl
  · obtain ⟨-, rfl⟩ := List.getElem?_eq_some_iff.mp hl
    exact .inr (mem_singleton.mp (getElem_mem _))

theorem mem_addLookup {rev : String}
    (hl : l ∈ (c.addLookup rev notBefore outcome).lookups) : l ∈ c.lookups ∨ l = ⟨rev, notBefore, outcome⟩ := by
  obtain ⟨i, hi⟩ := mem_iff_getElem?.mp hl
  exact (getElem?_addLookup hi).imp_left mem_of_getElem?

theorem getElem?_setOutcome {j : Nat} (hl : (c.setOutcome i outcome).lookups[j]? = some l) :
    c.lookups[j]? = some l ∨ i = j ∧ ∃ l₀, c.lookups[i]? = some l₀ ∧ l = { l₀ with outcome := outcome } := by
  rw [setOutcome, List.getElem?_modify] at hl
  obtain ⟨l₀, hold, rfl⟩ := map_eq_some_iff.mp hl
  by_cases hij : i = j
  · exact .inr ⟨hij, l₀, by rw [hij]; exact hold, by rw [if_pos hij]⟩
  · rw [if_neg hij]
    exact .inl hold

theorem mem_setOutcome (hl : l ∈ (c.setOutcome i outcome).lookups) :
    l ∈ c.lookups ∨ ∃ l₀, c.lookups[i]? = some l₀ ∧ l = { l₀ with outcome := outcome } := by
  obtain ⟨j, hj⟩ := mem_iff_getElem?.mp hl
  rcases getElem?_setOutcome hj with hj | ⟨-, hset⟩
  · exact .inl (mem_of_getElem? hj)
  · exact .inr hset

theorem waitsFor_eq_some (h : c.waitsFor i = some k) : ∃ l, c.lookups[i]? = some l ∧ l.outcome = .waiting k := by
  obtain ⟨l, hl, hout⟩ := bind_eq_some_iff.mp h
  refine ⟨l, hl, ?_⟩
  cases hcase : l.outcome with
  | waiting j => simpa [hcase] using hout
  | answered a => simp [hcase] at hout
  | failed err => simp [hcase] at hout
  | cancelled => simp [hcase] at hout

theorem Inv.miss (h : Inv c) {rev : String} (hle : notBefore ≤ c.now) :
    Inv ((c.addCall rev).addLookup rev notBefore (.waiting c.calls.length)) := by
  have hlater : c.CallsLater ((c.addCall rev).addLookup rev notBefore (.waiting c.calls.length)) := (Step.miss hle).callsLater
  have hnew : (c.calls ++ [⟨rev, c.now, none, none⟩])[c.calls.length]? = some ⟨rev, c.now, none, none⟩ := by simp
  have hcases : ∀ (k : Nat) (call : RevisionCall), (c.calls ++ [⟨rev, c.now, none, none⟩])[k]? = some call →
      c.calls[k]? = some call ∨ call = ⟨rev, c.now, none, none⟩ := by
    intro k call hcall
    rw [List.getElem?_append] at hcall
    split_ifs at hcall with hlt
    · exact .inl hcall
    · obtain ⟨-, rfl⟩ := List.getElem?_eq_some_iff.mp hcall
      exact .inr (mem_singleton.mp (getElem_mem _))
  constructor
  · intro k call hcall
    rcases hcases k call hcall with hcall | rfl
    · exact h.started k call hcall
    · exact Int.le_refl _
  · intro k call t hcall
    rcases hcases k call hcall with hcall | rfl
    · exact h.begun k call t hcall
    · intro hnone
      cases hnone
  · intro k call hcall
    rcases hcases k call hcall with hcall | rfl
    · exact h.result k call hcall
    · intro hnone
      exact absurd rfl hnone
  · intro r a ha
    exact (h.entries r a ha).later hlater
  · intro r k hk
    by_cases hr : r = rev
    · have hk : c.calls.length = k := by
        have hk : store c.inflight rev (some c.calls.length) r = some k := hk
        rw [hr, store_self] at hk
        exact some.inj hk
      rw [← hk, hr]
      exact ⟨_, hnew, rfl, rfl⟩
    have hk : store c.inflight rev (some c.calls.length) r = some k := hk
    rw [store_of_ne hr] at hk
    obtain ⟨call, hcall, hrev, hrunning⟩ := h.inflight r k hk
    refine ⟨call, ?_, hrev, hrunning⟩
    show (c.calls ++ _)[k]? = some call
    rw [List.getElem?_append_left (List.getElem?_eq_some_iff.mp hcall).1, hcall]
  · intro l hl
    rcases mem_addLookup hl with hl | rfl
    · exact (h.lookups l hl).later hlater
    constructor
    · intro k hk
      cases hk
      exact ⟨_, hnew, rfl, hle⟩
    · intro a ha
      cases ha

theorem Inv.lsRemote (h : Inv c) (k : Nat) : Inv (c.lsRemote k) := by
  have hlater := (Step.lsRemote (c := c) k).callsLater
  have hcases : ∀ (j : Nat) (call : RevisionCall), (c.lsRemote k).calls[j]? = some call →
      ∃ old, c.calls[j]? = some old ∧ call.rev = old.rev ∧ call.started = old.started ∧ call.result = old.result ∧
        (call.begun = old.begun ∨ call.begun = old.begun.or (some c.now)) := by
    intro j call hcall
    rw [RevisionCache.lsRemote, List.getElem?_modify] at hcall
    obtain ⟨old, hold, rfl⟩ := map_eq_some_iff.mp hcall
    refine ⟨old, hold, ?_⟩
    split_ifs
    · exact ⟨rfl, rfl, rfl, .inr rfl⟩
    · exact ⟨rfl, rfl, rfl, .inl rfl⟩
  constructor
  · intro j call hcall
    obtain ⟨old, hold, -, hstart, -, -⟩ := hcases j call hcall
    rw [hstart]
    exact h.started j old hold
  · intro j call t hcall ht
    obtain ⟨old, hold, -, hstart, -, hbegun⟩ := hcases j call hcall
    rw [hstart]
    have ht : old.begun = some t ∨ c.now = t := by
      rcases hbegun with hbegun | hbegun
      · exact .inl (hbegun.symm.trans ht)
      · rw [ht] at hbegun
        cases hb : old.begun with
        | none => rw [hb] at hbegun; exact .inr (some.inj hbegun).symm
        | some u => rw [hb] at hbegun; exact .inl hbegun.symm
    rcases ht with ht | rfl
    · exact h.begun j old t hold ht
    · exact h.started j old hold
  · intro j call hcall hdone
    obtain ⟨old, hold, -, -, hres, hbegun⟩ := hcases j call hcall
    rw [hres] at hdone
    have hb := h.result j old hold hdone
    rcases hbegun with hbegun | hbegun
    · rw [hbegun]
      exact hb
    · rw [hbegun]
      obtain ⟨t, ht⟩ := ne_none_iff_exists'.mp hb
      rw [ht]
      exact some_ne_none _
  · intro rev a ha
    exact (h.entries rev a ha).later hlater
  · intro rev j hj
    obtain ⟨call, hcall, hrev, hrunning⟩ := h.inflight rev j hj
    obtain ⟨later, hlater, hsame⟩ := hlater j call hcall
    obtain ⟨old, hold, -, -, hres, -⟩ := hcases j later hlater
    refine ⟨later, hlater, hsame.rev.trans hrev, ?_⟩
    rw [hres, some.inj (hold.symm.trans hcall), hrunning]
  · intro l hl
    exact (h.lookups l hl).later hlater

variable {call : RevisionCall}

theorem AnswerOf.finished {sha ref : String} (hcall : c.calls[k]? = some call) :
    (c.finish k call (.ok (sha, ref))).AnswerOf call.rev ⟨call.started, sha, ref, k⟩ := by
  refine ⟨{ call with result := some (.ok (sha, ref)) }, ?_, rfl, rfl, rfl⟩
  show (c.calls.modify k _)[k]? = _
  rw [List.getElem?_modify, hcall]
  simp

/-- What is stored when a call is done: what was, or for its revision its own answer, which started later. -/
theorem storeAnswer_cases (c : RevisionCache) (k : Nat) (call : RevisionCall) (result : Except String (String × String)) :
    c.storeAnswer k call result = c.entries ∨ ∃ sha ref, result = .ok (sha, ref) ∧
      c.storeAnswer k call result = store c.entries call.rev (some ⟨call.started, sha, ref, k⟩) ∧
        ∀ a, c.entries call.rev = some a → a.started < call.started := by
  cases result with
  | error err => exact .inl rfl
  | ok answer =>
  obtain ⟨sha, ref⟩ := answer
  rw [storeAnswer]
  by_cases hall : (c.entries call.rev).all (fun a => decide (a.started < call.started)) = true
  · rw [if_pos hall]
    refine .inr ⟨sha, ref, rfl, rfl, ?_⟩
    intro a ha
    simpa [ha] using hall
  · rw [if_neg hall]
    exact .inl rfl

theorem Inv.finish (h : Inv c) {result : Except String (String × String)}
    (hcall : c.calls[k]? = some call) (hbegun : call.begun ≠ none) (hrunning : call.result = none) :
    Inv (c.finish k call result) := by
  have hlater : c.CallsLater (c.finish k call result) := (Step.finish hcall hbegun hrunning).callsLater
  have hcases : ∀ (j : Nat) (now : RevisionCall), (c.finish k call result).calls[j]? = some now →
      (j ≠ k ∧ c.calls[j]? = some now) ∨ (j = k ∧ now = { call with result := some result }) := by
    intro j now hnow
    rw [RevisionCache.finish, List.getElem?_modify] at hnow
    obtain ⟨old, hold, rfl⟩ := map_eq_some_iff.mp hnow
    by_cases hjk : k = j
    · rw [← hjk, hcall] at hold
      rw [if_pos hjk, ← some.inj hold]
      exact .inr ⟨hjk.symm, rfl⟩
    · rw [if_neg hjk]
      exact .inl ⟨fun heq => hjk heq.symm, hold⟩
  constructor
  · intro j now hnow
    rcases hcases j now hnow with ⟨-, hold⟩ | ⟨-, rfl⟩
    · exact h.started j now hold
    · exact h.started k call hcall
  · intro j now t hnow
    rcases hcases j now hnow with ⟨-, hold⟩ | ⟨-, rfl⟩
    · exact h.begun j now t hold
    · exact h.begun k call t hcall
  · intro j now hnow hdone
    rcases hcases j now hnow with ⟨-, hold⟩ | ⟨-, rfl⟩
    · exact h.result j now hold hdone
    · exact hbegun
  · intro rev a ha
    have ha : c.storeAnswer k call result rev = some a := ha
    rcases storeAnswer_cases c k call result with hkeep | ⟨sha, ref, rfl, hstore, -⟩
    · rw [hkeep] at ha
      exact (h.entries rev a ha).later hlater
    rw [hstore] at ha
    by_cases hrev : rev = call.rev
    · rw [hrev, store_self] at ha
      rw [← some.inj ha, hrev]
      exact AnswerOf.finished hcall
    · rw [store_of_ne hrev] at ha
      exact (h.entries rev a ha).later hlater
  · intro rev j hleft
    have hflight : c.inflight rev = some j ∧ j ≠ k := by
      have hj : (if c.inflight call.rev = some k then store c.inflight call.rev none else c.inflight) rev = some j := hleft
      clear hleft
      split_ifs at hj with hmine
      · by_cases hrev : rev = call.rev
        · rw [hrev, store_self] at hj
          cases hj
        rw [store_of_ne hrev] at hj
        refine ⟨hj, ?_⟩
        rintro rfl
        obtain ⟨other, hother, hrevother, -⟩ := h.inflight rev j hj
        rw [hcall] at hother
        exact hrev (by rw [← hrevother, some.inj hother])
      · refine ⟨hj, ?_⟩
        rintro rfl
        obtain ⟨other, hother, hrevother, -⟩ := h.inflight rev j hj
        rw [hcall] at hother
        exact hmine (by rw [some.inj hother, hrevother, hj])
    obtain ⟨other, hother, hrev, hnone⟩ := h.inflight rev j hflight.1
    refine ⟨other, ?_, hrev, hnone⟩
    show (c.calls.modify k _)[j]? = some other
    rw [List.getElem?_modify, hother]
    simp [Ne.symm hflight.2]
  · intro l hl
    exact (h.lookups l hl).later hlater

/-- **Step.** -/
theorem Inv.step (h : Inv c) (hstep : Step c e d) : Inv d := by
  cases hstep with
  | idle => exact h
  | tick d => exact h.frame rfl (by show c.now ≤ c.now + (d : Int); omega) rfl (fun _ _ ha => ha) (fun _ hl => .inl hl)
  | hit hentry hfresh =>
    refine h.frame rfl (Int.le_refl _) rfl (fun _ _ ha => ha) ?_
    intro l hl
    refine (mem_addLookup hl).imp_right ?_
    rintro rfl
    constructor
    · intro k hk
      cases hk
    · intro a ha
      cases ha
      exact ⟨h.entries _ _ hentry, hfresh⟩
  | join hflight hcall hfresh =>
    refine h.frame rfl (Int.le_refl _) rfl (fun _ _ ha => ha) ?_
    intro l hl
    refine (mem_addLookup hl).imp_right ?_
    rintro rfl
    constructor
    · intro k hk
      cases hk
      obtain ⟨other, hother, hrev, -⟩ := h.inflight _ _ hflight
      rw [hcall] at hother
      exact ⟨_, hcall, by rw [some.inj hother]; exact hrev, hfresh⟩
    · intro a ha
      cases ha
  | miss hle => exact h.miss hle
  | lsRemote k => exact h.lsRemote k
  | finish hcall hbegun hrunning => exact h.finish hcall hbegun hrunning
  | receive hwaits hcall hdone =>
    refine h.frame rfl (Int.le_refl _) rfl (fun _ _ ha => ha) ?_
    intro l hl
    refine (mem_setOutcome hl).imp_right ?_
    rintro ⟨l₀, hl₀, rfl⟩
    obtain ⟨l₁, hl₁, hwait⟩ := waitsFor_eq_some hwaits
    have hsame : l₁ = l₀ := some.inj (hl₁.symm.trans hl₀)
    rw [hsame] at hwait
    obtain ⟨call, hcall', hrev, hfresh⟩ := (h.lookups l₀ (mem_of_getElem? hl₀)).waiting _ hwait
    rw [hcall] at hcall'
    rw [← some.inj hcall'] at hrev hfresh
    constructor
    · intro k hk
      rename_i result
      cases result <;> cases hk
    intro a ha
    rename_i result
    cases result with
    | error err => cases ha
    | ok answer =>
      cases ha
      exact ⟨⟨_, hcall, hrev, rfl, hdone⟩, hfresh⟩
  | cancel i =>
    refine h.frame rfl (Int.le_refl _) rfl (fun _ _ ha => ha) ?_
    intro l hl
    refine (mem_setOutcome hl).imp_right ?_
    rintro ⟨l₀, -, rfl⟩
    constructor
    · intro k hk
      cases hk
    · intro a ha
      cases ha
  | forget rev =>
    refine h.frame rfl (Int.le_refl _) rfl ?_ (fun _ hl => .inl hl)
    intro r a ha
    have ha : store c.entries rev none r = some a := ha
    by_cases hr : r = rev
    · rw [hr, store_self] at ha
      cases ha
    · rwa [store_of_ne hr] at ha

theorem inv_empty (now : Int) : Inv (empty now) := by
  constructor
  · intro k call hcall
    cases hcall
  · intro k call t hcall
    cases hcall
  · intro k call hcall
    cases hcall
  · intro rev a ha
    cases ha
  · intro rev k hk
    cases hk
  · intro l hl
    cases hl

/-- **Run.** -/
theorem inv_run (now : Int) (es : List Event) : Inv (run step (empty now) es) :=
  run_invariant step (fun c e h => h.step (c.step_cases e)) es _ (inv_empty now)

/-! ### As fresh as asked -/

/-- What a lookup returns is the answer of an `ls-remote` for its revision that began when it asked for or later. -/
def AsFreshAsAsked (c : RevisionCache) : Prop :=
  ∀ l ∈ c.lookups, ∀ a, l.outcome = .answered a →
    ∃ call t, c.calls[a.call]? = some call ∧ call.rev = l.rev ∧ call.result = some (.ok (a.sha, a.ref)) ∧
      call.begun = some t ∧ l.notBefore ≤ t

theorem Inv.asFreshAsAsked (h : Inv c) : c.AsFreshAsAsked := by
  intro l hl a ha
  obtain ⟨⟨call, hcall, hrev, hstart, hres⟩, hfresh⟩ := (h.lookups l hl).answered a ha
  have hdone : call.result ≠ none := by
    rw [hres]
    exact some_ne_none _
  obtain ⟨t, ht⟩ := ne_none_iff_exists'.mp (h.result _ _ hcall hdone)
  refine ⟨call, t, hcall, hrev, hres, ht, ?_⟩
  have hle := h.begun _ _ t hcall ht
  omega

/-- Only a `forget` of the revision removes its answer or puts one in its place that started before. -/
def Forward (c : RevisionCache) : Prop :=
  ∀ e rev a, e ≠ .forget rev → c.entries rev = some a →
    ∃ b, (c.step e).entries rev = some b ∧ a.started ≤ b.started

theorem Step.forward (h : Step c e d) {rev : String} (hne : e ≠ .forget rev)
    (ha : c.entries rev = some a) : ∃ b, d.entries rev = some b ∧ a.started ≤ b.started := by
  have hkeep : d.entries = c.entries → ∃ b, d.entries rev = some b ∧ a.started ≤ b.started :=
    fun hd => ⟨a, by rw [hd]; exact ha, Int.le_refl _⟩
  cases h with
  | finish hcall hbegun hrunning =>
    rename_i k call result
    rcases storeAnswer_cases c k call result with hsame | ⟨sha, ref, -, hstore, hlater⟩
    · exact hkeep hsame
    show ∃ b, c.storeAnswer k call result rev = some b ∧ a.started ≤ b.started
    rw [hstore]
    by_cases hrev : rev = call.rev
    · rw [hrev] at ha
      exact ⟨⟨call.started, sha, ref, k⟩, by rw [hrev, store_self], Int.le_of_lt (hlater a ha)⟩
    · exact ⟨a, by rw [store_of_ne hrev]; exact ha, Int.le_refl _⟩
  | forget r =>
    have hr : rev ≠ r := by
      rintro rfl
      exact hne rfl
    exact ⟨a, by show store c.entries r none rev = some a; rw [store_of_ne hr]; exact ha, Int.le_refl _⟩
  | idle => exact hkeep rfl
  | tick => exact hkeep rfl
  | hit => exact hkeep rfl
  | join => exact hkeep rfl
  | miss => exact hkeep rfl
  | lsRemote => exact hkeep rfl
  | receive => exact hkeep rfl
  | cancel => exact hkeep rfl

theorem stored_forward (c : RevisionCache) : c.Forward :=
  fun e _ _ hne ha => (c.step_cases e).forward hne ha

/-! ### Forgotten answers -/

/-- The `ls-remote` of call `k` began in the past of `c`. -/
def BegunIn (c : RevisionCache) (k : Nat) : Prop := ∃ call, c.calls[k]? = some call ∧ call.begun ≠ none

/-- Whatever happens after the revision is forgotten, no lookup that arrives later is answered by an `ls-remote` that
began before. -/
def Forgotten (c : RevisionCache) (rev : String) : Prop :=
  ∀ (es : List Event) (i : Nat) (l : Lookup) (a : RevisionAnswer), c.lookups.length ≤ i →
    (run step (c.forget rev) es).lookups[i]? = some l → l.rev = rev → l.outcome = .answered a → ¬ c.BegunIn a.call

/-- No `ls-remote` of the revision is running. -/
def Quiet (c : RevisionCache) (rev : String) : Prop :=
  ∀ call ∈ c.calls, call.rev = rev → call.begun ≠ none → call.result ≠ none

/-- What the lookup waits for and what it has got began later than `c₀`. -/
structure Untouched (c₀ : RevisionCache) (l : Lookup) : Prop where
  waiting : ∀ k, l.outcome = .waiting k → ¬ c₀.BegunIn k
  answered : ∀ a, l.outcome = .answered a → ¬ c₀.BegunIn a.call

/-- What keeps the answers from before the forget away: the calls of the revision that had begun are done, and neither
stored nor waited for by a later lookup. -/
structure Clear (c₀ : RevisionCache) (rev : String) (c : RevisionCache) : Prop where
  done : ∀ k, c₀.BegunIn k → ∃ call, c.calls[k]? = some call ∧ (call.rev = rev → call.result ≠ none)
  entries : ∀ a, c.entries rev = some a → ¬ c₀.BegunIn a.call
  lookups : ∀ (i : Nat) (l : Lookup), c₀.lookups.length ≤ i → c.lookups[i]? = some l → l.rev = rev → Untouched c₀ l

section
variable {c₀ : RevisionCache} {rev : String}

theorem Clear.running (h : Clear c₀ rev c) (hcall : c.calls[k]? = some call)
    (hrev : call.rev = rev) (hrunning : call.result = none) : ¬ c₀.BegunIn k := by
  intro hbegun
  obtain ⟨other, hother, hdone⟩ := h.done k hbegun
  rw [hcall] at hother
  rw [← some.inj hother] at hdone
  exact hdone hrev hrunning

theorem Clear.done_step (h : Clear c₀ rev c) (hstep : Step c e d) (hk : c₀.BegunIn k) :
    ∃ call, d.calls[k]? = some call ∧ (call.rev = rev → call.result ≠ none) := by
  obtain ⟨call, hcall, hdone⟩ := h.done k hk
  obtain ⟨later, hlater, hsame⟩ := hstep.callsLater k call hcall
  refine ⟨later, hlater, ?_⟩
  intro hrev
  rw [hsame.rev] at hrev
  obtain ⟨r, hr⟩ := ne_none_iff_exists'.mp (hdone hrev)
  rw [hsame.result r hr]
  exact some_ne_none r

theorem Clear.entries_step (h : Clear c₀ rev c) (hstep : Step c e d)
    (ha : d.entries rev = some a) : ¬ c₀.BegunIn a.call := by
  cases hstep with
  | finish hcall hbegun hrunning =>
    rename_i k call result
    have ha : c.storeAnswer k call result rev = some a := ha
    rcases storeAnswer_cases c k call result with hsame | ⟨sha, ref, -, hstore, -⟩
    · rw [hsame] at ha
      exact h.entries a ha
    rw [hstore] at ha
    by_cases hrev : rev = call.rev
    · rw [hrev, store_self] at ha
      rw [← some.inj ha]
      exact h.running hcall hrev.symm hrunning
    · rw [store_of_ne hrev] at ha
      exact h.entries a ha
  | forget r =>
    have ha : store c.entries r none rev = some a := ha
    by_cases hr : rev = r
    · rw [hr, store_self] at ha
      cases ha
    · rw [store_of_ne hr] at ha
      exact h.entries a ha
  | idle => exact h.entries a ha
  | tick => exact h.entries a ha
  | hit => exact h.entries a ha
  | join => exact h.entries a ha
  | miss => exact h.entries a ha
  | lsRemote => exact h.entries a ha
  | receive => exact h.entries a ha
  | cancel => exact h.entries a ha

theorem untouched_waiting {l : Lookup} (hl : l.outcome = .waiting k) (hk : ¬ c₀.BegunIn k) : Untouched c₀ l := by
  constructor
  · intro j hj
    rw [hl] at hj
    cases hj
    exact hk
  · intro a ha
    rw [hl] at ha
    cases ha

theorem untouched_answered {l : Lookup} (hl : l.outcome = .answered a) (ha : ¬ c₀.BegunIn a.call) : Untouched c₀ l := by
  constructor
  · intro k hk
    rw [hl] at hk
    cases hk
  · intro b hb
    rw [hl] at hb
    cases hb
    exact ha

theorem untouched_none {l : Lookup} (hwait : ∀ k, l.outcome ≠ .waiting k) (hans : ∀ a, l.outcome ≠ .answered a) :
    Untouched c₀ l :=
  ⟨fun k hk => absurd hk (hwait k), fun a ha => absurd ha (hans a)⟩

theorem Clear.lookups_step (h : Clear c₀ rev c) (hinv : Inv c) (hstep : Step c e d) {i : Nat} {l : Lookup}
    (hi : c₀.lookups.length ≤ i) (hl : d.lookups[i]? = some l) (hrev : l.rev = rev) : Untouched c₀ l := by
  cases hstep with
  | hit hentry hfresh =>
    rcases getElem?_addLookup hl with hl | rfl
    · exact h.lookups i l hi hl hrev
    · refine untouched_answered rfl (h.entries _ ?_)
      rw [← hrev]
      exact hentry
  | join hflight hcall hfresh =>
    rcases getElem?_addLookup hl with hl | rfl
    · exact h.lookups i l hi hl hrev
    · obtain ⟨call, hcall, hcrev, hrunning⟩ := hinv.inflight _ _ hflight
      exact untouched_waiting rfl (h.running hcall (hcrev.trans hrev) hrunning)
  | miss hle =>
    rcases getElem?_addLookup hl with hl | rfl
    · exact h.lookups i l hi hl hrev
    · refine untouched_waiting rfl ?_
      intro hbegun
      obtain ⟨call, hcall, -⟩ := h.done _ hbegun
      exact absurd (List.getElem?_eq_some_iff.mp hcall).1 (Nat.lt_irrefl _)
  | receive hwaits hcall hdone =>
    rcases getElem?_setOutcome hl with hl | ⟨rfl, l₀, hl₀, rfl⟩
    · exact h.lookups i l hi hl hrev
    obtain ⟨l₁, hl₁, hwait⟩ := waitsFor_eq_some hwaits
    rw [hl₀] at hl₁
    rw [← some.inj hl₁] at hwait
    have hk := (h.lookups _ l₀ hi hl₀ hrev).waiting _ hwait
    rename_i call result
    cases result with
    | error err => exact untouched_none (fun k hk => by cases hk) (fun a ha => by cases ha)
    | ok answer => exact untouched_answered rfl hk
  | cancel j =>
    rcases getElem?_setOutcome hl with hl | ⟨rfl, l₀, -, rfl⟩
    · exact h.lookups i l hi hl hrev
    · exact untouched_none (fun k hk => by cases hk) (fun a ha => by cases ha)
  | idle => exact h.lookups i l hi hl hrev
  | tick => exact h.lookups i l hi hl hrev
  | lsRemote => exact h.lookups i l hi hl hrev
  | finish => exact h.lookups i l hi hl hrev
  | forget => exact h.lookups i l hi hl hrev

/-- **Step.** -/
theorem Clear.step (h : Clear c₀ rev c) (hinv : Inv c) (hstep : Step c e d) : Clear c₀ rev d :=
  ⟨fun _ hk => h.done_step hstep hk, fun _ ha => h.entries_step hstep ha,
    fun _ _ hi hl hrev => h.lookups_step hinv hstep hi hl hrev⟩

theorem clear_forget (hquiet : c.Quiet rev) : Clear c rev (c.forget rev) := by
  constructor
  · rintro k ⟨call, hcall, hbegun⟩
    exact ⟨call, hcall, fun hrev => hquiet call (mem_of_getElem? hcall) hrev hbegun⟩
  · intro a ha
    have ha : store c.entries rev none rev = some a := ha
    rw [store_self] at ha
    cases ha
  · intro i l hi hl
    exact absurd (List.getElem?_eq_some_iff.mp hl).1 (Nat.not_lt.mpr hi)

/-- **Forgetting a quiet revision.** -/
theorem Inv.forgotten (h : Inv c) (hquiet : c.Quiet rev) : c.Forgotten rev := by
  intro es i l a hi hl hrev ha
  have hrun := run_invariant RevisionCache.step (motive := fun d => Inv d ∧ Clear c rev d)
    (fun d e hd => ⟨hd.1.step (d.step_cases e), hd.2.step hd.1 (d.step_cases e)⟩) es (c.forget rev)
    ⟨h.step (.forget rev), clear_forget hquiet⟩
  exact (hrun.2.lookups i l hi hl hrev).answered a ha

/-- **Forgetting a revision that is not.**  The `ls-remote` that is running stores its answer after the forget, and the
next lookup that would have accepted it takes it. -/
theorem Inv.quiet_of_forgotten (h : Inv c) (hforgotten : c.Forgotten rev) : c.Quiet rev := by
  intro call hmem hrev hbegun hrunning
  obtain ⟨k, hcall⟩ := mem_iff_getElem?.mp hmem
  have hstart : call.started ≤ c.now := h.started k call hcall
  obtain ⟨t, ht⟩ := ne_none_iff_exists'.mp hbegun
  let answer : RevisionAnswer := ⟨call.started, "", "", k⟩
  let done : RevisionCache := (c.forget rev).finish k call (.ok ("", ""))
  have hfinish : (c.forget rev).step (.finish k (.ok ("", ""))) = done := by
    show (match c.calls[k]? with
      | some call => if call.begun.isSome && call.result.isNone then (c.forget rev).finish k call (.ok ("", ""))
        else c.forget rev
      | none => c.forget rev) = done
    rw [hcall]
    simp [ht, hrunning, done]
  have hentry : done.entries rev = some answer := by
    show (c.forget rev).storeAnswer k call (.ok ("", "")) rev = some answer
    have hempty : (c.forget rev).entries rev = none := store_self c.entries rev none
    simp [storeAnswer, hempty, hrev, answer]
  have hlook : done.step (.lookup rev call.started) = done.addLookup rev call.started (.answered answer) := by
    have hle : call.started ≤ done.now := hstart
    have hhit : done.hit rev call.started = some answer := by simp [hit, hentry, answer]
    rw [RevisionCache.step, if_pos hle, lookup, hhit]
  refine hforgotten [.finish k (.ok ("", "")), .lookup rev call.started] c.lookups.length
    ⟨rev, call.started, .answered answer⟩ answer (Nat.le_refl _) ?_ rfl rfl ⟨call, hcall, hbegun⟩
  rw [run_cons, hfinish, run_cons, hlook, run_nil]
  show (c.lookups ++ _)[c.lookups.length]? = _
  simp

/-- **Forgetting.** -/
theorem Inv.forgotten_iff (h : Inv c) : c.Forgotten rev ↔ c.Quiet rev := ⟨h.quiet_of_forgotten, h.forgotten⟩
end

/-! ### The cache as a whole -/

/-- What is promised of the cache in a state of it. -/
structure RevisionsFresh (c : RevisionCache) : Prop where
  asked : c.AsFreshAsAsked
  forward : c.Forward
  forgotten : ∀ rev, c.Forgotten rev

/-- **Revisions as fresh as asked**; one can be forgotten exactly when no `ls-remote` of it is running. -/
theorem revisions_fresh_iff (now : Int) (es : List Event) :
    (run step (empty now) es).AsFreshAsAsked ∧ (run step (empty now) es).Forward ∧
      ∀ rev, (run step (empty now) es).Forgotten rev ↔ (run step (empty now) es).Quiet rev :=
  ⟨(inv_run now es).asFreshAsAsked, stored_forward _, fun _ => (inv_run now es).forgotten_iff⟩

/-- While it runs `main` is forgotten; then it answers, and a lookup that arrives later takes the answer. -/
theorem running_outlives_forget : ¬ ∀ now es, RevisionsFresh (run step (empty now) es) := by
  intro hall
  have hforgotten := (hall 0 [.lookup "main" (-45), .lsRemote 0]).forgotten "main"
  refine hforgotten [.tick 2, .finish 0 (.ok ("4b825dc6", "refs/heads/main")), .tick 1, .lookup "main" (-42)] 1
    ⟨"main", -42, .answered ⟨0, "4b825dc6", "refs/heads/main", 0⟩⟩ ⟨0, "4b825dc6", "refs/heads/main", 0⟩
    (by decide) (by decide) rfl rfl ⟨⟨"main", 0, some 0, none⟩, ?_, some_ne_none _⟩
  rfl

end RevisionCache

end Paprika.Source
