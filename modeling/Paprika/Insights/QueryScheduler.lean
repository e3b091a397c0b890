import Mathlib.Data.Rat.Floor
import Paprika.Lib.Run
import Paprika.Lib.Semaphore

/-!
# The query scheduler

`query.ts`: `createQueryScheduler` shares one fetch among callers of the same query, bounds the fetches in flight and keeps
results for a while.  A run is a list of events in any order: calls, aborts of signals, the microtask that starts a fetch, a
fetch that settles, and the two callbacks after it.

* `step` — from the source; `Slots`, `Links` — what holds between events;
* **`scheduler_delivers`** — bounds, deliveries, aborts and the queue, in every run.
-/

namespace Paprika.Insights.QueryScheduler

open Lib.Run List Option Function Bool Nat

/-! ### Requests and options -/

inductive JsNumber where
  | finite (q : ℚ)
  | nan
  | infinity
  | negInfinity
  deriving DecidableEq

/-- What `JSON.stringify` writes: `null` for a number that is not finite. -/
def JsNumber.json : JsNumber → Option ℚ
  | .finite q => some q
  | _ => none

/-- `QueryRequest`.  The reference is only ever written as JSON, and stands as its text. -/
structure QueryRequest where
  providerId : String
  query : String
  kind : String
  start : JsNumber
  endTime : JsNumber
  step : JsNumber
  traceId : Option String
  queryRef : Option String
  deriving DecidableEq

/-- The array that is written as the key of a request. -/
structure Key where
  providerId : String
  kind : String
  query : String
  start : Option ℚ
  endTime : Option ℚ
  step : Option ℚ
  queryRef : Option String
  traceId : Option String
  deriving DecidableEq

def QueryRequest.key (r : QueryRequest) : Key :=
  ⟨r.providerId, r.kind, r.query, r.start.json, r.endTime.json, r.step.json, r.queryRef, r.traceId⟩

structure QuerySchedulerOptions where
  concurrency : Option JsNumber := none
  cacheTTL : Option JsNumber := none
  cacheSize : Option JsNumber := none

/-- `Math.max(least, Math.min(most, Math.floor(x)))`, and 0 for `NaN`, to which nothing compares. -/
def clamp (least most : ℤ) : JsNumber → Nat
  | .finite q => (max least (min most ⌊q⌋)).toNat
  | .nan => 0
  | .infinity => most.toNat
  | .negInfinity => least.toNat

def QuerySchedulerOptions.limit (o : QuerySchedulerOptions) : Nat := clamp 1 16 (o.concurrency.getD (.finite 4))

def QuerySchedulerOptions.ttl (o : QuerySchedulerOptions) : WithTop ℚ :=
  match o.cacheTTL.getD (.finite 5000) with
  | .finite q => ((max 0 q : ℚ) : WithTop ℚ)
  | .infinity => ⊤
  | _ => 0

def QuerySchedulerOptions.size (o : QuerySchedulerOptions) : Nat := clamp 0 100 (o.cacheSize.getD (.finite 100))

/-! ### The scheduler -/

section
variable {Data Reason : Type}

/-- How a promise settles: `abortError` is the scheduler's own. -/
inductive Outcome (Data Reason : Type) where
  | abortError
  | value (data : Data)
  | reason (e : Reason)

def outcomeOf : Except Reason Data → Outcome Data Reason
  | .ok data => .value data
  | .error e => .reason e

/-- `PendingQuery` and the promise chain of its fetch.  `started` has taken a slot, `fetched` has called the fetcher, `result`
is what the fetch settled with, `completed` when the scheduler took it, and `released` has given the slot back. -/
structure Entry (Data Reason : Type) where
  key : Key
  request : QueryRequest
  aborted : Bool := false
  subscribers : List Nat := []
  started : Bool := false
  fetched : Bool := false
  result : Option (Outcome Data Reason) := none
  completed : Option (Nat × ℚ) := none
  released : Bool := false

/-- Where the answer of a call comes from. -/
inductive Origin where
  | refused
  | cached (entry : Nat)
  | joined (entry : Nat)
  deriving DecidableEq

structure Call (Data Reason : Type) where
  request : QueryRequest
  signal : Nat
  tick : Nat
  now : ℚ
  origin : Origin
  outcome : Option (Outcome Data Reason)

structure Cached (Data : Type) where
  key : Key
  data : Data
  expires : WithTop ℚ
  entry : Nat

/-- The variables of the scheduler, all entries and calls there have been, the signals that are aborted and the number of
events so far. -/
structure State (Data Reason : Type) where
  pending : Key → Option Nat := fun _ => none
  queue : List Nat := []
  cache : List (Cached Data) := []
  active : Nat := 0
  entries : List (Entry Data Reason) := []
  calls : List (Call Data Reason) := []
  aborted : List Nat := []
  tick : Nat := 0

inductive Event (Data Reason : Type) where
  | call (request : QueryRequest) (signal : Nat) (now : ℚ)
  | abort (signal : Nat)
  | start (entry : Nat)
  | settles (entry : Nat) (result : Except Reason Data)
  | callback (entry : Nat) (now : ℚ)
  | finally' (entry : Nat)

variable (o : QuerySchedulerOptions)

/-- `pending.delete(key)` if the entry is the pending one. -/
def unpend (pending : Key → Option Nat) (key : Key) (i : Nat) : Key → Option Nat :=
  fun k => if k = key ∧ pending k = some i then none else pending k

/-- `drain`, on the number of active fetches, the entries and the queue. -/
def drainFrom (limit : Nat) : Nat → List (Entry Data Reason) → List Nat → Nat × List (Entry Data Reason) × List Nat
  | active, entries, [] => (active, entries, [])
  | active, entries, i :: queue =>
    if active < limit then
      match entries[i]? with
      | none => drainFrom limit active entries queue
      | some e =>
        if e.subscribers.isEmpty || e.aborted then drainFrom limit active entries queue
        else drainFrom limit (active + 1) (entries.set i { e with started := true }) queue
    else (active, entries, i :: queue)

def drain (s : State Data Reason) : State Data Reason :=
  let (active, entries, queue) := drainFrom o.limit s.active s.entries s.queue
  { s with active, entries, queue }

/-- `subscriber.abort` of a call that has joined an entry. -/
def abortSubscriber (s : State Data Reason) (c : Nat) : State Data Reason :=
  match s.calls[c]? with
  | none => s
  | some call =>
    match call.origin with
    | .joined i =>
      match s.entries[i]? with
      | none => s
      | some e =>
        let subscribers := e.subscribers.filter (· ≠ c)
        let s := { s with calls := s.calls.set c { call with outcome := some .abortError } }
        if subscribers.isEmpty then
          { s with
            entries := s.entries.set i { e with subscribers, aborted := true }
            pending := unpend s.pending e.key i
            queue := s.queue.erase i }
        else { s with entries := s.entries.set i { e with subscribers } }
    | _ => s

def listeners (s : State Data Reason) (signal : Nat) : List Nat :=
  (List.range s.calls.length).filter fun c =>
    s.calls[c]?.any fun call => call.signal == signal && call.outcome.isNone

def settle (s : State Data Reason) (i : Nat) (e : Entry Data Reason) (outcome : Outcome Data Reason) : State Data Reason :=
  { s with
    pending := unpend s.pending e.key i
    calls := s.calls.mapIdx fun c call => if e.subscribers.contains c then { call with outcome := some outcome } else call
    entries := s.entries.set i { e with subscribers := [] } }

/-- The cache with a result, or as it was. -/
def store (cache : List (Cached Data)) (i : Nat) (e : Entry Data Reason) (now : ℚ) : Outcome Data Reason → List (Cached Data)
  | .value data =>
    if !e.aborted && !e.subscribers.isEmpty && decide (0 < o.ttl) && decide (0 < o.size) then
      let added := cache.filter (fun x => x.key ≠ e.key) ++ [⟨e.key, data, (now : WithTop ℚ) + o.ttl, i⟩]
      added.drop (added.length - o.size)
    else cache
  | _ => cache

def join (s : State Data Reason) (request : QueryRequest) (signal : Nat) (now : ℚ) : State Data Reason :=
  match s.pending request.key with
  | some i =>
    match s.entries[i]? with
    | none => s
    | some e => drain o { s with
        entries := s.entries.set i { e with subscribers := e.subscribers ++ [s.calls.length] }
        calls := s.calls ++ [⟨request, signal, s.tick, now, .joined i, none⟩] }
  | none => drain o { s with
      entries := s.entries ++ [{ key := request.key, request, subscribers := [s.calls.length] }]
      pending := Function.update s.pending request.key (some s.entries.length)
      queue := s.queue ++ [s.entries.length]
      calls := s.calls ++ [⟨request, signal, s.tick, now, .joined s.entries.length, none⟩] }

/-- A call of the scheduler. -/
def enter (s : State Data Reason) (request : QueryRequest) (signal : Nat) (now : ℚ) : State Data Reason :=
  if s.aborted.contains signal then
    { s with calls := s.calls ++ [⟨request, signal, s.tick, now, .refused, some .abortError⟩] }
  else
    let cache := s.cache.filter fun x => x.key ≠ request.key
    match s.cache.find? fun x => x.key = request.key with
    | none => join o s request signal now
    | some cached =>
      if (now : WithTop ℚ) < cached.expires then
        { s with
          cache := cache ++ [cached]
          calls := s.calls ++ [⟨request, signal, s.tick, now, .cached cached.entry, some (.value cached.data)⟩] }
      else join o { s with cache } request signal now

def onEvent (s : State Data Reason) : Event Data Reason → State Data Reason
  | .call request signal now => enter o s request signal now
  | .abort signal => (listeners s signal).foldl abortSubscriber { s with aborted := signal :: s.aborted }
  | .start i =>
    match s.entries[i]? with
    | none => s
    | some e =>
      if e.started && !e.fetched && e.result.isNone then
        if e.aborted then { s with entries := s.entries.set i { e with result := some .abortError } }
        else { s with entries := s.entries.set i { e with fetched := true } }
      else s
  | .settles i result =>
    match s.entries[i]? with
    | none => s
    | some e =>
      if e.fetched && e.result.isNone then
        { s with entries := s.entries.set i { e with result := some (outcomeOf result) } }
      else s
  | .callback i now =>
    match s.entries[i]? with
    | none => s
    | some e =>
      match e.result, e.completed with
      | some outcome, none =>
        settle { s with cache := store o s.cache i e now outcome } i { e with completed := some (s.tick, now) } outcome
      | _, _ => s
  | .finally' i =>
    match s.entries[i]? with
    | none => s
    | some e =>
      if e.completed.isSome && !e.released then
        drain o { s with
          active := s.active - 1
          pending := unpend s.pending e.key i
          entries := s.entries.set i { e with released := true } }
      else s

def step (s : State Data Reason) (e : Event Data Reason) : State Data Reason :=
  { onEvent o s e with tick := s.tick + 1 }

/-! ### Slots and the queue -/

/-- The entry has a slot. -/
def Entry.busy (e : Entry Data Reason) : Bool := e.started && !e.released

/-- The active fetches are those with a slot, and the queue is of entries that have not had one. -/
structure Slots (limit active : Nat) (entries : List (Entry Data Reason)) (queue : List Nat) : Prop where
  busy : active = entries.countP Entry.busy
  bound : active ≤ limit
  queued : ∀ i ∈ queue, ∃ e, entries[i]? = some e ∧ e.started = false
  nodup : queue.Nodup

variable {limit active : Nat} {entries : List (Entry Data Reason)} {queue : List Nat} {i : Nat} {e e' : Entry Data Reason}

theorem getElem_of_some {α : Type} {l : List α} {x : α} (h : l[i]? = some x) : ∃ hi : i < l.length, l[i] = x :=
  List.getElem?_eq_some_iff.mp h

theorem getElem?_set_of_some {α : Type} {l : List α} {x y : α} (h : l[i]? = some x) (j : Nat) :
    (l.set i y)[j]? = if i = j then some y else l[j]? := by
  obtain ⟨hi, -⟩ := getElem_of_some h
  rw [List.getElem?_set, if_pos hi]

theorem Slots.set (h : Slots limit active entries queue) (hi : entries[i]? = some e) (hbusy : e'.busy = e.busy)
    (hstarted : e'.started = e.started) : Slots limit active (entries.set i e') queue where
  busy := by
    obtain ⟨hlt, hget⟩ := getElem_of_some hi
    rw [h.busy, Lib.Semaphore.countP_keep hlt (by rw [hget, hbusy])]
  bound := h.bound
  queued j hj := by
    obtain ⟨f, hf, hnot⟩ := h.queued j hj
    rw [getElem?_set_of_some hi]
    split_ifs with hij
    · subst hij
      obtain rfl := some.inj (hi.symm.trans hf)
      exact ⟨e', rfl, hstarted.trans hnot⟩
    · exact ⟨f, hf, hnot⟩
  nodup := h.nodup

theorem Slots.sublist (h : Slots limit active entries queue) {rest : List Nat} (hrest : rest.Sublist queue) :
    Slots limit active entries rest :=
  ⟨h.busy, h.bound, fun i hi => h.queued i (hrest.subset hi), h.nodup.sublist hrest⟩

/-- **`drain` fills the slots**: it leaves a free one only with an empty queue. -/
theorem drainFrom_slots : ∀ {queue : List Nat} {active : Nat} {entries : List (Entry Data Reason)},
    Slots limit active entries queue → (∀ e ∈ entries, e.released = true → e.started = true) →
      Slots limit (drainFrom limit active entries queue).1 (drainFrom limit active entries queue).2.1
        (drainFrom limit active entries queue).2.2 ∧
      ((drainFrom limit active entries queue).1 < limit → (drainFrom limit active entries queue).2.2 = []) := by
  intro queue
  induction queue with
  | nil => exact fun h _ => ⟨h, fun _ => rfl⟩
  | cons i queue ih =>
    intro active entries h hrel
    have hrest := h.sublist (sublist_cons_self i queue)
    obtain ⟨e, he, hnot⟩ := h.queued i mem_cons_self
    rw [drainFrom]
    split_ifs with hroom
    · rw [he]
      simp only
      split_ifs with hskip
      · exact ih hrest hrel
      obtain ⟨hlt, hget⟩ := getElem_of_some he
      have hfree : e.released = false := by
        refine eq_false_iff.mpr fun hreleased' => ?_
        have hstarted := hrel e (mem_of_getElem? he) hreleased'
        rw [hnot] at hstarted
        cases hstarted
      refine ih ⟨?_, hroom, ?_, hrest.nodup⟩ ?_
      · rw [h.busy, Lib.Semaphore.countP_gain hlt]
        · rw [hget, Entry.busy, hnot, Bool.false_and]
        · rw [Entry.busy, hfree]
          rfl
      · intro j hj
        obtain ⟨f, hf, hnot'⟩ := hrest.queued j hj
        have hne : i ≠ j := fun heq => (nodup_cons.mp h.nodup).1 (heq ▸ hj)
        rw [getElem?_set_of_some he, if_neg hne]
        exact ⟨f, hf, hnot'⟩
      · intro f hf hreleased'
        rcases mem_or_eq_of_mem_set hf with hf | rfl
        · exact hrel f hf hreleased'
        · rfl
    · refine ⟨h, ?_⟩
      intro hroom'
      exact absurd hroom' hroom

/-! ### Entries, calls and the cache -/

/-- The stages of an entry come one after the other. -/
structure Flags (e : Entry Data Reason) : Prop where
  fetched : e.fetched = true → e.started = true
  result : e.result ≠ none → e.started = true
  completed : e.completed ≠ none → e.result ≠ none
  released : e.released = true → e.completed ≠ none

/-- What the fetcher has settled with, unless the fetch was aborted. -/
def Made (e : Entry Data Reason) : Prop :=
  ∀ out, e.result = some out → e.fetched = true ∧ out ≠ .abortError ∨ e.aborted = true

structure EntryOk (bound : Nat) (calls : List (Call Data Reason)) (i : Nat) (e : Entry Data Reason) : Prop where
  key : e.key = e.request.key
  flags : Flags e
  made : Made e
  left : e.aborted = true ∨ e.completed ≠ none → e.subscribers = []
  subscribed : ∀ c ∈ e.subscribers, ∃ call, calls[c]? = some call ∧ call.origin = .joined i ∧ call.outcome = none
  past : ∀ t w, e.completed = some (t, w) → t < bound

/-- The outcome is what a fetch for the key of the call settled with: one that the call has joined before it was completed, or
one that was completed less than the time to live before. -/
def Delivered (o : QuerySchedulerOptions) (entries : List (Entry Data Reason)) (call : Call Data Reason)
    (out : Outcome Data Reason) : Prop :=
  ∃ i e t w, entries[i]? = some e ∧ e.request.key = call.request.key ∧ e.fetched = true ∧ e.aborted = false ∧
    e.result = some out ∧ e.completed = some (t, w) ∧
    (call.origin = .joined i ∧ call.tick < t ∨
      call.origin = .cached i ∧ t < call.tick ∧ (call.now : WithTop ℚ) < ((w : ℚ) : WithTop ℚ) + o.ttl)

structure CallOk (o : QuerySchedulerOptions) (bound : Nat) (entries : List (Entry Data Reason)) (aborted : List Nat) (c : Nat)
    (call : Call Data Reason) : Prop where
  past : call.tick < bound
  joined : ∀ i, call.origin = .joined i → ∃ e, entries[i]? = some e ∧ e.request.key = call.request.key ∧
    ∀ t w, e.completed = some (t, w) → call.tick < t
  waiting : call.outcome = none → ∃ i e, call.origin = .joined i ∧ entries[i]? = some e ∧ c ∈ e.subscribers
  left : call.outcome = some .abortError → call.signal ∈ aborted
  delivered : ∀ out, call.outcome = some out → out ≠ .abortError → Delivered o entries call out

def CachedOk (o : QuerySchedulerOptions) (entries : List (Entry Data Reason)) (x : Cached Data) : Prop :=
  ∃ e t w, entries[x.entry]? = some e ∧ e.key = x.key ∧ e.fetched = true ∧ e.aborted = false ∧
    e.result = some (.value x.data) ∧ e.completed = some (t, w) ∧ x.expires = ((w : ℚ) : WithTop ℚ) + o.ttl

/-- What entries, calls, pending entries and the cache have to do with one another, before the event `bound`. -/
structure Links (o : QuerySchedulerOptions) (bound : Nat) (s : State Data Reason) : Prop where
  entry : ∀ (i : Nat) e, s.entries[i]? = some e → EntryOk bound s.calls i e
  call : ∀ (c : Nat) call, s.calls[c]? = some call → CallOk o bound s.entries s.aborted c call
  pending : ∀ k i, s.pending k = some i → ∃ e, s.entries[i]? = some e ∧ e.key = k ∧ e.aborted = false ∧ e.completed = none
  cache : ∀ x ∈ s.cache, CachedOk o s.entries x
  size : s.cache.length ≤ o.size

variable {o : QuerySchedulerOptions} {bound : Nat} {s s' : State Data Reason}
variable {bound' c signal : Nat} {call : Call Data Reason} {f : Entry Data Reason} {out : Outcome Data Reason}
  {pending : Key → Option Nat}

theorem start_rest : onEvent o s (.start i) = { s with entries := (onEvent o s (.start i)).entries } := by
  rw [onEvent]
  split
  · rfl
  · split_ifs <;> rfl

theorem Links.later (h : Links o bound s) (hle : bound ≤ bound') : Links o bound' s where
  entry i e he := { h.entry i e he with past := fun t w ht => lt_of_lt_of_le ((h.entry i e he).past t w ht) hle }
  call c call hc := { h.call c call hc with past := lt_of_lt_of_le (h.call c call hc).past hle }
  pending := h.pending
  cache := h.cache
  size := h.size

/-- The entry has gone on, and has not lost what it had. -/
structure Goes (e e' : Entry Data Reason) : Prop where
  key : e'.key = e.key
  request : e'.request = e.request
  fetched : e.fetched = true → e'.fetched = true
  result : ∀ out, e.result = some out → e'.result = some out
  completed : ∀ x, e.completed = some x → e'.completed = some x ∧ e'.aborted = e.aborted

theorem Goes.refl : Goes e e := ⟨rfl, rfl, id, fun _ h => h, fun _ h => ⟨h, rfl⟩⟩

theorem goes_set (hi : entries[i]? = some e) (hgoes : Goes e e') {j : Nat} (hf : entries[j]? = some f) :
    ∃ f', (entries.set i e')[j]? = some f' ∧ Goes f f' := by
  rw [getElem?_set_of_some hi]
  split_ifs with hij
  · subst hij
    obtain rfl := some.inj (hi.symm.trans hf)
    exact ⟨e', rfl, hgoes⟩
  · exact ⟨f, hf, Goes.refl⟩

theorem Delivered.goes {entries' : List (Entry Data Reason)} (h : Delivered o entries call out)
    (hgoes : ∀ (j : Nat) f, entries[j]? = some f → ∃ f', entries'[j]? = some f' ∧ Goes f f') : Delivered o entries' call out := by
  obtain ⟨i, e, t, w, he, hkey, hfetched, haborted, hres, hcompl, horigin⟩ := h
  obtain ⟨e', he', hg⟩ := hgoes i e he
  obtain ⟨hcompleted', haborted'⟩ := hg.completed _ hcompl
  exact ⟨i, e', t, w, he', hg.request ▸ hkey, hg.fetched hfetched, haborted'.trans haborted, hg.result _ hres, hcompleted',
    horigin⟩

theorem CachedOk.goes {entries' : List (Entry Data Reason)} {x : Cached Data} (h : CachedOk o entries x)
    (hgoes : ∀ (j : Nat) f, entries[j]? = some f → ∃ f', entries'[j]? = some f' ∧ Goes f f') : CachedOk o entries' x := by
  obtain ⟨e, t, w, he, hkey, hfetched, haborted, hres, hcompl, hexpires⟩ := h
  obtain ⟨e', he', hg⟩ := hgoes _ e he
  obtain ⟨hcompleted', haborted'⟩ := hg.completed _ hcompl
  exact ⟨e', t, w, he', hg.key.trans hkey, hg.fetched hfetched, haborted'.trans haborted, hg.result _ hres, hcompleted',
    hexpires⟩

/-- The entry has the same subscribers, and is aborted and completed as before. -/
structure Quiet (e e' : Entry Data Reason) : Prop extends Goes e e' where
  aborted : e'.aborted = e.aborted
  subscribers : e'.subscribers = e.subscribers
  same : e'.completed = e.completed
  flags : Flags e'
  made : Made e'

theorem set_cases (hi : entries[i]? = some e) {j : Nat} (hf : (entries.set i e')[j]? = some f) :
    i = j ∧ f = e' ∨ i ≠ j ∧ entries[j]? = some f := by
  rw [getElem?_set_of_some hi] at hf
  split_ifs at hf with hij
  · exact .inl ⟨hij, (some.inj hf).symm⟩
  · exact .inr ⟨hij, hf⟩

theorem joined_set (hi : entries[i]? = some e) (hgoes : Goes e e')
    (hjoined : ∀ j, call.origin = .joined j → ∃ f, entries[j]? = some f ∧ f.request.key = call.request.key ∧
      ∀ t w, f.completed = some (t, w) → call.tick < t)
    (htick : ∀ t w, e.completed = none → e'.completed = some (t, w) → call.tick < t) : ∀ j, call.origin = .joined j →
    ∃ f, (entries.set i e')[j]? = some f ∧ f.request.key = call.request.key ∧ ∀ t w, f.completed = some (t, w) → call.tick < t := by
  intro j hj
  obtain ⟨f, hf, hkey, hpre⟩ := hjoined j hj
  rw [getElem?_set_of_some hi]
  split_ifs with hij
  · subst hij
    obtain rfl := some.inj (hi.symm.trans hf)
    refine ⟨e', rfl, by rw [hgoes.request, hkey], ?_⟩
    intro t w ht
    cases hc : e.completed with
    | none => exact htick t w hc ht
    | some x =>
      obtain rfl := some.inj ((hgoes.completed x hc).1.symm.trans ht)
      exact hpre t w hc
  · exact ⟨f, hf, hkey, hpre⟩

theorem CallOk.set {aborted : List Nat} (h : CallOk o bound entries aborted c call)
    (hi : entries[i]? = some e) (hgoes : Goes e e') (hle : bound ≤ bound')
    (htick : ∀ t w, e.completed = none → e'.completed = some (t, w) → call.tick < t)
    (hstays : call.outcome = none → c ∈ e.subscribers → c ∈ e'.subscribers) :
    CallOk o bound' (entries.set i e') aborted c call where
  past := lt_of_lt_of_le h.past hle
  joined := joined_set hi hgoes h.joined htick
  waiting hnone := by
    obtain ⟨j, f, horigin, hf, hmem⟩ := h.waiting hnone
    by_cases hij : i = j
    · subst hij
      obtain rfl := some.inj (hi.symm.trans hf)
      exact ⟨i, e', horigin, by rw [getElem?_set_of_some hi, if_pos rfl], hstays hnone hmem⟩
    · exact ⟨j, f, horigin, by rw [getElem?_set_of_some hi, if_neg hij, hf], hmem⟩
  left := h.left
  delivered out hout hne := (h.delivered out hout hne).goes fun _ _ => goes_set hi hgoes

/-- **One entry goes on**: what is to be shown of it, and of the calls, the pending entries and the cache. -/
theorem Links.move (h : Links o bound s) (hi : s.entries[i]? = some e) (hgoes : Goes e e') (hle : bound ≤ bound')
    {calls : List (Call Data Reason)} {cache : List (Cached Data)}
    (hentry : EntryOk bound' calls i e')
    (hothers : ∀ (c : Nat) call, s.calls[c]? = some call → call.origin ≠ .joined i → calls[c]? = some call)
    (hcalls : ∀ (c : Nat) call, calls[c]? = some call → CallOk o bound' (s.entries.set i e') s.aborted c call)
    (hpend : ∀ k j, pending k = some j → s.pending k = some j ∧ (i = j → e'.aborted = false ∧ e'.completed = none))
    (hcache : ∀ x ∈ cache, x ∈ s.cache ∨ CachedOk o (s.entries.set i e') x) (hsize : cache.length ≤ o.size) :
    Links o bound' { s with entries := s.entries.set i e', calls, pending, cache } where
  entry j f hf := by
    rcases set_cases hi hf with ⟨rfl, rfl⟩ | ⟨hij, hf⟩
    · exact hentry
    have hok := h.entry j f hf
    refine { hok with subscribed := ?_, past := fun t w ht => lt_of_lt_of_le (hok.past t w ht) hle }
    intro c hc
    obtain ⟨call, hcall, horigin, hnone⟩ := hok.subscribed c hc
    exact ⟨call, hothers c call hcall fun heq => hij (Origin.joined.inj (heq.symm.trans horigin)), horigin, hnone⟩
  call := hcalls
  pending k j hj := by
    obtain ⟨hj, hown⟩ := hpend k j hj
    obtain ⟨f, hf, hkey, hrest⟩ := h.pending k j hj
    rw [getElem?_set_of_some hi]
    split_ifs with hij
    · subst hij
      obtain rfl := some.inj (hi.symm.trans hf)
      exact ⟨e', rfl, hgoes.key.trans hkey, hown rfl⟩
    · exact ⟨f, hf, hkey, hrest⟩
  cache x hx := (hcache x hx).elim (fun hx => (h.cache x hx).goes fun _ _ => goes_set hi hgoes) id
  size := hsize

theorem Links.quiet (h : Links o bound s) (hi : s.entries[i]? = some e) (hquiet : Quiet e e') :
    Links o bound { s with entries := s.entries.set i e' } := by
  have hok := h.entry i e hi
  refine h.move hi hquiet.toGoes (le_refl _) ⟨?_, hquiet.flags, hquiet.made, ?_, ?_, ?_⟩ (fun _ _ hc _ => hc) ?_ ?_
    (fun _ hx => .inl hx) h.size
  · rw [hquiet.key, hquiet.request]
    exact hok.key
  · rw [hquiet.aborted, hquiet.same, hquiet.subscribers]
    exact hok.left
  · rw [hquiet.subscribers]
    exact hok.subscribed
  · rw [hquiet.same]
    exact hok.past
  · intro c call hc
    refine (h.call c call hc).set hi hquiet.toGoes (le_refl _) ?_ fun _ hin => hquiet.subscribers ▸ hin
    intro t w hnone hsome
    rw [hquiet.same, hnone] at hsome
    cases hsome
  · intro k j hj
    obtain ⟨f, hf, -, haborted, hcompl⟩ := h.pending k j hj
    refine ⟨hj, ?_⟩
    rintro rfl
    obtain rfl := some.inj (hi.symm.trans hf)
    exact ⟨hquiet.aborted.trans haborted, hquiet.same.trans hcompl⟩

theorem Links.shrink (h : Links o bound s) (hpend : ∀ k i, pending k = some i → s.pending k = some i)
    {active : Nat} {queue : List Nat} : Links o bound { s with pending, active, queue } where
  entry := h.entry
  call := h.call
  pending k i hi := h.pending k i (hpend k i hi)
  cache := h.cache
  size := h.size

theorem unpend_some {key k : Key} {j : Nat} (h : unpend pending key i k = some j) :
    pending k = some j ∧ (k = key → j ≠ i) := by
  rw [unpend] at h
  split_ifs at h with hdrop
  refine ⟨h, ?_⟩
  rintro hk rfl
  exact hdrop ⟨hk, h⟩

theorem Links.drainFrom : ∀ {queue : List Nat} {active : Nat} {entries : List (Entry Data Reason)},
    Links o bound { s with entries } → Links o bound { s with entries := (drainFrom limit active entries queue).2.1 } := by
  intro queue
  induction queue with
  | nil => exact fun h => h
  | cons i queue ih =>
    intro active entries h
    rw [QueryScheduler.drainFrom]
    split_ifs
    · split
      · exact ih h
      · rename_i e he
        split_ifs
        · exact ih h
        have hok := h.entry i e he
        have hquiet : Quiet e { e with started := true } :=
          ⟨⟨rfl, rfl, id, fun _ hout => hout, fun _ hx => ⟨hx, rfl⟩⟩, rfl, rfl, rfl,
            ⟨fun _ => rfl, fun _ => rfl, hok.flags.completed, hok.flags.released⟩, hok.made⟩
        exact ih (h.quiet he hquiet)
    · exact h

/-- What holds between two steps of the scheduler, the queue apart. -/
structure Inv (o : QuerySchedulerOptions) (bound : Nat) (s : State Data Reason) : Prop where
  links : Links o bound s
  slots : Slots o.limit s.active s.entries s.queue

/-- A free slot leaves no one in the queue. -/
def Idle (o : QuerySchedulerOptions) (s : State Data Reason) : Prop := s.active < o.limit → s.queue = []

theorem Links.released_started (h : Links o bound s) : ∀ e ∈ s.entries, e.released = true → e.started = true := by
  intro e he hrel
  obtain ⟨i, hi⟩ := mem_iff_getElem?.mp he
  have hflags := (h.entry i e hi).flags
  exact hflags.result (hflags.completed (hflags.released hrel))

section
variable (h : Inv o bound s)
include h

theorem Inv.drain : Inv o bound (drain o s) ∧ Idle o (drain o s) := by
  obtain ⟨hslots, hidle⟩ := drainFrom_slots h.slots h.links.released_started
  have hlinks : Links o bound { s with entries := (QueryScheduler.drainFrom o.limit s.active s.entries s.queue).2.1 } :=
    Links.drainFrom h.links
  exact ⟨⟨hlinks.shrink fun _ _ hi => hi, hslots⟩, hidle⟩

theorem Inv.quiet (hi : s.entries[i]? = some e) (hquiet : Quiet e e') (hstarted : e'.started = e.started)
    (hrel : e'.released = e.released) : Inv o bound { s with entries := s.entries.set i e' } where
  links := h.links.quiet hi hquiet
  slots := h.slots.set hi (by rw [Entry.busy, Entry.busy, hstarted, hrel]) hstarted

/-! ### The events -/

theorem inv_start : Inv o bound (onEvent o s (.start i)) := by
  rw [onEvent]
  split
  · exact h
  · rename_i e he
    have hok := h.links.entry i e he
    split_ifs with hready haborted
    · simp only [and_eq_true, not_eq_true', isNone_iff_eq_none] at hready
      obtain ⟨⟨hstarted, hfetched⟩, hres⟩ := hready
      refine h.quiet he ⟨⟨rfl, rfl, id, ?_, fun _ hx => ⟨hx, rfl⟩⟩, rfl, rfl, rfl, ?_, fun _ _ => .inr haborted⟩ rfl rfl
      · intro out hout
        rw [hres] at hout
        cases hout
      · exact ⟨hok.flags.fetched, fun _ => hstarted, fun _ => some_ne_none _, hok.flags.released⟩
    · simp only [and_eq_true, not_eq_true', isNone_iff_eq_none] at hready
      obtain ⟨⟨hstarted, -⟩, hres⟩ := hready
      refine h.quiet he ⟨⟨rfl, rfl, fun _ => rfl, fun _ hout => hout, fun _ hx => ⟨hx, rfl⟩⟩, rfl, rfl, rfl, ?_, ?_⟩ rfl rfl
      · exact ⟨fun _ => hstarted, hok.flags.result, hok.flags.completed, hok.flags.released⟩
      · intro out hout
        rw [hres] at hout
        cases hout
    · exact h

theorem inv_settles (result : Except Reason Data) : Inv o bound (onEvent o s (.settles i result)) := by
  rw [onEvent]
  split
  · exact h
  · rename_i e he
    have hok := h.links.entry i e he
    split_ifs with hready
    · simp only [and_eq_true, isNone_iff_eq_none] at hready
      obtain ⟨hfetched, hres⟩ := hready
      refine h.quiet he ⟨⟨rfl, rfl, id, ?_, fun _ hx => ⟨hx, rfl⟩⟩, rfl, rfl, rfl, ?_, ?_⟩ rfl rfl
      · intro out hout
        rw [hres] at hout
        cases hout
      · exact ⟨hok.flags.fetched, fun _ => hok.flags.fetched hfetched, fun _ => some_ne_none _, hok.flags.released⟩
      · intro out hout
        refine .inl ⟨hfetched, ?_⟩
        obtain rfl := some.inj hout
        cases result with
        | ok data => exact fun heq => by cases heq
        | error reason => exact fun heq => by cases heq
    · exact h

theorem inv_finally (hidle : Idle o s) :
    Inv o bound (onEvent o s (.finally' i)) ∧ Idle o (onEvent o s (.finally' i)) := by
  rw [onEvent]
  split
  · exact ⟨h, hidle⟩
  · rename_i e he
    have hok := h.links.entry i e he
    split_ifs with hready
    · simp only [and_eq_true, not_eq_true'] at hready
      obtain ⟨hcompl, hrel⟩ := hready
      have hdone : e.completed ≠ none := isSome_iff_ne_none.mp hcompl
      have hstarted : e.started = true := hok.flags.result (hok.flags.completed hdone)
      have hquiet : Quiet e { e with released := true } :=
        ⟨⟨rfl, rfl, id, fun _ hout => hout, fun _ hx => ⟨hx, rfl⟩⟩, rfl, rfl, rfl,
          ⟨hok.flags.fetched, hok.flags.result, hok.flags.completed, fun _ => hdone⟩, hok.made⟩
      obtain ⟨hlt, hget⟩ := getElem_of_some he
      have hbusy : e.busy = true := by rw [Entry.busy, hstarted, hrel]; rfl
      refine Inv.drain ⟨(h.links.quiet he hquiet).shrink fun _ _ hj => (unpend_some hj).1, ?_, ?_, ?_, h.slots.nodup⟩
      · show s.active - 1 = (s.entries.set i { e with released := true }).countP Entry.busy
        rw [Lib.Semaphore.countP_lose hlt (hget.symm ▸ hbusy) (by simp [Entry.busy]), h.slots.busy]
      · exact (sub_le _ _).trans h.slots.bound
      · intro j hj
        obtain ⟨f, hf, hnot⟩ := h.slots.queued j hj
        have hne : i ≠ j := by
          rintro rfl
          obtain rfl := some.inj (he.symm.trans hf)
          rw [hstarted] at hnot
          cases hnot
        refine ⟨f, ?_, hnot⟩
        show (s.entries.set i { e with released := true })[j]? = some f
        rw [getElem?_set_of_some he, if_neg hne]
        exact hf
    · exact ⟨h, hidle⟩
end

theorem store_length (cache : List (Cached Data)) (now : ℚ) (out : Outcome Data Reason) (h : cache.length ≤ o.size) :
    (store o cache i e now out).length ≤ o.size := by
  cases out with
  | abortError => exact h
  | reason r => exact h
  | value data =>
  rw [store]
  split_ifs
  · simp only [length_drop]
    omega
  · exact h

theorem mem_store {cache : List (Cached Data)} {now : ℚ} {x : Cached Data}
    (hx : x ∈ store o cache i e now out) : x ∈ cache ∨ e.aborted = false ∧ e.subscribers ≠ [] ∧
      ∃ data, out = .value data ∧ x = ⟨e.key, data, (now : WithTop ℚ) + o.ttl, i⟩ := by
  cases out with
  | abortError => exact .inl hx
  | reason r => exact .inl hx
  | value data =>
  rw [store] at hx
  split_ifs at hx with hkept
  · simp only [and_eq_true, not_eq_true', isEmpty_eq_false_iff] at hkept
    rcases mem_append.mp (mem_of_mem_drop hx) with hx | hx
    · exact .inl (mem_of_mem_filter hx)
    · exact .inr ⟨hkept.1.1.1, hkept.1.1.2, data, rfl, mem_singleton.mp hx⟩
  · exact .inl hx

theorem Links.not_aborted (h : Links o bound s) (he : s.entries[i]? = some e) (hc : c ∈ e.subscribers) :
    e.aborted = false ∧ e.completed = none := by
  have hleft := (h.entry i e he).left
  have hne : e.subscribers ≠ [] := ne_nil_of_mem hc
  refine ⟨eq_false_iff.mpr fun haborted => hne (hleft (.inl haborted)), ?_⟩
  cases hcompl : e.completed with
  | none => rfl
  | some x => exact absurd (hleft (.inr (hcompl ▸ some_ne_none x))) hne

/-- **The callback gives the result of a fetch to its subscribers**, and to the cache. -/
theorem links_callback (h : Links o s.tick s) (he : s.entries[i]? = some e)
    (hres : e.result = some out) (hnone : e.completed = none) (now : ℚ) :
    Links o (s.tick + 1) (settle { s with cache := store o s.cache i e now out } i
      { e with completed := some (s.tick, now) } out) := by
  have hok := h.entry i e he
  have hgoes : Goes e { e with completed := some (s.tick, now), subscribers := [] } := by
    refine ⟨rfl, rfl, id, fun _ hout => hout, ?_⟩
    intro x hx
    rw [hnone] at hx
    cases hx
  have hself : (s.entries.set i { e with completed := some (s.tick, now), subscribers := [] })[i]? =
      some { e with completed := some (s.tick, now), subscribers := [] } := by
    rw [getElem?_set_of_some he, if_pos rfl]
  have hmade : ∀ {c : Nat}, c ∈ e.subscribers → e.fetched = true ∧ out ≠ .abortError := by
    intro c hc
    rcases hok.made out hres with hmade | haborted
    · exact hmade
    · rw [(h.not_aborted he hc).1] at haborted
      cases haborted
  refine h.move he hgoes (le_succ _) ?_ ?_ ?_ ?_ ?_ (store_length _ _ _ h.size)
  · refine ⟨hok.key, ⟨hok.flags.fetched, hok.flags.result, ?_, fun _ => some_ne_none _⟩, hok.made, fun _ => rfl,
      fun c hc => absurd hc not_mem_nil, ?_⟩
    · rw [hres]
      exact fun _ => some_ne_none _
    · intro t w ht
      obtain ⟨rfl, -⟩ := Prod.mk.inj (some.inj ht)
      exact lt_succ_self _
  · intro c call hcall horigin
    have hother : e.subscribers.contains c = false := by
      rw [eq_false_iff]
      intro hin
      obtain ⟨call', hcall', horigin', -⟩ := hok.subscribed c (contains_iff_mem.mp hin)
      obtain rfl := Option.some.inj (hcall.symm.trans hcall')
      exact horigin horigin'
    rw [List.getElem?_mapIdx, hcall, Option.map_some, hother, if_neg Bool.false_ne_true]
  · intro c call hc
    rw [List.getElem?_mapIdx] at hc
    obtain ⟨before, hpre, hcall⟩ := map_eq_some_iff.mp hc
    have hokc := h.call c before hpre
    have htick : ∀ t w, e.completed = none → some (s.tick, now) = some (t, w) → before.tick < t := by
      intro t w _ ht
      obtain ⟨rfl, -⟩ := Prod.mk.inj (some.inj ht)
      exact hokc.past
    by_cases hin : e.subscribers.contains c = true
    · rw [if_pos hin] at hcall
      subst hcall
      obtain ⟨call', hcall', horigin, -⟩ := hok.subscribed c (contains_iff_mem.mp hin)
      obtain rfl := some.inj (hpre.symm.trans hcall')
      obtain ⟨hfetched, hne⟩ := hmade (contains_iff_mem.mp hin)
      refine ⟨lt_succ_of_lt hokc.past, joined_set he hgoes hokc.joined htick, (fun hw => by cases hw), ?_, ?_⟩
      · intro hleft
        exact absurd (some.inj hleft) hne
      intro out' hout' _
      obtain rfl := some.inj hout'
      obtain ⟨f, hf, hkey, -⟩ := hokc.joined i horigin
      obtain rfl := some.inj (he.symm.trans hf)
      exact ⟨i, _, s.tick, now, hself, hkey, hfetched, (h.not_aborted he (contains_iff_mem.mp hin)).1, hres, rfl,
        .inl ⟨horigin, hokc.past⟩⟩
    · rw [if_neg hin] at hcall
      subst hcall
      exact hokc.set he hgoes (le_succ _) htick fun _ hmem => absurd (contains_iff_mem.mpr hmem) hin
  · intro k j hj
    obtain ⟨hj, hother⟩ := unpend_some hj
    refine ⟨hj, ?_⟩
    rintro rfl
    obtain ⟨f, hf, hkey, -⟩ := h.pending k _ hj
    obtain rfl := some.inj (he.symm.trans hf)
    exact absurd rfl (hother hkey.symm)
  · intro x hx
    rcases mem_store hx with hx | ⟨haborted, hsubscribers, data, rfl, rfl⟩
    · exact .inl hx
    · obtain ⟨c, hc⟩ := exists_mem_of_ne_nil _ hsubscribers
      exact .inr ⟨_, s.tick, now, hself, rfl, (hmade hc).1, haborted, hres, rfl, rfl⟩

theorem inv_callback (h : Inv o s.tick s) (now : ℚ) : Inv o (s.tick + 1) (onEvent o s (.callback i now)) := by
  rw [onEvent]
  split
  · exact ⟨h.links.later (le_succ _), h.slots⟩
  · rename_i e he
    split
    · rename_i out hres hnone
      exact ⟨links_callback h.links he hres hnone now, h.slots.set he rfl rfl⟩
    · exact ⟨h.links.later (le_succ _), h.slots⟩

/-! ### Aborts -/

def Leaves (s : State Data Reason) (signal c : Nat) : Prop :=
  ∃ call, s.calls[c]? = some call ∧ call.signal = signal ∧ call.outcome = none

theorem links_leave (h : Links o bound s) (hc : s.calls[c]? = some call)
    (hsignal : call.signal ∈ s.aborted) (he : s.entries[i]? = some e) (hmem : c ∈ e.subscribers)
    {a : Bool} (ha : a = true → e.subscribers.filter (· ≠ c) = [])
    (hpend : ∀ k j, pending k = some j → s.pending k = some j ∧ (a = true → k = e.key → j ≠ i)) :
    Links o bound { s with
      calls := s.calls.set c { call with outcome := some .abortError }
      entries := s.entries.set i { e with subscribers := e.subscribers.filter (· ≠ c), aborted := a }
      pending } := by
  have hok := h.entry i e he
  obtain ⟨haborted, hcompl⟩ := h.not_aborted he hmem
  have hgoes : Goes e { e with subscribers := e.subscribers.filter (· ≠ c), aborted := a } := by
    refine ⟨rfl, rfl, id, fun _ hout => hout, ?_⟩
    intro x hx
    rw [hcompl] at hx
    cases hx
  have htick : ∀ {call : Call Data Reason}, ∀ t w, e.completed = none → e.completed = some (t, w) → call.tick < t := by
    intro call t w hnone hsome
    rw [hnone] at hsome
    cases hsome
  refine h.move he hgoes (le_refl _) ?_ ?_ ?_ ?_ (fun _ hx => .inl hx) h.size
  · refine ⟨hok.key, ⟨hok.flags.fetched, hok.flags.result, hok.flags.completed, hok.flags.released⟩, ?_, ?_, ?_, hok.past⟩
    · intro out hout
      rcases hok.made out hout with hmade | hwas
      · exact .inl hmade
      · rw [haborted] at hwas
        cases hwas
    · rintro (htrue | hdone)
      · exact ha htrue
      · exact absurd hcompl hdone
    · intro c' hc'
      obtain ⟨hin, hne⟩ := mem_filter.mp hc'
      rw [getElem?_set_of_some hc, if_neg (Ne.symm (of_decide_eq_true hne))]
      exact hok.subscribed c' hin
  · intro c' call' hc' horigin
    rw [getElem?_set_of_some hc, if_neg]
    · exact hc'
    · rintro rfl
      obtain ⟨call'', hcall'', horigin', -⟩ := hok.subscribed c hmem
      obtain rfl := some.inj (hc'.symm.trans hcall'')
      exact horigin horigin'
  · intro c' call' hc'
    rw [getElem?_set_of_some hc] at hc'
    split_ifs at hc' with hsame
    · subst hsame
      obtain rfl := some.inj hc'
      have hokc := h.call c call hc
      exact ⟨hokc.past, joined_set he hgoes hokc.joined htick, (fun hw => by cases hw), fun _ => hsignal,
        fun out hout hne => absurd (some.inj hout).symm hne⟩
    · refine (h.call c' call' hc').set he hgoes (le_refl _) htick fun _ hin => ?_
      exact mem_filter.mpr ⟨hin, decide_eq_true (Ne.symm hsame)⟩
  · intro k j hj
    obtain ⟨hj, hnot⟩ := hpend k j hj
    refine ⟨hj, ?_⟩
    rintro rfl
    obtain ⟨f, hf, hkey, -⟩ := h.pending k _ hj
    obtain rfl := some.inj (he.symm.trans hf)
    exact ⟨eq_false_iff.mpr fun htrue => hnot htrue hkey.symm rfl, hcompl⟩

/-- What an abort leaves of an entry: all but its subscribers and its own abort. -/
def Alone (f f' : Entry Data Reason) : Prop := f' = { f with subscribers := f'.subscribers, aborted := f'.aborted }

theorem Alone.refl : Alone e e := rfl

theorem Alone.trans (h : Alone e e') (h' : Alone e' f) : Alone e f := by
  rw [Alone] at h h' ⊢
  rw [h', h]

/-- What an abort of the calls `left` does to the rest. -/
structure Frame (s s' : State Data Reason) (left : List Nat) : Prop where
  stay : ∀ c, c ∉ left → s'.calls[c]? = s.calls[c]?
  gone : ∀ c ∈ left, ∀ call, s.calls[c]? = some call → s'.calls[c]? = some { call with outcome := some .abortError }
  alone : ∀ (j : Nat) f, s.entries[j]? = some f → ∃ f', s'.entries[j]? = some f' ∧ Alone f f'
  aborted : s'.aborted = s.aborted
  active : s'.active = s.active
  queue : s'.queue.Sublist s.queue

theorem Frame.refl : Frame s s [] where
  stay _ _ := rfl
  gone _ hc := absurd hc not_mem_nil
  alone _ f hf := ⟨f, hf, Alone.refl⟩
  aborted := rfl
  active := rfl
  queue := List.Sublist.refl _

theorem abortSubscriber_spec (h : Inv o bound s) (hsignal : signal ∈ s.aborted) (hc : Leaves s signal c) :
    Inv o bound (abortSubscriber s c) ∧ Frame s (abortSubscriber s c) [c] := by
  obtain ⟨call, hcall, hsame, hnone⟩ := hc
  obtain ⟨i, e, horigin, he, hmem⟩ := (h.links.call c call hcall).waiting hnone
  obtain ⟨request, signal', tick, now, origin, outcome⟩ := call
  obtain rfl : origin = .joined i := horigin
  have hset : ∀ {e' : Entry Data Reason}, Alone e e' → ∀ (j : Nat) f, s.entries[j]? = some f →
      ∃ f', (s.entries.set i e')[j]? = some f' ∧ Alone f f' := by
    intro e' halone j f hf
    rw [getElem?_set_of_some he]
    split_ifs with hij
    · subst hij
      obtain rfl := some.inj (he.symm.trans hf)
      exact ⟨e', rfl, halone⟩
    · exact ⟨f, hf, Alone.refl⟩
  have hstay : ∀ c', c' ∉ [c] → (s.calls.set c ⟨request, signal', tick, now, .joined i, some .abortError⟩)[c']? = s.calls[c']? := by
    intro c' hc'
    rw [getElem?_set_of_some hcall, if_neg fun heq => hc' (mem_singleton.mpr heq.symm)]
  have hgone : ∀ c' ∈ [c], ∀ call', s.calls[c']? = some call' →
      (s.calls.set c ⟨request, signal', tick, now, .joined i, some .abortError⟩)[c']? = some { call' with outcome := some .abortError } := by
    intro c' hc' call' hcall'
    obtain rfl := mem_singleton.mp hc'
    obtain rfl := some.inj (hcall.symm.trans hcall')
    rw [getElem?_set_of_some hcall, if_pos rfl]
  rw [abortSubscriber]
  simp only [hcall, he]
  split_ifs with hempty
  · have hlinks := links_leave (a := true) h.links hcall (hsame ▸ hsignal) he hmem (fun _ => isEmpty_iff.mp hempty)
      fun k j hj => ⟨(unpend_some hj).1, fun _ => (unpend_some hj).2⟩
    have hslots : Slots o.limit s.active
        (s.entries.set i { e with subscribers := e.subscribers.filter (· ≠ c), aborted := true }) s.queue :=
      h.slots.set he rfl rfl
    have herase : (s.queue.erase i).Sublist s.queue := erase_sublist
    exact ⟨⟨hlinks.shrink fun _ _ hj => hj, hslots.sublist herase⟩, ⟨hstay, hgone, hset rfl, rfl, rfl, herase⟩⟩
  · have hlinks := links_leave (a := e.aborted) h.links hcall (hsame ▸ hsignal) he hmem
      (fun haborted => by rw [(h.links.not_aborted he hmem).1] at haborted; cases haborted)
      fun k j hj => ⟨hj, fun haborted => by rw [(h.links.not_aborted he hmem).1] at haborted; cases haborted⟩
    exact ⟨⟨hlinks, h.slots.set he rfl rfl⟩, ⟨hstay, hgone, hset rfl, rfl, rfl, List.Sublist.refl _⟩⟩

theorem Frame.cons {s'' : State Data Reason} {rest : List Nat} (h : Frame s s' [c]) (h' : Frame s' s'' rest)
    (hc : c ∉ rest) : Frame s s'' (c :: rest) where
  stay c' hc' := by
    rw [h'.stay c' fun hin => hc' (mem_cons_of_mem _ hin),
      h.stay c' fun hin => hc' (mem_singleton.mp hin ▸ mem_cons_self)]
  gone c' hc' call hcall := by
    rcases mem_cons.mp hc' with rfl | hin
    · rw [h'.stay c' hc]
      exact h.gone c' mem_cons_self call hcall
    · refine h'.gone c' hin call ?_
      rw [h.stay c' fun heq => hc (mem_singleton.mp heq ▸ hin)]
      exact hcall
  alone j f hf := by
    obtain ⟨f', hf', halone⟩ := h.alone j f hf
    obtain ⟨f'', hf'', halone'⟩ := h'.alone j f' hf'
    exact ⟨f'', hf'', halone.trans halone'⟩
  aborted := h'.aborted.trans h.aborted
  active := h'.active.trans h.active
  queue := h'.queue.trans h.queue

theorem abortAll_spec : ∀ {left : List Nat} {s : State Data Reason}, Inv o bound s → signal ∈ s.aborted →
    left.Nodup → (∀ c ∈ left, Leaves s signal c) →
      Inv o bound (left.foldl abortSubscriber s) ∧ Frame s (left.foldl abortSubscriber s) left := by
  intro left
  induction left with
  | nil => exact fun h _ _ _ => ⟨h, Frame.refl⟩
  | cons c rest ih =>
    intro s h hsignal hnd hleaves
    obtain ⟨hc, hrest⟩ := nodup_cons.mp hnd
    obtain ⟨hinv, hframe⟩ := abortSubscriber_spec h hsignal (hleaves c mem_cons_self)
    have hleaves' : ∀ c' ∈ rest, Leaves (abortSubscriber s c) signal c' := by
      intro c' hc'
      obtain ⟨call, hcall, hsame, hnone⟩ := hleaves c' (mem_cons_of_mem _ hc')
      refine ⟨call, ?_, hsame, hnone⟩
      rw [hframe.stay c' fun heq => hc (mem_singleton.mp heq ▸ hc')]
      exact hcall
    obtain ⟨hinv', hframe'⟩ := ih hinv (hframe.aborted ▸ hsignal) hrest hleaves'
    exact ⟨hinv', hframe.cons hframe' hc⟩

theorem mem_listeners : c ∈ listeners s signal ↔ Leaves s signal c := by
  rw [listeners, mem_filter, mem_range, Option.any_eq_true]
  constructor
  · rintro ⟨-, call, hcall, hboth⟩
    rw [and_eq_true, beq_iff_eq, isNone_iff_eq_none] at hboth
    exact ⟨call, hcall, hboth.1, hboth.2⟩
  · rintro ⟨call, hcall, hsignal, hnone⟩
    refine ⟨(getElem_of_some hcall).1, call, hcall, ?_⟩
    rw [and_eq_true, beq_iff_eq, isNone_iff_eq_none]
    exact ⟨hsignal, hnone⟩

/-- **An abort takes its own callers away and leaves the others.** -/
theorem abort_spec (h : Inv o bound s) (signal : Nat) : Inv o bound (onEvent o s (.abort signal)) ∧
    Frame { s with aborted := signal :: s.aborted } (onEvent o s (.abort signal)) (listeners s signal) := by
  have hstart : Inv o bound { s with aborted := signal :: s.aborted } := by
    refine ⟨⟨h.links.entry, ?_, h.links.pending, h.links.cache, h.links.size⟩, h.slots⟩
    intro c call hc
    exact { h.links.call c call hc with left := fun hleft => mem_cons_of_mem _ ((h.links.call c call hc).left hleft) }
  have hnd : (listeners s signal).Nodup := nodup_range.filter _
  exact abortAll_spec hstart mem_cons_self hnd fun c hc => mem_listeners.mp hc

/-! ### Calls -/

theorem getElem?_append_of_some {α : Type} {l : List α} {x y : α} (h : l[i]? = some x) : (l ++ [y])[i]? = some x := by
  rw [List.getElem?_append_left (getElem_of_some h).1]
  exact h

theorem getElem?_append_cases {α : Type} {l : List α} {x y : α} (h : (l ++ [y])[i]? = some x) :
    l[i]? = some x ∨ i = l.length ∧ x = y := by
  by_cases hi : i < l.length
  · rw [List.getElem?_append_left hi] at h
    exact .inl h
  · rw [List.getElem?_append_right (not_lt.mp hi), List.getElem?_singleton] at h
    split_ifs at h with hzero
    exact .inr ⟨by omega, (some.inj h).symm⟩

theorem EntryOk.append (h : EntryOk bound s.calls i e) (call : Call Data Reason) : EntryOk bound (s.calls ++ [call]) i e :=
  { h with
    subscribed := fun c hc => by
      obtain ⟨call', hcall', hrest⟩ := h.subscribed c hc
      exact ⟨call', getElem?_append_of_some hcall', hrest⟩ }

theorem Links.answer (h : Links o bound s) (hok : CallOk o bound s.entries s.aborted s.calls.length call) :
    Links o bound { s with calls := s.calls ++ [call] } where
  entry i e he := (h.entry i e he).append call
  call c call' hc := by
    rcases getElem?_append_cases hc with hc | ⟨rfl, rfl⟩
    · exact h.call c call' hc
    · exact hok
  pending := h.pending
  cache := h.cache
  size := h.size

theorem Links.attach (h : Links o bound s) (he : s.entries[i]? = some e) (haborted : e.aborted = false)
    (hcompl : e.completed = none) (hcall : call.origin = .joined i) (hnone : call.outcome = none)
    (hpast : call.tick < bound) (hkey : e.request.key = call.request.key) :
    Links o bound { s with
      entries := s.entries.set i { e with subscribers := e.subscribers ++ [s.calls.length] }
      calls := s.calls ++ [call] } := by
  have hok := h.entry i e he
  have hgoes : Goes e { e with subscribers := e.subscribers ++ [s.calls.length] } :=
    ⟨rfl, rfl, id, fun _ hout => hout, fun _ hx => ⟨hx, rfl⟩⟩
  have hself : (s.entries.set i { e with subscribers := e.subscribers ++ [s.calls.length] })[i]? =
      some { e with subscribers := e.subscribers ++ [s.calls.length] } := by
    rw [getElem?_set_of_some he, if_pos rfl]
  have htick : ∀ {call : Call Data Reason}, ∀ t w, e.completed = none → e.completed = some (t, w) → call.tick < t := by
    intro call t w hnone hsome
    rw [hnone] at hsome
    cases hsome
  refine h.move he hgoes (le_refl _) ?_ (fun _ _ hc _ => getElem?_append_of_some hc) ?_ ?_ (fun _ hx => .inl hx) h.size
  · refine ⟨hok.key, ⟨hok.flags.fetched, hok.flags.result, hok.flags.completed, hok.flags.released⟩, hok.made, ?_, ?_, hok.past⟩
    · rintro (htrue | hdone)
      · exact absurd (haborted.symm.trans htrue) false_ne_true
      · exact absurd hcompl hdone
    intro c hc
    rcases mem_append.mp hc with hc | hc
    · exact (hok.append call).subscribed c hc
    · obtain rfl := mem_singleton.mp hc
      exact ⟨call, List.getElem?_concat_length, hcall, hnone⟩
  · intro c call' hc
    rcases getElem?_append_cases hc with hc | ⟨rfl, rfl⟩
    · exact (h.call c call' hc).set he hgoes (le_refl _) htick fun _ hin => mem_append_left _ hin
    refine ⟨hpast, ?_, fun _ => ⟨i, _, hcall, hself, mem_append_right _ mem_cons_self⟩, ?_, ?_⟩
    · intro j hj
      obtain rfl := Origin.joined.inj (hcall.symm.trans hj)
      exact ⟨_, hself, hkey, fun t w ht => htick t w hcompl ht⟩
    · intro hout
      rw [hnone] at hout
      cases hout
    · intro out hout
      rw [hnone] at hout
      cases hout
  · intro k j hj
    refine ⟨hj, ?_⟩
    rintro rfl
    exact ⟨haborted, hcompl⟩

theorem Inv.create (h : Inv o bound s) (request : QueryRequest) : Inv o bound { s with
    entries := s.entries ++ [{ key := request.key, request }]
    pending := update s.pending request.key (some s.entries.length)
    queue := s.queue ++ [s.entries.length] } := by
  have hgoes : ∀ (j : Nat) f, s.entries[j]? = some f →
      ∃ f', (s.entries ++ [{ key := request.key, request }])[j]? = some f' ∧ Goes f f' :=
    fun j f hf => ⟨f, getElem?_append_of_some hf, Goes.refl⟩
  refine ⟨⟨?_, ?_, ?_, fun x hx => (h.links.cache x hx).goes hgoes, h.links.size⟩, ?_, h.slots.bound, ?_, ?_⟩
  · intro j f hf
    rcases getElem?_append_cases hf with hf | ⟨rfl, rfl⟩
    · exact h.links.entry j f hf
    refine ⟨rfl, ⟨?_, ?_, ?_, ?_⟩, ?_, fun _ => rfl, fun c hc => absurd hc not_mem_nil, ?_⟩
    · exact fun hf => by cases hf
    · exact fun hne => absurd rfl hne
    · exact fun hne => absurd rfl hne
    · exact fun hf => by cases hf
    · exact fun out hout => by cases hout
    · exact fun t w ht => by cases ht
  · intro c call hc
    have hokc := h.links.call c call hc
    refine ⟨hokc.past, ?_, ?_, hokc.left, fun out hout hne => (hokc.delivered out hout hne).goes hgoes⟩
    · intro j hj
      obtain ⟨f, hf, hrest⟩ := hokc.joined j hj
      exact ⟨f, getElem?_append_of_some hf, hrest⟩
    · intro hw
      obtain ⟨j, f, horigin, hf, hmem⟩ := hokc.waiting hw
      exact ⟨j, f, horigin, getElem?_append_of_some hf, hmem⟩
  · intro k j hj
    by_cases hk : k = request.key
    · subst hk
      obtain rfl : s.entries.length = j := by simpa using hj
      exact ⟨_, List.getElem?_concat_length, rfl, rfl, rfl⟩
    · have hj' : s.pending k = some j := by simpa [update_of_ne hk] using hj
      obtain ⟨f, hf, hrest⟩ := h.links.pending k j hj'
      exact ⟨f, getElem?_append_of_some hf, hrest⟩
  · show s.active = (s.entries ++ [_]).countP Entry.busy
    rw [countP_append, h.slots.busy]
    rfl
  · intro j hj
    rcases mem_append.mp hj with hj | hj
    · obtain ⟨f, hf, hnot⟩ := h.slots.queued j hj
      exact ⟨f, getElem?_append_of_some hf, hnot⟩
    · obtain rfl := mem_singleton.mp hj
      exact ⟨_, List.getElem?_concat_length, rfl⟩
  · refine nodup_append.mpr ⟨h.slots.nodup, nodup_cons.mpr ⟨not_mem_nil, nodup_nil⟩, ?_⟩
    rintro j hj j' hj' rfl
    obtain rfl := mem_singleton.mp hj'
    obtain ⟨f, hf, -⟩ := h.slots.queued _ hj
    exact absurd (getElem_of_some hf).1 (lt_irrefl _)

/-- **A call that joins**: the entries and the queue stay as they should be. -/
theorem join_spec (h : Inv o s.tick s) (request : QueryRequest) (signal : Nat) (now : ℚ) :
    Inv o (s.tick + 1) (join o s request signal now) ∧ Idle o (join o s request signal now) ∧
      (join o s request signal now).aborted = s.aborted ∧
      ∃ i, (join o s request signal now).calls = s.calls ++ [⟨request, signal, s.tick, now, .joined i, none⟩] := by
  have hlater : Inv o (s.tick + 1) s := ⟨h.links.later (le_succ _), h.slots⟩
  rw [join]
  split
  · rename_i i hpend
    obtain ⟨e, he, hkey, haborted, hcompl⟩ := h.links.pending _ _ hpend
    rw [he]
    have hlinks : Links o (s.tick + 1) { s with
        entries := s.entries.set i { e with subscribers := e.subscribers ++ [s.calls.length] }
        calls := s.calls ++ [⟨request, signal, s.tick, now, .joined i, none⟩] } :=
      hlater.links.attach he haborted hcompl rfl rfl (lt_succ_self _) ((hlater.links.entry i e he).key.symm.trans hkey)
    have hslots : Slots o.limit s.active (s.entries.set i { e with subscribers := e.subscribers ++ [s.calls.length] }) s.queue :=
      h.slots.set he rfl rfl
    obtain ⟨hinv, hidle⟩ := Inv.drain ⟨hlinks, hslots⟩
    exact ⟨hinv, hidle, rfl, i, rfl⟩
  · have hcreated := hlater.create request
    let fresh : Entry Data Reason := { key := request.key, request }
    let call : Call Data Reason := ⟨request, signal, s.tick, now, .joined s.entries.length, none⟩
    have he : (s.entries ++ [fresh])[s.entries.length]? = some fresh := List.getElem?_concat_length
    have hlinks : Links o (s.tick + 1) { s with
        entries := (s.entries ++ [fresh]).set s.entries.length { fresh with subscribers := [s.calls.length] }
        pending := update s.pending request.key (some s.entries.length)
        queue := s.queue ++ [s.entries.length]
        calls := s.calls ++ [call] } :=
      hcreated.links.attach he rfl rfl rfl rfl (lt_succ_self _) rfl
    have hslots : Slots o.limit s.active ((s.entries ++ [fresh]).set s.entries.length
        { fresh with subscribers := [s.calls.length] }) (s.queue ++ [s.entries.length]) :=
      hcreated.slots.set he rfl rfl
    have hset : (s.entries ++ [fresh]).set s.entries.length { fresh with subscribers := [s.calls.length] } =
        s.entries ++ [{ fresh with subscribers := [s.calls.length] }] := by
      rw [set_append_right _ _ (le_refl _), Nat.sub_self]
      rfl
    have hinv : Inv o (s.tick + 1) { s with
        entries := s.entries ++ [{ fresh with subscribers := [s.calls.length] }]
        pending := update s.pending request.key (some s.entries.length)
        queue := s.queue ++ [s.entries.length]
        calls := s.calls ++ [call] } := by
      rw [← hset]
      exact ⟨hlinks, hslots⟩
    obtain ⟨hinv, hidle⟩ := hinv.drain
    exact ⟨hinv, hidle, rfl, s.entries.length, rfl⟩

/-- A call settles at once, from the cache or because its signal is aborted, or it joins. -/
theorem enter_spec (h : Inv o s.tick s) (hidle : Idle o s) (request : QueryRequest) (signal : Nat) (now : ℚ) :
    Inv o (s.tick + 1) (enter o s request signal now) ∧ Idle o (enter o s request signal now) ∧
      (enter o s request signal now).aborted = s.aborted ∧
      ∃ call, (enter o s request signal now).calls = s.calls ++ [call] ∧ call.request = request ∧ call.signal = signal ∧
        call.now = now ∧ (call.outcome = none → signal ∉ s.aborted) := by
  have hlater : Inv o (s.tick + 1) s := ⟨h.links.later (le_succ _), h.slots⟩
  rw [enter]
  split_ifs with haborted
  · have hok : CallOk o (s.tick + 1) s.entries s.aborted s.calls.length
        (⟨request, signal, s.tick, now, .refused, some .abortError⟩ : Call Data Reason) := by
      refine ⟨lt_succ_self _, (fun j hj => by cases hj), (fun hw => by cases hw), fun _ => contains_iff_mem.mp haborted, ?_⟩
      intro out hout hne
      exact absurd (some.inj hout).symm hne
    exact ⟨⟨hlater.links.answer hok, h.slots⟩, hidle, rfl, _, rfl, rfl, rfl, rfl, fun hw => by cases hw⟩
  have hnot : signal ∉ s.aborted := fun hin => haborted (contains_iff_mem.mpr hin)
  have hjoin : ∀ {s' : State Data Reason}, Inv o s'.tick s' → s'.aborted = s.aborted → s'.calls = s.calls →
      Inv o (s'.tick + 1) (join o s' request signal now) ∧ Idle o (join o s' request signal now) ∧
        (join o s' request signal now).aborted = s.aborted ∧
        ∃ call, (join o s' request signal now).calls = s.calls ++ [call] ∧ call.request = request ∧ call.signal = signal ∧
          call.now = now ∧ (call.outcome = none → signal ∉ s.aborted) := by
    intro s' h' hsame hcalls
    obtain ⟨hinv, hidle', habort, i, hnew⟩ := join_spec h' request signal now
    exact ⟨hinv, hidle', habort.trans hsame, _, hcalls ▸ hnew, rfl, rfl, rfl, fun _ => hnot⟩
  have hfilter : ∀ x ∈ s.cache.filter (fun x => x.key ≠ request.key), x ∈ s.cache := fun x hx => mem_of_mem_filter hx
  split
  · exact hjoin h rfl rfl
  · rename_i cached hfind
    have hcached := mem_of_find?_eq_some hfind
    have hkey : cached.key = request.key := by simpa using List.find?_some hfind
    split_ifs with hfresh
    · obtain ⟨e, t, w, he, hekey, hfetched, hea, hres, hcompl, hexpires⟩ := h.links.cache cached hcached
      have hsize : (s.cache.filter fun x => x.key ≠ request.key).length < s.cache.length :=
        length_filter_lt_length_iff_exists.mpr ⟨cached, hcached, by simpa using hkey⟩
      have hok : CallOk o (s.tick + 1) s.entries s.aborted s.calls.length
          (⟨request, signal, s.tick, now, .cached cached.entry, some (.value cached.data)⟩ : Call Data Reason) := by
        refine ⟨lt_succ_self _, (fun j hj => by cases hj), (fun hw => by cases hw), (fun hleft => by cases hleft), ?_⟩
        intro out hout _
        obtain rfl := some.inj hout
        have hreq : e.request.key = request.key := ((h.links.entry _ e he).key.symm.trans hekey).trans hkey
        exact ⟨cached.entry, e, t, w, he, hreq, hfetched, hea, hres, hcompl,
          .inr ⟨rfl, (h.links.entry _ e he).past t w hcompl, hexpires ▸ hfresh⟩⟩
      have hlinks := hlater.links.answer hok
      refine ⟨⟨⟨hlinks.entry, hlinks.call, hlinks.pending, ?_, ?_⟩, h.slots⟩, hidle, rfl, _, rfl, rfl, rfl, rfl, fun _ => hnot⟩
      · intro x hx
        rcases mem_append.mp hx with hx | hx
        · exact h.links.cache x (hfilter x hx)
        · obtain rfl := mem_singleton.mp hx
          exact h.links.cache x hcached
      · show (s.cache.filter (fun x => x.key ≠ request.key) ++ [cached]).length ≤ o.size
        rw [length_append, length_singleton]
        exact hsize.trans_le h.links.size
    · have hlinks : Links o s.tick { s with cache := s.cache.filter fun x => x.key ≠ request.key } :=
        ⟨h.links.entry, h.links.call, h.links.pending, fun x hx => h.links.cache x (hfilter x hx),
          (length_filter_le _ _).trans h.links.size⟩
      have hstart : Inv o s.tick { s with cache := s.cache.filter fun x => x.key ≠ request.key } := ⟨hlinks, h.slots⟩
      exact @hjoin { s with cache := s.cache.filter fun x => x.key ≠ request.key } hstart rfl rfl

/-! ### Runs -/

/-- The calls of before are still there, and those that have settled have not changed. -/
def Once (s s' : State Data Reason) : Prop :=
  ∀ (c : Nat) call, s.calls[c]? = some call →
    ∃ out, s'.calls[c]? = some { call with outcome := out } ∧ (call.outcome ≠ none → out = call.outcome)

def Heard (s : State Data Reason) : Prop :=
  ∀ (c : Nat) call, s.calls[c]? = some call → call.outcome = none → call.signal ∉ s.aborted

theorem Once.of_eq (h : s'.calls = s.calls) : Once s s' := fun _ call hc => ⟨call.outcome, h ▸ hc, fun _ => rfl⟩

theorem Once.trans {s'' : State Data Reason} (h : Once s s') (h' : Once s' s'') : Once s s'' := by
  intro c call hc
  obtain ⟨out, hc', hout⟩ := h c call hc
  obtain ⟨out', hc'', hout'⟩ := h' c _ hc'
  refine ⟨out', hc'', ?_⟩
  intro hsettled
  have hsame := hout hsettled
  exact (hout' fun hnone => hsettled (hsame.symm.trans hnone)).trans hsame

theorem Heard.of_eq (h : Heard s) (hcalls : s'.calls = s.calls) (haborted : s'.aborted = s.aborted) : Heard s' := by
  intro c call hc
  rw [hcalls] at hc
  rw [haborted]
  exact h c call hc

/-- What every event keeps. -/
structure Kept (o : QuerySchedulerOptions) (s s' : State Data Reason) : Prop where
  inv : Inv o (s.tick + 1) s'
  idle : Idle o s'
  heard : Heard s'
  once : Once s s'

theorem settles_rest (result : Except Reason Data) :
    onEvent o s (.settles i result) = { s with entries := (onEvent o s (.settles i result)).entries } := by
  rw [onEvent]
  split
  · rfl
  · split_ifs <;> rfl

theorem finally_rest : (onEvent o s (.finally' i)).calls = s.calls ∧ (onEvent o s (.finally' i)).aborted = s.aborted := by
  rw [onEvent]
  split
  · exact ⟨rfl, rfl⟩
  · split_ifs
    · exact ⟨rfl, rfl⟩
    · exact ⟨rfl, rfl⟩

theorem callback_rest (now : ℚ) : (onEvent o s (.callback i now)).active = s.active ∧
    (onEvent o s (.callback i now)).queue = s.queue ∧ (onEvent o s (.callback i now)).aborted = s.aborted := by
  rw [onEvent]
  split
  · exact ⟨rfl, rfl, rfl⟩
  · split
    · exact ⟨rfl, rfl, rfl⟩
    · exact ⟨rfl, rfl, rfl⟩

theorem callback_once (h : Inv o bound s) (now : ℚ) : Once s (onEvent o s (.callback i now)) := by
  rw [onEvent]
  split
  · exact Once.of_eq rfl
  · rename_i e he
    split
    · rename_i out hres hnone
      intro c call hc
      simp only [settle, List.getElem?_mapIdx, hc, map_some]
      split_ifs with hin
      · refine ⟨some out, rfl, ?_⟩
        intro hsettled
        obtain ⟨call', hcall', -, hwaits⟩ := (h.links.entry i e he).subscribed c (contains_iff_mem.mp hin)
        obtain rfl := some.inj (hc.symm.trans hcall')
        exact absurd hwaits hsettled
      · exact ⟨call.outcome, rfl, fun _ => rfl⟩
    · exact Once.of_eq rfl

theorem Once.heard (h : Once s s') (hlen : s'.calls.length = s.calls.length) (haborted : s'.aborted = s.aborted)
    (hs : Heard s) : Heard s' := by
  intro c call' hc' hwaits
  have hlt : c < s.calls.length := hlen ▸ (getElem_of_some hc').1
  obtain ⟨out, hout, hsame⟩ := h c s.calls[c] (List.getElem?_eq_getElem hlt)
  obtain rfl := some.inj (hc'.symm.trans hout)
  have hpre : s.calls[c].outcome = none := by
    by_contra hsettled
    exact hsettled ((hsame hsettled).symm.trans hwaits)
  rw [haborted]
  exact hs c s.calls[c] (List.getElem?_eq_getElem hlt) hpre

section
variable (h : Inv o s.tick s) (hidle : Idle o s) (hs : Heard s)
include h hidle hs

theorem kept_abort (signal : Nat) : Kept o s (onEvent o s (.abort signal)) := by
  obtain ⟨hinv, hframe⟩ := abort_spec h signal
  refine ⟨⟨hinv.links.later (le_succ _), hinv.slots⟩, ?_, ?_, ?_⟩
  · intro hroom
    rw [hframe.active] at hroom
    exact eq_nil_of_sublist_nil (hidle hroom ▸ hframe.queue)
  · intro c call hc hwaits
    by_cases hin : c ∈ listeners s signal
    · obtain ⟨call', hcall', -, -⟩ := mem_listeners.mp hin
      have hgone := hframe.gone c hin call' hcall'
      obtain rfl := some.inj (hc.symm.trans hgone)
      cases hwaits
    have hpre : s.calls[c]? = some call := (hframe.stay c hin).symm.trans hc
    rw [hframe.aborted]
    intro hab
    rcases mem_cons.mp hab with hsame | hab
    · exact hin (mem_listeners.mpr ⟨call, hpre, hsame, hwaits⟩)
    · exact hs c call hpre hwaits hab
  · intro c call hc
    by_cases hin : c ∈ listeners s signal
    · obtain ⟨call', hcall', -, hwaits⟩ := mem_listeners.mp hin
      obtain rfl := some.inj (hc.symm.trans hcall')
      exact ⟨_, hframe.gone c hin call hc, fun hsettled => absurd hwaits hsettled⟩
    · exact ⟨call.outcome, (hframe.stay c hin).trans hc, fun _ => rfl⟩

theorem kept_call (request : QueryRequest) (signal : Nat) (now : ℚ) :
    Kept o s (onEvent o s (.call request signal now)) := by
  obtain ⟨hinv, hidle', haborted, call, hcalls, -, hsignal, -, hnew⟩ := enter_spec h hidle request signal now
  refine ⟨hinv, hidle', ?_, ?_⟩
  · intro c call' hc
    rw [onEvent, hcalls] at hc
    rw [onEvent, haborted]
    rcases getElem?_append_cases hc with hc | ⟨-, rfl⟩
    · exact hs c call' hc
    · exact hsignal ▸ hnew
  · intro c call' hc
    refine ⟨call'.outcome, ?_, fun _ => rfl⟩
    rw [onEvent, hcalls]
    exact getElem?_append_of_some hc

/-- **Every event keeps the invariant, and no call settles twice.** -/
theorem kept_event : ∀ e, Kept o s (onEvent o s e) := by
  intro e
  cases e with
  | call request signal now => exact kept_call h hidle hs request signal now
  | abort signal => exact kept_abort h hidle hs signal
  | start i =>
    have hinv := inv_start (i := i) h
    rw [start_rest] at hinv ⊢
    exact ⟨⟨hinv.links.later (le_succ _), hinv.slots⟩, hidle, hs, Once.of_eq rfl⟩
  | settles i result =>
    have hinv := inv_settles (i := i) h result
    rw [settles_rest] at hinv ⊢
    exact ⟨⟨hinv.links.later (le_succ _), hinv.slots⟩, hidle, hs, Once.of_eq rfl⟩
  | callback i now =>
    obtain ⟨hactive, hqueue, haborted⟩ := callback_rest (o := o) (s := s) (i := i) now
    have honce := callback_once (i := i) h now
    have hlen : (onEvent o s (.callback i now)).calls.length = s.calls.length := by
      rw [onEvent]
      split
      · rfl
      · split
        · exact length_mapIdx
        · rfl
    refine ⟨inv_callback h now, ?_, honce.heard hlen haborted hs, honce⟩
    rw [Idle, hactive, hqueue]
    exact hidle
  | finally' i =>
    obtain ⟨hinv, hidle'⟩ := inv_finally (i := i) h hidle
    obtain ⟨hcalls, haborted⟩ := finally_rest (o := o) (s := s) (i := i)
    exact ⟨⟨hinv.links.later (le_succ _), hinv.slots⟩, hidle', hs.of_eq hcalls haborted, Once.of_eq hcalls⟩
end

/-- What holds between events. -/
structure Safe (o : QuerySchedulerOptions) (s : State Data Reason) : Prop where
  inv : Inv o s.tick s
  idle : Idle o s
  heard : Heard s

theorem safe_init : Safe o ({} : State Data Reason) where
  inv := by
    refine ⟨⟨?_, ?_, ?_, fun x hx => absurd hx not_mem_nil, zero_le _⟩, rfl, zero_le _, ?_, nodup_nil⟩
    · exact fun i e he => by cases he
    · exact fun c call hc => by cases hc
    · exact fun k i hi => by cases hi
    · exact fun i hi => absurd hi not_mem_nil
  idle _ := rfl
  heard c call hc := by cases hc

theorem safe_step (h : Safe o s) (e : Event Data Reason) : Safe o (step o s e) ∧ Once s (step o s e) := by
  obtain ⟨hinv, hidle, hheard, honce⟩ := kept_event h.inv h.idle h.heard e
  exact ⟨⟨⟨⟨hinv.links.entry, hinv.links.call, hinv.links.pending, hinv.links.cache, hinv.links.size⟩, hinv.slots⟩, hidle, hheard⟩,
    honce⟩

theorem safe_run (h : Safe o s) (events : List (Event Data Reason)) :
    Safe o (run (step o) s events) ∧ Once s (run (step o) s events) := by
  have hboth : ∀ s' e, Safe o s' ∧ Once s s' → Safe o (step o s' e) ∧ Once s (step o s' e) := by
    intro s' e ⟨hsafe, honce⟩
    obtain ⟨hsafe', honce'⟩ := safe_step hsafe e
    exact ⟨hsafe', honce.trans honce'⟩
  exact run_invariant (step o) hboth events s ⟨h, Once.of_eq rfl⟩

/-! ### The scheduler as a whole -/

/-- The fetcher has been called and has not settled. -/
def Entry.inFlight (e : Entry Data Reason) : Bool := e.fetched && e.result.isNone

/-- A callback of the fetch is to run: the one that calls the fetcher, the one that takes its result, or the last. -/
def Entry.callbackPending (e : Entry Data Reason) : Bool :=
  e.started && !e.fetched && e.result.isNone || e.result.isSome && e.completed.isNone || e.completed.isSome && !e.released

theorem inFlight_busy (h : Flags e) (hin : e.inFlight = true) : e.busy = true := by
  rw [Entry.inFlight, Bool.and_eq_true, Option.isNone_iff_eq_none] at hin
  obtain ⟨hfetched, hres⟩ := hin
  rw [Entry.busy, h.fetched hfetched, Bool.true_and, Bool.not_eq_true']
  exact Bool.eq_false_iff.mpr fun hrel => h.completed (h.released hrel) hres

theorem busy_inFlight (hquiet : e.callbackPending = false) (hbusy : e.busy = true) : e.inFlight = true := by
  revert hquiet hbusy
  rw [Entry.callbackPending, Entry.busy, Entry.inFlight]
  cases e.started <;> cases e.fetched <;> cases e.result <;> cases e.completed <;> cases e.released <;> simp

theorem flags_of_mem (h : Links o bound s) (he : e ∈ s.entries) : Flags e := by
  obtain ⟨i, hi⟩ := mem_iff_getElem?.mp he
  exact (h.entry i e hi).flags

/-- **The bound on fetches.** -/
theorem Inv.inFlight_le (h : Inv o bound s) : s.entries.countP Entry.inFlight ≤ o.limit := by
  have hle : s.entries.countP Entry.inFlight ≤ s.entries.countP Entry.busy :=
    countP_mono_left fun e he => inFlight_busy (flags_of_mem h.links he)
  rw [← h.slots.busy] at hle
  exact hle.trans h.slots.bound

/-- **No lost wake-up.**  With no callback to come, a free slot means that nobody waits. -/
theorem Safe.queue_nil (h : Safe o s) (hquiet : ∀ e ∈ s.entries, e.callbackPending = false)
    (hroom : s.entries.countP Entry.inFlight < o.limit) : s.queue = [] := by
  refine h.idle ?_
  rw [h.inv.slots.busy]
  have hle : s.entries.countP Entry.busy ≤ s.entries.countP Entry.inFlight :=
    countP_mono_left fun e he => busy_inFlight (hquiet e he)
  exact hle.trans_lt hroom

theorem Links.aborted_left (h : Links o bound s) (he : s.entries[i]? = some e) (haborted : e.aborted = true) (hc : s.calls[c]? = some call) (horigin : call.origin = .joined i) :
    call.outcome = some .abortError := by
  have hok := h.call c call hc
  cases hout : call.outcome with
  | none =>
    obtain ⟨j, f, hj, hf, hmem⟩ := hok.waiting hout
    obtain rfl := Origin.joined.inj (horigin.symm.trans hj)
    obtain rfl := some.inj (he.symm.trans hf)
    rw [(h.entry i e he).left (.inl haborted)] at hmem
    exact absurd hmem not_mem_nil
  | some out =>
  by_contra hne
  have hne' : out ≠ .abortError := fun heq => hne (heq ▸ rfl)
  obtain ⟨j, f, t, w, hf, -, -, hfa, -, -, hway⟩ := hok.delivered out hout hne'
  rcases hway with ⟨hj, -⟩ | ⟨hj, -⟩
  · obtain rfl := Origin.joined.inj (horigin.symm.trans hj)
    obtain rfl := some.inj (he.symm.trans hf)
    exact false_ne_true (hfa.symm.trans haborted)
  · exact Origin.noConfusion (horigin.symm.trans hj)

/-- What the next event does: who gets `AbortError`, and what an abort leaves to the others. -/
structure Answers (o : QuerySchedulerOptions) (s : State Data Reason) : Prop where
  /-- A waiting call gets `AbortError` when its signal is aborted, and at no other event. -/
  waiting : ∀ e (c : Nat) call out, s.calls[c]? = some call → call.outcome = none →
    (step o s e).calls[c]? = some { call with outcome := out } → (out = some .abortError ↔ e = .abort call.signal)
  /-- A new call gets it if its signal is aborted already. -/
  call : ∀ request signal now, ∃ call, (step o s (.call request signal now)).calls = s.calls ++ [call] ∧
    call.request = request ∧ call.signal = signal ∧ call.now = now ∧ (call.outcome = some .abortError ↔ signal ∈ s.aborted)
  /-- A call with another signal has the answer it had, and one that waits stays with its fetch, which goes on. -/
  others : ∀ signal (c : Nat) call, s.calls[c]? = some call → call.signal ≠ signal →
    (step o s (.abort signal)).calls[c]? = some call ∧
    (call.outcome = none → ∃ i e e', call.origin = .joined i ∧ s.entries[i]? = some e ∧
      (step o s (.abort signal)).entries[i]? = some e' ∧ Alone e e' ∧ e'.aborted = false ∧ c ∈ e'.subscribers)

theorem aborted_event (h : Inv o s.tick s) (hidle : Idle o s) : ∀ e, signal ∈ (onEvent o s e).aborted →
    signal ∉ s.aborted → e = .abort signal := by
  intro e hin hnot
  cases e with
  | call request signal' now =>
    obtain ⟨-, -, haborted, -⟩ := enter_spec h hidle request signal' now
    rw [onEvent, haborted] at hin
    exact absurd hin hnot
  | abort signal' =>
    rw [(abort_spec h signal').2.aborted] at hin
    rcases mem_cons.mp hin with rfl | hin
    · rfl
    · exact absurd hin hnot
  | start i =>
    rw [start_rest] at hin
    exact absurd hin hnot
  | settles i result =>
    rw [settles_rest] at hin
    exact absurd hin hnot
  | callback i now =>
    rw [(callback_rest now).2.2] at hin
    exact absurd hin hnot
  | finally' i =>
    rw [finally_rest.2] at hin
    exact absurd hin hnot

theorem Safe.answers (h : Safe o s) : Answers o s where
  waiting e c call out hc hwaits hout := by
    constructor
    · intro habort
      have hsignal : call.signal ∈ (step o s e).aborted := ((safe_step h e).1.inv.links.call c _ hout).left habort
      exact aborted_event h.inv h.idle e hsignal (h.heard c call hc hwaits)
    · rintro rfl
      have hgone := (abort_spec h.inv call.signal).2.gone c (mem_listeners.mpr ⟨call, hc, rfl, hwaits⟩) call hc
      have heq := some.inj (hout.symm.trans hgone)
      exact congrArg Call.outcome heq
  call request signal now := by
    obtain ⟨-, -, haborted, call, hcalls, hrequest, hsignal, hnow, -⟩ := enter_spec h.inv h.idle request signal now
    refine ⟨call, hcalls, hrequest, hsignal, hnow, ?_, ?_⟩
    · intro habort
      have hlast : (step o s (.call request signal now)).calls[s.calls.length]? = some call := by
        rw [step, onEvent, hcalls]
        exact List.getElem?_concat_length
      have hleft := ((safe_step h _).1.inv.links.call _ call hlast).left habort
      rw [step, onEvent, haborted, hsignal] at hleft
      exact hleft
    · intro hin
      rw [enter, if_pos (contains_iff_mem.mpr hin)] at hcalls
      have heq := List.cons.inj (append_cancel_left hcalls)
      rw [← heq.1]
  others signal c call hc hne := by
    obtain ⟨hinv, hframe⟩ := abort_spec h.inv signal
    have hstay : (onEvent o s (.abort signal)).calls[c]? = some call := by
      refine (hframe.stay c fun hin => ?_).trans hc
      obtain ⟨call', hcall', hsame, -⟩ := mem_listeners.mp hin
      obtain rfl := some.inj (hc.symm.trans hcall')
      exact hne hsame
    refine ⟨hstay, ?_⟩
    intro hwaits
    obtain ⟨i, e, horigin, he, -⟩ := (h.inv.links.call c call hc).waiting hwaits
    obtain ⟨e', he', halone⟩ := hframe.alone i e he
    obtain ⟨j, f, horigin', hf, hmem⟩ := (hinv.links.call c call hstay).waiting hwaits
    obtain rfl := Origin.joined.inj (horigin.symm.trans horigin')
    obtain rfl := some.inj (he'.symm.trans hf)
    exact ⟨i, e, e', horigin, he, he', halone, (hinv.links.not_aborted he' hmem).1, hmem⟩

theorem json_inj {x y : JsNumber} (h : x.json = y.json) (hx : x.json ≠ none) : x = y := by
  cases x with
  | finite q =>
    cases y with
    | finite q' => exact congrArg JsNumber.finite (some.inj h)
    | nan => cases h
    | infinity => cases h
    | negInfinity => cases h
  | nan => exact absurd rfl hx
  | infinity => exact absurd rfl hx
  | negInfinity => exact absurd rfl hx

theorem key_inj {r r' : QueryRequest} (h : r.key = r'.key) (hstart : r.start.json ≠ none) (hend : r.endTime.json ≠ none)
    (hstep : r.step.json ≠ none) : r = r' := by
  obtain ⟨providerId, query, kind, start, endTime, step, traceId, queryRef⟩ := r
  obtain ⟨providerId', query', kind', start', endTime', step', traceId', queryRef'⟩ := r'
  simp only [QueryRequest.key, Key.mk.injEq] at h
  obtain ⟨rfl, rfl, rfl, hs, he, ht, rfl, rfl⟩ := h
  obtain rfl := json_inj hs hstart
  obtain rfl := json_inj he hend
  obtain rfl := json_inj ht hstep
  rfl

/-- **Every result goes to the right callers**, in every run, with any options. -/
theorem scheduler_delivers (o : QuerySchedulerOptions) (events : List (Event Data Reason)) :
    let s := run (step o) ({} : State Data Reason) events
    s.entries.countP Entry.inFlight ≤ o.limit ∧ s.cache.length ≤ o.size ∧
    (∀ later, Once s (run (step o) s later)) ∧
    (∀ (c : Nat) call out, s.calls[c]? = some call → call.outcome = some out → out ≠ .abortError →
      Delivered o s.entries call out) ∧
    Answers o s ∧
    (∀ (i : Nat) e, s.entries[i]? = some e → e.aborted = true → ∀ (c : Nat) call, s.calls[c]? = some call →
      call.origin = .joined i → call.outcome = some .abortError) ∧
    ((∀ e ∈ s.entries, e.callbackPending = false) → s.entries.countP Entry.inFlight < o.limit → s.queue = []) ∧
    ∀ r r' : QueryRequest, r.key = r'.key → r.start.json ≠ none → r.endTime.json ≠ none → r.step.json ≠ none → r = r' := by
  intro s
  have h : Safe o s := (safe_run safe_init events).1
  refine ⟨h.inv.inFlight_le, h.inv.links.size, fun later => (safe_run h later).2, ?_, h.answers, ?_, h.queue_nil, ?_⟩
  · intro c call out hc hout hne
    exact (h.inv.links.call c call hc).delivered out hout hne
  · intro i e he haborted c call hc
    exact h.inv.links.aborted_left he haborted hc
  · intro r r'
    exact key_inj

/-- A request for a window with no start, and one for a window that never starts. -/
def timeless (start : JsNumber) : QueryRequest := ⟨"metrics", "up", "timeseries", start, .finite 60, .finite 15, none, none⟩

/-- Both are written alike, and the second caller gets what was fetched for the first. -/
theorem timeless_shared :
    let s := run (step {}) ({} : State Nat Unit)
      [.call (timeless .nan) 0 0, .call (timeless .infinity) 1 0, .start 0, .settles 0 (.ok 7), .callback 0 1]
    (∃ call, s.calls[1]? = some call ∧ call.request = timeless .infinity ∧ call.outcome = some (.value 7)) ∧
      ∀ e ∈ s.entries, e.request ≠ timeless .infinity := by
  intro s
  refine ⟨⟨_, rfl, rfl, rfl⟩, ?_⟩
  intro e he
  obtain rfl := mem_singleton.mp he
  decide
end

end Paprika.Insights.QueryScheduler
