import Mathlib.Data.List.Nodup
import Mathlib.Data.List.Perm.Basic
import Paprika.Lib.Run

/-!
# Events: the broker

`broker.go`: `Subscribe`, `Unsubscribe`, `Publish`, the receive loop and `Close`, on any number of instances that may share
a Redis.  A publication copies the list of subscribers under the lock and then sends to one channel after another without
it; an instance with Redis sends the event on, and receives what any instance sent on, its own events included.

A send on a closed channel and a second close of a channel are faults.  They would end the process; here they are kept in a
list, and the run goes on.

* `Owned` — the channels of the lists are open, and each is in one list once;
* `Inv` — what holds while no channel is closed that is still to be sent to, and no event is received for a subscriber
  that has it (`Careful`);
* `careful_delivery` — then nothing faults, and every subscriber gets every event at most once, and exactly once where
  its buffer did not fill.
-/

namespace Paprika.Events

open Lib.Run List Function

/-! ### Instances -/

/-- A channel of a subscriber: the instance that made it, whether it is closed, and the events that were put into it, that
were taken out again, and that did not fit. -/
structure Channel where
  owner : Nat
  closed : Bool
  delivered : List Nat
  taken : Nat
  dropped : List Nat
  deriving DecidableEq, Repr

def Channel.new (owner : Nat) (closed : Bool) : Channel := ⟨owner, closed, [], 0, []⟩

/-- The buffer of a channel holds 16 events. -/
def Channel.isFull (c : Channel) : Bool := decide (c.taken + 16 ≤ c.delivered.length)

/-- `Broker`: `subscribers` are the channels with their topics, `closing` those that `Close` has still to close, and
`inbox` what Redis has for the receive loop. -/
structure Broker where
  subscribers : List (String × Nat)
  closed : Bool
  redis : Bool
  closing : List Nat
  inbox : List (String × Nat)
  deriving DecidableEq, Repr

def Broker.subscribed (b : Broker) (topic : String) : List Nat :=
  if b.closed then [] else (b.subscribers.filter (fun s => s.1 == topic)).map Prod.snd

/-- A run of `publishLocal`: the list that it copied, and what it has still to send to; `awaiting` is a `Publish` that has
still to send the event on to Redis. -/
structure Publication where
  owner : Nat
  topic : String
  event : Nat
  copied : List Nat
  remaining : List Nat
  awaiting : Bool
  deriving DecidableEq, Repr

inductive Fault
  | sentOnClosed (ch : Nat)
  | closedTwice (ch : Nat)
  deriving DecidableEq, Repr

/-- The instances, with the channels and the publications made so far, and the number of events published. -/
structure World where
  broker : Nat → Broker
  channel : Nat → Channel
  channels : Nat
  publication : Nat → Publication
  publications : Nat
  events : Nat
  faults : List Fault

/-- New instances, of which some have a Redis. -/
def World.start (redis : Nat → Bool) : World where
  broker i := ⟨[], false, redis i, [], []⟩
  channel _ := Channel.new 0 false
  channels := 0
  publication _ := ⟨0, "", 0, [], [], false⟩
  publications := 0
  events := 0
  faults := []

namespace World

variable (w : World)

def setBroker (i : Nat) (b : Broker) : World := { w with broker := Function.update w.broker i b }
def setChannel (ch : Nat) (c : Channel) : World := { w with channel := Function.update w.channel ch c }
def setPublication (p : Nat) (x : Publication) : World := { w with publication := Function.update w.publication p x }
def fault (f : Fault) : World := { w with faults := w.faults ++ [f] }

section
variable {w} {i j : Nat}

@[simp] theorem setBroker_self (b : Broker) : (w.setBroker i b).broker i = b := Function.update_self ..
theorem setBroker_of_ne (h : j ≠ i) (b : Broker) : (w.setBroker i b).broker j = w.broker j := Function.update_of_ne h ..
@[simp] theorem setChannel_self (c : Channel) : (w.setChannel i c).channel i = c := Function.update_self ..
theorem setChannel_of_ne (h : j ≠ i) (c : Channel) : (w.setChannel i c).channel j = w.channel j := update_of_ne h ..
@[simp] theorem setPublication_self (x : Publication) : (w.setPublication i x).publication i = x := Function.update_self ..
theorem setPublication_of_ne (h : j ≠ i) (x : Publication) : (w.setPublication i x).publication j = w.publication j :=
  update_of_ne h ..
end

/-- `make(chan *Event, 16)`. -/
def makeChannel (c : Channel) : World := { w.setChannel w.channels c with channels := w.channels + 1 }

/-- `close(ch)`. -/
def closeChannel (ch : Nat) : World :=
  if (w.channel ch).closed then w.fault (.closedTwice ch) else w.setChannel ch { w.channel ch with closed := true }

/-- `ch <- event`, unless the buffer is full. -/
def send (ch event : Nat) : World :=
  if (w.channel ch).closed then w.fault (.sentOnClosed ch)
  else if (w.channel ch).isFull then
    w.setChannel ch { w.channel ch with dropped := (w.channel ch).dropped ++ [event] }
  else w.setChannel ch { w.channel ch with delivered := (w.channel ch).delivered ++ [event] }

/-! ### The operations -/

def subscribe (i : Nat) (topic : String) : World :=
  if (w.broker i).closed then w.makeChannel (Channel.new i true)
  else (w.makeChannel (Channel.new i false)).setBroker i
    { w.broker i with subscribers := (w.broker i).subscribers ++ [(topic, w.channels)] }

def unsubscribe (i : Nat) (topic : String) (ch : Nat) : World :=
  if (topic, ch) ∈ (w.broker i).subscribers then
    (w.closeChannel ch).setBroker i { w.broker i with subscribers := (w.broker i).subscribers.erase (topic, ch) }
  else w

/-- The locked part of `publishLocal`. -/
def copyList (i : Nat) (topic : String) (event : Nat) (awaiting : Bool) : World :=
  let copied := (w.broker i).subscribed topic
  { w.setPublication w.publications ⟨i, topic, event, copied, copied, awaiting⟩ with publications := w.publications + 1 }

def publish (i : Nat) (topic : String) : World :=
  { w.copyList i topic w.events (w.broker i).redis with events := w.events + 1 }

/-- The next send of `publishLocal`. -/
def sendNext (p : Nat) : World :=
  match (w.publication p).remaining with
  | [] => w
  | ch :: rest => (w.send ch (w.publication p).event).setPublication p { w.publication p with remaining := rest }

/-- The end of `Publish`: Redis has the message for every instance that is connected, unless it fails. -/
def sendOn (p : Nat) (ok : Bool) : World :=
  let x := w.publication p
  if x.awaiting && x.remaining.isEmpty then
    let v := w.setPublication p { x with awaiting := false }
    if ok then
      { v with broker := fun i =>
          if (w.broker i).redis then { w.broker i with inbox := (w.broker i).inbox ++ [(x.topic, x.event)] }
          else w.broker i }
    else v
  else w

/-- The receive loop takes a message. -/
def receive (i : Nat) : World :=
  match (w.broker i).inbox with
  | [] => w
  | (topic, event) :: rest => (w.setBroker i { w.broker i with inbox := rest }).copyList i topic event false

/-- The locked part of `Close`. -/
def closeBroker (i : Nat) : World :=
  let b := w.broker i
  if b.closed then w
  else w.setBroker i { b with subscribers := [], closed := true, closing := b.subscribers.map Prod.snd }

/-- `Close` closes a channel, in any order of the topics. -/
def closeNext (i ch : Nat) : World :=
  if ch ∈ (w.broker i).closing then
    (w.closeChannel ch).setBroker i { w.broker i with closing := (w.broker i).closing.erase ch }
  else w

/-- A subscriber takes an event out of its channel. -/
def take (ch : Nat) : World :=
  let c := w.channel ch
  if c.taken < c.delivered.length then w.setChannel ch { c with taken := c.taken + 1 } else w

end World

/-- What can happen next. -/
inductive Event
  | subscribe (i : Nat) (topic : String)
  | unsubscribe (i : Nat) (topic : String) (ch : Nat)
  | publish (i : Nat) (topic : String)
  | sendNext (p : Nat)
  | sendOn (p : Nat) (ok : Bool)
  | receive (i : Nat)
  | closeBroker (i : Nat)
  | closeNext (i ch : Nat)
  | take (ch : Nat)
  deriving DecidableEq, Repr

def step (w : World) : Event → World
  | .subscribe i topic => w.subscribe i topic
  | .unsubscribe i topic ch => w.unsubscribe i topic ch
  | .publish i topic => w.publish i topic
  | .sendNext p => w.sendNext p
  | .sendOn p ok => w.sendOn p ok
  | .receive i => w.receive i
  | .closeBroker i => w.closeBroker i
  | .closeNext i ch => w.closeNext i ch
  | .take ch => w.take ch

/-! ### The lists -/

/-- The channels that an instance has to close: those of its subscribers, and those that `Close` has left. -/
def Broker.handles (b : Broker) : List Nat := b.subscribers.map Prod.snd ++ b.closing

variable {b : Broker} {ch : Nat} {topic : String}

theorem Broker.mem_subscribed (h : ch ∈ b.subscribed topic) : ch ∈ b.handles := by
  rw [subscribed] at h
  split_ifs at h
  · cases h
  · obtain ⟨s, hs, rfl⟩ := mem_map.mp h
    exact mem_append_left _ (mem_map_of_mem (mem_filter.mp hs).1)

theorem Broker.nodup_subscribed (h : b.handles.Nodup) (topic : String) : (b.subscribed topic).Nodup := by
  rw [subscribed]
  split_ifs
  · exact nodup_nil
  · exact (h.of_append_left).sublist (filter_sublist.map _)

/-- An open channel of an instance. -/
structure Open (w : World) (i ch : Nat) : Prop where
  made : ch < w.channels
  owner : (w.channel ch).owner = i
  isOpen : (w.channel ch).closed = false

/-- What an instance has to close is open, its own, and there once. -/
structure Owned (w : World) : Prop where
  isOpen : ∀ i ch, ch ∈ (w.broker i).handles → Open w i ch
  nodup : ∀ i, (w.broker i).handles.Nodup

variable {w v : World}

theorem Open.frame {i : Nat} (h : Open w i ch) (hchannels : w.channels ≤ v.channels)
    (hchan : (v.channel ch).owner = (w.channel ch).owner ∧ (v.channel ch).closed = (w.channel ch).closed) :
    Open v i ch :=
  ⟨Nat.lt_of_lt_of_le h.made hchannels, hchan.1.trans h.owner, hchan.2.trans h.isOpen⟩

theorem Owned.frame (h : Owned w) (hchannels : w.channels ≤ v.channels)
    (hchan : ∀ ch, (v.channel ch).owner = (w.channel ch).owner ∧ (v.channel ch).closed = (w.channel ch).closed)
    (hhandles : ∀ i, (v.broker i).handles = (w.broker i).handles) : Owned v := by
  constructor
  · intro i ch hch
    rw [hhandles] at hch
    exact (h.isOpen i ch hch).frame hchannels (hchan ch)
  · intro i
    rw [hhandles]
    exact h.nodup i

theorem Open.makeChannel {i : Nat} (h : Open w i ch) (c : Channel) : Open (w.makeChannel c) i ch := by
  have hne : ch ≠ w.channels := Nat.ne_of_lt h.made
  have hsame : (w.makeChannel c).channel ch = w.channel ch := update_of_ne hne _ _
  exact h.frame (Nat.le_succ _) (by rw [hsame]; exact ⟨rfl, rfl⟩)

theorem Open.setBroker {i : Nat} (h : Open w i ch) (j : Nat) (b : Broker) : Open (w.setBroker j b) i ch :=
  ⟨h.made, h.owner, h.isOpen⟩

theorem Owned.subscribe (h : Owned w) (i : Nat) (topic : String) : Owned (w.subscribe i topic) := by
  rw [World.subscribe]
  split_ifs with hclosed
  · exact ⟨fun j ch hch => (h.isOpen j ch hch).makeChannel _, h.nodup⟩
  have hnew : Open (w.makeChannel (Channel.new i false)) i w.channels := by
    have hself : (w.makeChannel (Channel.new i false)).channel w.channels = Channel.new i false := update_self _ _ _
    exact ⟨Nat.lt_succ_self _, by rw [hself]; rfl, by rw [hself]; rfl⟩
  have hperm : ((w.broker i).subscribers ++ [(topic, w.channels)]).map Prod.snd ++ (w.broker i).closing |>.Perm
      (w.channels :: (w.broker i).handles) := by
    rw [map_append, append_assoc]
    exact perm_middle
  have hbroker : ∀ j, (((w.makeChannel (Channel.new i false)).setBroker i
      { w.broker i with subscribers := (w.broker i).subscribers ++ [(topic, w.channels)] }).broker j).handles.Perm
        (if j = i then w.channels :: (w.broker i).handles else (w.broker j).handles) := by
    intro j
    by_cases hj : j = i
    · rw [if_pos hj, hj]
      show (update w.broker i _ i).handles.Perm _
      rw [update_self]
      exact hperm
    · rw [if_neg hj]
      show (update w.broker i _ j).handles.Perm _
      rw [update_of_ne hj]
  constructor
  · intro j ch hch
    have hch := (hbroker j).mem_iff.mp hch
    by_cases hj : j = i
    · rw [if_pos hj] at hch
      rw [hj]
      rcases mem_cons.mp hch with rfl | hch
      · exact hnew.setBroker _ _
      · exact ((h.isOpen i ch hch).makeChannel _).setBroker _ _
    · rw [if_neg hj] at hch
      exact ((h.isOpen j ch hch).makeChannel _).setBroker _ _
  · intro j
    refine (hbroker j).nodup_iff.mpr ?_
    split_ifs
    · refine nodup_cons.mpr ⟨?_, h.nodup i⟩
      intro hmem
      exact Nat.lt_irrefl _ (h.isOpen i _ hmem).made
    · exact h.nodup j

theorem Owned.close (h : Owned w) {i : Nat} (hperm : (w.broker i).handles.Perm (ch :: b.handles)) :
    Owned ((w.closeChannel ch).setBroker i b) ∧
      w.closeChannel ch = w.setChannel ch { w.channel ch with closed := true } := by
  have hmem : ch ∈ (w.broker i).handles := hperm.mem_iff.mpr mem_cons_self
  have hopen := h.isOpen i ch hmem
  have hclose : w.closeChannel ch = w.setChannel ch { w.channel ch with closed := true } := by
    rw [World.closeChannel, hopen.isOpen, if_neg Bool.false_ne_true]
  obtain ⟨hnot, hnd⟩ := nodup_cons.mp (hperm.nodup_iff.mp (h.nodup i))
  refine ⟨?_, hclose⟩
  rw [hclose]
  have hkeep : ∀ j c, c ≠ ch → Open w j c →
      Open ((w.setChannel ch { w.channel ch with closed := true }).setBroker i b) j c := by
    intro j c hne hc
    refine hc.frame (Nat.le_refl _) ?_
    show (update w.channel ch _ c).owner = _ ∧ (update w.channel ch _ c).closed = _
    rw [update_of_ne hne]
    exact ⟨rfl, rfl⟩
  constructor
  · intro j c hleft
    have hc : c ∈ (update w.broker i b j).handles := hleft
    by_cases hj : j = i
    · rw [hj, update_self] at hc
      have hne : c ≠ ch := by
        intro heq
        exact hnot (heq ▸ hc)
      exact hkeep j c hne (hj ▸ h.isOpen i c (hperm.mem_iff.mpr (mem_cons_of_mem _ hc)))
    rw [update_of_ne hj] at hc
    have hopenc := h.isOpen j c hc
    refine hkeep j c ?_ hopenc
    intro heq
    exact hj (hopenc.owner.symm.trans (heq ▸ hopen.owner))
  · intro j
    show (update w.broker i b j).handles.Nodup
    by_cases hj : j = i
    · rw [hj, update_self]
      exact hnd
    · rw [update_of_ne hj]
      exact h.nodup j

theorem unsubscribe_perm (hmem : (topic, ch) ∈ b.subscribers) :
    b.handles.Perm (ch :: { b with subscribers := b.subscribers.erase (topic, ch) }.handles) :=
  ((perm_cons_erase hmem).map Prod.snd).append_right b.closing

theorem closeNext_perm (hmem : ch ∈ b.closing) :
    b.handles.Perm (ch :: { b with closing := b.closing.erase ch }.handles) :=
  ((perm_cons_erase hmem).append_left (b.subscribers.map Prod.snd)).trans perm_middle

theorem Owned.closeBroker (h : Owned w) (i : Nat) : Owned (w.closeBroker i) := by
  rw [World.closeBroker]
  split_ifs
  · exact h
  have hsub : ∀ j, ((update w.broker i { w.broker i with
      subscribers := [], closed := true, closing := (w.broker i).subscribers.map Prod.snd }) j).handles.Sublist
        (w.broker j).handles := by
    intro j
    by_cases hj : j = i
    · rw [hj, update_self]
      exact sublist_append_left _ _
    · rw [update_of_ne hj]
  exact ⟨fun j ch hch => (h.isOpen j ch ((hsub j).subset hch)).setBroker _ _, fun j => (h.nodup j).sublist (hsub j)⟩

/-! ### The events -/

/-- Which publications there can be of an event: one at an instance that is not done, and none but that of its `Publish`
before Redis has it. -/
structure Tracked (w : World) : Prop where
  made : ∀ p, w.publications ≤ p →
    (w.publication p).remaining = [] ∧ (w.publication p).copied = [] ∧ (w.publication p).awaiting = false
  lone : ∀ p q, p ≠ q → (w.publication p).event = (w.publication q).event →
    (w.publication p).owner = (w.publication q).owner → (w.publication p).remaining = [] ∨ (w.publication q).remaining = []
  first : ∀ p q, (w.publication p).awaiting = true → q < w.publications →
    (w.publication q).event = (w.publication p).event → q = p
  unsent : ∀ p, (w.publication p).awaiting = true → ∀ i, ∀ m ∈ (w.broker i).inbox, m.2 ≠ (w.publication p).event
  inbox : ∀ i, ((w.broker i).inbox.map Prod.snd).Nodup
  settled : ∀ i, ∀ m ∈ (w.broker i).inbox, ∀ p, (w.publication p).event = m.2 → (w.publication p).owner = i →
    (w.publication p).remaining = []
  published : ∀ p, p < w.publications → (w.publication p).event < w.events
  received : ∀ i, ∀ m ∈ (w.broker i).inbox, m.2 < w.events

section
variable (h : Tracked w)
include h

theorem Tracked.frame (hpub : v.publication = w.publication)
    (hpublications : v.publications = w.publications) (hevents : w.events ≤ v.events)
    (hinbox : ∀ i, (v.broker i).inbox.Sublist (w.broker i).inbox) : Tracked v := by
  constructor
  · rw [hpub, hpublications]
    exact h.made
  · rw [hpub]
    exact h.lone
  · rw [hpub, hpublications]
    exact h.first
  · intro p hp i m hm
    rw [hpub] at hp ⊢
    exact h.unsent p hp i m ((hinbox i).subset hm)
  · intro i
    exact (h.inbox i).sublist ((hinbox i).map Prod.snd)
  · intro i m hm
    rw [hpub]
    exact h.settled i m ((hinbox i).subset hm)
  · intro p hp
    rw [hpublications] at hp
    rw [hpub]
    exact Nat.lt_of_lt_of_le (h.published p hp) hevents
  · intro i m hm
    exact Nat.lt_of_lt_of_le (h.received i m ((hinbox i).subset hm)) hevents

theorem Tracked.setBroker {i : Nat} (hinbox : b.inbox.Sublist (w.broker i).inbox) : Tracked (w.setBroker i b) := by
  refine h.frame rfl rfl (Nat.le_refl _) ?_
  intro j
  by_cases hj : j = i
  · rw [hj, World.setBroker_self]
    exact hinbox
  · rw [World.setBroker_of_ne hj]

theorem Tracked.setRemaining {p : Nat} {rest : List Nat} (hne : (w.publication p).remaining ≠ []) :
    Tracked (w.setPublication p { w.publication p with remaining := rest }) := by
  have hlt : p < w.publications := by
    by_contra hnot
    exact hne (h.made p (Nat.not_lt.mp hnot)).1
  have hsame : ∀ q, ((w.setPublication p { w.publication p with remaining := rest }).publication q).event =
      (w.publication q).event ∧
      ((w.setPublication p { w.publication p with remaining := rest }).publication q).owner = (w.publication q).owner ∧
      ((w.setPublication p { w.publication p with remaining := rest }).publication q).awaiting =
        (w.publication q).awaiting := by
    intro q
    by_cases hq : q = p
    · rw [hq, World.setPublication_self]
      exact ⟨rfl, rfl, rfl⟩
    · rw [World.setPublication_of_ne hq]
      exact ⟨rfl, rfl, rfl⟩
  have hempty : ∀ q, (w.publication q).remaining = [] →
      ((w.setPublication p { w.publication p with remaining := rest }).publication q).remaining = [] := by
    intro q hq
    have hqp : q ≠ p := by
      rintro rfl
      exact hne hq
    rw [World.setPublication_of_ne hqp]
    exact hq
  constructor
  · intro q hq
    have hqp : q ≠ p := Nat.ne_of_gt (Nat.lt_of_lt_of_le hlt hq)
    rw [World.setPublication_of_ne hqp]
    exact h.made q hq
  · intro q r hqr hevent howner
    rw [(hsame q).1, (hsame r).1] at hevent
    rw [(hsame q).2.1, (hsame r).2.1] at howner
    exact (h.lone q r hqr hevent howner).imp (hempty q) (hempty r)
  · intro q r hwait hr hevent
    rw [(hsame q).2.2] at hwait
    rw [(hsame q).1, (hsame r).1] at hevent
    exact h.first q r hwait hr hevent
  · intro q hwait i m hm
    rw [(hsame q).2.2] at hwait
    rw [(hsame q).1]
    exact h.unsent q hwait i m hm
  · exact h.inbox
  · intro i m hm q hevent howner
    rw [(hsame q).1] at hevent
    rw [(hsame q).2.1] at howner
    exact hempty q (h.settled i m hm q hevent howner)
  · intro q hq
    rw [(hsame q).1]
    exact h.published q hq
  · exact h.received

theorem Tracked.sentOn {p : Nat} (hwait : (w.publication p).awaiting = true)
    (hdone : (w.publication p).remaining = []) {broker : Nat → Broker}
    (hinbox : ∀ i, (broker i).inbox = (w.broker i).inbox ∨
      (broker i).inbox = (w.broker i).inbox ++ [((w.publication p).topic, (w.publication p).event)]) :
    Tracked { w.setPublication p { w.publication p with awaiting := false } with broker := broker } := by
  let x : Publication := { w.publication p with awaiting := false }
  have hlt : p < w.publications := by
    by_contra hnot
    rw [(h.made p (Nat.not_lt.mp hnot)).2.2] at hwait
    cases hwait
  have hsame : ∀ q, ((w.setPublication p x).publication q).event = (w.publication q).event ∧
      ((w.setPublication p x).publication q).owner = (w.publication q).owner ∧
      ((w.setPublication p x).publication q).remaining = (w.publication q).remaining := by
    intro q
    by_cases hq : q = p
    · rw [hq, World.setPublication_self]
      exact ⟨rfl, rfl, rfl⟩
    · rw [World.setPublication_of_ne hq]
      exact ⟨rfl, rfl, rfl⟩
  have hstill : ∀ q, ((w.setPublication p x).publication q).awaiting = true →
      q ≠ p ∧ (w.publication q).awaiting = true := by
    intro q hq
    by_cases hqp : q = p
    · rw [hqp, World.setPublication_self] at hq
      cases hq
    · rw [World.setPublication_of_ne hqp] at hq
      exact ⟨hqp, hq⟩
  have hmem : ∀ i, ∀ m ∈ (broker i).inbox, m ∈ (w.broker i).inbox ∨ m.2 = (w.publication p).event := by
    intro i m hm
    rcases hinbox i with hsame | hsame
    · rw [hsame] at hm
      exact .inl hm
    · rw [hsame] at hm
      refine (mem_append.mp hm).imp_right ?_
      intro hm
      rw [mem_singleton.mp hm]
  constructor
  · intro q hq
    show ((w.setPublication p x).publication q).remaining = [] ∧ _
    rw [World.setPublication_of_ne (Nat.ne_of_gt (Nat.lt_of_lt_of_le hlt hq))]
    exact h.made q hq
  · intro q r hqr hevent howner
    rw [(hsame q).1, (hsame r).1] at hevent
    rw [(hsame q).2.1, (hsame r).2.1] at howner
    rw [(hsame q).2.2, (hsame r).2.2]
    exact h.lone q r hqr hevent howner
  · intro q r hq hr hevent
    rw [(hsame q).1, (hsame r).1] at hevent
    exact h.first q r (hstill q hq).2 hr hevent
  · intro q hq i m hm
    rw [(hsame q).1]
    obtain ⟨hqp, hq⟩ := hstill q hq
    rcases hmem i m hm with hm | hm
    · exact h.unsent q hq i m hm
    · intro heq
      exact hqp (h.first q p hq hlt (hm.symm.trans heq)).symm
  · intro i
    rcases hinbox i with hsame | hsame
    · show ((broker i).inbox.map Prod.snd).Nodup
      rw [hsame]
      exact h.inbox i
    show ((broker i).inbox.map Prod.snd).Nodup
    rw [hsame, map_append]
    refine (h.inbox i).append (nodup_singleton _) ?_
    intro e he he'
    obtain ⟨m, hm, rfl⟩ := mem_map.mp he
    exact h.unsent p hwait i m hm (mem_singleton.mp he')
  · intro i m hm q hevent howner
    rw [(hsame q).1] at hevent
    rw [(hsame q).2.1] at howner
    rw [(hsame q).2.2]
    rcases hmem i m hm with hm | hm
    · exact h.settled i m hm q hevent howner
    · by_cases hq : q < w.publications
      · rw [h.first p q hwait hq (hevent.trans hm)]
        exact hdone
      · exact (h.made q (Nat.not_lt.mp hq)).1
  · intro q hq
    rw [(hsame q).1]
    exact h.published q hq
  · intro i m hm
    rcases hmem i m hm with hm | hm
    · exact h.received i m hm
    · rw [hm]
      exact h.published p hlt

theorem Tracked.copyList {i : Nat} {event : Nat} {awaiting : Bool} (hevent : event < w.events)
    (hothers : ∀ q, (w.publication q).event = event → (w.publication q).owner = i → (w.publication q).remaining = [])
    (hunsent : ∀ q, (w.publication q).awaiting = true → (w.publication q).event ≠ event)
    (hinbox : ∀ m ∈ (w.broker i).inbox, m.2 ≠ event)
    (hfirst : awaiting = true →
      (∀ q, q < w.publications → (w.publication q).event ≠ event) ∧ ∀ j, ∀ m ∈ (w.broker j).inbox, m.2 ≠ event) :
    Tracked (w.copyList i topic event awaiting) := by
  let x : Publication := ⟨i, topic, event, (w.broker i).subscribed topic, (w.broker i).subscribed topic, awaiting⟩
  have hold : ∀ q, q ≠ w.publications → (w.copyList i topic event awaiting).publication q = w.publication q :=
    fun q hq => World.setPublication_of_ne hq x
  have hnew : (w.copyList i topic event awaiting).publication w.publications = x := World.setPublication_self x
  constructor
  · intro q hq
    have hlt : w.publications < q := hq
    rw [hold q (Nat.ne_of_gt hlt)]
    exact h.made q (Nat.le_of_lt hlt)
  · intro q r hqr hevent' howner
    by_cases hq : q = w.publications
    · have hr : r ≠ w.publications := fun heq => hqr (hq.trans heq.symm)
      rw [hq, hnew, hold r hr] at hevent' howner
      rw [hold r hr]
      exact .inr (hothers r hevent'.symm howner.symm)
    rw [hold q hq] at hevent' howner ⊢
    by_cases hr : r = w.publications
    · rw [hr, hnew] at hevent' howner
      exact .inl (hothers q hevent' howner)
    · rw [hold r hr] at hevent' howner ⊢
      exact h.lone q r hqr hevent' howner
  · intro q r hq hr hevent'
    by_cases hqn : q = w.publications
    · rw [hqn, hnew] at hq hevent'
      by_contra hne
      have hrn : r ≠ w.publications := fun heq => hne (heq.trans hqn.symm)
      rw [hold r hrn] at hevent'
      exact (hfirst hq).1 r (Nat.lt_of_le_of_ne (Nat.le_of_lt_succ hr) hrn) hevent'
    rw [hold q hqn] at hq hevent'
    by_cases hrn : r = w.publications
    · rw [hrn, hnew] at hevent'
      exact absurd hevent'.symm (hunsent q hq)
    · rw [hold r hrn] at hevent'
      exact h.first q r hq (Nat.lt_of_le_of_ne (Nat.le_of_lt_succ hr) hrn) hevent'
  · intro q hq j m hm
    by_cases hqn : q = w.publications
    · rw [hqn, hnew] at hq ⊢
      exact (hfirst hq).2 j m hm
    · rw [hold q hqn] at hq ⊢
      exact h.unsent q hq j m hm
  · exact h.inbox
  · intro j m hm q hevent' howner
    by_cases hqn : q = w.publications
    · rw [hqn, hnew] at hevent' howner
      have howner : i = j := howner
      exact absurd hevent'.symm (hinbox m (howner ▸ hm))
    · rw [hold q hqn] at hevent' howner ⊢
      exact h.settled j m hm q hevent' howner
  · intro q hq
    by_cases hqn : q = w.publications
    · rw [hqn, hnew]
      exact hevent
    · rw [hold q hqn]
      exact h.published q (Nat.lt_of_le_of_ne (Nat.le_of_lt_succ hq) hqn)
  · exact h.received

theorem Tracked.publish (i : Nat) (topic : String) : Tracked (w.publish i topic) := by
  have hfresh : ∀ q, q < w.publications → (w.publication q).event ≠ w.events :=
    fun q hq => Nat.ne_of_lt (h.published q hq)
  have hinbox : ∀ j, ∀ m ∈ (w.broker j).inbox, m.2 ≠ w.events := fun j m hm => Nat.ne_of_lt (h.received j m hm)
  have hnext : Tracked { w with events := w.events + 1 } :=
    h.frame rfl rfl (Nat.le_succ _) (fun i => List.Sublist.refl _)
  refine hnext.copyList (Nat.lt_succ_self _) ?_ ?_ (hinbox i) (fun _ => ⟨hfresh, hinbox⟩)
  · intro q hevent _
    by_cases hq : q < w.publications
    · exact absurd hevent (hfresh q hq)
    · exact (h.made q (Nat.not_lt.mp hq)).1
  intro q hwait hevent
  by_cases hq : q < w.publications
  · exact hfresh q hq hevent
  · have hwait : (w.publication q).awaiting = true := hwait
    rw [(h.made q (Nat.not_lt.mp hq)).2.2] at hwait
    cases hwait

theorem Tracked.receive (i : Nat) : Tracked (w.receive i) := by
  rw [World.receive]
  cases hinbox : (w.broker i).inbox with
  | nil => exact h
  | cons m rest =>
  obtain ⟨topic, event⟩ := m
  have hhead : (topic, event) ∈ (w.broker i).inbox := by
    rw [hinbox]
    exact mem_cons_self
  have hnd := h.inbox i
  rw [hinbox] at hnd
  have hpopped : Tracked (w.setBroker i { w.broker i with inbox := rest }) :=
    h.setBroker (by rw [hinbox]; exact sublist_cons_self _ _)
  refine hpopped.copyList (h.received i _ hhead) (h.settled i _ hhead) ?_ ?_ ?_
  · intro q hwait heq
    exact h.unsent q hwait i _ hhead heq.symm
  · intro m hleft heq
    rw [World.setBroker_self] at hleft
    have hm : m ∈ rest := hleft
    refine (nodup_cons.mp hnd).1 ?_
    show event ∈ rest.map Prod.snd
    rw [← heq]
    exact mem_map_of_mem hm
  · intro hfalse
    cases hfalse
end

/-! ### The deliveries -/

/-- What a publication has still to send to is open and has not got its event, no channel has an event twice, and what a
publication has passed over has got its event or had no room for it. -/
structure Delivering (w : World) : Prop where
  remaining : ∀ p, ∀ ch ∈ (w.publication p).remaining,
    Open w (w.publication p).owner ch ∧ (w.publication p).event ∉ (w.channel ch).delivered
  nodup : ∀ p, (w.publication p).remaining.Nodup
  delivered : ∀ ch, (w.channel ch).delivered.Nodup
  published : ∀ ch, ∀ event ∈ (w.channel ch).delivered, event < w.events
  copied : ∀ p, ∀ ch ∈ (w.publication p).copied, ch < w.channels ∧ (ch ∈ (w.publication p).remaining ∨
    (w.publication p).event ∈ (w.channel ch).delivered ∨ (w.publication p).event ∈ (w.channel ch).dropped)

/-- Steps that leave the publications and what was delivered alone, and close no channel that is still to be sent to. -/
theorem Delivering.frame (h : Delivering w) (hpub : v.publication = w.publication)
    (hchannels : w.channels ≤ v.channels) (hevents : w.events ≤ v.events)
    (hlogs : ∀ ch, (v.channel ch).delivered = (w.channel ch).delivered ∧ (v.channel ch).dropped = (w.channel ch).dropped)
    (hopen : ∀ i ch, (∃ p, ch ∈ (w.publication p).remaining) → Open w i ch → Open v i ch) : Delivering v := by
  constructor
  · intro p ch hch
    rw [hpub] at hch ⊢
    obtain ⟨hisOpen, hnot⟩ := h.remaining p ch hch
    exact ⟨hopen _ ch ⟨p, hch⟩ hisOpen, by rw [(hlogs ch).1]; exact hnot⟩
  · rw [hpub]
    exact h.nodup
  · intro ch
    rw [(hlogs ch).1]
    exact h.delivered ch
  · intro ch event hevent
    rw [(hlogs ch).1] at hevent
    exact Nat.lt_of_lt_of_le (h.published ch event hevent) hevents
  · intro p ch hch
    rw [hpub] at hch ⊢
    rw [(hlogs ch).1, (hlogs ch).2]
    exact ⟨Nat.lt_of_lt_of_le (h.copied p ch hch).1 hchannels, (h.copied p ch hch).2⟩

theorem Delivering.makeChannel (h : Delivering w) (i : Nat) (closed : Bool) :
    Delivering (w.makeChannel (Channel.new i closed)) := by
  have hold : ∀ ch, ch ≠ w.channels → (w.makeChannel (Channel.new i closed)).channel ch = w.channel ch :=
    fun ch hch => World.setChannel_of_ne hch _
  have hnew : (w.makeChannel (Channel.new i closed)).channel w.channels = Channel.new i closed :=
    World.setChannel_self _
  constructor
  · intro p ch hch
    obtain ⟨hopen, hnot⟩ := h.remaining p ch hch
    exact ⟨hopen.makeChannel _, by rw [hold ch (Nat.ne_of_lt hopen.made)]; exact hnot⟩
  · exact h.nodup
  · intro ch
    by_cases hch : ch = w.channels
    · rw [hch, hnew]
      exact nodup_nil
    · rw [hold ch hch]
      exact h.delivered ch
  · intro ch event hevent
    by_cases hch : ch = w.channels
    · rw [hch, hnew] at hevent
      cases hevent
    · rw [hold ch hch] at hevent
      exact h.published ch event hevent
  · intro p ch hch
    obtain ⟨hlt, hwhere⟩ := h.copied p ch hch
    rw [hold ch (Nat.ne_of_lt hlt)]
    exact ⟨Nat.lt_succ_of_lt hlt, hwhere⟩

/-- No publication has still to send to the channel. -/
def Idle (w : World) (ch : Nat) : Prop := ∀ p, ch ∉ (w.publication p).remaining

theorem Delivering.closeIdle (h : Delivering w) (hidle : Idle w ch) :
    Delivering (w.setChannel ch { w.channel ch with closed := true }) := by
  refine h.frame rfl (Nat.le_refl _) (Nat.le_refl _) ?_ ?_
  · intro c
    by_cases hc : c = ch
    · rw [hc, World.setChannel_self]
      exact ⟨rfl, rfl⟩
    · rw [World.setChannel_of_ne hc]
      exact ⟨rfl, rfl⟩
  rintro i c ⟨p, hp⟩ hopen
  have hc : c ≠ ch := by
    rintro rfl
    exact hidle p hp
  refine hopen.frame (Nat.le_refl _) ?_
  rw [World.setChannel_of_ne hc]
  exact ⟨rfl, rfl⟩

theorem Delivering.copyList (h : Delivering w) (howned : Owned w) {i : Nat} {event : Nat}
    {awaiting : Bool} (hnot : ∀ ch ∈ (w.broker i).subscribed topic, event ∉ (w.channel ch).delivered) :
    Delivering (w.copyList i topic event awaiting) := by
  let x : Publication := ⟨i, topic, event, (w.broker i).subscribed topic, (w.broker i).subscribed topic, awaiting⟩
  have hold : ∀ q, q ≠ w.publications → (w.copyList i topic event awaiting).publication q = w.publication q :=
    fun q hq => World.setPublication_of_ne hq x
  have hnew : (w.copyList i topic event awaiting).publication w.publications = x := World.setPublication_self x
  have hopen : ∀ ch ∈ x.remaining, Open w i ch := fun ch hch => howned.isOpen i ch (Broker.mem_subscribed hch)
  constructor
  · intro q ch hch
    by_cases hq : q = w.publications
    · rw [hq, hnew] at hch ⊢
      have hisOpen := hopen ch hch
      exact ⟨⟨hisOpen.made, hisOpen.owner, hisOpen.isOpen⟩, hnot ch hch⟩
    · rw [hold q hq] at hch ⊢
      obtain ⟨hisOpen, hrest⟩ := h.remaining q ch hch
      exact ⟨⟨hisOpen.made, hisOpen.owner, hisOpen.isOpen⟩, hrest⟩
  · intro q
    by_cases hq : q = w.publications
    · rw [hq, hnew]
      exact Broker.nodup_subscribed (howned.nodup i) topic
    · rw [hold q hq]
      exact h.nodup q
  · exact h.delivered
  · exact h.published
  · intro q ch hch
    by_cases hq : q = w.publications
    · rw [hq, hnew] at hch ⊢
      exact ⟨(hopen ch hch).made, .inl hch⟩
    · rw [hold q hq] at hch ⊢
      exact h.copied q ch hch

theorem Delivering.passOver (h : Delivering w) (htrack : Tracked w) {p : Nat} {rest : List Nat} {c : Channel}
    (hremain : (w.publication p).remaining = ch :: rest) (howner : c.owner = (w.channel ch).owner)
    (hclosed : c.closed = (w.channel ch).closed)
    (hdeliv : c.delivered = (w.channel ch).delivered ∨
      c.delivered = (w.channel ch).delivered ++ [(w.publication p).event])
    (hdropped : (w.channel ch).dropped ⊆ c.dropped)
    (hgot : (w.publication p).event ∈ c.delivered ∨ (w.publication p).event ∈ c.dropped) :
    Delivering ((w.setChannel ch c).setPublication p { w.publication p with remaining := rest }) := by
  have hmem : ch ∈ (w.publication p).remaining := by
    rw [hremain]
    exact mem_cons_self
  obtain ⟨hopen, hnot⟩ := h.remaining p ch hmem
  obtain ⟨hnotin, hnd⟩ := nodup_cons.mp (hremain ▸ h.nodup p)
  have hlt : p < w.publications := by
    by_contra hge
    rw [(htrack.made p (Nat.not_lt.mp hge)).1] at hremain
    cases hremain
  have hsub : ∀ event ∈ c.delivered, event ∈ (w.channel ch).delivered ∨ event = (w.publication p).event := by
    intro event hevent
    rcases hdeliv with hsame | hsame
    · rw [hsame] at hevent
      exact .inl hevent
    · rw [hsame] at hevent
      exact (mem_append.mp hevent).imp_right mem_singleton.mp
  have hkeep : ∀ event ∈ (w.channel ch).delivered, event ∈ c.delivered := by
    intro event hevent
    rcases hdeliv with hsame | hsame
    · rw [hsame]
      exact hevent
    · rw [hsame]
      exact mem_append_left _ hevent
  let v : World := (w.setChannel ch c).setPublication p { w.publication p with remaining := rest }
  have hchan : v.channel ch = c := World.setChannel_self c
  have hothers : ∀ d, d ≠ ch → v.channel d = w.channel d := fun d hd => World.setChannel_of_ne hd c
  have hself : v.publication p = { w.publication p with remaining := rest } := World.setPublication_self _
  have hrest : ∀ q, q ≠ p → v.publication q = w.publication q := fun q hq => World.setPublication_of_ne hq _
  have hkeepOpen : ∀ i d, Open w i d → Open v i d := by
    intro i d hd
    refine hd.frame (Nat.le_refl _) ?_
    by_cases hdch : d = ch
    · rw [hdch, hchan]
      exact ⟨howner, hclosed⟩
    · rw [hothers d hdch]
      exact ⟨rfl, rfl⟩
  constructor
  · intro q d hd
    by_cases hq : q = p
    · rw [hq, hself] at hd ⊢
      have hdrest : d ∈ rest := hd
      have hdch : d ≠ ch := by
        rintro rfl
        exact hnotin hdrest
      obtain ⟨hisOpen, hno⟩ := h.remaining p d (by rw [hremain]; exact mem_cons_of_mem _ hdrest)
      exact ⟨hkeepOpen _ _ hisOpen, by rw [hothers d hdch]; exact hno⟩
    · rw [hrest q hq] at hd ⊢
      obtain ⟨hisOpen, hno⟩ := h.remaining q d hd
      refine ⟨hkeepOpen _ _ hisOpen, ?_⟩
      by_cases hdch : d = ch
      · rw [hdch] at hd hno hisOpen ⊢
        rw [hchan]
        intro hin
        rcases hsub _ hin with hin | hsame
        · exact hno hin
        · -- Two publications of one event at one instance.
          rcases htrack.lone q p hq hsame (hisOpen.owner.symm.trans hopen.owner) with hnil | hnil
          · rw [hnil] at hd
            cases hd
          · rw [hnil] at hremain
            cases hremain
      · rw [hothers d hdch]
        exact hno
  · intro q
    by_cases hq : q = p
    · rw [hq, hself]
      exact hnd
    · rw [hrest q hq]
      exact h.nodup q
  · intro d
    by_cases hdch : d = ch
    · rw [hdch, hchan]
      rcases hdeliv with hsame | hsame
      · rw [hsame]
        exact h.delivered ch
      rw [hsame]
      refine (h.delivered ch).append (nodup_singleton _) ?_
      intro event hevent hevent'
      rw [mem_singleton.mp hevent'] at hevent
      exact hnot hevent
    · rw [hothers d hdch]
      exact h.delivered d
  · intro d event hevent
    by_cases hdch : d = ch
    · rw [hdch, hchan] at hevent
      rcases hsub event hevent with hevent | rfl
      · exact h.published ch event hevent
      · exact htrack.published p hlt
    · rw [hothers d hdch] at hevent
      exact h.published d event hevent
  · intro q d hd
    have hwas : d ∈ (w.publication q).copied := by
      by_cases hq : q = p
      · rw [hq, hself] at hd
        rw [hq]
        exact hd
      · rw [hrest q hq] at hd
        exact hd
    obtain ⟨hltd, hwhere⟩ := h.copied q d hwas
    refine ⟨hltd, ?_⟩
    have hevent : (v.publication q).event = (w.publication q).event := by
      by_cases hq : q = p
      · rw [hq, hself]
      · rw [hrest q hq]
    have hlogs : (w.publication q).event ∈ (w.channel d).delivered ∨ (w.publication q).event ∈ (w.channel d).dropped →
        (w.publication q).event ∈ (v.channel d).delivered ∨ (w.publication q).event ∈ (v.channel d).dropped := by
      by_cases hdch : d = ch
      · rw [hdch, hchan]
        exact Or.imp (hkeep _) (fun hin => hdropped hin)
      · rw [hothers d hdch]
        exact id
    rw [show (World.setPublication _ p _).publication q = v.publication q from rfl, hevent]
    rcases hwhere with hwhere | hwhere
    · by_cases hq : q = p
      · rw [hq, hremain] at hwhere
        rw [hq, hself]
        rcases mem_cons.mp hwhere with rfl | hwhere
        · exact .inr (by rw [show World.channel _ d = v.channel d from rfl, hchan]; exact hgot)
        · exact .inl hwhere
      · rw [hrest q hq]
        exact .inl hwhere
    · exact .inr (hlogs hwhere)

/-! ### Careful runs -/

/-- A step that closes no channel that a publication has still to send to, and receives no event that a subscriber of the
instance has been given. -/
def Careful (w : World) : Event → Prop
  | .unsubscribe i topic ch => (topic, ch) ∈ (w.broker i).subscribers → Idle w ch
  | .closeNext i ch => ch ∈ (w.broker i).closing → Idle w ch
  | .receive i => ∀ topic event rest, (w.broker i).inbox = (topic, event) :: rest →
      ∀ ch ∈ (w.broker i).subscribed topic, event ∉ (w.channel ch).delivered
  | _ => True

/-- The invariant. -/
structure Inv (w : World) : Prop where
  owned : Owned w
  tracked : Tracked w
  delivering : Delivering w
  faults : w.faults = []

theorem inv_start (redis : Nat → Bool) : Inv (World.start redis) := by
  refine ⟨⟨?_, ?_⟩, ⟨?_, ?_, ?_, ?_, ?_, ?_, ?_, ?_⟩, ⟨?_, ?_, ?_, ?_, ?_⟩, rfl⟩
  all_goals simp [World.start, Broker.handles, Channel.new]

theorem Inv.subscribe (h : Inv w) (i : Nat) (topic : String) : Inv (w.subscribe i topic) := by
  have howned := h.owned.subscribe i topic
  rw [World.subscribe] at howned ⊢
  split_ifs at howned ⊢
  · exact ⟨howned, h.tracked.frame rfl rfl (Nat.le_refl _) (fun j => List.Sublist.refl _),
      h.delivering.makeChannel i true, h.faults⟩
  have hmade : Tracked (w.makeChannel (Channel.new i false)) :=
    h.tracked.frame rfl rfl (Nat.le_refl _) (fun j => List.Sublist.refl _)
  refine ⟨howned, hmade.setBroker (List.Sublist.refl _), ?_, h.faults⟩
  exact (h.delivering.makeChannel i false).frame rfl (Nat.le_refl _) (Nat.le_refl _) (fun _ => ⟨rfl, rfl⟩)
    (fun _ _ _ hopen => hopen.setBroker _ _)

/-- A channel that nothing has to be sent to is closed and taken off the lists of its instance. -/
theorem Inv.close (h : Inv w) {i : Nat} (hperm : (w.broker i).handles.Perm (ch :: b.handles))
    (hinbox : b.inbox = (w.broker i).inbox) (hidle : Idle w ch) : Inv ((w.closeChannel ch).setBroker i b) := by
  obtain ⟨howned, hclose⟩ := h.owned.close hperm
  rw [hclose] at howned ⊢
  refine ⟨howned, ?_, ?_, h.faults⟩
  · have hset : Tracked (w.setChannel ch { w.channel ch with closed := true }) :=
      h.tracked.frame rfl rfl (Nat.le_refl _) (fun j => List.Sublist.refl _)
    exact hset.setBroker (by rw [hinbox]; exact List.Sublist.refl _)
  · exact (h.delivering.closeIdle hidle).frame rfl (Nat.le_refl _) (Nat.le_refl _) (fun _ => ⟨rfl, rfl⟩)
      (fun _ _ _ hopen => hopen.setBroker _ _)

theorem Inv.unsubscribe (h : Inv w) {i : Nat}
    (hidle : (topic, ch) ∈ (w.broker i).subscribers → Idle w ch) : Inv (w.unsubscribe i topic ch) := by
  rw [World.unsubscribe]
  split_ifs with hmem
  · exact h.close (unsubscribe_perm hmem) rfl (hidle hmem)
  · exact h

theorem Inv.closeNext (h : Inv w) {i : Nat} (hidle : ch ∈ (w.broker i).closing → Idle w ch) :
    Inv (w.closeNext i ch) := by
  rw [World.closeNext]
  split_ifs with hmem
  · exact h.close (closeNext_perm hmem) rfl (hidle hmem)
  · exact h

theorem Inv.closeBroker (h : Inv w) (i : Nat) : Inv (w.closeBroker i) := by
  have howned := h.owned.closeBroker i
  rw [World.closeBroker] at howned ⊢
  split_ifs at howned ⊢
  · exact h
  · refine ⟨howned, h.tracked.setBroker (List.Sublist.refl _), ?_, h.faults⟩
    exact h.delivering.frame rfl (Nat.le_refl _) (Nat.le_refl _) (fun _ => ⟨rfl, rfl⟩)
      (fun _ _ _ hopen => hopen.setBroker _ _)

theorem Owned.copyList (h : Owned w) (i : Nat) (topic : String) (event : Nat) (awaiting : Bool) :
    Owned (w.copyList i topic event awaiting) :=
  h.frame (Nat.le_refl _) (fun _ => ⟨rfl, rfl⟩) (fun _ => rfl)

section
variable (h : Inv w)
include h

theorem Inv.publish (i : Nat) (topic : String) : Inv (w.publish i topic) := by
  have howned : Owned (w.publish i topic) := h.owned.frame (Nat.le_refl _) (fun _ => ⟨rfl, rfl⟩) (fun _ => rfl)
  refine ⟨howned, h.tracked.publish i topic, ?_, h.faults⟩
  have hnot : ∀ ch ∈ (w.broker i).subscribed topic, w.events ∉ (w.channel ch).delivered :=
    fun ch _ hin => Nat.lt_irrefl _ (h.delivering.published ch _ hin)
  have hcopied : Delivering (w.copyList i topic w.events (w.broker i).redis) := h.delivering.copyList h.owned hnot
  exact hcopied.frame rfl (Nat.le_refl _) (Nat.le_succ _)
    (fun _ => ⟨rfl, rfl⟩) (fun _ _ _ hopen => ⟨hopen.made, hopen.owner, hopen.isOpen⟩)

theorem Inv.receive {i : Nat} (hcare : Careful w (.receive i)) : Inv (w.receive i) := by
  have htrack := h.tracked.receive i
  rw [World.receive] at htrack ⊢
  cases hinbox : (w.broker i).inbox with
  | nil =>
    rw [hinbox] at htrack
    exact h
  | cons m rest =>
  obtain ⟨topic, event⟩ := m
  rw [hinbox] at htrack
  let v : World := w.setBroker i { w.broker i with inbox := rest }
  have hsame : ∀ j, (v.broker j).handles = (w.broker j).handles := by
    intro j
    by_cases hj : j = i
    · rw [hj, World.setBroker_self]
      rfl
    · rw [World.setBroker_of_ne hj]
  have howned : Owned v := h.owned.frame (Nat.le_refl _) (fun _ => ⟨rfl, rfl⟩) hsame
  have hdelivering : Delivering v :=
    h.delivering.frame rfl (Nat.le_refl _) (Nat.le_refl _) (fun _ => ⟨rfl, rfl⟩)
      (fun _ _ _ hopen => hopen.setBroker _ _)
  refine ⟨howned.copyList i topic event false, htrack, hdelivering.copyList howned ?_, h.faults⟩
  intro ch hch
  rw [World.setBroker_self] at hch
  exact hcare topic event rest hinbox ch hch

theorem Inv.sendNext (p : Nat) : Inv (w.sendNext p) := by
  rw [World.sendNext]
  cases hremain : (w.publication p).remaining with
  | nil => exact h
  | cons ch rest =>
  have hmem : ch ∈ (w.publication p).remaining := by
    rw [hremain]
    exact mem_cons_self
  have hopen := (h.delivering.remaining p ch hmem).1
  have hsent : ∀ c : Channel, c.owner = (w.channel ch).owner → c.closed = (w.channel ch).closed →
      Delivering ((w.setChannel ch c).setPublication p { w.publication p with remaining := rest }) →
      Inv ((w.setChannel ch c).setPublication p { w.publication p with remaining := rest }) := by
    intro c howner hclosed hdelivering
    have howned : Owned (w.setChannel ch c) := by
      refine h.owned.frame (Nat.le_refl _) ?_ (fun _ => rfl)
      intro d
      by_cases hd : d = ch
      · rw [hd, World.setChannel_self]
        exact ⟨howner, hclosed⟩
      · rw [World.setChannel_of_ne hd]
        exact ⟨rfl, rfl⟩
    have htrack : Tracked (w.setChannel ch c) :=
      h.tracked.frame rfl rfl (Nat.le_refl _) (fun _ => List.Sublist.refl _)
    exact ⟨howned.frame (Nat.le_refl _) (fun _ => ⟨rfl, rfl⟩) (fun _ => rfl),
      htrack.setRemaining (by
        show (w.publication p).remaining ≠ []
        rw [hremain]
        exact cons_ne_nil _ _), hdelivering, h.faults⟩
  show Inv ((w.send ch (w.publication p).event).setPublication p { w.publication p with remaining := rest })
  rw [World.send, hopen.isOpen, if_neg Bool.false_ne_true]
  split_ifs
  · refine hsent _ rfl rfl (h.delivering.passOver h.tracked hremain rfl rfl (.inl rfl) ?_ (.inr ?_))
    · exact subset_append_left _ _
    · exact mem_append_right _ (mem_singleton_self _)
  · refine hsent _ rfl rfl (h.delivering.passOver h.tracked hremain rfl rfl (.inr rfl) ?_ (.inl ?_))
    · exact List.Subset.refl _
    · exact mem_append_right _ (mem_singleton_self _)

theorem Inv.sentOn {p : Nat} (hwait : (w.publication p).awaiting = true)
    (hdone : (w.publication p).remaining = []) {broker : Nat → Broker}
    (hhandles : ∀ i, (broker i).handles = (w.broker i).handles)
    (hinbox : ∀ i, (broker i).inbox = (w.broker i).inbox ∨
      (broker i).inbox = (w.broker i).inbox ++ [((w.publication p).topic, (w.publication p).event)]) :
    Inv { w.setPublication p { w.publication p with awaiting := false } with broker := broker } := by
  refine ⟨h.owned.frame (Nat.le_refl _) (fun _ => ⟨rfl, rfl⟩) hhandles, h.tracked.sentOn hwait hdone hinbox, ?_,
    h.faults⟩
  have hsame : ∀ q, ((w.setPublication p { w.publication p with awaiting := false }).publication q).remaining =
      (w.publication q).remaining ∧
      ((w.setPublication p { w.publication p with awaiting := false }).publication q).copied = (w.publication q).copied ∧
      ((w.setPublication p { w.publication p with awaiting := false }).publication q).owner = (w.publication q).owner ∧
      ((w.setPublication p { w.publication p with awaiting := false }).publication q).event =
        (w.publication q).event := by
    intro q
    by_cases hq : q = p
    · rw [hq, World.setPublication_self]
      exact ⟨rfl, rfl, rfl, rfl⟩
    · rw [World.setPublication_of_ne hq]
      exact ⟨rfl, rfl, rfl, rfl⟩
  constructor
  · intro q ch hch
    obtain ⟨hremain, -, howner, hevent⟩ := hsame q
    rw [hremain] at hch
    obtain ⟨hopen, hnot⟩ := h.delivering.remaining q ch hch
    rw [howner, hevent]
    exact ⟨⟨hopen.made, hopen.owner, hopen.isOpen⟩, hnot⟩
  · intro q
    rw [(hsame q).1]
    exact h.delivering.nodup q
  · exact h.delivering.delivered
  · exact h.delivering.published
  · intro q ch hch
    obtain ⟨hremain, hcopied, -, hevent⟩ := hsame q
    rw [hcopied] at hch
    rw [hremain, hevent]
    exact h.delivering.copied q ch hch

theorem Inv.sendOn (p : Nat) (ok : Bool) : Inv (w.sendOn p ok) := by
  rw [World.sendOn]
  by_cases hready : ((w.publication p).awaiting && (w.publication p).remaining.isEmpty) = true
  · obtain ⟨hwait, hempty⟩ := Bool.and_eq_true_iff.mp hready
    have hdone := isEmpty_iff.mp hempty
    rw [if_pos hready]
    cases ok with
    | false =>
      have hinbox : ∀ i, (w.broker i).inbox = (w.broker i).inbox ∨
          (w.broker i).inbox = (w.broker i).inbox ++ [((w.publication p).topic, (w.publication p).event)] :=
        fun _ => .inl rfl
      exact h.sentOn hwait hdone (fun _ => rfl) hinbox
    | true =>
    refine h.sentOn hwait hdone ?_ ?_
    · intro i
      show (if (w.broker i).redis then _ else w.broker i : Broker).handles = _
      split_ifs
      · rfl
      · rfl
    intro i
    show (if (w.broker i).redis then _ else w.broker i : Broker).inbox = _ ∨
      (if (w.broker i).redis then _ else w.broker i : Broker).inbox = _
    split_ifs
    · exact .inr rfl
    · exact .inl rfl
  · rw [if_neg hready]
    exact h

theorem Inv.take (ch : Nat) : Inv (w.take ch) := by
  rw [World.take]
  split_ifs
  · have hsame : ∀ c, ((w.setChannel ch { w.channel ch with taken := (w.channel ch).taken + 1 }).channel c) =
        { w.channel c with taken := if c = ch then (w.channel ch).taken + 1 else (w.channel c).taken } := by
      intro c
      by_cases hc : c = ch
      · rw [hc, World.setChannel_self, if_pos rfl]
      · rw [World.setChannel_of_ne hc, if_neg hc]
    refine ⟨h.owned.frame (Nat.le_refl _) ?_ (fun _ => rfl),
      h.tracked.frame rfl rfl (Nat.le_refl _) (fun _ => List.Sublist.refl _), ?_, h.faults⟩
    · intro c
      rw [hsame]
      exact ⟨rfl, rfl⟩
    refine h.delivering.frame rfl (Nat.le_refl _) (Nat.le_refl _) ?_ ?_
    · intro c
      rw [hsame]
      exact ⟨rfl, rfl⟩
    · intro i c _ hopen
      refine hopen.frame (Nat.le_refl _) ?_
      rw [hsame]
      exact ⟨rfl, rfl⟩
  · exact h
end

/-- **Step.** -/
theorem inv_step (w : World) (e : Event) (h : Inv w) (hcare : Careful w e) : Inv (step w e) := by
  cases e with
  | subscribe i topic => exact h.subscribe i topic
  | unsubscribe i topic ch => exact h.unsubscribe hcare
  | publish i topic => exact h.publish i topic
  | sendNext p => exact h.sendNext p
  | sendOn p ok => exact h.sendOn p ok
  | receive i => exact h.receive hcare
  | closeBroker i => exact h.closeBroker i
  | closeNext i ch => exact h.closeNext hcare
  | take ch => exact h.take ch

/-! ### Safely and once -/

/-- Nothing is sent on a closed channel and none is closed twice, and a subscriber gets every event at most once, and
exactly once when it was on the list, the publication is done, and its buffer was not full. -/
structure Delivered (w : World) : Prop where
  noFault : w.faults = []
  atMostOnce : ∀ ch event, (w.channel ch).delivered.count event ≤ 1
  exactlyOnce : ∀ p, (w.publication p).remaining = [] → ∀ ch ∈ (w.publication p).copied,
    (w.publication p).event ∉ (w.channel ch).dropped → (w.channel ch).delivered.count (w.publication p).event = 1

theorem Inv.isDelivered (h : Inv w) : Delivered w := by
  refine ⟨h.faults, ?_, ?_⟩
  · intro ch event
    exact nodup_iff_count_le_one.mp (h.delivering.delivered ch) event
  intro p hdone ch hch hnot
  refine count_eq_one_of_mem (h.delivering.delivered ch) ?_
  rcases (h.delivering.copied p ch hch).2 with hin | hin | hin
  · rw [hdone] at hin
    cases hin
  · exact hin
  · exact absurd hin hnot

/-- **Careful runs deliver safely and once.** -/
theorem careful_delivery (redis : Nat → Bool) (es : List Event) (h : Guarded step Careful (World.start redis) es) :
    Delivered (run step (World.start redis) es) :=
  (guarded_invariant inv_step (inv_start redis) h).isDelivered

/-- A subscriber that leaves when everything has been sent to it. -/
theorem careful_delivery_dashboard : Delivered (run step (World.start (fun i => decide (i = 1)))
      [.subscribe 0 "dashboard", .publish 0 "dashboard", .sendNext 0, .unsubscribe 0 "dashboard" 0]) := by
  refine careful_delivery _ _ ⟨trivial, trivial, trivial, ?_, trivial⟩
  intro _ p
  by_cases hp : p = 0
  · rw [hp]
    decide
  have hinv : Inv (run step (World.start (fun i => decide (i = 1)))
      [.subscribe 0 "dashboard", .publish 0 "dashboard", .sendNext 0]) :=
    guarded_invariant inv_step (inv_start _) ⟨trivial, trivial, trivial, trivial⟩
  have hempty := (hinv.tracked.made p (Nat.pos_of_ne_zero hp)).1
  exact fun hmem => ne_nil_of_mem hmem hempty

/-- A subscriber leaves between the copy of the list and the send to it; and a subscriber of an instance with Redis gets an
event from the publication and from the receive loop. -/
theorem sent_on_closed_and_twice : (run step (World.start (fun _ => false))
      [.subscribe 0 "dashboard", .publish 0 "dashboard", .unsubscribe 0 "dashboard" 0, .sendNext 0]).faults =
        [.sentOnClosed 0] ∧
    ((run step (World.start (fun _ => true))
      [.subscribe 0 "dashboard", .publish 0 "dashboard", .sendNext 0, .sendOn 0 true, .receive 0, .sendNext 1]).channel
        0).delivered = [0, 0] ∧
    ¬ ∀ redis es, Delivered (run step (World.start redis) es) := by
  refine ⟨by decide, by decide, ?_⟩
  intro hall
  have hfault := (hall (fun _ => false) [.subscribe 0 "dashboard", .publish 0 "dashboard",
    .unsubscribe 0 "dashboard" 0, .sendNext 0]).noFault
  exact absurd hfault (by decide)

end Paprika.Events
