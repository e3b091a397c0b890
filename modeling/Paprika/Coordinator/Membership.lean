import Paprika.Coordinator.Ring
import Paprika.Lib.Run

/-!
# The replicas of a ring

`coordinator.go`: the replicas of the operator keep a set of their names and one heartbeat key each in Redis, and every
replica builds its ring from the set.  `Join` adds the name; heartbeats refresh the key and the lifetime of the set;
`syncRing` reads the set and removes the names whose key is gone; `Leave` removes the name and the key.

Pauses are arbitrary, so a key, or a set that has a lifetime, may expire at any moment; every call of Redis may fail, a
pipeline after any number of its commands, and what was carried out may be reported as a failure.

* `World`, `step` — Redis and the replicas, one call of Redis at a time;
* `Stable`, `Exclusive` — every replica has completed a heartbeat and a `syncRing` since the membership last changed; and
  what is expected then: every replica is on its ring, the rings agree and one replica matches a namespace;
* `Careful` — the steps that take no running replica out of the set and leave no other in it;
* **`ownership_exclusive`** — stable states of runs of such steps are exclusive; **`paused_replica_is_unlisted`** —
  a running replica that was taken out of the set is on no ring.
-/

namespace Paprika.Coordinator

open Lib.Run List

/-! ### Redis -/

/-- The replica set, whether it has a lifetime, and the names whose heartbeat key exists. -/
structure Redis where
  replicas : List String
  volatile : Bool
  alive : List String

namespace Redis

variable (r : Redis)

def sAdd (m : String) : Redis := { r with replicas := if m ∈ r.replicas then r.replicas else r.replicas ++ [m] }

/-- A set without members does not exist, and has no lifetime. -/
def sRem (m : String) : Redis :=
  { r with
    replicas := r.replicas.filter (· ≠ m)
    volatile := r.volatile && (r.replicas.filter (· ≠ m)) ≠ [] }

def setHeartbeat (m : String) : Redis := { r with alive := if m ∈ r.alive then r.alive else r.alive ++ [m] }

def delHeartbeat (m : String) : Redis := { r with alive := r.alive.filter (· ≠ m) }

def expireReplicas : Redis := { r with volatile := r.replicas ≠ [] }

/-- The first commands of a pipeline. -/
def pipeline (done : Nat) (commands : List (Redis → Redis)) : Redis := (commands.take done).foldl (fun r f => f r) r

end Redis

/-! ### The replicas -/

/-- Where the loop of a replica stands: between heartbeats, or in `syncRing`, about to list the set, with members left to
check and members found, or about to remove one. -/
inductive Phase where
  | idle
  | listing
  | checking (rest clean : List String)
  | removing (m : String) (rest clean : List String)
  deriving DecidableEq

/-- A replica.  The last three fields are what an observer notes of it since the membership last changed: that it has
completed a heartbeat, that its `syncRing` began, and that it has completed one. -/
structure Replica where
  running : Bool
  healthy : Bool
  phase : Phase
  ring : Ring
  beaten : Bool
  fresh : Bool
  synced : Bool

def NewCoordinator : Replica := ⟨false, false, .idle, NewRing [] 16, false, false, false⟩

structure World where
  redis : Redis
  replica : String → Replica

/-- The calls of Redis, with how they end; what expires. -/
inductive Event where
  /-- `Join`, whose pipeline has carried out `done` commands and is reported as successful or not. -/
  | join (p : String) (done : Nat) (ok : Bool)
  | heartbeat (p : String) (done : Nat) (ok : Bool)
  | leave (p : String) (done : Nat)
  /-- `SMEMBERS`: an order of the members, or an error. -/
  | members (p : String) (answer : Option (List String))
  | heartbeatExists (p : String) (ok : Bool)
  | remove (p : String) (done : Bool)
  | rebuild (p : String)
  | expireHeartbeat (m : String)
  | expireReplicas
  deriving DecidableEq

namespace World

variable (w : World)

def setReplica (p : String) (x : Replica) : World := { w with replica := Function.update w.replica p x }

/-- The membership has changed: nothing was completed since. -/
def changed : World :=
  { w with replica := fun p => { w.replica p with beaten := false, fresh := false, synced := false } }

def setRedis (r : Redis) : World := { w with redis := r }

def join (p : String) (done : Nat) (ok : Bool) : World :=
  let r := w.redis.pipeline done [fun r => r.sAdd p, fun r => r.setHeartbeat p]
  if ok && 2 ≤ done then
    ((w.setRedis r).setReplica p { NewCoordinator with running := true, healthy := true, phase := .listing }).changed
  else ((w.setRedis r).setReplica p { NewCoordinator with running := true }).changed

def heartbeat (p : String) (done : Nat) (ok : Bool) : World :=
  let r := w.redis.pipeline done [fun r => r.setHeartbeat p, fun r => r.expireReplicas]
  if ok && 2 ≤ done then
    (w.setRedis r).setReplica p { w.replica p with healthy := true, phase := .listing, beaten := true }
  else (w.setRedis r).setReplica p { w.replica p with healthy := false }

def leave (p : String) (done : Nat) : World :=
  let r := w.redis.pipeline done [fun r => r.delHeartbeat p, fun r => r.sRem p]
  ((w.setRedis r).setReplica p { w.replica p with running := false }).changed

/-- The set was listed, in some order. -/
def list (p : String) (answer : List String) : World :=
  w.setReplica p { w.replica p with phase := .checking answer [], fresh := true }

def setPhase (p : String) (phase : Phase) : World := w.setReplica p { w.replica p with phase := phase }

/-- A member whose key cannot be checked stays. -/
def check (p m : String) (rest clean : List String) (ok : Bool) : World :=
  if ok && m ∉ w.redis.alive then w.setPhase p (.removing m rest clean) else w.setPhase p (.checking rest (clean ++ [m]))

/-- Whether the removal fails is not looked at. -/
def remove (p m : String) (rest clean : List String) (done : Bool) : World :=
  if done && m ∈ w.redis.replicas then ((w.setRedis (w.redis.sRem m)).setPhase p (.checking rest clean)).changed
  else w.setPhase p (.checking rest clean)

def rebuild (p : String) (clean : List String) : World :=
  w.setReplica p { w.replica p with
    phase := .idle, ring := (w.replica p).ring.Rebuild clean, synced := (w.replica p).fresh, fresh := false }

def expireHeartbeat (m : String) : World := (w.setRedis (w.redis.delHeartbeat m)).changed

def expireReplicas : World := (w.setRedis { w.redis with replicas := [], volatile := false }).changed

end World

/-- One step; an event that cannot happen changes nothing. -/
def step (w : World) : Event → World
  | .join p done ok => if (w.replica p).running then w else w.join p done ok
  | .heartbeat p done ok =>
    if (w.replica p).running && (w.replica p).phase = .idle then w.heartbeat p done ok else w
  | .leave p done => if (w.replica p).running && (w.replica p).phase = .idle then w.leave p done else w
  | .members p answer =>
    if (w.replica p).phase = .listing then
      match answer with
      | none => w.setPhase p .idle
      | some order => if order.Perm w.redis.replicas then w.list p order else w
    else w
  | .heartbeatExists p ok =>
    match (w.replica p).phase with
    | .checking (m :: rest) clean => w.check p m rest clean ok
    | _ => w
  | .remove p done =>
    match (w.replica p).phase with
    | .removing m rest clean => w.remove p m rest clean done
    | _ => w
  | .rebuild p =>
    match (w.replica p).phase with
    | .checking [] clean => w.rebuild p clean
    | _ => w
  | .expireHeartbeat m => if m ∈ w.redis.alive then w.expireHeartbeat m else w
  | .expireReplicas => if w.redis.volatile then w.expireReplicas else w

def World.init : World := ⟨⟨[], false, []⟩, fun _ => NewCoordinator⟩

/-! ### Stable states -/

/-- Every running replica has completed a heartbeat and a `syncRing` since the last join, leave, expiry or removal. -/
def World.Stable (w : World) : Prop :=
  ∀ p, (w.replica p).running = true → (w.replica p).beaten = true ∧ (w.replica p).synced = true

/-- Every running replica is a member of its ring, the rings agree on every key, and every namespace is matched by one
running replica. -/
structure World.Exclusive (w : World) : Prop where
  listed : ∀ p, (w.replica p).running = true → p ∈ (w.replica p).ring.members
  agree : ∀ p q, (w.replica p).running = true → (w.replica q).running = true →
    ∀ key, (w.replica p).ring.Lookup key = (w.replica q).ring.Lookup key
  owned : (∃ p, (w.replica p).running = true) → ∀ ns, ∃! p, (w.replica p).running = true ∧
    (w.replica p).ring.Matches p ns = true

/-- Steps that keep the set to the running replicas: a join adds its name and a leave removes it, `syncRing` comes to
remove no running replica, and the set does not expire while a replica runs. -/
def Careful (w : World) : Event → Prop
  | .join _ done _ => 1 ≤ done
  | .leave _ done => 2 ≤ done
  | .remove p _ => ∀ m rest clean, (w.replica p).phase = .removing m rest clean → (w.replica m).running = false
  | .expireReplicas => ∀ p, (w.replica p).running = false
  | _ => True

/-! ### What a step does -/

inductive Step (w : World) : Event → World → Prop where
  | idle (e : Event) : Step w e w
  | join (p : String) (done : Nat) (ok : Bool) (hstopped : (w.replica p).running = false) :
      Step w (.join p done ok) (w.join p done ok)
  | heartbeat (p : String) (done : Nat) (ok : Bool) (hrunning : (w.replica p).running = true)
      (hphase : (w.replica p).phase = .idle) : Step w (.heartbeat p done ok) (w.heartbeat p done ok)
  | leave (p : String) (done : Nat) (hrunning : (w.replica p).running = true) (hphase : (w.replica p).phase = .idle) :
      Step w (.leave p done) (w.leave p done)
  | unlisted (p : String) (hphase : (w.replica p).phase = .listing) : Step w (.members p none) (w.setPhase p .idle)
  | listed (p : String) (order : List String) (hphase : (w.replica p).phase = .listing)
      (horder : order.Perm w.redis.replicas) : Step w (.members p (some order)) (w.list p order)
  | check (p m : String) (rest clean : List String) (ok : Bool)
      (hphase : (w.replica p).phase = .checking (m :: rest) clean) :
      Step w (.heartbeatExists p ok) (w.check p m rest clean ok)
  | remove (p m : String) (rest clean : List String) (done : Bool)
      (hphase : (w.replica p).phase = .removing m rest clean) : Step w (.remove p done) (w.remove p m rest clean done)
  | rebuild (p : String) (clean : List String) (hphase : (w.replica p).phase = .checking [] clean) :
      Step w (.rebuild p) (w.rebuild p clean)
  | expireHeartbeat (m : String) : Step w (.expireHeartbeat m) (w.expireHeartbeat m)
  | expireReplicas : Step w .expireReplicas w.expireReplicas

theorem step_cases (w : World) (e : Event) : Step w e (step w e) := by
  cases e with
  | join p done ok =>
    rw [step]
    split_ifs with hrun
    · exact .idle _
    · exact .join p done ok (Bool.eq_false_iff.mpr hrun)
  | heartbeat p done ok =>
    rw [step]
    split_ifs with hready
    · obtain ⟨hrun, hphase⟩ := Bool.and_eq_true_iff.mp hready
      exact .heartbeat p done ok hrun (of_decide_eq_true hphase)
    · exact .idle _
  | leave p done =>
    rw [step]
    split_ifs with hready
    · obtain ⟨hrun, hphase⟩ := Bool.and_eq_true_iff.mp hready
      exact .leave p done hrun (of_decide_eq_true hphase)
    · exact .idle _
  | members p answer =>
    simp only [step]
    split_ifs with hphase
    · cases answer with
      | none => exact .unlisted p hphase
      | some order =>
        by_cases horder : order.Perm w.redis.replicas
        · simpa only [if_pos horder] using Step.listed p order hphase horder
        · simpa only [if_neg horder] using Step.idle _
    · exact .idle _
  | heartbeatExists p ok =>
    rw [step]
    cases hphase : (w.replica p).phase with
    | checking rest clean =>
      cases rest with
      | nil => exact .idle _
      | cons m rest => exact .check p m rest clean ok hphase
    | idle | listing | removing => exact .idle _
  | remove p done =>
    rw [step]
    cases hphase : (w.replica p).phase with
    | removing m rest clean => exact .remove p m rest clean done hphase
    | idle | listing | checking => exact .idle _
  | rebuild p =>
    rw [step]
    cases hphase : (w.replica p).phase with
    | checking rest clean =>
      cases rest with
      | nil => exact .rebuild p clean hphase
      | cons m rest => exact .idle _
    | idle | listing | removing => exact .idle _
  | expireHeartbeat m =>
    rw [step]
    split_ifs
    · exact .expireHeartbeat m
    · exact .idle _
  | expireReplicas =>
    rw [step]
    split_ifs
    · exact .expireReplicas
    · exact .idle _

variable {w : World} {pods : List String} {p : String}

@[simp] theorem replica_setReplica_self (x : Replica) : (w.setReplica p x).replica p = x := Function.update_self ..

theorem replica_setReplica_of_ne {q : String} (h : q ≠ p) (x : Replica) : (w.setReplica p x).replica q = w.replica q :=
  Function.update_of_ne h ..

variable {clean : List String} {done : Nat} {k m : String}

@[simp] theorem mem_sAdd {r : Redis} : k ∈ (r.sAdd m).replicas ↔ k ∈ r.replicas ∨ k = m := by
  rw [Redis.sAdd]
  split_ifs with hm
  · exact ⟨.inl, fun h => h.elim id fun heq => heq ▸ hm⟩
  · simp

@[simp] theorem mem_sRem {r : Redis} : k ∈ (r.sRem m).replicas ↔ k ∈ r.replicas ∧ k ≠ m := by simp [Redis.sRem]

/-- The set after the pipeline of a join, none, one or both of whose commands were carried out. -/
theorem mem_pipeline_join {r : Redis} : k ∈ (r.pipeline done [fun r => r.sAdd p, fun r => r.setHeartbeat p]).replicas ↔
      k ∈ r.replicas ∨ (1 ≤ done ∧ k = p) := by
  obtain rfl | rfl | ⟨n, rfl⟩ : done = 0 ∨ done = 1 ∨ ∃ n, done = n + 2 := by
    rcases done with _ | _ | n
    · exact .inl rfl
    · exact .inr (.inl rfl)
    · exact .inr (.inr ⟨n, rfl⟩)
  · simp [Redis.pipeline]
  · simp [Redis.pipeline]
  · simp [Redis.pipeline, Redis.setHeartbeat]

theorem replicas_pipeline_heartbeat {r : Redis} :
    (r.pipeline done [fun r => r.setHeartbeat p, fun r => r.expireReplicas]).replicas = r.replicas := by
  rcases done with _ | _ | n
  · rfl
  · rfl
  · simp [Redis.pipeline, Redis.setHeartbeat, Redis.expireReplicas]

theorem mem_pipeline_leave {r : Redis} : k ∈ (r.pipeline done [fun r => r.delHeartbeat p, fun r => r.sRem p]).replicas ↔
      k ∈ r.replicas ∧ (2 ≤ done → k ≠ p) := by
  rcases done with _ | _ | n
  · simp [Redis.pipeline]
  · simp [Redis.pipeline, Redis.delHeartbeat]
  · simp [Redis.pipeline, Redis.delHeartbeat]

/-! ### Careful runs -/

/-- The names that a `syncRing` has read and not dropped. -/
def Phase.names : Phase → List String
  | .idle => []
  | .listing => []
  | .checking rest clean => rest ++ clean
  | .removing m rest clean => m :: rest ++ clean

/-- A `syncRing` that began since the membership last changed has read the set, and one that is complete has built the
ring of it. -/
structure Replica.Fits (S : List String) (x : Replica) : Prop where
  size : x.ring.replicas = 16
  fresh : x.fresh = true → ∀ m, m ∈ S ↔ m ∈ x.phase.names
  synced : x.synced = true → ∃ r members, r.replicas = 16 ∧ x.ring = Ring.Rebuild r members ∧ ∀ m, m ∈ S ↔ m ∈ members

structure Inv (w : World) : Prop where
  listed : ∀ m, m ∈ w.redis.replicas ↔ (w.replica m).running = true
  fits : ∀ p, (w.replica p).Fits w.redis.replicas

theorem inv_init : Inv World.init := by
  refine ⟨?_, ?_⟩
  · intro m
    simp [World.init, NewCoordinator]
  intro p
  refine ⟨rfl, ?_, ?_⟩
  · intro h
    cases h
  · intro h
    cases h

theorem Inv.setReplica (h : Inv w) {r : Redis} {x : Replica} (hr : r.replicas = w.redis.replicas)
    (hrun : x.running = (w.replica p).running) (hfits : x.Fits w.redis.replicas) :
    Inv ((w.setRedis r).setReplica p x) := by
  have hsame : ∀ q, (((w.setRedis r).setReplica p x).replica q).running = (w.replica q).running := by
    intro q
    by_cases hq : q = p
    · rw [hq, replica_setReplica_self, hrun]
    · rw [replica_setReplica_of_ne hq]
      rfl
  refine ⟨?_, ?_⟩
  · intro m
    show m ∈ r.replicas ↔ _
    rw [hr, hsame, h.listed]
  intro q
  show Replica.Fits r.replicas _
  rw [hr]
  by_cases hq : q = p
  · rw [hq, replica_setReplica_self]
    exact hfits
  · rw [replica_setReplica_of_ne hq]
    exact h.fits q

theorem inv_changed (hlisted : ∀ m, m ∈ w.redis.replicas ↔ (w.replica m).running = true)
    (hsize : ∀ p, (w.replica p).ring.replicas = 16) : Inv w.changed := by
  refine ⟨hlisted, ?_⟩
  intro p
  refine ⟨hsize p, ?_, ?_⟩
  · intro h
    cases h
  · intro h
    cases h

section
variable (h : Inv w)
include h

theorem Inv.setPhase {phase : Phase}
    (hfresh : (w.replica p).fresh = true → ∀ m, m ∈ (w.replica p).phase.names ↔ m ∈ phase.names) :
    Inv (w.setPhase p phase) := by
  have hold := h.fits p
  refine h.setReplica rfl rfl ⟨hold.size, ?_, hold.synced⟩
  intro hf m
  rw [hold.fresh hf m, hfresh hf m]

theorem Inv.join (ok : Bool) (hdone : 1 ≤ done) : Inv (w.join p done ok) := by
  -- in either case the replica runs, and its ring is new
  have hjoined : ∀ x : Replica, x.running = true → x.ring.replicas = 16 →
      Inv ((w.setRedis (w.redis.pipeline done [fun r => r.sAdd p, fun r => r.setHeartbeat p])).setReplica p
        x).changed := by
    intro x hrun hsize
    refine inv_changed ?_ ?_
    · intro m
      show m ∈ (w.redis.pipeline done _).replicas ↔ _
      rw [mem_pipeline_join]
      by_cases hm : m = p
      · rw [hm, replica_setReplica_self, hrun]
        simp [hdone]
      · rw [replica_setReplica_of_ne hm, h.listed]
        simp [World.setRedis, hm]
    · intro q
      by_cases hqp : q = p
      · rw [hqp, replica_setReplica_self]
        exact hsize
      · rw [replica_setReplica_of_ne hqp]
        exact (h.fits q).size
  rw [World.join]
  split_ifs
  · exact hjoined _ rfl rfl
  · exact hjoined _ rfl rfl

theorem Inv.heartbeat (done : Nat) (ok : Bool) (hphase : (w.replica p).phase = .idle) :
    Inv (w.heartbeat p done ok) := by
  have hold := h.fits p
  rw [World.heartbeat]
  split_ifs
  · refine h.setReplica replicas_pipeline_heartbeat rfl ⟨hold.size, ?_, hold.synced⟩
    intro hfresh m
    rw [hold.fresh hfresh m, hphase]
    rfl
  · exact h.setReplica replicas_pipeline_heartbeat rfl ⟨hold.size, hold.fresh, hold.synced⟩

theorem Inv.leave (hdone : 2 ≤ done) : Inv (w.leave p done) := by
  refine inv_changed ?_ ?_
  · intro m
    show m ∈ (w.redis.pipeline done _).replicas ↔ _
    rw [mem_pipeline_leave, h.listed]
    by_cases hm : m = p
    · rw [hm, replica_setReplica_self]
      simp [hdone]
    · rw [replica_setReplica_of_ne hm]
      simp [World.setRedis, hm]
  · intro q
    by_cases hqp : q = p
    · rw [hqp, replica_setReplica_self]
      exact (h.fits p).size
    · rw [replica_setReplica_of_ne hqp]
      exact (h.fits q).size

theorem Inv.list {order : List String} (horder : order.Perm w.redis.replicas) : Inv (w.list p order) := by
  have hold := h.fits p
  refine h.setReplica rfl rfl ⟨hold.size, ?_, hold.synced⟩
  intro _ m
  show _ ↔ m ∈ order ++ []
  rw [append_nil, horder.mem_iff]

theorem Inv.check {rest : List String} (ok : Bool)
    (hphase : (w.replica p).phase = .checking (m :: rest) clean) : Inv (w.check p m rest clean ok) := by
  rw [World.check]
  split_ifs
  · refine h.setPhase fun _ k => ?_
    rw [hphase]
    rfl
  · refine h.setPhase fun _ k => ?_
    rw [hphase]
    simp only [Phase.names, cons_append, mem_cons, mem_append, not_mem_nil, or_false]
    tauto

theorem Inv.remove {rest : List String} (done : Bool)
    (hphase : (w.replica p).phase = .removing m rest clean) (hstop : (w.replica m).running = false) :
    Inv (w.remove p m rest clean done) := by
  have hnot : m ∉ w.redis.replicas := by
    rw [h.listed, hstop]
    exact Bool.false_ne_true
  rw [World.remove, if_neg (by simp [hnot])]
  refine h.setPhase fun hfresh k => ?_
  -- a name that was read since the membership changed is in the set
  refine absurd (((h.fits p).fresh hfresh m).mpr ?_) hnot
  rw [hphase]
  exact mem_cons_self

theorem Inv.rebuild (hphase : (w.replica p).phase = .checking [] clean) : Inv (w.rebuild p clean) := by
  have hold := h.fits p
  refine h.setReplica rfl rfl ⟨hold.size, ?_, ?_⟩
  · intro hfresh
    cases hfresh
  intro hsynced
  refine ⟨(w.replica p).ring, clean, hold.size, rfl, ?_⟩
  intro m
  rw [hold.fresh hsynced m, hphase]
  rfl

theorem Inv.step {e : Event} {v : World} (hstep : Step w e v) (hcare : Careful w e) : Inv v := by
  cases hstep with
  | idle => exact h
  | join p done ok hstop => exact h.join ok hcare
  | heartbeat p done ok hrun hphase => exact h.heartbeat done ok hphase
  | leave p done hrun hphase => exact h.leave hcare
  | unlisted p hphase =>
    refine h.setPhase fun _ m => ?_
    rw [hphase]
    rfl
  | listed p order hphase horder => exact h.list horder
  | check p m rest clean ok hphase => exact h.check ok hphase
  | remove p m rest clean done hphase => exact h.remove done hphase (hcare m rest clean hphase)
  | rebuild p clean hphase => exact h.rebuild hphase
  | expireHeartbeat m => exact inv_changed h.listed fun p => (h.fits p).size
  | expireReplicas =>
  refine inv_changed ?_ fun p => (h.fits p).size
  intro m
  show m ∈ [] ↔ (w.replica m).running = true
  rw [hcare m]
  simp

/-! ### Stable states -/

theorem Inv.exclusive (hdist : Distinct 16 pods) (hknown : ∀ p, (w.replica p).running = true → p ∈ pods)
    (hstable : w.Stable) : w.Exclusive := by
  have hring : ∀ p, (w.replica p).running = true → ∃ r members, r.replicas = 16 ∧
      (w.replica p).ring = Ring.Rebuild r members ∧ ∀ m, m ∈ members ↔ (w.replica m).running = true := by
    intro p hp
    obtain ⟨r, members, hsize, heq, hmem⟩ := (h.fits p).synced (hstable p hp).2
    exact ⟨r, members, hsize, heq, fun m => (hmem m).symm.trans (h.listed m)⟩
  have hpods : ∀ {members : List String}, (∀ m, m ∈ members ↔ (w.replica m).running = true) → Distinct 16 members :=
    fun hmem m hm n hn => hdist m (hknown m ((hmem m).mp hm)) n (hknown n ((hmem n).mp hn))
  have hagree : ∀ p q, (w.replica p).running = true → (w.replica q).running = true →
      ∀ key, (w.replica p).ring.Lookup key = (w.replica q).ring.Lookup key := by
    intro p q hp hq key
    obtain ⟨r, members, hsize, heq, hmem⟩ := hring p hp
    obtain ⟨r', members', hsize', heq', hmem'⟩ := hring q hq
    have hnodes : (r.Rebuild members).Lookup key = (r'.Rebuild members').Lookup key := by
      rw [lookup_congr (by rw [hsize]; exact hpods hmem) fun m => (hmem m).trans (hmem' m).symm]
      simp only [Ring.Lookup, Ring.Rebuild, hsize, hsize']
    rw [heq, heq', hnodes]
  refine ⟨?_, hagree, ?_⟩
  · intro p hp
    obtain ⟨r, members, -, heq, hmem⟩ := hring p hp
    rw [heq, mem_members_rebuild, hmem p]
    exact hp
  rintro ⟨p, hp⟩ ns
  obtain ⟨r, members, hsize, heq, hmem⟩ := hring p hp
  obtain ⟨owner, howner⟩ := exists_lookup (by rw [hsize]; decide : 0 < r.replicas) ((hmem p).mpr hp) ns
  have hruns : (w.replica owner).running = true := (hmem owner).mp (mem_of_lookup howner)
  have hmatches : ∀ q, (w.replica q).running = true → ((w.replica q).ring.Matches q ns = true ↔ owner = q) := by
    intro q hq
    obtain ⟨r', members', -, heq', hmem'⟩ := hring q hq
    have hsame := hagree p q hp hq ns
    rw [heq, howner, heq'] at hsame
    rw [heq']
    exact matches_rebuild ((hmem' q).mpr hq) hsame.symm
  refine ⟨owner, ⟨hruns, (hmatches owner hruns).mpr rfl⟩, ?_⟩
  rintro q ⟨hq, hmatch⟩
  exact ((hmatches q hq).mp hmatch).symm
end

theorem Step.known {e : Event} {v : World} (hstep : Step w e v) (h : ∀ q, (w.replica q).running = true → q ∈ pods)
    (hpods : ∀ p done ok, e = .join p done ok → p ∈ pods) : ∀ q, (v.replica q).running = true → q ∈ pods := by
  have hset : ∀ (p : String) (r : Redis) (x : Replica), (x.running = true → p ∈ pods) →
      ∀ q, (((w.setRedis r).setReplica p x).replica q).running = true → q ∈ pods := by
    intro p r x hx q hq
    by_cases hqp : q = p
    · rw [hqp, replica_setReplica_self] at hq
      exact hqp ▸ hx hq
    · rw [replica_setReplica_of_ne hqp] at hq
      exact h q hq
  cases hstep with
  | idle => exact h
  | join p done ok hstop =>
    rw [World.join]
    split_ifs
    · exact hset p _ _ fun _ => hpods p done ok rfl
    · exact hset p _ _ fun _ => hpods p done ok rfl
  | heartbeat p done ok hrun hphase =>
    rw [World.heartbeat]
    split_ifs
    · exact hset p _ _ (h p)
    · exact hset p _ _ (h p)
  | leave p done hrun hphase => exact hset p _ _ fun hx => h p hrun
  | unlisted p hphase => exact hset p w.redis _ (h p)
  | listed p order hphase horder => exact hset p w.redis _ (h p)
  | check p m rest clean ok hphase =>
    rw [World.check]
    split_ifs
    · exact hset p w.redis _ (h p)
    · exact hset p w.redis _ (h p)
  | remove p m rest clean done hphase =>
    rw [World.remove]
    split_ifs
    · exact hset p _ _ (h p)
    · exact hset p w.redis _ (h p)
  | rebuild p clean hphase => exact hset p w.redis _ (h p)
  | expireHeartbeat m => exact h
  | expireReplicas => exact h

theorem running_known {es : List Event} (hpods : ∀ p done ok, Event.join p done ok ∈ es → p ∈ pods) :
    ∀ q, ((run step World.init es).replica q).running = true → q ∈ pods := by
  have hadmitted : ∀ e ∈ es, ∀ p done ok, e = Event.join p done ok → p ∈ pods := by
    rintro e he p done ok rfl
    exact hpods p done ok he
  refine run_invariant_on step (motive := fun w => ∀ q, (w.replica q).running = true → q ∈ pods) ?_ es World.init ?_
    hadmitted
  · intro w e h hpods
    exact (step_cases w e).known h hpods
  · intro q hq
    cases hq

/-- **Ownership is exclusive** in every stable state that careful steps lead to. -/
theorem ownership_exclusive (pods : List String) (hdistinct : Distinct 16 pods) (es : List Event)
    (hpods : ∀ p done ok, Event.join p done ok ∈ es → p ∈ pods) (hcareful : Guarded step Careful World.init es)
    (hstable : (run step World.init es).Stable) : (run step World.init es).Exclusive := by
  have hinv : Inv (run step World.init es) :=
    guarded_invariant (fun w e h hguard => h.step (step_cases w e) hguard) inv_init hcareful
  exact hinv.exclusive hdistinct (running_known hpods) hstable

/-- The calls of a `syncRing` that finds these members, all of them alive. -/
def syncCalls (p : String) (members : List String) : List Event :=
  .members p (some members) :: members.map (fun _ => .heartbeatExists p true) ++ [.rebuild p]

def twoReplicas : List Event :=
  .join "a" 2 true :: syncCalls "a" ["a"] ++ .join "b" 2 true :: syncCalls "b" ["a", "b"] ++
    .heartbeat "a" 2 true :: syncCalls "a" ["b", "a"] ++ .heartbeat "b" 2 true :: syncCalls "b" ["a", "b"]

theorem stable_of_pods {es : List Event} (hpods : ∀ p done ok, Event.join p done ok ∈ es → p ∈ pods)
    (h : ∀ p ∈ pods, ((run step World.init es).replica p).beaten = true ∧
      ((run step World.init es).replica p).synced = true) : (run step World.init es).Stable :=
  fun p hp => h p (running_known hpods p hp)

theorem joins_twoReplicas : ∀ p done ok, Event.join p done ok ∈ twoReplicas → p ∈ ["a", "b"] := by
  intro p done ok h
  simp only [twoReplicas, syncCalls, map_cons, map_nil, cons_append, nil_append, mem_cons,
    Event.join.injEq, reduceCtorEq, false_or, not_mem_nil, or_false] at h
  rcases h with ⟨rfl, -, -⟩ | ⟨rfl, -, -⟩
  · exact mem_cons_self
  · exact mem_cons_of_mem _ mem_cons_self

theorem ownership_exclusive_two : (run step World.init twoReplicas).Exclusive := by
  have hcareful : ∀ e ∈ twoReplicas, ∀ w, Careful w e := by simp [twoReplicas, syncCalls, Careful]
  refine ownership_exclusive ["a", "b"] (by decide) twoReplicas joins_twoReplicas ?_ ?_
  · exact guarded_of_invariant (motive := fun _ => True) (fun _ _ _ _ => trivial)
      (fun w e _ (h : ∀ w, Careful w e) => h w) trivial hcareful
  · exact stable_of_pods joins_twoReplicas (by decide)

/-- Replica `a` pauses until its key expires, `b` removes it, and `a` goes on. -/
def pausedReplica : List Event :=
  twoReplicas ++ [.expireHeartbeat "a", .heartbeat "b" 2 true, .members "b" (some ["a", "b"]), .heartbeatExists "b" true,
    .remove "b" true, .heartbeatExists "b" true, .rebuild "b"] ++
    .heartbeat "a" 2 true :: syncCalls "a" ["b"] ++ .heartbeat "b" 2 true :: syncCalls "b" ["b"]

/-- Both replicas are alive and in step again, and `a` is on no ring. -/
theorem paused_replica_is_unlisted : (run step World.init pausedReplica).Stable ∧
    ((run step World.init pausedReplica).replica "a").running = true ∧
    ((run step World.init pausedReplica).replica "a").ring.members = ["b"] ∧
    ¬ (run step World.init pausedReplica).Exclusive := by
  have hring : ((run step World.init pausedReplica).replica "a").ring.members = ["b"] := by decide
  have hrunning : ((run step World.init pausedReplica).replica "a").running = true := by decide
  refine ⟨?_, hrunning, hring, ?_⟩
  · have hjoins : ∀ p done ok, Event.join p done ok ∈ pausedReplica → p ∈ ["a", "b"] := by
      intro p done ok h
      simp only [pausedReplica, syncCalls, map_cons, map_nil, cons_append, nil_append, mem_append,
        mem_cons, reduceCtorEq, not_mem_nil, or_false] at h
      exact joins_twoReplicas p done ok h
    exact stable_of_pods hjoins (by decide)
  · intro hexclusive
    have hlisted := hexclusive.listed "a" hrunning
    rw [hring] at hlisted
    exact absurd hlisted (by decide)

end Paprika.Coordinator
