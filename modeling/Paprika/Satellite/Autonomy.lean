import Paprika.Lib.Run

/-!
# Satellite: autonomy

The loop that keeps a cluster convergent without the control plane.  A tick reads the clock and the connection, moves
the state machine (`advance`) and, when the satellite is the one reconciling, applies every remembered bundle again.

* `LocalOnlyAfterTimeout` — a Failover satellite reconciles only while disconnected, and not before `failoverTimeout`
  has passed since the last contact;
* `HoldsOverride` — after an outage with local work it reports `overrideHeld` for the whole hold window.

The hold window is stamped once: `advance` writes `heldUntil` only while it is unset and nothing clears it.  The second
property holds in runs that never need a second stamp, and `second_override_not_held` is a run that does.
-/

namespace Paprika.Satellite

open Lib.Run

/-! ### The configuration -/

/-- `AutonomyMode` of the API: the empty string, the three modes of this build, and any other string. -/
inductive AutonomyMode
  | unset
  | observeOnly
  | failover
  | delegated
  | other (mode : String)
  deriving DecidableEq

def defaultAutonomyMode : AutonomyMode := .failover

def normalizeAutonomyMode (mode : AutonomyMode) : AutonomyMode :=
  if mode = .unset then defaultAutonomyMode else mode

def AutonomyMode.reconcilesLocally (mode : AutonomyMode) : Bool := normalizeAutonomyMode mode != .observeOnly

/-- `SatelliteOperatingState`, as far as the loop reports it. -/
inductive OperatingState
  | connecting
  | connected
  | autonomous
  | overrideHeld
  deriving DecidableEq

/-- A `time.Duration` of one minute, in nanoseconds. -/
def minute : Int := 60000000000

def defaultFailoverTimeout : Int := 2 * minute

def defaultAutonomyInterval : Int := 30000000000

def overrideHoldWindow : Int := 2 * minute

/-- The settings of the loop; of the store, the executor and the connectivity check, whether one is given. -/
structure AutonomyConfig where
  mode : AutonomyMode
  failoverTimeout : Int
  interval : Int
  store : Bool
  executor : Bool
  connected : Bool

/-- Times are instants in nanoseconds; `heldUntil = none` is the zero time. -/
structure Autonomy where
  lastContact : Int
  state : OperatingState
  overrideHeld : Bool
  heldUntil : Option Int

/-- `now` is the clock at process start. -/
def newAutonomy (cfg : AutonomyConfig) (now : Int) : Except String (AutonomyConfig × Autonomy) :=
  if !cfg.store && cfg.mode.reconcilesLocally then .error "satellite autonomy requires a bundle store"
  else if !cfg.executor && cfg.mode.reconcilesLocally then .error "satellite autonomy requires an apply executor"
  else if !cfg.connected then .error "satellite autonomy requires a connectivity check"
  else .ok
    ({ cfg with
        failoverTimeout := if cfg.failoverTimeout ≤ 0 then defaultFailoverTimeout else cfg.failoverTimeout
        interval := if cfg.interval ≤ 0 then defaultAutonomyInterval else cfg.interval },
      { lastContact := now, state := .connecting, overrideHeld := false, heldUntil := none })

/-! ### One tick -/

/-- `now.Before(a.heldUntil)`: no instant is before the zero time. -/
def Autonomy.held (a : Autonomy) (now : Int) : Bool := a.heldUntil.any (now < ·)

/-- Moves the state machine; the flag says whether this satellite is the one reconciling right now. -/
def Autonomy.advance (cfg : AutonomyConfig) (a : Autonomy) (now : Int) (connected : Bool) : Autonomy × Bool :=
  if connected then
    let a := { a with lastContact := now }
    let delegated := decide (cfg.mode = .delegated)
    if a.overrideHeld then
      ({ a with
          state := .overrideHeld
          heldUntil := if a.heldUntil.isNone then some (now + overrideHoldWindow) else a.heldUntil
          overrideHeld := false }, delegated)
    else if a.held now then ({ a with state := .overrideHeld }, delegated)
    else ({ a with state := .connected }, delegated)
  else
    match normalizeAutonomyMode cfg.mode with
    | .delegated => ({ a with state := .autonomous }, true)
    | .failover =>
      -- `Sub` saturates at the ends of `Duration`, which does not change the comparison with a `Duration`
      if now - a.lastContact < cfg.failoverTimeout then ({ a with state := .connected }, false)
      else ({ a with state := .autonomous }, true)
    | .observeOnly | .unset | .other _ => ({ a with state := .connecting }, false)

def Autonomy.recordLocalAction (cfg : AutonomyConfig) (a : Autonomy) : Autonomy :=
  if normalizeAutonomyMode cfg.mode = .failover then { a with overrideHeld := true } else a

structure Bundle where
  inNamespace : String
  application : String
  manifests : String

/-- What `Executor.Apply` returns: the errors of single objects, and its own error. -/
structure Applied where
  errors : List String
  error : Option String

def Applied.ok (r : Applied) : Bool := r.error.isNone && r.errors.isEmpty

/-- What a tick meets: the clock, the connection, and what the store lists with what becomes of each bundle (`none`
where it cannot be read). -/
structure TickInput where
  now : Int
  connected : Bool
  bundles : Option (List (Bundle × Applied))

/-- What a tick did: the state reported from it on, whether the satellite reconciled, and the bundles it applied. -/
structure TickRecord where
  now : Int
  connected : Bool
  reported : OperatingState
  reconciled : Bool
  applied : List Bundle

def reapply (bundles : Option (List (Bundle × Applied))) : List Bundle :=
  ((bundles.getD []).filter (fun b => b.2.ok)).map Prod.fst

def Autonomy.tick (cfg : AutonomyConfig) (a : Autonomy) (i : TickInput) : Autonomy × TickRecord :=
  let (a, autonomous) := a.advance cfg i.now i.connected
  let applied := if autonomous then reapply i.bundles else []
  (applied.foldl (fun a _ => a.recordLocalAction cfg) a,
    { now := i.now, connected := i.connected, reported := a.state, reconciled := autonomous, applied := applied })

/-- The loop with what its ticks did, the last one first. -/
structure Loop where
  autonomy : Autonomy
  log : List TickRecord

def Loop.step (cfg : AutonomyConfig) (s : Loop) (i : TickInput) : Loop :=
  let (a, r) := s.autonomy.tick cfg i
  { autonomy := a, log := r :: s.log }

/-! ### What the loop promises -/

/-- The time of the last contact: that of the last connected tick, or else the start. -/
def lastContactOf (start : Int) : List TickRecord → Int
  | [] => start
  | r :: earlier => if r.connected then r.now else lastContactOf start earlier

/-- There was local work since the last contact. -/
def pendingWork : List TickRecord → Bool
  | [] => false
  | r :: earlier => !r.connected && (!r.applied.isEmpty || pendingWork earlier)

/-- The satellite reconciles only while disconnected, and not before the timeout. -/
def LocalOnlyAfterTimeout (cfg : AutonomyConfig) (start : Int) (log : List TickRecord) : Prop :=
  ∀ later r earlier, log = later ++ r :: earlier → r.reconciled = true →
    r.connected = false ∧ cfg.failoverTimeout ≤ r.now - lastContactOf start earlier

/-- The tick finds the control plane again after an outage with local work. -/
def Reconnects (r : TickRecord) (earlier : List TickRecord) : Prop := r.connected = true ∧ pendingWork earlier = true

/-- From every reconnection on, `overrideHeld` is what is reported for the whole hold window. -/
def HoldsOverride (log : List TickRecord) : Prop :=
  ∀ later r earlier, log = later ++ r :: earlier → Reconnects r earlier →
    ∀ t ∈ later ++ [r], t.now < r.now + overrideHoldWindow → t.reported = .overrideHeld

/-- A connected tick with local work to report finds no earlier hold window, and the link is not lost again before
the hold window is over. -/
def FirstOverride (s : Loop) (i : TickInput) : Prop :=
  (i.connected = true → s.autonomy.overrideHeld = true → s.autonomy.heldUntil = none) ∧
    (i.connected = false → s.autonomy.held i.now = false)

section
variable {cfg : AutonomyConfig} {start : Int} {a : Autonomy} {s : Loop} {i : TickInput}

theorem foldl_recordLocalAction (hmode : normalizeAutonomyMode cfg.mode = .failover) (applied : List Bundle) :
    ∀ a : Autonomy, applied.foldl (fun a _ => a.recordLocalAction cfg) a =
      { a with overrideHeld := !applied.isEmpty || a.overrideHeld } := by
  induction applied with
  | nil => intro a; rfl
  | cons b rest ih =>
    intro a
    rw [List.foldl_cons, ih, Autonomy.recordLocalAction, if_pos hmode]
    simp

theorem not_delegated (hmode : normalizeAutonomyMode cfg.mode = .failover) : cfg.mode ≠ .delegated := by
  intro h
  rw [h] at hmode
  cases hmode

/-- What a connected tick of a Failover satellite does. -/
structure ConnectedTick (s : Loop) (i : TickInput) (r : TickRecord) (t : Loop) : Prop where
  log : t.log = r :: s.log
  now : r.now = i.now
  connected : r.connected = true
  idle : r.reconciled = false
  contact : t.autonomy.lastContact = i.now
  reported : s.autonomy.overrideHeld = true ∨ s.autonomy.held i.now = true → r.reported = .overrideHeld
  cleared : t.autonomy.overrideHeld = false
  stamped : s.autonomy.overrideHeld = true → s.autonomy.heldUntil = none →
    t.autonomy.heldUntil = some (i.now + overrideHoldWindow)
  kept : s.autonomy.overrideHeld = false → t.autonomy.heldUntil = s.autonomy.heldUntil

theorem advance_connected (cfg : AutonomyConfig) (a : Autonomy) (now : Int) : a.advance cfg now true =
      ({ lastContact := now
         state := if a.overrideHeld || a.held now then .overrideHeld else .connected
         overrideHeld := false
         heldUntil := if a.overrideHeld && a.heldUntil.isNone then some (now + overrideHoldWindow) else a.heldUntil },
        decide (cfg.mode = .delegated)) := by
  have hheld : Autonomy.held { a with lastContact := now } now = a.held now := rfl
  simp only [Autonomy.advance, if_true, hheld]
  cases hoverride : a.overrideHeld with
  | true => simp
  | false => cases a.held now <;> simp

theorem step_connected (hmode : normalizeAutonomyMode cfg.mode = .failover) (hi : i.connected = true) :
    ∃ r, ConnectedTick s i r (s.step cfg i) := by
  simp only [Loop.step, Autonomy.tick, hi, advance_connected, not_delegated hmode, decide_false]
  refine ⟨_, rfl, rfl, rfl, rfl, rfl, ?_, rfl, ?_, ?_⟩
  · intro h
    have hreport : (s.autonomy.overrideHeld || s.autonomy.held i.now) = true := by
      rw [Bool.or_eq_true]
      exact h
    exact if_pos hreport
  · intro hoverride hnone
    simp [hoverride, hnone]
  · intro hoverride
    simp [hoverride]

/-- What a disconnected tick of a Failover satellite does. -/
structure DisconnectedTick (cfg : AutonomyConfig) (s : Loop) (i : TickInput) (r : TickRecord) (t : Loop) : Prop where
  log : t.log = r :: s.log
  now : r.now = i.now
  disconnected : r.connected = false
  waited : r.reconciled = true → cfg.failoverTimeout ≤ i.now - s.autonomy.lastContact
  contact : t.autonomy.lastContact = s.autonomy.lastContact
  pending : t.autonomy.overrideHeld = (!r.applied.isEmpty || s.autonomy.overrideHeld)
  kept : t.autonomy.heldUntil = s.autonomy.heldUntil

theorem step_disconnected (hmode : normalizeAutonomyMode cfg.mode = .failover) (hi : i.connected = false) :
    ∃ r, DisconnectedTick cfg s i r (s.step cfg i) := by
  simp only [Loop.step, Autonomy.tick, Autonomy.advance, hi, Bool.false_eq_true, if_false, hmode,
    foldl_recordLocalAction hmode]
  split
  · refine ⟨_, rfl, rfl, rfl, ?_, rfl, rfl, rfl⟩
    intro h
    cases h
  · next hgrace =>
    refine ⟨_, rfl, rfl, rfl, ?_, rfl, rfl, rfl⟩
    intro _
    exact Int.not_lt.mp hgrace
end

/-! ### Runs -/

section
variable {cfg : AutonomyConfig} {start : Int} {s : Loop} {i : TickInput}

/-- The fields of the loop say what its log says. -/
structure LoopInv (cfg : AutonomyConfig) (start : Int) (s : Loop) : Prop where
  contact : s.autonomy.lastContact = lastContactOf start s.log
  pending : s.autonomy.overrideHeld = pendingWork s.log
  waited : LocalOnlyAfterTimeout cfg start s.log

theorem LoopInv.step (hmode : normalizeAutonomyMode cfg.mode = .failover) (h : LoopInv cfg start s) (i : TickInput) :
    LoopInv cfg start (s.step cfg i) := by
  cases hi : i.connected with
  | true =>
    obtain ⟨r, hr⟩ := step_connected (s := s) hmode hi
    refine ⟨?_, ?_, ?_⟩
    · rw [hr.contact, hr.log, lastContactOf, if_pos hr.connected, hr.now]
    · rw [hr.cleared, hr.log, pendingWork, hr.connected]
      rfl
    · rw [hr.log]
      intro later t earlier hlog hreconciled
      obtain ⟨rfl, rfl, rfl⟩ | ⟨rest, rfl, hrest⟩ := position_cons hlog
      · exact absurd (hr.idle.symm.trans hreconciled) (by decide)
      · exact h.waited rest t earlier hrest hreconciled
  | false =>
    obtain ⟨r, hr⟩ := step_disconnected (s := s) hmode hi
    refine ⟨?_, ?_, ?_⟩
    · rw [hr.contact, hr.log, lastContactOf, hr.disconnected, h.contact]
      rfl
    · rw [hr.pending, hr.log, pendingWork, hr.disconnected, h.pending]
      rfl
    · rw [hr.log]
      intro later t earlier hlog hreconciled
      obtain ⟨rfl, rfl, rfl⟩ | ⟨rest, rfl, hrest⟩ := position_cons hlog
      · refine ⟨hr.disconnected, ?_⟩
        have hwait := hr.waited hreconciled
        rw [hr.now, ← h.contact]
        exact hwait
      · exact h.waited rest t earlier hrest hreconciled

/-- With every reconnection after local work goes the one hold window there is, and it has been kept to so far. -/
structure HoldInv (cfg : AutonomyConfig) (start : Int) (s : Loop) : Prop where
  loop : LoopInv cfg start s
  window : ∀ later r earlier, s.log = later ++ r :: earlier → Reconnects r earlier →
    s.autonomy.heldUntil = some (r.now + overrideHoldWindow)
  holds : HoldsOverride s.log

theorem HoldInv.step (hmode : normalizeAutonomyMode cfg.mode = .failover) (h : HoldInv cfg start s)
    (hfirst : FirstOverride s i) : HoldInv cfg start (s.step cfg i) := by
  have hloop := h.loop.step hmode i
  -- what an open window of an earlier reconnection says about this tick
  have hheld : ∀ later r earlier, s.log = later ++ r :: earlier → Reconnects r earlier →
      i.now < r.now + overrideHoldWindow → s.autonomy.held i.now = true := by
    intro later r earlier hlog hr hnow
    rw [Autonomy.held, h.window later r earlier hlog hr]
    simpa using hnow
  cases hi : i.connected with
  | true =>
    obtain ⟨r, hr⟩ := step_connected (s := s) hmode hi
    refine ⟨hloop, ?_, ?_⟩
    · rw [hr.log]
      intro later t earlier hlog ht
      obtain ⟨rfl, rfl, rfl⟩ | ⟨rest, rfl, hrest⟩ := position_cons hlog
      · have hpend : s.autonomy.overrideHeld = true := h.loop.pending.trans ht.2
        rw [hr.stamped hpend (hfirst.1 hi hpend), hr.now]
      have hwindow := h.window rest t earlier hrest ht
      -- a second reconnection after local work would find the window of the first
      have hquiet : s.autonomy.overrideHeld = false := by
        by_contra hpend
        have hnone := hfirst.1 hi (by simpa using hpend)
        rw [hnone] at hwindow
        cases hwindow
      rw [hr.kept hquiet, hwindow]
    · rw [hr.log]
      intro later t earlier hlog ht u hu hnow
      obtain ⟨rfl, rfl, rfl⟩ | ⟨rest, rfl, hrest⟩ := position_cons hlog
      · obtain rfl : u = r := by simpa using hu
        exact hr.reported (Or.inl (h.loop.pending.trans ht.2))
      rw [List.cons_append, List.mem_cons] at hu
      obtain rfl | hu := hu
      · rw [hr.now] at hnow
        exact hr.reported (Or.inr (hheld rest t earlier hrest ht hnow))
      · exact h.holds rest t earlier hrest ht u hu hnow
  | false =>
    obtain ⟨r, hr⟩ := step_disconnected (s := s) hmode hi
    have hnot : ∀ earlier, ¬Reconnects r earlier := by
      intro earlier hconnects
      exact absurd (hr.disconnected.symm.trans hconnects.1) (by decide)
    refine ⟨hloop, ?_, ?_⟩
    · rw [hr.log, hr.kept]
      intro later t earlier hlog ht
      obtain ⟨rfl, rfl, rfl⟩ | ⟨rest, rfl, hrest⟩ := position_cons hlog
      · exact absurd ht (hnot _)
      · exact h.window rest t earlier hrest ht
    rw [hr.log]
    intro later t earlier hlog ht u hu hnow
    obtain ⟨rfl, rfl, rfl⟩ | ⟨rest, rfl, hrest⟩ := position_cons hlog
    · exact absurd ht (hnot _)
    rw [List.cons_append, List.mem_cons] at hu
    obtain rfl | hu := hu
    · rw [hr.now] at hnow
      have hopen := hheld rest t earlier hrest ht hnow
      exact absurd (hopen.symm.trans (hfirst.2 hi)) (by decide)
    · exact h.holds rest t earlier hrest ht u hu hnow
end

/-- The loop as `newAutonomy` returns it. -/
def Loop.init (a : Autonomy) : Loop := { autonomy := a, log := [] }

section
variable {cfg cfg' : AutonomyConfig} {start : Int} {a : Autonomy}

theorem newAutonomy_ok (h : newAutonomy cfg start = .ok (cfg', a)) :
    cfg'.mode = cfg.mode ∧ a = { lastContact := start, state := .connecting, overrideHeld := false, heldUntil := none } := by
  simp only [newAutonomy] at h
  split at h
  · cases h
  split at h
  · cases h
  split at h
  · cases h
  cases h
  exact ⟨rfl, rfl⟩

theorem loopInv_init (h : newAutonomy cfg start = .ok (cfg', a)) : LoopInv cfg' start (Loop.init a) := by
  obtain ⟨-, rfl⟩ := newAutonomy_ok h
  refine ⟨rfl, rfl, ?_⟩
  intro later r earlier hlog
  simp [Loop.init] at hlog

theorem holdInv_init (h : newAutonomy cfg start = .ok (cfg', a)) : HoldInv cfg' start (Loop.init a) := by
  refine ⟨loopInv_init h, ?_, ?_⟩
  · intro later r earlier hlog
    simp [Loop.init] at hlog
  · intro later r earlier hlog
    simp [Loop.init] at hlog
end

/-- **Failover autonomy**, in a run in which no hold window was opened before and the link is not lost again inside one. -/
theorem failover_autonomy {cfg cfg' : AutonomyConfig} {start : Int} {a : Autonomy}
    (hnew : newAutonomy cfg start = .ok (cfg', a)) (hmode : normalizeAutonomyMode cfg.mode = .failover)
    (inputs : List TickInput) :
    LocalOnlyAfterTimeout cfg' start (run (Loop.step cfg') (Loop.init a) inputs).log ∧
      (Guarded (Loop.step cfg') FirstOverride (Loop.init a) inputs →
        HoldsOverride (run (Loop.step cfg') (Loop.init a) inputs).log) := by
  have hmode' : normalizeAutonomyMode cfg'.mode = .failover := by
    rw [(newAutonomy_ok hnew).1]
    exact hmode
  constructor
  · exact (run_invariant (Loop.step cfg') (fun s i h => h.step hmode' i) inputs _ (loopInv_init hnew)).waited
  · intro hguard
    exact (guarded_invariant (fun s i h hi => h.step hmode' hi) (holdInv_init hnew) hguard).holds

/-! ### Two outages -/

def sampleConfig : AutonomyConfig :=
  { mode := .failover, failoverTimeout := defaultFailoverTimeout, interval := defaultAutonomyInterval, store := true,
    executor := true, connected := true }

def sampleStart : Autonomy := { lastContact := 0, state := .connecting, overrideHeld := false, heldUntil := none }

/-- A tick at the given time at which the store lists one bundle, which is applied where the satellite reconciles. -/
def sampleTick (now : Int) (connected : Bool) : TickInput :=
  { now := now
    connected := connected
    bundles := some [({ inNamespace := "checkout", application := "web", manifests := "kind: ConfigMap" },
      { errors := [], error := none })] }

/-- The satellite takes over in one outage, and reports it for the two minutes of the window. -/
theorem failover_autonomy_one_outage : HoldsOverride (run (Loop.step sampleConfig) (Loop.init sampleStart)
      [sampleTick (3 * minute) false, sampleTick (4 * minute) true, sampleTick (5 * minute) true,
        sampleTick (6 * minute) true]).log := by
  refine (failover_autonomy (rfl : newAutonomy sampleConfig 0 = .ok _) rfl _).2 ?_
  unfold FirstOverride
  decide

/-- In the second outage the satellite takes over again, and half a minute after the reconnection it reports that it
is connected. -/
theorem second_override_not_held :
    ¬∀ (cfg cfg' : AutonomyConfig) (start : Int) (a : Autonomy) (inputs : List TickInput),
      newAutonomy cfg start = .ok (cfg', a) → normalizeAutonomyMode cfg.mode = .failover →
        LocalOnlyAfterTimeout cfg' start (run (Loop.step cfg') (Loop.init a) inputs).log ∧
          HoldsOverride (run (Loop.step cfg') (Loop.init a) inputs).log := by
  intro hall
  have h := (hall sampleConfig sampleConfig 0 sampleStart
    [sampleTick (3 * minute) false, sampleTick (4 * minute) true, sampleTick (7 * minute) true,
      sampleTick (10 * minute) false, sampleTick (11 * minute) true, sampleTick (11 * minute + 30000000000) true]
    rfl rfl).2
  have hlast := h [_] _ _ rfl (by unfold Reconnects; decide) _ List.mem_cons_self (by decide)
  revert hlast
  decide

end Paprika.Satellite
