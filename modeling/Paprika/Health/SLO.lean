import Mathlib.Algebra.BigOperators.Group.List.Basic
import Paprika.Lib.PackedCodes

/-!
# SLO accounting

`internal/health/slo.go`: observations of a health check, one for each scheduled slot, in a ring of two-bit codes that
is as long as the SLO's window, and the summary that is made of it.  Times and durations are whole nanoseconds; the
floating-point arithmetic of the derived rates is a parameter.

What the counts of a summary are over whole runs is `SLOAccounting`.
-/

namespace Paprika.Health

open Lib.PackedCodes

/-! ## The model -/

inductive HealthStatus
  | healthy | degraded | unknown | progressing
  | other (text : String)
  deriving DecidableEq, Repr

/-- `float64`, as far as this file computes with it. -/
structure Arithmetic (F : Type) where
  ofInt : Int → F
  mul : F → F → F
  div : F → F → F
  sub : F → F → F
  lt : F → F → Bool
  le : F → F → Bool
  isNaN : F → Bool
  /-- The constant `99.9999`. -/
  maxTarget : F

/-- Exact arithmetic; the constant is the double's value. -/
def exactArithmetic : Arithmetic Rat where
  ofInt n := n
  mul := (· * ·)
  div := (· / ·)
  sub := (· - ·)
  lt a b := decide (a < b)
  le a b := decide (a ≤ b)
  isNaN _ := false
  maxTarget := 3518433690445991 / 35184372088832

structure HTTPProbe where
  url : String
  method : String
  timeout : Int
  deriving DecidableEq, Repr

structure AvailabilitySLO (F : Type) where
  targetPercentage : F
  window : String

structure HealthCheck (F : Type) where
  name : String
  expression : String
  httpProbe : Option HTTPProbe
  interval : String
  slo : Option (AvailabilitySLO F)

/-- What the functions call of other packages. -/
structure Packages (F : Type) where
  parseDuration : String → Option Int
  safeOperationalURL : String → Bool
  marshal : HealthCheck F → Option String
  sha256Hex : String → String

def second : Int := 1000000000

/-- `time.Time.Unix`, which rounds down. -/
def unix (t : Int) : Int := t / second

def validSLOInterval (window interval : Int) : Bool :=
  decide (window > 0) && decide (interval ≥ 10 * second) && decide (interval ≤ 3600 * second) &&
    decide (interval.tmod second = 0) && decide (window.tmod interval = 0)

/-- The table of windows; a text that is not in it reads zero. -/
def windowOf (text : String) : Int :=
  if text = "1h" then 3600 * second
  else if text = "24h" then 24 * 3600 * second
  else if text = "7d" then 7 * 24 * 3600 * second
  else if text = "30d" then 30 * 24 * 3600 * second
  else 0

variable {F : Type} (A : Arithmetic F) (P : Packages F)

def validateSLOProbe (p : Option HTTPProbe) (interval : Int) : Except String Unit :=
  match p with
  | none => .error "SLO requires an HTTP(S) probe without URL credentials"
  | some p =>
    if P.safeOperationalURL p.url = false then .error "SLO requires an HTTP(S) probe without URL credentials"
    else if p.method ≠ "" ∧ p.method ≠ "GET" ∧ p.method ≠ "HEAD" then .error "SLO probe method must be GET or HEAD"
    else if p.timeout < 0 ∨ p.timeout > 30 ∨ p.timeout * second > interval then
      .error "SLO timeout must not exceed 30 seconds or its interval"
    else .ok ()

/-- `SLODurations`: the window and the interval. -/
def sloDurations (check : HealthCheck F) : Except String (Int × Int) :=
  match check.slo with
  | none => .error "no SLO configured"
  | some slo =>
    match (if check.interval = "" then some (30 * second) else P.parseDuration check.interval) with
    | none => .error "SLO interval must be 10s–1h in whole seconds and divide the window (1h, 24h, 7d, 30d)"
    | some interval =>
      if validSLOInterval (windowOf slo.window) interval = false then
        .error "SLO interval must be 10s–1h in whole seconds and divide the window (1h, 24h, 7d, 30d)"
      else if A.isNaN slo.targetPercentage || A.lt slo.targetPercentage (A.ofInt 1) ||
          A.lt A.maxTarget slo.targetPercentage then
        .error "SLO targetPercentage must be between 1 and 99.9999"
      else
        match validateSLOProbe P check.httpProbe interval with
        | .error e => .error e
        | .ok () => .ok (windowOf slo.window, interval)

/-- `MeasurementHash`: of the check without its target. -/
def measurementHash (check : HealthCheck F) : String :=
  match P.marshal { check with slo := check.slo.map (fun slo => { slo with targetPercentage := A.ofInt 0 }) } with
  | none => ""
  | some text => P.sha256Hex text

structure SLOHistory where
  configurationHash : String
  firstObservedAt : Int
  lastSlot : Int
  samples : List UInt8
  deriving DecidableEq, Repr

def slotCode (samples : List UInt8) (slot count : Int) : UInt8 := readCode samples (slot.tmod count).toNat

def putSlot (samples : List UInt8) (slot count : Int) (code : UInt8) : List UInt8 :=
  writeCode samples (slot.tmod count).toNat code

def sloStatusCode : HealthStatus → UInt8
  | .healthy => 1
  | .degraded => 2
  | .unknown => 3
  | .progressing => 3
  | .other _ => 3

/-- The slots of a loop `for s := first; s <= last; s++`. -/
def slotsFrom (first last : Int) : List Int := (List.range (last - first + 1).toNat).map (fun k : Nat => first + k)

def clearSlots (samples : List UInt8) (count : Int) (slots : List Int) : List UInt8 :=
  slots.foldl (fun acc s => putSlot acc s count 0) samples

/-- The number of a time's slot. -/
def slotOf (interval now : Int) : Int := (unix now).tdiv (interval.tdiv second)

def sampleSize (count : Int) : Nat := ((count + 3).tdiv 4).toNat

/-- The history that a call continues: the previous one where it fits the check, else an empty one. -/
def openHistory (hash : String) (previous : Option SLOHistory) (count slot now : Int) : SLOHistory :=
  match previous with
  | some h =>
    if h.configurationHash ≠ hash ∨ h.samples.length ≠ sampleSize count then
      { configurationHash := hash, firstObservedAt := now, lastSlot := slot - 1
        samples := List.replicate (sampleSize count) 0 }
    else h
  | none =>
    { configurationHash := hash, firstObservedAt := now, lastSlot := slot - 1
      samples := List.replicate (sampleSize count) 0 }

/-- The first slot that is cleared. -/
def clearStart (lastSlot count slot : Int) : Int :=
  if slot - (lastSlot + 1) ≥ count then slot - count + 1 else lastSlot + 1

def recordSlot (h : SLOHistory) (count slot : Int) (status : HealthStatus) : SLOHistory :=
  if slot ≤ h.lastSlot then h
  else
    { h with
      lastSlot := slot
      samples := putSlot (clearSlots h.samples count (slotsFrom (clearStart h.lastSlot count slot) slot)) slot count
        (sloStatusCode status) }

def recordSLO (check : HealthCheck F) (previous : Option SLOHistory) (status : HealthStatus) (now : Int) :
    Option SLOHistory :=
  match sloDurations A P check with
  | .error _ => none
  | .ok (window, interval) =>
    if slotOf interval now < 0 then none
    else
      some (recordSlot
        (openHistory (measurementHash A P check) previous (window.tdiv interval) (slotOf interval now) now)
        (window.tdiv interval) (slotOf interval now) status)

/-- The three counts that a bucket and the summary share. -/
structure Tally where
  healthy : Int
  unhealthy : Int
  unknown : Int
  deriving DecidableEq, Repr

def Tally.zero : Tally := { healthy := 0, unhealthy := 0, unknown := 0 }

def Tally.add (t : Tally) (code : UInt8) : Tally :=
  if code = 1 then { t with healthy := t.healthy + 1 }
  else if code = 2 then { t with unhealthy := t.unhealthy + 1 }
  else { t with unknown := t.unknown + 1 }

structure SLOBucket where
  start : Int
  tally : Tally
  deriving DecidableEq, Repr

structure SLOSummary (F : Type) where
  state : String
  target : F
  availability : F
  coverage : F
  windowCoverage : F
  budgetRemaining : F
  burnRate : F
  windowSeconds : Int
  intervalSeconds : Int
  tally : Tally
  expected : Int
  firstObservedAt : Int
  lastObservedAt : Int
  timeline : List SLOBucket

/-- One more slot on the timeline: in the last bucket when it starts where the slot's bucket does, else in a new one. -/
def addToTimeline (timeline : List SLOBucket) (start : Int) (code : UInt8) : List SLOBucket :=
  match timeline.getLast? with
  | some b =>
    if b.start = start then timeline.dropLast ++ [{ b with tally := b.tally.add code }]
    else timeline ++ [{ start := start, tally := Tally.zero.add code }]
  | none => [{ start := start, tally := Tally.zero.add code }]

def summaryCode (h : SLOHistory) (count s : Int) : UInt8 :=
  if s ≤ h.lastSlot ∧ s > h.lastSlot - count then slotCode h.samples s count else 0

def bucketWidth (count : Int) : Int := max 1 ((count + 59).tdiv 60)

def summarizeSlot (h : SLOHistory) (count : Int) (r : SLOSummary F) (s : Int) : SLOSummary F :=
  { r with
    tally := r.tally.add (summaryCode h count s)
    timeline := addToTimeline r.timeline
      (s.tdiv (bucketWidth count) * bucketWidth count * r.intervalSeconds * second) (summaryCode h count s) }

def summarizeSLOSlots (r : SLOSummary F) (h : SLOHistory) (first slot count : Int) : SLOSummary F :=
  (slotsFrom first slot).foldl (summarizeSlot h count) r

def sloState (s : SLOSummary F) (now window interval count : Int) (allowance : F) : String :=
  if now - s.lastObservedAt > 2 * interval then "Stale"
  else if now - s.firstObservedAt < window then "Collecting"
  else if A.lt allowance (A.ofInt s.tally.unhealthy) then "Breached"
  else if A.le (A.div s.target (A.ofInt 100)) (A.div (A.ofInt s.tally.healthy) (A.ofInt count)) then "Met"
  else "InsufficientData"

/-- `1 - percentage / 100`. -/
def Arithmetic.rest (percentage : F) : F := A.sub (A.ofInt 1) (A.div percentage (A.ofInt 100))

def deriveRates (r : SLOSummary F) (first slot now window interval count : Int) : SLOSummary F :=
  let observed := r.tally.healthy + r.tally.unhealthy
  let percent := fun (n d : Int) => A.div (A.mul (A.ofInt 100) (A.ofInt n)) (A.ofInt d)
  let availability := if observed > 0 then percent r.tally.healthy observed else r.availability
  let allowance := A.mul (A.ofInt count) (A.rest r.target)
  let r' : SLOSummary F :=
    { r with
      availability := availability
      burnRate := if observed > 0 then A.div (A.rest availability) (A.rest r.target) else r.burnRate
      coverage := percent observed (max 1 (slot - first + 1))
      windowCoverage := percent observed count
      budgetRemaining := A.mul (A.ofInt 100) (A.sub (A.ofInt 1) (A.div (A.ofInt r.tally.unhealthy) allowance)) }
  { r' with state := sloState A r' now window interval count allowance }

/-- The zero `time.Time`. -/
def zeroTime : Int := -62135596800 * second

/-- A summary without counts. -/
def emptySummary (state : String) : SLOSummary F where
  state := state
  target := A.ofInt 0
  availability := A.ofInt 0
  coverage := A.ofInt 0
  windowCoverage := A.ofInt 0
  budgetRemaining := A.ofInt 0
  burnRate := A.ofInt 0
  windowSeconds := 0
  intervalSeconds := 0
  tally := Tally.zero
  expected := 0
  firstObservedAt := zeroTime
  lastObservedAt := zeroTime
  timeline := []

/-- The summary of a valid check before its history is looked at. -/
def openSummary (target : F) (window interval : Int) : SLOSummary F :=
  { emptySummary A "Collecting" with
    target := target
    windowSeconds := window.tdiv second
    intervalSeconds := interval.tdiv second
    expected := window.tdiv interval
    budgetRemaining := A.ofInt 100 }

/-- The first slot of a summary's range. -/
def firstSlot (h : SLOHistory) (interval count slot : Int) : Int :=
  max (slot - count + 1) ((unix h.firstObservedAt).tdiv (interval.tdiv second))

def summarizeHistory (r : SLOSummary F) (h : SLOHistory) (window interval now : Int) : SLOSummary F :=
  let r := { r with
    firstObservedAt := h.firstObservedAt
    lastObservedAt := h.lastSlot * r.intervalSeconds * second }
  let count := window.tdiv interval
  let slot := slotOf interval now
  if slot < h.lastSlot then { r with state := "Unknown" }
  else
    deriveRates A (summarizeSLOSlots r h (firstSlot h interval count slot) slot count)
      (firstSlot h interval count slot) slot now window interval count

def summarizeSLO (check : HealthCheck F) (history : Option SLOHistory) (now : Int) : SLOSummary F :=
  match sloDurations A P check with
  | .error _ => emptySummary A "Invalid"
  | .ok (window, interval) =>
    let r := openSummary A ((check.slo.map (·.targetPercentage)).getD (A.ofInt 0)) window interval
    match history with
    | none => r
    | some h =>
      if h.configurationHash ≠ measurementHash A P check ∨ h.samples.length ≠ sampleSize (window.tdiv interval)
      then r
      else summarizeHistory A r h window interval now

end Paprika.Health
