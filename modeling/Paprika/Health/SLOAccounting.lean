import Paprika.Health.SLO
import Mathlib.Algebra.Order.Ring.Int
import Mathlib.Data.List.Induction

/-!
# What a summary counts

The log of a run is unbounded: the accepted observations, newest first.  A call is accepted when its slot is greater
than every slot in the log; a call before 1970 empties the log, since it returns no history.

`slo_accounting`: over every list of calls the counts of the summary are those of the log, and the timeline splits the
same counts into at most 61 buckets.  `Follows` is the invariant: within the window, the ring holds what the log says.
-/

namespace Paprika.Health

open Lib.PackedCodes List

/-! ### The log -/

structure Observation where
  slot : Int
  status : HealthStatus
  deriving DecidableEq, Repr

/-- One call of `RecordSLO`. -/
structure Call where
  status : HealthStatus
  now : Int
  deriving DecidableEq, Repr

/-- An observation counts when its slot is greater than every slot accepted before. -/
def accept (log : List Observation) (o : Observation) : List Observation :=
  if ∀ p ∈ log, p.slot < o.slot then o :: log else log

/-- The first accepted observations of each slot. -/
def acceptedObservations (interval : Int) (calls : List Call) : List Observation :=
  calls.foldl (fun log c => accept log { slot := slotOf interval c.now, status := c.status }) []

def observe (interval : Int) (log : List Observation) (c : Call) : List Observation :=
  if slotOf interval c.now < 0 then [] else accept log { slot := slotOf interval c.now, status := c.status }

def observations (interval : Int) (calls : List Call) : List Observation := calls.foldl (observe interval) []

def statusAt (log : List Observation) (s : Int) : Option HealthStatus :=
  (log.find? (fun o => decide (o.slot = s))).map (·.status)

/-- The slots of a summary at `slot`, from the first observed one or from the start of the window. -/
def summaryRange (log : List Observation) (count slot : Int) : List Int :=
  match log.getLast? with
  | some first => slotsFrom (max (slot - count + 1) first.slot) slot
  | none => []

def healthySlots (log : List Observation) (slots : List Int) : Nat :=
  slots.countP (fun s => decide (statusAt log s = some .healthy))

def unhealthySlots (log : List Observation) (slots : List Int) : Nat :=
  slots.countP (fun s => decide (statusAt log s = some .degraded))

/-- Slots without an observation, and those whose observation is neither. -/
def unknownSlots (log : List Observation) (slots : List Int) : Nat :=
  slots.countP (fun s => decide (statusAt log s ≠ some .healthy ∧ statusAt log s ≠ some .degraded))

variable {F : Type} (A : Arithmetic F) (P : Packages F)

/-- The history after the calls, each given the history that the one before returned. -/
def recordCalls (check : HealthCheck F) (calls : List Call) : Option SLOHistory :=
  calls.foldl (fun h c => recordSLO A P check h c.status c.now) none

/-! ### Slots -/

variable {count s t : Int} {samples : List UInt8} {code : UInt8}
variable {first : Int} {slots : List Int}

theorem mem_slotsFrom {last : Int} : s ∈ slotsFrom first last ↔ first ≤ s ∧ s ≤ last := by
  simp only [slotsFrom, mem_map, mem_range]
  constructor
  · rintro ⟨k, hk, rfl⟩
    omega
  · intro h
    exact ⟨(s - first).toNat, by omega, by omega⟩

theorem emod_ne (hne : s ≠ t) (hst : s - t < count) (hts : t - s < count) : s % count ≠ t % count := by
  intro h
  have hdvd : count ∣ s - t := Int.dvd_of_emod_eq_zero (by rw [Int.sub_emod, h, sub_self, Int.zero_emod])
  have hzero : s - t = 0 := Int.eq_zero_of_abs_lt_dvd hdvd (abs_lt.mpr ⟨by omega, hst⟩)
  omega

theorem slotCode_eq (hs : 0 ≤ s) : slotCode samples s count = readCode samples (s % count).toNat := by
  unfold slotCode
  rw [Int.tmod_eq_emod_of_nonneg hs]

theorem putSlot_eq (hs : 0 ≤ s) : putSlot samples s count code = writeCode samples (s % count).toNat code := by
  unfold putSlot
  rw [Int.tmod_eq_emod_of_nonneg hs]

@[simp] theorem length_putSlot : (putSlot samples s count code).length = samples.length := length_writeCode

theorem place_lt (hcount : 0 < count) : (s % count).toNat / 4 < sampleSize count := by
  have hlow : 0 ≤ s % count := Int.emod_nonneg s (by omega)
  have hhigh : s % count < count := Int.emod_lt_of_pos s hcount
  show (s % count).toNat / 4 < ((count + 3).tdiv 4).toNat
  rw [Int.tdiv_eq_ediv_of_nonneg (by omega)]
  omega

theorem slotCode_putSlot_self (hcount : 0 < count) (hs : 0 ≤ s) (hsize : samples.length = sampleSize count)
    (hcode : code < 4) : slotCode (putSlot samples s count code) s count = code := by
  rw [slotCode_eq hs, putSlot_eq hs]
  exact readCode_writeCode_self (by rw [hsize]; exact place_lt hcount) hcode

theorem slotCode_putSlot_ne (hcount : 0 < count) (hs : 0 ≤ s) (ht : 0 ≤ t) (hne : s % count ≠ t % count)
    (hcode : code < 4) : slotCode (putSlot samples s count code) t count = slotCode samples t count := by
  have hs' : 0 ≤ s % count := Int.emod_nonneg s (by omega)
  have ht' : 0 ≤ t % count := Int.emod_nonneg t (by omega)
  rw [slotCode_eq ht, slotCode_eq ht, putSlot_eq hs]
  exact readCode_writeCode_ne (by omega) hcode

/-! ### The clearing loop -/

@[simp] theorem length_clearSlots : (clearSlots samples count slots).length = samples.length := by
  induction slots generalizing samples with
  | nil => rfl
  | cons s slots ih =>
    show (clearSlots (putSlot samples s count 0) count slots).length = samples.length
    rw [ih, length_putSlot]

theorem slotCode_clearSlots_ne (hcount : 0 < count) (ht : 0 ≤ t)
    (hslots : ∀ s ∈ slots, 0 ≤ s ∧ s % count ≠ t % count) :
    slotCode (clearSlots samples count slots) t count = slotCode samples t count := by
  induction slots generalizing samples with
  | nil => rfl
  | cons s slots ih =>
    show slotCode (clearSlots (putSlot samples s count 0) count slots) t count = _
    obtain ⟨hs, hne⟩ := hslots s mem_cons_self
    rw [ih (fun u hu => hslots u (mem_cons_of_mem s hu)), slotCode_putSlot_ne hcount hs ht hne (by decide)]

theorem slotCode_clearSlots_zero (hcount : 0 < count) (ht : 0 ≤ t)
    (hsize : samples.length = sampleSize count) (hslots : ∀ s ∈ slots, 0 ≤ s)
    (hzero : slotCode samples t count = 0) : slotCode (clearSlots samples count slots) t count = 0 := by
  induction slots generalizing samples with
  | nil => exact hzero
  | cons s slots ih =>
    show slotCode (clearSlots (putSlot samples s count 0) count slots) t count = 0
    have hs := hslots s mem_cons_self
    refine ih (by rw [length_putSlot, hsize]) (fun u hu => hslots u (mem_cons_of_mem s hu)) ?_
    by_cases hplace : s % count = t % count
    · rw [slotCode_eq ht, ← hplace, ← slotCode_eq hs, slotCode_putSlot_self hcount hs hsize (by decide)]
    · rw [slotCode_putSlot_ne hcount hs ht hplace (by decide), hzero]

theorem slotCode_clearSlots_mem (hcount : 0 < count) (hsize : samples.length = sampleSize count)
    (hslots : ∀ s ∈ slots, 0 ≤ s) (ht : t ∈ slots) : slotCode (clearSlots samples count slots) t count = 0 := by
  induction slots generalizing samples with
  | nil => cases ht
  | cons s slots ih =>
    show slotCode (clearSlots (putSlot samples s count 0) count slots) t count = 0
    have hs := hslots s mem_cons_self
    have hrest : ∀ u ∈ slots, 0 ≤ u := fun u hu => hslots u (mem_cons_of_mem s hu)
    have hsize' : (putSlot samples s count 0).length = sampleSize count := by rw [length_putSlot, hsize]
    rcases mem_cons.mp ht with rfl | hmem
    · exact slotCode_clearSlots_zero hcount hs hsize' hrest (slotCode_putSlot_self hcount hs hsize (by decide))
    · exact ih hsize' hrest hmem

/-! ### The invariant -/

def codeAt (log : List Observation) (s : Int) : UInt8 :=
  match statusAt log s with
  | some status => sloStatusCode status
  | none => 0

/-- The ring holds what the log says of the window that ends with the last slot. -/
structure Follows (count : Int) (log : List Observation) (h : SLOHistory) : Prop where
  size : h.samples.length = sampleSize count
  last : -1 ≤ h.lastSlot
  bounds : ∀ o ∈ log, 0 ≤ o.slot ∧ o.slot ≤ h.lastSlot
  codes : ∀ s, 0 ≤ s → h.lastSlot - count < s → s ≤ h.lastSlot → slotCode h.samples s count = codeAt log s

variable {log : List Observation} {h : SLOHistory} {slot : Int} {status : HealthStatus}

theorem sloStatusCode_lt (status : HealthStatus) : sloStatusCode status < 4 := by
  cases status with
  | healthy => decide
  | degraded => decide
  | unknown => decide
  | progressing => decide
  | other text =>
    show (3 : UInt8) < 4
    decide

variable {o : Observation}

theorem statusAt_cons_self : statusAt (o :: log) o.slot = some o.status := by simp [statusAt]

theorem statusAt_cons_ne (hne : o.slot ≠ s) : statusAt (o :: log) s = statusAt log s := by simp [statusAt, hne]

theorem statusAt_eq_none (hlog : ∀ o ∈ log, o.slot ≠ s) : statusAt log s = none := by
  have hfind : log.find? (fun o => decide (o.slot = s)) = none := by simpa using hlog
  rw [statusAt, hfind]
  rfl

theorem codeAt_eq_zero (hlog : ∀ o ∈ log, o.slot ≠ s) : codeAt log s = 0 := by rw [codeAt, statusAt_eq_none hlog]

theorem follows_new {hash : String} {now : Int} (hslot : 0 ≤ slot) :
    Follows count [] { configurationHash := hash, firstObservedAt := now, lastSlot := slot - 1
                       samples := List.replicate (sampleSize count) 0 } where
  size := length_replicate
  last := by
    show -1 ≤ slot - 1
    omega
  bounds := fun o ho => by cases ho
  codes := fun s hs _ _ => by
    rw [slotCode_eq hs, readCode_replicate]
    rfl

theorem recordSlot_eq (hslot : h.lastSlot < slot) : recordSlot h count slot status = { h with
        lastSlot := slot
        samples := putSlot (clearSlots h.samples count (slotsFrom (clearStart h.lastSlot count slot) slot)) slot count
          (sloStatusCode status) } :=
  if_neg (by omega)

theorem clearStart_le (hcount : 0 < count) (hslot : h.lastSlot < slot) :
    h.lastSlot < clearStart h.lastSlot count slot ∧ slot - count < clearStart h.lastSlot count slot ∧
      clearStart h.lastSlot count slot ≤ slot := by
  unfold clearStart
  split <;> omega

theorem lt_of_lt_clearStart (hs : s < clearStart h.lastSlot count slot) (hwindow : slot - count < s) :
    s ≤ h.lastSlot := by
  unfold clearStart at hs
  split at hs <;> omega

section
variable (hcount : 0 < count) (hf : Follows count log h) (hslot : h.lastSlot < slot)
include hcount hf hslot

theorem slotCode_recordSlot (hs : 0 ≤ s) (hwindow : slot - count < s) (hle : s ≤ slot) :
    slotCode (recordSlot h count slot status).samples s count =
      if s = slot then sloStatusCode status else codeAt log s := by
  have hlast := hf.last
  obtain ⟨hafter, hinside, hstart⟩ := clearStart_le hcount hslot
  have hslots : ∀ u ∈ slotsFrom (clearStart h.lastSlot count slot) slot, 0 ≤ u := by
    intro u hu
    have := (mem_slotsFrom.mp hu).1
    omega
  rw [recordSlot_eq hslot]
  by_cases heq : s = slot
  · subst heq
    rw [if_pos rfl]
    exact slotCode_putSlot_self hcount hs (by rw [length_clearSlots, hf.size]) (sloStatusCode_lt status)
  rw [if_neg heq]
  show slotCode (putSlot _ slot count _) s count = codeAt log s
  rw [slotCode_putSlot_ne hcount (by omega) hs (emod_ne (Ne.symm heq) (by omega) (by omega))
    (sloStatusCode_lt status)]
  by_cases hclear : clearStart h.lastSlot count slot ≤ s
  · rw [slotCode_clearSlots_mem hcount hf.size hslots (mem_slotsFrom.mpr ⟨hclear, hle⟩), codeAt_eq_zero]
    intro o ho hos
    have := (hf.bounds o ho).2
    omega
  have hold : s ≤ h.lastSlot := lt_of_lt_clearStart (by omega) hwindow
  rw [slotCode_clearSlots_ne hcount hs, hf.codes s hs (by omega) hold]
  intro u hu
  obtain ⟨hu₁, hu₂⟩ := mem_slotsFrom.mp hu
  exact ⟨hslots u hu, emod_ne (by omega) (by omega) (by omega)⟩

theorem follows_recordSlot :
    Follows count ({ slot := slot, status := status } :: log) (recordSlot h count slot status) := by
  have hlast := hf.last
  have hrec : (recordSlot h count slot status).lastSlot = slot := by rw [recordSlot_eq hslot]
  refine { size := ?_, last := ?_, bounds := ?_, codes := ?_ }
  · rw [recordSlot_eq hslot]
    show (putSlot _ slot count _).length = _
    rw [length_putSlot, length_clearSlots, hf.size]
  · omega
  · intro o ho
    rw [hrec]
    rcases mem_cons.mp ho with rfl | hmem
    · show 0 ≤ slot ∧ slot ≤ slot
      omega
    · have := hf.bounds o hmem
      omega
  · intro s hs hwindow hle
    rw [hrec] at hwindow hle
    rw [slotCode_recordSlot hcount hf hslot hs hwindow hle]
    by_cases heq : s = slot
    · subst heq
      rw [if_pos rfl, codeAt, statusAt_cons_self]
    · rw [if_neg heq, codeAt, codeAt, statusAt_cons_ne (Ne.symm heq)]
end

/-! ### Runs -/

/-- What a history is to the log after the same calls. -/
def Kept (hash : String) (interval count : Int) (log : List Observation) : Option SLOHistory → Prop
  | none => log = []
  | some h => h.configurationHash = hash ∧ Follows count log h ∧ (log.head?.map (·.slot)) = some h.lastSlot ∧
      (log.getLast?.map (·.slot)) = some (slotOf interval h.firstObservedAt)

theorem accept_eq (hf : Follows count log h) (hhead : log.head?.map (·.slot) = some h.lastSlot) :
    accept log { slot := slot, status := status } =
      if h.lastSlot < slot then { slot := slot, status := status } :: log else log := by
  have hiff : (∀ p ∈ log, p.slot < slot) ↔ h.lastSlot < slot := by
    constructor
    · intro hall
      cases hlog : log with
      | nil => rw [hlog] at hhead; cases hhead
      | cons o rest =>
      rw [hlog] at hhead
      have hslot : o.slot = h.lastSlot := by simpa using hhead
      rw [← hslot]
      exact hall o (by rw [hlog]; exact mem_cons_self)
    · intro hlt p hp
      have := (hf.bounds p hp).2
      omega
  unfold accept
  by_cases hlt : h.lastSlot < slot
  · rw [if_pos (hiff.mpr hlt), if_pos hlt]
  · rw [if_neg (fun hall => hlt (hiff.mp hall)), if_neg hlt]

theorem getLast?_cons_of_map {a : Int} (h : log.getLast?.map (·.slot) = some a) :
    (o :: log).getLast?.map (·.slot) = some a := by
  cases hlog : log with
  | nil => rw [hlog] at h; cases h
  | cons p rest =>
    rw [hlog] at h
    rw [List.getLast?_cons_cons]
    exact h

variable {check : HealthCheck F} {window interval now : Int}

section
variable (hvalid : sloDurations A P check = .ok (window, interval))
include hvalid

theorem durations_pos : 0 < window.tdiv interval ∧ validSLOInterval window interval = true := by
  have hinterval : validSLOInterval window interval = true := by
    unfold sloDurations at hvalid
    split at hvalid
    · cases hvalid
    split at hvalid
    · cases hvalid
    split at hvalid
    · cases hvalid
    split at hvalid
    · cases hvalid
    split at hvalid
    · cases hvalid
    · rename_i hok _ _ _
      cases hvalid
      simpa using hok
  refine ⟨?_, hinterval⟩
  simp only [validSLOInterval, Bool.and_eq_true, decide_eq_true_eq] at hinterval
  obtain ⟨⟨⟨⟨hwindow, hlow⟩, hhigh⟩, hseconds⟩, hdvd⟩ := hinterval
  have hpos : 0 < interval := lt_of_lt_of_le (by decide) hlow
  rw [Int.tmod_eq_emod_of_nonneg hwindow.le] at hdvd
  rw [Int.tdiv_eq_ediv_of_nonneg hwindow.le]
  exact Int.ediv_pos_of_pos_of_dvd hwindow hpos.le (Int.dvd_of_emod_eq_zero hdvd)

theorem kept_recordSLO {previous : Option SLOHistory}
    (c : Call) (hk : Kept (measurementHash A P check) interval (window.tdiv interval) log previous) :
    Kept (measurementHash A P check) interval (window.tdiv interval) (observe interval log c)
      (recordSLO A P check previous c.status c.now) := by
  have hcount := (durations_pos A P hvalid).1
  unfold recordSLO observe
  rw [hvalid]
  dsimp only
  by_cases hslot : slotOf interval c.now < 0
  · rw [if_pos hslot, if_pos hslot]
    rfl
  rw [if_neg hslot, if_neg hslot]
  have hslot' : 0 ≤ slotOf interval c.now := by omega
  cases previous with
  | none =>
    have hlog : log = [] := hk
    subst hlog
    have hnew : Follows (window.tdiv interval) [] (openHistory (measurementHash A P check) none
        (window.tdiv interval) (slotOf interval c.now) c.now) := follows_new hslot'
    have hlt : slotOf interval c.now - 1 < slotOf interval c.now := by omega
    refine ⟨?_, follows_recordSlot hcount hnew hlt, ?_, ?_⟩
    all_goals
      dsimp only [openHistory]
      rw [recordSlot_eq hlt]
      try rfl
  | some h =>
    obtain ⟨hhash, hf, hhead, hfirst⟩ := hk
    have hopen : openHistory (measurementHash A P check) (some h) (window.tdiv interval)
        (slotOf interval c.now) c.now = h := if_neg (by simp [hhash, hf.size])
    rw [hopen, accept_eq hf hhead]
    by_cases hlt : h.lastSlot < slotOf interval c.now
    · rw [if_pos hlt]
      have hrec : recordSlot h (window.tdiv interval) (slotOf interval c.now) c.status = _ := recordSlot_eq hlt
      refine ⟨?_, follows_recordSlot hcount hf hlt, ?_, getLast?_cons_of_map ?_⟩
      · rw [hrec]
        exact hhash
      · rw [hrec]
        rfl
      · rw [hrec]
        exact hfirst
    · rw [if_neg hlt]
      have hsame : recordSlot h (window.tdiv interval) (slotOf interval c.now) c.status = h := if_pos (by omega)
      rw [hsame]
      exact ⟨hhash, hf, hhead, hfirst⟩

theorem kept_recordCalls (calls : List Call) :
    Kept (measurementHash A P check) interval (window.tdiv interval) (observations interval calls)
      (recordCalls A P check calls) := by
  induction calls using List.reverseRecOn with
  | nil => rfl
  | append_singleton calls c ih =>
    rw [observations, recordCalls, foldl_append, foldl_append]
    exact kept_recordSLO A P hvalid c ih
end

/-! ### The summary -/

/-- The three counts of a list of buckets. -/
def total (timeline : List SLOBucket) : Tally where
  healthy := (timeline.map (·.tally.healthy)).sum
  unhealthy := (timeline.map (·.tally.unhealthy)).sum
  unknown := (timeline.map (·.tally.unknown)).sum

theorem total_snoc (timeline : List SLOBucket) (b : SLOBucket) (code : UInt8) :
    total (timeline ++ [{ b with tally := b.tally.add code }]) = (total (timeline ++ [b])).add code := by
  unfold Tally.add
  by_cases hone : code = 1
  · simp [total, hone]
    omega
  by_cases htwo : code = 2
  · simp [total, htwo]
    omega
  · simp [total, hone, htwo]
    omega

variable {timeline : List SLOBucket}

theorem total_empty_bucket {start : Int} :
    total (timeline ++ [{ start := start, tally := Tally.zero }]) = total timeline := by
  simp [total, Tally.zero]

theorem total_addToTimeline {start : Int} {code : UInt8} :
    total (addToTimeline timeline start code) = (total timeline).add code := by
  have hnew : ∀ t : List SLOBucket,
      total (t ++ [{ start := start, tally := Tally.zero.add code }]) = (total t).add code := by
    intro t
    have h := total_snoc t { start := start, tally := Tally.zero } code
    rw [total_empty_bucket] at h
    exact h
  unfold addToTimeline
  cases hlast : timeline.getLast? with
  | none =>
    rw [List.getLast?_eq_none_iff.mp hlast]
    exact hnew []
  | some b =>
  obtain ⟨rest, rfl⟩ := List.getLast?_eq_some_iff.mp hlast
  dsimp only
  by_cases hstart : b.start = start
  · rw [if_pos hstart, dropLast_concat, total_snoc]
  · rw [if_neg hstart]
    exact hnew _

def bucketStart (count seconds s : Int) : Int := s.tdiv (bucketWidth count) * bucketWidth count * seconds * second

theorem foldl_summarizeSlot (r : SLOSummary F) (slots : List Int) : slots.foldl (summarizeSlot h count) r = { r with
        tally := slots.foldl (fun t s => t.add (summaryCode h count s)) r.tally
        timeline := slots.foldl (fun timeline s =>
          addToTimeline timeline (bucketStart count r.intervalSeconds s) (summaryCode h count s)) r.timeline } := by
  induction slots generalizing r with
  | nil => rfl
  | cons s slots ih =>
    rw [foldl_cons, ih]
    rfl

theorem total_foldl (seconds : Int) (slots : List Int) (timeline : List SLOBucket) :
    total (slots.foldl (fun timeline s =>
      addToTimeline timeline (bucketStart count seconds s) (summaryCode h count s)) timeline) =
      slots.foldl (fun t s => t.add (summaryCode h count s)) (total timeline) := by
  induction slots generalizing timeline with
  | nil => rfl
  | cons s slots ih => rw [foldl_cons, foldl_cons, ih, total_addToTimeline]

theorem foldl_tally (slots : List Int) (hcodes : ∀ s ∈ slots, summaryCode h count s = codeAt log s) (t : Tally) :
    slots.foldl (fun t s => t.add (summaryCode h count s)) t =
      { healthy := t.healthy + healthySlots log slots
        unhealthy := t.unhealthy + unhealthySlots log slots
        unknown := t.unknown + unknownSlots log slots } := by
  induction slots generalizing t with
  | nil => simp [healthySlots, unhealthySlots, unknownSlots]
  | cons s slots ih =>
    rw [foldl_cons, ih (fun u hu => hcodes u (mem_cons_of_mem s hu)), hcodes s mem_cons_self]
    simp only [healthySlots, unhealthySlots, unknownSlots, countP_cons, codeAt]
    cases hstatus : statusAt log s with
    | none => simp [Tally.add]; omega
    | some status => cases status <;> simp [Tally.add, sloStatusCode] <;> omega

theorem sum_of_counts (log : List Observation) (slots : List Int) :
    healthySlots log slots + unhealthySlots log slots + unknownSlots log slots = slots.length := by
  induction slots with
  | nil => rfl
  | cons s slots ih =>
    have hone : (if decide (statusAt log s = some .healthy) = true then 1 else 0) +
        (if decide (statusAt log s = some .degraded) = true then 1 else 0) +
        (if decide (statusAt log s ≠ some .healthy ∧ statusAt log s ≠ some .degraded) = true then 1 else 0) = 1 := by
      by_cases hhealthy : statusAt log s = some .healthy
      · simp [hhealthy]
      · by_cases hdegraded : statusAt log s = some .degraded <;> simp [hhealthy, hdegraded]
    simp only [healthySlots, unhealthySlots, unknownSlots, countP_cons, length_cons] at ih ⊢
    omega

/-! ### Buckets -/

theorem addToTimeline_spec (timeline : List SLOBucket) (start : Int) (code : UInt8) :
    (addToTimeline timeline start code).getLast?.map (·.start) = some start ∧
      (addToTimeline timeline start code).length =
        if timeline.getLast?.map (·.start) = some start then timeline.length else timeline.length + 1 := by
  unfold addToTimeline
  cases hlast : timeline.getLast? with
  | none =>
    rw [List.getLast?_eq_none_iff.mp hlast]
    exact ⟨rfl, rfl⟩
  | some b =>
    obtain ⟨rest, rfl⟩ := List.getLast?_eq_some_iff.mp hlast
    by_cases hstart : b.start = start <;> simp [hstart]

theorem slotsFrom_succ (first : Int) (n : Nat) : (List.range (n + 1)).map (fun k : Nat => first + (k : Int)) =
      (List.range n).map (fun k : Nat => first + (k : Int)) ++ [first + n] := by
  rw [range_succ, map_append]
  rfl

/-- After `n + 1` slots the last bucket is the last slot's, and there is one for each bucket number passed, at most. -/
theorem timeline_of_slots (count seconds : Int) (hfirst : 0 ≤ first) (code : Int → UInt8) (n : Nat) :
    let timeline := ((List.range (n + 1)).map (fun k : Nat => first + (k : Int))).foldl (fun timeline s =>
      addToTimeline timeline (bucketStart count seconds s) (code s)) []
    timeline.getLast?.map (·.start) = some (bucketStart count seconds (first + n)) ∧
      (timeline.length : Int) ≤ (first + n) / bucketWidth count - first / bucketWidth count + 1 := by
  induction n with
  | zero =>
    refine ⟨rfl, ?_⟩
    simp [addToTimeline]
  | succ n ih =>
    rw [slotsFrom_succ, foldl_append]
    dsimp only [foldl_cons, foldl_nil]
    obtain ⟨hlast, hlen⟩ := ih
    obtain ⟨hstart, hadded⟩ := addToTimeline_spec
      (((List.range (n + 1)).map (fun k : Nat => first + (k : Int))).foldl (fun timeline s =>
        addToTimeline timeline (bucketStart count seconds s) (code s)) [])
      (bucketStart count seconds (first + (n + 1 : Nat))) (code (first + (n + 1 : Nat)))
    refine ⟨hstart, ?_⟩
    rw [hadded, hlast]
    have hwidth : 0 < bucketWidth count := lt_of_lt_of_le Int.one_pos (le_max_left _ _)
    have hmono : (first + n) / bucketWidth count ≤ (first + (n + 1 : Nat)) / bucketWidth count :=
      Int.ediv_le_ediv hwidth (by omega)
    by_cases hsame : bucketStart count seconds (first + n) = bucketStart count seconds (first + (n + 1 : Nat))
    · rw [if_pos (by rw [hsame])]
      omega
    rw [if_neg (fun h => hsame (Option.some.inj h))]
    -- slots of one bucket number have one start
    have hne : (first + n) / bucketWidth count ≠ (first + (n + 1 : Nat)) / bucketWidth count := by
      intro heq
      apply hsame
      unfold bucketStart
      rw [Int.tdiv_eq_ediv_of_nonneg (by omega), Int.tdiv_eq_ediv_of_nonneg (by omega), heq]
    omega

theorem length_timeline_le (hcount : 0 < count) (seconds : Int) {last : Int} (hfirst : 0 ≤ first)
    (hwindow : last - count < first) (code : Int → UInt8) :
    ((slotsFrom first last).foldl (fun timeline s =>
      addToTimeline timeline (bucketStart count seconds s) (code s)) []).length ≤ 61 := by
  unfold slotsFrom
  cases hn : (last - first + 1).toNat with
  | zero => exact Nat.zero_le 61
  | succ n =>
  have hlen := (timeline_of_slots count seconds hfirst code n).2
  have hwidth : 0 < bucketWidth count := lt_of_lt_of_le Int.one_pos (le_max_left _ _)
  have hsixty : count ≤ 60 * bucketWidth count := by
    unfold bucketWidth
    rw [Int.tdiv_eq_ediv_of_nonneg (by omega)]
    omega
  have hspan : (first + n) / bucketWidth count ≤ first / bucketWidth count + 60 := by
    rw [← Int.add_mul_ediv_right first 60 hwidth.ne']
    exact Int.ediv_le_ediv hwidth (by omega)
  omega

/-! ### The counts of a run -/

theorem summaryCode_eq (hf : Follows count log h) (hs : 0 ≤ s) :
    slot - count < s → h.lastSlot ≤ slot → summaryCode h count s = codeAt log s := by
  intro hwindow hlast
  unfold summaryCode
  by_cases hle : s ≤ h.lastSlot
  · rw [if_pos ⟨hle, by omega⟩]
    exact hf.codes s hs (by omega) hle
  · rw [if_neg (fun hin => hle hin.1), codeAt_eq_zero]
    intro o ho hos
    have := (hf.bounds o ho).2
    omega

/-- A summary has the counts of the log over the slots, in at most 61 buckets. -/
structure CountsOf (log : List Observation) (slots : List Int) (summary : SLOSummary F) : Prop where
  healthy : summary.tally.healthy = healthySlots log slots
  unhealthy : summary.tally.unhealthy = unhealthySlots log slots
  unknown : summary.tally.unknown = unknownSlots log slots
  sum : summary.tally.healthy + summary.tally.unhealthy + summary.tally.unknown = slots.length
  buckets : total summary.timeline = summary.tally
  length : summary.timeline.length ≤ 61

theorem countsOf_of_tally {summary : SLOSummary F} (htally : summary.tally =
      { healthy := healthySlots log slots, unhealthy := unhealthySlots log slots, unknown := unknownSlots log slots })
    (hbuckets : total summary.timeline = summary.tally) (hlen : summary.timeline.length ≤ 61) :
    CountsOf log slots summary where
  healthy := by rw [htally]
  unhealthy := by rw [htally]
  unknown := by rw [htally]
  sum := by
    have hsum := sum_of_counts log slots
    rw [htally]
    show (healthySlots log slots : Int) + unhealthySlots log slots + unknownSlots log slots = slots.length
    omega
  buckets := hbuckets
  length := hlen

theorem countsOf_summarizeHistory (hcount : 0 < window.tdiv interval) (hf : Follows (window.tdiv interval) log h)
    (hhead : log.head?.map (·.slot) = some h.lastSlot)
    (hfirst : log.getLast?.map (·.slot) = some (slotOf interval h.firstObservedAt))
    (hlater : ∀ o ∈ log, o.slot ≤ slotOf interval now) {r : SLOSummary F} (hr : r.tally = Tally.zero)
    (hempty : r.timeline = []) :
    CountsOf log (summaryRange log (window.tdiv interval) (slotOf interval now))
      (summarizeHistory A r h window interval now) := by
  obtain ⟨o, ho, hslot⟩ := Option.map_eq_some_iff.mp hfirst
  obtain ⟨p, hp, hplast⟩ := Option.map_eq_some_iff.mp hhead
  have hlast : h.lastSlot ≤ slotOf interval now := by
    rw [← hplast]
    exact hlater p (mem_of_mem_head? hp)
  have hnonneg : 0 ≤ firstSlot h interval (window.tdiv interval) (slotOf interval now) := by
    have hmem := hf.bounds o (mem_of_getLast? ho)
    rw [hslot] at hmem
    exact le_trans hmem.1 (le_max_right _ _)
  have hinside : slotOf interval now - window.tdiv interval <
      firstSlot h interval (window.tdiv interval) (slotOf interval now) :=
    lt_of_lt_of_le (by omega) (le_max_left _ _)
  have hrange : summaryRange log (window.tdiv interval) (slotOf interval now) =
      slotsFrom (firstSlot h interval (window.tdiv interval) (slotOf interval now)) (slotOf interval now) := by
    unfold summaryRange
    rw [ho]
    dsimp only
    rw [hslot]
    rfl
  have hcodes : ∀ s ∈ summaryRange log (window.tdiv interval) (slotOf interval now),
      summaryCode h (window.tdiv interval) s = codeAt log s := by
    intro s hs
    rw [hrange] at hs
    have hlow := (mem_slotsFrom.mp hs).1
    have hrecent : slotOf interval now - window.tdiv interval < s := by omega
    exact summaryCode_eq hf (le_trans hnonneg hlow) hrecent hlast
  have htally : (summaryRange log (window.tdiv interval) (slotOf interval now)).foldl
      (fun t s => t.add (summaryCode h (window.tdiv interval) s)) Tally.zero =
      { healthy := healthySlots log (summaryRange log (window.tdiv interval) (slotOf interval now))
        unhealthy := unhealthySlots log (summaryRange log (window.tdiv interval) (slotOf interval now))
        unknown := unknownSlots log (summaryRange log (window.tdiv interval) (slotOf interval now)) } := by
    rw [foldl_tally _ hcodes]
    simp [Tally.zero]
  have hbuckets : total ((slotsFrom (firstSlot h interval (window.tdiv interval) (slotOf interval now))
      (slotOf interval now)).foldl (fun timeline s => addToTimeline timeline
        (bucketStart (window.tdiv interval) r.intervalSeconds s) (summaryCode h (window.tdiv interval) s)) []) = _ :=
    total_foldl r.intervalSeconds _ []
  have hlen := length_timeline_le hcount r.intervalSeconds hnonneg hinside
    (fun s => summaryCode h (window.tdiv interval) s)
  unfold summarizeHistory
  dsimp only
  rw [if_neg (by omega), summarizeSLOSlots, foldl_summarizeSlot]
  dsimp only
  rw [hr, hempty]
  refine countsOf_of_tally ?_ hbuckets hlen
  rw [hrange] at htally ⊢
  exact htally

/-- **SLO accounting.**  For a valid check, after any calls, at a time whose slot is not before the last accepted one,
the counts of the summary are those of the log over the range. -/
theorem slo_accounting (hvalid : sloDurations A P check = .ok (window, interval)) (calls : List Call)
    (hlater : ∀ o ∈ observations interval calls, o.slot ≤ slotOf interval now) :
    CountsOf (observations interval calls)
      (summaryRange (observations interval calls) (window.tdiv interval) (slotOf interval now))
      (summarizeSLO A P check (recordCalls A P check calls) now) := by
  have hcount := (durations_pos A P hvalid).1
  have hkept := kept_recordCalls A P hvalid calls
  unfold summarizeSLO
  rw [hvalid]
  cases hhistory : recordCalls A P check calls with
  | none =>
    rw [hhistory] at hkept
    have hlog : observations interval calls = [] := hkept
    rw [hlog]
    exact countsOf_of_tally rfl rfl (Nat.zero_le 61)
  | some h =>
  rw [hhistory] at hkept
  obtain ⟨hhash, hf, hhead, hfirst⟩ := hkept
  dsimp only
  rw [if_neg (by simp [hhash, hf.size])]
  exact countsOf_summarizeHistory A hcount hf hhead hfirst hlater rfl rfl

def uptimeCheck : HealthCheck Rat where
  name := "uptime"
  expression := "http.statusCode == 200"
  httpProbe := some { url := "http://frontend.sfh.svc/deepcheck", method := "", timeout := 5 }
  interval := "30s"
  slo := some { targetPercentage := 99, window := "1h" }

/-- Packages that know the texts of `uptimeCheck`. -/
def uptimePackages : Packages Rat where
  parseDuration text := if text = "30s" then some (30 * second) else none
  safeOperationalURL url := decide (url = "http://frontend.sfh.svc/deepcheck")
  marshal check := some check.name
  sha256Hex text := text

theorem uptime_durations :
    sloDurations exactArithmetic uptimePackages uptimeCheck = .ok (3600 * second, 30 * second) := by
  decide +kernel

/-- Two observations and a late call. -/
def uptimeCalls : List Call :=
  [{ status := .healthy, now := 1800000000 * second }, { status := .degraded, now := 1800000030 * second },
    { status := .healthy, now := 1800000000 * second }]

theorem slo_accounting_uptime :
    (∀ o ∈ observations (30 * second) uptimeCalls, o.slot ≤ slotOf (30 * second) (1800000330 * second)) ∧
    CountsOf (observations (30 * second) uptimeCalls)
      (summaryRange (observations (30 * second) uptimeCalls) ((3600 * second).tdiv (30 * second))
        (slotOf (30 * second) (1800000330 * second)))
      (summarizeSLO exactArithmetic uptimePackages uptimeCheck
        (recordCalls exactArithmetic uptimePackages uptimeCheck uptimeCalls) (1800000330 * second)) :=
  ⟨by decide,
    slo_accounting exactArithmetic uptimePackages uptime_durations uptimeCalls (by decide)⟩

/-- A call before 1970 returns no history, so the observation that it brings is not counted. -/
theorem slo_accounting_before_1970 : ¬ ∀ (calls : List Call) (now : Int),
      (∀ o ∈ acceptedObservations (30 * second) calls, o.slot ≤ slotOf (30 * second) now) →
      CountsOf (acceptedObservations (30 * second) calls)
        (summaryRange (acceptedObservations (30 * second) calls) ((3600 * second).tdiv (30 * second))
          (slotOf (30 * second) now))
        (summarizeSLO exactArithmetic uptimePackages uptimeCheck
          (recordCalls exactArithmetic uptimePackages uptimeCheck calls) now) := by
  intro h
  have hcounts := h [{ status := .healthy, now := -100 * second }] (-100 * second) (by decide)
  have hone : healthySlots (acceptedObservations (30 * second) [{ status := .healthy, now := -100 * second }])
      (summaryRange (acceptedObservations (30 * second) [{ status := .healthy, now := -100 * second }])
        ((3600 * second).tdiv (30 * second)) (slotOf (30 * second) (-100 * second))) = 1 := by
    decide
  have hzero : (summarizeSLO exactArithmetic uptimePackages uptimeCheck
      (recordCalls exactArithmetic uptimePackages uptimeCheck [{ status := .healthy, now := -100 * second }])
      (-100 * second)).tally.healthy = 0 := by
    decide +kernel
  have hhealthy := hcounts.healthy
  rw [hzero, hone] at hhealthy
  exact absurd hhealthy (by decide)

end Paprika.Health
