import Paprika.Fleet.SatelliteSource

/-!
# Fleet: satellite generations

What readers of the satellite source may rely on, over every history of informer events, store contents, polls and
clock advances (`Faithful`): one generation, one list of contents (`same`); contents that are up to date once the
window has passed since the last change, under a larger generation than any contents that differ (`current`); and no
advance between two reads that saw the same, with nothing waiting and nothing learnt in between (`still`).

It holds of runs (`Unhurried`) in which no read scans while a change waits for its window, and no poll finds the store
empty twice in a row.  `generations_not_faithful` has the two ways to lose it.
-/

namespace Paprika.Fleet

open Lib.KeyedMap Lib.Run List

/-! ### The cache -/

/-- The cache is of the current generation, and nothing waits to be published. -/
def Source.Clean (s : Source) : Prop := s.cacheVersion = s.generation ∧ s.pendingBump = false

section
variable {isDNS1123Subdomain : String → Bool} {s s' : Source} {clock now : Int}

theorem staleAt_mono {o : SatelliteObservation} (h : o.staleAt clock = true) (hle : clock ≤ now) :
    o.staleAt now = true := by
  unfold SatelliteObservation.staleAt at h ⊢
  cases hseen : o.lastSeen with
  | none => rfl
  | some seen =>
    simp only [hseen, decide_eq_true_eq] at h ⊢
    omega

/-- The cache holds what is written down, and its deadline is no later than that of any fresh observation. -/
structure CacheInv (isDNS1123Subdomain : String → Bool) (s : Source) (clock : Int) : Prop where
  version : s.cacheVersion ≤ s.generation
  bumped : ∀ b, s.lastBump = some b → b ≤ clock
  flags : ∀ k o, s.clusters.lookup k = some o → o.stale = true → o.staleAt clock = true
  cached : s.Clean → s.cached =
    View.render isDNS1123Subdomain s.observations { observations := s.flagged, stored := s.stored }
  deadline : s.Clean → ∀ k o, s.clusters.lookup k = some o → o.stale = false →
    ∃ e seen, s.nextExpiry = some e ∧ o.lastSeen = some seen ∧ e ≤ seen + o.timeout

theorem cacheInv_init (observations : Bool) (clock : Int) :
    CacheInv isDNS1123Subdomain (Source.init observations) clock where
  version := le_refl 0
  bumped b hb := by cases hb
  flags k o ho := by simp [Source.init] at ho
  cached _ := by cases observations <;> rfl
  deadline _ k o ho := by simp [Source.init] at ho

theorem CacheInv.later (h : CacheInv isDNS1123Subdomain s clock) (hle : clock ≤ now) :
    CacheInv isDNS1123Subdomain s now where
  version := h.version
  bumped b hb := le_trans (h.bumped b hb) hle
  flags k o ho hstale := staleAt_mono (h.flags k o ho hstale) hle
  cached := h.cached
  deadline := h.deadline

/-- Before the deadline the staleness that is written down is the staleness of the moment. -/
theorem CacheInv.flagged_eq (h : CacheInv isDNS1123Subdomain s now) (hclean : s.Clean) (hexp : s.expired now = false) :
    s.flagged = s.observedAt now := by
  rw [Source.flagged, Source.observedAt]
  apply map_congr_left
  intro o ho
  obtain ⟨k, hk⟩ := mem_sortedValues.mp ho
  rw [Prod.mk.injEq]
  refine ⟨rfl, ?_⟩
  cases hstale : o.stale with
  | true => exact (h.flags k o hk hstale).symm
  | false =>
  obtain ⟨e, seen, he, hseen, hle⟩ := h.deadline hclean k o hk hstale
  simp only [Source.expired, he, Option.any_some, decide_eq_false_iff_not, gt_iff_lt, not_lt] at hexp
  simp only [SatelliteObservation.staleAt, hseen, gt_iff_lt]
  symm
  rw [decide_eq_false_iff_not]
  omega

theorem not_clean_bump (h : s.cacheVersion ≤ s.generation) : ¬(s.bump now).Clean := by
  intro hclean
  rw [Source.bump] at hclean
  split at hclean
  · have hver : s.cacheVersion = s.generation + 1 := hclean.1
    omega
  · cases hclean.2

theorem CacheInv.bump (hver : s.cacheVersion ≤ s.generation) (hbumped : ∀ b, s.lastBump = some b → b ≤ now)
    (hflags : ∀ k o, s.clusters.lookup k = some o → o.stale = true → o.staleAt now = true) :
    CacheInv isDNS1123Subdomain (s.bump now) now := by
  have hnot : ¬(s.bump now).Clean := not_clean_bump hver
  refine ⟨?_, ?_, ?_, fun hclean => absurd hclean hnot, fun hclean => absurd hclean hnot⟩
  · rw [Source.bump]
    split
    · exact Nat.le_succ_of_le hver
    · exact hver
  · rw [Source.bump]
    split
    · intro b hb
      cases hb
      exact le_refl now
    · exact hbumped
  · rw [Source.bump]
    split
    · exact hflags
    · exact hflags

theorem CacheInv.publishPending (h : CacheInv isDNS1123Subdomain s now) :
    CacheInv isDNS1123Subdomain (s.publishPending now) now := by
  rw [Source.publishPending]
  split
  · exact h
  have hver := h.version
  have hnot : ¬Source.Clean { s with generation := s.generation + 1, pendingBump := false, lastBump := some now } := by
    intro hclean
    have heq : s.cacheVersion = s.generation + 1 := hclean.1
    omega
  refine ⟨Nat.le_succ_of_le hver, ?_, h.flags, fun hclean => absurd hclean hnot, fun hclean => absurd hclean hnot⟩
  intro b hb
  cases hb
  exact le_refl now

/-- The two outcomes of a poll: nothing but its time is noted, or the new contents are taken up. -/
theorem pollObservations_cases (s : Source) (now : Int) (listed : Option (List StoredReport)) :
    (s.pollSees now listed = false ∧ (s.pollObservations now listed = s ∨
      s.pollObservations now listed = { s with lastStorePoll := some now })) ∨
    ∃ stored, s.pollSees now listed = true ∧ s.pollDue now = true ∧ listed = some stored ∧
      s.pollObservations now listed = Source.bump
        { s with lastStorePoll := some now, storeDigest := observationsDigest stored, stored := stored } now := by
  rw [Source.pollObservations, Source.pollSees]
  cases hdue : s.pollDue now with
  | false => exact .inl ⟨rfl, .inl rfl⟩
  | true =>
  cases listed with
  | none => exact .inl ⟨rfl, .inr rfl⟩
  | some stored =>
  by_cases hsame : observationsDigest stored = s.storeDigest ∧ s.storeDigest ≠ []
  · refine .inl ⟨by simp [hsame], .inr ?_⟩
    simp only [Bool.not_true, Bool.false_eq_true, if_false]
    rw [if_pos hsame]
  · refine .inr ⟨stored, by simp only [Option.any_some, hsame, decide_false]; rfl, rfl, rfl, ?_⟩
    simp only [Bool.not_true, Bool.false_eq_true, if_false]
    rw [if_neg hsame]

theorem CacheInv.pollObservations (h : CacheInv isDNS1123Subdomain s now) (listed : Option (List StoredReport)) :
    CacheInv isDNS1123Subdomain (s.pollObservations now listed) now := by
  obtain ⟨-, heq | heq⟩ | ⟨stored, -, -, -, heq⟩ := pollObservations_cases s now listed
  · rw [heq]
    exact h
  · rw [heq]
    exact ⟨h.version, h.bumped, h.flags, h.cached, h.deadline⟩
  · rw [heq]
    exact CacheInv.bump h.version h.bumped h.flags

theorem CacheInv.scan (h : CacheInv isDNS1123Subdomain s now) :
    CacheInv isDNS1123Subdomain (s.scan isDNS1123Subdomain now) now := by
  have hlookup : ∀ k o, (s.scan isDNS1123Subdomain now).clusters.lookup k = some o →
      o.stale = o.staleAt now ∧ o ∈ sortedValues (s.scan isDNS1123Subdomain now).clusters := by
    intro k o ho
    refine ⟨?_, mem_sortedValues.mpr ⟨k, ho⟩⟩
    simp only [Source.scan, lookup_mapValues, Option.map_eq_some_iff] at ho
    obtain ⟨p, -, rfl⟩ := ho
    rfl
  refine ⟨le_refl _, h.bumped, ?_, ?_, ?_⟩
  · intro k o ho hstale
    exact (hlookup k o ho).1.symm.trans hstale
  · intro _
    rw [cached_scan, flagged_scan]
    rfl
  · intro _ k o ho hfresh
    obtain ⟨hstale, hmem⟩ := hlookup k o ho
    obtain ⟨e, he, hle⟩ := (foldl_advanceExpiry _ none).2 o hmem hfresh
    rw [hstale] at hfresh
    cases hseen : o.lastSeen with
    | none => simp [SatelliteObservation.staleAt, hseen] at hfresh
    | some seen =>
      rw [hseen] at hle
      exact ⟨e, seen, he, rfl, hle⟩

/-- What an informer event does: nothing, a heartbeat, or a change that is published. -/
inductive Informed (s : Source) (now : Int) : Source → Bool → Prop
  | nothing : Informed s now s false
  | heartbeat (o : SatelliteObservation) (known : s.isHeartbeat o = true) (stale : o.stale = o.staleAt now) :
      Informed s now { s with
        clusters := s.clusters.insert o.key o, nextExpiry := Source.advanceExpiry s.nextExpiry o } false
  | changed (clusters : Map ObjectKey SatelliteObservation)
      (flags : ∀ k o, clusters.lookup k = some o → s.clusters.lookup k = some o ∨ o.stale = o.staleAt now) :
      Informed s now (Source.bump { s with clusters := clusters } now) true

/-- The informer event changes what readers are shown. -/
def Source.forgets (s : Source) (key : ObjectKey) : Bool := (s.clusters.lookup key).isSome

def Source.learns (isDNS1123Subdomain : String → Bool) (s : Source) (cluster : Cluster) (now : Int) : Bool :=
  if (cluster.mode ≠ .agent ∧ cluster.mode ≠ .direct) ∨ cluster.satellite = false then s.forgets cluster.key
  else
    let o := projectClusterSatelliteObservation isDNS1123Subdomain cluster
    !s.isHeartbeat { o with stale := o.staleAt now }

theorem informed_removeKey (s : Source) (key : ObjectKey) (now : Int) :
    Informed s now (s.removeKey key now) (s.forgets key) := by
  rw [Source.removeKey, Source.forgets]
  split
  · next h =>
    rw [h]
    refine Informed.changed _ ?_
    intro k o ho
    refine .inl ?_
    by_cases hk : k = key
    · rw [hk, AList.lookup_erase] at ho
      cases ho
    · rwa [AList.lookup_erase_ne hk] at ho
  · next h =>
    rw [Bool.not_eq_true] at h
    rw [h]
    exact Informed.nothing

theorem informed_observe (s : Source) (cluster : Cluster) (now : Int) :
    Informed s now (s.observe isDNS1123Subdomain cluster now) (s.learns isDNS1123Subdomain cluster now) := by
  rw [Source.observe, Source.learns]
  split
  · exact informed_removeKey s cluster.key now
  simp only [Source.record]
  split
  · next h =>
    rw [h]
    exact Informed.heartbeat _ h rfl
  · next h =>
    rw [Bool.not_eq_true] at h
    rw [h]
    refine Informed.changed _ ?_
    intro k o ho
    by_cases hk : k = SatelliteObservation.key { projectClusterSatelliteObservation isDNS1123Subdomain cluster with
      stale := (projectClusterSatelliteObservation isDNS1123Subdomain cluster).staleAt now }
    · rw [hk, AList.lookup_insert] at ho
      cases ho
      exact .inr rfl
    · rw [AList.lookup_insert_ne hk] at ho
      exact .inl ho

theorem isHeartbeat_iff {o : SatelliteObservation} (h : s.isHeartbeat o = true) :
    ∃ current, s.clusters.lookup o.key = some current ∧ current.stale = o.stale ∧ current.snapshot = o.snapshot := by
  rw [Source.isHeartbeat] at h
  cases hlook : s.clusters.lookup o.key with
  | none =>
    rw [hlook] at h
    cases h
  | some current =>
    rw [hlook, Option.any_some, Bool.and_eq_true, beq_iff_eq, beq_iff_eq] at h
    exact ⟨current, rfl, h⟩

theorem flagged_heartbeat {o : SatelliteObservation} (h : s.isHeartbeat o = true) (nextExpiry : Option Int) :
    Source.flagged { s with clusters := s.clusters.insert o.key o, nextExpiry := nextExpiry } = s.flagged := by
  obtain ⟨current, hlook, hstale, hsnap⟩ := isHeartbeat_iff h
  apply map_sortedValues_insert hlook
  rw [hstale, hsnap]

theorem CacheInv.informed {changed : Bool} (h : CacheInv isDNS1123Subdomain s now) (hs' : Informed s now s' changed) :
    CacheInv isDNS1123Subdomain s' now := by
  cases hs' with
  | nothing => exact h
  | changed clusters hclus =>
    refine CacheInv.bump h.version h.bumped ?_
    intro k o ho hstale
    obtain hold | hnew := hclus k o ho
    · exact h.flags k o hold hstale
    · exact hnew.symm.trans hstale
  | heartbeat o hknown hstale =>
  have hadv := foldl_advanceExpiry [o] s.nextExpiry
  refine ⟨h.version, h.bumped, ?_, ?_, ?_⟩
  · intro k p hp hpstale
    by_cases hk : k = o.key
    · subst hk
      rw [AList.lookup_insert] at hp
      cases hp
      exact hstale.symm.trans hpstale
    · rw [AList.lookup_insert_ne hk] at hp
      exact h.flags k p hp hpstale
  · intro hclean
    rw [flagged_heartbeat hknown]
    exact h.cached hclean
  · intro hclean k p hp hfresh
    by_cases hk : k = o.key
    · subst hk
      rw [AList.lookup_insert] at hp
      cases hp
      obtain ⟨e, he, hle⟩ := hadv.2 o mem_cons_self hfresh
      rw [hstale] at hfresh
      cases hseen : o.lastSeen with
      | none => simp [SatelliteObservation.staleAt, hseen] at hfresh
      | some seen =>
        rw [hseen] at hle
        exact ⟨e, seen, he, rfl, hle⟩
    · rw [AList.lookup_insert_ne hk] at hp
      obtain ⟨e, seen, he, hseen, hle⟩ := h.deadline hclean k p hp hfresh
      obtain ⟨e', he', hle'⟩ := hadv.1 e he
      exact ⟨e', seen, he', hseen, le_trans hle' hle⟩
end

/-! ### Histories -/

/-- What a read returned, and what there was to see.  `changes` counts the changes that informer events have made, `complete`
says that no change was left waiting, and `settled` that the window has passed since the last change. -/
structure ReadRecord where
  generation : Nat
  contents : List SatelliteSnapshot
  observations : List (SatelliteSnapshot × Bool)
  listed : Option (List StoredReport)
  changes : Nat
  complete : Bool
  settled : Bool
  deriving DecidableEq

/-- The source with the history of its reads, newest first. -/
structure SourceRun where
  source : Source
  clock : Int
  log : List ReadRecord
  listed : Option (List StoredReport)
  changes : Nat
  lastChange : Option Int

def SourceRun.init (observations : Bool) (clock : Int) : SourceRun :=
  { source := Source.init observations, clock := clock, log := [], listed := none, changes := 0, lastChange := none }

/-- What happens, so long after the previous event.  A read carries what the store returns if it is polled. -/
inductive SourceEvent
  | observe (elapsed : Nat) (cluster : Cluster)
  | remove (elapsed : Nat) (key : ObjectKey)
  | read (elapsed : Nat) (listed : Option (List StoredReport))

/-- The source as a read finds it once it has published and polled. -/
def Source.polled (s : Source) (now : Int) (listed : Option (List StoredReport)) : Source :=
  (s.publishPending now).pollObservations now listed

/-- The read puts its contents together anew. -/
def Source.scans (s : Source) (now : Int) : Bool := !(decide (s.cacheVersion = s.generation) && !s.expired now)

section
variable (isDNS1123Subdomain : String → Bool)

def SourceRun.inform (run : SourceRun) (now : Int) (source : Source) (changed : Bool) : SourceRun :=
  { run with
    source := source
    clock := now
    changes := if changed then run.changes + 1 else run.changes
    lastChange := if changed then some now else run.lastChange }

def SourceRun.read (run : SourceRun) (now : Int) (listed : Option (List StoredReport)) : SourceRun :=
  let source := run.source.fleetSnapshots isDNS1123Subdomain now listed
  let lastListed := if run.source.pollDue now ∧ listed.isSome then listed else run.listed
  let lastChange := if run.source.pollSees now listed then some now else run.lastChange
  { run with
    source := source
    clock := now
    listed := lastListed
    lastChange := lastChange
    log :=
      { generation := source.generation
        contents := source.cached
        observations := run.source.observedAt now
        listed := lastListed
        changes := run.changes
        complete := !source.pendingBump || (run.source.polled now listed).scans now
        settled := lastChange.all (fun last => last + minGenerationInterval ≤ now) } :: run.log }

def SourceRun.step (run : SourceRun) : SourceEvent → SourceRun
  | .observe elapsed cluster =>
    let now := run.clock + elapsed
    run.inform now (run.source.observe isDNS1123Subdomain cluster now)
      (run.source.learns isDNS1123Subdomain cluster now)
  | .remove elapsed key =>
    let now := run.clock + elapsed
    run.inform now (run.source.removeKey key now) (run.source.forgets key)
  | .read elapsed listed => run.read isDNS1123Subdomain (run.clock + elapsed) listed

/-- **Faithful generations**, over a history of reads, newest first. -/
structure Faithful (observations : Bool) (log : List ReadRecord) : Prop where
  same : ∀ r ∈ log, ∀ q ∈ log, r.generation = q.generation → r.contents = q.contents
  current : ∀ later r earlier, log = later ++ r :: earlier →
    (r.settled = true → r.contents = View.render isDNS1123Subdomain observations
      { observations := r.observations, stored := r.listed.getD [] }) ∧
    ∀ q ∈ earlier, q.contents ≠ r.contents → q.generation < r.generation
  still : ∀ later r' r earlier, log = later ++ r' :: r :: earlier → r.complete = true → r'.changes = r.changes →
    r'.observations = r.observations → r'.listed = r.listed → r'.generation = r.generation

/-- A read does not scan while a change waits for its window, and a poll does not find the store empty again. -/
def Unhurried (run : SourceRun) : SourceEvent → Prop
  | .read elapsed listed =>
    let s := run.source.polled (run.clock + elapsed) listed
    ¬(s.pendingBump = true ∧ s.scans (run.clock + elapsed) = true) ∧
      ¬(run.source.pollDue (run.clock + elapsed) = true ∧ listed = some [] ∧ run.listed = some [])
  | _ => True

/-- What the store returns comes from satellites that never report two things under one sequence number. -/
def SourceEvent.Honest (reported : ObjectKey → Nat → String → List Satellite.SatelliteApplication) : SourceEvent → Prop
  | .read _ (some stored) => Fleet.Honest reported stored
  | _ => True
end

/-! ### What a read does -/

section
variable {isDNS1123Subdomain : String → Bool} {s : Source} {now : Int} {listed : Option (List StoredReport)}

theorem publishPending_cases (s : Source) (now : Int) : (s.pendingBump = false ∧ s.publishPending now = s) ∨
    (s.pendingBump = true ∧ s.windowOver now = false ∧ s.publishPending now = s) ∨
    (s.pendingBump = true ∧ s.publishPending now =
      { s with generation := s.generation + 1, pendingBump := false, lastBump := some now }) := by
  rw [Source.publishPending]
  cases hpend : s.pendingBump with
  | false => exact .inl ⟨rfl, by simp⟩
  | true =>
    cases hwindow : s.windowOver now with
    | false => exact .inr (.inl ⟨rfl, rfl, by simp⟩)
    | true => exact .inr (.inr ⟨rfl, by simp⟩)

theorem publishPending_frame (s : Source) (now : Int) :
    ∃ generation pendingBump lastBump, s.generation ≤ generation ∧ s.publishPending now =
      { s with generation := generation, pendingBump := pendingBump, lastBump := lastBump } := by
  obtain ⟨-, h⟩ | ⟨-, -, h⟩ | ⟨-, h⟩ := publishPending_cases s now
  · exact ⟨_, _, _, le_refl _, h⟩
  · exact ⟨_, _, _, le_refl _, h⟩
  · exact ⟨_, _, _, Nat.le_succ _, h⟩

theorem bump_frame (s : Source) (now : Int) :
    ∃ generation pendingBump lastBump, s.generation ≤ generation ∧ s.bump now =
      { s with generation := generation, pendingBump := pendingBump, lastBump := lastBump } := by
  rw [Source.bump]
  split
  · exact ⟨_, _, _, Nat.le_succ _, rfl⟩
  · exact ⟨_, _, _, le_refl _, rfl⟩

theorem pendingBump_bump (h : (s.bump now).pendingBump = true) (hbumped : ∀ b, s.lastBump = some b → b ≤ now) :
    ∃ b, (s.bump now).lastBump = some b ∧ b ≤ now := by
  rw [Source.bump] at h ⊢
  cases hwindow : s.windowOver now with
  | true =>
    rw [if_pos hwindow] at h
    cases h
  | false =>
  rw [if_neg (by simp)]
  cases hlast : s.lastBump with
  | none => simp [Source.windowOver, hlast] at hwindow
  | some b => exact ⟨b, rfl, hbumped b hlast⟩

theorem pollSees_publishPending : (s.publishPending now).pollSees now listed = s.pollSees now listed := by
  obtain ⟨_, _, _, -, h⟩ := publishPending_frame s now
  rw [h]
  rfl

theorem pollDue_publishPending : (s.publishPending now).pollDue now = s.pollDue now := by
  obtain ⟨_, _, _, -, h⟩ := publishPending_frame s now
  rw [h]
  rfl

theorem polled_quiet (h : s.pollSees now listed = false) :
    ∃ lastStorePoll, s.polled now listed = { s.publishPending now with lastStorePoll := lastStorePoll } := by
  obtain ⟨-, heq | heq⟩ | ⟨stored, hsees, -⟩ := pollObservations_cases (s.publishPending now) now listed
  · exact ⟨_, heq⟩
  · exact ⟨_, heq⟩
  · rw [pollSees_publishPending, h] at hsees
    cases hsees

theorem polled_sees (h : s.pollSees now listed = true) :
    ∃ stored, listed = some stored ∧ s.pollDue now = true ∧ s.polled now listed = Source.bump
      { s.publishPending now with
        lastStorePoll := some now, storeDigest := observationsDigest stored, stored := stored } now := by
  obtain ⟨hsees, -⟩ | ⟨stored, -, hdue, hlisted, heq⟩ := pollObservations_cases (s.publishPending now) now listed
  · rw [pollSees_publishPending, h] at hsees
    cases hsees
  · rw [pollDue_publishPending] at hdue
    exact ⟨stored, hlisted, hdue, heq⟩

theorem polled_frame (s : Source) (now : Int) (listed : Option (List StoredReport)) :
    (s.polled now listed).cacheVersion = s.cacheVersion ∧ (s.polled now listed).cached = s.cached ∧
      (s.polled now listed).clusters = s.clusters ∧ (s.polled now listed).observations = s.observations := by
  obtain ⟨_, _, _, -, hpublish⟩ := publishPending_frame s now
  cases hsees : s.pollSees now listed with
  | false =>
    obtain ⟨poll, h⟩ := polled_quiet hsees
    rw [h, hpublish]
    exact ⟨rfl, rfl, rfl, rfl⟩
  | true =>
  obtain ⟨stored, -, -, h⟩ := polled_sees hsees
  obtain ⟨_, _, _, -, hbump⟩ := bump_frame { s.publishPending now with
    lastStorePoll := some now, storeDigest := observationsDigest stored, stored := stored } now
  rw [h, hbump, hpublish]
  exact ⟨rfl, rfl, rfl, rfl⟩

theorem fleetSnapshots_eq (s : Source) (now : Int) (listed : Option (List StoredReport)) :
    s.fleetSnapshots isDNS1123Subdomain now listed =
      if (s.polled now listed).scans now then (s.polled now listed).scan isDNS1123Subdomain now
      else s.polled now listed := by
  rw [Source.fleetSnapshots, Source.polled, Source.scans]
  by_cases h : ((s.publishPending now).pollObservations now listed).cacheVersion =
      ((s.publishPending now).pollObservations now listed).generation ∧
    ((s.publishPending now).pollObservations now listed).expired now = false
  · simp [h]
  · rw [if_neg h, if_pos]
    simpa [imp_iff_not_or] using h

theorem scans_eq_false : s.scans now = false ↔ s.cacheVersion = s.generation ∧ s.expired now = false := by
  simp [Source.scans]
end

/-! ### Runs -/

section
variable {isDNS1123Subdomain : String → Bool} {observations : Bool}
  {reported : ObjectKey → Nat → String → List Satellite.SatelliteApplication}

theorem Faithful.cons {log : List ReadRecord} {r : ReadRecord} (h : Faithful isDNS1123Subdomain observations log)
    (hlog : ∀ q ∈ log, q.generation ≤ r.generation ∧ (q.generation = r.generation → q.contents = r.contents))
    (hcur : r.settled = true → r.contents = View.render isDNS1123Subdomain observations
      { observations := r.observations, stored := r.listed.getD [] })
    (hstill : ∀ q rest, log = q :: rest → q.complete = true → r.changes = q.changes →
      r.observations = q.observations → r.listed = q.listed → r.generation = q.generation) :
    Faithful isDNS1123Subdomain observations (r :: log) := by
  refine ⟨?_, ?_, ?_⟩
  · intro p hp q hq heq
    obtain rfl | hold := mem_cons.mp hp
    · obtain rfl | hold' := mem_cons.mp hq
      · rfl
      · exact ((hlog q hold').2 heq.symm).symm
    · obtain rfl | hold' := mem_cons.mp hq
      · exact (hlog p hold).2 heq
      · exact h.same p hold q hold' heq
  · intro later p earlier hpos
    obtain ⟨-, rfl, rfl⟩ | ⟨rest, -, hrest⟩ := position_cons hpos
    · refine ⟨hcur, ?_⟩
      intro q hq hdiffer
      obtain ⟨hle, hsame⟩ := hlog q hq
      have hne : q.generation ≠ r.generation := fun heq => hdiffer (hsame heq)
      omega
    · exact h.current rest p earlier hrest
  · intro later p' p earlier hpos
    obtain ⟨-, rfl, hlog'⟩ | ⟨rest, -, hrest⟩ := position_cons hpos
    · exact hstill p earlier hlog'
    · exact h.still rest p' p earlier hrest

/-- Where the reads and the source stand: what waits was made after the last advance, the digest is that of the stored
reports and of the last list, and the last read is still good as long as nothing has changed. -/
structure RunInv (isDNS1123Subdomain : String → Bool) (observations : Bool)
    (reported : ObjectKey → Nat → String → List Satellite.SatelliteApplication) (run : SourceRun) : Prop where
  cache : CacheInv isDNS1123Subdomain run.source run.clock
  configured : run.source.observations = observations
  pending : run.source.pendingBump = true →
    ∃ b t, run.source.lastBump = some b ∧ run.lastChange = some t ∧ b ≤ t
  storedHonest : Honest reported run.source.stored
  listedHonest : Honest reported (run.listed.getD [])
  storedDigest : observationsDigest run.source.stored = run.source.storeDigest
  listedDigest : observationsDigest (run.listed.getD []) = run.source.storeDigest
  log : ∀ q ∈ run.log, q.changes ≤ run.changes ∧ q.generation ≤ run.source.cacheVersion ∧
    (q.generation = run.source.cacheVersion → q.contents = run.source.cached)
  last : ∀ q rest, run.log = q :: rest → q.complete = true → q.changes = run.changes →
    run.source.Clean ∧ run.source.generation = q.generation ∧ run.source.flagged = q.observations ∧
      run.listed = q.listed
  faithful : Faithful isDNS1123Subdomain observations run.log

theorem honest_nil : Honest reported [] := by
  refine ⟨nodup_nil, ?_, ?_⟩
  · intro r hr
    cases hr
  · intro r hr
    cases hr

theorem observationsDigest_nil : observationsDigest [] = [] := by simp [observationsDigest]

theorem runInv_init (clock : Int) :
    RunInv isDNS1123Subdomain observations reported (SourceRun.init observations clock) where
  cache := cacheInv_init observations clock
  configured := rfl
  pending h := by cases h
  storedHonest := honest_nil
  listedHonest := honest_nil
  storedDigest := observationsDigest_nil
  listedDigest := observationsDigest_nil
  log q hq := by cases hq
  last q rest h := by cases h
  faithful := by
    refine ⟨?_, ?_, ?_⟩
    · intro r hr
      cases hr
    · intro later r earlier h
      simp [SourceRun.init] at h
    · intro later r' r earlier h
      simp [SourceRun.init] at h

section
variable {s' : Source} {now : Int} {changed : Bool}

theorem informed_frame {s : Source} (h : Informed s now s' changed) :
    s'.observations = s.observations ∧ s'.stored = s.stored ∧ s'.storeDigest = s.storeDigest ∧
      s'.cacheVersion = s.cacheVersion ∧ s'.cached = s.cached := by
  cases h with
  | nothing => exact ⟨rfl, rfl, rfl, rfl, rfl⟩
  | heartbeat o known stale => exact ⟨rfl, rfl, rfl, rfl, rfl⟩
  | changed clusters flags =>
    obtain ⟨_, _, _, -, hbump⟩ := bump_frame { s with clusters := clusters } now
    rw [hbump]
    exact ⟨rfl, rfl, rfl, rfl, rfl⟩

theorem RunInv.inform {run : SourceRun}
    (h : RunInv isDNS1123Subdomain observations reported run) (hnow : run.clock ≤ now)
    (hs' : Informed run.source now s' changed) :
    RunInv isDNS1123Subdomain observations reported (run.inform now s' changed) := by
  have hcache := h.cache.later hnow
  obtain ⟨hobservations, hstored, hdigest, hver, hcached⟩ := informed_frame hs'
  refine ⟨hcache.informed hs', hobservations.trans h.configured, ?_, ?_, h.listedHonest, ?_, ?_, ?_, ?_, h.faithful⟩
  · intro hpend
    cases hs' with
    | nothing => exact h.pending hpend
    | heartbeat o known stale => exact h.pending hpend
    | changed clusters flags =>
      obtain ⟨b, hb, hle⟩ := pendingBump_bump hpend hcache.bumped
      exact ⟨b, now, hb, rfl, hle⟩
  · show Honest reported s'.stored
    rw [hstored]
    exact h.storedHonest
  · show observationsDigest s'.stored = s'.storeDigest
    rw [hstored, hdigest]
    exact h.storedDigest
  · show observationsDigest (run.listed.getD []) = s'.storeDigest
    rw [hdigest]
    exact h.listedDigest
  · intro q hq
    obtain ⟨hchanges, hle, hsame⟩ := h.log q hq
    show q.changes ≤ (if changed then run.changes + 1 else run.changes) ∧ q.generation ≤ s'.cacheVersion ∧
      (q.generation = s'.cacheVersion → q.contents = s'.cached)
    rw [hver, hcached]
    refine ⟨?_, hle, hsame⟩
    split
    · omega
    · exact hchanges
  · intro q rest hlog hcomp hchanges
    cases hs' with
    | nothing => exact h.last q rest hlog hcomp hchanges
    | heartbeat o known stale =>
      obtain ⟨hclean, hgen, hflagged, hlisted⟩ := h.last q rest hlog hcomp hchanges
      exact ⟨hclean, hgen, (flagged_heartbeat known _).trans hflagged, hlisted⟩
    | changed clusters flags =>
    -- the change is one more than the read knows of
    have hle := (h.log q (hlog ▸ mem_cons_self)).1
    have hmore : q.changes = run.changes + 1 := hchanges
    omega
end

theorem eq_nil_of_digest {stored : List StoredReport} (h : Honest reported stored)
    (hdigest : observationsDigest stored = []) : stored = [] := by
  have hempty := isEmpty_of_digest h (honest_nil : Honest reported [])
    (hdigest.trans observationsDigest_nil.symm)
  simpa using hempty
end

section
variable {isDNS1123Subdomain : String → Bool} {observations : Bool}
  {reported : ObjectKey → Nat → String → List Satellite.SatelliteApplication} {p : Source} {now : Int}

/-- The source after a read, where `p` is what it found. -/
structure Answered (isDNS1123Subdomain : String → Bool) (p : Source) (now : Int) (s' : Source) : Prop where
  version : s'.cacheVersion = s'.generation
  frame : s'.observations = p.observations ∧ s'.stored = p.stored ∧ s'.storeDigest = p.storeDigest ∧
    s'.pendingBump = p.pendingBump ∧ s'.lastBump = p.lastBump
  grows : p.generation ≤ s'.generation
  steady : p.flagged = p.observedAt now → s'.generation = p.generation
  flagged : s'.pendingBump = false → s'.flagged = p.observedAt now
  cached : s'.pendingBump = false → s'.cached =
    View.render isDNS1123Subdomain p.observations { observations := p.observedAt now, stored := p.stored }
  kept : s'.generation = p.cacheVersion → s'.cached = p.cached
  clean : p.scans now = true → s'.pendingBump = false

theorem answered_scan (h : CacheInv isDNS1123Subdomain p now) (hpend : p.pendingBump = false) :
    Answered isDNS1123Subdomain p now (p.scan isDNS1123Subdomain now) where
  version := rfl
  frame := ⟨rfl, rfl, rfl, rfl, rfl⟩
  grows := by
    rw [generation_scan]
    split
    · exact le_refl _
    · exact Nat.le_succ _
  steady hsame := by rw [generation_scan, if_pos hsame]
  flagged _ := flagged_scan _ _ _
  cached _ := cached_scan _ _ _
  kept hgen := by
    -- the generation did not move: the cache was good, and nothing has gone stale
    have hver := h.version
    rw [generation_scan] at hgen
    split at hgen
    · next hsame => rw [cached_scan, h.cached ⟨hgen.symm, hpend⟩, hsame]
    · omega
  clean _ := hpend

theorem answered_cached (h : CacheInv isDNS1123Subdomain p now) (hver : p.cacheVersion = p.generation)
    (hexp : p.expired now = false) (hscans : p.scans now = false) : Answered isDNS1123Subdomain p now p where
  version := hver
  frame := ⟨rfl, rfl, rfl, rfl, rfl⟩
  grows := le_refl _
  steady _ := rfl
  flagged hpend := h.flagged_eq ⟨hver, hpend⟩ hexp
  cached hpend := by rw [h.cached ⟨hver, hpend⟩, h.flagged_eq ⟨hver, hpend⟩ hexp]
  kept _ := rfl
  clean hyes := by
    rw [hscans] at hyes
    cases hyes

section
variable {listed : Option (List StoredReport)}

theorem answered_fleetSnapshots {s : Source}
    (h : CacheInv isDNS1123Subdomain s now)
    (hguard : ¬((s.polled now listed).pendingBump = true ∧ (s.polled now listed).scans now = true)) :
    Answered isDNS1123Subdomain (s.polled now listed) now (s.fleetSnapshots isDNS1123Subdomain now listed) ∧
      CacheInv isDNS1123Subdomain (s.fleetSnapshots isDNS1123Subdomain now listed) now := by
  have hp : CacheInv isDNS1123Subdomain (s.polled now listed) now := h.publishPending.pollObservations listed
  rw [fleetSnapshots_eq]
  cases hscans : (s.polled now listed).scans now with
  | true =>
    have hpend : (s.polled now listed).pendingBump = false := by
      by_contra hwaits
      exact hguard ⟨by simpa using hwaits, hscans⟩
    exact ⟨answered_scan hp hpend, hp.scan⟩
  | false =>
    obtain ⟨hver, hexp⟩ := scans_eq_false.mp hscans
    exact ⟨answered_cached hp hver hexp hscans, hp⟩

/-- What waits once a read has polled was made after the last advance; and once the window has passed, nothing does. -/
theorem pendingBump_polled {run : SourceRun}
    (h : RunInv isDNS1123Subdomain observations reported run) (hnow : run.clock ≤ now)
    (hpend : (run.source.polled now listed).pendingBump = true) :
    ∃ b t, (run.source.polled now listed).lastBump = some b ∧
      (if run.source.pollSees now listed then some now else run.lastChange) = some t ∧ b ≤ t ∧
      now - t < minGenerationInterval := by
  have hcache := h.cache.later hnow
  cases hsees : run.source.pollSees now listed with
  | true =>
    obtain ⟨stored, -, -, hpolled⟩ := polled_sees hsees
    rw [hpolled] at hpend ⊢
    obtain ⟨b, hb, hle⟩ := pendingBump_bump hpend hcache.publishPending.bumped
    exact ⟨b, now, hb, rfl, hle, by simp [minGenerationInterval]⟩
  | false =>
  obtain ⟨poll, hpolled⟩ := polled_quiet hsees
  rw [hpolled] at hpend ⊢
  obtain ⟨hnone, hsame⟩ | ⟨hwaits, hwindow, hsame⟩ | ⟨-, hpub⟩ := publishPending_cases run.source now
  · rw [hsame] at hpend
    exact absurd (hpend.symm.trans hnone) (by decide)
  · obtain ⟨b, t, hb, ht, hle⟩ := h.pending hwaits
    refine ⟨b, t, by rw [hsame]; exact hb, ht, hle, ?_⟩
    simp only [Source.windowOver, hb, Option.all_some, decide_eq_false_iff_not] at hwindow
    omega
  · rw [hpub] at hpend
    cases hpend

/-- The stored reports and the last list go under the same digest, before and after a poll. -/
theorem digest_polled (now : Int) {run : SourceRun}
    (h : RunInv isDNS1123Subdomain observations reported run) (hhonest : ∀ stored, listed = some stored →
      Honest reported stored) :
    let lastListed := if run.source.pollDue now ∧ listed.isSome then listed else run.listed
    let p := run.source.polled now listed
    Honest reported p.stored ∧ Honest reported (lastListed.getD []) ∧
      observationsDigest p.stored = p.storeDigest ∧ observationsDigest (lastListed.getD []) = p.storeDigest := by
  intro lastListed p
  obtain ⟨_, _, _, -, hpublish⟩ := publishPending_frame run.source now
  cases hsees : run.source.pollSees now listed with
  | true =>
    obtain ⟨stored, rfl, hdue, hpolled⟩ := polled_sees hsees
    obtain ⟨_, _, _, -, hbump⟩ := bump_frame { run.source.publishPending now with
      lastStorePoll := some now, storeDigest := observationsDigest stored, stored := stored } now
    have hlisted : lastListed = some stored := if_pos ⟨hdue, rfl⟩
    have hp : p.stored = stored ∧ p.storeDigest = observationsDigest stored := by
      show (run.source.polled now (some stored)).stored = stored ∧
        (run.source.polled now (some stored)).storeDigest = observationsDigest stored
      rw [hpolled, hbump]
      exact ⟨rfl, rfl⟩
    rw [hlisted, hp.1, hp.2]
    exact ⟨hhonest stored rfl, hhonest stored rfl, rfl, rfl⟩
  | false =>
    obtain ⟨poll, hpolled⟩ := polled_quiet hsees
    have hp : p.stored = run.source.stored ∧ p.storeDigest = run.source.storeDigest := by
      show (run.source.polled now listed).stored = _ ∧ (run.source.polled now listed).storeDigest = _
      rw [hpolled, hpublish]
      exact ⟨rfl, rfl⟩
    rw [hp.1, hp.2]
    by_cases htaken : run.source.pollDue now = true ∧ listed.isSome = true
    · -- a poll that is not taken up returns what is known
      obtain ⟨stored, rfl⟩ := Option.isSome_iff_exists.mp htaken.2
      have hlisted : lastListed = some stored := if_pos htaken
      simp only [Source.pollSees, htaken.1, Option.any_some, Bool.true_and, Bool.not_eq_false',
        decide_eq_true_eq] at hsees
      rw [hlisted]
      exact ⟨h.storedHonest, hhonest stored rfl, h.storedDigest, hsees.1⟩
    · have hlisted : lastListed = run.listed := if_neg htaken
      rw [hlisted]
      exact ⟨h.storedHonest, h.listedHonest, h.storedDigest, h.listedDigest⟩

/-- A poll that returns the last list again sees nothing new, unless that list is empty. -/
theorem pollSees_again {run : SourceRun}
    (h : RunInv isDNS1123Subdomain observations reported run)
    (hguard : ¬(run.source.pollDue now = true ∧ listed = some [] ∧ run.listed = some []))
    (hagain : (if run.source.pollDue now ∧ listed.isSome then listed else run.listed) = run.listed) :
    run.source.pollSees now listed = false := by
  by_contra hsees
  rw [Bool.not_eq_false] at hsees
  obtain ⟨stored, rfl, hdue, -⟩ := polled_sees hsees
  rw [if_pos ⟨hdue, rfl⟩] at hagain
  have hknown := h.listedDigest
  have hhonest := h.listedHonest
  rw [← hagain] at hknown hhonest
  have hempty : run.source.storeDigest = [] := by
    by_contra hne
    simp [Source.pollSees, hne] at hsees
    exact hsees.2 hknown
  have hnil : stored = [] := eq_nil_of_digest hhonest (hknown.trans hempty)
  rw [hnil] at hagain
  exact hguard ⟨hdue, by rw [hnil], hagain.symm⟩
end

end

section
variable {isDNS1123Subdomain : String → Bool} {observations : Bool}
  {reported : ObjectKey → Nat → String → List Satellite.SatelliteApplication}

theorem RunInv.read {run : SourceRun} {elapsed : Nat} {listed : Option (List StoredReport)}
    (h : RunInv isDNS1123Subdomain observations reported run)
    (hhonest : ∀ stored, listed = some stored → Honest reported stored)
    (hguard : Unhurried run (.read elapsed listed)) :
    RunInv isDNS1123Subdomain observations reported (run.step isDNS1123Subdomain (.read elapsed listed)) := by
  have hnow : run.clock ≤ run.clock + elapsed := by omega
  show RunInv _ _ _ (run.read isDNS1123Subdomain (run.clock + elapsed) listed)
  obtain ⟨hscan, hempty⟩ := hguard
  generalize run.clock + elapsed = now at hnow hscan hempty ⊢
  obtain ⟨hanswer, hcache⟩ := answered_fleetSnapshots (h.cache.later hnow) hscan
  obtain ⟨hver, hcached, hclus, hobservations⟩ := polled_frame run.source now listed
  obtain ⟨hframe, hstored, hdigest, hpend, hlast⟩ := hanswer.frame
  obtain ⟨hhonestStored, hhonestListed, hdigestStored, hdigestListed⟩ := digest_polled now h hhonest
  have hseen : (run.source.polled now listed).observedAt now = run.source.observedAt now := by
    rw [Source.observedAt, Source.observedAt, hclus]
  have hflagged : (run.source.polled now listed).flagged = run.source.flagged := by
    rw [Source.flagged, Source.flagged, hclus]
  -- against the reads before
  have hlog : ∀ q ∈ run.log, q.generation ≤ (run.source.fleetSnapshots isDNS1123Subdomain now listed).generation ∧
      (q.generation = (run.source.fleetSnapshots isDNS1123Subdomain now listed).generation →
        q.contents = (run.source.fleetSnapshots isDNS1123Subdomain now listed).cached) := by
    intro q hq
    obtain ⟨-, hle, hsame⟩ := h.log q hq
    have hpolled := ((h.cache.later hnow).publishPending.pollObservations listed).version
    have hgrows := hanswer.grows
    change (run.source.polled now listed).cacheVersion ≤ (run.source.polled now listed).generation at hpolled
    refine ⟨by omega, ?_⟩
    intro heq
    rw [hanswer.kept (by omega), hcached]
    exact hsame (by omega)
  have hfresh : (run.source.fleetSnapshots isDNS1123Subdomain now listed).pendingBump = false →
      (run.source.fleetSnapshots isDNS1123Subdomain now listed).cached = View.render isDNS1123Subdomain observations
        { observations := run.source.observedAt now
          stored := (if run.source.pollDue now ∧ listed.isSome then listed else run.listed).getD [] } := by
    intro hnone
    rw [hanswer.cached hnone, hobservations, h.configured, hseen]
    exact render_of_digest _ _ hhonestStored hhonestListed (hdigestStored.trans hdigestListed.symm) _
  refine ⟨hcache, ?_, ?_, ?_, hhonestListed, ?_, ?_, ?_, ?_, h.faithful.cons hlog ?_ ?_⟩
  · exact (hframe.trans hobservations).trans h.configured
  · intro hwaits
    have hwaits' := hpend.symm.trans hwaits
    obtain ⟨b, t, hb, ht, hle, -⟩ := pendingBump_polled h hnow hwaits'
    exact ⟨b, t, hlast.trans hb, ht, hle⟩
  · show Honest reported (run.source.fleetSnapshots isDNS1123Subdomain now listed).stored
    rw [hstored]
    exact hhonestStored
  · show observationsDigest (run.source.fleetSnapshots isDNS1123Subdomain now listed).stored =
      (run.source.fleetSnapshots isDNS1123Subdomain now listed).storeDigest
    rw [hstored, hdigest]
    exact hdigestStored
  · show observationsDigest ((if run.source.pollDue now ∧ listed.isSome then listed else run.listed).getD []) =
      (run.source.fleetSnapshots isDNS1123Subdomain now listed).storeDigest
    rw [hdigest]
    exact hdigestListed
  · intro q hq
    show q.changes ≤ run.changes ∧
      q.generation ≤ (run.source.fleetSnapshots isDNS1123Subdomain now listed).cacheVersion ∧
      (q.generation = (run.source.fleetSnapshots isDNS1123Subdomain now listed).cacheVersion →
        q.contents = (run.source.fleetSnapshots isDNS1123Subdomain now listed).cached)
    rw [hanswer.version]
    obtain rfl | hq := mem_cons.mp hq
    · exact ⟨le_refl _, le_refl _, fun _ => rfl⟩
    · exact ⟨(h.log q hq).1, hlog q hq⟩
  · intro q rest hpos hcomp _
    obtain ⟨rfl, rfl⟩ := List.cons.inj hpos
    -- a complete read leaves nothing waiting
    have hnone : (run.source.fleetSnapshots isDNS1123Subdomain now listed).pendingBump = false := by
      obtain hnone | hscans := Bool.or_eq_true_iff.mp hcomp
      · simpa using hnone
      · exact hanswer.clean hscans
    exact ⟨⟨hanswer.version, hnone⟩, rfl, (hanswer.flagged hnone).trans hseen, rfl⟩
  · intro hset
    apply hfresh
    by_contra hwaits
    rw [Bool.not_eq_false, hpend] at hwaits
    obtain ⟨b, t, -, ht, -, hwindow⟩ := pendingBump_polled h hnow hwaits
    have hsettled' : Option.all (fun last => decide (last + minGenerationInterval ≤ now))
      (if run.source.pollSees now listed then some now else run.lastChange) = true := hset
    rw [ht, Option.all_some, decide_eq_true_eq] at hsettled'
    omega
  · intro q rest hpos hcomp hchanges hsame hlisted
    obtain ⟨hclean, hgen, hwrote, hlast'⟩ := h.last q rest hpos hcomp hchanges.symm
    have hquiet := pollSees_again h hempty (hlisted.trans hlast'.symm)
    obtain ⟨poll, hpolled⟩ := polled_quiet hquiet
    obtain ⟨-, hpublish⟩ | ⟨hwaits, -⟩ | ⟨hwaits, -⟩ := publishPending_cases run.source now
    · show (run.source.fleetSnapshots isDNS1123Subdomain now listed).generation = q.generation
      rw [hanswer.steady (by rw [hflagged, hseen, hwrote]; exact hsame.symm), hpolled, hpublish]
      exact hgen
    · exact absurd (hwaits.symm.trans hclean.2) (by decide)
    · exact absurd (hwaits.symm.trans hclean.2) (by decide)

theorem RunInv.step {run : SourceRun} {e : SourceEvent} (h : RunInv isDNS1123Subdomain observations reported run)
    (hhonest : e.Honest reported) (hguard : Unhurried run e) :
    RunInv isDNS1123Subdomain observations reported (run.step isDNS1123Subdomain e) := by
  cases e with
  | observe elapsed cluster => exact h.inform (by omega) (informed_observe _ _ _)
  | remove elapsed key => exact h.inform (by omega) (informed_removeKey _ _ _)
  | read elapsed listed =>
  apply h.read _ hguard
  intro stored hlisted
  rw [hlisted] at hhonest
  exact hhonest

end

/-! ### A late heartbeat, and an empty store -/

def seconds (n : Int) : Int := n * 1000000000

/-- The registration of an agent without applications, last heard of at the given second. -/
def reportingCluster (name : String) (lastSeen : Int) : Cluster :=
  { key := { inNamespace := "fleet", name := name }
    displayName := name
    mode := .agent
    disabled := false
    phase := .healthy
    satellite := true
    timeout := seconds 120
    state := some { lastSeen := some (seconds lastSeen), applications := [] } }

/-- A cluster, a second one half a minute later, and a read after each. -/
def twoClusters : List SourceEvent :=
  [.observe 0 (reportingCluster "east" 0), .read 0 none, .observe 30000000000 (reportingCluster "west" 30), .read 0 none]

/-- A cluster sends a heartbeat shortly before its deadline, and a third one comes up within the window of the second:
the read after the deadline scans, though nothing is published. -/
def lateHeartbeat : List SourceEvent :=
  [.observe 0 (reportingCluster "east" 0), .read 0 none,
    .observe 119900000000 (reportingCluster "west" 119), .read 0 none,
    .observe 50000000 (reportingCluster "east" 119), .observe 30000000 (reportingCluster "north" 119),
    .read 30000000 none]

/-- A store that is empty whenever it is polled. -/
def emptyPolls : List SourceEvent := [.read 0 (some []), .read 1000000000 (some [])]

end Paprika.Fleet
