import Paprika.Satellite.ConcurrentReports

/-!
# The baseline in the observation store

With `Handler.Store` configured the application list lives in the store and `Cluster.status` keeps the fence only.
`acceptOnce` writes the fence first; a failed `Store.Put` is logged and the report is acknowledged all the same.  The
next delta is then merged into whatever the store holds, or into nothing where the entry is gone:
`lost_put_is_merged_into`.

* **`stored_baseline_exact`** — as long as every accepted delta arrives while no `Put` of an earlier list and no entry
  was lost since the last accepted snapshot, each delta is merged into the fold of the reports accepted since that
  snapshot, and the store holds that fold whenever nothing was lost.
-/

namespace Paprika.Satellite

open Lib.Run Lib.KeyedMap Bool

variable {Ω : Type}

/-- The application map of a report merged into `base`. -/
def mergeReport (base : Map String SatelliteApplication) (r : Report Ω) : Map String SatelliteApplication :=
  eraseAll (insertAll SatelliteApplication.key (if r.snapshot then ∅ else base) (r.applications.map statusApplication))
    r.deletedApplications

/-- The fold of the accepted reports (newest first) since the last snapshot. -/
def foldReports : List (Report Ω) → Map String SatelliteApplication
  | [] => ∅
  | r :: older => mergeReport (foldReports older) r

/-- The handler with a store.  `accepted` is the history of accepted reports, newest first; `intact` says that since
the last accepted snapshot no `Put` of a changed list has failed and the entry was not lost. -/
structure StoreHandler (Ω : Type) where
  status : Option SatelliteStatus
  store : Option (List SatelliteApplication)
  accepted : List (Report Ω)
  intact : Bool

def StoreHandler.init : StoreHandler Ω := { status := none, store := none, accepted := [], intact := false }

open StoreHandler

/-- What becomes of the reads and writes of one delivery. -/
structure StoreOutcome where
  /-- `Store.List` answers. -/
  listed : Bool
  /-- The status patch is applied. -/
  patched : Bool
  /-- `Store.Put` succeeds. -/
  put : Bool
  deriving DecidableEq, Repr

inductive StoreEvent (Ω : Type)
  | deliver (report : Report Ω) (now : Int) (outcome : StoreOutcome)
  | loseEntry

section
variable (X : Externals Ω)

/-- `acceptOnce` with a store, up to the status write. -/
def prepareStored (s : StoreHandler Ω) (r : Report Ω) (now : Int) (listed : Bool) :
    Except ReportError (Option (SatelliteStatus × List SatelliteApplication)) :=
  match validateBaseline s.status r (X.digest r) with
  | .error e => .error e
  | .ok true => .ok none
  | .ok false =>
    if listed then prepareReport X (some (s.store.getD [])) s.status r now
    else .error (.other "read observation store")

/-- The report carries something that changes the list: it is a snapshot or has changes or deletions. -/
def Report.changesList (r : Report Ω) : Bool :=
  r.snapshot || !r.applications.isEmpty || !r.deletedApplications.isEmpty

def StoreHandler.step (s : StoreHandler Ω) : StoreEvent Ω → StoreHandler Ω
  | .loseEntry => { s with store := none, intact := false }
  | .deliver r now outcome =>
    match prepareStored X s r now outcome.listed with
    | .error _ => s
    | .ok none => s
    | .ok (some (st, merged)) =>
      if outcome.patched then
        { status := some st, store := if outcome.put then some merged else s.store, accepted := r :: s.accepted,
          intact := if r.snapshot then outcome.put else s.intact && (outcome.put || !r.changesList) }
      else s

def StoreHandler.acceptsDelta (s : StoreHandler Ω) : StoreEvent Ω → Bool
  | .loseEntry => false
  | .deliver r now outcome =>
    !r.snapshot && outcome.patched &&
      match prepareStored X s r now outcome.listed with
      | .ok (some _) => true
      | _ => false

def DeltaMeetsStore (s : StoreHandler Ω) (e : StoreEvent Ω) : Prop := s.acceptsDelta X e = true → s.intact = true

instance (s : StoreHandler Ω) (e : StoreEvent Ω) : Decidable (DeltaMeetsStore X s e) :=
  inferInstanceAs (Decidable (_ → _))
end

/-- The store holds an entry, and as a map it is the fold of the accepted reports since the last snapshot. -/
def StoreHandler.Exact (s : StoreHandler Ω) : Prop :=
  ∃ apps, s.store = some apps ∧
    ∀ k, (ofValues SatelliteApplication.key apps).lookup k = (foldReports s.accepted).lookup k

/-! ### One delivery -/

section
variable {X : Externals Ω} {s : StoreHandler Ω} {r : Report Ω} {now : Int}

theorem lookup_mergeReport_congr {base base' : Map String SatelliteApplication}
    (h : ∀ k, base.lookup k = base'.lookup k) (r : Report Ω) (k : String) :
    (mergeReport base r).lookup k = (mergeReport base' r).lookup k := by
  refine lookup_eraseAll_congr (lookup_insertAll_congr ?_) k
  intro j
  split
  · rfl
  · exact h j

theorem mergeReport_of_unchanged (base : Map String SatelliteApplication) (h : r.changesList = false) :
    mergeReport base r = base := by
  simp only [Report.changesList, or_eq_false_iff, not_eq_false', List.isEmpty_iff] at h
  obtain ⟨⟨hsnap, hchange⟩, hdel⟩ := h
  rw [mergeReport, hsnap, hchange, hdel]
  rfl

theorem mergeReport_of_snapshot (base base' : Map String SatelliteApplication) (h : r.snapshot = true) :
    mergeReport base r = mergeReport base' r := by
  rw [mergeReport, mergeReport, if_pos h, if_pos h]

variable {merged : List SatelliteApplication} {st : SatelliteStatus}

/-- What is accepted with a store: the list to put is the report merged into what the store holds. -/
theorem prepareStored_some {listed : Bool}
    (h : prepareStored X s r now listed = .ok (some (st, merged))) (k : String) :
    (ofValues SatelliteApplication.key merged).lookup k =
      (mergeReport (ofValues SatelliteApplication.key (s.store.getD [])) r).lookup k := by
  unfold prepareStored at h
  split at h
  · simp at h
  · simp at h
  · split at h
    · unfold prepareReport at h
      split at h
      · simp at h
      · simp at h
      · dsimp only at h
        split at h
        · simp at h
        · next state hstate =>
          simp only [Except.ok.injEq, Option.some.injEq, Prod.mk.injEq] at h
          rw [← h.2, buildBaseline_ok hstate]
          exact lookup_sorted_mergedApplications _ r k
    · simp at h

/-- What a step does: nothing to the baseline, a lost entry, or an accepted report. -/
theorem storeStep_cases (X : Externals Ω) (s : StoreHandler Ω) (e : StoreEvent Ω) :
    s.step X e = s ∨ s.step X e = { s with store := none, intact := false } ∨
    ∃ r now outcome st merged, e = .deliver r now outcome ∧ outcome.patched = true ∧
      prepareStored X s r now outcome.listed = .ok (some (st, merged)) ∧
      s.step X e =
        { status := some st, store := if outcome.put then some merged else s.store, accepted := r :: s.accepted,
          intact := if r.snapshot then outcome.put else s.intact && (outcome.put || !r.changesList) } := by
  cases e with
  | loseEntry => exact .inr (.inl rfl)
  | deliver r now outcome =>
  simp only [step]
  split
  · exact .inl rfl
  · exact .inl rfl
  · next st merged hprep =>
    split
    · next hpatched => exact .inr (.inr ⟨r, now, outcome, st, merged, rfl, hpatched, hprep, rfl⟩)
    · exact .inl rfl

theorem acceptsDelta_of_prepared {outcome : StoreOutcome}
    (hdelta : r.snapshot = false) (hpatched : outcome.patched = true)
    (hprep : prepareStored X s r now outcome.listed = .ok (some (st, merged))) :
    s.acceptsDelta X (.deliver r now outcome) = true := by
  simp [acceptsDelta, hdelta, hpatched, hprep]

/-- **One step.**  An intact store is exact, and stays so. -/
theorem intact_exact_step (h : s.intact = true → s.Exact) (e : StoreEvent Ω) (hmeets : DeltaMeetsStore X s e) :
    (s.step X e).intact = true → (s.step X e).Exact := by
  rcases storeStep_cases X s e with heq | heq | ⟨r, now, outcome, st, merged, rfl, hpatched, hprep, heq⟩
  · rw [heq]
    exact h
  · rw [heq]
    intro hintact
    cases hintact
  rw [heq]
  intro hintact
  -- whatever the report is merged into, the merged list is the fold with the report
  have hmerged : ∀ k, (ofValues SatelliteApplication.key merged).lookup k =
      (foldReports (r :: s.accepted)).lookup k := by
    intro k
    rw [prepareStored_some hprep]
    by_cases hsnap : r.snapshot = true
    · rw [mergeReport_of_snapshot _ (foldReports s.accepted) hsnap]
      rfl
    · have hdelta : r.snapshot = false := eq_false_iff.mpr hsnap
      obtain ⟨apps, hstore, hexact⟩ := h (hmeets (acceptsDelta_of_prepared hdelta hpatched hprep))
      rw [hstore]
      exact lookup_mergeReport_congr hexact r k
  cases hput : outcome.put with
  | true => exact ⟨merged, rfl, hmerged⟩
  | false =>
  -- the failed put is harmless only if the report changes nothing
  rw [hput] at hintact
  by_cases hsnap : r.snapshot = true
  · simp [hsnap] at hintact
  simp only [Bool.eq_false_iff.mpr hsnap, Bool.false_eq_true, if_false, Bool.false_or, Bool.and_eq_true,
    Bool.not_eq_true'] at hintact
  obtain ⟨apps, hstore, hexact⟩ := h hintact.1
  refine ⟨apps, hstore, ?_⟩
  intro k
  rw [hexact k]
  show _ = (mergeReport (foldReports s.accepted) r).lookup k
  rw [mergeReport_of_unchanged _ hintact.2]
end

/-- **The baseline does not drift while nothing is lost**: no `Put` of a changed list has failed, and no entry was lost, since
the last accepted snapshot. -/
theorem stored_baseline_exact (X : Externals Ω) (es : List (StoreEvent Ω))
    (h : Guarded (step X) (DeltaMeetsStore X) .init es) :
    (∀ before e after, es = before ++ e :: after → (run (step X) .init before).acceptsDelta X e = true →
      (run (step X) .init before).Exact) ∧
    ((run (step X) .init es).intact = true → (run (step X) .init es).Exact) := by
  have hexact : ∀ es, Guarded (step X) (DeltaMeetsStore X) .init es →
      (run (step X) .init es).intact = true → (run (step X) .init es).Exact := by
    intro es hes
    refine guarded_invariant (motive := fun s => s.intact = true → s.Exact) ?_ ?_ hes
    · intro s e hs he
      exact intact_exact_step hs e he
    · intro hintact
      cases hintact
  refine ⟨?_, hexact es h⟩
  intro before e after hsplit haccepts
  rw [hsplit] at h
  obtain ⟨hbefore, hrest⟩ := guarded_append.mp h
  exact hexact before hbefore (hrest.1 haccepts)

/-! ### A lost entry -/

section

/-- A heartbeat: the delta after the snapshot of session `i`, without changes. -/
def sampleHeartbeat (i : ℕ) : Report Unit :=
  sampleCollector.report ⟨some (sampleObservation "Healthy").current, (), sampleSession i, 2, 5⟩
    (sampleObservation "Healthy") [] []

theorem stored_baseline_exact_of_delta :
    let es : List (StoreEvent Unit) :=
      [.deliver (sampleSnapshot 0) 6 ⟨true, true, true⟩, .deliver (sampleDelta 0) 7 ⟨true, true, true⟩]
    Guarded (step sampleExternals) (DeltaMeetsStore sampleExternals) .init es ∧
      (run (step sampleExternals) .init es).accepted = [sampleDelta 0, sampleSnapshot 0] ∧
      (run (step sampleExternals) .init es).Exact := by
  intro es
  have hmeets : Guarded (step sampleExternals) (DeltaMeetsStore sampleExternals) .init es := by decide
  exact ⟨hmeets, by decide, (stored_baseline_exact sampleExternals es hmeets).2 (by decide)⟩

/-- The `Put` of the opening snapshot fails and the report is acknowledged; the next heartbeat is accepted although
the store holds nothing to merge it into. -/
theorem lost_put_is_merged_into : ¬∀ (es : List (StoreEvent Unit)) (e : StoreEvent Unit),
      (run (step sampleExternals) .init es).acceptsDelta sampleExternals e = true →
      (run (step sampleExternals) .init es).Exact := by
  intro h
  obtain ⟨apps, hstore, _⟩ := h [.deliver (sampleSnapshot 0) 6 ⟨true, true, false⟩]
    (.deliver (sampleHeartbeat 0) 7 ⟨true, true, true⟩) (by decide)
  have hgone : (run (step sampleExternals) .init
      [.deliver (sampleSnapshot 0) 6 ⟨true, true, false⟩]).store = none := by decide
  rw [hgone] at hstore
  cases hstore
end

end Paprika.Satellite
