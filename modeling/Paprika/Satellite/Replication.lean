import Paprika.Lib.Run
import Paprika.Satellite.Collector
import Paprika.Satellite.Receiver

/-!
# Delta replication over an unreliable network

The collector, the report handler (with the application list in `Cluster.status`) and the network between them as one
state machine.  The network keeps every report and every reply ever sent and may hand over any of them at any time,
any number of times or never: it loses, duplicates, delays and reorders.  A reply belongs to the request it answers,
as an HTTP response does, so the publisher only reads replies to its pending report.

Deltas are relative to the publisher's last *acknowledged* map while the handler merges them into its last *accepted*
one.  What ties the two is that a publication is determined by its session and sequence (`Inv.unique`): the map of
sequence `n` of a session is the base of its delta `n + 1` on the sending side (`Inv.linked`) and the stored map when
the fence stands at `n` on the receiving side (`Inv.stored`).

* **`replication_exact`** — after every accepted report the stored list is the map the report was built from, a
  redelivered last report changes nothing, and only accepted reports are acknowledged.
-/

namespace Paprika.Satellite

open Lib.Run Lib.KeyedMap List Option

/-! ### The state machine -/

/-- What `authorizedCluster` answers. -/
inductive Authorization
  | granted | unauthorized | forbidden | unreadable
  deriving DecidableEq, Repr

/-- What becomes of the status write of `acceptOnce`: applied and confirmed, not applied, or applied with the
confirmation lost. -/
inductive StatusWrite
  | applied | failed | unconfirmed
  deriving DecidableEq, Repr

/-- One delivery of a report to the handler, as `ServeHTTP` leaves it. -/
structure Served where
  status : Option SatelliteStatus
  code : Nat
  accepted : Bool

variable {Ω : Type}

/-- `ServeHTTP` on a decoded report, with `acceptOnce` on the current status. -/
def serveHTTP (X : Externals Ω) (status : Option SatelliteStatus) (r : Report Ω) (now : Int)
    (authorization : Authorization) (write : StatusWrite) : Served :=
  if (validateReport X r).isSome then ⟨status, 400, false⟩
  else match authorization with
  | .unauthorized => ⟨status, 401, false⟩
  | .forbidden => ⟨status, 403, false⟩
  | .unreadable => ⟨status, 503, false⟩
  | .granted =>
    match prepareReport X none status r now with
    | .error e => ⟨status, e.code, false⟩
    | .ok none => ⟨status, 204, false⟩
    | .ok (some (st, _)) =>
      match write with
      | .applied => ⟨some st, 204, true⟩
      | .failed => ⟨status, 503, false⟩
      | .unconfirmed => ⟨some st, 503, true⟩

/-- The publisher, the network and the handler.  `pending` is the publication being sent and its attempt number; `built`,
`accepted` and `acknowledged` are histories, newest first. -/
structure System (Ω : Type) where
  sender : PublicationState Ω
  pending : Option (Publication Ω × Nat)
  drawn : Nat
  wire : List (Report Ω)
  replies : List (Report Ω × Nat)
  status : Option SatelliteStatus
  built : List (Publication Ω)
  accepted : List (Report Ω)
  acknowledged : List (Report Ω)

/-- A fresh collector and a registration without satellite status. -/
def System.init [Inhabited Ω] : System Ω :=
  { sender := ⟨none, default, "", 0, 0⟩, pending := none, drawn := 0, wire := [], replies := [], status := none,
    built := [], accepted := [], acknowledged := [] }

/-- What can happen next.  `publish` is one round of the publish loop, `transmit` one attempt of `sendWithRetries`
reaching the network, `attemptFailed` an attempt that ends without a reply, `restart` a new collector process. -/
inductive NetworkEvent (Ω : Type)
  | publish (observation : Observation Ω)
  | transmit
  | deliver (report : Report Ω) (now : Int) (authorization : Authorization) (write : StatusWrite)
  | reply (report : Report Ω) (code : Nat) (now : Int)
  | attemptFailed
  | restart

section
variable [DecidableEq Ω] (X : Externals Ω) (C : Collector) (newSessionID : ℕ → String)

/-- The publisher gives the pending publication up. -/
def System.abandon (s : System Ω) : System Ω := { s with sender := s.sender.retry, pending := none }

/-- A failed attempt of `sendWithRetries`: there are three. -/
def System.failAttempt (s : System Ω) (p : Publication Ω) (attempt : Nat) : System Ω :=
  if attempt + 1 < 3 then { s with pending := some (p, attempt + 1) } else s.abandon

def System.publish (s : System Ω) (o : Observation Ω) : System Ω :=
  match s.pending with
  | some _ => s
  | none =>
    match buildPublication C s.sender o (newSessionID s.drawn) with
    | .error _ => s.abandon
    | .ok (sender, none) => { s with sender := sender }
    | .ok (sender, some p) =>
      { s with sender := sender, pending := some (p, 0), built := p :: s.built,
               drawn := if s.sender.previous.isNone then s.drawn + 1 else s.drawn }

def System.deliver (s : System Ω) (r : Report Ω) (now : Int) (authorization : Authorization) (write : StatusWrite) :
    System Ω :=
  if r ∈ s.wire then
    let served := serveHTTP X s.status r now authorization write
    { s with status := served.status, replies := (r, served.code) :: s.replies,
             accepted := if served.accepted then r :: s.accepted else s.accepted }
  else s

/-- The delivery of `r` is accepted: its status is written. -/
def System.accepts (s : System Ω) (r : Report Ω) (now : Int) (authorization : Authorization) (write : StatusWrite) :
    Bool :=
  decide (r ∈ s.wire) && (serveHTTP X s.status r now authorization write).accepted

def System.reply (s : System Ω) (r : Report Ω) (code : Nat) (now : Int) : System Ω :=
  match s.pending with
  | none => s
  | some (p, attempt) =>
    if p.report = r ∧ (r, code) ∈ s.replies then
      match sendEncoded code with
      | .delivered => { s with sender := s.sender.acknowledge p now, pending := none,
                               acknowledged := r :: s.acknowledged }
      | .resync => s.abandon
      | .failed => s.failAttempt p attempt
    else s

def System.step (s : System Ω) : NetworkEvent Ω → System Ω
  | .publish o => s.publish C newSessionID o
  | .transmit =>
    match s.pending with
    | none => s
    | some (p, _) => { s with wire := p.report :: s.wire }
  | .deliver r now authorization write => s.deliver X r now authorization write
  | .reply r code now => s.reply r code now
  | .attemptFailed =>
    match s.pending with
    | none => s
    | some (p, attempt) => s.failAttempt p attempt
  | .restart => s.abandon
end

/-! ### One delivery -/

variable {st : SatelliteStatus}

section
variable {X : Externals Ω} {status : Option SatelliteStatus} {r : Report Ω} {now : Int}

/-- The stored list of `st` is, as a map, the application map `current`. -/
def Stores (st : SatelliteStatus) (current : ObservedApplications) : Prop :=
  ∀ k, (ofValues SatelliteApplication.key st.applications).lookup k = (current.apps.lookup k).map statusApplication

/-- A delivery either leaves the status alone, and then a 2xx reply means a duplicate, or writes the status
`buildBaseline` made from a report that advances the fence. -/
theorem serveHTTP_cases (X : Externals Ω) (status : Option SatelliteStatus) (r : Report Ω) (now : Int)
    (authorization : Authorization) (write : StatusWrite) :
    let served := serveHTTP X status r now authorization write
    (served.status = status ∧ served.accepted = false ∧
      (sendEncoded served.code = .delivered → validateBaseline status r (X.digest r) = .ok true)) ∨
    (∃ st, served.status = some st ∧ served.accepted = true ∧ Advances status r ∧
      buildBaseline X status r (X.digest r) now = .ok st) := by
  intro served
  simp only [served, serveHTTP]
  split
  · exact .inl ⟨rfl, rfl, by simp [sendEncoded]⟩
  cases authorization with
  | unauthorized => exact .inl ⟨rfl, rfl, by simp [sendEncoded]⟩
  | forbidden => exact .inl ⟨rfl, rfl, by simp [sendEncoded]⟩
  | unreadable => exact .inl ⟨rfl, rfl, by simp [sendEncoded]⟩
  | granted =>
  cases hprep : prepareReport X none status r now with
  | error e =>
    refine .inl ⟨rfl, rfl, ?_⟩
    rcases prepareReport_error_code hprep with hcode | hcode <;> simp [hcode, sendEncoded]
  | ok out =>
  cases out with
  | none => exact .inl ⟨rfl, rfl, fun _ => prepareReport_none.mp hprep⟩
  | some out =>
  obtain ⟨st, merged⟩ := out
  have hst := prepareReport_some hprep
  cases write with
  | applied => exact .inr ⟨st, rfl, rfl, hst⟩
  | failed => exact .inl ⟨rfl, rfl, by simp [sendEncoded]⟩
  | unconfirmed => exact .inr ⟨st, rfl, rfl, hst⟩

variable {current : ObservedApplications} {old : Option SatelliteStatus}

/-- A merge onto the image of `m` by a delta from `m` to `current` stores `current`. -/
theorem stores_of_buildBaseline {digest : String}
    {m : Map String Application}
    (hbase : ∀ k, (baselineApplications old r).lookup k = (m.lookup k).map statusApplication)
    (hdelta : IsDelta Application.key m current.apps r.applications r.deletedApplications)
    (h : buildBaseline X old r digest now = .ok st) : Stores st current := by
  intro k
  rw [buildBaseline_ok h]
  show (ofValues SatelliteApplication.key (sortedValues (mergedApplications old r))).lookup k = _
  rw [lookup_sorted_mergedApplications]
  exact lookup_patch statusApplication_key hbase current.keyed hdelta k

theorem lookup_baselineApplications_snapshot (h : r.snapshot = true) (k : String) :
    (baselineApplications old r).lookup k = ((∅ : Map String Application).lookup k).map statusApplication := by
  unfold baselineApplications
  cases old with
  | none => simp
  | some o => simp [h]

theorem lookup_baselineApplications_delta {o : SatelliteStatus}
    (h : r.snapshot = false) (hstore : Stores o current) (k : String) :
    (baselineApplications (some o) r).lookup k = (current.apps.lookup k).map statusApplication := by
  simp only [baselineApplications, h]
  exact hstore k
end

/-! ### The invariant -/

section
variable (X : Externals Ω) (C : Collector) (newSessionID : ℕ → String)

/-- A publication is a snapshot of its map, or a delta from the publication one sequence earlier in its session. -/
def Linked (built : List (Publication Ω)) (p : Publication Ω) : Prop :=
  (p.report.snapshot = true ∧ p.report.sequence = 1 ∧
    IsDelta Application.key ∅ p.current.apps p.report.applications p.report.deletedApplications) ∨
  (∃ q ∈ built, p.report.snapshot = false ∧ q.report.sessionID = p.report.sessionID ∧
    p.report.sequence = q.report.sequence + 1 ∧
    IsDelta Application.key q.current.apps p.current.apps p.report.applications p.report.deletedApplications)

structure WrittenFor (st : SatelliteStatus) (p : Publication Ω) : Prop where
  uid : st.clusterUID = p.report.clusterUID
  session : st.sessionID = p.report.sessionID
  sequence : st.sequence = p.report.sequence
  digest : st.reportDigest = X.digest p.report
  stores : Stores st p.current

/-- What every reachable state satisfies. -/
structure Inv (s : System Ω) : Prop where
  /-- Built reports carry the identity of the cluster and a session already drawn. -/
  drawn : ∀ p ∈ s.built, p.report.clusterUID = C.clusterUID ∧ ∃ i < s.drawn, p.report.sessionID = newSessionID i
  /-- Session and sequence determine the publication. -/
  unique : ∀ p ∈ s.built, ∀ q ∈ s.built, p.report.sessionID = q.report.sessionID →
    p.report.sequence = q.report.sequence → p = q
  linked : ∀ p ∈ s.built, Linked s.built p
  /-- The acknowledged map is the map of the publication just before the next sequence. -/
  previous : ∀ m, s.sender.previous = some m → ∃ q ∈ s.built, q.report.sessionID = s.sender.session ∧
    q.report.sequence + 1 = s.sender.sequence ∧ q.current = m
  pending : ∀ p n, s.pending = some (p, n) → p ∈ s.built ∧ p.report.sessionID = s.sender.session ∧
    p.report.sequence = s.sender.sequence
  /-- In the running session nothing but the pending publication has reached the next sequence. -/
  behind : (s.sender.previous.isSome ∨ s.pending.isSome) → ∀ p ∈ s.built,
    p.report.sessionID = s.sender.session → p.report.sequence < s.sender.sequence ∨ ∃ n, s.pending = some (p, n)
  wire : ∀ r ∈ s.wire, ∃ p ∈ s.built, p.report = r
  stored : ∀ st, s.status = some st → ∃ p ∈ s.built, s.accepted.head? = some p.report ∧ WrittenFor X st p
  /-- A report is accepted together with a status. -/
  written : s.status = none → s.accepted = []
  replies : ∀ r code, (r, code) ∈ s.replies → sendEncoded code = .delivered → r ∈ s.accepted
  acknowledged : ∀ r ∈ s.acknowledged, r ∈ s.accepted

variable {X C newSessionID}

theorem inv_init [Inhabited Ω] : Inv X C newSessionID (System.init : System Ω) where
  drawn _ h := by simp [System.init] at h
  unique _ h := by simp [System.init] at h
  linked _ h := by simp [System.init] at h
  previous _ h := by simp [System.init] at h
  pending _ _ h := by simp [System.init] at h
  behind h := by simp [System.init] at h
  wire _ h := by simp [System.init] at h
  stored _ h := by simp [System.init] at h
  written _ := rfl
  replies _ _ h := by simp [System.init] at h
  acknowledged _ h := by simp [System.init] at h

variable {p : Publication Ω}

theorem Linked.mono {built built' : List (Publication Ω)} (h : Linked built p)
    (hsub : ∀ q ∈ built, q ∈ built') : Linked built' p := by
  rcases h with h | ⟨q, hq, hrest⟩
  · exact .inl h
  · exact .inr ⟨q, hsub q hq, hrest⟩

variable {s : System Ω}

section
variable (h : Inv X C newSessionID s)
include h

/-- Giving the pending publication up leaves nothing to check on the sending side. -/
theorem Inv.abandon : Inv X C newSessionID s.abandon where
  drawn := h.drawn
  unique := h.unique
  linked := h.linked
  previous m hm := by simp [System.abandon, PublicationState.retry] at hm
  pending p n hp := by simp [System.abandon] at hp
  behind hb := by simp [System.abandon, PublicationState.retry] at hb
  wire := h.wire
  stored := h.stored
  written := h.written
  replies := h.replies
  acknowledged := h.acknowledged

theorem Inv.failAttempt {n : Nat}
    (hp : s.pending = some (p, n)) : Inv X C newSessionID (s.failAttempt p n) := by
  unfold System.failAttempt
  split
  · refine { h with pending := ?_, behind := ?_ }
    · intro q k hq
      obtain ⟨rfl, _⟩ := Prod.mk.inj (some.inj hq)
      exact h.pending _ n hp
    intro _ q hq hsess
    rcases h.behind (.inr (by rw [hp]; rfl)) q hq hsess with hlt | ⟨k, hk⟩
    · exact .inl hlt
    · obtain ⟨rfl, _⟩ := Prod.mk.inj (some.inj (hp.symm.trans hk))
      exact .inr ⟨n + 1, rfl⟩
  · exact h.abandon

/-- A report of the network that advances the fence is merged into the map it was built from. -/
theorem Inv.writtenFor (hp : p ∈ s.built) {now : Int}
    (hadv : Advances s.status p.report)
    (hst : buildBaseline X s.status p.report (X.digest p.report) now = .ok st) : WrittenFor X st p := by
  have hstore : Stores st p.current := by
    cases hadv with
    | first hold hsnap hseq =>
      rcases h.linked p hp with ⟨_, _, hdelta⟩ | ⟨q, _, hnot, _⟩
      · exact stores_of_buildBaseline (lookup_baselineApplications_snapshot hsnap) hdelta hst
      · rw [hsnap] at hnot
        cases hnot
    | replaced o hold hsess hretired hsnap hseq =>
      rcases h.linked p hp with ⟨_, _, hdelta⟩ | ⟨q, _, hnot, _⟩
      · exact stores_of_buildBaseline (lookup_baselineApplications_snapshot hsnap) hdelta hst
      · rw [hsnap] at hnot
        cases hnot
    | next o hold hsess hseq hsnap =>
    rcases h.linked p hp with ⟨hnot, _⟩ | ⟨q, hq, _, hqs, hqn, hdelta⟩
    · rw [hsnap] at hnot
      cases hnot
    · -- the publication the fence stands at is the base of the delta
      obtain ⟨q', hq', _, hwrote⟩ := h.stored o hold
      have hbase : q' = q := by
        refine h.unique q' hq' q hq ?_ ?_
        · rw [hqs, ← hsess, hwrote.session]
        · have := hwrote.sequence
          omega
      subst hbase
      rw [hold] at hst
      exact stores_of_buildBaseline (lookup_baselineApplications_delta hsnap hwrote.stores) hdelta hst
  rw [buildBaseline_ok hst] at hstore ⊢
  exact ⟨rfl, rfl, rfl, rfl, hstore⟩

theorem Inv.accepted_of_duplicate (hp : p ∈ s.built)
    (hdup : validateBaseline s.status p.report (X.digest p.report) = .ok true) : p.report ∈ s.accepted := by
  obtain ⟨o, hold, _, hsess, hsequence, _⟩ := validateBaseline_ok_true.mp hdup
  obtain ⟨q, hq, hhead, hwrote⟩ := h.stored o hold
  have hqp : q = p :=
    h.unique q hq p hp (hwrote.session.symm.trans hsess) (hwrote.sequence.symm.trans hsequence)
  subst hqp
  exact mem_of_head? hhead
end

variable [DecidableEq Ω]

variable (C newSessionID) in
theorem publish_cases (s : System Ω) (o : Observation Ω) :
    s.publish C newSessionID o = s ∨ s.publish C newSessionID o = s.abandon ∨
    ∃ sender p, s.pending = none ∧ buildPublication C s.sender o (newSessionID s.drawn) = .ok (sender, some p) ∧
      s.publish C newSessionID o =
        { s with sender := sender, pending := some (p, 0), built := p :: s.built,
                 drawn := if s.sender.previous.isNone then s.drawn + 1 else s.drawn } := by
  unfold System.publish
  split
  · exact .inl rfl
  · next hpend =>
    split
    · exact .inr (.inl rfl)
    · next sender hbuild =>
      rw [buildPublication_none hbuild]
      exact .inl rfl
    · next sender p hbuild => exact .inr (.inr ⟨sender, p, hpend, hbuild, rfl⟩)

theorem Inv.publish (hids : Function.Injective newSessionID) (h : Inv X C newSessionID s) (o : Observation Ω) :
    Inv X C newSessionID (s.publish C newSessionID o) := by
  rcases publish_cases C newSessionID s o with heq | heq | ⟨sender, p, hpend, hbuild, heq⟩
  · rw [heq]
    exact h
  · rw [heq]
    exact h.abandon
  rw [heq]
  obtain ⟨hsender, huid, hsess, hsequence, hsnapshot, hdelta⟩ := buildPublication_some hbuild
  have hprevious : sender.previous = s.sender.previous := by rw [hsender, startSession_previous]
  -- nothing built so far has the session and the sequence of the new publication
  have hnew : ∀ q ∈ s.built, q.report.sessionID = p.report.sessionID → q.report.sequence < p.report.sequence := by
    intro q hq hqp
    cases hprev : s.sender.previous with
    | none =>
      obtain ⟨_, i, hi, hqi⟩ := h.drawn q hq
      have hfresh : sender.session = newSessionID s.drawn := by rw [hsender, PublicationState.startSession, hprev]
      have := hids (hqi.symm.trans (hqp.trans (hsess.trans hfresh)))
      omega
    | some m =>
    have hsame : sender = s.sender := by rw [hsender, PublicationState.startSession, hprev]
    rw [hsequence, hsame]
    rcases h.behind (.inl (by rw [hprev]; rfl)) q hq (by rw [hqp, hsess, hsame]) with hlt | ⟨n, hn⟩
    · exact hlt
    · rw [hpend] at hn
      cases hn
  have hdrawn : s.drawn ≤ if s.sender.previous.isNone then s.drawn + 1 else s.drawn := by split <;> omega
  refine ⟨?_, ?_, ?_, ?_, ?_, ?_, ?_, ?_, h.written, h.replies, h.acknowledged⟩
  · intro q hq
    rcases mem_cons.mp hq with rfl | hq
    · refine ⟨huid, ?_⟩
      cases hprev : s.sender.previous with
      | none =>
        refine ⟨s.drawn, by simp, ?_⟩
        rw [hsess, hsender, PublicationState.startSession, hprev]
      | some m =>
      -- the session goes on: it was drawn for the publication acknowledged last
      obtain ⟨q, hq, hqs, _⟩ := h.previous m hprev
      obtain ⟨_, i, hi, hqi⟩ := h.drawn q hq
      refine ⟨i, by simpa using hi, ?_⟩
      rw [hsess, hsender, PublicationState.startSession, hprev, ← hqi, hqs]
    · obtain ⟨hq, i, hi, hqi⟩ := h.drawn q hq
      exact ⟨hq, i, lt_of_lt_of_le hi hdrawn, hqi⟩
  · intro q hq q' hq' hsame hseq
    rcases mem_cons.mp hq with hnewq | holdq
    · rcases mem_cons.mp hq' with hnewq' | holdq'
      · rw [hnewq, hnewq']
      · subst hnewq
        exact absurd (hnew q' holdq' hsame.symm) (by omega)
    · rcases mem_cons.mp hq' with hnewq' | holdq'
      · subst hnewq'
        exact absurd (hnew q holdq hsame) (by omega)
      · exact h.unique q holdq q' holdq' hsame hseq
  · intro q hq
    rcases mem_cons.mp hq with rfl | hq
    · cases hprev : s.sender.previous with
      | none =>
        refine .inl ⟨by simpa [hprev] using hsnapshot, ?_, by simpa [hprev, mapOf] using hdelta⟩
        rw [hsequence, hsender, PublicationState.startSession, hprev]
      | some m =>
      obtain ⟨q', hq', hqs, hqn, rfl⟩ := h.previous m hprev
      have hsame : sender = s.sender := by rw [hsender, PublicationState.startSession, hprev]
      refine .inr ⟨q', mem_cons_of_mem _ hq', by simpa [hprev] using hsnapshot, ?_, ?_, ?_⟩
      · rw [hsess, hsame, hqs]
      · rw [hsequence, hsame, hqn]
      · simpa [hprev, mapOf] using hdelta
    · exact (h.linked q hq).mono (fun q hq => mem_cons_of_mem _ hq)
  · intro m hm
    have hprev : s.sender.previous = some m := by rw [← hprevious]; exact hm
    obtain ⟨q, hq, hrest⟩ := h.previous m hprev
    have hsame : sender = s.sender := by rw [hsender, PublicationState.startSession, hprev]
    exact ⟨q, mem_cons_of_mem _ hq, by simpa only [hsame] using hrest⟩
  · intro q n hq
    obtain ⟨rfl, _⟩ := Prod.mk.inj (some.inj hq)
    exact ⟨mem_cons_self, hsess, hsequence⟩
  · intro _ q hq hqs
    rcases mem_cons.mp hq with rfl | hq
    · exact .inr ⟨0, rfl⟩
    · refine .inl ?_
      rw [← hsequence]
      exact hnew q hq (hqs.trans hsess.symm)
  · intro r hr
    obtain ⟨q, hq, hqr⟩ := h.wire r hr
    exact ⟨q, mem_cons_of_mem _ hq, hqr⟩
  · intro st hst
    obtain ⟨q, hq, hrest⟩ := h.stored st hst
    exact ⟨q, mem_cons_of_mem _ hq, hrest⟩

theorem Inv.reply (h : Inv X C newSessionID s) (r : Report Ω) (code : Nat) (now : Int) :
    Inv X C newSessionID (s.reply r code now) := by
  unfold System.reply
  cases hpend : s.pending with
  | none => exact h
  | some out =>
  obtain ⟨p, attempt⟩ := out
  dsimp only
  split
  · next hcond =>
    obtain ⟨rfl, hreply⟩ := hcond
    cases hres : sendEncoded code with
    | resync => exact h.abandon
    | failed => exact h.failAttempt hpend
    | delivered =>
    obtain ⟨hp, hsess, hsequence⟩ := h.pending p attempt hpend
    refine { h with previous := ?_, pending := ?_, behind := ?_, acknowledged := ?_ }
    · intro m hm
      refine ⟨p, hp, hsess, ?_, some.inj hm⟩
      rw [hsequence]
      rfl
    · intro q n hq
      cases hq
    · intro _ q hq hqs
      refine .inl ?_
      show q.report.sequence < s.sender.sequence + 1
      rcases h.behind (.inr (by rw [hpend]; rfl)) q hq hqs with hlt | ⟨n, hn⟩
      · omega
      · obtain ⟨rfl, _⟩ := Prod.mk.inj (some.inj (hpend.symm.trans hn))
        omega
    · intro r hr
      rcases mem_cons.mp hr with rfl | hr
      · exact h.replies _ code hreply hres
      · exact h.acknowledged r hr
  · exact h

theorem Inv.deliver (h : Inv X C newSessionID s) (r : Report Ω) (now : Int) (authorization : Authorization)
    (write : StatusWrite) : Inv X C newSessionID (s.deliver X r now authorization write) := by
  unfold System.deliver
  split
  · next hwire =>
    obtain ⟨p, hp, rfl⟩ := h.wire r hwire
    dsimp only
    rcases serveHTTP_cases X s.status p.report now authorization write with
      ⟨hstatus, hacc, hcode⟩ | ⟨st, hstatus, hacc, hadv, hst⟩
    · rw [hstatus, hacc]
      refine { h with replies := ?_ }
      intro r code hr hdeliv
      rcases mem_cons.mp hr with heq | hr
      · obtain ⟨rfl, rfl⟩ := Prod.mk.inj heq
        exact h.accepted_of_duplicate hp (hcode hdeliv)
      · exact h.replies r code hr hdeliv
    · rw [hstatus, hacc]
      refine { h with stored := ?_, written := ?_, replies := ?_, acknowledged := ?_ }
      · intro st' hst'
        obtain rfl := some.inj hst'
        exact ⟨p, hp, rfl, h.writtenFor hp hadv hst⟩
      · intro hnone
        cases hnone
      · intro r code hr hdeliv
        rcases mem_cons.mp hr with heq | hr
        · obtain ⟨rfl, _⟩ := Prod.mk.inj heq
          exact mem_cons_self
        · exact mem_cons_of_mem _ (h.replies r code hr hdeliv)
      · intro r hr
        exact mem_cons_of_mem _ (h.acknowledged r hr)
  · exact h

theorem Inv.step (hids : Function.Injective newSessionID) (h : Inv X C newSessionID s) (e : NetworkEvent Ω) :
    Inv X C newSessionID (s.step X C newSessionID e) := by
  cases e with
  | publish o => exact h.publish hids o
  | deliver r now authorization write => exact h.deliver r now authorization write
  | reply r code now => exact h.reply r code now
  | restart => exact h.abandon
  | attemptFailed =>
    simp only [System.step]
    split
    · exact h
    · next p n hpend => exact h.failAttempt hpend
  | transmit =>
  simp only [System.step]
  split
  · exact h
  · next p n hpend =>
    refine { h with wire := ?_ }
    intro r hr
    rcases mem_cons.mp hr with rfl | hr
    · exact ⟨p, (h.pending p n hpend).1, rfl⟩
    · exact h.wire r hr

theorem inv_run [Inhabited Ω] (hids : Function.Injective newSessionID) (es : List (NetworkEvent Ω)) :
    Inv X C newSessionID (run (System.step X C newSessionID) System.init es) :=
  run_invariant _ (fun _ e h => h.step hids e) es _ inv_init
end

/-! ### Exactness -/

section
variable [DecidableEq Ω] {X : Externals Ω} {C : Collector} {newSessionID : ℕ → String} {s : System Ω}

/-- An accepted report comes from a publication, and leaves the status written for it. -/
theorem Inv.accepts (h : Inv X C newSessionID s) {r : Report Ω} {now : Int} {authorization : Authorization}
    {write : StatusWrite} (haccept : s.accepts X r now authorization write = true) :
    ∃ p ∈ s.built, p.report = r ∧ Advances s.status r ∧
      ∃ st, (s.deliver X r now authorization write).status = some st ∧ WrittenFor X st p ∧
        st.retiredSessions = retiredSessions s.status r := by
  simp only [System.accepts, Bool.and_eq_true, decide_eq_true_eq] at haccept
  obtain ⟨hwire, hacc⟩ := haccept
  obtain ⟨p, hp, rfl⟩ := h.wire r hwire
  rcases serveHTTP_cases X s.status p.report now authorization write with
    ⟨_, hnot, _⟩ | ⟨st, hstatus, _, hadv, hst⟩
  · rw [hnot] at hacc
    cases hacc
  · refine ⟨p, hp, rfl, hadv, st, ?_, h.writtenFor hp hadv hst, ?_⟩
    · rw [System.deliver, if_pos hwire]
      exact hstatus
    · rw [buildBaseline_ok hst]

theorem Inv.redelivered (h : Inv X C newSessionID s) {r : Report Ω} (hlast : s.accepted.head? = some r)
    (now : Int) (authorization : Authorization) (write : StatusWrite) :
    (s.deliver X r now authorization write).status = s.status ∧
      (s.deliver X r now authorization write).accepted = s.accepted := by
  cases hstatus : s.status with
  | none =>
    rw [h.written hstatus] at hlast
    cases hlast
  | some st =>
  obtain ⟨p, _, hhead, hwrote⟩ := h.stored st hstatus
  have hr : p.report = r := some.inj (hhead.symm.trans hlast)
  subst hr
  have hdup : validateBaseline s.status p.report (X.digest p.report) = .ok true :=
    validateBaseline_ok_true.mpr
      ⟨st, hstatus, hwrote.uid, hwrote.session, hwrote.sequence, hwrote.digest⟩
  unfold System.deliver
  split
  · dsimp only
    rcases serveHTTP_cases X s.status p.report now authorization write with
      ⟨hsame, hacc, _⟩ | ⟨_, _, _, hadv, _⟩
    · rw [hsame, hacc, ← hstatus]
      exact ⟨rfl, rfl⟩
    · -- a duplicate does not advance the fence
      exact absurd hadv (not_advances_of_duplicate hdup)
  · exact ⟨hstatus, rfl⟩

/-- **Replication is exact**, under any behaviour of the network and of the watches. -/
theorem replication_exact [Inhabited Ω] (X : Externals Ω) (C : Collector) (newSessionID : ℕ → String)
    (hids : Function.Injective newSessionID) (es : List (NetworkEvent Ω)) :
    let s := run (System.step X C newSessionID) System.init es
    (∀ r now authorization write, s.accepts X r now authorization write = true →
      ∃ p ∈ s.built, p.report = r ∧
        (∀ q ∈ s.built, q.report.sessionID = r.sessionID → q.report.sequence = r.sequence → q = p) ∧
        ∃ st, (s.step X C newSessionID (.deliver r now authorization write)).status = some st ∧ Stores st p.current) ∧
    (∀ r now authorization write, s.accepted.head? = some r →
      (s.step X C newSessionID (.deliver r now authorization write)).status = s.status) ∧
    (∀ r ∈ s.acknowledged, r ∈ s.accepted) := by
  intro s
  have h : Inv X C newSessionID s := inv_run hids es
  refine ⟨?_, ?_, h.acknowledged⟩
  · intro r now authorization write haccepts
    obtain ⟨p, hp, hpr, _, st, hst, hwritten, _⟩ := h.accepts haccepts
    subst hpr
    exact ⟨p, hp, rfl, fun q hq => h.unique q hq p hp, st, hst, hwritten.stores⟩
  · intro r now authorization write hlast
    exact (h.redelivered hlast now authorization write).1
end

/-! ### A run with a snapshot and a delta -/

section

/-- Externals that accept every name, with the session and the number of applications as digest. -/
def sampleExternals : Externals Unit :=
  { isDNS1123Subdomain := fun _ => true, isDNS1123Label := fun _ => true, validateAggregates := fun _ => none,
    digest := fun r => r.sessionID ++ toString r.sequence ++ toString r.applications.length,
    stateBytes := fun st => st.applications.length }

def sampleCollector : Collector :=
  { clusterNamespace := "fleet", clusterName := "east", clusterUID := "kube-system-uid", displayName := "East",
    version := "v1", kubernetesVersion := "v1.33", managementPolicies := ["*"], autonomy := "Failover",
    heartbeatInterval := 30000000000 }

/-- The session identifiers `s`, `ss`, `sss`, … -/
def sampleSession (n : ℕ) : String := String.ofList (List.replicate (n + 1) 's')

theorem sampleSession_injective : Function.Injective sampleSession := by
  intro m n h
  have hlen := congrArg List.length (String.ofList_injective h)
  simp only [length_replicate] at hlen
  omega

def sampleApplication (health : String) : Application :=
  { inNamespace := "shop", name := "web", identity := "", project := "", health := health, phase := "",
    outOfSync := 0, syncKnown := false, resourceCount := 1, sourceRevision := "" }

def sampleObservation (health : String) : Observation Unit :=
  { current := ⟨ofValues Application.key [sampleApplication health], keyed_ofValues _ _⟩, aggregates := (),
    operatingState := "Connected", now := 5 }

def sampleSnapshot (i : ℕ) : Report Unit :=
  sampleCollector.report ⟨none, (), sampleSession i, 1, 0⟩ (sampleObservation "Healthy")
    [sampleApplication "Healthy"] []

/-- The delta that follows it when the application degrades. -/
def sampleDelta (i : ℕ) : Report Unit :=
  sampleCollector.report ⟨some (sampleObservation "Healthy").current, (), sampleSession i, 2, 5⟩
    (sampleObservation "Degraded") [sampleApplication "Degraded"] []

theorem replication_exact_of_delta :
    let s := run (System.step sampleExternals sampleCollector sampleSession) System.init
      [.publish (sampleObservation "Healthy"), .transmit, .deliver (sampleSnapshot 0) 6 .granted .applied,
       .reply (sampleSnapshot 0) 204 7, .publish (sampleObservation "Degraded"), .transmit]
    Function.Injective sampleSession ∧ s.accepts sampleExternals (sampleDelta 0) 8 .granted .applied = true ∧
      ∃ p ∈ s.built, p.report = sampleDelta 0 ∧
        ∃ st, (s.step sampleExternals sampleCollector sampleSession
          (.deliver (sampleDelta 0) 8 .granted .applied)).status = some st ∧ Stores st p.current := by
  intro s
  have haccepts : s.accepts sampleExternals (sampleDelta 0) 8 .granted .applied = true := by decide
  obtain ⟨p, hp, hreport, _, st, hst, hstores⟩ :=
    (replication_exact sampleExternals sampleCollector sampleSession sampleSession_injective _).1
      (sampleDelta 0) 8 .granted .applied haccepts
  exact ⟨sampleSession_injective, haccepts, p, hp, hreport, st, hst, hstores⟩
end

end Paprika.Satellite
