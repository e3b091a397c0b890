import Paprika.Satellite.Replication

/-!
# Acknowledgements on the satellite link

`LinkSender.Send` writes one update frame on the open stream and takes the next acknowledgement out of a channel of
capacity one that all streams of the sender share.  An acknowledgement carries a sequence number only.  A `Send` that
timed out leaves its update on the stream, and when the collector then opens a new session, whose first report has
sequence 1 again, the late acknowledgement of the old one is taken for it: `late_ack_confirms_other_session`.

* **`link_acknowledges_report`** — where no `Send` starts while an update or an acknowledgement of the same sequence
  and another session is still on the open stream or in the channel, `Send` returns nil only for reports the control
  plane accepted.
-/

namespace Paprika.Satellite

open Lib.Run List Option

variable {Ω : Type}

/-- `SatelliteAck`.  The session is that of the report the control plane answered: it is not part of the frame, and
no step reads it. -/
structure LinkAck where
  sequence : Nat
  resync : Bool
  session : String
  deriving DecidableEq, Repr

/-- The sender's end, the streams and the control plane.  `orphaned` are the updates of ended streams that the control plane
may still read; `accepted` and `delivered` are histories. -/
structure LinkState (Ω : Type) where
  waiting : Option (Report Ω)
  acks : Option LinkAck
  up : List (Report Ω)
  down : List LinkAck
  orphaned : List (Report Ω)
  status : Option SatelliteStatus
  accepted : List (String × Nat)
  delivered : List (Report Ω)

def LinkState.init : LinkState Ω :=
  { waiting := none, acks := none, up := [], down := [], orphaned := [], status := none, accepted := [],
    delivered := [] }

/-- What can happen next.  `sendBroken` is a `Send` whose stream write reports an error although the frame may have
left; `await` is the receiving branch of `awaitAck`, `giveUp` its other two; `disconnect` ends the open stream. -/
inductive LinkEvent (Ω : Type)
  | send (report : Report Ω)
  | sendBroken (report : Report Ω)
  | serve (now : Int) (authorization : Authorization) (write : StatusWrite)
  | serveOrphaned (now : Int) (authorization : Authorization) (write : StatusWrite)
  | receive
  | await
  | giveUp
  | disconnect

/-- `acceptUpdate`: the acknowledgement frame for the code of the accept path, if the stream goes on. -/
def acceptUpdate (r : Report Ω) (code : Nat) : Option LinkAck :=
  if code = 204 then some ⟨r.sequence, false, r.sessionID⟩
  else if code = 409 then some ⟨r.sequence, true, r.sessionID⟩
  else none

/-- What the control plane does with one update. -/
def LinkState.accept (X : Externals Ω) (s : LinkState Ω) (r : Report Ω) (now : Int) (authorization : Authorization)
    (write : StatusWrite) : LinkState Ω :=
  let served := serveHTTP X s.status r now authorization write
  { s with status := served.status,
           accepted := if served.accepted then (r.sessionID, r.sequence) :: s.accepted else s.accepted }

def LinkState.step (X : Externals Ω) (s : LinkState Ω) : LinkEvent Ω → LinkState Ω
  | .send r =>
    match s.waiting with
    | some _ => s
    | none => { s with waiting := some r, up := s.up ++ [r] }
  | .sendBroken r =>
    match s.waiting with
    | some _ => s
    | none => { s with up := s.up ++ [r] }
  | .serve now authorization write =>
    match s.up with
    | [] => s
    | r :: rest =>
      let ack := acceptUpdate r (serveHTTP X s.status r now authorization write).code
      { s.accept X r now authorization write with up := rest, down := s.down ++ ack.toList }
  | .serveOrphaned now authorization write =>
    match s.orphaned with
    | [] => s
    | r :: rest => { s.accept X r now authorization write with orphaned := rest }
  | .receive =>
    match s.down with
    | [] => s
    | ack :: rest =>
      match s.acks with
      | none => { s with acks := some ack, down := rest }
      | some _ => { s with down := rest }
  | .await =>
    match s.waiting, s.acks with
    | some r, some ack =>
      if ack.resync || ack.sequence ≠ r.sequence then { s with waiting := none, acks := none }
      else { s with waiting := none, acks := none, delivered := r :: s.delivered }
    | _, _ => s
  | .giveUp => { s with waiting := none }
  | .disconnect => { s with orphaned := s.orphaned ++ s.up, up := [], down := [] }

/-- The acknowledgements the sender may still take. -/
def LinkState.outstanding (s : LinkState Ω) : List LinkAck := s.acks.toList ++ s.down

/-- Whatever of the sequence of `r` is still on the open stream or in the channel is of the session of `r`. -/
def LinkState.Clear (s : LinkState Ω) (r : Report Ω) : Prop :=
  (∀ ack ∈ s.outstanding, ack.resync = false → ack.sequence = r.sequence → ack.session = r.sessionID) ∧
  (∀ q ∈ s.up, q.sequence = r.sequence → q.sessionID = r.sessionID)

instance (s : LinkState Ω) (r : Report Ω) : Decidable (s.Clear r) :=
  inferInstanceAs (Decidable
    ((∀ ack ∈ s.outstanding, ack.resync = false → ack.sequence = r.sequence → ack.session = r.sessionID) ∧
     (∀ q ∈ s.up, q.sequence = r.sequence → q.sessionID = r.sessionID)))

/-- A report is sent only when nothing of its sequence and another session is outstanding. -/
def SendsWhenClear (s : LinkState Ω) : LinkEvent Ω → Prop
  | .send r => s.Clear r
  | _ => True

instance (s : LinkState Ω) (e : LinkEvent Ω) : Decidable (SendsWhenClear s e) :=
  match e with
  | .send r => inferInstanceAs (Decidable (s.Clear r))
  | .sendBroken _ | .serve .. | .serveOrphaned .. | .receive | .await | .giveUp | .disconnect => .isTrue trivial

/-! ### The invariant -/

section
variable {X : Externals Ω} {s : LinkState Ω}

/-- What every state of a guarded run satisfies. -/
structure LinkInv (s : LinkState Ω) : Prop where
  fence : ∀ st, s.status = some st → (st.sessionID, st.sequence) ∈ s.accepted
  answered : ∀ ack ∈ s.outstanding, ack.resync = false → (ack.session, ack.sequence) ∈ s.accepted
  clear : ∀ r, s.waiting = some r → s.Clear r
  delivered : ∀ r ∈ s.delivered, (r.sessionID, r.sequence) ∈ s.accepted

theorem linkInv_init : LinkInv (LinkState.init : LinkState Ω) where
  fence _ h := by simp [LinkState.init] at h
  answered _ h := by simp [LinkState.init, LinkState.outstanding] at h
  clear _ h := by simp [LinkState.init] at h
  delivered _ h := by simp [LinkState.init] at h

/-- One update at the control plane: the accepted reports grow, the fence is accepted, and a plain acknowledgement is
given to an accepted report. -/
theorem accept_spec (X : Externals Ω) {s : LinkState Ω}
    (hfence : ∀ st, s.status = some st → (st.sessionID, st.sequence) ∈ s.accepted) (r : Report Ω) (now : Int)
    (authorization : Authorization) (write : StatusWrite) :
    let s' := s.accept X r now authorization write
    (∀ x ∈ s.accepted, x ∈ s'.accepted) ∧
    (∀ st, s'.status = some st → (st.sessionID, st.sequence) ∈ s'.accepted) ∧
    ((serveHTTP X s.status r now authorization write).code = 204 → (r.sessionID, r.sequence) ∈ s'.accepted) := by
  intro s'
  rcases serveHTTP_cases X s.status r now authorization write with
    ⟨hstatus, hacc, hcode⟩ | ⟨st, hstatus, hacc, _, hst⟩
  · simp only [s', LinkState.accept, hstatus, hacc]
    refine ⟨fun x hx => hx, hfence, ?_⟩
    intro h204
    obtain ⟨o, hold, _, hsess, hsequence, _⟩ := validateBaseline_ok_true.mp (hcode (by rw [h204]; rfl))
    rw [← hsess, ← hsequence]
    exact hfence o hold
  simp only [s', LinkState.accept, hstatus, hacc, if_true]
  refine ⟨fun x hx => mem_cons_of_mem _ hx, ?_, fun _ => mem_cons_self⟩
  intro st' hst'
  obtain rfl := some.inj hst'
  rw [buildBaseline_ok hst]
  exact mem_cons_self

theorem LinkInv.serve (h : LinkInv s) {r : Report Ω} {rest : List (Report Ω)} (hup : s.up = r :: rest) (now : Int)
    (authorization : Authorization) (write : StatusWrite) :
    LinkInv { s.accept X r now authorization write with
      up := rest,
      down := s.down ++ (acceptUpdate r (serveHTTP X s.status r now authorization write).code).toList } := by
  obtain ⟨hgrow, hfence, hacked⟩ := accept_spec X h.fence r now authorization write
  -- the new acknowledgement, if any, is for `r`
  have hnew : ∀ ack, acceptUpdate r (serveHTTP X s.status r now authorization write).code = some ack →
      ack.session = r.sessionID ∧ ack.sequence = r.sequence ∧
        (ack.resync = false → (r.sessionID, r.sequence) ∈ (s.accept X r now authorization write).accepted) := by
    intro ack hack
    unfold acceptUpdate at hack
    split at hack
    · next hcode =>
      obtain rfl := some.inj hack
      exact ⟨rfl, rfl, fun _ => hacked hcode⟩
    · split at hack
      · obtain rfl := some.inj hack
        exact ⟨rfl, rfl, fun hfalse => by cases hfalse⟩
      · cases hack
  have houtstanding : ∀ ack, ack ∈ LinkState.outstanding { s.accept X r now authorization write with
      up := rest,
      down := s.down ++ (acceptUpdate r (serveHTTP X s.status r now authorization write).code).toList } →
      ack ∈ s.outstanding ∨ acceptUpdate r (serveHTTP X s.status r now authorization write).code = some ack := by
    intro ack hack
    simp only [LinkState.outstanding, LinkState.accept, mem_append, mem_toList] at hack ⊢
    tauto
  refine ⟨hfence, ?_, ?_, fun q hq => hgrow _ (h.delivered q hq)⟩
  · intro ack hack hresync
    rcases houtstanding ack hack with hold | hack
    · exact hgrow _ (h.answered ack hold hresync)
    · obtain ⟨hsess, hsequence, hacc⟩ := hnew ack hack
      rw [hsess, hsequence]
      exact hacc hresync
  intro q hq
  obtain ⟨hacks, hqueue⟩ := h.clear q hq
  refine ⟨?_, ?_⟩
  · intro ack hack hresync hsequence
    rcases houtstanding ack hack with hold | hack
    · exact hacks ack hold hresync hsequence
    · obtain ⟨hsess, hseq, _⟩ := hnew ack hack
      rw [hsess]
      exact hqueue r (by rw [hup]; exact mem_cons_self) (hseq.symm.trans hsequence)
  · intro q' hq'
    exact hqueue q' (by rw [hup]; exact mem_cons_of_mem _ hq')

theorem LinkInv.of_fewer {s' : LinkState Ω} (h : LinkInv s) (hstatus : s'.status = s.status)
    (hacc : s'.accepted = s.accepted) (hdeliv : s'.delivered = s.delivered)
    (houtstanding : ∀ ack ∈ s'.outstanding, ack ∈ s.outstanding)
    (hup : ∀ q ∈ s'.up, q ∈ s.up) (hwait : ∀ r, s'.waiting = some r → s.waiting = some r) : LinkInv s' := by
  refine ⟨?_, ?_, ?_, ?_⟩
  · rw [hstatus, hacc]
    exact h.fence
  · intro ack hack hresync
    rw [hacc]
    exact h.answered ack (houtstanding ack hack) hresync
  · intro r hr
    obtain ⟨hacks, hqueue⟩ := h.clear r (hwait r hr)
    exact ⟨fun ack hack => hacks ack (houtstanding ack hack), fun q hq => hqueue q (hup q hq)⟩
  · rw [hdeliv, hacc]
    exact h.delivered

theorem LinkInv.step (h : LinkInv s) (e : LinkEvent Ω) (hclear : SendsWhenClear s e) : LinkInv (s.step X e) := by
  cases e with
  | send r =>
    simp only [LinkState.step]
    split
    · exact h
    refine ⟨h.fence, h.answered, ?_, h.delivered⟩
    intro q hq
    obtain rfl : r = q := some.inj hq
    refine ⟨hclear.1, ?_⟩
    intro q hq hsequence
    rcases mem_append.mp hq with hq | hq
    · exact hclear.2 q hq hsequence
    · rw [mem_singleton.mp hq]
  | sendBroken r =>
    simp only [LinkState.step]
    split
    · exact h
    · next hwait =>
      refine ⟨h.fence, h.answered, ?_, h.delivered⟩
      intro q hq
      rw [show s.waiting = none from hwait] at hq
      cases hq
  | serve now authorization write =>
    simp only [LinkState.step]
    split
    · exact h
    · next r rest hup => exact h.serve hup now authorization write
  | serveOrphaned now authorization write =>
    simp only [LinkState.step]
    split
    · exact h
    · next r rest _ =>
      obtain ⟨hgrow, hfence, _⟩ := accept_spec X h.fence r now authorization write
      exact ⟨hfence, fun ack hack hresync => hgrow _ (h.answered ack hack hresync), h.clear,
        fun q hq => hgrow _ (h.delivered q hq)⟩
  | receive =>
    simp only [LinkState.step]
    split
    · exact h
    · next ack rest hdown =>
      split
      · next hacks =>
        refine h.of_fewer rfl rfl rfl ?_ (fun q hq => hq) (fun r hr => hr)
        intro a ha
        simpa [LinkState.outstanding, hacks, hdown] using ha
      · next old hacks =>
        refine h.of_fewer rfl rfl rfl ?_ (fun q hq => hq) (fun r hr => hr)
        intro a ha
        simp only [LinkState.outstanding, mem_append, hdown, mem_cons] at ha ⊢
        tauto
  | await =>
    simp only [LinkState.step]
    split
    · next r ack hwait hacks =>
      have hfewer : ∀ a, a ∈ s.down → a ∈ s.outstanding := fun a ha => mem_append_right _ ha
      split
      · refine h.of_fewer rfl rfl rfl ?_ (fun q hq => hq) (fun q hq => by cases hq)
        intro a ha
        exact hfewer a (by simpa [LinkState.outstanding] using ha)
      · next hmatch =>
        simp only [Bool.or_eq_true, decide_eq_true_eq, not_or, Bool.not_eq_true, not_not] at hmatch
        have hack : ack ∈ s.outstanding := mem_append_left _ (by rw [hacks]; simp)
        refine ⟨h.fence, ?_, fun q hq => (by cases hq), ?_⟩
        · intro a ha
          exact h.answered a (hfewer a (by simpa [LinkState.outstanding] using ha))
        intro q hq
        rcases mem_cons.mp hq with rfl | hq
        · -- the acknowledgement taken is of the session of the waiting report
          have hsess := (h.clear q hwait).1 ack hack hmatch.1 hmatch.2
          rw [← hsess, ← hmatch.2]
          exact h.answered ack hack hmatch.1
        · exact h.delivered q hq
    · exact h
  | giveUp => exact h.of_fewer rfl rfl rfl (fun _ ha => ha) (fun _ hq => hq) (fun _ hr => by cases hr)
  | disconnect =>
    refine h.of_fewer rfl rfl rfl ?_ ?_ (fun _ hr => hr)
    · intro a ha
      simp only [LinkState.step, LinkState.outstanding, append_nil] at ha
      exact mem_append_left _ ha
    · intro q hq
      simp [LinkState.step] at hq
end

/-- **A nil `Send` means the report was accepted**, in every run in which no `Send` starts while something of its
sequence and another session is still outstanding. -/
theorem link_acknowledges_report (X : Externals Ω) (es : List (LinkEvent Ω))
    (h : Guarded (LinkState.step X) SendsWhenClear .init es) :
    ∀ r ∈ (run (LinkState.step X) .init es).delivered,
      (r.sessionID, r.sequence) ∈ (run (LinkState.step X) .init es).accepted := by
  have hinv : LinkInv (run (LinkState.step X) .init es) :=
    guarded_invariant (motive := LinkInv) (fun s e hs he => hs.step e he) linkInv_init h
  exact hinv.delivered

/-- A snapshot whose first acknowledgement is lost in a disconnect is sent again and confirmed. -/
theorem link_acknowledges_report_of_resend :
    let es : List (LinkEvent Unit) := [.send (sampleSnapshot 0), .serve 6 .granted .applied, .disconnect, .giveUp,
      .send (sampleSnapshot 0), .serve 7 .granted .applied, .receive, .await]
    Guarded (LinkState.step sampleExternals) SendsWhenClear .init es ∧
      (run (LinkState.step sampleExternals) .init es).delivered = [sampleSnapshot 0] ∧
      (sampleSession 0, 1) ∈ (run (LinkState.step sampleExternals) .init es).accepted := by
  intro es
  have hclear : Guarded (LinkState.step sampleExternals) SendsWhenClear .init es := by decide
  have hdelivered : (run (LinkState.step sampleExternals) .init es).delivered = [sampleSnapshot 0] := by decide
  refine ⟨hclear, hdelivered, ?_⟩
  exact link_acknowledges_report sampleExternals es hclear (sampleSnapshot 0)
    (by rw [hdelivered]; exact mem_singleton_self _)

/-- Three attempts at the snapshot of session `0` time out, the collector opens session `1` on the same stream, and
the late acknowledgement of session `0` confirms its snapshot. -/
theorem late_ack_confirms_other_session :
    ¬∀ (es : List (LinkEvent Unit)), ∀ r ∈ (run (LinkState.step sampleExternals) .init es).delivered,
      (r.sessionID, r.sequence) ∈ (run (LinkState.step sampleExternals) .init es).accepted := by
  intro h
  have hwrong := h [.send (sampleSnapshot 0), .giveUp, .send (sampleSnapshot 0), .giveUp, .send (sampleSnapshot 0),
    .giveUp, .send (sampleSnapshot 1), .serve 6 .granted .applied, .receive, .await] (sampleSnapshot 1) (by decide)
  revert hwrong
  decide

end Paprika.Satellite
