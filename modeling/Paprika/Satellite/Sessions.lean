import Paprika.Satellite.Replication

/-!
# Superseded reporting sessions

The handler recognises a superseded session by `RetiredSessions`, which records a session when the handler replaces
it and keeps the last sixteen.  Two kinds of earlier session are therefore unknown to it: one whose opening snapshot
never arrived before a later session was accepted, and one that was replaced more than sixteen replacements ago.  The
opening snapshot of either is accepted (`delayed_snapshot_revives_session`).

* **`superseded_session_refused`** — the list is exactly the last sixteen replaced sessions; a session the handler
  replaced is refused until sixteen more have been replaced, and any other change of session is by the opening
  snapshot of a session outside the list.
-/

namespace Paprika.Satellite

open Lib.Run List Option

variable {Ω : Type}

/-- The sessions the handler replaced, in order, from the history of accepted reports (newest first). -/
def replacedSessions : List (Report Ω) → List String
  | [] => []
  | [_] => []
  | r :: r' :: rest =>
    if r'.sessionID ≠ r.sessionID then replacedSessions (r' :: rest) ++ [r'.sessionID]
    else replacedSessions (r' :: rest)

theorem keepLast_keepLast_append (n : Nat) (l : List String) (x : String) :
    keepLast n (keepLast n l ++ [x]) = keepLast n (l ++ [x]) := by
  unfold keepLast
  by_cases hlen : l.length ≤ n
  · rw [Nat.sub_eq_zero_of_le hlen, drop_zero]
  have hlong : n < l.length := Nat.lt_of_not_le hlen
  have hkept : (l.drop (l.length - n) ++ [x]).length - n = 1 := by
    simp only [length_append, length_drop, length_singleton]
    omega
  rw [hkept, length_append, length_singleton]
  cases n with
  | zero => simp
  | succ n =>
  rw [drop_append_of_le_length (by rw [length_drop]; omega),
    drop_append_of_le_length (by omega), drop_drop]
  congr 2
  omega

theorem mem_keepLast {n : Nat} {pre post : List String} {x : String} (h : post.length < n) :
    x ∈ keepLast n (pre ++ x :: post) := by
  unfold keepLast
  rw [drop_append_of_le_length (by simp only [length_append, length_cons]; omega)]
  exact mem_append_right _ mem_cons_self

theorem replacedSessions_cons (r : Report Ω) (accepted : List (Report Ω)) :
    ∃ post, replacedSessions (r :: accepted) = replacedSessions accepted ++ post := by
  cases accepted with
  | nil => exact ⟨[], rfl⟩
  | cons r' rest =>
  rw [replacedSessions]
  split
  · exact ⟨[r'.sessionID], rfl⟩
  · exact ⟨[], (append_nil _).symm⟩

section
variable {X : Externals Ω} {C : Collector} {newSessionID : ℕ → String} {s : System Ω}

def FenceOf (s : System Ω) : Prop :=
  ∀ st, s.status = some st → st.retiredSessions = keepLast 16 (replacedSessions s.accepted)

theorem retiredSessions_eq (h : Inv X C newSessionID s) (hfence : FenceOf s) (r : Report Ω) :
    retiredSessions s.status r = keepLast 16 (replacedSessions (r :: s.accepted)) := by
  cases hstatus : s.status with
  | none =>
    rw [h.written hstatus]
    rfl
  | some st =>
  obtain ⟨p, _, hhead, hwrote⟩ := h.stored st hstatus
  cases hacc : s.accepted with
  | nil =>
    rw [hacc] at hhead
    cases hhead
  | cons r' rest =>
  rw [hacc] at hhead
  have hr' : r' = p.report := some.inj hhead
  have hretired := hfence st hstatus
  rw [hacc] at hretired
  rw [retiredSessions, replacedSessions, hwrote.session, hr']
  rw [← hr']
  by_cases hsame : r'.sessionID = r.sessionID
  · simp [hsame, hretired]
  · simp only [bne_iff_ne, ne_eq, hsame, not_false_eq_true, if_true, hretired]
    exact keepLast_keepLast_append 16 _ _

variable [DecidableEq Ω]

theorem step_receiver (X : Externals Ω) (C : Collector) (newSessionID : ℕ → String) (s : System Ω)
    (e : NetworkEvent Ω) :
    ((s.step X C newSessionID e).status = s.status ∧ (s.step X C newSessionID e).accepted = s.accepted) ∨
    ∃ r now authorization write, e = .deliver r now authorization write ∧ s.accepts X r now authorization write = true ∧
      (s.step X C newSessionID e).accepted = r :: s.accepted := by
  have hfail : ∀ (p : Publication Ω) (n : Nat),
      (s.failAttempt p n).status = s.status ∧ (s.failAttempt p n).accepted = s.accepted := by
    intro p n
    unfold System.failAttempt
    split <;> exact ⟨rfl, rfl⟩
  cases e with
  | publish o =>
    refine .inl ?_
    show (s.publish C newSessionID o).status = s.status ∧ (s.publish C newSessionID o).accepted = s.accepted
    rcases publish_cases C newSessionID s o with heq | heq | ⟨sender, p, _, _, heq⟩
    · rw [heq]
      exact ⟨rfl, rfl⟩
    · rw [heq]
      exact ⟨rfl, rfl⟩
    · rw [heq]
      exact ⟨rfl, rfl⟩
  | transmit =>
    refine .inl ?_
    simp only [System.step]
    split <;> exact ⟨rfl, rfl⟩
  | reply r code now =>
    refine .inl ?_
    simp only [System.step, System.reply]
    split
    · exact ⟨rfl, rfl⟩
    split
    · split
      · exact ⟨rfl, rfl⟩
      · exact ⟨rfl, rfl⟩
      · exact hfail _ _
    · exact ⟨rfl, rfl⟩
  | attemptFailed =>
    refine .inl ?_
    simp only [System.step]
    split
    · exact ⟨rfl, rfl⟩
    · exact hfail _ _
  | restart => exact .inl ⟨rfl, rfl⟩
  | deliver r now authorization write =>
    simp only [System.step, System.deliver]
    split
    · next hwire =>
      rcases serveHTTP_cases X s.status r now authorization write with
        ⟨hstatus, hacc, _⟩ | ⟨st, _, hacc, _⟩
      · rw [hstatus, hacc]
        exact .inl ⟨rfl, rfl⟩
      · rw [hacc]
        refine .inr ⟨r, now, authorization, write, rfl, ?_, rfl⟩
        simp [System.accepts, hwire, hacc]
    · exact .inl ⟨rfl, rfl⟩

theorem FenceOf.step (h : Inv X C newSessionID s) (hfence : FenceOf s) (e : NetworkEvent Ω) :
    FenceOf (s.step X C newSessionID e) := by
  rcases step_receiver X C newSessionID s e with ⟨hstatus, hacc⟩ | ⟨r, now, authorization, write, rfl, haccept, hgrow⟩
  · intro st hst
    rw [hacc]
    exact hfence st (hstatus ▸ hst)
  intro st hst
  obtain ⟨_, _, _, _, st', hst', _, hretired⟩ := h.accepts haccept
  obtain rfl : st' = st := some.inj (hst'.symm.trans hst)
  rw [hretired, hgrow]
  exact retiredSessions_eq h hfence r

theorem fenced_run [Inhabited Ω] (hids : Function.Injective newSessionID) (es : List (NetworkEvent Ω)) :
    Inv X C newSessionID (run (System.step X C newSessionID) System.init es) ∧
      FenceOf (run (System.step X C newSessionID) System.init es) := by
  refine run_invariant _ (motive := fun s => Inv X C newSessionID s ∧ FenceOf s) ?_ es _ ⟨inv_init, ?_⟩
  · intro s e h
    exact ⟨h.1.step hids e, h.2.step h.1 e⟩
  · intro st hst
    cases hst

/-- A report that changes the session is the opening snapshot of a session that is not retired. -/
theorem accepts_of_other_session (h : Inv X C newSessionID s) (hfence : FenceOf s) {r last : Report Ω} {now : Int}
    {authorization : Authorization} {write : StatusWrite}
    (haccept : s.accepts X r now authorization write = true) (hlast : s.accepted.head? = some last)
    (hother : last.sessionID ≠ r.sessionID) :
    r.snapshot = true ∧ r.sequence = 1 ∧ r.sessionID ∉ keepLast 16 (replacedSessions s.accepted) := by
  obtain ⟨_, _, _, hadv, _⟩ := h.accepts haccept
  have hcur : ∀ st, s.status = some st → st.sessionID = last.sessionID := by
    intro st hst
    obtain ⟨p, _, hhead, hwrote⟩ := h.stored st hst
    obtain rfl : p.report = last := some.inj (hhead.symm.trans hlast)
    exact hwrote.session
  cases hadv with
  | first hnone =>
    rw [h.written hnone] at hlast
    cases hlast
  | next o hold hsess => exact absurd ((hcur o hold).symm.trans hsess) hother
  | replaced o hold _ hretired hsnap hseq =>
    rw [hfence o hold] at hretired
    exact ⟨hsnap, hseq, hretired⟩

/-- The session was the entry after `pre` among the replaced ones, and the handler has not gone back to it as long
as fewer than sixteen replacements followed. -/
def RetiredAfter (session : String) (before : List String) (s : System Ω) : Prop :=
  ∃ post, replacedSessions s.accepted = before ++ session :: post ∧
    (post.length < 16 → ∀ last, s.accepted.head? = some last → last.sessionID ≠ session)

theorem not_accepts_of_retiredAfter (h : Inv X C newSessionID s) (hfence : FenceOf s) {session : String}
    {before post : List String} (hrepl : replacedSessions s.accepted = before ++ session :: post)
    (hnot : ∀ last, s.accepted.head? = some last → last.sessionID ≠ session) (hfew : post.length < 16)
    {r : Report Ω} {now : Int} {authorization : Authorization} {write : StatusWrite}
    (hr : r.sessionID = session) : s.accepts X r now authorization write ≠ true := by
  intro haccept
  cases hacc : s.accepted with
  | nil =>
    rw [hacc] at hrepl
    simp [replacedSessions] at hrepl
  | cons last rest =>
  have hlast : s.accepted.head? = some last := by rw [hacc]; rfl
  obtain ⟨_, _, hmem⟩ := accepts_of_other_session h hfence haccept hlast (by rw [hr]; exact hnot last hlast)
  rw [hrepl, hr] at hmem
  exact hmem (mem_keepLast hfew)

theorem RetiredAfter.step (h : Inv X C newSessionID s) (hfence : FenceOf s) {session : String}
    {before : List String} (hretired : RetiredAfter session before s) (e : NetworkEvent Ω) :
    RetiredAfter session before (s.step X C newSessionID e) := by
  obtain ⟨post, hrepl, hnot⟩ := hretired
  rcases step_receiver X C newSessionID s e with ⟨_, hacc⟩ | ⟨r, now, authorization, write, rfl, haccept, hgrow⟩
  · rw [← hacc] at hrepl hnot
    exact ⟨post, hrepl, hnot⟩
  obtain ⟨more, hmore⟩ := replacedSessions_cons r s.accepted
  refine ⟨post ++ more, ?_, ?_⟩
  · rw [hgrow, hmore, hrepl]
    simp
  intro hfew last hlast hsess
  rw [hgrow] at hlast
  obtain rfl : r = last := some.inj hlast
  have hpost : post.length < 16 := by
    rw [length_append] at hfew
    omega
  exact not_accepts_of_retiredAfter h hfence hrepl (hnot hpost) hpost hsess haccept
end

/-- **A replaced session is refused until sixteen more have been replaced.** -/
theorem superseded_session_refused [DecidableEq Ω] [Inhabited Ω] (X : Externals Ω) (C : Collector)
    (newSessionID : ℕ → String) (hids : Function.Injective newSessionID) (es fs : List (NetworkEvent Ω)) :
    let s := run (System.step X C newSessionID) System.init es
    let s' := run (System.step X C newSessionID) s fs
    (∀ r last now authorization write, s.accepts X r now authorization write = true →
      s.accepted.head? = some last → last.sessionID ≠ r.sessionID →
      r.snapshot = true ∧ r.sequence = 1 ∧ r.sessionID ∉ keepLast 16 (replacedSessions s.accepted)) ∧
    (∀ newer older rest, s.accepted = newer :: older :: rest → older.sessionID ≠ newer.sessionID →
      (replacedSessions s'.accepted).length < (replacedSessions s.accepted).length + 16 →
      ∀ r now authorization write, r.sessionID = older.sessionID → s'.accepts X r now authorization write = false) := by
  intro s s'
  obtain ⟨h, hfence⟩ : Inv X C newSessionID s ∧ FenceOf s := fenced_run hids es
  refine ⟨fun r last now authorization write => accepts_of_other_session h hfence, ?_⟩
  intro newer older rest haccepted hother hcount r now authorization write hr
  have hstart : RetiredAfter older.sessionID (replacedSessions (older :: rest)) s := by
    refine ⟨[], ?_, ?_⟩
    · rw [haccepted, replacedSessions, if_pos hother]
    · intro _ last hlast
      rw [haccepted] at hlast
      obtain rfl : newer = last := some.inj hlast
      exact hother.symm
  obtain ⟨⟨h', hfence'⟩, post, hreplaced, hnot⟩ :=
    run_invariant (System.step X C newSessionID)
      (motive := fun t => (Inv X C newSessionID t ∧ FenceOf t) ∧
        RetiredAfter older.sessionID (replacedSessions (older :: rest)) t)
      (fun t e ht => ⟨⟨ht.1.1.step hids e, ht.1.2.step ht.1.1 e⟩, ht.2.step ht.1.1 ht.1.2 e⟩)
      fs s ⟨⟨h, hfence⟩, hstart⟩
  have hlen : (replacedSessions s.accepted).length = (replacedSessions (older :: rest)).length + 1 := by
    rw [haccepted, replacedSessions, if_pos hother, length_append, length_singleton]
  have hfew : post.length < 16 := by
    have hlen' : (replacedSessions s'.accepted).length = _ := congrArg List.length hreplaced
    rw [length_append, length_cons] at hlen'
    omega
  exact Bool.eq_false_iff.mpr (not_accepts_of_retiredAfter h' hfence' hreplaced (hnot hfew) hfew hr)

/-- After the handler went from one session to the next, the old snapshot is refused. -/
theorem superseded_session_refused_of_next :
    let s := run (System.step sampleExternals sampleCollector sampleSession) System.init
      [.publish (sampleObservation "Healthy"), .transmit, .deliver (sampleSnapshot 0) 6 .granted .applied, .restart,
       .publish (sampleObservation "Healthy"), .transmit, .deliver (sampleSnapshot 1) 7 .granted .applied]
    Function.Injective sampleSession ∧ s.accepted = [sampleSnapshot 1, sampleSnapshot 0] ∧
      s.accepts sampleExternals (sampleSnapshot 0) 8 .granted .applied = false := by
  intro s
  have haccepted : s.accepted = [sampleSnapshot 1, sampleSnapshot 0] := by decide
  exact ⟨sampleSession_injective, haccepted,
    (superseded_session_refused sampleExternals sampleCollector sampleSession sampleSession_injective _ []).2
      (sampleSnapshot 1) (sampleSnapshot 0) [] haccepted (by decide) (by simp) (sampleSnapshot 0) 8 .granted
      .applied rfl⟩

/-- A session whose opening snapshot was delayed past the first report of a later session is accepted after it. -/
theorem delayed_snapshot_revives_session : ¬∀ (es : List (NetworkEvent Unit)) (i j : ℕ), i < j →
      let s := run (System.step sampleExternals sampleCollector sampleSession) System.init es
      (∃ q ∈ s.accepted, q.sessionID = sampleSession j) →
      ∀ r now authorization write, r.sessionID = sampleSession i →
        s.accepts sampleExternals r now authorization write = false := by
  intro h
  have hdead := h
    [.publish (sampleObservation "Healthy"), .transmit, .attemptFailed, .attemptFailed, .attemptFailed,
     .publish (sampleObservation "Healthy"), .transmit, .deliver (sampleSnapshot 1) 7 .granted .applied]
    0 1 (by decide) ⟨sampleSnapshot 1, by decide, rfl⟩ (sampleSnapshot 0) 8 .granted .applied rfl
  revert hdead
  decide

end Paprika.Satellite
