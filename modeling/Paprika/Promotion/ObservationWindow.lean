import Paprika.Promotion.Effects

/-!
# Promotion: the observation window

A candidate that the verification leaves ready has been observed for as long as every duration gate asks, and nothing
has come in between: since the observation started, every look at the upstream found it ready with the same identity,
and every verification was one for the same specification.

Status writes succeed here, since it is the status of a wait that ends an observation; what is written with a fence may
still be refused.  The relation between the copy and the store has two parts: what the candidate of either says about
its own observation (`Watched`), and that the two candidates are of one kind (`Agrees`), for what is noted is noted
about the copy and has to be harmless for the store.  Between a finding about the upstream and the status that records
it neither holds, and nothing may be written in between.
-/

namespace Paprika.Promotion

open Lib.Process Lib.Run Sample

variable {Ω H : Type}

/-- What does not disturb an observation. -/
def Undisturbed (source : SourceKey) (configHash : Option H) : Fact Ω H → Prop
  | .interrupted | .rejected => False
  | .sourceReady found => found = source
  | .verifying found => configHash = some found
  | _ => True

/-- Nothing has disturbed the observation that started at `t`. -/
def Uninterrupted (source : SourceKey) (configHash : Option H) (t : Int) (log : List (Fact Ω H)) : Prop :=
  ∃ since older, log = since ++ .stamped t :: older ∧ ∀ fact ∈ since, Undisturbed source configHash fact

/-- A candidate is left ready only after an observation that nothing has disturbed. -/
def LeavesObserved : Fact Ω H → List (Fact Ω H) → Prop
  | .left c spec now, older =>
    Elapsed spec c.verificationStartedAt now ∧
      ∀ t, c.verificationStartedAt = some t → Uninterrupted c.source c.verificationConfigHash t older
  | _, _ => True

/-- What a status says about the observation of its candidate. -/
structure Watched (hash : Spec Ω → H) (log : List (Fact Ω H)) (now : Int) (ready : Option Bool) (c : Candidate Ω H) :
    Prop where
  unset : c.verificationConfigHash = none → c.verificationStartedAt = none
  window : c.Observing → ∀ t, c.verificationStartedAt = some t → Uninterrupted c.source c.verificationConfigHash t log
  elapsed : c.phase = .awaitingApproval ∨ c.phase = .ready ∧ ready = some true →
    ∃ spec, c.verificationConfigHash = some (hash spec) ∧ Elapsed spec c.verificationStartedAt now

section
variable {hash : Spec Ω → H} {log : List (Fact Ω H)} {now now' : Int} {ready ready' : Option Bool}
  {c c' : Candidate Ω H} {source : SourceKey} {configHash : Option H} {fact : Fact Ω H} {t : Int}

theorem Uninterrupted.cons (h : Uninterrupted source configHash t log) (hfact : Undisturbed source configHash fact) :
    Uninterrupted source configHash t (fact :: log) := by
  obtain ⟨since, older, rfl, hsince⟩ := h
  refine ⟨fact :: since, older, rfl, ?_⟩
  intro f hf
  rcases List.mem_cons.mp hf with rfl | hf
  · exact hfact
  · exact hsince f hf

theorem Elapsed.of_none {spec : Spec Ω} (h : Elapsed spec none now) (startedAt : Option Int) :
    Elapsed spec startedAt now := by
  intro gate hgate htype
  obtain ⟨t, ht, -⟩ := h gate hgate htype
  cases ht

theorem Watched.later (h : Watched hash log now ready c) (hle : now ≤ now') : Watched hash log now' ready c where
  unset := h.unset
  window := h.window
  elapsed hphase := by
    obtain ⟨spec, hhash, helapsed⟩ := h.elapsed hphase
    exact ⟨spec, hhash, helapsed.later hle⟩

theorem Watched.cons (h : Watched hash log now ready c)
    (hfact : ∀ t, c.verificationStartedAt = some t → Undisturbed c.source c.verificationConfigHash fact) :
    Watched hash (fact :: log) now ready c where
  unset := h.unset
  window hobs t ht := (h.window hobs t ht).cons (hfact t ht)
  elapsed := h.elapsed

theorem Watched.fresh (hstart : c.verificationStartedAt = none) (hverif : c.phase = .verifying) :
    Watched hash log now ready c where
  unset _ := hstart
  window _ t ht := by
    rw [hstart] at ht
    cases ht
  elapsed h := by
    rw [hverif] at h
    rcases h with h | ⟨h, -⟩ <;> cases h

theorem Watched.retired (hunset : c.verificationConfigHash = none → c.verificationStartedAt = none)
    (hphase : c.phase = .failed ∨ c.phase = .promoting ∨ c.phase = .complete) : Watched hash log now ready c where
  unset := hunset
  window hobs := by
    rcases hphase with h | h | h <;> rcases hobs with h' | h' | h' <;> rw [h] at h' <;> cases h'
  elapsed helapsed := by
    rcases hphase with h | h | h <;> rcases helapsed with h' | ⟨h', -⟩ <;> rw [h] at h' <;> cases h'

theorem Watched.continue (h : Watched hash log now ready c) (hobs : c.Observing) (hsrc : c'.source = c.source)
    (hhash : c'.verificationConfigHash = c.verificationConfigHash)
    (hstart : c'.verificationStartedAt = c.verificationStartedAt)
    (helapsed : c'.phase = .awaitingApproval ∨ c'.phase = .ready ∧ ready' = some true →
      ∃ spec, c.verificationConfigHash = some (hash spec) ∧ Elapsed spec c.verificationStartedAt now) :
    Watched hash log now ready' c' where
  unset := by
    rw [hhash, hstart]
    exact h.unset
  window _ := by
    rw [hsrc, hhash, hstart]
    exact h.window hobs
  elapsed := by
    rw [hhash, hstart]
    exact helapsed

theorem Watched.amend (h : Watched hash log now ready c) (hamends : c.Amends c') : Watched hash log now ready c' where
  unset := by
    rw [hamends.configHash, hamends.startedAt]
    exact h.unset
  window := by
    unfold Candidate.Observing
    rw [hamends.phase, hamends.source, hamends.configHash, hamends.startedAt]
    exact h.window
  elapsed := by
    rw [hamends.phase, hamends.configHash, hamends.startedAt]
    exact h.elapsed
end

/-! ### The relation -/

/-- The candidate of the store is of the same source as the one of the copy, and of the same specification if it is one
of any. -/
def Agrees (l : Application Ω H) (s : Store Ω H) : Prop :=
  ∀ p, s.app.status.promotion = some p → ∃ c, l.status.promotion = some c ∧ p.source = c.source ∧
    (p.verificationConfigHash = none ∨ p.verificationConfigHash = c.verificationConfigHash)

/-- While no process is at work. -/
def WindowIdle (hash : Spec Ω → H) (s : Store Ω H) : Prop :=
  ∀ p, s.app.status.promotion = some p → Watched hash s.log s.clock s.app.status.promotionReady p

structure WindowOk (hash : Spec Ω → H) (now : Int) (l : Application Ω H) (s : Store Ω H) : Prop where
  leaves : InOrder LeavesObserved s.log
  clock : now ≤ s.clock
  idle : WindowIdle hash s
  copy : ∀ c, l.status.promotion = some c → Watched hash s.log now l.status.promotionReady c
  agrees : Agrees l s

/-- A finding about the upstream has still to be recorded, or a rejection. -/
structure WindowLost (now : Int) (reason : Reason) (l : Application Ω H) (s : Store Ω H) : Prop where
  leaves : InOrder LeavesObserved s.log
  clock : now ≤ s.clock
  copy : ∀ c, l.status.promotion = some c → (c.verificationConfigHash = none → c.verificationStartedAt = none) ∧
      (promotionObservationInterrupted reason = true ∨ c.phase = .failed)

section
variable {hash : Spec Ω → H} {now : Int} {l : Application Ω H} {s t : Store Ω H} {c c' : Candidate Ω H}
  {fact : Fact Ω H}

theorem WindowIdle.stable (h : WindowIdle hash s) (hst : Rely s t) : WindowIdle hash t := by
  intro p hp
  rw [hst.status] at hp ⊢
  rw [hst.log]
  exact (h p hp).later hst.clock

theorem WindowOk.stable (h : WindowOk hash now l s) (hst : Rely s t) : WindowOk hash now l t where
  leaves := by
    rw [hst.log]
    exact h.leaves
  clock := le_trans h.clock hst.clock
  idle := h.idle.stable hst
  copy := by
    rw [hst.log]
    exact h.copy
  agrees := by
    unfold Agrees
    rw [hst.status]
    exact h.agrees

theorem WindowLost.stable {reason : Reason} (h : WindowLost now reason l s) (hst : Rely s t) :
    WindowLost now reason l t where
  leaves := by
    rw [hst.log]
    exact h.leaves
  clock := le_trans h.clock hst.clock
  copy := h.copy

theorem Fits.undisturbed (h : Fits hash now l c fact) : Undisturbed c.source c.verificationConfigHash fact := by
  cases fact <;> trivial

section
variable (h : WindowOk hash now l s)
include h

theorem WindowOk.congr {l' : Application Ω H} (hcopy : l'.status = l.status)
    (hstatus : t.app.status = s.app.status) (hlog : t.log = s.log) (hclock : t.clock = s.clock) :
    WindowOk hash now l' t := by
  obtain ⟨hleaves, hle, hidle, hwatched, hagrees⟩ := h
  unfold WindowIdle Agrees at *
  constructor <;> simpa only [WindowIdle, Agrees, hcopy, hstatus, hlog, hclock]

theorem WindowOk.record (hc : l.status.promotion = some c)
    (hfact : Undisturbed c.source c.verificationConfigHash fact) (hleaves : LeavesObserved fact s.log) :
    WindowOk hash now l (s.record fact) where
  leaves := h.leaves.cons hleaves
  clock := h.clock
  idle p hp := by
    refine (h.idle p hp).cons ?_
    intro t ht
    obtain ⟨c', hc', hsrc, hhash⟩ := h.agrees p hp
    rw [hc] at hc'
    cases hc'
    rcases hhash with hnone | hsame
    · rw [(h.idle p hp).unset hnone] at ht
      cases ht
    · rw [hsrc, hsame]
      exact hfact
  copy c' hc' := by
    rw [hc] at hc'
    cases hc'
    exact (h.copy c hc).cons fun _ _ => hfact
  agrees := h.agrees

theorem WindowOk.recordAny (hfact : ∀ source configHash, Undisturbed (Ω := Ω) (H := H) source configHash fact)
    (hleaves : LeavesObserved fact s.log) : WindowOk hash now l (s.record fact) where
  leaves := h.leaves.cons hleaves
  clock := h.clock
  idle p hp := (h.idle p hp).cons fun _ _ => hfact _ _
  copy c hc := (h.copy c hc).cons fun _ _ => hfact _ _
  agrees := h.agrees

theorem WindowOk.setCandidate (hc : l.status.promotion = some c)
    (hwatched : Watched hash s.log now l.status.promotionReady c') (hsrc : c'.source = c.source)
    (hhash : c.verificationConfigHash = none ∨ c'.verificationConfigHash = c.verificationConfigHash) :
    WindowOk hash now (l.setCandidate c') s where
  leaves := h.leaves
  clock := h.clock
  idle := h.idle
  copy c'' hc'' := by
    cases hc''
    exact hwatched
  agrees p hp := by
    obtain ⟨d, hd, hsource', hhash'⟩ := h.agrees p hp
    rw [hc] at hd
    cases hd
    refine ⟨c', rfl, hsource'.trans hsrc.symm, ?_⟩
    rcases hhash' with hnone | hsame
    · exact .inl hnone
    · rcases hhash with hnone | hkept
      · exact .inl (hsame.trans hnone)
      · exact .inr (hsame.trans hkept.symm)
end

theorem windowOk_publish (hleaves : InOrder LeavesObserved s.log) (hclock : now ≤ s.clock)
    (hcopy : ∀ c, l.status.promotion = some c → Watched hash s.log now l.status.promotionReady c) :
    WindowOk hash now l (s.publish l.status) where
  leaves := hleaves
  clock := hclock
  idle p hp := (hcopy p hp).later hclock
  copy := hcopy
  agrees p hp := ⟨p, hp, rfl, .inr rfl⟩
end

/-- Status writes succeed, and the controller does not crash; a fenced write may be refused or fail. -/
def windowDiscipline (hash : Spec Ω → H) : Discipline (Action Ω H) (Store Ω H) (Start Ω H) where
  rely := Rely
  inv s := InOrder LeavesObserved s.log
  idle := WindowIdle hash
  mayStart _ _ := True
  mayFail
    | .note _ | .patchAppStatus _ _ => False
    | _ => True
  mayCrash := False

/-- The wait leaves a candidate whose observation has ended, or goes on as before. -/
theorem watched_waitingApplication [DecidableEq H] (hash : Spec Ω → H) {now : Int} {reason : Reason} (message : String)
    {l : Application Ω H} {s : Store Ω H} (h : WindowOk hash now l s ∨ WindowLost now reason l s) :
    ∀ c', (waitingApplication hash reason message l).status.promotion = some c' →
      Watched hash s.log now (some false) c' := by
  intro c' hc'
  cases hc : l.status.promotion with
  | none =>
    rw [waitingApplication_none hash reason message hc] at hc'
    cases hc'
  | some c =>
  obtain ⟨d, hd, hwaits⟩ := waits_waitingApplication hash reason message hc
  rw [hd] at hc'
  cases hc'
  rcases h with hok | hlost
  · have hwatched := hok.copy c hc
    refine ⟨?_, ?_, ?_⟩
    · intro hnone
      rw [hwaits.configHash] at hnone
      rcases hwaits.startedAt with hsame | hclear
      · rw [hsame, hwatched.unset hnone]
      · exact hclear
    · intro hobs t ht
      rcases hwaits.startedAt with hsame | hclear
      · rw [hwaits.source, hwaits.configHash]
        refine hwatched.window ?_ t (hsame.symm.trans ht)
        rcases hwaits.phase with hphase | ⟨-, hclear⟩
        · unfold Candidate.Observing at hobs ⊢
          rwa [hphase] at hobs
        · rw [hclear] at ht
          cases ht
      · rw [hclear] at ht
        cases ht
    · intro hphase
      rcases hphase with hwait | ⟨-, hready⟩
      · rw [hwaits.configHash, (hwaits.awaiting hwait).2]
        refine hwatched.elapsed (.inl ?_)
        rcases hwaits.phase with hsame | ⟨hverif, -⟩
        · rw [← hsame, hwait]
        · rw [hverif] at hwait
          cases hwait
      · cases hready
  · obtain ⟨hunset, hinterrupted | hfailed⟩ := hlost.copy c hc
    · have hclear := hwaits.interrupted hinterrupted
      refine ⟨fun _ => hclear, ?_, ?_⟩
      · intro _ t ht
        rw [hclear] at ht
        cases ht
      intro hphase
      rcases hphase with hwait | ⟨-, hready⟩
      · rw [(hwaits.awaiting hwait).1] at hinterrupted
        cases hinterrupted
      · cases hready
    · rcases hwaits.phase with hsame | ⟨hverif, hclear⟩
      · refine Watched.retired ?_ (.inl (hsame.trans hfailed))
        intro hnone
        rw [hwaits.configHash] at hnone
        rcases hwaits.startedAt with hstart | hclear
        · rw [hstart, hunset hnone]
        · exact hclear
      · exact Watched.fresh hclear hverif

variable [DecidableEq Ω] [DecidableEq H]

/-- **Every effect of a reconcile keeps the observation.** -/
def windowGuarantee (hash : Spec Ω → H) (hinj : Function.Injective hash) (now : Int) :
    Guarantee hash (windowDiscipline hash) now where
  ok := WindowOk hash now
  ko reason l s := WindowOk hash now l s ∨ WindowLost now reason l s
  rely h := h
  notes h := h.elim
  patches h := h.elim
  inv h := h.leaves
  idle h := h.idle
  stable hst h := h.stable hst
  blockedInv h := h.elim (·.leaves) (·.leaves)
  blockedStable hst h := h.imp (·.stable hst) (·.stable hst)
  began _ h := h.recordAny (fun _ _ => trivial) trivial
  note := by
    intro l s c fact h hc hfits
    cases fact with
    | left c' spec t =>
      obtain ⟨rfl, rfl, rfl, hphase, hhash, hready⟩ := hfits
      refine h.record hc trivial ⟨?_, (h.copy _ hc).window (Or.inr (Or.inr hphase))⟩
      obtain ⟨spec, hhash', helapsed⟩ := (h.copy _ hc).elapsed (Or.inr ⟨hphase, hready⟩)
      have hspec : spec = l.spec := hinj (Option.some_injective _ (hhash'.symm.trans hhash))
      rw [← hspec]
      exact helapsed
    | _ => exact h.record hc hfits.undisturbed trivial
  block h := Or.inl h
  interrupt h hreason := Or.inr ⟨h.leaves.cons trivial, h.clock, fun c hc => ⟨(h.copy c hc).unset, Or.inl hreason⟩⟩
  reject := by
    intro l s c h hc hfailed
    refine Or.inr ⟨h.leaves.cons trivial, h.clock, ?_⟩
    intro c' hc'
    rw [hc] at hc'
    cases hc'
    exact ⟨(h.copy c hc).unset, Or.inr hfailed⟩
  wait := by
    intro reason l s message h
    exact windowOk_publish (h.elim (·.leaves) (·.leaves)) (h.elim (·.clock) (·.clock))
      (watched_waitingApplication hash message h)
  amend h hc hamends := h.setCandidate hc ((h.copy _ hc).amend hamends) hamends.source (Or.inr hamends.configHash)
  retire := by
    intro l s c phase message h hc hphase
    exact h.setCandidate hc (Watched.retired (h.copy c hc).unset hphase) rfl (Or.inr rfl)
  retried := by
    intro l s c h hc hphase
    refine ⟨h.leaves, h.clock, h.idle, ?_, h.agrees⟩
    intro c' hc'
    have hsame : l.status.promotion = some c' := hc'
    rw [hc] at hsame
    cases hsame
    exact Watched.retired (h.copy c hc).unset (Or.inr (Or.inl hphase))
  startVerification := by
    intro l s c _ h hc hnone
    exact h.setCandidate hc (Watched.fresh rfl rfl) rfl (Or.inl hnone)
  stamp := by
    intro l s c h hc hhash hnone
    have hnoted : WindowOk hash now l (s.record (.stamped now)) := h.recordAny (fun _ _ => trivial) trivial
    refine hnoted.setCandidate hc ⟨?_, ?_, ?_⟩ rfl (Or.inr rfl)
    · intro hunset
      rw [hhash] at hunset
      cases hunset
    · intro _ t ht
      cases ht
      exact ⟨[], s.log, rfl, fun f hf => by cases hf⟩
    · intro hphase
      obtain ⟨spec, hhash', helapsed⟩ := (h.copy c hc).elapsed hphase
      rw [hnone] at helapsed
      exact ⟨spec, hhash', helapsed.of_none _⟩
  consumeApproval := by
    intro l s h
    have hcleared : WindowOk hash now { l with approval := "" } s.clearApproval := h.congr rfl rfl rfl rfl
    exact hcleared.recordAny (fun _ _ => trivial) trivial
  consumeRetry h := h.congr rfl rfl rfl rfl
  activate := by
    intro l s c next request release h hc _ hattempts
    have hnext : ∀ log now ready, Watched hash log now ready next := by
      intro log now ready
      cases hattempts <;> exact Watched.fresh rfl rfl
    refine ⟨h.leaves.cons trivial, h.clock, ?_, ?_, ?_⟩
    · intro p hp
      cases hp
      exact hnext _ _ _
    · intro c' hc'
      cases hc'
      exact hnext _ _ _
    · intro p hp
      cases hp
      exact ⟨next, rfl, rfl, Or.inr rfl⟩
  await := by
    intro l s c h hc hobserving hhash hgated
    have hwatched := h.copy c hc
    refine h.setCandidate hc (hwatched.continue hobserving rfl rfl rfl fun _ => ?_) rfl (Or.inr rfl)
    rcases hgated with hawaiting | ⟨-, helapsed⟩
    · exact hwatched.elapsed (Or.inl hawaiting)
    · exact ⟨l.spec, hhash, helapsed⟩
  markReady := by
    intro l s c h hc hobserving hhash hqualified
    have hwatched := h.copy c hc
    have helapsed : ∃ spec, c.verificationConfigHash = some (hash spec) ∧ Elapsed spec c.verificationStartedAt now := by
      rcases hqualified with ⟨-, helapsed⟩ | ⟨-, -, hawaiting | ⟨-, helapsed⟩⟩
      · exact ⟨l.spec, hhash, helapsed⟩
      · exact hwatched.elapsed (Or.inl hawaiting)
      · exact ⟨l.spec, hhash, helapsed⟩
    rw [markPromotionReady_eq hc]
    have hready : ∀ ready, Watched hash s.log now ready
        { c with phase := .ready, message := "Upstream release verified and ready for deployment." } :=
      fun ready => hwatched.continue hobserving rfl rfl rfl fun _ => helapsed
    have hmarked := h.setCandidate hc (hready _) rfl (Or.inr rfl)
    refine ⟨hmarked.leaves, hmarked.clock, hmarked.idle, ?_, hmarked.agrees⟩
    intro c' hc'
    cases hc'
    exact hready _
  publish h := windowOk_publish h.leaves h.clock h.copy
  deploy accepted revision release h := windowOk_publish h.leaves h.clock h.copy

theorem windowGuarantee_selects (hash : Spec Ω → H) (hinj : Function.Injective hash) (now : Int)
    (l : Application Ω H) (obs : Observation Ω H) : (windowGuarantee hash hinj now).Selects l obs := by
  intro s source h _ _
  have hok : WindowOk hash now l s := h
  have hleaves : InOrder LeavesObserved (s.record (.sourceReady source)).log := hok.leaves.cons trivial
  refine ⟨hleaves, ?_⟩
  intro t ht
  have hpub : WindowOk hash now (l.setCandidate (newPromotionCandidate source))
      (t.publish (l.setCandidate (newPromotionCandidate source)).status) := by
    refine windowOk_publish ?_ (le_trans hok.clock ht.clock) ?_
    · rw [ht.log]
      exact hleaves
    · intro c hc
      cases hc
      exact Watched.fresh rfl rfl
  exact hpub.recordAny (fun _ _ => trivial) trivial

theorem window_keeps (hash : Spec Ω → H) (hinj : Function.Injective hash) :
    Keeps (rules hash) (windowDiscipline hash) := by
  refine Guarantee.keeps (fun _ s => windowGuarantee hash hinj s.clock) (fun h => h) (fun h => h)
    ?_ (fun hst h => h.stable hst) (fun h => h.elim) ?_ ?_
  · intro s t hst hleaves
    show InOrder LeavesObserved t.log
    rw [hst.log]
    exact hleaves
  · intro o s _ hleaves hidle
    exact WindowOk.mk hleaves (le_refl _) hidle hidle fun p hp => ⟨p, hp, rfl, .inr rfl⟩
  · exact fun obs s => windowGuarantee_selects hash hinj s.clock s.app obs

/-- **Uninterrupted observation window**, in every run in which status writes succeed. -/
theorem left_ready_is_observed (hash : Spec Ω → H) (hinj : Function.Injective hash) (app : Application Ω H)
    (clock : Int) (events : List (Event (Edit Ω) (Start Ω H)))
    (hevents : Guarded (System.step (rules hash)) (Admissible (windowDiscipline hash)) ⟨initial app clock, []⟩ events)
    {newer older : List (Fact Ω H)} {c : Candidate Ω H} {spec : Spec Ω} {now : Int}
    (hlog : (run (System.step (rules hash)) ⟨initial app clock, []⟩ events).store.log
      = newer ++ .left c spec now :: older) :
    Elapsed spec c.verificationStartedAt now ∧
      ∀ t, c.verificationStartedAt = some t → Uninterrupted c.source c.verificationConfigHash t older := by
  have hidle : WindowIdle hash (initial app clock) := fun p hp => by cases hp
  have hleaves : (windowDiscipline hash).inv (initial app clock) := InOrder.nil
  have hrun := system_invariant (window_keeps hash hinj) hleaves hidle hevents
  exact hrun.1 newer _ older hlog

/-! ### Runs -/

/-- Nothing fails, and nothing crashes. -/
def calm : Event (Edit Ω) (Start Ω H) → Bool
  | .environment _ | .start _ => true
  | .go ok => ok
  | .crash => false

theorem guarded_of_calm (hash : Spec Ω → H) {s : System (Action Ω H) (Store Ω H)}
    {events : List (Event (Edit Ω) (Start Ω H))} (h : events.all calm = true) :
    Guarded (System.step (rules hash)) (Admissible (windowDiscipline hash)) s events := by
  refine guarded_of_invariant (motive := fun _ => True) (fun _ _ _ _ => trivial) ?_ trivial
    (List.all_eq_true.mp h)
  intro s e _ hcalm
  cases e with
  | environment i => trivial
  | start o => exact fun _ => trivial
  | go ok =>
    intro hfails
    rw [show ok = true from hcalm] at hfails
    cases hfails
  | crash => cases hcalm

/-- Admission waits for a sync window. -/
def Sample.held (obs : Observation Unit (Spec Unit)) : Observation Unit (Spec Unit) := { obs with windowAllows := false }

/-- A specification that asks for an observation of 100 seconds. -/
def Sample.observedSpec : Spec Unit := spec .auto [{ type := .duration, endpoint := "", timeout := 100 }]

/-- A reconcile at the beginning, and one after 100 seconds. -/
def Sample.observedRun : List (Event (Edit Unit) (Start Unit (Spec Unit))) :=
  reconcile (held (observation "r1" none)) ++ [.environment (.tick 100)] ++
    reconcile (held (observation "r1" none))

theorem observed_candidate_is_left_ready : ∃ older, (store observedSpec observedRun).log =
        .left (readyCandidate "r1" observedSpec (some 0)) observedSpec 100 :: older ∧
      (Elapsed observedSpec (some 0) 100 ∧ ∀ t, (some 0 : Option Int) = some t →
        Uninterrupted (Sample.sourceKey "r1") (some observedSpec) t older) := by
  have hlog : (store observedSpec observedRun).log =
      [] ++ .left (readyCandidate "r1" observedSpec (some 0)) observedSpec 100 ::
        (store observedSpec observedRun).log.tail := by
    rfl
  exact ⟨_, hlog, left_ready_is_observed id Function.injective_id (application observedSpec) 0
    observedRun (guarded_of_calm id rfl) hlog⟩

/-- As if every candidate were observed, and every reconcile since then were one for the same specification. -/
def ObservedThroughout : Fact Ω H → List (Fact Ω H) → Prop
  | .left c spec now, older => ∃ t, c.verificationStartedAt = some t ∧ Elapsed spec (some t) now ∧
      ∀ fact ∈ older.takeWhile (fun fact => fact ≠ .stamped t),
        Undisturbed c.source c.verificationConfigHash fact ∧
          ∀ configHash, fact = .began configHash → c.verificationConfigHash = some configHash
  | _, _ => True

/-- The upstream is not ready for once. -/
def Sample.unready (obs : Observation Unit (Spec Unit)) : Observation Unit (Spec Unit) :=
  { obs with source := { obs.source with unready := some "the upstream Application health is not healthy" } }

/-- Without a duration gate, a ready candidate loses its observation to a hold, and is restored without one. -/
def Sample.restoredRun : List (Event (Edit Unit) (Start Unit (Spec Unit))) :=
  reconcile (held (observation "r1" none)) ++
    reconcile (held (unready (observation "r1" none))) ++
    reconcile (held (observation "r1" none))

/-- The specification, with the reference to the upstream taken out. -/
def Sample.unreferencedSpec : Spec Unit :=
  { observedSpec with trigger := observedSpec.trigger.map (fun trigger => { trigger with fromRef := none }) }

/-- The specification is edited and edited back, and the reconcile in between is blocked before it goes on to verify. -/
def Sample.revertedRun : List (Event (Edit Unit) (Start Unit (Spec Unit))) :=
  reconcile (held (observation "r1" none)) ++ [.environment (.spec unreferencedSpec)] ++
    reconcile (held (observation "r1" none)) ++
    [.environment (.spec observedSpec), .environment (.tick 100)] ++
    reconcile (held (observation "r1" none))

theorem not_observed_throughout : (Guarded (System.step (rules id)) (Admissible (windowDiscipline id))
        ⟨initial (application (spec .auto [])) 0, []⟩ restoredRun ∧
      ¬InOrder ObservedThroughout (store (spec .auto []) restoredRun).log) ∧
    Guarded (System.step (rules id)) (Admissible (windowDiscipline id))
        ⟨initial (application observedSpec) 0, []⟩ revertedRun ∧
      ¬InOrder ObservedThroughout (store observedSpec revertedRun).log := by
  refine ⟨⟨guarded_of_calm id rfl, ?_⟩, guarded_of_calm id rfl, ?_⟩
  · intro h
    have hlog : (store (spec .auto []) restoredRun).log =
        [] ++ .left (readyCandidate "r1" (spec .auto []) none) (spec .auto []) 0 ::
          (store (spec .auto []) restoredRun).log.tail := by
      rfl
    obtain ⟨t, ht, -⟩ := h _ _ _ hlog
    cases ht
  · intro h
    have hlog : (store observedSpec revertedRun).log =
        [] ++ .left (readyCandidate "r1" observedSpec (some 0)) observedSpec 100 ::
          (store observedSpec revertedRun).log.tail := by
      rfl
    obtain ⟨t, ht, -, hsince⟩ := h _ _ _ hlog
    cases ht
    have hbegan : Fact.began unreferencedSpec ∈
        (store observedSpec revertedRun).log.tail.takeWhile (fun fact => fact ≠ .stamped 0) := by
      decide
    have hsame := (hsince _ hbegan).2 unreferencedSpec rfl
    exact absurd hsame (by decide)

end Paprika.Promotion
