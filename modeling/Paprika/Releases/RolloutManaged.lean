import Paprika.Releases.Attempts

/-!
# Releases that a Rollout delivers

A Release whose stage has a rollout strategy hands the delivery to a Rollout and looks at its phase only while it is
`Promoting`.  A Rollout that is still progressing leaves it `Canarying`, and from there the canary ladder takes it to
`Verifying` without another look.

`rollout_decides`: where that does not happen, the stage can be read after the promotion, and the status of a reconcile
that has read a Rollout as `Failed`, `Degraded` or `RolledBack` is written, a Release is `Verifying` or `Complete` only
when its Rollout has been read as `Healthy` in the attempt.
-/

namespace Paprika.Releases

open Lib.Run

/-- `Failed`, `Degraded` and `RolledBack`. -/
def RolloutPhase.refuses : RolloutPhase → Bool
  | .failed | .degraded | .rolledBack => true
  | .healthy | .other => false

def Lookup.refuses : Lookup RolloutPhase → Bool
  | .found p => p.refuses
  | .error | .notFound => false

def Attempt.HasRead (x : Attempt) (p : RolloutPhase) : Prop := Action.rolloutRead p ∈ x.history

instance (x : Attempt) (p : RolloutPhase) : Decidable (x.HasRead p) := inferInstanceAs (Decidable (_ ∈ _))

/-- The Rollout decides how the attempt ends. -/
structure RolloutDecides (x : Attempt) : Prop where
  healthy : x.release.status.phase = .verifying ∨ x.release.status.phase = .complete → x.HasRead .healthy
  refused : ∀ p, p.refuses = true → x.HasRead p →
    x.release.status.phase = .failed ∨ x.release.status.phase = .rolledBack

/-- Wherever the target stage is read, it has a rollout strategy. -/
def Managed : AttemptEvent → Prop
  | .reconcile o _ _ => ∀ stage, o.stage = some stage → stage.rolloutStrategy = true
  | .requestResync | .requestRollback => True

/-- The Rollout is looked at: the stage can be read after the promotion, what is read of a Rollout that refuses is
recorded, and a `Canarying` Release does not come to the end of a canary ladder. -/
def Consulted (x : Attempt) : AttemptEvent → Prop
  | .reconcile o _ done =>
    x.release.Dispatched → o.listed = true →
      (x.release.status.phase = .promoting → o.approval = .approved → o.promote = .done →
        o.stage.isSome = true ∧ (o.rollout.refuses = true → 2 ≤ done)) ∧
      (x.release.status.phase = .canarying → endsLadder o x.release.status = false)
  | .requestResync | .requestRollback => True

instance (x : Attempt) (e : AttemptEvent) : Decidable (Consulted x e) :=
  match e with
  | .reconcile .. => inferInstanceAs (Decidable (_ → _))
  | .requestResync | .requestRollback => .isTrue trivial

section
variable {x : Attempt} {o : Observation} {active : Bool}

theorem hasRead_status {s : ReleaseStatus} {p : RolloutPhase} (h : s.hookAttempt = x.release.status.hookAttempt) :
    (x.perform (.status s)).HasRead p ↔ x.HasRead p := by
  have hperf : x.perform (.status s) = _ := perform_of_attempt (a := .status s) h
  rw [hperf]
  simp [Attempt.HasRead]

/-- A status of the attempt that ends it, or that takes nothing from an attempt in which the Rollout has not refused. -/
theorem rolloutDecides_status {s : ReleaseStatus} (hatt : s.hookAttempt = x.release.status.hookAttempt)
    (hs : s.phase = .failed ∨ s.phase = .rolledBack ∨ ((∀ p, p.refuses = true → ¬x.HasRead p) ∧
      (s.phase = .verifying ∨ s.phase = .complete → x.HasRead .healthy))) :
    RolloutDecides (x.perform (.status s)) := by
  have hphase : (x.perform (.status s)).release.status.phase = s.phase := rfl
  constructor
  · intro hverif
    rw [hphase] at hverif
    rw [hasRead_status hatt]
    obtain hs | hs | ⟨-, hs⟩ := hs
    · rw [hs] at hverif
      obtain h | h := hverif <;> cases h
    · rw [hs] at hverif
      obtain h | h := hverif <;> cases h
    · exact hs hverif
  · intro p hp hread
    rw [hasRead_status hatt] at hread
    rw [hphase]
    obtain hs | hs | ⟨hs, -⟩ := hs
    · exact .inl hs
    · exact .inr hs
    · exact absurd hread (hs p hp)

section
variable (h : RolloutDecides x)
include h

theorem RolloutDecides.of_eq {y : Attempt} (hstatus : y.release.status = x.release.status)
    (hread : ∀ p, y.HasRead p ↔ x.HasRead p) : RolloutDecides y := by
  constructor
  · intro hphase
    rw [hstatus] at hphase
    exact (hread _).mpr (h.healthy hphase)
  · intro p hp hy
    rw [hstatus]
    exact h.refused p hp ((hread p).mp hy)

theorem RolloutDecides.perform {a : Action}
    (ha : (∀ s, a ≠ .status s) ∧ ∀ p, a ≠ .rolloutRead p) : RolloutDecides (x.perform a) := by
  have hstatus : (a.perform x.release).status = x.release.status := by
    cases a with
    | status s => exact absurd rfl (ha.1 s)
    | clearResync | spendRetries | rolloutRead _ | weightApplied _ _ _ | gatePassed _ | checksPassed _ => rfl
  refine h.of_eq hstatus ?_
  intro p
  simp only [Attempt.HasRead, Attempt.perform, hstatus, if_true, List.mem_cons]
  exact ⟨fun hmem => hmem.resolve_left (fun heq => ha.2 p heq.symm), .inr⟩

theorem RolloutDecides.not_refused (hfailed : x.release.status.phase ≠ .failed)
    (hrolled : x.release.status.phase ≠ .rolledBack) : ∀ p, p.refuses = true → ¬x.HasRead p := by
  intro p hp hread
  obtain hphase | hphase := h.refused p hp hread
  · exact hfailed hphase
  · exact hrolled hphase

theorem along_handleFailedRollback : Along RolloutDecides (handleFailedRollback o x.release.status) x := by
  unfold handleFailedRollback
  split
  · exact h
  · have hspend : RolloutDecides (x.perform .spendRetries) :=
      h.perform ⟨fun _ => Action.noConfusion, fun _ => Action.noConfusion⟩
    exact ⟨h, hspend, rolloutDecides_status rfl (.inr (.inl rfl))⟩

theorem along_handleResyncAnnotation : Along RolloutDecides ( handleResyncAnnotation x.release.status) x := by
  have hclear : ∀ {y : Attempt}, RolloutDecides y → Along RolloutDecides [.clearResync] y :=
    fun hy => ⟨hy, hy.perform ⟨fun _ => Action.noConfusion, fun _ => Action.noConfusion⟩⟩
  unfold handleResyncAnnotation
  split
  · refine ⟨h, hclear ?_⟩
    constructor
    · intro hphase
      obtain hphase | hphase := hphase <;> cases hphase
    · intro p _ hread
      have hnew : x.release.status.hookAttempt + 1 ≠ x.release.status.hookAttempt := by omega
      simp [Attempt.HasRead, Attempt.perform, Action.perform] at hread
  · exact hclear h

theorem RolloutDecides.along_failRelease : Along RolloutDecides (failRelease x.release.status) x :=
  ⟨h, rolloutDecides_status rfl (.inl rfl)⟩

theorem RolloutDecides.along_reconcileCanary (hphase : x.release.status.phase = .canarying)
    (hladder : endsLadder o x.release.status = false) :
    Along RolloutDecides (reconcileCanary o x.release.status) x := by
  -- the Rollout is not read again, and the phase stays away from `Verifying`
  have hkeep : Along (fun y => RolloutDecides y ∧ (∀ p, p.refuses = true → ¬y.HasRead p) ∧
      y.release.status.hookAttempt = x.release.status.hookAttempt) (reconcileCanary o x.release.status) x := by
    refine Along.of_forall ?_ ⟨h, h.not_refused (by rw [hphase]; decide) (by rw [hphase]; decide), rfl⟩
    intro a ha y hy
    obtain ⟨hy, hunread, hatt⟩ := hy
    obtain hobs | ⟨t, rfl, ht, hcases⟩ := mem_reconcileCanary ha
    · have hother : (∀ s, a ≠ .status s) ∧ ∀ p, a ≠ .rolloutRead p := by
        constructor
        · rintro s rfl; cases hobs
        · rintro p rfl; cases hobs
      have hrel : a.perform y.release = y.release := by
        cases a with
        | status _ | clearResync | spendRetries | rolloutRead _ => cases hobs
        | weightApplied _ _ _ | gatePassed _ | checksPassed _ => rfl
      refine ⟨hy.perform hother, ?_, by rw [Attempt.perform, hrel]; exact hatt⟩
      intro p hp hread
      simp only [Attempt.HasRead, Attempt.perform, hrel, if_true, List.mem_cons] at hread
      exact hunread p hp (hread.resolve_left (fun heq => hother.2 p heq.symm))
    · have ht' : t.hookAttempt = y.release.status.hookAttempt := ht.trans hatt.symm
      refine ⟨rolloutDecides_status ht' ?_, fun p hp hread => hunread p hp ((hasRead_status ht').mp hread), ht⟩
      obtain hsame | hfailed | ⟨-, hends⟩ := hcases
      · refine .inr (.inr ⟨hunread, ?_⟩)
        rw [hsame, hphase]
        intro hverif
        obtain h | h := hverif <;> cases h
      · exact .inl hfailed
      · rw [hladder] at hends
        cases hends
  exact hkeep.mono (fun _ hy => hy.1)
end

/-- The handler of `Promoting` reads the Rollout at most once, and goes by what it has read. -/
theorem handlePromotingPhase_cases (hphase : x.release.status.phase = .promoting)
    (hmanaged : ∀ stage, o.stage = some stage → stage.rolloutStrategy = true)
    (hstage : o.approval = .approved → o.promote = .done → o.stage.isSome = true) (name : String) :
    (∃ s, handlePromotingPhase o name x.release.status = [.status s] ∧
      s.hookAttempt = x.release.status.hookAttempt ∧ s.phase ≠ .verifying ∧ s.phase ≠ .complete) ∨
    handlePromotingPhase o name x.release.status = [] ∨
    ∃ p s, handlePromotingPhase o name x.release.status = [.rolloutRead p, .status s] ∧
      o.approval = .approved ∧ o.promote = .done ∧ o.rollout = .found p ∧ s.phase = ofRolloutPhase p ∧
      s.hookAttempt = x.release.status.hookAttempt := by
  have hto : ∀ p : ReleasePhase, p ≠ .verifying → p ≠ .complete → ∀ s : ReleaseStatus,
      s.hookAttempt = x.release.status.hookAttempt → s.phase = p →
      ∃ t, [Action.status s] = [.status t] ∧
        t.hookAttempt = x.release.status.hookAttempt ∧ t.phase ≠ .verifying ∧ t.phase ≠ .complete := by
    rintro p hverif hcomp s hatt rfl
    exact ⟨s, rfl, hatt, hverif, hcomp⟩
  have hfail := hto .failed (by decide) (by decide) { x.release.status with phase := .failed } rfl rfl
  have hsame := hto .promoting (by decide) (by decide) x.release.status rfl hphase
  unfold handlePromotingPhase
  split
  · exact .inl hfail
  · exact .inl hfail
  · exact .inl (hto .awaitingApproval (by decide) (by decide) _ rfl rfl)
  · next happroved =>
    split
    · next hdone =>
      unfold advanceAfterPromotion
      split
      · next hnone =>
        have hsome := hstage happroved hdone
        rw [hnone] at hsome
        cases hsome
      · next stage hsome =>
        rw [if_pos (hmanaged stage hsome)]
        split
        · exact .inl hsame
        unfold reconcileRolloutManagedRelease
        split
        · exact .inr (.inl rfl)
        · split
          · exact .inl (hto .canarying (by decide) (by decide) _ rfl rfl)
          · exact .inr (.inl rfl)
        · next p hfound =>
          split
          · exact .inr (.inr ⟨p, _, rfl, happroved, hdone, hfound, rfl, rfl⟩)
          · exact .inr (.inl rfl)
    · exact .inl hsame
    · exact .inl hsame
    · exact .inl hsame
    · exact .inr (.inl rfl)
    · exact .inl hfail

/-- The reconcile of a `Promoting` Release: if a Rollout that refuses has been read, that is recorded. -/
theorem RolloutDecides.promoting (h : RolloutDecides x) (hphase : x.release.status.phase = .promoting)
    (hmanaged : ∀ stage, o.stage = some stage → stage.rolloutStrategy = true)
    {done : Nat} (hconsulted : o.approval = .approved → o.promote = .done →
      o.stage.isSome = true ∧ (o.rollout.refuses = true → 2 ≤ done)) (name : String) :
    RolloutDecides (((handlePromotingPhase o name x.release.status).take done).foldl Attempt.perform x) := by
  have hunread := h.not_refused (by rw [hphase]; decide) (by rw [hphase]; decide)
  obtain ⟨s, hlist, hatt, hverif, hcomp⟩ | hlist |
      ⟨p, s, hlist, happroved, hdone, hfound, hs, hatt⟩ :=
    handlePromotingPhase_cases hphase hmanaged (fun h1 h2 => (hconsulted h1 h2).1) name
  · rw [hlist]
    have hstatus : RolloutDecides (x.perform (.status s)) := by
      refine rolloutDecides_status hatt (.inr (.inr ⟨hunread, ?_⟩))
      intro hphase
      obtain hphase | hphase := hphase
      · exact absurd hphase hverif
      · exact absurd hphase hcomp
    exact (along_single.mpr ⟨h, hstatus⟩).foldl_take done
  · rw [hlist, List.take_nil]
    exact h
  · rw [hlist]
    -- after the read alone, and after the read and the status that goes by it
    have hreads : ∀ q, (x.perform (.rolloutRead p)).HasRead q ↔ q = p ∨ x.HasRead q := by
      intro q
      simp [Attempt.HasRead, Attempt.perform, Action.perform]
    have hread : p.refuses = false → RolloutDecides (x.perform (.rolloutRead p)) := by
      intro hp
      constructor
      · intro hverif
        exact (hreads _).mpr (.inr (h.healthy hverif))
      intro q hq hread
      obtain rfl | hread := (hreads q).mp hread
      · rw [hp] at hq
        cases hq
      · exact h.refused q hq hread
    have hrec : RolloutDecides ((x.perform (.rolloutRead p)).perform (.status s)) := by
      have hattempt' : s.hookAttempt = (x.perform (.rolloutRead p)).release.status.hookAttempt := hatt
      constructor
      · intro hverif
        have hsphase : s.phase = .verifying ∨ s.phase = .complete := hverif
        rw [hasRead_status hattempt', hreads]
        rw [hs] at hsphase
        left
        cases p with
        | healthy => rfl
        | failed | degraded | rolledBack | other => obtain h | h := hsphase <;> cases h
      · intro q hq hread
        rw [hasRead_status hattempt', hreads] at hread
        show s.phase = .failed ∨ s.phase = .rolledBack
        obtain rfl | hread := hread
        · rw [hs]
          cases q with
          | failed | degraded => exact .inl rfl
          | rolledBack => exact .inr rfl
          | healthy | other => cases hq
        · exact absurd hread (hunread q hq)
    cases done with
    | zero => exact h
    | succ n =>
    cases n with
    | zero =>
      refine hread (Bool.eq_false_iff.mpr ?_)
      intro hp
      have htwo := (hconsulted happroved hdone).2 (by rw [hfound]; exact hp)
      omega
    | succ n =>
      rw [List.take_of_length_le (by simp)]
      exact hrec

theorem along_handleVerifyingPhase (h : RolloutDecides x) (hphase : x.release.status.phase = .verifying) :
    Along RolloutDecides (handleVerifyingPhase o x.release.status) x := by
  unfold handleVerifyingPhase
  split
  · refine ⟨h, rolloutDecides_status rfl (.inr (.inr ⟨?_, fun _ => h.healthy (.inl hphase)⟩))⟩
    exact h.not_refused (by rw [hphase]; decide) (by rw [hphase]; decide)
  · exact h.along_failRelease

/-- **One reconcile keeps the law.** -/
theorem RolloutDecides.reconcile (h : RolloutDecides x) {done : Nat}
    (hmanaged : Managed (.reconcile o active done)) (hconsulted : Consulted x (.reconcile o active done)) :
    RolloutDecides (x.step (.reconcile o active done)) := by
  show RolloutDecides (((reconcileReleasePhase o active x.release).take done).foldl Attempt.perform x)
  have hnone : Along RolloutDecides [] x := h
  obtain ⟨-, hlist⟩ | ⟨-, -, hlist⟩ | ⟨hdispatched, hlist⟩ := reconcile_cases o active x.release
  · rw [hlist]
    exact ( along_handleResyncAnnotation h).foldl_take done
  · rw [hlist]
    exact (along_handleFailedRollback h).foldl_take done
  · rw [hlist]
    -- a phase that is neither `Verifying` nor `Complete`, while the Rollout has not refused
    have hquiet : ∀ p : ReleasePhase, p ≠ .verifying → p ≠ .complete → x.release.status.phase ≠ .failed →
        x.release.status.phase ≠ .rolledBack → Along RolloutDecides [.status { x.release.status with phase := p }] x := by
      intro p hverif hcomp hfailed hrolled
      refine ⟨h, rolloutDecides_status rfl (.inr (.inr ⟨h.not_refused hfailed hrolled, ?_⟩))⟩
      intro hphase
      obtain hphase | hphase := hphase
      · exact absurd hphase hverif
      · exact absurd hphase hcomp
    cases hphase : x.release.status.phase with
    | complete | failed | rolledBack | superseded =>
      rw [dispatch_terminal (by rw [hphase]; rfl)]
      exact hnone.foldl_take done
    | unset | pending =>
      have hwait : x.release.status.phase.isWaiting = true := by rw [hphase]; rfl
      obtain hlist | hlist | ⟨-, hlist⟩ := dispatch_waiting o active hwait
      · rw [hlist]
        exact hnone.foldl_take done
      · rw [hlist]
        exact (hquiet _ (by decide) (by decide) (by rw [hphase]; decide) (by rw [hphase]; decide)).foldl_take done
      · rw [hlist]
        exact (hquiet _ (by decide) (by decide) (by rw [hphase]; decide) (by rw [hphase]; decide)).foldl_take done
    | awaitingApproval =>
      rw [dispatch_awaitingApproval hphase, handleAwaitingApprovalPhase]
      split
      · exact hnone.foldl_take done
      · exact hnone.foldl_take done
      · exact (h.along_failRelease).foldl_take done
      · exact (hquiet _ (by decide) (by decide) (by rw [hphase]; decide) (by rw [hphase]; decide)).foldl_take done
    | promoting =>
      rw [dispatch_promoting hphase]
      split
      · next hlisted => exact h.promoting hphase hmanaged ((hconsulted hdispatched hlisted).1 hphase) x.release.name
      · exact hnone.foldl_take done
    | canarying =>
      rw [dispatch_canarying hphase]
      split
      · next hlisted =>
        exact (h.along_reconcileCanary hphase ((hconsulted hdispatched hlisted).2 hphase)).foldl_take done
      · exact hnone.foldl_take done
    | verifying =>
      rw [dispatch_verifying hphase]
      split
      · exact (along_handleVerifyingPhase h hphase).foldl_take done
      · exact hnone.foldl_take done
end

/-- **The Rollout decides** over a Release whose stage has a rollout strategy and whose reconciles look at the Rollout. -/
theorem rollout_decides (name target : String) (rollsBack : Bool) (es : List AttemptEvent)
    (hmanaged : ∀ e ∈ es, Managed e) (hconsulted : Guarded Attempt.step Consulted (.create name target rollsBack) es) :
    RolloutDecides (run Attempt.step (.create name target rollsBack) es) := by
  have hcreate : RolloutDecides (.create name target rollsBack) := by
    constructor
    · intro hphase
      obtain hphase | hphase := hphase <;> cases hphase
    · intro p _ hread
      cases hread
  refine guarded_invariant_on (motive := RolloutDecides) ?_ hcreate hmanaged hconsulted
  intro y e hy he hguard
  cases e with
  | requestResync | requestRollback => exact hy.of_eq rfl (fun _ => Iff.rfl)
  | reconcile o active done => exact hy.reconcile he hguard

section

/-- A stage with a rollout strategy, whose Rollout is read in the given phase. -/
def managedObservation (rollout : Lookup RolloutPhase) : Observation :=
  { quietObservation with
    stage := some { rolloutStrategy := true, canary := none, trafficRouter := false }
    rollout := rollout }

theorem rollout_decides_healthy : RolloutDecides (run Attempt.step (.create "web-1" "prod" false)
      [.reconcile (managedObservation .notFound) false 1, .reconcile (managedObservation (.found .healthy)) false 2,
        .reconcile (managedObservation (.found .healthy)) false 1]) :=
  rollout_decides "web-1" "prod" false _ (by simp [Managed, managedObservation]) (by decide)

/-- The Rollout is created by the second reconcile and never looked at. -/
def unseenRollout : List AttemptEvent := List.replicate 4 (.reconcile (managedObservation .notFound) false 1)

theorem rollout_does_not_decide : ¬∀ es, (∀ e ∈ es, Managed e) →
    RolloutDecides (run Attempt.step (.create "web-1" "prod" false) es) := by
  intro h
  have hmanaged : ∀ e ∈ unseenRollout, Managed e := by simp [unseenRollout, Managed, managedObservation]
  have hread := (h unseenRollout hmanaged).healthy (.inr (by decide))
  exact absurd hread (by decide)
end

end Paprika.Releases
