import Mathlib.Data.List.Infix
import Paprika.Applications.RingInvariant

/-!
# Ring order

A content reaches a ring after every stage before it.

`ring_order_respected`: in every run whose steps meet `RingByRing`, each release has behind it, for every stage that
precedes its own, a promotion from a complete release of the same content.
-/

namespace Paprika.Applications

open Lib Lib.Run

section
variable (digest : String → String) (x : ReleaseFlow)

def HasRecorded (es : List FlowEvent) (c : Content) : Prop :=
  ∃ fs, fs <+: es ∧ ContentRecorded (run (flowStep digest) x fs) c

/-- In the run the stage has been left behind with a complete release of the content, after the content was recorded. -/
def HasPromoted (es : List FlowEvent) (p : PromotionStage) (c : Content) : Prop :=
  ∃ fs e, fs ++ [e] <+: es ∧ HasRecorded digest x fs c ∧
    Promotes (run (flowStep digest) x fs) (flowStep digest (run (flowStep digest) x fs) e) p c

/-- Ring order: every stage that precedes the stage of a release has been left behind with the content of the release. -/
def InRingOrder (es : List FlowEvent) : Prop :=
  ∀ r ∈ (run (flowStep digest) x es).releases, r.stage ∈ x.app.spec.stages.map PromotionStage.name →
    ∀ p ∈ stagesBefore x.app.spec.stages r.stage, HasPromoted digest x es p r.content
end

/-- **Ring order is respected.**  Whenever there is a release of a stage, every stage that precedes it has been left with a
complete release of the same content that was recorded before, and while it was allowed to promote automatically. -/
theorem ring_order_respected (digest : String → String) (settings : SourceSettings) (uid : String) (spec : ApplicationSpec)
    (es : List FlowEvent)
    (hguard : Guarded (flowStep digest) (RingByRing digest) (.create settings uid spec) es) :
    InRingOrder digest (.create settings uid spec) es := by
  have hinv : OrderInv spec (HasPromoted digest (.create settings uid spec) es)
      (HasRecorded digest (.create settings uid spec) es) (run (flowStep digest) (.create settings uid spec) es) := by
    refine guarded_history (motive := fun es => OrderInv spec (HasPromoted digest (.create settings uid spec) es)
      (HasRecorded digest (.create settings uid spec) es) (run (flowStep digest) (.create settings uid spec) es)) ?_ ?_ es
      hguard
    · exact
        { hasSpec := rfl
          order := fun r hr => nomatch hr
          recorded := fun r hr => nomatch hr
          behind := fun _ => Or.inr (atFirstRing_of_cursor rfl).ringsBehind
          rested := fun _ hp => nomatch hp
          selected := fun _ _ => rfl }
    · intro es e _ ih he
      rw [run_append]
      have hgrown : OrderInv spec (HasPromoted digest (.create settings uid spec) (es ++ [e]))
          (HasRecorded digest (.create settings uid spec) (es ++ [e]))
          (run (flowStep digest) (.create settings uid spec) es) := by
        apply ih.mono
        · rintro p c ⟨fs, f, hfs, hpromoted⟩
          exact ⟨fs, f, hfs.trans (List.prefix_append es [e]), hpromoted⟩
        · rintro c ⟨fs, hfs, hrecorded⟩
          exact ⟨fs, hfs.trans (List.prefix_append es [e]), hrecorded⟩
      apply hgrown.step he
      · intro c hc
        exact ⟨es ++ [e], List.prefix_refl _, by rw [run_append]; exact hc⟩
      · intro p c hp
        obtain ⟨r, hr, -, hcontent, -⟩ := hp.complete
        exact ⟨es, e, List.prefix_refl _, by rw [← hcontent]; exact ih.recorded r hr, hp⟩
  intro r hr hstage p hp
  exact hinv.order r hr hstage p hp

section

def ringSettings : SourceSettings := { name := "rings", gitOps := false, syncManual := false, git := true, artifact := none }

def euThenUs : ApplicationSpec :=
  { inline := false
    trigger := .none
    stages :=
      [{ name := "eu", ring := 1, autoPromote := true, parameters := [] },
        { name := "us", ring := 2, autoPromote := true, parameters := [] }]
    parameters := [] }

/-- The digits that the names of its releases take from the SHA-256 sums of their identities. -/
def ringDigest (identity : String) : String :=
  if identity = "ring=eu" then "c0422ba5a5"
  else if identity = "sourceHash=4f2a91c:77aa03\nsourceRevision=4f2a91c\nstage=eu\nparam:release-name=rings-release\n" then
    "b8fb0d46fb"
  else if identity = "sourceHash=4f2a91c:77aa03\nsourceRevision=4f2a91c\nstage=us\nparam:release-name=rings-release\n" then
    "53058c09db"
  else if identity = "sourceHash=b81d6e0:12ff9d\nsourceRevision=b81d6e0\nstage=us\nparam:release-name=rings-release\n" then
    "025e133ebe"
  else "0000000000"

/-- A healthy cluster in which the source resolves to the commit and the hash of its tree. -/
def atCommit (hash revision : String) : FlowEvent :=
  .reconcile
    { held := false, verified := true, admitted := true, artifactValid := true, artifactSelected := true,
      source := some (hash, revision), timedOut := false, window := true, manualWindow := true, policy := true,
      build := .passed, blocked := false, health := .healthy, resourceHealth := [], retired := false }

/-- The first commit is released to the first ring and promoted to the second one. -/
def firstCommit : List FlowEvent :=
  [atCommit "4f2a91c:77aa03" "4f2a91c", .release "rings-release-c0422ba5a5" .complete,
    atCommit "4f2a91c:77aa03" "4f2a91c", atCommit "4f2a91c:77aa03" "4f2a91c", atCommit "4f2a91c:77aa03" "4f2a91c",
    .release "rings-release-b8fb0d46fb" .complete, atCommit "4f2a91c:77aa03" "4f2a91c",
    atCommit "4f2a91c:77aa03" "4f2a91c", .release "rings-release-53058c09db" .complete,
    atCommit "4f2a91c:77aa03" "4f2a91c"]

theorem ring_order_respected_firstCommit :
    InRingOrder ringDigest (.create ringSettings "app-uid" euThenUs) firstCommit ∧
      ∃ r ∈ (run (flowStep ringDigest) (.create ringSettings "app-uid" euThenUs) firstCommit).releases,
        r.stage = "us" ∧ r.phase = .complete :=
  ⟨ring_order_respected ringDigest ringSettings "app-uid" euThenUs firstCommit (by decide +kernel), by decide +kernel⟩

/-- Then an operator asks for a manual sync, which finds a second commit. -/
def secondCommit : List FlowEvent :=
  firstCommit ++ [.sync true, atCommit "b81d6e0:12ff9d" "b81d6e0", atCommit "b81d6e0:12ff9d" "b81d6e0"]

theorem ring_skipped_by_manual_sync : ¬∀ (digest : String → String) (settings : SourceSettings) (uid : String)
    (spec : ApplicationSpec) (es : List FlowEvent), InRingOrder digest (.create settings uid spec) es := by
  intro h
  have hreleased : ∃ r ∈ (run (flowStep ringDigest) (.create ringSettings "app-uid" euThenUs) secondCommit).releases,
      r.stage = "us" ∧ r.content.sourceHash = "b81d6e0:12ff9d" := by decide +kernel
  obtain ⟨r, hr, hstage, hcontent⟩ := hreleased
  have heu : { name := "eu", ring := 1, autoPromote := true, parameters := [] } ∈ stagesBefore euThenUs.stages r.stage := by
    rw [hstage]
    decide
  obtain ⟨fs, e, hinitial, -, hpromotes⟩ :=
    h ringDigest ringSettings "app-uid" euThenUs secondCommit r hr (by rw [hstage]; decide) _ heu
  obtain ⟨verified, hverified, hverifiedStage, hverifiedContent, -⟩ := hpromotes.complete
  -- no release of the first ring ever is of the second commit
  have hnever : ∀ fs ∈ secondCommit.inits,
      ∀ r ∈ (run (flowStep ringDigest) (.create ringSettings "app-uid" euThenUs) fs).releases,
        r.stage = "eu" → r.content.sourceHash ≠ "b81d6e0:12ff9d" := by decide
  have hfs : fs ∈ secondCommit.inits := (List.mem_inits fs secondCommit).mpr ((List.prefix_append fs [e]).trans hinitial)
  exact hnever fs hfs verified hverified hverifiedStage (by rw [hverifiedContent, hcontent])
end

end Paprika.Applications
