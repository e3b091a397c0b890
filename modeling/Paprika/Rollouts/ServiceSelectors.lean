import Paprika.Rollouts.Failures
import Paprika.Rollouts.Presence

/-!
# Which pods the services select

The stable (active) and the canary (preview) Service tell their pods apart by a marker label, which
`executeReplicaSetActions` merges into the pod template of each action.  The template's label map is one cell that
all actions of a reconcile share with the Rollout in memory, unless it is nil: a second action sees the labels of
the first, and the hash stored at the end is the one of the merged map.

* **`serves_apart_of_guarded`** — in a run all of whose reconciles work on a template without labels, or abort, no
  ReplicaSet carries both markers, the two Services select disjoint pods, and the stored hash is the one of the
  template the user wrote;
* **`canary_gets_both_markers`** — with a labelled template the canary ReplicaSet carries both.
-/

namespace Paprika.Rollouts

open Lib.Run List Option

variable {P : Type} {X : Externals P}

/-! ### Markers and selectors -/

def PodTemplateSpec.hasLabel (t : PodTemplateSpec P) (key : String) : Bool := (t.labels.bind fun m => m key).isSome

/-- The template carries a marker of the stable and one of the canary side. -/
def PodTemplateSpec.TwoSided (t : PodTemplateSpec P) : Prop :=
  (t.hasLabel stableLabel = true ∨ t.hasLabel activeLabel = true) ∧
    (t.hasLabel canaryLabel = true ∨ t.hasLabel previewLabel = true)

/-- No ReplicaSet's pod template carries both markers. -/
def Apart (c : Cluster P) : Prop := ∀ name rs, c.lookup name = some rs → ¬rs.template.TwoSided

def selects (selector : List (String × String)) (t : PodTemplateSpec P) : Bool :=
  selector.all fun kv => (t.labels.bind fun m => m kv.1) == some kv.2

/-- No two Services of the rollout select pods of one ReplicaSet, once `ensureServices` ran. -/
def SelectApart (ro : Rollout P) (services : AList fun _ : String => Service) (c : Cluster P) : Prop :=
  ∀ n₁ n₂ svc₁ svc₂, n₁ ≠ n₂ → n₁ ∈ (serviceNames ro).map Prod.fst → n₂ ∈ (serviceNames ro).map Prod.fst →
    (ensureServices ro services).lookup n₁ = some svc₁ → (ensureServices ro services).lookup n₂ = some svc₂ →
    ∀ name rs, c.lookup name = some rs →
      ¬(selects svc₁.selector rs.template = true ∧ selects svc₂.selector rs.template = true)

/-! ### The condition -/

/-- The template has no labels, also none of an adopted Deployment; or it has its own, and the reconcile aborts. -/
def MergesNothing (X : Externals P) (w : World P) : Event P → Prop
  | .reconcile inp =>
    w.effective.spec.template.labels.isNone = true ∨
      w.rollout.spec.template.labels.isSome = true ∧ w.status.stableRS ≠ "" ∧
        isAborted w.effective (w.observed X inp) = true
  | _ => True

instance (w : World P) : ∀ e, Decidable (MergesNothing X w e)
  | .setTemplate _ => .isTrue trivial
  | .setAnnotations _ => .isTrue trivial
  | .setDeployment _ => .isTrue trivial
  | .setReady _ _ => .isTrue trivial
  | .reconcile _ => inferInstanceAs (Decidable (_ ∨ _))

/-! ### The services -/

section
variable (ro : Rollout P) (services : AList fun _ : String => Service)

theorem lookup_ensureService_ne (name role : String) {other : String} (hne : other ≠ name) :
    (ensureService ro name role services).lookup other = services.lookup other := by
  unfold ensureService
  dsimp only
  split <;> exact AList.lookup_insert_ne hne

theorem lookup_ensureService_self (name role : String) :
    ∃ svc, (ensureService ro name role services).lookup name = some svc ∧ svc.selector = serviceSelector ro role := by
  unfold ensureService
  dsimp only
  split <;> exact ⟨_, AList.lookup_insert _, rfl⟩

variable {names : List (String × String)}

theorem lookup_foldl_ensureService_ne {other : String}
    (hne : other ∉ names.map Prod.fst) :
    ∀ services, (names.foldl (fun services e => ensureService ro e.1 e.2 services) services).lookup other
      = services.lookup other := by
  induction names with
  | nil => intro services; rfl
  | cons e names ih =>
    intro services
    rw [map_cons, mem_cons, not_or] at hne
    rw [foldl_cons, ih hne.2, lookup_ensureService_ne ro services e.1 e.2 hne.1]

variable {e : String × String}

/-- Every service of a list without repeated names ends up with the selector of its role. -/
theorem lookup_foldl_ensureService (hnd : (names.map Prod.fst).Nodup)
    (he : e ∈ names) :
    ∀ services, ∃ svc, (names.foldl (fun services e => ensureService ro e.1 e.2 services) services).lookup e.1
      = some svc ∧ svc.selector = serviceSelector ro e.2 := by
  induction names with
  | nil => cases he
  | cons f names ih =>
    intro services
    rw [map_cons, nodup_cons] at hnd
    rw [foldl_cons]
    rcases mem_cons.mp he with rfl | he
    · rw [lookup_foldl_ensureService_ne ro hnd.1]
      exact lookup_ensureService_self ro services e.1 e.2
    · exact ih hnd.2 he _

omit services in
theorem servicePair_nodup (first firstRole second secondRole : String) :
    ((servicePair first firstRole second secondRole).map Prod.fst).Nodup := by
  unfold servicePair
  split
  · simp
  · rename_i hne
    simp [hne]

omit services in
theorem mem_servicePair {first firstRole second secondRole : String}
    (he : e ∈ servicePair first firstRole second secondRole) :
    e = (first, firstRole) ∨ e = (second, secondRole) := by
  unfold servicePair at he
  split at he
  · exact .inr (mem_singleton.mp he)
  · rcases mem_cons.mp he with rfl | he
    · exact .inl rfl
    · exact .inr (mem_singleton.mp he)

theorem serviceNames_cases :
    serviceNames ro = [] ∨ ∃ first second roles, roles ∈ [("active", "preview"), ("stable", "canary")] ∧
      serviceNames ro = (servicePair first roles.1 second roles.2).filter fun e => e.1 ≠ "" := by
  have hactive : ("active", "preview") ∈ [("active", "preview"), ("stable", "canary")] := by simp
  have hstable : ("stable", "canary") ∈ [("active", "preview"), ("stable", "canary")] := by simp
  unfold serviceNames
  dsimp only
  split
  · exact .inr ⟨_, _, _, hactive, rfl⟩
  · exact .inr ⟨_, _, _, hstable, rfl⟩
  · exact .inr ⟨_, _, _, hstable, rfl⟩
  · exact .inr ⟨_, _, _, hstable, rfl⟩
  · exact .inl rfl

variable {ro services}

theorem selects_marker {role : String} {t : PodTemplateSpec P}
    (h : selects (serviceSelector ro role) t = true) : t.hasLabel ("rollouts.paprika.io/" ++ role) = true := by
  simp only [selects, serviceSelector, all_cons, all_nil, Bool.and_true, Bool.and_eq_true,
    beq_iff_eq] at h
  rw [PodTemplateSpec.hasLabel, h.2]
  rfl

theorem twoSided_of_selects {roles : String × String}
    (hroles : roles ∈ [("active", "preview"), ("stable", "canary")]) {t : PodTemplateSpec P}
    (h₁ : selects (serviceSelector ro roles.1) t = true) (h₂ : selects (serviceSelector ro roles.2) t = true) :
    t.TwoSided := by
  have hmark₁ := selects_marker h₁
  have hmark₂ := selects_marker h₂
  rcases mem_cons.mp hroles with rfl | hroles
  · exact ⟨.inr hmark₁, .inr hmark₂⟩
  · rw [mem_singleton.mp hroles] at hmark₁ hmark₂
    exact ⟨.inl hmark₁, .inl hmark₂⟩

/-- **Disjoint pods.**  Where no template carries both markers, no two services select pods of one ReplicaSet. -/
theorem Apart.selectApart {c : Cluster P} (h : Apart c) : SelectApart ro services c := by
  intro n₁ n₂ svc₁ svc₂ hne hn₁ hn₂ hsvc₁ hsvc₂ name rs hrs
  rintro ⟨hselect₁, hselect₂⟩
  obtain ⟨e₁, he₁, rfl⟩ := mem_map.mp hn₁
  obtain ⟨e₂, he₂, rfl⟩ := mem_map.mp hn₂
  rcases serviceNames_cases ro with hnil | ⟨first, second, roles, hroles, heq⟩
  · rw [hnil] at he₁; cases he₁
  have hnd : ((serviceNames ro).map Prod.fst).Nodup := by
    rw [heq]
    exact (servicePair_nodup first roles.1 second roles.2).sublist (filter_sublist.map _)
  have hsel : ∀ {e : String × String} {svc : Service}, e ∈ serviceNames ro →
      (ensureServices ro services).lookup e.1 = some svc → svc.selector = serviceSelector ro e.2 := by
    intro e svc he hsvc
    obtain ⟨found, hfound, hsel⟩ := lookup_foldl_ensureService ro hnd he services
    cases hsvc.symm.trans hfound
    exact hsel
  rw [hsel he₁ hsvc₁] at hselect₁
  rw [hsel he₂ hsvc₂] at hselect₂
  rw [heq] at he₁ he₂
  -- two names, so one service is of the stable and one of the canary side
  rcases mem_servicePair (mem_filter.mp he₁).1 with rfl | rfl <;>
    rcases mem_servicePair (mem_filter.mp he₂).1 with rfl | rfl
  · exact hne rfl
  · exact h name rs hrs (twoSided_of_selects hroles hselect₁ hselect₂)
  · exact h name rs hrs (twoSided_of_selects hroles hselect₂ hselect₁)
  · exact hne rfl
end

/-! ### The labels a result merges -/

/-- The keys hold markers of one side only. -/
def OneSidedKeys (keys : List String) : Prop :=
  ¬((stableLabel ∈ keys ∨ activeLabel ∈ keys) ∧ (canaryLabel ∈ keys ∨ previewLabel ∈ keys))

instance (keys : List String) : Decidable (OneSidedKeys keys) := inferInstanceAs (Decidable (¬_))

section
variable {ro : Rollout P} {status status' : RolloutStatus} {inp : SyncInputs} {result : SyncResult P}

variable {labels : List (String × String)}

theorem overlay_isSome {key : String} :
    ∀ {m : Labels}, (overlay m labels key).isSome = true → (m key).isSome = true ∨ key ∈ labels.map Prod.fst := by
  induction labels with
  | nil => intro m h; exact .inl h
  | cons kv labels ih =>
    intro m h
    rw [overlay, foldl_cons] at h
    rcases ih h with hm | hmem
    · by_cases hk : key = kv.1
      · exact .inr (by rw [hk]; simp)
      · rw [Function.update_of_ne hk] at hm
        exact .inl hm
    · exact .inr (mem_cons_of_mem _ hmem)

theorem not_twoSided_of_keys (h : OneSidedKeys (labels.map Prod.fst))
    (t : PodTemplateSpec P) :
    ¬PodTemplateSpec.TwoSided { t with labels := some (overlay (fun _ => none) labels) } := by
  have hkey : ∀ key, PodTemplateSpec.hasLabel
      { t with labels := some (overlay (fun _ => none) labels) } key = true → key ∈ labels.map Prod.fst := by
    intro key hk
    rcases overlay_isSome (show (overlay (fun _ => none) labels key).isSome = true from hk) with hnone | hmem
    · cases hnone
    · exact hmem
  rintro ⟨hstable, hcanary⟩
  exact h ⟨hstable.imp (hkey _) (hkey _), hcanary.imp (hkey _) (hkey _)⟩

/-- An action that sends a template merges markers of one side into it. -/
def ReplicaSetAction.OneSided (a : ReplicaSetAction P) : Prop :=
  a.template = none ∨ OneSidedKeys (a.labels.map Prod.fst)

theorem oneSided_stable (ro : Rollout P) (marker hash : String) (r : Int) :
    (revisionRS ro marker [stableLabel] hash r).OneSided :=
  .inr (show OneSidedKeys [stableLabel, revisionLabel, rolloutLabel] by decide)

theorem oneSided_canary (ro : Rollout P) (marker hash : String) (r : Int) :
    (revisionRS ro marker [canaryLabel] hash r).OneSided :=
  .inr (show OneSidedKeys [canaryLabel, revisionLabel, rolloutLabel] by decide)

theorem oneSided_active (ro : Rollout P) (marker hash : String) (r : Int) :
    (revisionRS ro marker [activeLabel, stableLabel] hash r).OneSided :=
  .inr (show OneSidedKeys [activeLabel, stableLabel, revisionLabel, rolloutLabel] by decide)

theorem oneSided_preview (ro : Rollout P) (marker hash : String) (r : Int) :
    (revisionRS ro marker [previewLabel, canaryLabel] hash r).OneSided :=
  .inr (show OneSidedKeys [previewLabel, canaryLabel, revisionLabel, rolloutLabel] by decide)

theorem oneSided_abort (ro : Rollout P) (status : RolloutStatus) (hash : String) (desired : Int) :
    ∀ a ∈ (abortResult ro status hash desired).replicaSets, a.OneSided :=
  fun _ ha => .inl (abortResult_template ha)

theorem oneSided_single {a : ReplicaSetAction P} (ha : a.OneSided) : ∀ b ∈ [a], b.OneSided := by
  intro b hb
  rw [mem_singleton.mp hb]
  exact ha

theorem oneSided_pair {a b : ReplicaSetAction P} (ha : a.OneSided) (hb : b.OneSided) : ∀ c ∈ [a, b], c.OneSided := by
  intro c hc
  rcases mem_cons.mp hc with rfl | hc
  · exact ha
  · rw [mem_singleton.mp hc]
    exact hb

/-- **Every action is one-sided**, whichever strategy computed it. -/
theorem Strategy.sync_oneSided {strategy : Strategy}
    (h : strategy.sync X ro status inp = .ok (status', result)) : ∀ a ∈ result.replicaSets, a.OneSided := by
  have hstable : ∀ hash r, (revisionRS ro "-stable-" [stableLabel] hash r).OneSided := oneSided_stable ro _
  have hcanary : ∀ hash r, (revisionRS ro "-canary-" [canaryLabel] hash r).OneSided := oneSided_canary ro _
  have hactive : ∀ hash r, (revisionRS ro "-active-" [activeLabel, stableLabel] hash r).OneSided :=
    oneSided_active ro _
  have hpreview : ∀ hash r, (revisionRS ro "-preview-" [previewLabel, canaryLabel] hash r).OneSided :=
    oneSided_preview ro _
  cases strategy with
  | rolling cfg =>
    obtain ⟨rfl, hout⟩ := Rolling.sync_outcome h
    cases hout with
    | create => exact oneSided_single (oneSided_stable ro _ _ _)
    | abort => exact oneSided_abort _ _ _ _
    | converged =>
      exact oneSided_single (.inr (show OneSidedKeys [stableLabel, revisionLabel, rolloutLabel] by decide))
    | complete => exact oneSided_single (oneSided_stable ro _ _ _)
    | progress => exact oneSided_pair (.inl rfl) (hcanary _ _)
  | canary cfg =>
    obtain ⟨c, -, -, hout⟩ := Canary.sync_outcome h
    cases hout with
    | create => exact oneSided_single (hstable _ _)
    | abort => exact oneSided_abort _ _ _ _
    | createCanary => exact oneSided_pair (hstable _ _) (hcanary _ _)
    | step => exact oneSided_pair (hstable _ _) (hcanary _ _)
    | complete => exact oneSided_single (hstable _ _)
    | promote => exact oneSided_single (hstable _ _)
  | blueGreen cfg =>
    cases BlueGreen.sync_outcome h with
    | create => exact oneSided_single (hactive _ _)
    | abort => exact oneSided_abort _ _ _ _
    | drained => exact oneSided_single (hactive _ _)
    | draining => exact oneSided_pair (hactive _ _) (.inl rfl)
    | activeMatches => exact oneSided_single (hactive _ _)
    | previewed => exact oneSided_pair (hactive _ _) (hpreview _ _)
    | promote => exact oneSided_pair (hactive _ _) (.inl rfl)
    | waiting => exact oneSided_pair (hactive _ _) (hpreview _ _)
  | abTest cfg =>
    obtain ⟨rfl, hout⟩ := ABTest.sync_outcome h
    cases hout with
    | create => exact oneSided_single (hstable _ _)
    | abort => exact oneSided_abort _ _ _ _
    | createCanary => exact oneSided_pair (hstable _ _) (hcanary _ _)
    | promote => exact oneSided_single (hstable _ _)
    | routed => exact oneSided_pair (hstable _ _) (hcanary _ _)
  | mirror cfg =>
  obtain ⟨rfl, hout⟩ := Mirror.sync_outcome h
  cases hout with
  | create => exact oneSided_single (hstable _ _)
  | abort => exact oneSided_abort _ _ _ _
  | promote => exact oneSided_single (hstable _ _)
  | mirrored => exact oneSided_pair (hstable _ _) (hcanary _ _)
end

/-! ### Executing the actions -/

section
variable [Inhabited P] {w : World P} {inp : ReconcileInput} {status : RolloutStatus} {result : SyncResult P}

/-- An action that sends no template, or finds a nil map, merges nothing into the shared map. -/
theorem labels_executeAction {a : ReplicaSetAction P} {x : Exec P} (createdAt : Int)
    (h : a.template = none ∨ x.labels = none) : (executeAction createdAt a x).labels = x.labels := by
  unfold executeAction
  cases ht : a.template with
  | none => rfl
  | some t =>
    have hnil : x.labels = none := h.resolve_left (by rw [ht]; exact some_ne_none t)
    rw [hnil]
    rfl

theorem apart_executeAction {a : ReplicaSetAction P} {x : Exec P} (createdAt : Int) (ha : a.OneSided)
    (hlabels : a.template = none ∨ x.labels = none) (hx : Apart x.cluster) :
    Apart (executeAction createdAt a x).cluster := by
  have hzero : ¬PodTemplateSpec.TwoSided (PodTemplateSpec.zero P) := by rintro ⟨h | h, -⟩ <;> cases h
  intro name rs hrs
  by_cases hname : name = a.name
  swap
  · rw [lookup_executeAction_ne createdAt a x hname] at hrs
    exact hx name rs hrs
  rw [hname] at hrs
  unfold executeAction at hrs
  cases ht : a.template with
  | none =>
    simp only [ht, AList.lookup_insert, Option.some.injEq] at hrs
    subst hrs
    cases hl : x.cluster.lookup a.name with
    | none => exact hzero
    | some found => exact hx a.name found hl
  | some t =>
  have hsome : a.template ≠ none := by rw [ht]; exact some_ne_none t
  have hsent := not_twoSided_of_keys (ha.resolve_left hsome) t
  simp only [ht, hlabels.resolve_left hsome, AList.lookup_insert, Option.some.injEq] at hrs
  subst hrs
  cases x.cluster.lookup a.name <;> exact hsent

omit [Inhabited P] in
theorem effective_template (h : w.effective.spec.template.labels.isNone = true ∨
    w.rollout.spec.template.labels.isSome = true) : w.effective.spec.template = w.rollout.spec.template := by
  unfold World.effective resolveTarget at h ⊢
  by_cases hkind : (applyDefaults w.rollout).spec.target.kind ≠ "Deployment" ∨
      (applyDefaults w.rollout).spec.target.name = ""
  · rw [if_pos hkind]; rfl
  rw [if_neg hkind] at h ⊢
  cases hd : w.deployment with
  | none => rfl
  | some deploy =>
  rw [hd] at h
  dsimp only at h ⊢
  by_cases hadopt : (applyDefaults w.rollout).spec.template.labels.isNone = true ∧ deploy.labels ≠ []
  · -- an adopted template has labels, and replaces one that has none
    rw [if_pos hadopt] at h
    rcases h with h | h
    · cases h
    · have hnone : w.rollout.spec.template.labels = none := isNone_iff_eq_none.mp hadopt.1
      rw [hnone] at h
      cases h
  · rw [if_neg hadopt]; rfl

section
variable (hguard : MergesNothing X w (.reconcile inp)) (hsync : Synced X w inp status result)
include hguard hsync

omit [Inhabited P] in
/-- A guarded result merges nothing: its actions are one-sided, and send no template or find a nil map. -/
theorem merges_nothing : ∀ a ∈ result.replicaSets, a.OneSided ∧
      (a.template = none ∨ w.effective.spec.template.labels = none) := by
  obtain ⟨strategy, -, hok⟩ := hsync
  intro a ha
  refine ⟨Strategy.sync_oneSided hok a ha, ?_⟩
  rcases hguard with hnil | ⟨-, hs, habort⟩
  · exact .inr (isNone_iff_eq_none.mp hnil)
  · obtain ⟨rfl, hash, rfl⟩ := Strategy.sync_aborted hok (by rw [observed_stableRS]; exact hs) habort
    exact .inl (abortResult_template ha)

/-- Executing a guarded result, up to the first failing call, leaves the label map as it is. -/
theorem labels_executed (fault : String → Option String) (createdAt : Int) (c : Cluster P) :
    (executeReplicaSetActions fault createdAt result.replicaSets
      ⟨c, w.effective.spec.template.labels⟩).1.labels = w.effective.spec.template.labels := by
  refine executeReplicaSetActions_invariant
    (motive := fun x => x.labels = w.effective.spec.template.labels) ?_ _ rfl
  intro a ha x hlabels
  have hnil := (merges_nothing hguard hsync a ha).2
  rw [← hlabels] at hnil ⊢
  exact labels_executeAction createdAt hnil

/-- **Executing a guarded result**, up to the first failing call, keeps the ReplicaSets apart. -/
theorem apart_executed (hw : Apart w.replicaSets) (fault : String → Option String) (createdAt : Int) :
    Apart (executeReplicaSetActions fault createdAt result.replicaSets
      ⟨w.replicaSets, w.effective.spec.template.labels⟩).1.cluster := by
  refine (executeReplicaSetActions_invariant
    (motive := fun x => Apart x.cluster ∧ x.labels = w.effective.spec.template.labels) ?_ _ ⟨hw, rfl⟩).1
  rintro a ha x ⟨hx, hlabels⟩
  obtain ⟨hone, hnil⟩ := merges_nothing hguard hsync a ha
  rw [← hlabels] at hnil ⊢
  exact ⟨apart_executeAction createdAt hone hnil hx, labels_executeAction createdAt hnil⟩
end

omit [Inhabited P] in
theorem Apart.prune {c : Cluster P} (h : Apart c) (ro : Rollout P) (status : RolloutStatus) :
    Apart (pruneReplicaSets ro status c) :=
  fun name rs hrs => h name rs (lookup_prune_some hrs)

theorem step_apart {e : Event P} (hguard : MergesNothing X w e) (hw : Apart w.replicaSets) :
    Apart (step X w e).replicaSets := by
  cases e with
  | setTemplate t => exact hw
  | setAnnotations a => exact hw
  | setDeployment d => exact hw
  | setReady name ready =>
    intro other rs hrs
    obtain ⟨f, hf, hlook⟩ := lookup_setReady w.replicaSets name other ready
    rw [step, hlook] at hrs
    obtain ⟨found, hfound, rfl⟩ := map_eq_some_iff.mp hrs
    rw [(hf found).2.2]
    exact hw other found hfound
  | reconcile inp =>
  rcases cluster_step X w inp with hsame | ⟨status, result, hsync, hcluster⟩
  · rw [hsame]; exact hw
  · have hexec := apart_executed hguard hsync hw inp.faults.execute inp.createdAt
    rcases hcluster with heq | heq
    · rw [heq]; exact hexec
    · rw [heq]; exact hexec.prune _ _

/-- The hash a guarded result stores is the one of the template the user wrote. -/
theorem stored_hash (hguard : MergesNothing X w (.reconcile inp)) (hsync : Synced X w inp status result) :
    (w.settled X inp status result).status.currentPodHash = X.currentHash w.rollout := by
  have hlabels := labels_executed hguard hsync (fun _ => none) inp.createdAt w.replicaSets
  rw [executeReplicaSetActions_eq] at hlabels
  have htemplate : w.effective.spec.template = w.rollout.spec.template := effective_template (hguard.imp id And.left)
  rw [settled_currentPodHash, World.executed, hlabels, Externals.currentHash, htemplate]
  rfl
end

/-! ### Along a run -/

variable [Inhabited P]

/-- **Stable and canary services select disjoint pods**, in a run all of whose reconciles merge nothing into a template with
labels. -/
theorem serves_apart_of_guarded (X : Externals P) {w : World P} (hfresh : Fresh w) {es : List (Event P)}
    (hguarded : Guarded (step X) (MergesNothing X) w es) :
    (Apart (after X w es).replicaSets ∧
      SelectApart (after X w es).effective (after X w es).services (after X w es).replicaSets) ∧
    ∀ pre inp post, es = pre ++ .reconcile inp :: post →
      ∀ status result, Synced X (after X w pre) inp status result →
        Apart ((after X w pre).executed inp result).cluster ∧
        SelectApart (after X w pre).effective (after X w pre).services
          ((after X w pre).executed inp result).cluster ∧
        ((after X w pre).settled X inp status result).status.currentPodHash
          = X.currentHash (after X w pre).rollout := by
  have hrun : ∀ fs : List (Event P), Guarded (step X) (MergesNothing X) w fs → Apart (after X w fs).replicaSets := by
    intro fs hg
    refine guarded_invariant (motive := fun v : World P => Apart v.replicaSets) ?_ ?_ hg
    · intro v e hv he
      exact step_apart he hv
    · rw [hfresh.2]
      intro name rs hrs
      cases hrs
  refine ⟨⟨hrun es hguarded, (hrun es hguarded).selectApart⟩, ?_⟩
  rintro pre inp post rfl status result hsync
  obtain ⟨hpre, hpost⟩ := guarded_append.mp hguarded
  have hexec := apart_executed hpost.1 hsync (hrun pre hpre) (fun _ => none) inp.createdAt
  rw [executeReplicaSetActions_eq] at hexec
  exact ⟨hexec, Apart.selectApart hexec, stored_hash hpost.1 hsync⟩

/-! ### A canary of a labelled template, and one without labels -/

namespace Sample

def timedStep (template : RolloutTemplate Nat) : World Nat :=
  world { noStrategy .canary with canary := some ⟨[⟨25, some 60⟩], "", ""⟩ } 4 none template

/-- The next revision arrives and its canary is created. -/
def nextRevision (template : RolloutTemplate Nat) : List (Event Nat) :=
  [reconcileAt 0, .setTemplate template, reconcileAt 1]

end Sample

open Sample

/-- **The stable service selects the canary.** -/
theorem canary_gets_both_markers : Fresh (timedStep (labelled 1)) ∧
    (∃ rs, (after externals (timedStep (labelled 1)) (nextRevision (labelled 2))).replicaSets.lookup
        "ro-canary-2001000000" = some rs ∧ rs.template.TwoSided ∧
      selects (serviceSelector (timedStep (labelled 1)).rollout "stable") rs.template = true ∧
      selects (serviceSelector (timedStep (labelled 1)).rollout "canary") rs.template = true) ∧
    (after externals (timedStep (labelled 1)) (nextRevision (labelled 2))).status.currentPodHash
      ≠ externals.currentHash (after externals (timedStep (labelled 1)) (nextRevision (labelled 2))).rollout := by
  refine ⟨world_fresh .., ?_, by decide⟩
  have hmarked : ((after externals (timedStep (labelled 1)) (nextRevision (labelled 2))).replicaSets.lookup
      "ro-canary-2001000000").map (fun rs => ((rs.template.hasLabel stableLabel, rs.template.hasLabel canaryLabel),
        selects (serviceSelector (timedStep (labelled 1)).rollout "stable") rs.template,
        selects (serviceSelector (timedStep (labelled 1)).rollout "canary") rs.template))
      = some ((true, true), true, true) := by decide
  obtain ⟨rs, hrs, hpair⟩ := map_eq_some_iff.mp hmarked
  simp only [Prod.mk.injEq] at hpair
  obtain ⟨⟨hstable, hcanary⟩, hselects⟩ := hpair
  exact ⟨rs, hrs, ⟨.inl hstable, .inl hcanary⟩, hselects⟩

theorem unlabelled_canary_is_apart :
    Apart (after externals (timedStep (plain 1)) (nextRevision (plain 2))).replicaSets ∧
      SelectApart (after externals (timedStep (plain 1)) (nextRevision (plain 2))).effective
        (after externals (timedStep (plain 1)) (nextRevision (plain 2))).services
        (after externals (timedStep (plain 1)) (nextRevision (plain 2))).replicaSets :=
  (serves_apart_of_guarded externals (world_fresh ..) (by decide)).1

end Paprika.Rollouts
