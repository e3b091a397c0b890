import Paprika.Policies.Ceiling

/-!
# Where management policies are enforced

The places of the Application and the Release controller that act on a deployment target: the apply gate and the
self-heal of an Application, the promotion of a Release with its apply and its two prunes, the hand-off to a progressive
strategy, and the deletion of what a Release has applied.

`policies_enforced_iff`: what a place does is within the ceiling of the target and the request of the stage of the
Application that deploys there, exactly when the condition of that place holds (`EnforcementPoint.Sound`).  The Stage
objects carry no request (`buildStageSpec`), the list of in-cluster registrations may fail unnoticed, a selective prune
asks for no policy, the self-heal asks for the first declared stage, and the deletion for the Stage of `spec.target`.
-/

namespace Paprika.Policies

/-! ## Stages -/

inductive DeliveryStrategy
  | unset | rolling | canary | blueGreen
  deriving DecidableEq, Repr

/-- `ApplicationPromotionStage`; of the canary configuration the steps. -/
structure ApplicationStage where
  name : String
  ring : Int
  cluster : ClusterRef
  strategy : Option DeliveryStrategy
  canary : Option (List Int)
  managementPolicies : PolicyList
  deriving DecidableEq, Repr

/-- `StageSpec`. -/
structure StageObject where
  cluster : ClusterRef
  canary : Option (List Int)
  rolloutStrategy : Bool
  managementPolicies : PolicyList
  deriving DecidableEq, Repr

def resolveStageStrategy (appStrategy : DeliveryStrategy) (s : ApplicationStage) : DeliveryStrategy :=
  s.strategy.getD appStrategy

def resolveStageCanary (s : ApplicationStage) (strategy : DeliveryStrategy) : Option (List Int) :=
  if strategy = .canary then s.canary else none

/-- `buildStageSpec`: no field for the request of the stage is set. -/
def buildStageSpec (appStrategy : DeliveryStrategy) (s : ApplicationStage) : StageObject where
  cluster := s.cluster
  canary := resolveStageCanary s (resolveStageStrategy appStrategy s)
  rolloutStrategy := false
  managementPolicies := none

def currentStageIn (stages : List ApplicationStage) (currentStage : String) : Option ApplicationStage :=
  match stages with
  | [] => none
  | stage :: rest =>
    let lowest := rest.foldl (fun first s => if s.ring < first.ring then s else first) stage
    if currentStage = "" then some lowest else ((stage :: rest).find? (fun s => s.name == currentStage)).getD lowest

/-! ## The questions -/

section
variable (I : Installation) (ns : String) (reads : PolicyReads)

def resolveStagePolicies (stage : StageObject) : Option PolicyList :=
  (resolveClusterCeiling I reads stage.cluster ns).map
    (fun ceiling => intersectManagementPolicies ceiling stage.managementPolicies)

def policiesForStage : Option StageObject → Option PolicyList
  | none => some defaultManagementPolicies
  | some stage => resolveStagePolicies I ns reads stage

def policiesForApplicationStage (stage : ApplicationStage) : Option PolicyList :=
  (resolveClusterCeiling I reads stage.cluster ns).map
    (fun ceiling => intersectManagementPolicies ceiling stage.managementPolicies)

/-- Why an operation is refused. -/
inductive PolicyError
  | unresolved | withheld
  deriving DecidableEq, Repr

/-- The answer to a question. -/
def ask (policies : Option PolicyList) (action : ManagementPolicy) : Option PolicyError :=
  match policies with
  | none => some .unresolved
  | some p => if allows p action then none else some .withheld

def rolloutPolicyError (stage : StageObject) : Option PolicyError :=
  if !stage.rolloutStrategy && (stage.canary.getD []).isEmpty then none
  else ask (policiesForStage I ns reads (some stage)) .rollout

def selfHealPolicyError (stages : List ApplicationStage) : Option PolicyError :=
  match stages with
  | [] => none
  | first :: _ => ask (policiesForApplicationStage I ns reads first) .selfHeal
end

/-! ## The places -/

/-- What is done, and the stage of the Application on whose target. -/
abbrev Act := ManagementPolicy × ApplicationStage

inductive Transport
  | direct | agent
  deriving DecidableEq, Repr

/-- `syncResourcesPayload`. -/
structure Selection where
  resources : List String
  prune : Bool
  deriving DecidableEq, Repr

/-- An apply of manifests: a promotion, a canary step or promotion, or a rollback. -/
structure ManifestApply where
  stage : ApplicationStage
  appStrategy : DeliveryStrategy
  reads : PolicyReads
  /-- `resolveClusterRef`; `none` when it fails. -/
  transport : Option Transport
  /-- Whether the annotation of the selective sync cannot be read. -/
  malformed : Bool
  selection : Option Selection
  /-- `SyncOptions.Prune`. -/
  prune : Bool
  connected : Bool
  documentsApplied : Bool
  deriving DecidableEq, Repr

namespace ManifestApply

variable (x : ManifestApply)

def selective : Bool := x.selection.any (fun sel => !sel.resources.isEmpty)

def prunesSelected : Bool := x.selection.any (fun sel => !sel.resources.isEmpty && sel.prune)

def pruneAfterApply (policies : PolicyList) : List Act := if allows policies .prune then [(.prune, x.stage)] else []

def applyManifestsWithCredentialNamespace (policies : PolicyList) : List Act :=
  if !x.connected then []
  else
    (.apply, x.stage) ::
      if !x.documentsApplied then []
      else if x.selective then (if x.prunesSelected then [(.prune, x.stage)] else [])
      else if x.prune then x.pruneAfterApply policies
      else []

def applyManifestsForCluster (transport : Transport) (policies : PolicyList) : List Act :=
  if !allows policies .apply then []
  else
    match transport with
    | .agent => if x.prunesSelected then [] else [(.apply, x.stage)]
    | .direct => x.applyManifestsWithCredentialNamespace policies

def applyPromotedManifests (I : Installation) (ns : String) : List Act :=
  match x.transport with
  | none => []
  | some transport =>
    if x.malformed then []
    else
      match policiesForStage I ns x.reads (some (buildStageSpec x.appStrategy x.stage)) with
      | none => []
      | some policies => x.applyManifestsForCluster transport policies

end ManifestApply

/-- `promote`: the question before the rendering, and the apply after it. -/
structure Promotion where
  stageRead : Bool
  reads : PolicyReads
  /-- The manifests are rendered and pass the gates. -/
  prepared : Bool
  applied : ManifestApply
  deriving DecidableEq, Repr

def Promotion.promote (x : Promotion) (I : Installation) (ns : String) : List Act :=
  if !x.stageRead then []
  else
    match ask (policiesForStage I ns x.reads (some (buildStageSpec x.applied.appStrategy x.applied.stage))) .apply with
    | some _ => []
    | none =>
      -- rendering, snapshots and hooks, before the manifests
      (.apply, x.applied.stage) :: if x.prepared then x.applied.applyPromotedManifests I ns else []

/-- `advanceAfterPromotion`. -/
structure HandOff where
  stage : ApplicationStage
  appStrategy : DeliveryStrategy
  stageRead : Bool
  reads : PolicyReads
  deriving DecidableEq, Repr

def HandOff.advanceAfterPromotion (x : HandOff) (I : Installation) (ns : String) : List Act :=
  let stage := buildStageSpec x.appStrategy x.stage
  if !x.stageRead then []
  else
    match rolloutPolicyError I ns x.reads stage with
    | some _ => []
    | none =>
      if stage.rolloutStrategy then [(.rollout, x.stage)]
      else if !(stage.canary.getD []).isEmpty then [(.rollout, x.stage)]
      else []

/-- `cleanupManagedResources`. -/
structure Cleanup where
  /-- The Stages that the release has been at, and whether their transport has no way to delete. -/
  stages : List (ApplicationStage × Bool)
  /-- Whether `cleanupTargetClients` resolves all of them. -/
  resolved : Bool
  /-- The Stage of `spec.target`, where it can be fetched. -/
  target : Option ApplicationStage
  appStrategy : DeliveryStrategy
  reads : PolicyReads
  deriving DecidableEq, Repr

namespace Cleanup

variable (x : Cleanup)

def cleanupTargetClients : List ApplicationStage :=
  if x.resolved then (x.stages.filter (fun s => !s.2)).map Prod.fst else []

def deletePermittedTargets (I : Installation) (ns : String) (targets : List ApplicationStage) : List ApplicationStage :=
  match x.target with
  | none => targets
  | some t =>
    match policiesForStage I ns x.reads (some (buildStageSpec x.appStrategy t)) with
    | none => []
    | some policies => if allows policies .delete then targets else []

def cleanupManagedResources (I : Installation) (ns : String) : List Act :=
  (x.deletePermittedTargets I ns x.cleanupTargetClients).map (fun s => (.delete, s))

end Cleanup

/-- A reconcile of an Application: the stages of its deployment, and where it is. -/
structure ApplicationReconcile where
  stages : List ApplicationStage
  currentStage : String
  reads : PolicyReads
  /-- Whether everything else lets it heal, or create a Release. -/
  due : Bool
  deriving DecidableEq, Repr

def ApplicationReconcile.reconcileSelfHeal (x : ApplicationReconcile) (I : Installation) (ns : String) : List Act :=
  match selfHealPolicyError I ns x.reads x.stages with
  | some _ => []
  | none => if x.due then (currentStageIn x.stages x.currentStage).toList.map (fun s => (.selfHeal, s)) else []

def ApplicationReconcile.applyPolicyGate (x : ApplicationReconcile) (I : Installation) (ns : String) : List Act :=
  match currentStageIn x.stages x.currentStage with
  | none => []
  | some s =>
    match ask (policiesForApplicationStage I ns x.reads s) .apply with
    | some _ => []
    | none => if x.due then [(.apply, s)] else []

inductive EnforcementPoint
  | promotion (x : Promotion)
  | manifestApply (x : ManifestApply)
  | handOff (x : HandOff)
  | cleanup (x : Cleanup)
  | selfHeal (x : ApplicationReconcile)
  | applyGate (x : ApplicationReconcile)
  deriving DecidableEq, Repr

/-- What is done, with the stage on whose target. -/
def EnforcementPoint.performs (I : Installation) (ns : String) : EnforcementPoint → List Act
  | .promotion x => x.promote I ns
  | .manifestApply x => x.applyPromotedManifests I ns
  | .handOff x => x.advanceAfterPromotion I ns
  | .cleanup x => x.cleanupManagedResources I ns
  | .selfHeal x => x.reconcileSelfHeal I ns
  | .applyGate x => x.applyPolicyGate I ns

/-! ## What is permitted -/

section
variable (I : Installation) (ns : String)

def Permitted (s : ApplicationStage) (action : ManagementPolicy) : Prop :=
  CeilingGrants I s.cluster ns action ∧ allows s.managementPolicies action = true

/-- Everything that is done is permitted. -/
def Bounded (p : EnforcementPoint) : Prop := ∀ act ∈ p.performs I ns, Permitted I ns act.2 act.1

/-- A question about a Stage object lets an action through: its ceiling grants it, or is not seen. -/
def LetsThrough (reads : PolicyReads) (s : ApplicationStage) (action : ManagementPolicy) : Prop :=
  Blind reads s.cluster ∨ (¬Unreadable reads s.cluster ∧ CeilingGrants I s.cluster ns action)

/-- What a question about the Stage object of a stage needs: where the ceiling is not seen the action is permitted all
the same, and where it is seen and grants the action, so does the request of the stage. -/
def StageSound (reads : PolicyReads) (s : ApplicationStage) (action : ManagementPolicy) : Prop :=
  (Blind reads s.cluster → Permitted I ns s action) ∧
    (¬Blind reads s.cluster → ¬Unreadable reads s.cluster → CeilingGrants I s.cluster ns action →
      allows s.managementPolicies action = true)

/-- The manifests are sent, if the policies let them. -/
def ManifestApply.Sends (x : ManifestApply) : Prop :=
  x.malformed = false ∧
    ((x.transport = some .agent ∧ x.prunesSelected = false) ∨ (x.transport = some .direct ∧ x.connected = true))

def ManifestApply.Prunes (x : ManifestApply) : Prop :=
  x.malformed = false ∧ x.transport = some .direct ∧ x.connected = true ∧ x.documentsApplied = true

/-- The conditions of an apply: on its own question, on a prune after it, and on a selective prune, which asks
nothing. -/
structure ManifestApply.Sound (x : ManifestApply) : Prop where
  apply : x.Sends → StageSound I ns x.reads x.stage .apply
  prune : x.Prunes → x.selective = false → x.prune = true → LetsThrough I ns x.reads x.stage .apply →
    StageSound I ns x.reads x.stage .prune
  selected : x.Prunes → x.prunesSelected = true → LetsThrough I ns x.reads x.stage .apply → Permitted I ns x.stage .prune

/-- The condition of a place. -/
def EnforcementPoint.Sound : EnforcementPoint → Prop
  | .promotion x =>
    x.stageRead = true → StageSound I ns x.reads x.applied.stage .apply ∧
      (x.prepared = true → LetsThrough I ns x.reads x.applied.stage .apply → x.applied.Sound I ns)
  | .manifestApply x => x.Sound I ns
  | .handOff x =>
    x.stageRead = true → (resolveStageCanary x.stage (resolveStageStrategy x.appStrategy x.stage)).getD [] ≠ [] →
      StageSound I ns x.reads x.stage .rollout
  | .cleanup x =>
    -- without a Stage, or with one whose ceiling lets it through, every target is deleted from
    (∀ t ∈ x.target, LetsThrough I ns x.reads t .delete) → ∀ s ∈ x.cleanupTargetClients, Permitted I ns s .delete
  | .selfHeal x =>
    -- the first stage is asked about, the current one is healed
    x.due = true → ∀ s ∈ currentStageIn x.stages x.currentStage, ∀ first ∈ x.stages.head?,
      LetsThrough I ns x.reads first .selfHeal → allows first.managementPolicies .selfHeal = true →
        Permitted I ns s .selfHeal
  | .applyGate x =>
    x.due = true → ∀ s ∈ currentStageIn x.stages x.currentStage, Blind x.reads s.cluster →
      allows s.managementPolicies .apply = true → CeilingGrants I s.cluster ns .apply
end

/-! ## The places are bounded -/

section
variable {I : Installation} {ns : String} {reads : PolicyReads} {s : ApplicationStage} {action : ManagementPolicy}

theorem ask_none {policies : Option PolicyList} :
    ask policies action = none ↔ ∃ p, policies = some p ∧ allows p action = true := by
  cases policies with
  | none => simp [ask]
  | some p => simp [ask]

theorem policiesForApplicationStage_lets (I : Installation) (ns : String) (reads : PolicyReads) (s : ApplicationStage)
    (hknown : knownManagementPolicy action = true) :
    (∃ p, policiesForApplicationStage I ns reads s = some p ∧ allows p action = true) ↔
      LetsThrough I ns reads s action ∧ allows s.managementPolicies action = true := by
  unfold policiesForApplicationStage
  obtain ⟨hunread, h⟩ | ⟨hblind, h⟩ | ⟨hread, hseen, policies, h, hgrants⟩ :=
    resolveClusterCeiling_spec I reads s.cluster ns
  · rw [h]
    constructor
    · intro ⟨p, hp, _⟩
      cases hp
    · intro hlets
      obtain hblind | hread := hlets.1
      · exact absurd hblind.1 hunread.1
      · exact absurd hunread hread.1
  · rw [h]
    constructor
    · intro ⟨p, hp, hallows⟩
      rw [← Option.some.inj hp] at hallows
      exact ⟨.inl hblind, (allows_intersect.mp hallows).2⟩
    · intro hlets
      refine ⟨_, rfl, allows_intersect.mpr ⟨?_, hlets.2⟩⟩
      rw [allows_default, hknown]
  · rw [h]
    constructor
    · intro ⟨p, hp, hallows⟩
      rw [← Option.some.inj hp] at hallows
      obtain ⟨hceiling, hreq⟩ := allows_intersect.mp hallows
      exact ⟨.inr ⟨hread, (hgrants action).mpr hceiling⟩, hreq⟩
    · intro hlets
      obtain hblind | hread := hlets.1
      · exact absurd hblind hseen
      · exact ⟨_, rfl, allows_intersect.mpr ⟨(hgrants action).mp hread.2, hlets.2⟩⟩

theorem policiesForStage_lets (I : Installation) (ns : String) (reads : PolicyReads) (s : ApplicationStage)
    (appStrategy : DeliveryStrategy) (hknown : knownManagementPolicy action = true) :
    (∃ p, policiesForStage I ns reads (some (buildStageSpec appStrategy s)) = some p ∧ allows p action = true) ↔
      LetsThrough I ns reads s action := by
  -- the Stage that is built carries no policies of its own
  have hlets := policiesForApplicationStage_lets I ns reads { s with managementPolicies := none } hknown
  rw [allows_unset, hknown] at hlets
  exact hlets.trans (and_iff_left rfl)

theorem stageSound_iff :
    StageSound I ns reads s action ↔ (LetsThrough I ns reads s action → Permitted I ns s action) := by
  constructor
  · intro h hlets
    by_cases hblind : Blind reads s.cluster
    · exact h.1 hblind
    · obtain hblind' | ⟨hread, hgrants⟩ := hlets
      · exact absurd hblind' hblind
      · exact ⟨hgrants, h.2 hblind hread hgrants⟩
  · intro h
    exact ⟨fun hblind => h (.inl hblind), fun _ hread hgrants => (h (.inr ⟨hread, hgrants⟩)).2⟩
end

section
variable (I : Installation) (ns : String)

variable {I ns} in
theorem allows_iff_lets {reads : PolicyReads} {appStrategy : DeliveryStrategy} {s : ApplicationStage} {p : PolicyList}
    (hp : policiesForStage I ns reads (some (buildStageSpec appStrategy s)) = some p) {action : ManagementPolicy}
    (hknown : knownManagementPolicy action = true) : allows p action = true ↔ LetsThrough I ns reads s action := by
  rw [← policiesForStage_lets I ns reads s appStrategy hknown, hp]
  simp

theorem selective_of_prunesSelected {x : ManifestApply} (h : x.prunesSelected = true) : x.selective = true := by
  unfold ManifestApply.prunesSelected at h
  unfold ManifestApply.selective
  cases hsel : x.selection with
  | none => rw [hsel] at h; cases h
  | some sel =>
    rw [hsel] at h
    exact (Bool.and_eq_true_iff.mp h).1

theorem mem_applyManifestsForCluster {x : ManifestApply} {transport : Transport} {p : PolicyList} {act : Act}
    (ht : x.transport = some transport) (hm : x.malformed = false) :
    act ∈ x.applyManifestsForCluster transport p ↔ allows p .apply = true ∧ ((act = (.apply, x.stage) ∧ x.Sends) ∨
          (act = (.prune, x.stage) ∧ x.Prunes ∧
            (x.prunesSelected = true ∨ (x.selective = false ∧ x.prune = true ∧ allows p .prune = true)))) := by
  unfold ManifestApply.applyManifestsForCluster
  cases happly : allows p .apply with
  | false => simp
  | true =>
  cases transport with
  | agent =>
    cases hselected : x.prunesSelected <;>
      simp [hselected, ManifestApply.Sends, ManifestApply.Prunes, ht, hm]
  | direct =>
  show act ∈ x.applyManifestsWithCredentialNamespace p ↔ _
  unfold ManifestApply.applyManifestsWithCredentialNamespace
  cases hconnected : x.connected with
  | false => simp [ManifestApply.Sends, ManifestApply.Prunes, ht, hconnected]
  | true =>
  have hsends : x.Sends := ⟨hm, .inr ⟨ht, hconnected⟩⟩
  cases happl : x.documentsApplied with
  | false => simp [hsends, ManifestApply.Prunes, happl]
  | true =>
  have hprunes : x.Prunes := ⟨hm, ht, hconnected, happl⟩
  cases hselective : x.selective with
  | true => cases hselected : x.prunesSelected <;> simp [hsends, hprunes]
  | false =>
  have hselected : x.prunesSelected = false := by
    cases hselected : x.prunesSelected with
    | false => rfl
    | true =>
      rw [selective_of_prunesSelected hselected] at hselective
      cases hselective
  cases hprune : x.prune <;> cases hallows : allows p .prune <;>
    simp [hsends, hprunes, hselected, hallows, ManifestApply.pruneAfterApply]

variable {I ns} in
theorem mem_applyPromotedManifests {x : ManifestApply} {act : Act} : act ∈ x.applyPromotedManifests I ns ↔
      LetsThrough I ns x.reads x.stage .apply ∧ ((act = (.apply, x.stage) ∧ x.Sends) ∨
          (act = (.prune, x.stage) ∧ x.Prunes ∧ (x.prunesSelected = true ∨
              (x.selective = false ∧ x.prune = true ∧ LetsThrough I ns x.reads x.stage .prune)))) := by
  unfold ManifestApply.applyPromotedManifests
  cases ht : x.transport with
  | none => simp [ManifestApply.Sends, ManifestApply.Prunes, ht]
  | some transport =>
  cases hm : x.malformed with
  | true => simp [ManifestApply.Sends, ManifestApply.Prunes, hm]
  | false =>
  cases hp : policiesForStage I ns x.reads (some (buildStageSpec x.appStrategy x.stage)) with
  | none =>
    have hnot : ¬LetsThrough I ns x.reads x.stage .apply := by
      rw [← policiesForStage_lets I ns x.reads _ x.appStrategy rfl, hp]
      simp
    simp [hnot]
  | some p =>
    show act ∈ x.applyManifestsForCluster transport p ↔ _
    rw [mem_applyManifestsForCluster ht hm, allows_iff_lets hp rfl, allows_iff_lets hp rfl]

theorem ManifestApply.bounded_iff (x : ManifestApply) : Bounded I ns (.manifestApply x) ↔ x.Sound I ns := by
  constructor
  · intro h
    refine ⟨?_, ?_, ?_⟩
    · intro hsends
      refine stageSound_iff.mpr ?_
      intro hlets
      exact h (.apply, x.stage) (mem_applyPromotedManifests.mpr ⟨hlets, .inl ⟨rfl, hsends⟩⟩)
    · intro hprunes hselective hprune hlets
      refine stageSound_iff.mpr ?_
      intro hletsPrune
      exact h (.prune, x.stage)
        (mem_applyPromotedManifests.mpr ⟨hlets, .inr ⟨rfl, hprunes, .inr ⟨hselective, hprune, hletsPrune⟩⟩⟩)
    · intro hprunes hselected hlets
      exact h (.prune, x.stage) (mem_applyPromotedManifests.mpr ⟨hlets, .inr ⟨rfl, hprunes, .inl hselected⟩⟩)
  · intro h act hact
    obtain ⟨hlets, ⟨rfl, hsends⟩ | ⟨rfl, hprunes, hselected | ⟨hselective, hprune, hletsPrune⟩⟩⟩ :=
      mem_applyPromotedManifests.mp hact
    · exact stageSound_iff.mp (h.apply hsends) hlets
    · exact h.selected hprunes hselected hlets
    · exact stageSound_iff.mp (h.prune hprunes hselective hprune hlets) hletsPrune

theorem bounded_promotion (x : Promotion) : Bounded I ns (.promotion x) ↔ (EnforcementPoint.promotion x).Sound I ns := by
  have hmem : ∀ act, act ∈ x.promote I ns ↔ x.stageRead = true ∧ LetsThrough I ns x.reads x.applied.stage .apply ∧
      (act = (.apply, x.applied.stage) ∨ (x.prepared = true ∧ act ∈ x.applied.applyPromotedManifests I ns)) := by
    intro act
    have hknown : knownManagementPolicy .apply = true := rfl
    have hlets := policiesForStage_lets I ns x.reads x.applied.stage x.applied.appStrategy hknown
    unfold Promotion.promote
    cases hread : x.stageRead with
    | false => simp
    | true =>
    cases hask : ask (policiesForStage I ns x.reads
        (some (buildStageSpec x.applied.appStrategy x.applied.stage))) .apply with
    | some e =>
      have hnot : ¬LetsThrough I ns x.reads x.applied.stage .apply := by
        rw [← hlets, ← ask_none, hask]
        simp
      simp [hnot]
    | none =>
      have hyes := hlets.mp (ask_none.mp hask)
      cases hprep : x.prepared <;> simp [hyes]
  constructor
  · intro h hread
    constructor
    · refine stageSound_iff.mpr ?_
      intro hlets
      exact h (.apply, x.applied.stage) ((hmem _).mpr ⟨hread, hlets, .inl rfl⟩)
    · intro hprep hlets
      refine (x.applied.bounded_iff I ns).mp ?_
      intro act hact
      exact h act ((hmem act).mpr ⟨hread, hlets, .inr ⟨hprep, hact⟩⟩)
  · intro h act hact
    obtain ⟨hread, hlets, rfl | ⟨hprep, hact⟩⟩ := (hmem act).mp hact
    · exact stageSound_iff.mp (h hread).1 hlets
    · exact (x.applied.bounded_iff I ns).mpr ((h hread).2 hprep hlets) act hact

theorem bounded_handOff (x : HandOff) : Bounded I ns (.handOff x) ↔ (EnforcementPoint.handOff x).Sound I ns := by
  have hmem : ∀ act, act ∈ x.advanceAfterPromotion I ns ↔ x.stageRead = true ∧
      (resolveStageCanary x.stage (resolveStageStrategy x.appStrategy x.stage)).getD [] ≠ [] ∧
      LetsThrough I ns x.reads x.stage .rollout ∧ act = (.rollout, x.stage) := by
    intro act
    unfold HandOff.advanceAfterPromotion rolloutPolicyError
    cases hread : x.stageRead with
    | false => simp
    | true =>
    cases hsteps : (resolveStageCanary x.stage (resolveStageStrategy x.appStrategy x.stage)).getD [] with
    | nil => simp [buildStageSpec, hsteps]
    | cons step steps =>
    cases hask : ask (policiesForStage I ns x.reads (some (buildStageSpec x.appStrategy x.stage))) .rollout with
    | some e =>
      have hnot : ¬LetsThrough I ns x.reads x.stage .rollout := by
        rw [← policiesForStage_lets I ns x.reads x.stage x.appStrategy rfl, ← ask_none, hask]
        simp
      simp [buildStageSpec, hsteps] at hask ⊢
      simp [hask, hnot]
    | none =>
      have hyes := (policiesForStage_lets I ns x.reads x.stage x.appStrategy rfl).mp (ask_none.mp hask)
      simp [buildStageSpec, hsteps] at hask ⊢
      simp [hask, hyes]
  constructor
  · intro h hread hsteps
    refine stageSound_iff.mpr ?_
    intro hlets
    exact h (.rollout, x.stage) ((hmem _).mpr ⟨hread, hsteps, hlets, rfl⟩)
  · intro h act hact
    obtain ⟨hread, hsteps, hlets, rfl⟩ := (hmem act).mp hact
    exact stageSound_iff.mp (h hread hsteps) hlets

theorem bounded_cleanup (x : Cleanup) : Bounded I ns (.cleanup x) ↔ (EnforcementPoint.cleanup x).Sound I ns := by
  have hmem : ∀ act, act ∈ x.cleanupManagedResources I ns ↔ (∀ t ∈ x.target, LetsThrough I ns x.reads t .delete) ∧
      ∃ s ∈ x.cleanupTargetClients, act = (.delete, s) := by
    intro act
    unfold Cleanup.cleanupManagedResources Cleanup.deletePermittedTargets
    cases htarget : x.target with
    | none => simp [@eq_comm _ act]
    | some t =>
    cases hp : policiesForStage I ns x.reads (some (buildStageSpec x.appStrategy t)) with
    | none =>
      have hnot : ¬LetsThrough I ns x.reads t .delete := by
        rw [← policiesForStage_lets I ns x.reads _ x.appStrategy rfl, hp]
        simp
      simp [hp, hnot]
    | some p =>
    have hknown : knownManagementPolicy .delete = true := rfl
    have hlets := allows_iff_lets hp hknown
    cases hallows : allows p .delete with
    | false =>
      have hnot : ¬LetsThrough I ns x.reads t .delete := by
        rw [← hlets, hallows]
        exact Bool.false_ne_true
      simp [hp, hallows, hnot]
    | true => simp [hp, hallows, hlets.mp hallows, @eq_comm _ act]
  constructor
  · intro h hlets s hs
    exact h (.delete, s) ((hmem _).mpr ⟨hlets, s, hs, rfl⟩)
  · intro h act hact
    obtain ⟨hlets, s, hs, rfl⟩ := (hmem act).mp hact
    exact h hlets s hs

theorem bounded_selfHeal (x : ApplicationReconcile) :
    Bounded I ns (.selfHeal x) ↔ (EnforcementPoint.selfHeal x).Sound I ns := by
  have hmem : ∀ act, act ∈ x.reconcileSelfHeal I ns ↔ x.due = true ∧
      ∃ s ∈ currentStageIn x.stages x.currentStage, ∃ first ∈ x.stages.head?,
        LetsThrough I ns x.reads first .selfHeal ∧ allows first.managementPolicies .selfHeal = true ∧
          act = (.selfHeal, s) := by
    intro act
    unfold ApplicationReconcile.reconcileSelfHeal selfHealPolicyError
    cases hstages : x.stages with
    | nil => simp [currentStageIn]
    | cons first rest =>
    have hknown : knownManagementPolicy .selfHeal = true := rfl
    have hlets := policiesForApplicationStage_lets I ns x.reads first hknown
    cases hask : ask (policiesForApplicationStage I ns x.reads first) .selfHeal with
    | some e =>
      have hnot : ¬(LetsThrough I ns x.reads first .selfHeal ∧ allows first.managementPolicies .selfHeal = true) := by
        rw [← hlets, ← ask_none, hask]
        simp
      simp only [not_and] at hnot
      simp [hask]
      intro _ s _ hl hr
      exact absurd hr (hnot hl)
    | none =>
      have hyes := hlets.mp (ask_none.mp hask)
      cases hdue : x.due <;> simp [hask, hyes, @eq_comm _ act]
  constructor
  · intro h hdue s hs first hfirst hlets hreq
    exact h (.selfHeal, s) ((hmem _).mpr ⟨hdue, s, hs, first, hfirst, hlets, hreq, rfl⟩)
  · intro h act hact
    obtain ⟨hdue, s, hs, first, hfirst, hlets, hreq, rfl⟩ := (hmem act).mp hact
    exact h hdue s hs first hfirst hlets hreq

theorem bounded_applyGate (x : ApplicationReconcile) :
    Bounded I ns (.applyGate x) ↔ (EnforcementPoint.applyGate x).Sound I ns := by
  have hmem : ∀ act, act ∈ x.applyPolicyGate I ns ↔ x.due = true ∧ ∃ s ∈ currentStageIn x.stages x.currentStage,
      LetsThrough I ns x.reads s .apply ∧ allows s.managementPolicies .apply = true ∧ act = (.apply, s) := by
    intro act
    unfold ApplicationReconcile.applyPolicyGate
    cases hcur : currentStageIn x.stages x.currentStage with
    | none => simp
    | some s =>
    have hknown : knownManagementPolicy .apply = true := rfl
    have hlets := policiesForApplicationStage_lets I ns x.reads s hknown
    cases hask : ask (policiesForApplicationStage I ns x.reads s) .apply with
    | some e =>
      have hnot : ¬(LetsThrough I ns x.reads s .apply ∧ allows s.managementPolicies .apply = true) := by
        rw [← hlets, ← ask_none, hask]
        simp
      simp only [not_and] at hnot
      simp [hask]
      intro _ hl hr
      exact absurd hr (hnot hl)
    | none =>
      have hyes := hlets.mp (ask_none.mp hask)
      cases hdue : x.due <;> simp [hask, hyes]
  constructor
  · intro h hdue s hs hblind hreq
    exact (h (.apply, s) ((hmem _).mpr ⟨hdue, s, hs, .inl hblind, hreq, rfl⟩)).1
  · intro h act hact
    obtain ⟨hdue, s, hs, hblind | ⟨-, hgrants⟩, hreq, rfl⟩ := (hmem act).mp hact
    · exact ⟨h hdue s hs hblind hreq, hreq⟩
    · exact ⟨hgrants, hreq⟩
end

/-- **Management policies.**  What a place does is within the ceiling of the target and the request of the stage exactly
when the condition of the place holds. -/
theorem policies_enforced_iff (I : Installation) (ns : String) (p : EnforcementPoint) :
    Bounded I ns p ↔ p.Sound I ns := by
  cases p with
  | promotion x => exact bounded_promotion I ns x
  | manifestApply x => exact x.bounded_iff I ns
  | handOff x => exact bounded_handOff I ns x
  | cleanup x => exact bounded_cleanup I ns x
  | selfHeal x => exact bounded_selfHeal I ns x
  | applyGate x => exact bounded_applyGate I ns x

/-- A cluster without a ceiling. -/
def openInstallation : Installation := { operatorNamespace := "paprika-system", clusters := [], unique := List.nodup_nil }

def observedStage : ApplicationStage where
  name := "prod"
  ring := 1
  cluster := { name := "", ns := "" }
  strategy := none
  canary := none
  managementPolicies := some [.observe]

/-- A Release of that stage whose manifests are applied. -/
def observedApply : ManifestApply where
  stage := observedStage
  appStrategy := .rolling
  reads := { listFails := false, getFails := false }
  transport := some .direct
  malformed := false
  selection := none
  prune := false
  connected := true
  documentsApplied := true

/-- The Stage object does not carry the request. -/
theorem observed_stage_applied : ¬∀ I ns p, Bounded I ns p := by
  intro h
  have hpermitted := h openInstallation "shop" (.manifestApply observedApply) (.apply, observedStage) (by decide)
  exact absurd hpermitted.2 (by decide)

end Paprika.Policies
