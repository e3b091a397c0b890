import Paprika.Lib.Text

/-!
# Engine: hooks and the diff

A hook annotation names the phases in which an object is applied.  `classifyPaired` reads the annotation as a list of
phases and gives everything else to the Sync phase; the diff leaves out what carries a non-empty annotation
(`filterHooks`, `shouldIgnoreLiveResource`).

The two agree on an object exactly when its annotation is empty or names only phases other than Sync
(`hooks_agree_iff`), and not for one with an unknown value or with `Sync` (`unknown_phase_not_compared`).
-/

namespace Paprika.Engine

open Lib.Text List Option

/-! ### Objects -/

structure OwnerReference where
  apiVersion : String
  kind : String
  name : String

/-- An object of a manifest or of the cluster, as far as hooks and diff read it: `immutable` and `manifests` are what
is read below `immutable` and `data` / `manifests.yaml`, with `none` for a field that is missing and an error for one
of another type. -/
structure ManifestObject where
  kind : String
  labels : List (String × String)
  annotations : List (String × String)
  ownerReferences : List OwnerReference
  immutable : Except Unit (Option Bool)
  manifests : Except Unit (Option String)

def hookAnnotation : String := "argocd.argoproj.io/hook"

def hookDeletePolicyAnnotation : String := "argocd.argoproj.io/hook-delete-policy"

def applicationNameLabelKey : String := "app.paprika.io/name"

def releaseNameLabelKey : String := "app.paprika.io/release"

/-- An entry of a map of strings, empty where there is none. -/
def entry (m : List (String × String)) (key : String) : String := (m.lookup key).getD ""

def ManifestObject.hookValue (obj : ManifestObject) : String := entry obj.annotations hookAnnotation

/-! ### The diff -/

def isHook (obj : ManifestObject) : Bool := (obj.annotations.lookup hookAnnotation).any (fun v => v != "")

def filterHooks (objs : List ManifestObject) : List ManifestObject := objs.filter (fun obj => !isHook obj)

def OwnerReference.isPipelines (ref : OwnerReference) (kind : String) : Bool :=
  ref.kind == kind && "pipelines.paprika.io/".toList.isPrefixOf ref.apiVersion.toList

def isApplicationManifestSnapshot (obj : ManifestObject) : Bool :=
  if obj.kind ≠ "ConfigMap" then false
  else
    match obj.immutable, obj.manifests with
    | .ok (some true), .ok (some _) =>
      obj.ownerReferences.any (fun owner =>
        owner.isPipelines "Application" && owner.name == entry obj.labels applicationNameLabelKey)
    | _, _ => false

def isPaprikaInternalResource (obj : ManifestObject) : Bool :=
  if isApplicationManifestSnapshot obj then true
  else if entry obj.labels releaseNameLabelKey == "" then false
  else obj.ownerReferences.any (fun ref => ref.isPipelines "Release")

def shouldIgnoreLiveResource (obj : ManifestObject) : Bool :=
  if isHook obj then true else isPaprikaInternalResource obj

/-! ### The phases -/

inductive Phase
  | preSync
  | sync
  | postSync
  | syncFail
  deriving DecidableEq

def Phase.ofName (name : List Char) : Option Phase :=
  if name = "PreSync".toList then some .preSync
  else if name = "PostSync".toList then some .postSync
  else if name = "SyncFail".toList then some .syncFail
  else if name = "Sync".toList then some .sync
  else none

/-- The loop of `parseHookPhases`: one unknown name spoils the annotation. -/
def parseNames : List (List Char) → Option (List Phase)
  | [] => some []
  | raw :: rest =>
    match Phase.ofName (trimSpace raw) with
    | none => none
    | some p => (parseNames rest).map (p :: ·)

/-- `none` where the annotation is not explicit. -/
def parseHookPhases (value : String) : Option (List Phase) :=
  let value := trimSpace value.toList
  if value = [] then none else parseNames (value.splitOn ',')

variable {R : Type}

/-- A parsed manifest with its source bytes. -/
structure PairedObj (R : Type) where
  obj : ManifestObject
  raw : R

structure Resource (R : Type) where
  obj : ManifestObject
  raw : R
  phase : Phase
  deletePolicy : String

structure Bucket (R : Type) where
  preSync : List (Resource R)
  sync : List (Resource R)
  postSync : List (Resource R)
  syncFail : List (Resource R)

def Bucket.empty : Bucket R := { preSync := [], sync := [], postSync := [], syncFail := [] }

def Bucket.append (b : Bucket R) (r : Resource R) : Bucket R :=
  match r.phase with
  | .preSync => { b with preSync := b.preSync ++ [r] }
  | .postSync => { b with postSync := b.postSync ++ [r] }
  | .syncFail => { b with syncFail := b.syncFail ++ [r] }
  | .sync => { b with sync := b.sync ++ [r] }

/-- The resources that an object becomes, one for each phase it names. -/
def PairedObj.resources (po : PairedObj R) : List (Resource R) :=
  let deletePolicy := entry po.obj.annotations hookDeletePolicyAnnotation
  match parseHookPhases po.obj.hookValue with
  | none => [{ obj := po.obj, raw := po.raw, phase := .sync, deletePolicy := deletePolicy }]
  | some phases => phases.map (fun p => { obj := po.obj, raw := po.raw, phase := p, deletePolicy := deletePolicy })

def classifyPaired (objs : List (PairedObj R)) : Bucket R :=
  objs.foldl (fun b po => po.resources.foldl Bucket.append b) Bucket.empty

/-- `ClassifyPaired` places the object in the Sync phase. -/
def PlacedInSync (objs : List (PairedObj R)) (po : PairedObj R) : Prop :=
  ∃ r ∈ (classifyPaired objs).sync, r.obj = po.obj ∧ r.raw = po.raw

/-! ### What is placed where -/

theorem sync_foldl_append (rs : List (Resource R)) : ∀ b : Bucket R,
    (rs.foldl Bucket.append b).sync = b.sync ++ rs.filter (fun r => r.phase = .sync) := by
  induction rs with
  | nil => intro b; exact (append_nil _).symm
  | cons r rest ih =>
    intro b
    rw [foldl_cons, ih, Bucket.append]
    cases hr : r.phase <;> simp [hr]

theorem sync_classifyPaired (objs : List (PairedObj R)) :
    (classifyPaired objs).sync = objs.flatMap (fun po => po.resources.filter (fun r => r.phase = .sync)) := by
  have hfold : ∀ b : Bucket R, (objs.foldl (fun b po => po.resources.foldl Bucket.append b) b).sync =
      b.sync ++ objs.flatMap (fun po => po.resources.filter (fun r => r.phase = .sync)) := by
    induction objs with
    | nil => intro b; exact (append_nil _).symm
    | cons po rest ih =>
      intro b
      rw [foldl_cons, ih, sync_foldl_append, flatMap_cons, append_assoc]
  exact hfold Bucket.empty

/-- The annotation puts its object into the Sync phase: it names that phase, or no phases at all. -/
def syncs (value : String) : Bool := (parseHookPhases value).all (fun phases => phases.contains .sync)

variable {objs : List (PairedObj R)} {po : PairedObj R}

theorem PairedObj.of_mem_resources {r : Resource R} (h : r ∈ po.resources) : r.obj = po.obj ∧ r.raw = po.raw := by
  simp only [PairedObj.resources] at h
  split at h
  · obtain rfl := mem_singleton.mp h
    exact ⟨rfl, rfl⟩
  · obtain ⟨p, -, rfl⟩ := mem_map.mp h
    exact ⟨rfl, rfl⟩

theorem PairedObj.syncs_iff (po : PairedObj R) :
    (∃ r ∈ po.resources, r.phase = .sync) ↔ syncs po.obj.hookValue = true := by
  simp only [PairedObj.resources, syncs]
  cases parseHookPhases po.obj.hookValue with
  | none => simp
  | some phases => simp

theorem placedInSync_iff (hpo : po ∈ objs) : PlacedInSync objs po ↔ syncs po.obj.hookValue = true := by
  rw [PlacedInSync, sync_classifyPaired]
  constructor
  · intro h
    obtain ⟨r, hr, hobj, -⟩ := h
    obtain ⟨other, -, hr⟩ := mem_flatMap.mp hr
    obtain ⟨hmem, hphase⟩ := mem_filter.mp hr
    -- the resource may come from an equal object elsewhere in the list
    rw [← hobj, (PairedObj.of_mem_resources hmem).1]
    exact other.syncs_iff.mp ⟨r, hmem, of_decide_eq_true hphase⟩
  · intro h
    obtain ⟨r, hr, hphase⟩ := po.syncs_iff.mpr h
    refine ⟨r, mem_flatMap.mpr ⟨po, hpo, mem_filter.mpr ⟨hr, decide_eq_true hphase⟩⟩, ?_⟩
    exact PairedObj.of_mem_resources hr

/-! ### What the annotation says -/

/-- Every part of the annotation is the name of a phase other than Sync. -/
def HooksOnly (value : String) : Prop :=
  ∀ part ∈ (trimSpace value.toList).splitOn ',', trimSpace part ∈ ["PreSync".toList, "PostSync".toList, "SyncFail".toList]

instance (value : String) : Decidable (HooksOnly value) := inferInstanceAs (Decidable (∀ _, _))

theorem Phase.ofName_hook {name : List Char} :
    (∃ p, Phase.ofName name = some p ∧ p ≠ .sync) ↔ name ∈ ["PreSync".toList, "PostSync".toList, "SyncFail".toList] := by
  simp only [Phase.ofName, mem_cons, not_mem_nil, or_false]
  by_cases hpre : name = "PreSync".toList
  · rw [if_pos hpre]
    exact iff_of_true ⟨.preSync, rfl, by decide⟩ (.inl hpre)
  rw [if_neg hpre]
  by_cases hpost : name = "PostSync".toList
  · rw [if_pos hpost]
    exact iff_of_true ⟨.postSync, rfl, by decide⟩ (.inr (.inl hpost))
  rw [if_neg hpost]
  by_cases hfail : name = "SyncFail".toList
  · rw [if_pos hfail]
    exact iff_of_true ⟨.syncFail, rfl, by decide⟩ (.inr (.inr hfail))
  rw [if_neg hfail]
  have hno : ¬(name = "PreSync".toList ∨ name = "PostSync".toList ∨ name = "SyncFail".toList) := by
    rw [not_or, not_or]
    exact ⟨hpre, hpost, hfail⟩
  refine iff_of_false ?_ hno
  intro h
  obtain ⟨p, hp, hne⟩ := h
  split at hp
  · exact hne (some.inj hp).symm
  · cases hp

/-- The parsed phases leave out Sync exactly if every name is that of another phase. -/
theorem parseNames_hook (names : List (List Char)) : (∃ phases, parseNames names = some phases ∧ Phase.sync ∉ phases) ↔
      ∀ raw ∈ names, trimSpace raw ∈ ["PreSync".toList, "PostSync".toList, "SyncFail".toList] := by
  induction names with
  | nil => simp [parseNames]
  | cons raw rest ih =>
    rw [forall_mem_cons, ← ih, ← Phase.ofName_hook, parseNames]
    cases hname : Phase.ofName (trimSpace raw) with
    | none => simp
    | some p =>
    constructor
    · intro h
      obtain ⟨phases, hphases, hnot⟩ := h
      obtain ⟨others, hothers, rfl⟩ := map_eq_some_iff.mp hphases
      rw [mem_cons, not_or] at hnot
      exact ⟨⟨p, rfl, fun h => hnot.1 h.symm⟩, others, hothers, hnot.2⟩
    intro h
    obtain ⟨⟨q, hq, hne⟩, others, hothers, hnot⟩ := h
    obtain rfl : p = q := some.inj hq
    refine ⟨p :: others, by simp [hothers], ?_⟩
    rw [mem_cons, not_or]
    exact ⟨fun h => hne h.symm, hnot⟩

theorem not_syncs_iff (value : String) : ¬syncs value = true ↔ HooksOnly value := by
  rw [HooksOnly, ← parseNames_hook, syncs, parseHookPhases]
  by_cases hempty : trimSpace value.toList = []
  · have hnone : parseNames (List.splitOn ',' []) = none := by decide
    simp only [hempty, if_true, all_none, hnone]
    simp
  · simp only [hempty, if_false]
    cases parseNames ((trimSpace value.toList).splitOn ',') with
    | none => simp
    | some phases => simp

theorem isHook_iff (obj : ManifestObject) : isHook obj = true ↔ obj.hookValue ≠ "" := by
  rw [isHook, ManifestObject.hookValue, entry]
  cases obj.annotations.lookup hookAnnotation with
  | none => simp
  | some v => simp

theorem not_hooksOnly_empty : ¬HooksOnly "" := by
  intro h
  have hpart := h [] (by decide)
  revert hpart
  decide

/-! ### The two together -/

/-- The diff leaves the object out, on the desired and on the live side, exactly if the Sync phase does not get it. -/
def HooksAgree (objs : List (PairedObj R)) (po : PairedObj R) : Prop :=
  (po.obj ∉ filterHooks (objs.map PairedObj.obj) ↔ ¬PlacedInSync objs po) ∧
    (shouldIgnoreLiveResource po.obj = true ↔ ¬PlacedInSync objs po)

theorem not_mem_filterHooks (hpo : po ∈ objs) :
    po.obj ∉ filterHooks (objs.map PairedObj.obj) ↔ isHook po.obj = true := by
  have hmem : po.obj ∈ objs.map PairedObj.obj := mem_map_of_mem hpo
  simp [filterHooks, mem_filter, hmem]

theorem shouldIgnoreLiveResource_iff (obj : ManifestObject) :
    shouldIgnoreLiveResource obj = true ↔ isHook obj = true ∨ isPaprikaInternalResource obj = true := by
  rw [shouldIgnoreLiveResource]
  split
  · next h => simp [h]
  · next h => simp [h]

/-- **Hooks and the diff.**  They agree on an object if it carries no hook annotation (and is no control-plane object
of Paprika's own), or if every part of the annotation is a phase other than Sync; and on no other. -/
theorem hooks_agree_iff (objs : List (PairedObj R)) (po : PairedObj R) (hpo : po ∈ objs) : HooksAgree objs po ↔
      (po.obj.hookValue = "" ∧ isPaprikaInternalResource po.obj = false) ∨ HooksOnly po.obj.hookValue := by
  rw [HooksAgree, not_mem_filterHooks hpo, placedInSync_iff hpo, shouldIgnoreLiveResource_iff, not_syncs_iff, isHook_iff]
  by_cases hvalue : po.obj.hookValue = ""
  · simp [hvalue, not_hooksOnly_empty]
  · simp [hvalue]

def sampleJob (hook : String) : PairedObj Unit :=
  { obj :=
      { kind := "Job", labels := [], annotations := [( hookAnnotation, hook)], ownerReferences := [],
        immutable := .ok none, manifests := .ok none }
    raw := () }

/-- A hook of two phases is left out of the diff, and is not applied in the Sync phase. -/
theorem hooks_agree_two_phases : HooksAgree [sampleJob "PreSync, PostSync"] (sampleJob "PreSync, PostSync") :=
  (hooks_agree_iff _ _ mem_cons_self).mpr (.inr (by decide))

/-- A job whose annotation is no phase is applied in the Sync phase and never compared. -/
theorem unknown_phase_not_compared :
    ¬∀ (objs : List (PairedObj Unit)) (po : PairedObj Unit), po ∈ objs → HooksAgree objs po := by
  intro hall
  obtain ⟨hdesired, -⟩ := hall [sampleJob "Garbage"] (sampleJob "Garbage") mem_cons_self
  rw [not_mem_filterHooks mem_cons_self, placedInSync_iff mem_cons_self] at hdesired
  revert hdesired
  decide

end Paprika.Engine
