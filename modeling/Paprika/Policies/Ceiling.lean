import Mathlib.Data.List.Nodup
import Mathlib.Data.String.Basic

/-!
# Management policies

`policy_types.go`, and the resolution of `policies.go`: the ceiling that the registration of a cluster declares, the
request of a stage, and the policies in force for a Stage object and for a stage of an Application.

A registration that does not exist has no ceiling.  A read that fails is an error, except that of the in-cluster
registrations, which `inClusterRegistration` answers as if there were none.
-/

namespace Paprika.Policies

open List Bool

/-! ## Policy lists -/

/-- `ManagementPolicy`; `all` is the wildcard. -/
inductive ManagementPolicy
  | all | observe | apply | prune | delete | selfHeal | rollout
  | unknown (value : String)
  deriving DecidableEq, Repr

/-- `[]ManagementPolicy`; `none` is unset, and not the empty list. -/
abbrev PolicyList := Option (List ManagementPolicy)

def allManagementPolicies : List ManagementPolicy := [.observe, .apply, .prune, .delete, .selfHeal, .rollout]

def defaultManagementPolicies : PolicyList := some [.all]

def normalizeManagementPolicies (policies : PolicyList) : List ManagementPolicy := policies.getD [.all]

def knownManagementPolicy (value : ManagementPolicy) : Bool := allManagementPolicies.contains value

def allows (policies : PolicyList) (action : ManagementPolicy) : Bool :=
  knownManagementPolicy action &&
    (normalizeManagementPolicies policies).any (fun granted => granted == .all || granted == action)

def intersectManagementPolicies (ceiling requested : PolicyList) : PolicyList :=
  some (allManagementPolicies.filter (fun p => allows ceiling p && allows requested p))

section
variable {action : ManagementPolicy}

theorem known_of_allows {policies : PolicyList} (h : allows policies action = true) :
    knownManagementPolicy action = true :=
  (and_eq_true_iff.mp h).1

theorem allows_default : allows defaultManagementPolicies action = knownManagementPolicy action := by
  simp [allows, defaultManagementPolicies, normalizeManagementPolicies]

theorem allows_unset : allows none action = knownManagementPolicy action := allows_default

theorem allows_intersect {ceiling requested : PolicyList} :
    allows (intersectManagementPolicies ceiling requested) action = true ↔
      allows ceiling action = true ∧ allows requested action = true := by
  constructor
  · intro h
    obtain ⟨-, hany⟩ := and_eq_true_iff.mp h
    obtain ⟨granted, hmem, hgrant⟩ := any_eq_true.mp hany
    have hmem : granted ∈ allManagementPolicies.filter (fun p => allows ceiling p && allows requested p) := hmem
    obtain ⟨hknown, hboth⟩ := mem_filter.mp hmem
    have hne : granted ≠ .all := by
      intro heq
      rw [heq] at hknown
      exact absurd hknown (by decide)
    have heq : granted = action := by simpa [hne] using hgrant
    rw [heq] at hboth
    exact and_eq_true_iff.mp hboth
  · intro h
    have hknown := known_of_allows h.1
    have hmem : action ∈ allManagementPolicies.filter (fun p => allows ceiling p && allows requested p) := by
      refine mem_filter.mpr ⟨by simpa [knownManagementPolicy] using hknown, ?_⟩
      exact and_eq_true_iff.mpr h
    refine and_eq_true_iff.mpr ⟨hknown, any_eq_true.mpr ⟨action, hmem, ?_⟩⟩
    simp
end

/-! ## The ceiling of a cluster -/

/-- A `Cluster`; `inCluster` says that its mode is that of the control plane's own cluster. -/
structure ClusterRegistration where
  ns : String
  name : String
  inCluster : Bool
  managementPolicies : PolicyList
  deriving DecidableEq, Repr

/-- The registrations of an installation. -/
structure Installation where
  operatorNamespace : String
  clusters : List ClusterRegistration
  unique : (clusters.map (fun c => (c.ns, c.name))).Nodup

structure ClusterRef where
  name : String
  ns : String
  deriving DecidableEq, Repr

/-- Which of the reads of a resolution fail, for another reason than that there is no registration. -/
structure PolicyReads where
  listFails : Bool
  getFails : Bool
  deriving DecidableEq, Repr

/-- The namespace that a reference is read in. -/
def ClusterRef.namespaceIn (ref : ClusterRef) (defaultNamespace : String) : String :=
  if ref.ns = "" then defaultNamespace else ref.ns

/-- One item of the list. -/
def pickInCluster (found : Option ClusterRegistration) (c : ClusterRegistration) : Option ClusterRegistration :=
  if c.inCluster then
    match found with
    | none => some c
    | some f => if c.name < f.name then some c else some f
  else found

def inClusterRegistration (I : Installation) (reads : PolicyReads) : Option ClusterRegistration :=
  if reads.listFails then none else (I.clusters.filter (fun c => c.ns == I.operatorNamespace)).foldl pickInCluster none

/-- `resolveClusterCeiling`; `none` is an error. -/
def resolveClusterCeiling (I : Installation) (reads : PolicyReads) (ref : ClusterRef) (defaultNamespace : String) :
    Option PolicyList :=
  if ref.name = "" then
    match inClusterRegistration I reads with
    | none => some defaultManagementPolicies
    | some c => some c.managementPolicies
  else if reads.getFails then none
  else
    match I.clusters.find? (fun c => c.ns == ref.namespaceIn defaultNamespace && c.name == ref.name) with
    | none => some defaultManagementPolicies
    | some c => some c.managementPolicies

/-- The registration whose ceiling holds for a reference: the one it names, or without a name the first of the in-cluster
registrations. -/
def Governs (I : Installation) (ref : ClusterRef) (defaultNamespace : String) (c : ClusterRegistration) : Prop :=
  c ∈ I.clusters ∧
    if ref.name = "" then
      (c.ns = I.operatorNamespace ∧ c.inCluster = true) ∧
        ∀ d ∈ I.clusters, d.ns = I.operatorNamespace → d.inCluster = true → c.name ≤ d.name
    else c.ns = ref.namespaceIn defaultNamespace ∧ c.name = ref.name

/-- The ceiling of the target grants the action; where there is no registration there is no ceiling. -/
def CeilingGrants (I : Installation) (ref : ClusterRef) (defaultNamespace : String) (action : ManagementPolicy) : Prop :=
  knownManagementPolicy action = true ∧
    ∀ c, Governs I ref defaultNamespace c → allows c.managementPolicies action = true

section
variable {I : Installation} {ref : ClusterRef} {defaultNamespace : String} {action : ManagementPolicy}

/-- The first in-cluster registration by name, of those seen. -/
def FirstOf (seen : List ClusterRegistration) : Option ClusterRegistration → Prop
  | none => ∀ c ∈ seen, c.inCluster = false
  | some f => (f ∈ seen ∧ f.inCluster = true) ∧ ∀ c ∈ seen, c.inCluster = true → f.name ≤ c.name

variable {found : Option ClusterRegistration}

theorem FirstOf.pick {seen : List ClusterRegistration} (h : FirstOf seen found)
    (c : ClusterRegistration) : FirstOf (seen ++ [c]) (pickInCluster found c) := by
  simp only [pickInCluster]
  cases hin : c.inCluster with
  | false =>
    rw [if_neg Bool.false_ne_true]
    cases found with
    | none =>
      intro d hd
      rcases mem_append.mp hd with hd | hd
      · exact h d hd
      · rw [mem_singleton.mp hd, hin]
    | some f =>
    refine ⟨⟨mem_append_left _ h.1.1, h.1.2⟩, ?_⟩
    intro d hd hdin
    rcases mem_append.mp hd with hd | hd
    · exact h.2 d hd hdin
    · rw [mem_singleton.mp hd, hin] at hdin
      cases hdin
  | true =>
    rw [if_pos rfl]
    have hlast : c ∈ seen ++ [c] := mem_append_right _ (mem_singleton.mpr rfl)
    cases found with
    | none =>
      refine ⟨⟨hlast, hin⟩, ?_⟩
      intro d hd hdin
      rcases mem_append.mp hd with hd | hd
      · rw [h d hd] at hdin
        cases hdin
      · rw [mem_singleton.mp hd]
    | some f =>
    by_cases hlt : c.name < f.name
    · simp only [if_pos hlt]
      refine ⟨⟨hlast, hin⟩, ?_⟩
      intro d hd hdin
      rcases mem_append.mp hd with hd | hd
      · exact le_trans (le_of_lt hlt) (h.2 d hd hdin)
      · rw [mem_singleton.mp hd]
    simp only [if_neg hlt]
    refine ⟨⟨mem_append_left _ h.1.1, h.1.2⟩, ?_⟩
    intro d hd hdin
    rcases mem_append.mp hd with hd | hd
    · exact h.2 d hd hdin
    · rw [mem_singleton.mp hd]
      exact not_lt.mp hlt

theorem FirstOf.foldl (l : List ClusterRegistration) : ∀ {seen : List ClusterRegistration}
    {found : Option ClusterRegistration}, FirstOf seen found → FirstOf (seen ++ l) (l.foldl pickInCluster found) := by
  induction l with
  | nil =>
    intro seen found h
    rwa [append_nil]
  | cons c l ih =>
    intro seen found h
    rw [append_cons]
    exact ih (h.pick c)

variable {c d : ClusterRegistration}

theorem eq_of_unique (I : Installation) (hc : c ∈ I.clusters) (hd : d ∈ I.clusters)
    (hns : c.ns = d.ns) (hname : c.name = d.name) : c = d := by
  refine inj_on_of_nodup_map I.unique hc hd ?_
  show (c.ns, c.name) = (d.ns, d.name)
  rw [hns, hname]

theorem Governs.unique (hc : Governs I ref defaultNamespace c)
    (hd : Governs I ref defaultNamespace d) : c = d := by
  obtain ⟨hc, hcref⟩ := hc
  obtain ⟨hd, hdref⟩ := hd
  split at hcref
  · next hname =>
    rw [if_pos hname] at hdref
    refine eq_of_unique I hc hd (hcref.1.1.trans hdref.1.1.symm) ?_
    exact le_antisymm (hcref.2 d hd hdref.1.1 hdref.1.2) (hdref.2 c hc hcref.1.1 hcref.1.2)
  · next hname =>
    rw [if_neg hname] at hdref
    exact eq_of_unique I hc hd (hcref.1.trans hdref.1.symm) (hcref.2.trans hdref.2.symm)

/-- A registration that governs was found, or none does. -/
def Finds (I : Installation) (ref : ClusterRef) (defaultNamespace : String) : Option ClusterRegistration → Prop
  | none => ∀ c, ¬Governs I ref defaultNamespace c
  | some c => Governs I ref defaultNamespace c

/-- The ceiling of what was found. -/
def ceilingOf : Option ClusterRegistration → PolicyList
  | none => defaultManagementPolicies
  | some c => c.managementPolicies

theorem Finds.ceiling (h : Finds I ref defaultNamespace found) :
    CeilingGrants I ref defaultNamespace action ↔ allows (ceilingOf found) action = true := by
  cases found with
  | none =>
    show CeilingGrants I ref defaultNamespace action ↔ allows defaultManagementPolicies action = true
    rw [allows_default]
    exact ⟨fun hgrants => hgrants.1, fun hknown => ⟨hknown, fun c hc => absurd hc (h c)⟩⟩
  | some c =>
  constructor
  · exact fun hgrants => hgrants.2 c h
  intro hallows
  refine ⟨known_of_allows hallows, ?_⟩
  intro d hd
  rw [hd.unique h]
  exact hallows

theorem finds_inClusterRegistration {reads : PolicyReads} (hname : ref.name = "") (hlist : reads.listFails = false) :
    Finds I ref defaultNamespace (inClusterRegistration I reads) := by
  have hmem : ∀ {c}, c ∈ I.clusters.filter (fun c => c.ns == I.operatorNamespace) ↔
      c ∈ I.clusters ∧ c.ns = I.operatorNamespace := by
    intro c
    rw [mem_filter, beq_iff_eq]
  have hempty : FirstOf [] none := fun c hc => by cases hc
  have hfirst := hempty.foldl (I.clusters.filter (fun c => c.ns == I.operatorNamespace))
  rw [nil_append] at hfirst
  rw [inClusterRegistration, hlist, if_neg Bool.false_ne_true]
  generalize (I.clusters.filter (fun c => c.ns == I.operatorNamespace)).foldl pickInCluster none = found at hfirst ⊢
  cases found with
  | none =>
    intro c hc
    obtain ⟨hc, hcref⟩ := hc
    rw [if_pos hname] at hcref
    have hnot := hfirst c (hmem.mpr ⟨hc, hcref.1.1⟩)
    rw [hcref.1.2] at hnot
    cases hnot
  | some f =>
  obtain ⟨⟨hf, hin⟩, hle⟩ := hfirst
  obtain ⟨hfmem, hfns⟩ := hmem.mp hf
  refine ⟨hfmem, ?_⟩
  rw [if_pos hname]
  exact ⟨⟨hfns, hin⟩, fun d hd hdns hdin => hle d (hmem.mpr ⟨hd, hdns⟩) hdin⟩

theorem finds_named (hname : ref.name ≠ "") : Finds I ref defaultNamespace
    (I.clusters.find? (fun c => c.ns == ref.namespaceIn defaultNamespace && c.name == ref.name)) := by
  have hgoverns : ∀ {c}, Governs I ref defaultNamespace c ↔
      c ∈ I.clusters ∧ c.ns = ref.namespaceIn defaultNamespace ∧ c.name = ref.name := by
    intro c
    rw [Governs, if_neg hname]
  cases hfind : I.clusters.find? (fun c => c.ns == ref.namespaceIn defaultNamespace && c.name == ref.name) with
  | none =>
    intro c hc
    obtain ⟨hmem, hns, hcname⟩ := hgoverns.mp hc
    exact List.find?_eq_none.mp hfind c hmem (by simp [hns, hcname])
  | some c =>
    refine hgoverns.mpr ⟨mem_of_find?_eq_some hfind, ?_⟩
    simpa using List.find?_some hfind

/-- The in-cluster registrations are read as if there were none. -/
def Blind (reads : PolicyReads) (ref : ClusterRef) : Prop := ref.name = "" ∧ reads.listFails = true

/-- The named registration cannot be read. -/
def Unreadable (reads : PolicyReads) (ref : ClusterRef) : Prop := ref.name ≠ "" ∧ reads.getFails = true

/-- **The resolution of a ceiling.**  It is the ceiling, an error, or, where the list has failed, no ceiling. -/
theorem resolveClusterCeiling_spec (I : Installation) (reads : PolicyReads) (ref : ClusterRef)
    (defaultNamespace : String) :
    (Unreadable reads ref ∧ resolveClusterCeiling I reads ref defaultNamespace = none) ∨
    (Blind reads ref ∧ resolveClusterCeiling I reads ref defaultNamespace = some defaultManagementPolicies) ∨
    (¬Unreadable reads ref ∧ ¬Blind reads ref ∧ ∃ policies,
      resolveClusterCeiling I reads ref defaultNamespace = some policies ∧
        ∀ action, CeilingGrants I ref defaultNamespace action ↔ allows policies action = true) := by
  by_cases hname : ref.name = ""
  · have hread : ¬Unreadable reads ref := fun h => h.1 hname
    cases hlist : reads.listFails with
    | true =>
      refine .inr (.inl ⟨⟨hname, hlist⟩, ?_⟩)
      simp [resolveClusterCeiling, hname, inClusterRegistration, hlist]
    | false =>
    have hseen : ¬Blind reads ref := fun h => false_ne_true (hlist.symm.trans h.2)
    refine .inr (.inr ⟨hread, hseen, ceilingOf (inClusterRegistration I reads), ?_, fun action =>
      (finds_inClusterRegistration hname hlist).ceiling⟩)
    rw [resolveClusterCeiling, if_pos hname]
    cases inClusterRegistration I reads <;> rfl
  · have hseen : ¬Blind reads ref := fun h => hname h.1
    cases hget : reads.getFails with
    | true =>
      refine .inl ⟨⟨hname, hget⟩, ?_⟩
      rw [resolveClusterCeiling, if_neg hname, if_pos hget]
    | false =>
    have hread : ¬Unreadable reads ref := fun h => false_ne_true (hget.symm.trans h.2)
    refine .inr (.inr ⟨hread, hseen, ceilingOf (I.clusters.find? fun c =>
      c.ns == ref.namespaceIn defaultNamespace && c.name == ref.name), ?_, fun action =>
        (finds_named hname).ceiling⟩)
    rw [resolveClusterCeiling, if_neg hname, hget, if_neg Bool.false_ne_true]
    cases I.clusters.find? (fun c => c.ns == ref.namespaceIn defaultNamespace && c.name == ref.name) <;> rfl
end

end Paprika.Policies
