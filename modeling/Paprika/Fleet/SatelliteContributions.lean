import Mathlib.Algebra.GroupWithZero.Nat
import Mathlib.Data.List.TakeWhile
import Paprika.Fleet.SatellitePlacements

/-!
# Fleet: what satellites contribute to a record

`satellite_merge`: the merge does not depend on the order of the clusters and leaves what the local control record says
alone.  Where no placement is hidden behind an observation of another project (`Unhidden`), another project contributes
nothing, and

* a count is the sum of the placements' and, unless its own placement was replaced, of the local one, exactly if the
  clusters before the replacing one fit beside the local count (`Fits`);
* health and sync are the worst of the placements', and of the local ones unless replaced, exactly if a replaced local
  one is not worse than all of them (`NotWorse`).

`satellite_merge_differs` has an input for each of the three conditions.
-/

namespace Paprika.Fleet

open Lib.InvertedIndex List

/-! ### Counts -/

inductive CountField
  | resources
  | drift
  | missingResources
  | blockedGates
  deriving DecidableEq

def ApplicationSummary.count (a : ApplicationSummary) : CountField → UInt32
  | .resources => a.resourceCount
  | .drift => a.driftCount
  | .missingResources => a.missingResourceCount
  | .blockedGates => a.blockedGateCount

/-- The largest count. -/
def maxCount : Nat := 4294967295

variable {a b : ApplicationSummary}

section
variable {f : CountField}

theorem toNat_maxUint32 : maxUint32.toNat = maxCount := by simp [maxUint32, maxCount]

theorem toNat_le_maxCount (x : UInt32) : x.toNat ≤ maxCount := by
  have hlt := x.toNat_lt
  rw [maxCount]
  omega

theorem toNat_room (left : UInt32) : (maxUint32 - left).toNat = maxCount - left.toNat := by
  have hle := toNat_le_maxCount left
  rw [UInt32.toNat_sub_of_le _ _ (by rw [UInt32.le_iff_toNat_le, toNat_maxUint32]; exact hle), toNat_maxUint32]

theorem toNat_add_of_le {left right : UInt32} (h : left.toNat + right.toNat ≤ maxCount) :
    (left + right).toNat = left.toNat + right.toNat := by
  rw [UInt32.toNat_add]
  rw [maxCount] at h
  omega

theorem toNat_saturatingAdd (left right : UInt32) :
    (saturatingAdd left right).toNat = min maxCount (left.toNat + right.toNat) := by
  have hleft := toNat_le_maxCount left
  have hroom := toNat_room left
  rw [saturatingAdd]
  by_cases h : maxUint32 - left < right
  · rw [if_pos h, toNat_maxUint32]
    rw [UInt32.lt_iff_toNat_lt, hroom] at h
    omega
  · rw [if_neg h]
    rw [UInt32.lt_iff_toNat_lt, hroom] at h
    rw [toNat_add_of_le (by omega)]
    omega

theorem toNat_count_le (a : ApplicationSummary) : (a.count f).toNat ≤ maxCount := toNat_le_maxCount _

theorem counts_merge (a o : ApplicationSummary) :
    (mergeSatelliteApplication a o).resourceCount = saturatingAdd a.resourceCount o.resourceCount ∧
      (mergeSatelliteApplication a o).driftCount = saturatingAdd a.driftCount o.driftCount ∧
      (mergeSatelliteApplication a o).missingResourceCount =
        saturatingAdd a.missingResourceCount o.missingResourceCount ∧
      (mergeSatelliteApplication a o).blockedGateCount = saturatingAdd a.blockedGateCount o.blockedGateCount := by
  rw [mergeSatelliteApplication, mergeSatelliteTargets]
  refine ⟨?_, ?_, ?_, ?_⟩ <;> dsimp only

@[simp] theorem count_resources (a : ApplicationSummary) : a.count .resources = a.resourceCount := rfl
@[simp] theorem count_drift (a : ApplicationSummary) : a.count .drift = a.driftCount := rfl
@[simp] theorem count_missingResources (a : ApplicationSummary) :
    a.count .missingResources = a.missingResourceCount := rfl
@[simp] theorem count_blockedGates (a : ApplicationSummary) : a.count .blockedGates = a.blockedGateCount := rfl

theorem count_merge (a o : ApplicationSummary) :
    ((mergeSatelliteApplication a o).count f).toNat = min maxCount ((a.count f).toNat + (o.count f).toNat) := by
  obtain ⟨hress, hdrift, hmissing, hblocked⟩ := counts_merge a o
  cases f with
  | resources => rw [count_resources, count_resources, count_resources, hress, toNat_saturatingAdd]
  | drift => rw [count_drift, count_drift, count_drift, hdrift, toNat_saturatingAdd]
  | missingResources =>
    rw [count_missingResources, count_missingResources, count_missingResources, hmissing, toNat_saturatingAdd]
  | blockedGates => rw [count_blockedGates, count_blockedGates, count_blockedGates, hblocked, toNat_saturatingAdd]

theorem count_withoutOwnCounts (h : (b.count f).toNat ≤ (a.count f).toNat) :
    ((withoutOwnCounts a b).count f).toNat = (a.count f).toNat - (b.count f).toNat := by
  have hcount : (withoutOwnCounts a b).count f = a.count f - b.count f := by cases f <;> rfl
  rw [hcount, UInt32.toNat_sub_of_le _ _ (UInt32.le_iff_toNat_le.mpr h)]

def total (f : CountField) (xs : List ApplicationSummary) : Nat := (xs.map (fun x => (x.count f).toNat)).sum

def totalReports (f : CountField) (rs : Reports) : Nat := (rs.map (fun r => total f r.2)).sum

theorem count_foldl_merge (os : List ApplicationSummary) : ∀ a : ApplicationSummary,
    ((os.foldl mergeSatelliteApplication a).count f).toNat = min maxCount ((a.count f).toNat + total f os) := by
  induction os with
  | nil =>
    intro a
    have := toNat_count_le (f := f) a
    show (a.count f).toNat = min maxCount ((a.count f).toNat + 0)
    omega
  | cons o os ih =>
    intro a
    rw [foldl_cons, ih, count_merge, total, total, map_cons, sum_cons]
    omega

/-- The count of a record, none while there is none. -/
def stateCount (f : CountField) (state : Option ApplicationSummary × Bool) : Nat :=
  (state.1.map (fun a => (a.count f).toNat)).getD 0
end

variable {r : ObjectKey × List ApplicationSummary} {state : Option ApplicationSummary × Bool}

section
variable {f : CountField} {base : Option ApplicationSummary} {project : ObjectKey}

def OnlyOf (project : ObjectKey) (rs : Reports) : Prop := ∀ r ∈ rs, ∀ o ∈ r.2, o.project = project

theorem onlyOf_ownReports (rs : Reports) : OnlyOf project (ownReports project rs) := by
  intro r hr o ho
  obtain ⟨q, -, rfl⟩ := mem_map.mp hr
  simpa using of_mem_filter ho

theorem joinAll_onlyOf {x : ApplicationSummary} {rest : List ApplicationSummary}
    (h : ∀ o ∈ x :: rest, o.project = project) :
    joinAll (x :: rest) = some (rest.foldl mergeSatelliteApplication x) := by
  have hall : rest.filter (fun y => y.project = x.project) = rest := by
    rw [filter_eq_self]
    intro y hy
    rw [h y (mem_cons_of_mem x hy), h x mem_cons_self]
    exact decide_eq_true rfl
  rw [joinAll, hall]

/-- The record of the project that a state has, or none yet. -/
def InProject (project : ObjectKey) (state : Option ApplicationSummary × Bool) : Prop :=
  ∀ a, state.1 = some a → a.project = project

theorem inProject_placeReport (base : Option ApplicationSummary)
    (hstate : InProject project state) (hr : ∀ o ∈ r.2, o.project = project) :
    InProject project (placeReport base state r) := by
  obtain ⟨cluster, xs⟩ := r
  cases xs with
  | nil => exact hstate
  | cons x rest =>
  obtain ⟨a, ha, haproject⟩ := project_placeStep base cluster hstate
    ((project_joinAll (rfl : joinAll (x :: rest) = some _)).trans (hr x mem_cons_self))
  intro b hb
  have hab : some a = some b := ha.symm.trans hb
  rw [← Option.some.inj hab]
  exact haproject

/-- The local record does not give way to this report. -/
def Stays (base : Option ApplicationSummary) (replaced : Bool) (r : ObjectKey × List ApplicationSummary) : Prop :=
  r.2 = [] ∨ replaced = true ∨ ∀ b, base = some b → b.currentCluster ≠ r.1

theorem stateCount_placeReport
    (hstate : InProject project state) (hr : ∀ o ∈ r.2, o.project = project) (hstays : Stays base state.2 r) :
    stateCount f (placeReport base state r) = min maxCount (stateCount f state + total f r.2) ∧
      (placeReport base state r).2 = state.2 := by
  obtain ⟨cluster, xs⟩ := r
  cases xs with
  | nil =>
    refine ⟨?_, rfl⟩
    have hle : stateCount f state ≤ maxCount := by
      rw [stateCount]
      cases state.1 with
      | none => exact Nat.zero_le _
      | some a => exact toNat_count_le a
    show stateCount f state = min maxCount (stateCount f state + 0)
    omega
  | cons x rest =>
  have hjoin := joinAll_onlyOf hr
  have hcount := count_foldl_merge (f := f) rest x
  have hle := toNat_count_le (f := f) (rest.foldl mergeSatelliteApplication x)
  have htotal : total f (x :: rest) = (x.count f).toNat + total f rest := by
    rw [total, map_cons, sum_cons]
    rfl
  obtain ⟨current, replaced⟩ := state
  rw [placeReport, hjoin]
  dsimp only
  rw [htotal]
  cases current with
  | none =>
    refine ⟨?_, rfl⟩
    show ((rest.foldl mergeSatelliteApplication x).count f).toNat = min maxCount (0 + _)
    rw [hcount]
    omega
  | some a =>
  have hproj : a.project = (rest.foldl mergeSatelliteApplication x).project := by
    rw [foldl_merge_keeps ApplicationSummary.project (fun _ _ => rfl), hstate a rfl,
      hr x mem_cons_self]
  have hnot : base.any (fun b => !replaced && decide (b.currentCluster = cluster)) = false := by
    obtain hnil | hrepl | hother := hstays
    · cases hnil
    · have hreplaced' : replaced = true := hrepl
      rw [hreplaced']
      cases base <;> rfl
    · cases base with
      | none => rfl
      | some b =>
        have hne : b.currentCluster ≠ cluster := hother b rfl
        simp [hne]
  rw [placeStep]
  dsimp only
  rw [if_neg (not_not.mpr hproj), hnot]
  refine ⟨?_, rfl⟩
  show ((mergeSatelliteApplication a (rest.foldl mergeSatelliteApplication x)).count f).toNat =
    min maxCount ((a.count f).toNat + _)
  rw [count_merge, hcount]
  omega

theorem stateCount_foldl (rs : Reports) : ∀ state : Option ApplicationSummary × Bool, InProject project state →
    OnlyOf project rs → stateCount f state ≤ maxCount → (∀ r ∈ rs, Stays base state.2 r) →
      stateCount f (rs.foldl (placeReport base) state) = min maxCount (stateCount f state + totalReports f rs) ∧
        (rs.foldl (placeReport base) state).2 = state.2 ∧ InProject project (rs.foldl (placeReport base) state) := by
  induction rs with
  | nil =>
    intro state hstate _ hle _
    refine ⟨?_, rfl, hstate⟩
    show stateCount f state = min maxCount (stateCount f state + 0)
    omega
  | cons r rest ih =>
    intro state hstate honly hle hstays
    have hr := honly r mem_cons_self
    obtain ⟨hcount, hflag⟩ := stateCount_placeReport (f := f) hstate hr (hstays r mem_cons_self)
    obtain ⟨hrest, hflag', hproj⟩ := ih (placeReport base state r) (inProject_placeReport base hstate hr)
      (fun q hq => honly q (mem_cons_of_mem r hq)) (by omega)
      (fun q hq => by rw [hflag]; exact hstays q (mem_cons_of_mem r hq))
    refine ⟨?_, hflag'.trans hflag, hproj⟩
    have htotal : totalReports f (r :: rest) = total f r.2 + totalReports f rest := by
      rw [totalReports, map_cons, sum_cons]
      rfl
    rw [foldl_cons, hrest, hcount, htotal]
    omega

/-- The report of the cluster of the local placement takes its counts away first. -/
theorem stateCount_replace {xs : List ApplicationSummary} (ha : a.project = project)
    (hxs : ∀ o ∈ xs, o.project = project) (hne : xs ≠ []) (hle : (b.count f).toNat ≤ (a.count f).toNat) :
    stateCount f (placeReport (some b) (some a, false) (b.currentCluster, xs)) =
        min maxCount ((a.count f).toNat - (b.count f).toNat + total f xs) ∧
      (placeReport (some b) (some a, false) (b.currentCluster, xs)).2 = true := by
  cases xs with
  | nil => exact absurd rfl hne
  | cons x rest =>
  have hproj : a.project = (rest.foldl mergeSatelliteApplication x).project := by
    rw [foldl_merge_keeps ApplicationSummary.project (fun _ _ => rfl), ha, hxs x mem_cons_self]
  have hcount := count_foldl_merge (f := f) rest x
  have htotal : total f (x :: rest) = (x.count f).toNat + total f rest := by
    rw [total, map_cons, sum_cons]
    rfl
  rw [placeReport, joinAll_onlyOf hxs]
  dsimp only
  rw [placeStep]
  dsimp only
  rw [if_neg (not_not.mpr hproj), if_pos (by simp), htotal]
  refine ⟨?_, rfl⟩
  show ((mergeSatelliteApplication (withoutOwnCounts a b) (rest.foldl mergeSatelliteApplication x)).count f).toNat = _
  rw [count_merge, hcount, count_withoutOwnCounts hle]
  omega
end

/-! ### What contributes to a record -/

section
variable (base : Option ApplicationSummary) (rs : Reports)

/-- The cluster of the local placement observes it. -/
def Replaced : Prop := ∃ b ∈ base, ∃ r ∈ rs, r.1 = b.currentCluster ∧ r.2 ≠ []

instance : Decidable (Replaced base rs) := inferInstanceAs (Decidable (∃ _ ∈ _, _))

/-- The placements, and the local one unless it was replaced. -/
def contributions : List ApplicationSummary := (if Replaced base rs then [] else base.toList) ++ rs.flatMap Prod.snd

def reportsBefore (cluster : ObjectKey) : Reports := rs.takeWhile (fun r => decide (r.1 ≠ cluster))

/-- The report of the cluster, and those that are merged after it. -/
def reportsFrom (cluster : ObjectKey) : Reports := rs.dropWhile (fun r => decide (r.1 ≠ cluster))

/-- A local record that is replaced still has all of its counts when they are taken away, or the rest makes up for it. -/
def Fits (f : CountField) : Prop :=
  ∀ b ∈ base, Replaced base rs → (b.count f).toNat + totalReports f (reportsBefore rs b.currentCluster) ≤ maxCount ∨
      (b.count f).toNat ≤ totalReports f (reportsFrom rs b.currentCluster)

/-- A local record that is replaced is not worse than every placement. -/
def NotWorse {α : Type} (severity : α → Nat) (get : ApplicationSummary → α) : Prop :=
  ∀ b ∈ base, Replaced base rs → ∃ o ∈ rs.flatMap Prod.snd, severity (get b) ≤ severity (get o)

/-- A value of the list that none is worse than. -/
def IsWorst {α : Type} (severity : α → Nat) (v : α) (vs : List α) : Prop := v ∈ vs ∧ ∀ x ∈ vs, severity x ≤ severity v

instance (f : CountField) : Decidable (Fits base rs f) := inferInstanceAs (Decidable (∀ _, _))

instance {α : Type} (severity : α → Nat) (get : ApplicationSummary → α) : Decidable (NotWorse base rs severity get) :=
  inferInstanceAs (Decidable (∀ _, _))

instance {α : Type} [DecidableEq α] (severity : α → Nat) (v : α) (vs : List α) : Decidable (IsWorst severity v vs) :=
  inferInstanceAs (Decidable (_ ∧ _))

variable {base rs} {f : CountField} {project : ObjectKey}

theorem total_append (xs ys : List ApplicationSummary) : total f (xs ++ ys) = total f xs + total f ys := by
  rw [total, total, total, map_append, sum_append]

theorem totalReports_eq (rs : Reports) : totalReports f rs = total f (rs.flatMap Prod.snd) := by
  induction rs with
  | nil => rfl
  | cons r rest ih =>
    rw [flatMap_cons, total_append, ← ih]
    rfl

theorem totalReports_append (rs qs : Reports) : totalReports f (rs ++ qs) = totalReports f rs + totalReports f qs := by
  rw [totalReports_eq, totalReports_eq, totalReports_eq, flatMap_append, total_append]

theorem reportsBefore_append_reportsFrom (rs : Reports) (cluster : ObjectKey) : reportsBefore rs cluster ++ reportsFrom rs cluster = rs :=
  takeWhile_append_dropWhile

theorem reportsFrom_eq_cons (hdistinct : (rs.map Prod.fst).Nodup) (h : Replaced (some b) rs) :
    ∃ xs rest, reportsFrom rs b.currentCluster = (b.currentCluster, xs) :: rest ∧ xs ≠ [] := by
  obtain ⟨c, hc, r, hr, hcluster, hne⟩ := h
  obtain rfl : b = c := Option.some.inj hc
  have hsplit := reportsBefore_append_reportsFrom rs b.currentCluster
  have hpre : r ∉ reportsBefore rs b.currentCluster := by
    intro hin
    have hother := mem_takeWhile_imp hin
    simp [hcluster] at hother
  have hfrom : r ∈ reportsFrom rs b.currentCluster := by
    rw [← hsplit, mem_append] at hr
    exact hr.resolve_left hpre
  cases hcons : reportsFrom rs b.currentCluster with
  | nil =>
    rw [hcons] at hfrom
    cases hfrom
  | cons q rest =>
  have hhead : q.1 = b.currentCluster := by
    have hnot := List.head?_dropWhile_not
      (fun r : ObjectKey × List ApplicationSummary => decide (r.1 ≠ b.currentCluster)) rs
    rw [show rs.dropWhile _ = q :: rest from hcons] at hnot
    simpa using hnot
  have hqr : r = q := by
    rw [hcons] at hfrom
    obtain heq | hin := mem_cons.mp hfrom
    · exact heq
    have hkeys : ((reportsFrom rs b.currentCluster).map Prod.fst).Nodup :=
      hdistinct.sublist ((dropWhile_sublist _).map Prod.fst)
    rw [hcons, map_cons, nodup_cons] at hkeys
    have hcontra : q.1 ∈ rest.map Prod.fst := by
      rw [hhead, ← hcluster]
      exact mem_map_of_mem hin
    exact absurd hcontra hkeys.1
  obtain ⟨cluster, xs⟩ := q
  subst hqr
  exact ⟨xs, rest, by rw [show cluster = b.currentCluster from hhead], hne⟩

theorem OnlyOf.sublist {qs : Reports} (h : OnlyOf project rs) (hsub : qs.Sublist rs) : OnlyOf project qs :=
  fun r hr => h r (hsub.mem hr)

theorem stateCount_unreplaced (hbase : InProject project (base, false)) (honly : OnlyOf project rs)
    (h : ¬ Replaced base rs) :
    stateCount f (rs.foldl (placeReport base) (base, false)) = min maxCount (total f (contributions base rs)) := by
  have hle : stateCount f (base, false) ≤ maxCount := by
    cases base with
    | none => exact Nat.zero_le _
    | some b => exact toNat_count_le b
  have hstays : ∀ r ∈ rs, Stays base false r := by
    intro r hr
    by_cases hnil : r.2 = []
    · exact .inl hnil
    · refine .inr (.inr ?_)
      intro b hb heq
      exact h ⟨b, hb, r, hr, heq.symm, hnil⟩
  have hown : stateCount f (base, false) = total f base.toList := by
    cases base with
    | none => rfl
    | some b => exact (Nat.add_zero _).symm
  rw [(stateCount_foldl rs (base, false) hbase honly hle hstays).1, contributions, if_neg h, total_append, hown,
    totalReports_eq]

/-- The count of a record whose own placement is observed: the local count is taken away from what there is by then. -/
theorem stateCount_replaced (hb : b.project = project) (honly : OnlyOf project rs)
    (hdistinct : (rs.map Prod.fst).Nodup) (h : Replaced (some b) rs) :
    stateCount f (rs.foldl (placeReport (some b)) (some b, false)) =
      min maxCount (min maxCount ((b.count f).toNat + totalReports f (reportsBefore rs b.currentCluster)) -
        (b.count f).toNat + totalReports f (reportsFrom rs b.currentCluster)) := by
  obtain ⟨xs, rest, hfrom, hne⟩ := reportsFrom_eq_cons hdistinct h
  have hlocal : InProject project (some b, false) := by
    intro a ha
    rw [← Option.some.inj ha, hb]
  have hpre : ∀ r ∈ reportsBefore rs b.currentCluster, Stays (some b) false r := by
    intro r hr
    have hother : r.1 ≠ b.currentCluster := by simpa using mem_takeWhile_imp hr
    refine .inr (.inr ?_)
    intro c hc
    rw [← Option.some.inj hc]
    exact Ne.symm hother
  have honlyFrom : OnlyOf project (reportsFrom rs b.currentCluster) := honly.sublist (dropWhile_sublist _)
  obtain ⟨hcount, hflag, hproj⟩ := stateCount_foldl (f := f) (reportsBefore rs b.currentCluster) (some b, false)
    hlocal (honly.sublist (takeWhile_sublist _)) (toNat_count_le b) hpre
  have hstart : stateCount f (some b, false) = (b.count f).toNat := rfl
  have hlocalLe := toNat_count_le (f := f) b
  conv_lhs => rw [← reportsBefore_append_reportsFrom rs b.currentCluster, foldl_append, hfrom]
  obtain ⟨a, ha, hkeeps⟩ := (KeepsLocal.refl b).foldl_placeReport (some b) (reportsBefore rs b.currentCluster) b false
  generalize (reportsBefore rs b.currentCluster).foldl (placeReport (some b)) (some b, false) = state
    at hcount hflag hproj ha
  obtain ⟨current, replaced⟩ := state
  obtain rfl : replaced = false := hflag
  obtain rfl : current = some a := ha
  have hagree : (a.count f).toNat =
      min maxCount ((b.count f).toNat + totalReports f (reportsBefore rs b.currentCluster)) := hcount
  rw [hfrom] at honlyFrom
  have hxs : ∀ o ∈ xs, o.project = project := honlyFrom _ mem_cons_self
  obtain ⟨hreplace, hflag⟩ := stateCount_replace (f := f) (hkeeps.project.trans hb) hxs hne (b := b) (by omega)
  have hafter := inProject_placeReport (some b) (r := (b.currentCluster, xs)) hproj hxs
  obtain ⟨hcountAfter, -, -⟩ := stateCount_foldl (f := f) rest _ hafter
    (fun r hr => honlyFrom r (mem_cons_of_mem _ hr)) (by omega) (fun _ _ => .inr (.inl hflag))
  have htotal : totalReports f (reportsFrom rs b.currentCluster) = total f xs + totalReports f rest := by
    rw [hfrom, totalReports, map_cons, sum_cons]
    rfl
  rw [foldl_cons, hcountAfter, hreplace, hagree, htotal]
  omega

/-- **A count is that of what contributes to the record exactly if it fits.** -/
theorem stateCount_right_iff (hbase : InProject project (base, false)) (honly : OnlyOf project rs)
    (hdistinct : (rs.map Prod.fst).Nodup) :
    stateCount f (rs.foldl (placeReport base) (base, false)) = min maxCount (total f (contributions base rs)) ↔
      Fits base rs f := by
  by_cases hrepl : Replaced base rs
  · cases base with
    | none =>
      obtain ⟨b, hb, -⟩ := hrepl
      cases hb
    | some b =>
    have hsum : total f (contributions (some b) rs) =
        totalReports f (reportsBefore rs b.currentCluster) + totalReports f (reportsFrom rs b.currentCluster) := by
      rw [contributions, if_pos hrepl, nil_append, ← totalReports_eq, ← totalReports_append,
        reportsBefore_append_reportsFrom rs]
    have hle := toNat_count_le (f := f) b
    rw [stateCount_replaced (hbase b rfl) honly hdistinct hrepl, hsum]
    constructor
    · intro hcount c hc _
      rw [← Option.some.inj hc]
      omega
    · intro hfits
      have := hfits b rfl hrepl
      omega
  · constructor
    · intro _ b _ h
      exact absurd h hrepl
    · intro _
      exact stateCount_unreplaced hbase honly hrepl
end

/-! ### Health and sync -/

section
variable {α : Type} {severity : α → Nat} {get : ApplicationSummary → α}

/-- Merging takes the worse of two values. -/
structure TakesWorse (severity : α → Nat) (get : ApplicationSummary → α) : Prop where
  injective : Function.Injective severity
  merge : ∀ a o, get (mergeSatelliteApplication a o) = if severity (get o) > severity (get a) then get o else get a
  withoutOwnCounts : ∀ a b, get (withoutOwnCounts a b) = get a

theorem takesWorse_health : TakesWorse unhealthySeverity ApplicationSummary.health := by
  refine ⟨?_, fun _ _ => rfl, fun _ _ => rfl⟩
  intro a b h
  cases a <;> cases b <;> first | rfl | cases h

theorem takesWorse_sync : TakesWorse satelliteSyncSeverity ApplicationSummary.sync := by
  refine ⟨?_, fun _ _ => rfl, fun _ _ => rfl⟩
  intro a b h
  cases a <;> cases b <;> first | rfl | cases h

theorem IsWorst.merge {o : ApplicationSummary} {vs ws : List α} (h : TakesWorse severity get)
    (ha : IsWorst severity (get a) vs) (ho : IsWorst severity (get o) ws) :
    IsWorst severity (get (mergeSatelliteApplication a o)) (vs ++ ws) := by
  rw [h.merge]
  by_cases hworse : severity (get o) > severity (get a)
  · rw [if_pos hworse]
    refine ⟨mem_append_right vs ho.1, ?_⟩
    intro x hx
    obtain hx | hx := mem_append.mp hx
    · have := ha.2 x hx
      omega
    · exact ho.2 x hx
  · rw [if_neg hworse]
    refine ⟨mem_append_left ws ha.1, ?_⟩
    intro x hx
    obtain hx | hx := mem_append.mp hx
    · exact ha.2 x hx
    · have := ho.2 x hx
      omega

theorem IsWorst.self (v : α) : IsWorst severity v [v] := by
  refine ⟨mem_singleton_self v, ?_⟩
  intro x hx
  rw [mem_singleton.mp hx]

theorem IsWorst.foldl_merge (h : TakesWorse severity get) (os : List ApplicationSummary) :
    ∀ (a : ApplicationSummary) (vs : List α), IsWorst severity (get a) vs →
      IsWorst severity (get (os.foldl mergeSatelliteApplication a)) (vs ++ os.map get) := by
  induction os with
  | nil =>
    intro a vs ha
    rw [map_nil, append_nil]
    exact ha
  | cons o os ih =>
    intro a vs ha
    rw [foldl_cons, map_cons, append_cons]
    exact ih _ _ (ha.merge h (IsWorst.self (get o)))

/-- The value of the record is the worst of these, of none while there is no record. -/
def WorstOf (severity : α → Nat) (get : ApplicationSummary → α) (state : Option ApplicationSummary × Bool)
    (vs : List α) : Prop :=
  (state.1 = none → vs = []) ∧ ∀ a, state.1 = some a → IsWorst severity (get a) vs

theorem IsWorst.worstOf {replaced : Bool} {vs : List α} (h : IsWorst severity (get a) vs) :
    WorstOf severity get (some a, replaced) vs := by
  refine ⟨fun hnone => absurd hnone (Option.some_ne_none a), ?_⟩
  intro b hb
  rw [← Option.some.inj hb]
  exact h

section
variable (h : TakesWorse severity get)
include h

section
variable {base : Option ApplicationSummary} {project : ObjectKey}

theorem WorstOf.placeReport {vs : List α}
    (hstate : InProject project state) (hr : ∀ o ∈ r.2, o.project = project)
    (hvs : WorstOf severity get state vs) : WorstOf severity get (placeReport base state r) (vs ++ r.2.map get) := by
  obtain ⟨cluster, xs⟩ := r
  cases xs with
  | nil =>
    rw [map_nil, append_nil]
    exact hvs
  | cons x rest =>
  have hjoined : IsWorst severity (get (rest.foldl mergeSatelliteApplication x)) ((x :: rest).map get) :=
    IsWorst.foldl_merge h rest x [get x] (IsWorst.self (get x))
  rw [Fleet.placeReport, joinAll_onlyOf hr]
  dsimp only
  obtain ⟨current, replaced⟩ := state
  cases current with
  | none =>
    rw [hvs.1 rfl, nil_append]
    exact hjoined.worstOf
  | some a =>
  have hproj : a.project = (rest.foldl mergeSatelliteApplication x).project := by
    rw [foldl_merge_keeps ApplicationSummary.project (fun _ _ => rfl), hstate a rfl,
      hr x mem_cons_self]
  have ha := hvs.2 a rfl
  rw [placeStep]
  dsimp only
  rw [if_neg (not_not.mpr hproj)]
  split
  · refine (IsWorst.merge h ?_ hjoined).worstOf
    rw [h.withoutOwnCounts]
    exact ha
  · exact (ha.merge h hjoined).worstOf

theorem WorstOf.foldl_placeReport (rs : Reports) :
    ∀ (state : Option ApplicationSummary × Bool) (vs : List α), InProject project state → OnlyOf project rs →
      WorstOf severity get state vs →
        WorstOf severity get (rs.foldl (Fleet.placeReport base) state) (vs ++ (rs.flatMap Prod.snd).map get) := by
  induction rs with
  | nil =>
    intro state vs _ _ hvs
    rw [flatMap_nil, map_nil, append_nil]
    exact hvs
  | cons r rest ih =>
    intro state vs hstate honly hvs
    have hr := honly r mem_cons_self
    rw [foldl_cons, flatMap_cons, map_append, ← append_assoc]
    exact ih _ _ (inProject_placeReport base hstate hr) (fun q hq => honly q (mem_cons_of_mem r hq))
      (hvs.placeReport h hstate hr)

/-- **A value is the worst of what contributes to the record exactly if a replaced one is not worse.** -/
theorem isWorst_contributions_iff {rs : Reports}
    {m : ApplicationSummary} (hbase : InProject project (base, false))
    (honly : OnlyOf project rs) (hm : (rs.foldl (Fleet.placeReport base) (base, false)).1 = some m) :
    IsWorst severity (get m) ((contributions base rs).map get) ↔ NotWorse base rs severity get := by
  have hstart : WorstOf severity get (base, false) (base.toList.map get) := by
    cases base with
    | none => exact ⟨fun _ => rfl, fun a ha => absurd ha.symm (Option.some_ne_none a)⟩
    | some b => exact (IsWorst.self (get b)).worstOf
  have hall := (WorstOf.foldl_placeReport h rs (base, false) _ hbase honly hstart).2 m hm
  by_cases hrepl : Replaced base rs
  · rw [contributions, if_pos hrepl, nil_append]
    constructor
    · intro hown b hb _
      obtain ⟨o, ho, heq⟩ := mem_map.mp hown.1
      refine ⟨o, ho, ?_⟩
      rw [heq]
      apply hall.2
      rw [hb]
      exact mem_append_left _ (mem_singleton_self _)
    · intro hnotWorse
      refine ⟨?_, fun x hx => hall.2 x (mem_append_right _ hx)⟩
      obtain hlocal | hown := mem_append.mp hall.1
      · obtain ⟨b, hb, hbm⟩ := mem_map.mp hlocal
        obtain ⟨o, ho, hle⟩ := hnotWorse b (Option.mem_toList.mp hb) hrepl
        have hom := hall.2 (get o) (mem_append_right _ (mem_map_of_mem ho))
        -- the local value is no worse than this placement's, so it is this placement's
        have heq : get o = get m := h.injective (by rw [hbm] at hle; omega)
        rw [← heq]
        exact mem_map_of_mem ho
      · exact hown
  · rw [contributions, if_neg hrepl, map_append]
    constructor
    · intro _ b _ hr
      exact absurd hr hrepl
    · intro _
      exact hall
end

end
end

/-! ### The merged snapshot -/

section
variable {isDNS1123Subdomain : String → Bool} {u : Unicode} {snapshot : Snapshot} {satellites : List SatelliteSnapshot}

def Distinct (satellites : List SatelliteSnapshot) : Prop := (satellites.map (fun s => s.cluster.identity)).Nodup

section
variable (hdistinct : Distinct satellites)
include hdistinct

theorem orderedSatellites_perm {satellites' : List SatelliteSnapshot}
    (hperm : satellites'.Perm satellites) : orderedSatellites satellites' = orderedSatellites satellites := by
  have hsort : ∀ xs : List SatelliteSnapshot,
      (orderedSatellites xs).Pairwise (fun a b => a.cluster.identity ≤ b.cluster.identity) := by
    intro xs
    have htrans : ∀ a b c : SatelliteSnapshot, decide (a.cluster.identity ≤ b.cluster.identity) = true →
        decide (b.cluster.identity ≤ c.cluster.identity) = true →
          decide (a.cluster.identity ≤ c.cluster.identity) = true := by
      intro a b c hab hbc
      exact decide_eq_true (le_trans (of_decide_eq_true hab) (of_decide_eq_true hbc))
    have htotal : ∀ a b : SatelliteSnapshot, (decide (a.cluster.identity ≤ b.cluster.identity) ||
        decide (b.cluster.identity ≤ a.cluster.identity)) = true := by
      intro a b
      simpa using le_total a.cluster.identity b.cluster.identity
    exact (pairwise_mergeSort htrans htotal xs).imp of_decide_eq_true
  have hmerged : (orderedSatellites satellites').Perm (orderedSatellites satellites) :=
    ((mergeSort_perm _ _).trans hperm).trans (mergeSort_perm _ _).symm
  have hinj : ∀ a ∈ satellites, ∀ b ∈ satellites, a.cluster.identity = b.cluster.identity → a = b :=
    fun a ha b hb heq => inj_on_of_nodup_map hdistinct ha hb heq
  refine hmerged.eq_of_pairwise ?_ (hsort _) (hsort _)
  intro a b ha hb hab hba
  exact hinj a (hperm.mem_iff.mp ((mergeSort_perm _ _).mem_iff.mp ha)) b
    ((mergeSort_perm _ _).mem_iff.mp hb) (le_antisymm hab hba)

theorem distinct_ordered : Distinct (orderedSatellites satellites) :=
  (((mergeSort_perm satellites _).map _).nodup_iff).mpr hdistinct

theorem at_mergedState (id : ObjectKey) : (mergedState isDNS1123Subdomain snapshot satellites).at id =
      (reports (localSatelliteAliases isDNS1123Subdomain snapshot.applications) (orderedSatellites satellites) id).foldl
        (placeReport (snapshot.applications.lookup id)) (snapshot.applications.lookup id, false) := by
  rw [mergedState, at_foldl_mergeSatellite _ _ (distinct_ordered hdistinct) (fun _ _ => Finset.notMem_empty _)]
  rfl
end

theorem identity_mergedState (isDNS1123Subdomain : String → Bool)
    (hidentities : ∀ id a, snapshot.applications.lookup id = some a → a.identity = id)
    (hdistinct : Distinct satellites) :
    ∀ id o, (mergedState isDNS1123Subdomain snapshot satellites).groups.lookup id = some o → o.identity = id := by
  intro id o ho
  have hat : ((mergedState isDNS1123Subdomain snapshot satellites).at id).1 = some o := ho
  rw [at_mergedState hdistinct] at hat
  refine identity_foldl_placeReport _ _ (hidentities id) ?_ o hat
  intro r hr x hx
  obtain ⟨s, -, rfl⟩ := mem_map.mp hr
  exact identity_placements x hx

theorem clusters_mergedState (isDNS1123Subdomain : String → Bool) (satellites : List SatelliteSnapshot)
    (hkeyed : snapshot.Keyed) : ∀ key x,
    (mergedState isDNS1123Subdomain snapshot satellites).clusters.lookup key = some x → x.identity = key := by
  have hstep : ∀ (xs : List SatelliteSnapshot) (aliases : Aliases) (st : MergeState),
      (∀ key x, st.clusters.lookup key = some x → x.identity = key) →
        ∀ key x, (xs.foldl (mergeSatellite snapshot.applications aliases) st).clusters.lookup key = some x →
          x.identity = key := by
    intro xs aliases
    induction xs with
    | nil => exact fun _ hst => hst
    | cons s rest ih =>
      intro st hst
      refine ih _ ?_
      intro key x hx
      rw [mergeSatellite] at hx
      split at hx
      · exact hst key x hx
      split at hx
      · exact hst key x hx
      rw [(clusters_foldl_mergeSatellitePlacement _ _ _).1, lookup_insert_eq] at hx
      by_cases hkey : key = s.cluster.identity
      · rw [if_pos hkey] at hx
        rw [← Option.some.inj hx, hkey]
      · rw [if_neg hkey] at hx
        exact hst key x hx
  exact hstep _ _ _ hkeyed.clusters

/-- **The merge succeeds, with the records of its last state.** -/
theorem mergeSatelliteSnapshots_ok (isDNS1123Subdomain : String → Bool) (u : Unicode)
    (hidentities : ∀ id a, snapshot.applications.lookup id = some a → a.identity = id)
    (hkeyed : snapshot.Keyed) (hdistinct : Distinct satellites) (generation : Nat) :
    ∃ result, mergeSatelliteSnapshots isDNS1123Subdomain u snapshot satellites generation = .ok result ∧
      ∀ id, result.applications.lookup id = ((mergedState isDNS1123Subdomain snapshot satellites).at id).1 := by
  have hgroups := identity_mergedState isDNS1123Subdomain hidentities hdistinct
  have hclus := clusters_mergedState isDNS1123Subdomain satellites hkeyed
  generalize hstate : mergedState isDNS1123Subdomain snapshot satellites = state at hgroups hclus
  obtain ⟨hnd, hmem, -⟩ := sortedRecords_spec hgroups
  obtain ⟨start, hstart⟩ : ∃ start, start = (((((newSnapshot generation).setTable .projects snapshot.projects).setTable
      .repositories snapshot.repositories).setTable .sources snapshot.sources).setTable .clusters state.clusters) :=
    ⟨_, rfl⟩
  have hempty : start.Grouped := by
    obtain ⟨hnone, hindex, hbind⟩ := grouped_newSnapshot generation
    rw [hstart]
    exact ⟨hnone, hindex, hbind⟩
  have hnew : ∀ id, start.applications.lookup id = none := by
    intro id
    rw [hstart]
    rfl
  obtain ⟨hgrouped, hlookup⟩ := hempty.addAll hnd (fun a _ => hnew a.identity)
  have htables := (foldl_addApplicationMutable (sortedRecords state.groups) start).2
  have hfilled : ((sortedRecords state.groups).foldl addApplicationMutable start).Keyed := by
    refine ⟨?_, ?_, ?_, ?_⟩
    · rw [show Snapshot.projects _ = start.maps.table .projects from htables .projects (.inl rfl), hstart]
      exact hkeyed.projects
    · rw [show Snapshot.repositories _ = start.maps.table .repositories from
        htables .repositories (.inr (.inl rfl)), hstart]
      exact hkeyed.repositories
    · rw [show Snapshot.clusters _ = start.maps.table .clusters from
        htables .clusters (.inr (.inr (.inl rfl))), hstart]
      exact hclus
    · rw [show Snapshot.sources _ = start.maps.table .sources from
        htables .sources (.inr (.inr (.inr rfl))), hstart]
      exact hkeyed.sources
  refine ⟨rebuildSearchIndex u ((sortedRecords state.groups).foldl addApplicationMutable start), ?_, ?_⟩
  · have hmerge : mergeSatelliteSnapshots isDNS1123Subdomain u snapshot satellites generation = (do
        validateSnapshot ((sortedRecords state.groups).foldl addApplicationMutable start)
        return rebuildSearchIndex u ((sortedRecords state.groups).foldl addApplicationMutable start)) := by
      rw [hstart, mergeSatelliteSnapshots, hstate]
    rw [hmerge, hgrouped.validateSnapshot hfilled]
    rfl
  intro id
  rw [(hgrouped.rebuildSearchIndex (u := u)).2.applications]
  show _ = state.groups.lookup id
  cases hid : state.groups.lookup id with
  | some a =>
    refine (hlookup id a).mpr (.inl ⟨?_, hgroups id a hid⟩)
    rw [hmem, hgroups id a hid]
    exact hid
  | none =>
  cases hfound : ((sortedRecords state.groups).foldl addApplicationMutable start).applications.lookup id with
  | none => rfl
  | some a =>
  obtain ⟨hin, heq⟩ | hold := (hlookup id a).mp hfound
  · rw [hmem, heq, hid] at hin
    cases hin
  · rw [hnew] at hold
    cases hold

variable (aliases : Aliases)

theorem orderedSatellites_withoutForeign (id project : ObjectKey) :
    orderedSatellites (satellites.map (withoutForeign aliases id project)) =
      (orderedSatellites satellites).map (withoutForeign aliases id project) :=
  (map_mergeSort (f := withoutForeign aliases id project) (fun _ _ _ _ => rfl)).symm

theorem clusters_reports (satellites : List SatelliteSnapshot) (id : ObjectKey) :
    ((reports aliases satellites id).map Prod.fst).Sublist (satellites.map (fun s => s.cluster.identity)) := by
  rw [reports, map_map]
  exact filter_sublist.map _

/-- **What satellites make of the local snapshot.** -/
theorem satellite_merge (isDNS1123Subdomain : String → Bool) (u : Unicode) {snapshot : Snapshot}
    {satellites : List SatelliteSnapshot}
    (hidentities : ∀ id a, snapshot.applications.lookup id = some a → a.identity = id) (hkeyed : snapshot.Keyed)
    (hdistinct : Distinct satellites) (generation : Nat) :
    ∃ result, mergeSatelliteSnapshots isDNS1123Subdomain u snapshot satellites generation = .ok result ∧
      (∀ satellites' : List SatelliteSnapshot, satellites'.Perm satellites →
        mergeSatelliteSnapshots isDNS1123Subdomain u snapshot satellites' generation = .ok result) ∧
      (∀ id a, snapshot.applications.lookup id = some a →
        ∃ m, result.applications.lookup id = some m ∧ KeepsLocal a m) ∧
      ∀ id m, result.applications.lookup id = some m →
        let aliases := localSatelliteAliases isDNS1123Subdomain snapshot.applications
        let base := snapshot.applications.lookup id
        let placed := ownReports m.project (reports aliases (orderedSatellites satellites) id)
        (∀ s ∈ satellites, completeObjectKey s.cluster.identity = true → Unhidden aliases id m.project s) →
        (∃ result', mergeSatelliteSnapshots isDNS1123Subdomain u snapshot
            (satellites.map (withoutForeign aliases id m.project)) generation = .ok result' ∧
          result'.applications.lookup id = some m) ∧
        (∀ f, (m.count f).toNat = min maxCount (total f (contributions base placed)) ↔ Fits base placed f) ∧
        (IsWorst unhealthySeverity m.health ((contributions base placed).map ApplicationSummary.health) ↔
          NotWorse base placed unhealthySeverity ApplicationSummary.health) ∧
        (IsWorst satelliteSyncSeverity m.sync ((contributions base placed).map ApplicationSummary.sync) ↔
          NotWorse base placed satelliteSyncSeverity ApplicationSummary.sync) := by
  obtain ⟨result, hresult, hrecords⟩ := mergeSatelliteSnapshots_ok isDNS1123Subdomain u
    hidentities hkeyed hdistinct generation
  refine ⟨result, hresult, ?_, ?_, ?_⟩
  · intro satellites' hperm
    have hsame : mergedState isDNS1123Subdomain snapshot satellites' =
        mergedState isDNS1123Subdomain snapshot satellites := by
      rw [mergedState, mergedState, orderedSatellites_perm hdistinct hperm]
    rw [← hresult, mergeSatelliteSnapshots, mergeSatelliteSnapshots, hsame]
  · intro id a ha
    rw [hrecords, at_mergedState hdistinct, ha]
    exact (KeepsLocal.refl a).foldl_placeReport _ _ a false
  · intro id m hm aliases base placed hunhidden
    rw [hrecords, at_mergedState hdistinct] at hm
    have hproject := recordProject_eq _ _ m hm
    have hordered : ∀ s ∈ orderedSatellites satellites, completeObjectKey s.cluster.identity = true →
        Unhidden aliases id m.project s :=
      fun s hs => hunhidden s ((mergeSort_perm _ _).mem_iff.mp hs)
    have hleads : ∀ r ∈ reports aliases (orderedSatellites satellites) id, Leads m.project r.2 := by
      intro r hr
      obtain ⟨s, hs, rfl⟩ := mem_map.mp hr
      obtain ⟨hin, hcomplete⟩ := mem_filter.mp hs
      exact (hordered s hin hcomplete).leads
    rw [foldl_ownReports _ _ hproject hleads] at hm
    have hbase : InProject m.project (base, false) := by
      intro a ha
      rw [show snapshot.applications.lookup id = some a from ha] at hproject
      exact Option.some.inj hproject
    have honly : OnlyOf m.project placed := onlyOf_ownReports _
    have hclusters : (placed.map Prod.fst).Nodup := by
      have hsame : placed.map Prod.fst = (reports aliases (orderedSatellites satellites) id).map Prod.fst := by
        rw [show placed = ownReports _ _ from rfl, ownReports, map_map]
        rfl
      rw [hsame]
      exact (distinct_ordered hdistinct).sublist (clusters_reports aliases _ id)
    refine ⟨?_, ?_, isWorst_contributions_iff takesWorse_health hbase honly hm,
      isWorst_contributions_iff takesWorse_sync hbase honly hm⟩
    · have hdistinct' : Distinct (satellites.map (withoutForeign aliases id m.project)) := by
        rw [Distinct, map_map]
        exact hdistinct
      obtain ⟨result', hresult', hrecords'⟩ := mergeSatelliteSnapshots_ok isDNS1123Subdomain u
        hidentities hkeyed hdistinct' generation
      refine ⟨result', hresult', ?_⟩
      rw [hrecords', at_mergedState hdistinct', orderedSatellites_withoutForeign]
      rw [reports_withoutForeign hordered]
      exact hm
    · intro f
      have hcount := stateCount_right_iff (f := f) hbase honly hclusters
      have hvalue : stateCount f (placed.foldl (placeReport base) (base, false)) = (m.count f).toNat := by
        rw [stateCount, show (placed.foldl (placeReport base) (base, false)).1 = some m from hm]
        rfl
      rw [hvalue] at hcount
      exact hcount
end

/-! ### An application on two clusters -/

def checkout : ObjectKey := { inNamespace := "shop", name := "checkout" }

def checkoutOf (project : String) (health : Health) (resourceCount : UInt32) : ApplicationSummary :=
  { ApplicationSummary.zero with
    identity := checkout
    project := { inNamespace := "shop", name := project }
    health := health
    resourceCount := resourceCount }

def clusterKey (name : String) : ObjectKey := { inNamespace := "fleet", name := name }

/-- The application of the control plane, placed on the cluster "west". -/
def localCheckout (health : Health) (resourceCount : UInt32) : ApplicationSummary :=
  { checkoutOf "default" health resourceCount with currentCluster := clusterKey "west" }

def localFleet (local' : ApplicationSummary) : Snapshot := addApplicationMutable (newSnapshot 1) local'

def observedOn (name : String) (applications : List ApplicationSummary) : SatelliteSnapshot :=
  { cluster := { identity := clusterKey name, displayName := name, connection := .healthy, mode := .agent }
    applications := applications }

def instanceTarget (stableID : String) : StageTargetSummary :=
  { stableID := stableID
    stage := ""
    ring := 0
    cluster := .zero
    clusterLabel := ""
    health := .unspecified
    clusterConnection := .unspecified
    unmanagedInlineCluster := false }

/-- An observation of an instance of its own. -/
def ofInstance (stableID : String) (app : ApplicationSummary) : ApplicationSummary :=
  { app with targets := [instanceTarget stableID] }

variable (app : ApplicationSummary)

theorem localFleet_spec :
    (∀ id a, (localFleet app).applications.lookup id = some a → a.identity = id) ∧ (localFleet app).Keyed := by
  have hgrouped : (localFleet app).Grouped := (grouped_newSnapshot 1).addApplicationMutable rfl
  obtain ⟨-, htables⟩ := foldl_addApplicationMutable [app] (newSnapshot 1)
  have hempty : ∀ t : TableName, t.IsPlain → ∀ key, ((localFleet app).maps.table t).lookup key = none := by
    intro t ht key
    rw [show (localFleet app).maps.table t = (newSnapshot 1).maps.table t from htables t ht]
    rfl
  refine ⟨hgrouped.identities, ?_, ?_, ?_, ?_⟩
  · intro key x hx
    have hnone := hempty .projects (.inl rfl) key
    exact absurd (hnone.symm.trans hx) (by simp)
  · intro key x hx
    have hnone := hempty .repositories (.inr (.inl rfl)) key
    exact absurd (hnone.symm.trans hx) (by simp)
  · intro key x hx
    have hnone := hempty .clusters (.inr (.inr (.inl rfl))) key
    exact absurd (hnone.symm.trans hx) (by simp)
  · intro key x hx
    have hnone := hempty .sources (.inr (.inr (.inr rfl))) key
    exact absurd (hnone.symm.trans hx) (by simp)

theorem lookup_localFleet (id : ObjectKey) :
    (localFleet app).applications.lookup id = if id = app.identity then some app else none := by
  have happs : (localFleet app).applications = (newSnapshot 1).applications.insert app.identity app := by
    rw [localFleet, addApplicationMutable]
    cases bindingsOf app <;> rfl
  rw [happs, lookup_insert_eq]
  rfl

/-- What the local application goes by on satellites. -/
def soleAlias (app : ApplicationSummary) : Aliases :=
  { canonical := (∅ : Table ObjectKey ObjectKey).insert (logicalIdentity (fun _ => true) app.identity app) app.identity
    ambiguous := ∅ }

theorem localSatelliteAliases_localFleet :
    localSatelliteAliases (fun _ => true) (localFleet app).applications = soleAlias app := by
  have hids : sortedIDs (localFleet app).applications.keys = [app.identity] := by
    have hkeys : (localFleet app).applications.keys = {app.identity} := by
      ext id
      rw [Finmap.mem_keys, Finmap.mem_iff, lookup_localFleet, Finset.mem_singleton]
      by_cases hid : id = app.identity
      · simp [hid]
      · simp [hid]
    rw [hkeys, sortedIDs, Finset.sort_singleton]
  have hlook : (localFleet app).applications.lookup app.identity = some app := by rw [lookup_localFleet, if_pos rfl]
  rw [localSatelliteAliases, hids, foldl_cons, foldl_nil, addAlias, hlook]
  rfl

theorem at_localFleet {app : ApplicationSummary} (happ : app.identity = checkout) {satellites : List SatelliteSnapshot}
    (hdistinct : Distinct satellites)
    (hord : satellites.Pairwise (fun a b => decide (a.cluster.identity ≤ b.cluster.identity) = true)) :
    ((mergedState (fun _ => true) (localFleet app) satellites).at checkout).1 =
      ((reports (soleAlias app) satellites checkout).foldl (placeReport (some app)) (some app, false)).1 := by
  rw [at_mergedState hdistinct, localSatelliteAliases_localFleet, lookup_localFleet, happ, if_pos rfl,
    orderedSatellites, mergeSort_of_pairwise hord]

/-- The two clusters observe it: what the local control plane counted on "west" gives way. -/
def eastAndWest : List SatelliteSnapshot :=
  [observedOn "east" [checkoutOf "default" .degraded 4], observedOn "west" [checkoutOf "default" .healthy 6]]

theorem satellite_merge_east_west :
    ∃ result m, mergeSatelliteSnapshots (fun _ => true) asciiUnicode (localFleet (localCheckout .healthy 8)) eastAndWest
        2 = .ok result ∧
      mergeSatelliteSnapshots (fun _ => true) asciiUnicode (localFleet (localCheckout .healthy 8)) eastAndWest.reverse
        2 = .ok result ∧
      result.applications.lookup checkout = some m ∧ KeepsLocal (localCheckout .healthy 8) m ∧
      m.resourceCount.toNat = 10 ∧ IsWorst unhealthySeverity m.health [.degraded, .healthy] := by
  have hdistinct : Distinct eastAndWest := by
    show (eastAndWest.map (fun s => s.cluster.identity)).Nodup
    decide
  obtain ⟨result, hresult, hperm, hlocal, hmerged⟩ := satellite_merge (fun _ => true) asciiUnicode
    (localFleet_spec (localCheckout .healthy 8)).1 (localFleet_spec (localCheckout .healthy 8)).2 hdistinct 2
  have hlook : (localFleet (localCheckout .healthy 8)).applications.lookup checkout = some (localCheckout .healthy 8) :=
    (lookup_localFleet _ _).trans (if_pos rfl)
  obtain ⟨m, hm, hkeeps⟩ := hlocal checkout _ hlook
  have hproject : m.project = { inNamespace := "shop", name := "default" } := hkeeps.project
  have hobserved : ∀ s ∈ eastAndWest, ∀ x ∈ acceptedObservations (soleAlias (localCheckout .healthy 8)) s,
      x.project = { inNamespace := "shop", name := "default" } := by
    decide
  obtain ⟨-, hcounts, hhealth, -⟩ := hmerged checkout m hm (by
    rw [localSatelliteAliases_localFleet, hproject]
    exact fun s hs _ => unhidden_of_project (hobserved s hs))
  have hordered : orderedSatellites eastAndWest = eastAndWest := mergeSort_of_pairwise (by decide)
  rw [localSatelliteAliases_localFleet, hlook, hordered, hproject] at hcounts hhealth
  have hcount := (hcounts .resources).mpr (by decide)
  have hworst := hhealth.mpr (by decide)
  refine ⟨result, m, hresult, hperm _ (reverse_perm _), hm, hkeeps, ?_, ?_⟩
  · refine hcount.trans ?_
    decide
  · exact hworst

theorem exists_merged (satellites : List SatelliteSnapshot)
    (happ : app.identity = checkout) (hdistinct : Distinct satellites)
    (hord : satellites.Pairwise (fun a b => decide (a.cluster.identity ≤ b.cluster.identity) = true)) :
    ∃ result, mergeSatelliteSnapshots (fun _ => true) asciiUnicode (localFleet app) satellites 2 = .ok result ∧
      result.applications.lookup checkout =
        ((reports (soleAlias app) satellites checkout).foldl (placeReport (some app)) (some app, false)).1 := by
  obtain ⟨result, hres, hrecs⟩ := mergeSatelliteSnapshots_ok (fun _ => true) asciiUnicode
    (localFleet_spec app).1 (localFleet_spec app).2 hdistinct 2
  exact ⟨result, hres, (hrecs checkout).trans (at_localFleet happ hdistinct hord)⟩

/-- The east cluster observes the application and, before it, another project's under the same name. -/
def ownInstance : ApplicationSummary := ofInstance "own" (checkoutOf "default" .healthy 4)

def otherInstance : ApplicationSummary := ofInstance "other" (checkoutOf "secret" .healthy 5)

/-- **Another project's observation hides the one that agrees; the local count is taken away from a saturated sum; the
health of a local placement that was replaced stays.** -/
theorem satellite_merge_differs :
    (∃ hidden shown, mergeSatelliteSnapshots (fun _ => true) asciiUnicode (localFleet (localCheckout .healthy 8))
          [observedOn "east" [otherInstance, ownInstance]] 2 = .ok hidden ∧
        mergeSatelliteSnapshots (fun _ => true) asciiUnicode (localFleet (localCheckout .healthy 8))
          [observedOn "east" [ownInstance]] 2 = .ok shown ∧
        (hidden.applications.lookup checkout).map (fun m => m.resourceCount.toNat) = some 8 ∧
        (shown.applications.lookup checkout).map (fun m => m.resourceCount.toNat) = some 12) ∧
      (∃ result, mergeSatelliteSnapshots (fun _ => true) asciiUnicode
          (localFleet (localCheckout .healthy 4294967290))
          [observedOn "east" [checkoutOf "default" .healthy 10], observedOn "west" [checkoutOf "default" .healthy 3]] 2 =
            .ok result ∧
        (result.applications.lookup checkout).map (fun m => m.resourceCount.toNat) = some 8) ∧
      ∃ result, mergeSatelliteSnapshots (fun _ => true) asciiUnicode (localFleet (localCheckout .degraded 8))
          [observedOn "west" [checkoutOf "default" .healthy 6]] 2 = .ok result ∧
        (result.applications.lookup checkout).map (fun m => (m.resourceCount.toNat, m.health)) = some (6, .degraded) := by
  have hone : ∀ s : SatelliteSnapshot, Distinct [s] := fun s => nodup_singleton s.cluster.identity
  refine ⟨?_, ?_, ?_⟩
  · obtain ⟨hidden, hhidden, hcount⟩ := exists_merged (localCheckout .healthy 8)
      [observedOn "east" [otherInstance, ownInstance]] rfl (hone _) (pairwise_singleton _ _)
    obtain ⟨shown, hshown, hcount'⟩ := exists_merged (localCheckout .healthy 8)
      [observedOn "east" [ownInstance]] rfl (hone _) (pairwise_singleton _ _)
    refine ⟨hidden, shown, hhidden, hshown, ?_, ?_⟩
    · rw [hcount]
      decide
    · rw [hcount']
      decide
  · obtain ⟨result, hresult, hcount⟩ := exists_merged (localCheckout .healthy 4294967290)
      [observedOn "east" [checkoutOf "default" .healthy 10], observedOn "west" [checkoutOf "default" .healthy 3]] rfl
      (show List.Nodup [clusterKey "east", clusterKey "west"] by decide) (by decide)
    refine ⟨result, hresult, ?_⟩
    rw [hcount]
    decide
  · obtain ⟨result, hresult, hvalues⟩ := exists_merged (localCheckout .degraded 8)
      [observedOn "west" [checkoutOf "default" .healthy 6]] rfl (hone _) (pairwise_singleton _ _)
    refine ⟨result, hresult, ?_⟩
    rw [hvalues]
    decide

end Paprika.Fleet
