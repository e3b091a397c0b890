import Paprika.Lib.Run
import Paprika.Engine.DiffAgreement

/-!
# Engine: what a diff leaves behind

`ScalableDiffEngine.ComputeDiff` on objects that are handed out by reference.  The informers hold their objects in cells
of a memory, and a list through the cache of informers answers with the cells themselves; the caller has its desired
objects in cells of its own.  The managed labels and the ignore rules are written into the cells (`setDesired`, `ignore`);
what the API server answers is fresh, and the normal forms of a comparison are copies.

* `Memory`, `Call`, `Call.gather`, `Call.computeDiff`;
* `computeDiff_eq` — as the first call on a cluster, a call answers what the engine answers on the objects as values;
* `live_computeDiff_iff` — a call leaves the cache as it is exactly when its rules cut nothing from what it compares;
* `diff_traceless` — calls that cut nothing leave no trace.
-/

namespace Paprika.Engine

open Lib.KeyedMap Lib.Run ScalableDiffEngine
open Lib.Unstructured (Value Fields nestedField setField)
open List

/-! ### The memory -/

/-- The objects of the informers and those of the callers, by cell. -/
structure Memory where
  live : Nat → Object
  desired : Nat → Object

/-- An item of a list: a cell of an informer, or a fresh object of the API server. -/
inductive Ref
  | cached (cell : Nat)
  | fetched (o : Object)

abbrev RefMap := Map String Ref
abbrev CellMap := Map String Nat

def onCells (cells : List Nat) (f : Object → Object) (m : Nat → Object) : Nat → Object :=
  fun k => if k ∈ cells then f (m k) else m k

theorem onCells_onCells (cells : List Nat) (f g : Object → Object) (m : Nat → Object) :
    onCells cells g (onCells cells f m) = onCells cells (fun o => g (f o)) m := by
  funext k
  by_cases hk : k ∈ cells
  · simp [onCells, hk]
  · simp [onCells, hk]

theorem onCells_eq_self {cells : List Nat} {f : Object → Object} {m : Nat → Object}
    (h : ∀ k ∈ cells, f (m k) = m k) : onCells cells f m = m := by
  funext k
  by_cases hk : k ∈ cells
  · simp [onCells, hk, h k hk]
  · simp [onCells, hk]

namespace Memory

variable (M : Memory)

def setDesired (k : Nat) (o : Object) : Memory := { M with desired := onCells [k] (fun _ => o) M.desired }

def deref : Ref → Object
  | .cached k => M.live k
  | .fetched o => o

end Memory

/-- The cells that a map of live objects refers to. -/
def cachedCells (m : RefMap) : List Nat :=
  m.entries.filterMap (fun e => match e.2 with
    | .cached k => some k
    | .fetched _ => none)

def desiredCells (m : CellMap) : List Nat := m.entries.map (fun e => e.2)

/-- `ApplyIgnoreDifferences`: every pointer of every rule, in all cells of the two maps.  A map has a cell under one key
only, that of its object. -/
def Memory.ignore (rules : List IgnoreDiff) (desired live : List Nat) (M : Memory) : Memory :=
  rules.foldl (fun M rule => rule.jsonPointers.foldl (fun M pointer =>
    { live := onCells live (fun o => ignoreOne rule o pointer) M.live
      desired := onCells desired (fun o => ignoreOne rule o pointer) M.desired }) M) M

theorem Memory.ignore_eq (rules : List IgnoreDiff) (desired live : List Nat) (M : Memory) :
    M.ignore rules desired live =
      ⟨onCells live (applyIgnore rules) M.live, onCells desired (applyIgnore rules) M.desired⟩ := by
  have hpointers : ∀ (rule : IgnoreDiff) (pointers : List String) (M : Memory), pointers.foldl (fun M pointer =>
        { live := onCells live (fun o => ignoreOne rule o pointer) M.live
          desired := onCells desired (fun o => ignoreOne rule o pointer) M.desired }) M =
        ⟨onCells live (fun o => pointers.foldl (ignoreOne rule) o) M.live,
          onCells desired (fun o => pointers.foldl (ignoreOne rule) o) M.desired⟩ := by
    intro rule pointers
    induction pointers with
    | nil =>
      intro M
      show M = ⟨onCells live id M.live, onCells desired id M.desired⟩
      rw [onCells_eq_self (fun _ _ => rfl), onCells_eq_self (fun _ _ => rfl)]
    | cons pointer rest ih =>
      intro M
      rw [foldl_cons, ih, onCells_onCells, onCells_onCells]
      rfl
  induction rules generalizing M with
  | nil =>
    show M = ⟨onCells live (applyIgnore []) M.live, onCells desired (applyIgnore []) M.desired⟩
    rw [onCells_eq_self (fun _ _ => rfl), onCells_eq_self (fun _ _ => rfl)]
  | cons rule rest ih =>
    have hrest := ih (M := rule.jsonPointers.foldl (fun M pointer =>
      { live := onCells live (fun o => ignoreOne rule o pointer) M.live
        desired := onCells desired (fun o => ignoreOne rule o pointer) M.desired }) M)
    rw [hpointers, onCells_onCells, onCells_onCells] at hrest
    rw [← hpointers] at hrest
    exact hrest

/-! ### A call -/

/-- One call of `ComputeDiff`: the environment, the cells that the cache of informers lists for a resource type and a
namespace if it can answer, the cells of the desired objects, and the options. -/
structure Call where
  env : Environment
  stored : GVR → String → Option (List Nat)
  desired : List Nat
  opts : DiffOptions

/-- Put the items of a list under their keys, but for those that are never compared. -/
def addRefs (M : Memory) (result : RefMap) (items : List Ref) : RefMap :=
  items.foldl (fun m r =>
    if shouldIgnoreLiveResource (manifestObject (M.deref r)) then m else m.insert (resourceKey (M.deref r)) r) result

namespace Call

variable (c : Call) (M : Memory)

/-- `FilterHooks`. -/
def wanted : List Nat := c.desired.filter (fun k => !isHook (manifestObject (M.desired k)))

/-- The loop over the desired objects: label them, put them under their keys, and note what to ask for. -/
def collect : Memory × CellMap × Queries :=
  (c.wanted M).foldl (fun acc k =>
    let o := ensureManagedLabels c.opts.applicationName (acc.1.desired k)
    (acc.1.setDesired k o, acc.2.1.insert (resourceKey o) k,
      addDesiredResourceQuery c.env c.opts.ns acc.2.2 o)) (M, ∅, {})

/-- The items of a query: the cells of the informer, or else what the API server answers. -/
def readItems (selector : Selector) (gvr : GVR) (ns : String) : Option (List Ref) :=
  match c.stored gvr ns with
  | some cells => some ((cells.filter (fun k => selector (getLabels (M.live k)))).map Ref.cached)
  | none =>
    (c.env.list gvr ns (fun o => selector (getLabels o) && c.env.fieldSelects c.opts.fieldSelector o)).map
      (fun items => items.map Ref.fetched)

def fetchLive (selector : Selector) (listed : List (GVR × String)) : RefMap :=
  listed.foldl (fun result q =>
    match c.readItems M selector q.1 q.2 with
    | none => result
    | some items => addRefs M result items) ∅

/-- The reads by name; what they find is fresh. -/
def fetchNamed (selector : Selector) : List (GVR × String) → RefMap → Except String RefMap
  | [], live => .ok live
  | (gvr, name) :: rest, live =>
    match c.env.get gvr name with
    | .notFound => fetchNamed selector rest live
    | .failed => .error ("read desired " ++ gvr.resource ++ " \"" ++ name ++ "\"")
    | .found o =>
      if shouldIgnoreLiveResource (manifestObject o) || !selector (getLabels o) then fetchNamed selector rest live
      else fetchNamed selector rest (live.insert (resourceKey o) (.fetched o))

/-- `ComputeDiff` up to the ignore rules: the memory with the labels written, and the two maps. -/
def gather : Memory × Except String (CellMap × RefMap) :=
  let (labelled, desiredMap, queries) := c.collect M
  match c.env.parseSelector c.opts.labelSelector with
  | .error e => (labelled, .error ("fetch live resources: parse label selector: " ++ e))
  | .ok selector =>
    match c.fetchNamed selector queries.named (c.fetchLive labelled selector queries.listed) with
    | .error e => (labelled, .error e)
    | .ok liveMap => (labelled, .ok (desiredMap, liveMap))

/-- What a reference is compared as: the rules are applied to fresh objects, too. -/
def ignored (rules : List IgnoreDiff) (M : Memory) : Ref → Object
  | .cached k => M.live k
  | .fetched o => applyIgnore rules o

/-- `ComputeDiff`: the answer, and the memory afterwards. -/
def computeDiff : Except String DiffResult × Memory :=
  match c.gather M with
  | (labelled, .error e) => (.error e, labelled)
  | (labelled, .ok (desiredMap, liveMap)) =>
    let after := labelled.ignore c.opts.ignoreDifferences (desiredCells desiredMap) (cachedCells liveMap)
    let liveObjects := mapValues (ignored c.opts.ignoreDifferences after) liveMap
    (.ok ((classifyDiffs c.env.payloadContains {} (mapValues after.desired desiredMap) liveObjects).finish liveObjects),
      after)

end Call

/-! ### Fields -/

/-- There is something below the path. -/
def HasField (o : Object) (path : List String) : Prop := ∃ v, nestedField o path = .ok (some v)

/-- No field is removed. -/
def Keeps (o o' : Object) : Prop := ∀ path, HasField o path → HasField o' path

theorem Keeps.refl (o : Object) : Keeps o o := fun _ h => h

variable {key : String} {labels : List (String × String)} {o : Object}

theorem Keeps.trans {o' o'' : Object} (h : Keeps o o') (h' : Keeps o' o'') : Keeps o o'' :=
  fun path hpath => h' path (h path hpath)

theorem nestedField_of_lookup {inner : Object} (h : o.lookup key = some (.obj inner))
    (path : List String) : nestedField o (key :: path) = nestedField inner path := by
  cases path with
  | nil => simp only [nestedField, h]
  | cons next rest => simp only [nestedField, h]

/-- A map in the place of another map, which it keeps, or of anything that is not a map. -/
theorem keeps_setField {inner' : Object}
    (h : ∀ inner, o.lookup key = some (.obj inner) → Keeps inner inner') : Keeps o (setField key (.obj inner') o) := by
  intro path hpath
  cases path with
  | nil => exact ⟨_, rfl⟩
  | cons k rest =>
  by_cases hk : k = key
  · subst hk
    rw [HasField, nestedField_of_lookup (Lib.Unstructured.lookup_setField_self k (.obj inner') o)]
    cases rest with
    | nil => exact ⟨_, rfl⟩
    | cons next rest =>
    obtain ⟨v, hv⟩ := hpath
    cases hlook : o.lookup k with
    | none => simp [nestedField, hlook] at hv
    | some old =>
    cases old with
    | obj inner =>
      refine h inner hlook (next :: rest) ⟨v, ?_⟩
      rw [← nestedField_of_lookup hlook]
      exact hv
    | null => simp [nestedField, hlook] at hv
    | bool b => simp [nestedField, hlook] at hv
    | num n => simp [nestedField, hlook] at hv
    | str s => simp [nestedField, hlook] at hv
    | arr entries => simp [nestedField, hlook] at hv
  · rw [HasField, Lib.Unstructured.nestedField_setField hk]
    exact hpath

/-! ### The labels that are written -/

def StringLabels (o : Object) : Prop :=
  ∀ fields, nestedField o ["metadata", "labels"] = .ok (some (.obj fields)) → fields.mapM stringEntry ≠ none

theorem lookup_of_mapM_stringEntry {fields : Fields} : ∀ {labels : List (String × String)},
    fields.mapM stringEntry = some labels → ∀ {k : String} {v : Value}, fields.lookup k = some v →
      ∃ s, v = .str s ∧ labels.lookup k = some s := by
  induction fields with
  | nil =>
    intro labels _ k v hv
    cases hv
  | cons kv rest ih =>
    intro labels h k v hv
    obtain ⟨j, w⟩ := kv
    rw [mapM_cons] at h
    obtain ⟨entry, hentry, h⟩ := Option.bind_eq_some_iff.mp h
    obtain ⟨others, hothers, h⟩ := Option.bind_eq_some_iff.mp h
    obtain rfl : entry :: others = labels := Option.some.inj h
    cases w with
    | str s =>
      obtain rfl : (j, s) = entry := Option.some.inj hentry
      by_cases hk : k = j
      · have hbeq : (k == j) = true := beq_iff_eq.mpr hk
        rw [lookup_cons, hbeq] at hv
        exact ⟨s, (Option.some.inj hv).symm, by rw [lookup_cons, hbeq]⟩
      · have hbeq : (k == j) = false := beq_eq_false_iff_ne.mpr hk
        rw [lookup_cons, hbeq] at hv
        obtain ⟨t, ht, hlook⟩ := ih hothers hv
        exact ⟨t, ht, by rw [lookup_cons, hbeq]; exact hlook⟩
    | null => cases hentry
    | bool b => cases hentry
    | num n => cases hentry
    | arr entries => cases hentry
    | obj inner => cases hentry

theorem lookup_setEntry_ne_none {value k : String} (h : labels.lookup k ≠ none) :
    (setEntry key value labels).lookup k ≠ none := by
  by_cases hk : k = key
  · subst hk
    induction labels with
    | nil => exact absurd rfl h
    | cons kv rest ih =>
      obtain ⟨j, old⟩ := kv
      rw [setEntry]
      by_cases hj : j = k
      · simp [hj]
      · have hbeq : (k == j) = false := beq_eq_false_iff_ne.mpr (Ne.symm hj)
        rw [if_neg hj, lookup_cons, hbeq]
        rw [lookup_cons, hbeq] at h
        exact ih h
  · rw [lookup_setEntry_of_ne hk]
    exact h

theorem lookup_managedLabels_ne_none {applicationName k : String}
    (h : labels.lookup k ≠ none) : (managedLabels applicationName labels).lookup k ≠ none := by
  simp only [managedLabels]
  split
  · exact lookup_setEntry_ne_none (lookup_setEntry_ne_none h)
  · exact lookup_setEntry_ne_none h

theorem lookup_map_str (labels : List (String × String)) (k : String) :
    (labels.map (fun kv => (kv.1, Value.str kv.2))).lookup k = (labels.lookup k).map Value.str := by
  induction labels with
  | nil => rfl
  | cons kv rest ih =>
    obtain ⟨j, s⟩ := kv
    rw [map_cons, lookup_cons, lookup_cons, ih]
    cases k == j with
    | true => rfl
    | false => rfl

theorem keeps_labels {fields : Fields} (h : fields.mapM stringEntry = some labels) (applicationName : String) :
    Keeps fields ((managedLabels applicationName labels).map (fun kv => (kv.1, .str kv.2))) := by
  intro path hpath
  rcases path with _ | ⟨k, _ | ⟨next, rest⟩⟩
  · exact ⟨_, rfl⟩
  · obtain ⟨v, hv⟩ := hpath
    have hlook : fields.lookup k = some v := by simpa [nestedField] using hv
    obtain ⟨s, -, hs⟩ := lookup_of_mapM_stringEntry h hlook
    have hkept : (managedLabels applicationName labels).lookup k ≠ none :=
      lookup_managedLabels_ne_none (by rw [hs]; exact Option.some_ne_none s)
    obtain ⟨t, ht⟩ := Option.ne_none_iff_exists'.mp hkept
    exact ⟨.str t, by simp only [nestedField, lookup_map_str, ht, Option.map_some]⟩
  · obtain ⟨v, hv⟩ := hpath
    cases hlook : fields.lookup k with
    | none => simp [nestedField, hlook] at hv
    | some w =>
      obtain ⟨s, rfl, -⟩ := lookup_of_mapM_stringEntry h hlook
      simp [nestedField, hlook] at hv

/-- **Labelling removes no field.** -/
theorem keeps_ensureManagedLabels (h : StringLabels o) (applicationName : String) :
    Keeps o (ensureManagedLabels applicationName o) := by
  have hlabels : ∀ inner, o.lookup "metadata" = some (.obj inner) → Keeps inner (setField "labels"
      (.obj ((managedLabels applicationName (getLabels o)).map (fun kv => (kv.1, .str kv.2)))) inner) := by
    intro inner hinner
    refine keeps_setField ?_
    intro fields hfields
    have hfield : nestedField o ["metadata", "labels"] = .ok (some (.obj fields)) := by
      rw [nestedField_of_lookup hinner]
      simp only [nestedField, hfields]
    obtain ⟨labels, hread⟩ := Option.ne_none_iff_exists'.mp (h fields hfield)
    have hget : getLabels o = labels := by simp only [getLabels, stringMapAt, hfield, hread, Option.getD_some]
    rw [hget]
    exact keeps_labels hread applicationName
  rw [ensureManagedLabels, setLabels, setMetadata]
  cases hmeta : o.lookup "metadata" with
  | none =>
    refine keeps_setField ?_
    intro inner hinner
    rw [hmeta] at hinner
    cases hinner
  | some v =>
  cases v with
  | obj inner =>
    refine keeps_setField ?_
    intro inner' hinner'
    rw [hmeta] at hinner'
    obtain rfl : inner = inner' := by simpa using hinner'
    exact hlabels inner hmeta
  | null => exact Keeps.refl o
  | bool b => exact Keeps.refl o
  | num n => exact Keeps.refl o
  | str s => exact Keeps.refl o
  | arr entries => exact Keeps.refl o

theorem stringLabels_ensureManagedLabels (h : StringLabels o) (applicationName : String) :
    StringLabels (ensureManagedLabels applicationName o) := by
  have hwrote : ∀ inner : Object, StringLabels (setField "metadata" (.obj (setField "labels"
        (.obj ((managedLabels applicationName (getLabels o)).map (fun kv => (kv.1, .str kv.2)))) inner)) o) := by
    intro inner fields hfields
    rw [nestedField_of_lookup (Lib.Unstructured.lookup_setField_self _ _ _)] at hfields
    simp only [nestedField, Lib.Unstructured.lookup_setField_self] at hfields
    cases hfields
    rw [mapM_stringEntry]
    exact Option.some_ne_none _
  rw [ensureManagedLabels, setLabels, setMetadata]
  cases hmeta : o.lookup "metadata" with
  | none => exact hwrote []
  | some v =>
  cases v with
  | obj inner => exact hwrote inner
  | null => exact h
  | bool b => exact h
  | num n => exact h
  | str s => exact h
  | arr entries => exact h

/-! ### The loop over the desired objects -/

section
variable {c : Call} {M : Memory}

/-- One desired object. -/
def Call.collectOne (c : Call) (acc : Memory × CellMap × Queries) (k : Nat) :
    Memory × CellMap × Queries :=
  let o := ensureManagedLabels c.opts.applicationName (acc.1.desired k)
  (acc.1.setDesired k o, acc.2.1.insert (resourceKey o) k,
    addDesiredResourceQuery c.env c.opts.ns acc.2.2 o)

theorem collect_eq (c : Call) (M : Memory) : c.collect M = (c.wanted M).foldl c.collectOne (M, ∅, {}) := rfl

theorem live_collectOnes (ks : List Nat) : ∀ acc, (ks.foldl c.collectOne acc).1.live = acc.1.live := by
  induction ks with
  | nil => intro acc; rfl
  | cons k rest ih => intro acc; exact ih _

theorem memory_gather (c : Call) (M : Memory) : (c.gather M).1 = (c.collect M).1 := by
  rw [Call.gather]
  cases c.env.parseSelector c.opts.labelSelector with
  | error e => rfl
  | ok selector =>
  simp only
  split
  · rfl
  · rfl

theorem live_gather (c : Call) (M : Memory) : (c.gather M).1.live = M.live := by
  rw [memory_gather]
  exact live_collectOnes _ _

theorem desired_collectOnes {ks : List Nat} : ∀ acc : Memory × CellMap × Queries,
    (∀ k ∈ ks, StringLabels (acc.1.desired k)) →
      ∀ k, Keeps (acc.1.desired k) ((ks.foldl c.collectOne acc).1.desired k) := by
  induction ks with
  | nil => exact fun _ _ k => Keeps.refl _
  | cons j rest ih =>
    intro acc h k
    have hone : ∀ i, (c.collectOne acc j).1.desired i =
        if i = j then ensureManagedLabels c.opts.applicationName (acc.1.desired j) else acc.1.desired i := by
      intro i
      by_cases hi : i = j
      · subst hi
        simp [Call.collectOne, Memory.setDesired, onCells]
      · simp [Call.collectOne, Memory.setDesired, onCells, hi]
    have hrest : ∀ i ∈ rest, StringLabels ((c.collectOne acc j).1.desired i) := by
      intro i hi
      rw [hone]
      split_ifs
      · exact stringLabels_ensureManagedLabels (h j mem_cons_self) _
      · exact h i (mem_cons_of_mem j hi)
    refine Keeps.trans ?_ (ih _ hrest k)
    rw [hone]
    split_ifs with hk
    · rw [hk]
      exact keeps_ensureManagedLabels (h j mem_cons_self) _
    · exact Keeps.refl _

theorem desired_gather (h : ∀ k ∈ c.wanted M, StringLabels (M.desired k)) (k : Nat) :
    Keeps (M.desired k) ((c.gather M).1.desired k) := by
  rw [memory_gather]
  exact desired_collectOnes (M, ∅, {}) h k
end

/-! ### Traces -/

def CutsNothing (rules : List IgnoreDiff) (o : Object) : Prop := applyIgnore rules o = o

/-- The labels of the desired objects are strings, and the rules cut nothing from the objects that are compared: neither
from a desired object nor from an object of the cache. -/
structure Call.Harmless (M : Memory) (c : Call) : Prop where
  labels : ∀ k ∈ c.wanted M, StringLabels (M.desired k)
  desired : ∀ desiredMap liveMap, (c.gather M).2 = .ok (desiredMap, liveMap) → ∀ k ∈ desiredCells desiredMap,
    CutsNothing c.opts.ignoreDifferences ((c.gather M).1.desired k)
  live : ∀ desiredMap liveMap, (c.gather M).2 = .ok (desiredMap, liveMap) → ∀ k ∈ cachedCells liveMap,
    CutsNothing c.opts.ignoreDifferences (M.live k)

/-- **A call without a trace**, where the cache held `cache` before the first one: it answers what it would answer as the
first call, it changes no object of the cache, and it removes no field of a desired object. -/
structure Call.Traceless (cache : Nat → Object) (M : Memory) (c : Call) : Prop where
  result : (c.computeDiff M).1 = (c.computeDiff { M with live := cache }).1
  live : (c.computeDiff M).2.live = M.live
  desired : ∀ k, Keeps (M.desired k) ((c.computeDiff M).2.desired k)

section
variable {c : Call} {M : Memory}

theorem memory_computeDiff (c : Call) (M : Memory) : (c.computeDiff M).2 =
    match (c.gather M).2 with
    | .error _ => (c.gather M).1
    | .ok (desiredMap, liveMap) =>
      (c.gather M).1.ignore c.opts.ignoreDifferences (desiredCells desiredMap) (cachedCells liveMap) := by
  rw [Call.computeDiff]
  rcases c.gather M with ⟨labelled, _ | ⟨desiredMap, liveMap⟩⟩
  · rfl
  · rfl

/-- **The cache.**  A call leaves it as it is exactly when its rules cut nothing from what it compares. -/
theorem live_computeDiff_iff : (c.computeDiff M).2.live = M.live ↔
    ∀ desiredMap liveMap, (c.gather M).2 = .ok (desiredMap, liveMap) → ∀ k ∈ cachedCells liveMap,
      CutsNothing c.opts.ignoreDifferences (M.live k) := by
  rw [memory_computeDiff]
  cases hgather : (c.gather M).2 with
  | error e => simp [live_gather]
  | ok maps =>
  obtain ⟨desiredMap, liveMap⟩ := maps
  simp only [Memory.ignore_eq, live_gather]
  constructor
  · rintro h _ _ heq k hk
    cases heq
    have hcell := congrFun h k
    rwa [onCells, if_pos hk] at hcell
  · intro h
    exact onCells_eq_self (h desiredMap liveMap rfl)

theorem desired_computeDiff (h : c.Harmless M) (k : Nat) : Keeps (M.desired k) ((c.computeDiff M).2.desired k) := by
  have hgather := desired_gather h.labels k
  rw [memory_computeDiff]
  cases hmaps : (c.gather M).2 with
  | error e => exact hgather
  | ok maps =>
  obtain ⟨desiredMap, liveMap⟩ := maps
  simp only [Memory.ignore_eq]
  rw [onCells_eq_self (h.desired desiredMap liveMap hmaps)]
  exact hgather

def Call.after (M : Memory) (c : Call) : Memory := (c.computeDiff M).2

/-- **Calls that cut nothing leave no trace.** -/
theorem diff_traceless (M : Memory) (calls : List Call) (h : Guarded Call.after Call.Harmless M calls) :
    Guarded Call.after (Call.Traceless M.live) M calls := by
  refine guarded_imp (motive := fun N => N.live = M.live) ?_ ?_ rfl h
  · intro N c hlive hharmless
    rw [← hlive]
    exact live_computeDiff_iff.mpr hharmless.live
  · intro N c hlive hharmless
    refine ⟨by rw [← hlive], live_computeDiff_iff.mpr hharmless.live, desired_computeDiff hharmless⟩
end

/-! ### The engine on values -/

section
variable {c : Call} {M : Memory}

/-- What the cache of informers lists is what the informers of the environment hold. -/
def Call.ReadsCache (c : Call) (M : Memory) : Prop :=
  ∀ gvr ns, (c.stored gvr ns).map (fun cells => cells.map M.live) =
    match c.env.liveCache with
    | none => none
    | some looks => (getInformer (looks gvr ns)).map (fun informer => informer.store.filter (inNamespace ns))

theorem mapValues_addRefs (M : Memory) (items : List Ref) : ∀ m : RefMap,
    mapValues M.deref (addRefs M m items) = addItems (mapValues M.deref m) (items.map M.deref) := by
  induction items with
  | nil => intro m; rfl
  | cons r rest ih =>
    intro m
    show mapValues M.deref (addRefs M (if shouldIgnoreLiveResource (manifestObject (M.deref r)) then m
        else m.insert (resourceKey (M.deref r)) r) rest) =
      addItems (if shouldIgnoreLiveResource (manifestObject (M.deref r)) then mapValues M.deref m
        else (mapValues M.deref m).insert (resourceKey (M.deref r)) (M.deref r)) (rest.map M.deref)
    rw [ih]
    split_ifs
    · rfl
    · rw [mapValues_insert]

theorem map_readItems (h : c.ReadsCache M) (selector : Selector) (gvr : GVR) (ns : String) :
    (c.readItems M selector gvr ns).map (fun items => items.map M.deref) =
      readItems c.env c.opts selector gvr ns := by
  have hcache := h gvr ns
  have hfetched : ∀ items : List Object, (items.map Ref.fetched).map M.deref = items := by
    intro items
    rw [map_map]
    exact map_id items
  have hlist : ((c.env.list gvr ns (fun o => selector (getLabels o) && c.env.fieldSelects c.opts.fieldSelector o)).map
      (fun items => items.map Ref.fetched)).map (fun items => items.map M.deref) =
        c.env.list gvr ns (fun o => selector (getLabels o) && c.env.fieldSelects c.opts.fieldSelector o) := by
    rw [Option.map_map]
    cases c.env.list gvr ns (fun o => selector (getLabels o) && c.env.fieldSelects c.opts.fieldSelector o) with
    | none => rfl
    | some items => exact congrArg some (hfetched items)
  rw [Call.readItems, readItems]
  cases hlooks : c.env.liveCache with
  | none =>
    rw [hlooks] at hcache
    rw [Option.map_eq_none_iff.mp hcache]
    exact hlist
  | some looks =>
  rw [hlooks] at hcache
  simp only [LiveResourceCache.get]
  cases hinformer : getInformer (looks gvr ns) with
  | none =>
    simp only [hinformer, Option.map_none, Option.map_eq_none_iff] at hcache
    rw [hcache]
    exact hlist
  | some informer =>
  simp only [hinformer, Option.map_some] at hcache
  obtain ⟨cells, hcells, hstore⟩ := Option.map_eq_some_iff.mp hcache
  rw [hcells]
  refine congrArg some ?_
  calc ((cells.filter (fun k => selector (getLabels (M.live k)))).map Ref.cached).map M.deref
      = (cells.filter (fun k => selector (getLabels (M.live k)))).map M.live := by rw [map_map]; rfl
    _ = (cells.map M.live).filter (fun o => selector (getLabels o)) := by rw [filter_map]; rfl
    _ = informer.store.filter (fun o => selector (getLabels o) && inNamespace ns o) := by rw [hstore, filter_filter]

theorem mapValues_fetchLive (h : c.ReadsCache M) (selector : Selector) (listed : List (GVR × String)) :
    mapValues M.deref (c.fetchLive M selector listed) =
      fetchLiveResources c.env c.opts selector listed := by
  refine (foldl_hom (mapValues M.deref) fun m q => ?_).symm
  rw [← map_readItems h]
  cases c.readItems M selector q.1 q.2 with
  | none => rfl
  | some items => exact (mapValues_addRefs M items m).symm

theorem map_fetchNamed (N : Memory) (selector : Selector) (qs : List (GVR × String)) : ∀ m : RefMap,
    (c.fetchNamed selector qs m).map (mapValues N.deref) =
      fetchNamedLiveResources c.env selector qs (mapValues N.deref m) := by
  induction qs with
  | nil => intro m; rfl
  | cons q rest ih =>
    intro m
    obtain ⟨gvr, name⟩ := q
    rw [Call.fetchNamed, fetchNamedLiveResources]
    cases c.env.get gvr name with
    | notFound => exact ih m
    | failed => rfl
    | found o =>
    simp only
    split_ifs
    · exact ih m
    · rw [ih, mapValues_insert]
      rfl

theorem mapValues_congr {α β : Type} {f g : α → β} {m : Map String α} (h : ∀ e ∈ m.entries, f e.2 = g e.2) :
    mapValues f m = mapValues g m := by
  refine AList.ext ?_
  show m.entries.map _ = m.entries.map _
  refine map_congr_left ?_
  intro e he
  rw [h e he]

theorem values_collectOnes {ks : List Nat} (hks : ks.Nodup) : ∀ acc : Memory × CellMap × Queries,
    (∀ k ∈ ks, ∀ e ∈ acc.2.1.entries, e.2 ≠ k) →
      (mapValues (ks.foldl c.collectOne acc).1.desired (ks.foldl c.collectOne acc).2.1,
          (ks.foldl c.collectOne acc).2.2) =
        (ks.map acc.1.desired).foldl (fun acc o =>
          let o := ensureManagedLabels c.opts.applicationName o
          (acc.1.insert (resourceKey o) o, addDesiredResourceQuery c.env c.opts.ns acc.2 o))
          (mapValues acc.1.desired acc.2.1, acc.2.2) := by
  induction ks with
  | nil => intro acc _; rfl
  | cons k rest ih =>
    intro acc hfresh
    obtain ⟨hk, hrest⟩ := nodup_cons.mp hks
    let o := ensureManagedLabels c.opts.applicationName (acc.1.desired k)
    have hself : (c.collectOne acc k).1.desired k = o := by simp [Call.collectOne, Memory.setDesired, onCells, o]
    have hother : ∀ i, i ≠ k → (c.collectOne acc k).1.desired i = acc.1.desired i := by
      intro i hi
      simp [Call.collectOne, Memory.setDesired, onCells, hi]
    have hents : ∀ e ∈ (c.collectOne acc k).2.1.entries, e.2 = k ∨ e ∈ acc.2.1.entries := by
      intro e he
      have he : e ∈ (acc.2.1.insert (resourceKey o) k).entries := he
      rw [AList.entries_insert] at he
      rcases mem_cons.mp he with rfl | he
      · exact Or.inl rfl
      · exact Or.inr (mem_of_mem_eraseP he)
    have hnext := ih hrest (c.collectOne acc k) (by
      intro i hi e he
      have hik : i ≠ k := fun heq => hk (heq ▸ hi)
      rcases hents e he with hek | he
      · rw [hek]
        exact Ne.symm hik
      · exact hfresh i (mem_cons_of_mem k hi) e he)
    rw [foldl_cons, map_cons, foldl_cons, hnext]
    have hmap : rest.map (c.collectOne acc k).1.desired = rest.map acc.1.desired :=
      map_congr_left (fun i hi => hother i (fun heq => hk (heq ▸ hi)))
    have hvalues : mapValues (c.collectOne acc k).1.desired (c.collectOne acc k).2.1 =
        (mapValues acc.1.desired acc.2.1).insert (resourceKey o) o := by
      show mapValues (c.collectOne acc k).1.desired (acc.2.1.insert (resourceKey o) k) = _
      rw [mapValues_insert, hself]
      refine congrArg (fun m => AList.insert (resourceKey o) o m) (mapValues_congr ?_)
      intro e he
      exact hother e.2 (hfresh k mem_cons_self e he)
    rw [hmap, hvalues]
    rfl

theorem mapValues_ignore (rules : List IgnoreDiff) (N : Memory) (desiredMap : CellMap) (liveMap : RefMap) :
    mapValues (N.ignore rules (desiredCells desiredMap) (cachedCells liveMap)).desired desiredMap =
        mapValues (applyIgnore rules) (mapValues N.desired desiredMap) ∧
      mapValues (Call.ignored rules (N.ignore rules (desiredCells desiredMap) (cachedCells liveMap))) liveMap =
        mapValues (applyIgnore rules) (mapValues N.deref liveMap) := by
  rw [Memory.ignore_eq, mapValues_mapValues, mapValues_mapValues]
  constructor
  · refine mapValues_congr ?_
    intro e he
    exact if_pos (mem_map_of_mem he)
  refine mapValues_congr ?_
  intro e he
  cases href : e.2 with
  | fetched o => rfl
  | cached k =>
    refine if_pos (mem_filterMap.mpr ⟨e, he, ?_⟩)
    rw [href]

end

/-! ### The shop -/

/-- The settings of the shop are live in cell 0, and desired in cell 0. -/
def shopMemory : Memory := ⟨fun _ => settings "shop" shopLabels, fun _ => settings "shop" []⟩

/-- A diff of the settings through the cache of informers, which ignores some fields. -/
def shopCall (pointers : List String) : Call where
  env := shopEnvironment "shop" shop_ne false
  stored gvr _ := if gvr = configMaps then some [0] else none
  desired := [0]
  opts := { shopOptions with ignoreDifferences := [⟨"", "ConfigMap", "", "", pointers⟩] }

theorem shop_cutsNothing (h : o.lookup "spec" = none) :
    CutsNothing (shopCall ["/spec/replicas"]).opts.ignoreDifferences o := by
  have hpath : pointerPath "/spec/replicas" = ["spec", "replicas"] := by decide
  have hremove : removeField o "/spec/replicas" = o := by
    rw [removeField, if_neg (by decide), hpath]
    simp only [removeAt, h]
  show (if ignoreDiffMatches _ o then removeField o "/spec/replicas" else o) = o
  rw [hremove, ite_self]

theorem shop_traceless : Guarded Call.after (Call.Traceless shopMemory.live) shopMemory [shopCall ["/spec/replicas"]] := by
  refine diff_traceless shopMemory [shopCall ["/spec/replicas"]] ⟨⟨?_, ?_, ?_⟩, trivial⟩
  · intro k _ fields hfields
    have hempty : fields = [] := by
      have hobj : (.ok (some (.obj [])) : Except Unit (Option Value)) = .ok (some (.obj fields)) := hfields
      cases hobj
      rfl
    rw [hempty]
    exact Option.some_ne_none _
  · intro desiredMap liveMap _ k _
    refine shop_cutsNothing ?_
    have hwanted : (shopCall ["/spec/replicas"]).wanted shopMemory = [0] := by decide
    rw [memory_gather, collect_eq, hwanted]
    show (if k ∈ [0] then ensureManagedLabels "shop" (settings "shop" []) else settings "shop" []).lookup "spec" = none
    split_ifs
    · rw [← lookup_payload (by decide), payload_ensureManagedLabels]
      rfl
    · rfl
  · intro desiredMap liveMap _ k _
    exact shop_cutsNothing rfl

/-- The settings that are live lose the field that a diff ignores. -/
theorem diff_cuts_cache : ¬ ∀ M calls, Guarded Call.after (Call.Traceless M.live) M calls := by
  intro hall
  have hlive := (hall shopMemory [shopCall ["/data/currency"]]).1.live
  have hcurrency := congrArg (fun o => stringAt o ["data", "currency"]) (congrFun hlive 0)
  exact absurd hcurrency (by decide)

end Paprika.Engine
