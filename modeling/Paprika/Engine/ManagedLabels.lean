import Paprika.Engine.Objects

/-!
# Engine: comparing labelled objects

The scalable diff writes the managed labels into the desired objects before it compares them, the other diff does not.
Ignore rules may cut fields of the objects in between.

* `CarriesLabels`, `DeclaresNoOther` — a live object has the managed labels, a desired one asks for no other values;
* `Twin` — two objects that differ in their labels only;
* `LeavesLabels` — the ignore rules do not cut labels;
* **`resourceEqual_labelled`** — for such objects and rules, to write the labels does not change the comparison.
-/

namespace Paprika.Engine

open Lib.Unstructured List

variable {applicationName : String} {o o' : Object} {k key : String}

/-! ### The managed labels -/

theorem mapM_stringEntry (labels : List (String × String)) :
    (labels.map fun kv => (kv.1, Value.str kv.2)).mapM stringEntry = some labels := by
  induction labels with
  | nil => rfl
  | cons kv rest ih => simp [mapM_cons, ih, stringEntry]

theorem labels_ensureManagedLabels (applicationName : String) (o : Object) :
    getLabels (ensureManagedLabels applicationName o) = managedLabels applicationName (getLabels o) ∨
      ensureManagedLabels applicationName o = o := by
  simp only [ensureManagedLabels, setLabels, setMetadata]
  split
  · refine Or.inl ?_
    simp only [getLabels, stringMapAt, nestedField, lookup_setField_self, lookup_cons, beq_self_eq_true,
      mapM_stringEntry, Option.getD_some]
  · refine Or.inl ?_
    simp only [getLabels, stringMapAt, nestedField, lookup_setField_self, mapM_stringEntry, Option.getD_some]
  · exact Or.inr rfl

theorem lookup_setEntry_of_ne {value : String} (hne : k ≠ key) (m : List (String × String)) :
    (setEntry key value m).lookup k = m.lookup k := by
  have hkkey : (k == key) = false := beq_eq_false_iff_ne.mpr hne
  induction m with
  | nil => simp [setEntry, lookup_cons, hkkey]
  | cons kv rest ih =>
    obtain ⟨j, old⟩ := kv
    rw [setEntry]
    by_cases hj : j = key
    · simp [hj, lookup_cons, hkkey]
    · simp only [hj, if_false, lookup_cons, ih]

/-- To ask for one more label makes no difference against labels that have it, unless another value was asked for. -/
theorem labelsEqual_setEntry {value : String} {desired live : List (String × String)}
    (hlive : live.lookup key = some value) (hdes : ∀ v, desired.lookup key = some v → v = value) :
    labelsEqual (setEntry key value desired) live = labelsEqual desired live := by
  induction desired with
  | nil => simp [setEntry, labelsEqual, hlive]
  | cons kv rest ih =>
    obtain ⟨j, v⟩ := kv
    rw [setEntry]
    by_cases hj : j = key
    · subst hj
      have hv : v = value := hdes v (by simp)
      simp [labelsEqual, hv]
    · have hne : (key == j) = false := beq_eq_false_iff_ne.mpr (Ne.symm hj)
      have hrest := ih (fun w hw => hdes w (by rw [lookup_cons, hne]; exact hw))
      simp only [labelsEqual] at hrest
      simp only [labelsEqual, if_neg hj, all_cons, hrest]

/-- The labels of an object of the application. -/
structure CarriesLabels (applicationName : String) (labels : List (String × String)) : Prop where
  managed : labels.lookup managedByLabelKey = some managedByLabelValue
  application : applicationName ≠ "" → labels.lookup applicationNameLabelKey = some applicationName

structure DeclaresNoOther (applicationName : String) (labels : List (String × String)) : Prop where
  managed : ∀ v, labels.lookup managedByLabelKey = some v → v = managedByLabelValue
  application : applicationName ≠ "" → ∀ v, labels.lookup applicationNameLabelKey = some v → v = applicationName

theorem labelsEqual_managedLabels {desired live : List (String × String)} (hlive : CarriesLabels applicationName live)
    (hdes : DeclaresNoOther applicationName desired) :
    labelsEqual (managedLabels applicationName desired) live = labelsEqual desired live := by
  have hmanaged := labelsEqual_setEntry hlive.managed hdes.managed
  simp only [managedLabels]
  by_cases happ : applicationName = ""
  · rw [if_neg (not_not_intro happ), hmanaged]
  rw [if_pos happ, ← hmanaged]
  refine labelsEqual_setEntry (hlive.application happ) ?_
  intro v hv
  rw [lookup_setEntry_of_ne (by decide)] at hv
  exact hdes.application happ v hv

/-! ### Ignore rules -/
def touchesLabels (path : List String) : Bool := path = ["metadata"] || ["metadata", "labels"].isPrefixOf path

def LeavesLabels (rules : List IgnoreDiff) : Prop :=
  ∀ rule ∈ rules, ∀ pointer ∈ rule.jsonPointers, touchesLabels (pointerPath pointer) = false

theorem lookup_removeAt_of_ne (hne : k ≠ key) (path : List String) (o : Object) :
    (removeAt (key :: path) o).lookup k = o.lookup k := by
  cases path with
  | nil =>
    rw [removeAt_last]
    induction o with
    | nil => rfl
    | cons kv rest ih =>
      obtain ⟨j, v⟩ := kv
      by_cases hj : j = key
      · have hkj : (k == j) = false := by
          rw [hj]
          exact beq_eq_false_iff_ne.mpr hne
        simpa [filter_cons, hj, lookup_cons, hkj, beq_eq_false_iff_ne.mpr hne] using ih
      · have hkeep : (j != key) = true := by simpa using hj
        simp only [filter_cons, hkeep, if_true, lookup_cons, ih]
  | cons next path =>
    simp only [removeAt]
    split
    · exact lookup_setField_of_ne hne _ o
    · rfl

theorem payload_setField_of_ne (hne : key ≠ "metadata") (v : Value) (o : Object) :
    payload (setField key v o) = setField key v (payload o) := by
  induction o with
  | nil => simp [setField, payload, hne]
  | cons kv rest ih =>
    obtain ⟨j, w⟩ := kv
    by_cases hj : j = key
    · have hjm : j ≠ "metadata" := hj ▸ hne
      simp only [setField, if_pos hj, payload_cons, if_neg hne, if_neg hjm]
    · by_cases hjm : j = "metadata"
      · simp only [setField, if_neg hj, payload_cons, if_pos hjm, ih]
      · simp only [setField, if_neg hj, payload_cons, if_neg hjm, ih]

theorem payload_removeAt (hne : key ≠ "metadata") (path : List String) (o : Object) :
    payload (removeAt (key :: path) o) = removeAt (key :: path) (payload o) := by
  cases path with
  | nil =>
    simp only [removeAt_last, payload, filter_filter]
    congr 1
    funext kv
    exact Bool.and_comm _ _
  | cons next path =>
    simp only [removeAt, lookup_payload hne]
    split
    · exact payload_setField_of_ne hne _ o
    · rfl

theorem lookup_removeAt_last (key : String) (o : Object) : (removeAt [key] o).lookup key = none := by
  rw [lookup_eq_none_iff]
  intro kv hkv
  simp only [removeAt_last, mem_filter, bne_iff_ne] at hkv
  simpa using Ne.symm hkv.2

theorem lookup_removeAt_self (path : List String) (h : o.lookup key = o'.lookup key) :
    (removeAt (key :: path) o).lookup key = (removeAt (key :: path) o').lookup key := by
  cases path with
  | nil => rw [lookup_removeAt_last, lookup_removeAt_last]
  | cons next path =>
    simp only [removeAt, h]
    split
    · simp only [lookup_setField_self]
    · exact h

/-- Maps that agree beside one field still do after a removal below another one. -/
theorem lookup_removeAt_congr {field : String} (path : List String) (h : ∀ k, k ≠ field → o.lookup k = o'.lookup k)
    (hkey : key ≠ field) (hk : k ≠ field) :
    (removeAt (key :: path) o).lookup k = (removeAt (key :: path) o').lookup k := by
  by_cases hkk : k = key
  · subst hkk
    exact lookup_removeAt_self path (h k hk)
  · rw [lookup_removeAt_of_ne hkk, lookup_removeAt_of_ne hkk, h k hk]

/-! ### Objects that differ in their labels only -/

/-- The metadata of two objects that may differ in the labels. -/
inductive SameBesideLabels : Option Value → Option Value → Prop
  | same (v : Option Value) : SameBesideLabels v v
  | maps {m m' : Fields} (h : ∀ k, k ≠ "labels" → m.lookup k = m'.lookup k) :
      SameBesideLabels (some (.obj m)) (some (.obj m'))
  | only {m : Fields} (h : ∀ k, k ≠ "labels" → m.lookup k = none) : SameBesideLabels (some (.obj m)) none

/-- Two objects that differ in their labels only. -/
structure Twin (o o' : Object) : Prop where
  payload : payload o = payload o'
  metadata : SameBesideLabels (o.lookup "metadata") (o'.lookup "metadata")

/-- The labels of an object, as they are stored. -/
def labelsField (o : Object) : Except Unit (Option Value) := nestedField o ["metadata", "labels"]

theorem Twin.field (h : Twin o o') {field : String} (hne : field ≠ "labels") :
    nestedField o ["metadata", field] = nestedField o' ["metadata", field] := by
  have hmetadata := h.metadata
  simp only [nestedField]
  generalize o.lookup "metadata" = v, o'.lookup "metadata" = v' at hmetadata
  cases hmetadata with
  | same => rfl
  | maps hm => simp only [hm field hne]
  | only hm => simp only [hm field hne]

theorem Twin.name (h : Twin o o') : getName o = getName o' := stringAt_congr (h.field (by decide))

theorem Twin.ns (h : Twin o o') : getNamespace o = getNamespace o' := stringAt_congr (h.field (by decide))

theorem Twin.annotations (h : Twin o o') : getAnnotations o = getAnnotations o' :=
  stringMapAt_congr (h.field (by decide))

theorem twin_ensureManagedLabels (applicationName : String) (o : Object) :
    Twin (ensureManagedLabels applicationName o) o := by
  refine ⟨payload_ensureManagedLabels applicationName o, ?_⟩
  simp only [ensureManagedLabels, setLabels, setMetadata]
  split
  · next h =>
      rw [lookup_setField_self, h]
      refine .only ?_
      intro k hk
      rw [lookup_cons, beq_eq_false_iff_ne.mpr hk]
      rfl
  · next inner h =>
      rw [lookup_setField_self, h]
      exact .maps (fun k hk => lookup_setField_of_ne hk _ inner)
  · exact .same _

/-! ### Twins below ignore rules -/

section
variable {path : List String}

/-- A removal that does not touch labels is below another field of the object or of the metadata. -/
theorem path_cases (h : touchesLabels path = false) : path = [] ∨ (∃ key rest, key ≠ "metadata" ∧ path = key :: rest) ∨
      ∃ field rest, field ≠ "labels" ∧ path = "metadata" :: field :: rest := by
  rcases path with _ | ⟨key, _ | ⟨field, rest⟩⟩
  · exact .inl rfl
  · refine .inr (.inl ⟨key, [], ?_, rfl⟩)
    rintro rfl
    simp [touchesLabels] at h
  · by_cases hkey : key = "metadata"
    · subst hkey
      refine .inr (.inr ⟨field, rest, ?_, rfl⟩)
      rintro rfl
      simp [touchesLabels] at h
    · exact .inr (.inl ⟨key, field :: rest, hkey, rfl⟩)

theorem labelsField_removeAt (h : touchesLabels path = false) (o : Object) :
    labelsField (removeAt path o) = labelsField o := by
  rcases path_cases h with rfl | ⟨key, rest, hne, rfl⟩ | ⟨field, rest, hne, rfl⟩
  · rfl
  · simp only [labelsField, nestedField, lookup_removeAt_of_ne (Ne.symm hne)]
  · simp only [labelsField, removeAt]
    split
    · next inner hinner =>
        simp only [nestedField, lookup_setField_self, hinner, lookup_removeAt_of_ne (Ne.symm hne)]
    · rfl

theorem payload_removeAt_metadata {field : String} (rest : List String) (o : Object) :
    payload (removeAt ("metadata" :: field :: rest) o) = payload o := by
  simp only [removeAt]
  split
  · exact payload_setField_metadata _ o
  · rfl

theorem sameBesideLabels_removeAt {field : String} (hne : field ≠ "labels") (rest : List String)
    (h : SameBesideLabels (o.lookup "metadata") (o'.lookup "metadata")) :
    SameBesideLabels ((removeAt ("metadata" :: field :: rest) o).lookup "metadata")
      ((removeAt ("metadata" :: field :: rest) o').lookup "metadata") := by
  simp only [removeAt]
  generalize hv : o.lookup "metadata" = v, hv' : o'.lookup "metadata" = v' at h
  cases h with
  | same =>
    split
    · simp only [lookup_setField_self]
      exact .same _
    · rw [hv, hv']
      exact .same _
  | maps hm =>
    simp only [lookup_setField_self]
    exact .maps (fun k hk => lookup_removeAt_congr rest hm hne hk)
  | @only m hm =>
  simp only [lookup_setField_self, hv']
  refine .only ?_
  intro k hk
  have hempty : removeAt (field :: rest) ([] : Object) = [] := by cases rest <;> rfl
  have hbeside : ∀ j, j ≠ "labels" → m.lookup j = ([] : Object).lookup j := fun j hj => hm j hj
  rw [lookup_removeAt_congr rest hbeside hne hk, hempty]
  rfl

theorem Twin.removeAt (hpath : touchesLabels path = false) (h : Twin o o') :
    Twin (removeAt path o) (removeAt path o') := by
  rcases path_cases hpath with rfl | ⟨key, rest, hne, rfl⟩ | ⟨field, rest, hne, rfl⟩
  · exact h
  · refine ⟨?_, ?_⟩
    · rw [payload_removeAt hne, payload_removeAt hne, h.payload]
    · rw [lookup_removeAt_of_ne (Ne.symm hne), lookup_removeAt_of_ne (Ne.symm hne)]
      exact h.metadata
  · refine ⟨?_, sameBesideLabels_removeAt hne rest h.metadata⟩
    rw [payload_removeAt_metadata, payload_removeAt_metadata, h.payload]
end

theorem Twin.matches (h : Twin o o') (rule : IgnoreDiff) : ignoreDiffMatches rule o = ignoreDiffMatches rule o' := by
  simp only [ignoreDiffMatches, getAPIVersion_congr h.payload, getKind_congr h.payload, h.name, h.ns]

def ignoreOne (rule : IgnoreDiff) (o : Object) (pointer : String) : Object :=
  if ignoreDiffMatches rule o then removeField o pointer else o

theorem labelsField_ignoreOne {rule : IgnoreDiff} {pointer : String} (h : touchesLabels (pointerPath pointer) = false)
    (o : Object) : labelsField (ignoreOne rule o pointer) = labelsField o := by
  simp only [ignoreOne, removeField]
  split
  · split
    · rfl
    · exact labelsField_removeAt h o
  · rfl

theorem Twin.ignoreOne {rule : IgnoreDiff} {pointer : String} (hpointer : touchesLabels (pointerPath pointer) = false)
    (h : Twin o o') : Twin (ignoreOne rule o pointer) (ignoreOne rule o' pointer) := by
  simp only [Engine.ignoreOne, removeField, h.matches]
  split
  · split
    · exact h
    · exact h.removeAt hpointer
  · exact h

variable {rules : List IgnoreDiff}

section
variable (hrules : LeavesLabels rules)
include hrules

/-- What every pointer of the rules keeps, from two objects to two objects, the rules keep. -/
theorem applyIgnore_induction {motive : Object → Object → Prop}
    (step : ∀ rule pointer, touchesLabels (pointerPath pointer) = false → ∀ o o', motive o o' →
      motive (ignoreOne rule o pointer) (ignoreOne rule o' pointer)) :
    ∀ o o' : Object, motive o o' → motive (applyIgnore rules o) (applyIgnore rules o') := by
  have hpointers : ∀ (rule : IgnoreDiff) (pointers : List String),
      (∀ pointer ∈ pointers, touchesLabels (pointerPath pointer) = false) → ∀ {o o' : Object}, motive o o' →
        motive (pointers.foldl (ignoreOne rule) o) (pointers.foldl (ignoreOne rule) o') := by
    intro rule pointers
    induction pointers with
    | nil => exact fun _ _ _ h => h
    | cons pointer rest ih =>
      intro h o o' hoo'
      exact ih (fun p hp => h p (mem_cons_of_mem pointer hp))
        (step rule pointer (h pointer mem_cons_self) o o' hoo')
  induction rules with
  | nil => exact fun _ _ h => h
  | cons rule rest ih =>
    intro o o' h
    exact ih (fun r hr => hrules r (mem_cons_of_mem rule hr)) _ _
      (hpointers rule _ (hrules rule mem_cons_self) h)

theorem Twin.applyIgnore (h : Twin o o') : Twin (applyIgnore rules o) (applyIgnore rules o') :=
  applyIgnore_induction hrules (fun _ _ hpointer _ _ htwin => htwin.ignoreOne hpointer) o o' h

theorem labels_applyIgnore (o : Object) : getLabels (applyIgnore rules o) = getLabels o := by
  have hkept : labelsField (applyIgnore rules o) = labelsField o := by
    refine applyIgnore_induction hrules (motive := fun o' _ => labelsField o' = labelsField o) ?_ o o rfl
    intro rule pointer hpointer o' _ h
    rw [labelsField_ignoreOne hpointer, h]
  exact stringMapAt_congr hkept

/-- **The managed labels do not change the comparison.** -/
theorem resourceEqual_labelled {payloadContains : PayloadContains} {desired live : Object}
    (hlive : CarriesLabels applicationName (getLabels live))
    (hdes : DeclaresNoOther applicationName (getLabels desired)) :
    resourceEqual payloadContains (applyIgnore rules (ensureManagedLabels applicationName desired))
        (applyIgnore rules live) =
      resourceEqual payloadContains (applyIgnore rules desired) (applyIgnore rules live) := by
  have htwin : Twin (applyIgnore rules (ensureManagedLabels applicationName desired)) (applyIgnore rules desired) :=
    (twin_ensureManagedLabels applicationName desired).applyIgnore hrules
  have hlabels : labelsEqual (getLabels (applyIgnore rules (ensureManagedLabels applicationName desired)))
        (getLabels (applyIgnore rules live)) =
      labelsEqual (getLabels (applyIgnore rules desired)) (getLabels (applyIgnore rules live)) := by
    rw [labels_applyIgnore hrules, labels_applyIgnore hrules, labels_applyIgnore hrules]
    rcases labels_ensureManagedLabels applicationName desired with hwrote | hsame
    · rw [hwrote, labelsEqual_managedLabels hlive hdes]
    · rw [hsame]
  have hmeta : metaEqual (applyIgnore rules (ensureManagedLabels applicationName desired)) (applyIgnore rules live) =
      metaEqual (applyIgnore rules desired) (applyIgnore rules live) := by
    rw [metaEqual, metaEqual, htwin.name, htwin.ns, htwin.annotations, hlabels]
  rw [resourceEqual, resourceEqual, hmeta, htwin.payload]
end

end Paprika.Engine
