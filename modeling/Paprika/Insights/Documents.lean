import Mathlib.Data.List.Induction
import Paprika.Lib.KeyedMap

/-!
# Dashboard documents

`store.go`: what the dashboard store accepts and what it loads.  A document is the text of a JSON object.  A write checks
the text; loading checks the text that is left when the time zone is taken out and the rest is encoded anew, so that a zone
that is not on the list any more does not keep the store from opening.

* `Rules` — the JSON library, the hash of the ETags, the list of zones, and the checks of the fields other than the zone;
* `validateDashboard`, `checkStoredDashboard`, `preconditions`, `loadEntries` — from the source;
* **`checkStoredDashboard_iff`** — a document that was accepted is loaded exactly when its encoding without the zone is
  within the size limit; **`OpenStore_of_loadable`** — what opens.
-/

namespace Paprika.Insights

open Lib.KeyedMap List

abbrev Document := List UInt8

/-- The fields of a JSON object, with what the decoders see of their values. -/
abbrev Fields (V : Type) := Map String V

/-- The values that the members of an object give a name, in their order. -/
def valuesOf {V : Type} (members : List (String × V)) (k : String) : List V :=
  members.filterMap fun m => if m.1 = k then some m.2 else none

/-- The members as a Go map, which keeps the last value of a name. -/
def fieldsOf {V : Type} (members : List (String × V)) : Fields V := members.foldl (fun fields m => fields.insert m.1 m.2) ∅

/-- What the store uses: `encoding/json`, which reads back the fields that it writes; the hash of the ETags; and checks of
values.  `fieldsValid` stands for the checks of all fields but the time zone. -/
structure Rules (V : Type) where
  decode : Document → Option (List (String × V))
  encode : Fields V → Document
  decode_encode : ∀ fields, ∃ members, decode (encode fields) = some members ∧
    ∀ k, valuesOf members k = (fields.lookup k).toList
  isNull : V → Bool
  hash : Document → String
  hash_injective : ∀ a b, hash a = hash b → a = b
  canonicalZone : V → Bool
  fieldsValid : String → (String → List V) → Bool
  fieldsValid_last : ∀ id values, fieldsValid id values = true →
    fieldsValid id (fun k => (values k).getLast?.toList) = true

def maxDocumentBytes : Nat := 262144
def maxDashboards : Nat := 100
def maxStoreBytes : Nat := 33554432

def isAlphanumeric (c : Char) : Bool := ('a' ≤ c && c ≤ 'z') || ('A' ≤ c && c ≤ 'Z') || ('0' ≤ c && c ≤ '9')

/-- `validID`: `^[a-zA-Z0-9][a-zA-Z0-9_-]{0,79}$`. -/
def validID (id : String) : Bool :=
  match id.toList with
  | [] => false
  | c :: cs => isAlphanumeric c && cs.length ≤ 79 && cs.all fun d => isAlphanumeric d || d == '_' || d == '-'

def requiredFields : List String := ["schemaVersion", "id", "title", "timeRange", "refreshInterval", "widgets"]

def optionalFields : List String := ["description", "folder", "customTimeRange", "timeZone", "variables"]

def requireObjectShape {V : Type} (isNull : V → Bool) (required optional : List String) (fields : Fields V) : Bool :=
  required.all (fun k => (fields.lookup k).isSome) &&
    fields.entries.all fun e => (required ++ optional).contains e.1 && !isNull e.2

section
variable {V : Type} (R : Rules V)

/-- The checks of a document's members. -/
def validFields (id : String) (members : List (String × V)) : Bool :=
  requireObjectShape R.isNull requiredFields optionalFields (fieldsOf members) &&
    ((fieldsOf members).lookup "timeZone").all R.canonicalZone &&
    R.fieldsValid id fun k => if k = "timeZone" then [] else valuesOf members k

def validateDashboard (id : String) (document : Document) : Bool :=
  validID id && document.length ≤ maxDocumentBytes && (R.decode document).any (validFields R id)

/-- `checkStoredDashboard`, without the warning about a stale zone. -/
def checkStoredDashboard (id : String) (document : Document) : Bool :=
  match R.decode document with
  | none => validateDashboard R id document
  | some members =>
    match (fieldsOf members).lookup "timeZone" with
    | none => validateDashboard R id document
    | some _ => validateDashboard R id (R.encode ((fieldsOf members).erase "timeZone"))

def etag (document : Document) : String := "\"" ++ R.hash document ++ "\""

inductive StoreError where
  | invalid
  | notFound
  | conflict
  | capacity
  | file
  deriving DecidableEq

def preconditions (previous : Option Document) (ifMatch ifNoneMatch : String) : Bool :=
  !(ifMatch != "" && (previous.isNone || (ifMatch != "*" && (previous.map (etag R)) != some ifMatch))) &&
    !(ifNoneMatch != "" && previous.isSome && (ifNoneMatch == "*" || (previous.map (etag R)) == some ifNoneMatch))

/-! ### Loading -/

/-- The documents of a store, or the files of its directory that end in `.json`, by id. -/
abbrev Docs := Map String Document

def docsSize (docs : Docs) : Nat := (docs.entries.map fun e => e.2.length).sum

def dashboardStoreFull (count size : Nat) : Bool := maxDashboards ≤ count || maxStoreBytes < size

/-- `loadEntries`; `none` is an error. -/
def loadEntries : List (Σ _ : String, Document) → Docs → Nat → Option Docs
  | [], docs, _ => some docs
  | e :: es, docs, total =>
    if !validID e.1 || maxDocumentBytes < e.2.length || !checkStoredDashboard R e.1 e.2 then none
    else if dashboardStoreFull docs.entries.length (total + e.2.length) then none
    else loadEntries es (docs.insert e.1 e.2) (total + e.2.length)

/-- `OpenStore` on a directory that can be read. -/
def OpenStore (files : Docs) : Option Docs := loadEntries R files.entries ∅ 0
end

/-! ### What is loaded -/

variable {V : Type} {R : Rules V} {id : String} {document : Document}

theorem requireObjectShape_iff {isNull : V → Bool} {required optional : List String} {fields : Fields V} :
    requireObjectShape isNull required optional fields = true ↔ (∀ k ∈ required, (fields.lookup k).isSome = true) ∧
      ∀ k v, fields.lookup k = some v → k ∈ required ++ optional ∧ isNull v = false := by
  rw [requireObjectShape, Bool.and_eq_true, all_eq_true, all_eq_true]
  refine and_congr_right fun _ => ?_
  constructor
  · intro h k v hk
    simpa using h ⟨k, v⟩ (AList.mem_lookup_iff.mp hk)
  · rintro h ⟨k, v⟩ he
    simpa using h k v (AList.mem_lookup_iff.mpr he)

theorem lookup_fieldsOf (members : List (String × V)) (k : String) :
    (fieldsOf members).lookup k = (valuesOf members k).getLast? := by
  induction members using List.reverseRecOn with
  | nil => rfl
  | append_singleton members m ih =>
    rw [fieldsOf, foldl_concat, valuesOf, filterMap_append]
    by_cases hk : m.1 = k
    · rw [← hk, AList.lookup_insert]
      simp
    · rw [AList.lookup_insert_ne (Ne.symm hk), ← fieldsOf, ih, valuesOf]
      simp [hk]

theorem validFields_unzoned {members read : List (String × V)} (h : validFields R id members = true)
    (hread : ∀ k, valuesOf read k = (((fieldsOf members).erase "timeZone").lookup k).toList) :
    validFields R id read = true := by
  rw [validFields, Bool.and_eq_true, Bool.and_eq_true] at h ⊢
  obtain ⟨⟨hshape, -⟩, hfields⟩ := h
  obtain ⟨hrequired, hknown⟩ := requireObjectShape_iff.mp hshape
  have hzone : (fieldsOf read).lookup "timeZone" = none := by
    rw [lookup_fieldsOf, hread, AList.lookup_erase]
    rfl
  have hother : ∀ k, k ≠ "timeZone" → (fieldsOf read).lookup k = (fieldsOf members).lookup k := by
    intro k hk
    rw [lookup_fieldsOf read, hread, AList.lookup_erase_ne hk]
    cases (fieldsOf members).lookup k <;> rfl
  refine ⟨⟨requireObjectShape_iff.mpr ⟨?_, ?_⟩, ?_⟩, ?_⟩
  · intro k hk
    have hne : k ≠ "timeZone" := by
      rintro rfl
      exact absurd hk (by decide)
    rw [hother k hne]
    exact hrequired k hk
  · intro k v hk
    have hne : k ≠ "timeZone" := by
      rintro rfl
      rw [hzone] at hk
      cases hk
    rw [hother k hne] at hk
    exact hknown k v hk
  · rw [hzone]
    rfl
  · have hsame : (fun k => if k = "timeZone" then [] else valuesOf read k) =
        fun k => (if k = "timeZone" then [] else valuesOf members k : List V).getLast?.toList := by
      funext k
      by_cases hk : k = "timeZone"
      · rw [if_pos hk, if_pos hk]
        rfl
      · rw [if_neg hk, if_neg hk, hread, AList.lookup_erase_ne hk, lookup_fieldsOf]
    rw [hsame]
    exact R.fieldsValid_last id _ hfields

/-- The encoding of a document without its time zone, if it has one, is within the size limit. -/
def Reencodes (R : Rules V) (document : Document) : Prop :=
  ∀ members zone, R.decode document = some members → (fieldsOf members).lookup "timeZone" = some zone →
    (R.encode ((fieldsOf members).erase "timeZone")).length ≤ maxDocumentBytes

/-- **An accepted document is loaded exactly if it can be encoded anew within the limit.** -/
theorem checkStoredDashboard_iff (h : validateDashboard R id document = true) :
    checkStoredDashboard R id document = true ↔ Reencodes R document := by
  obtain ⟨hpre, hany⟩ := Bool.and_eq_true_iff.mp h
  obtain ⟨hid, -⟩ := Bool.and_eq_true_iff.mp hpre
  obtain ⟨members, hdecode, hvalid⟩ := (Option.any_eq_true _ _).mp hany
  cases hzone : (fieldsOf members).lookup "timeZone" with
  | none =>
    have hchecked : checkStoredDashboard R id document = validateDashboard R id document := by
      simp only [checkStoredDashboard, hdecode, hzone]
    rw [hchecked]
    refine iff_of_true h ?_
    intro other zone hother hz
    obtain rfl : members = other := Option.some.inj (hdecode.symm.trans hother)
    rw [hzone] at hz
    cases hz
  | some zone =>
  have hchecked : checkStoredDashboard R id document =
      validateDashboard R id (R.encode ((fieldsOf members).erase "timeZone")) := by
    simp only [checkStoredDashboard, hdecode, hzone]
  obtain ⟨read, hread, hsame⟩ := R.decode_encode ((fieldsOf members).erase "timeZone")
  have hreadable : validFields R id read = true := validFields_unzoned hvalid hsame
  have hlimit : validateDashboard R id (R.encode ((fieldsOf members).erase "timeZone")) = true ↔
      (R.encode ((fieldsOf members).erase "timeZone")).length ≤ maxDocumentBytes := by
    rw [validateDashboard, hread, hid]
    simp [hreadable]
  rw [hchecked, hlimit]
  constructor
  · intro hlength other zone' hother _
    obtain rfl : members = other := Option.some.inj (hdecode.symm.trans hother)
    exact hlength
  · intro hall
    exact hall members zone hdecode hzone

/-- Documents that open. -/
structure Loadable (R : Rules V) (docs : Docs) : Prop where
  checked : ∀ id document, docs.lookup id = some document → validID id = true ∧ document.length ≤ maxDocumentBytes ∧
    checkStoredDashboard R id document = true
  count : docs.entries.length ≤ maxDashboards
  size : docsSize docs ≤ maxStoreBytes

/-- Two stores hold the same documents. -/
def Same (m n : Docs) : Prop := ∀ id, m.lookup id = n.lookup id

theorem Same.refl (m : Docs) : Same m m := fun _ => rfl

variable {m n : Docs}

section
variable (h : Same m n)
include h

theorem Same.symm : Same n m := fun id => (h id).symm

theorem Same.trans {o : Docs} (h' : Same n o) : Same m o := fun id => (h id).trans (h' id)

theorem Same.insert (id : String) (document : Document) : Same (m.insert id document) (n.insert id document) := by
  intro k
  by_cases hk : k = id
  · rw [hk, AList.lookup_insert, AList.lookup_insert]
  · rw [AList.lookup_insert_ne hk, AList.lookup_insert_ne hk, h k]

theorem Same.erase (id : String) : Same (m.erase id) (n.erase id) := by
  intro k
  by_cases hk : k = id
  · rw [hk, AList.lookup_erase, AList.lookup_erase]
  · rw [AList.lookup_erase_ne hk, AList.lookup_erase_ne hk, h k]

theorem Same.count : m.entries.length = n.entries.length := (entries_perm h).length_eq

theorem Same.size : docsSize m = docsSize n :=
  ((entries_perm h).map fun e : Σ _ : String, Document => e.2.length).sum_nat
end

theorem Loadable.congr (h : Loadable R m) (hsame : Same m n) : Loadable R n := by
  refine ⟨?_, ?_, ?_⟩
  · intro id document hlook
    rw [← hsame id] at hlook
    exact h.checked id document hlook
  · rw [← hsame.count]
    exact h.count
  · rw [← hsame.size]
    exact h.size

theorem loadable_empty : Loadable R ∅ := by
  refine ⟨?_, Nat.zero_le _, Nat.zero_le _⟩
  intro id document hlook
  cases hlook

theorem Loadable.erase (h : Loadable R m) (id : String) : Loadable R (m.erase id) := by
  refine ⟨?_, ?_, ?_⟩
  · intro k document hlook
    by_cases hk : k = id
    · rw [hk, AList.lookup_erase] at hlook
      cases hlook
    · rw [AList.lookup_erase_ne hk] at hlook
      exact h.checked k document hlook
  · exact Nat.le_trans (erase_sublist m id).length_le h.count
  · exact Nat.le_trans (sum_le_of_sublist ((erase_sublist m id).map _)) h.size

theorem loadEntries_ok {es : List (Σ _ : String, Document)} : ∀ {docs : Docs} {total : Nat}, es.NodupKeys →
    (∀ e ∈ es, validID e.1 = true ∧ e.2.length ≤ maxDocumentBytes ∧ checkStoredDashboard R e.1 e.2 = true) →
    (∀ e ∈ es, docs.lookup e.1 = none) → docs.entries.length + es.length ≤ maxDashboards →
    total + (es.map fun e => e.2.length).sum ≤ maxStoreBytes →
    ∃ loaded, loadEntries R es docs total = some loaded ∧
      ∀ id, loaded.lookup id = (es.dlookup id).or (docs.lookup id) := by
  induction es with
  | nil =>
    intro docs total _ _ _ _ _
    exact ⟨docs, rfl, fun id => rfl⟩
  | cons e es ih =>
    obtain ⟨k, document⟩ := e
    intro docs total hnd hchecked hfresh hcount hsize
    obtain ⟨hk, hnodup'⟩ := nodupKeys_cons.mp hnd
    obtain ⟨hid, hlength, hcheck⟩ := hchecked ⟨k, document⟩ mem_cons_self
    have hnew : docs.lookup k = none := hfresh ⟨k, document⟩ mem_cons_self
    rw [length_cons] at hcount
    simp only [map_cons, sum_cons] at hsize
    have hlen : (docs.insert k document).entries.length = docs.entries.length + 1 := by
      rw [AList.entries_insert_of_notMem (AList.lookup_eq_none.mp hnew), length_cons]
    have hfresh' : ∀ e ∈ es, (docs.insert k document).lookup e.1 = none := by
      intro e he
      have hne : e.1 ≠ k := by
        intro heq
        exact hk (heq ▸ mem_map.mpr ⟨e, he, rfl⟩)
      rw [AList.lookup_insert_ne hne]
      exact hfresh e (mem_cons_of_mem _ he)
    have hsize' : total + document.length + (es.map fun e => e.2.length).sum ≤ maxStoreBytes := by omega
    obtain ⟨loaded, hloaded, hlookup⟩ := ih hnodup' (fun e he => hchecked e (mem_cons_of_mem _ he)) hfresh'
      (by omega) hsize'
    refine ⟨loaded, ?_, ?_⟩
    · have hbad : (!validID k || decide (maxDocumentBytes < document.length) ||
          !checkStoredDashboard R k document) = false := by
        simp [hid, hcheck, Nat.not_lt.mpr hlength]
      have hfull : dashboardStoreFull docs.entries.length (total + document.length) = false := by
        simp only [dashboardStoreFull, Bool.or_eq_false_iff, decide_eq_false_iff_not]
        omega
      rw [loadEntries, hbad, if_neg Bool.false_ne_true, hfull, if_neg Bool.false_ne_true, hloaded]
    · intro id
      rw [hlookup]
      by_cases hid' : id = k
      · have hnone : es.dlookup id = none := by
          rw [hid']
          exact dlookup_eq_none.mpr hk
        rw [hid', AList.lookup_insert, dlookup_cons_eq, ← hid', hnone]
        rfl
      · rw [AList.lookup_insert_ne hid', dlookup_cons_ne _ _ hid']

/-- **What is loadable opens**, and holds what the directory holds. -/
theorem OpenStore_of_loadable {files : Docs} (h : Loadable R files) :
    ∃ docs, OpenStore R files = some docs ∧ Same docs files := by
  have hchecked : ∀ e ∈ files.entries, validID e.1 = true ∧ e.2.length ≤ maxDocumentBytes ∧
      checkStoredDashboard R e.1 e.2 = true := fun e he => h.checked e.1 e.2 (AList.mem_lookup_iff.mpr he)
  have hfresh : ∀ e ∈ files.entries, (∅ : Docs).lookup e.1 = none := fun _ _ => rfl
  have hsize : 0 + (files.entries.map fun e => e.2.length).sum ≤ maxStoreBytes := by
    rw [Nat.zero_add]
    exact h.size
  obtain ⟨docs, hdocs, hlookup⟩ := loadEntries_ok files.nodupKeys hchecked hfresh (by simpa using h.count) hsize
  refine ⟨docs, hdocs, fun id => ?_⟩
  rw [hlookup, AList.lookup_empty, Option.or_none]
  rfl

end Paprika.Insights
