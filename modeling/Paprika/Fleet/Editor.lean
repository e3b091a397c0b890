import Paprika.Fleet.Snapshot
import Paprika.Lib.Run

/-!
# Fleet: editing snapshots

`snapshotEditor` makes the next snapshot of a published one.  It works copy on write: a top-level map is cloned when it
is first touched, and so is each posting; readers go on reading the base.

The editor refines operations on plain snapshots (`Snapshot.upsert`, `Snapshot.delete`), and these keep a snapshot exact.
**`snapshot_index_integrity`** puts both together: after any edits of an exact snapshot every index is the exact inverse
of the records, the result is the snapshot built from scratch, it passes its validation, and the base is unchanged.
**`last_edit_wins`** says which records these are.
-/

namespace Paprika.Fleet

open Lib.InvertedIndex Lib.CopyOnWrite Lib.Run Function Option

/-! ### The editor -/

/-- A published snapshot, by its cells. -/
structure SnapshotRef where
  generation : Nat
  refs : Refs IndexName TableName

abbrev SnapshotHeap := Heap IndexName.Key ObjectKey ObjectKey TableName.Value

abbrev EditorSession := Session IndexName.Key ObjectKey ObjectKey TableName.Value

def SnapshotHeap.snapshot (h : SnapshotHeap) (s : SnapshotRef) : Snapshot :=
  { generation := s.generation, maps := h.view s.refs }

/-- `touched` has the objects whose records have changed, by their map. -/
structure SnapshotEditor where
  session : EditorSession
  generation : Nat
  changed : Bool
  touched : TableName → Finset ObjectKey

def newSnapshotEditor (h : SnapshotHeap) (base : SnapshotRef) : SnapshotEditor :=
  { session := Session.start h base.refs, generation := base.generation, changed := false, touched := fun _ => ∅ }

namespace SnapshotEditor

variable (u : Unicode) (e : SnapshotEditor)

/-- What the editor has made of its base: `e.next`. -/
def next : Snapshot := { generation := e.generation, maps := e.session.view }

def ensureTable (t : TableName) : SnapshotEditor := { e with session := e.session.ensureTable t }
def ensureApplications : SnapshotEditor := e.ensureTable .applications
def ensureSearchDocuments : SnapshotEditor := e.ensureTable .searchDocuments
def ensureSourceBindings : SnapshotEditor := e.ensureTable .sourceBindings

/-- `e.next.M[key] = x`, or its deletion. -/
def write (t : TableName) (key : ObjectKey) (x : Option t.Value) : SnapshotEditor :=
  { e with session := e.session.writeTable t (fun m => put m key x) }

def touch (t : TableName) (key : ObjectKey) : SnapshotEditor :=
  { e with changed := true, touched := Function.update e.touched t (insert key (e.touched t)) }

/-- `updateApplicationIndexes`, for each index in turn; `none` for a record that there is not. -/
def updateApplicationIndexes (id : ObjectKey) (old replacement : Option ApplicationSummary) : SnapshotEditor :=
  { e with session := groupingIndexes.foldl (fun s n =>
      s.sync n ((old.map (fun a => indexKeysForApplication a n)).getD [])
        ((replacement.map (fun a => indexKeysForApplication a n)).getD []) id) e.session }

def addSearchDocument (id : ObjectKey) : SnapshotEditor :=
  let e := e.ensureSearchDocuments.write .searchDocuments id (some (searchDocument u id))
  { e with session := e.session.mutateAll .trigrams (searchKeys u id) id true }

def deleteSearchDocument (id : ObjectKey) : SnapshotEditor :=
  let trigrams :=
    match e.next.searchDocuments.lookup id with
    | some document => document.trigrams
    | none => trigramSet (normalizeText u id.name.toList)
  let e := e.ensureSearchDocuments.write .searchDocuments id none
  { e with session := e.session.mutateAll .trigrams trigrams id false }

def upsertApplication (summary : ApplicationSummary) : SnapshotEditor :=
  let id := summary.identity
  let old := e.next.applications.lookup id
  if old = some summary then e
  else
    let e := e.ensureApplications
    let e := e.updateApplicationIndexes id old (some summary)
    let e := e.write .applications id (some summary)
    let e := e.ensureSourceBindings
    let e := e.write .sourceBindings id (bindingsOf summary)
    let e := e.touch .applications id
    if old = none then e.addSearchDocument u id else e

def deleteApplication (id : ObjectKey) : SnapshotEditor :=
  match e.next.applications.lookup id with
  | none => e
  | some old =>
    let e := e.ensureApplications
    let e := e.updateApplicationIndexes id (some old) none
    let e := e.write .applications id none
    let e := e.ensureSourceBindings
    let e := e.write .sourceBindings id none
    let e := e.touch .applications id
    e.deleteSearchDocument u id

instance instDecidableEqValue : (t : TableName) → DecidableEq t.Value
  | .applications => inferInstanceAs (DecidableEq ApplicationSummary)
  | .projects => inferInstanceAs (DecidableEq ProjectSummary)
  | .repositories => inferInstanceAs (DecidableEq RepositorySummary)
  | .clusters => inferInstanceAs (DecidableEq ClusterSummary)
  | .sources => inferInstanceAs (DecidableEq SourceSummary)
  | .searchDocuments => inferInstanceAs (DecidableEq SearchDocument)
  | .sourceBindings => inferInstanceAs (DecidableEq (List ObjectKey))

/-- Write a record unless it is there already. -/
def upsertRecord (t : TableName) (key : ObjectKey) (summary : t.Value) : SnapshotEditor :=
  if (e.next.maps.table t).lookup key = some summary then e
  else ((e.ensureTable t).write t key (some summary)).touch t key

def deleteRecord (t : TableName) (key : ObjectKey) : SnapshotEditor :=
  if (e.next.maps.table t).lookup key = none then e else ((e.ensureTable t).write t key none).touch t key

def upsertProject (summary : ProjectSummary) : SnapshotEditor := e.upsertRecord .projects summary.identity summary
def deleteProject (key : ObjectKey) : SnapshotEditor := e.deleteRecord .projects key
def upsertRepository (summary : RepositorySummary) : SnapshotEditor :=
  e.upsertRecord .repositories summary.identity summary
def deleteRepository (key : ObjectKey) : SnapshotEditor := e.deleteRecord .repositories key
def upsertCluster (summary : ClusterSummary) : SnapshotEditor := e.upsertRecord .clusters summary.identity summary
def deleteCluster (key : ObjectKey) : SnapshotEditor := e.deleteRecord .clusters key
def upsertSource (summary : SourceSummary) : SnapshotEditor := e.upsertRecord .sources summary.identity summary
def deleteSource (key : ObjectKey) : SnapshotEditor := e.deleteRecord .sources key

/-! ### Sealing -/

/-- A touched record is kept under its own identity. -/
def touchedIdentities (t : TableName) (identity : t.Value → ObjectKey) (message : String) : Except String Unit :=
  if (sortedIDs (e.touched t)).any (fun key =>
      ((e.next.maps.table t).lookup key).any (fun x => identity x != key)) then .error message
  else .ok ()

def validateTouchedApplication (id : ObjectKey) : Except String Unit :=
  match e.next.applications.lookup id with
  | some a =>
    if a.identity ≠ id then .error "fleet snapshot application identity is inconsistent"
    else if (e.next.sourceBindings.lookup id).getD [] ≠ a.observabilityBindings then
      .error "fleet snapshot application source bindings are inconsistent"
    else .ok ()
  | none =>
    if id ∈ e.next.sourceBindings then .error "fleet snapshot source bindings contain an unknown application"
    else .ok ()

def validateTouchedIdentities : Except String Unit := do
  (sortedIDs (e.touched .applications)).forM e.validateTouchedApplication
  e.touchedIdentities .projects ProjectSummary.identity "fleet snapshot project identity is inconsistent"
  e.touchedIdentities .repositories RepositorySummary.identity "fleet snapshot repository identity is inconsistent"
  e.touchedIdentities .clusters ClusterSummary.identity "fleet snapshot cluster identity is inconsistent"
  e.touchedIdentities .sources SourceSummary.identity "fleet snapshot source identity is inconsistent"

def touchedIndexContainsUnknownApplication (n : IndexName) : Bool :=
  decide (∃ k ∈ e.session.touched n, ∃ id ∈ posting (e.next.maps.index n) k, id ∉ e.next.applications)

def validateTouched : Except String Unit := do
  e.validateTouchedIdentities
  if (groupingIndexes ++ [IndexName.trigrams]).any e.touchedIndexContainsUnknownApplication then
    .error "fleet snapshot touched index contains an unknown application"

/-- `seal`: the cells of the next snapshot, once it is valid. -/
def sealNext (generation : Nat) : Except String SnapshotRef := do
  e.validateTouched
  return { generation := generation, refs := e.session.refs }

end SnapshotEditor

open SnapshotEditor

/-- What callers do to an editor. -/
inductive Edit
  | upsertApplication (summary : ApplicationSummary)
  | deleteApplication (id : ObjectKey)
  | upsertProject (summary : ProjectSummary)
  | deleteProject (key : ObjectKey)
  | upsertRepository (summary : RepositorySummary)
  | deleteRepository (key : ObjectKey)
  | upsertCluster (summary : ClusterSummary)
  | deleteCluster (key : ObjectKey)
  | upsertSource (summary : SourceSummary)
  | deleteSource (key : ObjectKey)

def SnapshotEditor.edit (u : Unicode) (e : SnapshotEditor) : Edit → SnapshotEditor
  | .upsertApplication summary => e.upsertApplication u summary
  | .deleteApplication id => e.deleteApplication u id
  | .upsertProject summary => e.upsertProject summary
  | .deleteProject key => e.deleteProject key
  | .upsertRepository summary => e.upsertRepository summary
  | .deleteRepository key => e.deleteRepository key
  | .upsertCluster summary => e.upsertCluster summary
  | .deleteCluster key => e.deleteCluster key
  | .upsertSource summary => e.upsertSource summary
  | .deleteSource key => e.deleteSource key

/-! ### Plain snapshots -/

/-- What editing an application does to a plain snapshot; `none` deletes it. -/
def Snapshot.putApplication (u : Unicode) (s : Snapshot) (id : ObjectKey) (x : Option ApplicationSummary) : Snapshot :=
  { s with maps :=
      { index := fun n =>
          syncKeys (s.maps.index n) (keysOf (indexKeys u n) s.applications id) ((x.map (indexKeys u n id)).getD []) id
        table := fun t =>
          match t with
          | .applications => put s.applications id x
          | .sourceBindings => put s.sourceBindings id (x.bind bindingsOf)
          | .searchDocuments => put s.searchDocuments id (x.map (fun _ => searchDocument u id))
          | t => s.maps.table t } }

def Snapshot.putRecord (s : Snapshot) (t : TableName) (key : ObjectKey) (x : Option t.Value) : Snapshot :=
  s.setTable t (put (s.maps.table t) key x)

variable {t : TableName}

section
variable {u : Unicode} {s : Snapshot}

section
variable (id : ObjectKey) (x : Option ApplicationSummary)
include id x

@[simp] theorem applications_putApplication : (s.putApplication u id x).applications = put s.applications id x := rfl

@[simp] theorem searchDocuments_putApplication :
    (s.putApplication u id x).searchDocuments = put s.searchDocuments id (x.map (fun _ => searchDocument u id)) := rfl

@[simp] theorem sourceBindings_putApplication :
    (s.putApplication u id x).sourceBindings = put s.sourceBindings id (x.bind bindingsOf) := rfl
end

theorem Snapshot.Exact.putApplication (h : s.Exact u) {id : ObjectKey} {x : Option ApplicationSummary}
    (hid : ∀ a, x = some a → a.identity = id) : (s.putApplication u id x).Exact u := by
  refine ⟨?_, ?_, ?_, ?_⟩
  · intro j a ha
    rw [applications_putApplication, lookup_put] at ha
    by_cases hj : j = id
    · rw [if_pos hj] at ha
      rw [hj]
      exact hid a ha
    · rw [if_neg hj] at ha
      exact h.identities j a ha
  · intro n
    exact (h.index n).put id x
  · intro j
    rw [searchDocuments_putApplication, applications_putApplication, lookup_put, lookup_put]
    by_cases hj : j = id
    · rw [if_pos hj, if_pos hj, hj]
    · rw [if_neg hj, if_neg hj, h.documents]
  · intro j
    rw [sourceBindings_putApplication, applications_putApplication, lookup_put, lookup_put]
    by_cases hj : j = id
    · rw [if_pos hj, if_pos hj]
    · rw [if_neg hj, if_neg hj, h.bindings]

theorem Snapshot.Exact.putApplication_self (h : s.Exact u) (id : ObjectKey) :
    s.putApplication u id (s.applications.lookup id) = s := by
  have hsame : (s.putApplication u id (s.applications.lookup id)).SameRecords s := by
    refine ⟨rfl, ?_, rfl, rfl, rfl, rfl⟩
    exact put_self rfl
  exact (h.putApplication (fun a ha => h.identities id a ha)).unique h hsame

theorem table_putRecord (t : TableName) (key : ObjectKey) (x : Option t.Value) :
    (s.putRecord t key x).maps.table = Function.update s.maps.table t (put (s.maps.table t) key x) := rfl

theorem Snapshot.Exact.putRecord (h : s.Exact u) (ht : t.IsPlain) (key : ObjectKey)
    (x : Option t.Value) : (s.putRecord t key x).Exact u := by
  have hother : ∀ t', t' ≠ t → (s.putRecord t key x).maps.table t' = s.maps.table t' :=
    fun t' hne => update_of_ne hne ..
  have hkeep : (s.putRecord t key x).applications = s.applications ∧
      (s.putRecord t key x).searchDocuments = s.searchDocuments ∧
      (s.putRecord t key x).sourceBindings = s.sourceBindings := by
    obtain rfl | rfl | rfl | rfl := ht
    · exact ⟨hother _ (by decide), hother _ (by decide), hother _ (by decide)⟩
    · exact ⟨hother _ (by decide), hother _ (by decide), hother _ (by decide)⟩
    · exact ⟨hother _ (by decide), hother _ (by decide), hother _ (by decide)⟩
    · exact ⟨hother _ (by decide), hother _ (by decide), hother _ (by decide)⟩
  obtain ⟨happs, hdocs, hbind⟩ := hkeep
  refine ⟨?_, ?_, ?_, ?_⟩
  · rw [happs]
    exact h.identities
  · rw [happs]
    exact h.index
  · rw [happs, hdocs]
    exact h.documents
  · rw [happs, hbind]
    exact h.bindings

theorem Snapshot.putRecord_self (key : ObjectKey) : s.putRecord t key ((s.maps.table t).lookup key) = s := by
  rw [Snapshot.putRecord, put_self rfl, Snapshot.setTable, update_eq_self]
end

/-! ### The editor refines the plain operations -/

section
variable {u : Unicode} {h : SnapshotHeap} {e : SnapshotEditor}

/-- The editor writes to its own cells, and what it has made is exact. -/
structure SnapshotEditor.Inv (u : Unicode) (h : SnapshotHeap) (e : SnapshotEditor) : Prop where
  owned : e.session.Owned h (fun _ => True)
  exact : e.next.Exact u

theorem foldl_sync (old new : (n : IndexName) → List n.Key) (id : ObjectKey) (ns : List IndexName) :
    ∀ {s : EditorSession}, s.Owned h (fun _ => True) → ns.Nodup →
      let s' := ns.foldl (fun s n => s.sync n (old n) (new n) id) s
      s'.Owned h (fun _ => True) ∧ s'.tableCloned = s.tableCloned ∧ s'.view.table = s.view.table ∧
        ∀ n, s'.view.index n = if n ∈ ns then syncKeys (s.view.index n) (old n) (new n) id else s.view.index n := by
  induction ns with
  | nil =>
    intro s hs _
    refine ⟨hs, rfl, rfl, ?_⟩
    intro n
    rw [if_neg (by simp)]
    rfl
  | cons m ns ih =>
    intro s hs hdist
    rw [List.nodup_cons] at hdist
    obtain ⟨hsynced, hview⟩ := hs.sync m (old m) (new m) id
    obtain ⟨howned, hcloned, htable, hindex⟩ := ih hsynced hdist.2
    refine ⟨howned, hcloned.trans (tableCloned_sync ..), htable.trans (by rw [hview]), ?_⟩
    intro n
    refine (hindex n).trans ?_
    have hn : (s.sync m (old m) (new m) id).view.index n =
        update s.view.index m (syncKeys (s.view.index m) (old m) (new m) id) n := by
      rw [hview]
    rw [hn]
    by_cases heq : n = m
    · subst heq
      rw [if_neg hdist.1, if_pos List.mem_cons_self, update_self]
    · rw [update_of_ne heq]
      simp [heq]

theorem SnapshotEditor.write_spec (howned : e.session.Owned h (fun _ => True)) (key : ObjectKey)
    (x : Option t.Value) :
    ((e.ensureTable t).write t key x).session.Owned h (fun _ => True) ∧
      ((e.ensureTable t).write t key x).next = e.next.putRecord t key x := by
  obtain ⟨hensured, hview, hcloned⟩ := howned.ensureTable t
  obtain ⟨hwrote, hview'⟩ := hensured.writeTable hcloned (fun m => put m key x)
  refine ⟨hwrote, ?_⟩
  show Snapshot.mk e.generation _ = _
  rw [show ((e.ensureTable t).write t key x).session.view = _ from hview', hview]
  rfl

/-- The part that `upsertApplication` and `deleteApplication` share. -/
def SnapshotEditor.replaceApplication (e : SnapshotEditor) (id : ObjectKey) (old x : Option ApplicationSummary) :
    SnapshotEditor :=
  ((((e.ensureApplications.updateApplicationIndexes id old x).write .applications id x).ensureSourceBindings.write
    .sourceBindings id (x.bind bindingsOf)).touch .applications id)

theorem SnapshotEditor.replaceApplication_spec (howned : e.session.Owned h (fun _ => True)) (id : ObjectKey)
    (old x : Option ApplicationSummary) :
    (e.replaceApplication id old x).session.Owned h (fun _ => True) ∧
      (e.replaceApplication id old x).generation = e.generation ∧
      (∀ n, n ≠ .trigrams → (e.replaceApplication id old x).next.maps.index n =
        syncKeys (e.next.maps.index n) ((old.map (fun a => indexKeysForApplication a n)).getD [])
          ((x.map (fun a => indexKeysForApplication a n)).getD []) id) ∧
      (e.replaceApplication id old x).next.maps.index .trigrams = e.next.maps.index .trigrams ∧
      (e.replaceApplication id old x).next.maps.table =
        Function.update (Function.update e.next.maps.table .applications (put e.next.applications id x))
          .sourceBindings (put e.next.sourceBindings id (x.bind bindingsOf)) := by
  obtain ⟨hensured, hview, hcloned⟩ := howned.ensureTable .applications
  obtain ⟨hsynced, hcloned', htable, hindex⟩ :=
    foldl_sync (fun n => (old.map (fun a => indexKeysForApplication a n)).getD [])
      (fun n => (x.map (fun a => indexKeysForApplication a n)).getD []) id groupingIndexes hensured
      (by decide)
  obtain ⟨hwrote, hview'⟩ := hsynced.writeTable (t := .applications)
    ((congrFun hcloned' TableName.applications).trans hcloned) (fun m => put m id x)
  obtain ⟨hbound, hnext⟩ := write_spec
    (e := (e.ensureApplications.updateApplicationIndexes id old x).write .applications id x) hwrote
    (t := .sourceBindings) id (x.bind bindingsOf)
  -- the maps before the bindings are written
  have hpre : ((e.ensureApplications.updateApplicationIndexes id old x).write .applications id x).next.maps.table =
      update e.next.maps.table .applications (put e.next.applications id x) := by
    refine (congrArg Contents.table hview').trans ?_
    dsimp only
    rw [htable, hview]
    rfl
  have hbefore' : ∀ n, ((e.ensureApplications.updateApplicationIndexes id old x).write .applications id x).next.maps.index n
      = if n ∈ groupingIndexes then
          syncKeys (e.next.maps.index n) ((old.map (fun a => indexKeysForApplication a n)).getD [])
            ((x.map (fun a => indexKeysForApplication a n)).getD []) id
        else e.next.maps.index n := by
    intro n
    refine (congrArg (fun c => Contents.index c n) hview').trans ?_
    refine (hindex n).trans ?_
    rw [hview]
    rfl
  have hmaps : (e.replaceApplication id old x).next.maps.table =
      (((e.ensureApplications.updateApplicationIndexes id old x).write .applications id x).next.putRecord
        .sourceBindings id (x.bind bindingsOf)).maps.table := congrArg (fun s => s.maps.table) hnext
  have hmaps' : ∀ n, (e.replaceApplication id old x).next.maps.index n =
      ((e.ensureApplications.updateApplicationIndexes id old x).write .applications id x).next.maps.index n :=
    fun n => congrArg (fun s => s.maps.index n) hnext
  refine ⟨hbound, rfl, ?_, ?_, ?_⟩
  · intro n hn
    rw [hmaps', hbefore', if_pos]
    cases n with
    | trigrams => exact absurd rfl hn
    | _ => decide
  · rw [hmaps', hbefore', if_neg (by decide)]
  · rw [hmaps, table_putRecord, hpre]
    rfl

theorem table_putApplication (s : Snapshot) (id : ObjectKey) (x : Option ApplicationSummary) :
    (s.putApplication u id x).maps.table =
      Function.update (Function.update (Function.update s.maps.table .applications (put s.applications id x))
        .sourceBindings (put s.sourceBindings id (x.bind bindingsOf)))
        .searchDocuments (put s.searchDocuments id (x.map (fun _ => searchDocument u id))) := by
  funext t
  cases t <;> rfl

theorem index_putApplication {s : Snapshot} {n : IndexName} (hn : n ≠ .trigrams) (id : ObjectKey)
    (x : Option ApplicationSummary) :
    (s.putApplication u id x).maps.index n =
      syncKeys (s.maps.index n) (((s.applications.lookup id).map (fun a => indexKeysForApplication a n)).getD [])
        ((x.map (fun a => indexKeysForApplication a n)).getD []) id := by
  have hkeys : indexKeys u n = fun _ a => indexKeysForApplication a n := by
    funext j a
    exact indexKeys_of_ne hn j a
  show syncKeys (s.maps.index n) (keysOf (indexKeys u n) s.applications id) _ id = _
  rw [keysOf, hkeys]

theorem SnapshotEditor.next_eq {s : Snapshot} (hgen : e.generation = s.generation)
    (hindex : ∀ n, e.next.maps.index n = s.maps.index n) (htable : e.next.maps.table = s.maps.table) : e.next = s := by
  cases s
  have hmaps := Contents.ext (funext hindex) htable
  exact congrArg₂ Snapshot.mk hgen hmaps

theorem SnapshotEditor.searchDocument_spec (howned : e.session.Owned h (fun _ => True)) (id : ObjectKey)
    (document : Option SearchDocument) (keys : List IndexName.trigrams.Key) (add : Bool) {e' : SnapshotEditor}
    (he' : e' = { e.ensureSearchDocuments.write .searchDocuments id document with
      session := (e.ensureSearchDocuments.write .searchDocuments id document).session.mutateAll .trigrams keys id add }) :
    e'.session.Owned h (fun _ => True) ∧ e'.generation = e.generation ∧
      (∀ n, n ≠ .trigrams → e'.next.maps.index n = e.next.maps.index n) ∧
      e'.next.maps.index .trigrams = (if add then addKeys (e.next.maps.index .trigrams) keys id
        else removeKeys (e.next.maps.index .trigrams) keys id) ∧
      e'.next.maps.table = update e.next.maps.table .searchDocuments (put e.next.searchDocuments id document) := by
  obtain ⟨hdoc, hnext⟩ := write_spec howned (t := .searchDocuments) id document
  obtain ⟨hadded, hview⟩ := hdoc.mutateAll .trigrams keys id add
  have hmaps : e'.next.maps = { (e.next.putRecord .searchDocuments id document).maps with
      index := update e.next.maps.index .trigrams
        (if add then addKeys (e.next.maps.index .trigrams) keys id
          else removeKeys (e.next.maps.index .trigrams) keys id) } := by
    rw [he']
    refine hview.trans ?_
    have hwrote : (e.ensureSearchDocuments.write .searchDocuments id document).session.view =
      (e.next.putRecord .searchDocuments id document).maps := congrArg Snapshot.maps hnext
    rw [show ((e.ensureTable .searchDocuments).write .searchDocuments id document).session.view = _ from hwrote]
    rfl
  rw [hmaps]
  refine ⟨?_, ?_, ?_, ?_, rfl⟩
  · rw [he']
    exact hadded
  · rw [he']
    rfl
  · intro n hn
    exact update_of_ne hn ..
  · exact update_self IndexName.trigrams _ e.next.maps.index

theorem SnapshotEditor.upsertApplication_eq (summary : ApplicationSummary) : e.upsertApplication u summary =
      if e.next.applications.lookup summary.identity = some summary then e
      else if e.next.applications.lookup summary.identity = none then
        (e.replaceApplication summary.identity (e.next.applications.lookup summary.identity)
          (some summary)).addSearchDocument u summary.identity
      else e.replaceApplication summary.identity (e.next.applications.lookup summary.identity) (some summary) := rfl

theorem SnapshotEditor.deleteApplication_eq {id : ObjectKey} {old : ApplicationSummary}
    (hold : e.next.applications.lookup id = some old) :
    e.deleteApplication u id = (e.replaceApplication id (some old) none).deleteSearchDocument u id := by
  rw [deleteApplication, hold]
  rfl

theorem keysOf_eq (u : Unicode) (s : Snapshot) (id : ObjectKey) {old : Option ApplicationSummary}
    (hold : s.applications.lookup id = old) :
    keysOf (indexKeys u .trigrams) s.applications id = if old = none then [] else searchKeys u id := by
  rw [keysOf, hold]
  cases old with
  | none => rfl
  | some a => rfl

theorem SnapshotEditor.upsertApplication_spec (hinv : e.Inv u h) (summary : ApplicationSummary) :
    (e.upsertApplication u summary).Inv u h ∧
      (e.upsertApplication u summary).next = e.next.putApplication u summary.identity (some summary) := by
  have hexact : (e.next.putApplication u summary.identity (some summary)).Exact u :=
    hinv.exact.putApplication (fun a ha => by rw [some.inj ha])
  suffices hspec : (e.upsertApplication u summary).session.Owned h (fun _ => True) ∧
      (e.upsertApplication u summary).next = e.next.putApplication u summary.identity (some summary) by
    exact ⟨⟨hspec.1, hspec.2 ▸ hexact⟩, hspec.2⟩
  rw [upsertApplication_eq]
  by_cases hsame : e.next.applications.lookup summary.identity = some summary
  · rw [if_pos hsame, ← hsame, hinv.exact.putApplication_self]
    exact ⟨hinv.owned, rfl⟩
  rw [if_neg hsame]
  obtain ⟨howned, hgen, hindex, htrigrams, htable⟩ := replaceApplication_spec hinv.owned
    summary.identity (e.next.applications.lookup summary.identity) (some summary)
  have hkeys := keysOf_eq u e.next summary.identity rfl
  have hput : (e.next.putApplication u summary.identity (some summary)).maps.index .trigrams =
      syncKeys (e.next.maps.index .trigrams) (keysOf (indexKeys u .trigrams) e.next.applications summary.identity)
        (searchKeys u summary.identity) summary.identity := rfl
  by_cases hold : e.next.applications.lookup summary.identity = none
  · rw [if_pos hold]
    obtain ⟨howned', hgeneration', hindex', htrigrams', htable'⟩ := searchDocument_spec howned
      summary.identity (some (searchDocument u summary.identity)) (searchKeys u summary.identity) true rfl
    refine ⟨howned', next_eq (hgeneration'.trans hgen) ?_ ?_⟩
    · intro n
      by_cases hn : n = .trigrams
      · subst hn
        rw [hput, hkeys, if_pos hold, syncKeys_nil_left]
        refine htrigrams'.trans ?_
        rw [if_pos rfl, htrigrams]
      · rw [index_putApplication hn]
        exact (hindex' n hn).trans (hindex n hn)
    · rw [table_putApplication]
      refine htable'.trans ?_
      rw [Snapshot.searchDocuments, htable]
      rfl
  · rw [if_neg hold]
    refine ⟨howned, next_eq hgen ?_ ?_⟩
    · intro n
      by_cases hn : n = .trigrams
      · subst hn
        rw [hput, hkeys, if_neg hold, syncKeys_self]
        exact htrigrams
      · rw [index_putApplication hn]
        exact hindex n hn
    · -- the document is there already
      have hdoc : e.next.searchDocuments.lookup summary.identity = some (searchDocument u summary.identity) := by
        obtain ⟨a, ha⟩ := ne_none_iff_exists'.mp hold
        rw [hinv.exact.documents, ha]
        rfl
      rw [table_putApplication, htable]
      funext t
      by_cases ht : t = .searchDocuments
      · subst ht
        rw [update_self]
        exact (put_self hdoc).symm
      · rw [update_of_ne ht]

theorem SnapshotEditor.deleteApplication_spec (hinv : e.Inv u h) (id : ObjectKey) :
    (e.deleteApplication u id).Inv u h ∧ (e.deleteApplication u id).next = e.next.putApplication u id none := by
  have hexact : (e.next.putApplication u id none).Exact u := hinv.exact.putApplication (fun a ha => by cases ha)
  suffices hspec : (e.deleteApplication u id).session.Owned h (fun _ => True) ∧
      (e.deleteApplication u id).next = e.next.putApplication u id none by
    exact ⟨⟨hspec.1, hspec.2 ▸ hexact⟩, hspec.2⟩
  cases hold : e.next.applications.lookup id with
  | none =>
    have hself := hinv.exact.putApplication_self id
    rw [hold] at hself
    rw [deleteApplication, hold, hself]
    exact ⟨hinv.owned, rfl⟩
  | some old =>
  rw [deleteApplication_eq hold]
  obtain ⟨howned, hgen, hindex, htrigrams, htable⟩ :=
    replaceApplication_spec hinv.owned id (some old) none
  have hdoc : (e.replaceApplication id (some old) none).next.searchDocuments.lookup id =
      some (searchDocument u id) := by
    rw [Snapshot.searchDocuments, htable]
    refine (hinv.exact.documents id).trans ?_
    rw [hold]
    rfl
  have hdelete : (e.replaceApplication id (some old) none).deleteSearchDocument u id =
      { (e.replaceApplication id (some old) none).ensureSearchDocuments.write .searchDocuments id none with
        session := ((e.replaceApplication id (some old) none).ensureSearchDocuments.write .searchDocuments id
          none).session.mutateAll .trigrams (searchKeys u id) id false } := by
    rw [deleteSearchDocument, hdoc]
    rfl
  obtain ⟨howned', hgeneration', hindex', htrigrams', htable'⟩ :=
    searchDocument_spec howned id none (searchKeys u id) false hdelete
  have hkeys := keysOf_eq u e.next id hold
  refine ⟨howned', next_eq (hgeneration'.trans hgen) ?_ ?_⟩
  · intro n
    by_cases hn : n = .trigrams
    · subst hn
      refine htrigrams'.trans ?_
      rw [if_neg (by decide), htrigrams]
      show _ = syncKeys (e.next.maps.index .trigrams) (keysOf (indexKeys u .trigrams) e.next.applications id) [] id
      rw [hkeys, if_neg (by simp), syncKeys_nil_right]
    · rw [index_putApplication hn, hold]
      exact (hindex' n hn).trans (hindex n hn)
  · rw [table_putApplication]
    refine htable'.trans ?_
    rw [Snapshot.searchDocuments, htable]
    rfl
end

/-! ### Runs of edits -/

def Snapshot.edit (u : Unicode) (s : Snapshot) : Edit → Snapshot
  | .upsertApplication summary => s.putApplication u summary.identity (some summary)
  | .deleteApplication id => s.putApplication u id none
  | .upsertProject summary => s.putRecord .projects summary.identity (some summary)
  | .deleteProject key => s.putRecord .projects key none
  | .upsertRepository summary => s.putRecord .repositories summary.identity (some summary)
  | .deleteRepository key => s.putRecord .repositories key none
  | .upsertCluster summary => s.putRecord .clusters summary.identity (some summary)
  | .deleteCluster key => s.putRecord .clusters key none
  | .upsertSource summary => s.putRecord .sources summary.identity (some summary)
  | .deleteSource key => s.putRecord .sources key none

section
variable {u : Unicode} {h : SnapshotHeap} {e : SnapshotEditor}

theorem SnapshotEditor.upsertRecord_spec (hinv : e.Inv u h) (ht : t.IsPlain) (key : ObjectKey)
    (summary : t.Value) :
    (e.upsertRecord t key summary).Inv u h ∧ (e.upsertRecord t key summary).next = e.next.putRecord t key (some summary) := by
  rw [upsertRecord]
  by_cases hsame : (e.next.maps.table t).lookup key = some summary
  · rw [if_pos hsame, ← hsame, Snapshot.putRecord_self]
    exact ⟨hinv, rfl⟩
  obtain ⟨howned, hnext⟩ := write_spec hinv.owned key (some summary)
  rw [if_neg hsame]
  refine ⟨⟨howned, ?_⟩, hnext⟩
  show ((e.ensureTable t).write t key (some summary)).next.Exact u
  rw [hnext]
  exact hinv.exact.putRecord ht key (some summary)

theorem SnapshotEditor.deleteRecord_spec (hinv : e.Inv u h) (ht : t.IsPlain) (key : ObjectKey) :
    (e.deleteRecord t key).Inv u h ∧ (e.deleteRecord t key).next = e.next.putRecord t key none := by
  rw [deleteRecord]
  by_cases hnone : (e.next.maps.table t).lookup key = none
  · rw [if_pos hnone, ← hnone, Snapshot.putRecord_self]
    exact ⟨hinv, rfl⟩
  obtain ⟨howned, hnext⟩ := write_spec hinv.owned key none
  rw [if_neg hnone]
  refine ⟨⟨howned, ?_⟩, hnext⟩
  show ((e.ensureTable t).write t key none).next.Exact u
  rw [hnext]
  exact hinv.exact.putRecord ht key none

/-- **The editor refines the plain edits.** -/
theorem SnapshotEditor.edit_spec (hinv : e.Inv u h) (edit : Edit) :
    (e.edit u edit).Inv u h ∧ (e.edit u edit).next = e.next.edit u edit := by
  cases edit with
  | upsertApplication summary => exact upsertApplication_spec hinv summary
  | deleteApplication id => exact deleteApplication_spec hinv id
  | upsertProject summary => exact upsertRecord_spec hinv (.inl rfl) _ _
  | deleteProject key => exact deleteRecord_spec hinv (.inl rfl) key
  | upsertRepository summary => exact upsertRecord_spec hinv (.inr (.inl rfl)) _ _
  | deleteRepository key => exact deleteRecord_spec hinv (.inr (.inl rfl)) key
  | upsertCluster summary => exact upsertRecord_spec hinv (.inr (.inr (.inl rfl))) _ _
  | deleteCluster key => exact deleteRecord_spec hinv (.inr (.inr (.inl rfl))) key
  | upsertSource summary => exact upsertRecord_spec hinv (.inr (.inr (.inr rfl))) _ _
  | deleteSource key => exact deleteRecord_spec hinv (.inr (.inr (.inr rfl))) key

theorem SnapshotEditor.run_edit (edits : List Edit) : ∀ {e : SnapshotEditor}, e.Inv u h →
    (run (edit u) e edits).Inv u h ∧
      (run (edit u) e edits).next = run (Snapshot.edit u) e.next edits := by
  induction edits with
  | nil => exact fun hinv => ⟨hinv, rfl⟩
  | cons edit edits ih =>
    intro e hinv
    obtain ⟨hinv', hnext⟩ := edit_spec hinv edit
    obtain ⟨hfinal, hrun⟩ := ih hinv'
    rw [hnext] at hrun
    exact ⟨hfinal, hrun⟩

theorem SnapshotEditor.inv_newSnapshotEditor {base : SnapshotRef} (hbase : h.Allocated base.refs)
    (hexact : (h.snapshot base).Exact u) : (newSnapshotEditor h base).Inv u h :=
  ⟨owned_start hbase, hexact⟩

theorem put_keyed {α : Type} {identity : α → ObjectKey} {m : Table ObjectKey α} (key : ObjectKey) (x : Option α)
    (hm : ∀ j y, m.lookup j = some y → identity y = j) (hx : ∀ y, x = some y → identity y = key) :
    ∀ j y, (put m key x).lookup j = some y → identity y = j := by
  intro j y hy
  rw [lookup_put] at hy
  by_cases hj : j = key
  · rw [if_pos hj] at hy
    rw [hj]
    exact hx y hy
  · rw [if_neg hj] at hy
    exact hm j y hy

theorem Snapshot.Keyed.edit {s : Snapshot} (hs : s.Keyed) (edit : Edit) : (s.edit u edit).Keyed := by
  obtain ⟨hprojects, hrepos, hclus, hsources⟩ := hs
  cases edit with
  | upsertApplication summary => exact ⟨hprojects, hrepos, hclus, hsources⟩
  | deleteApplication id => exact ⟨hprojects, hrepos, hclus, hsources⟩
  | upsertProject summary =>
    have hput := put_keyed summary.identity (some summary) hprojects (by rintro _ ⟨⟩; rfl)
    exact ⟨hput, hrepos, hclus, hsources⟩
  | deleteProject key =>
    have hput := put_keyed key none hprojects (by rintro _ ⟨⟩)
    exact ⟨hput, hrepos, hclus, hsources⟩
  | upsertRepository summary =>
    have hput := put_keyed summary.identity (some summary) hrepos (by rintro _ ⟨⟩; rfl)
    exact ⟨hprojects, hput, hclus, hsources⟩
  | deleteRepository key =>
    have hput := put_keyed key none hrepos (by rintro _ ⟨⟩)
    exact ⟨hprojects, hput, hclus, hsources⟩
  | upsertCluster summary =>
    have hput := put_keyed summary.identity (some summary) hclus (by rintro _ ⟨⟩; rfl)
    exact ⟨hprojects, hrepos, hput, hsources⟩
  | deleteCluster key =>
    have hput := put_keyed key none hclus (by rintro _ ⟨⟩)
    exact ⟨hprojects, hrepos, hput, hsources⟩
  | upsertSource summary =>
    have hput := put_keyed summary.identity (some summary) hsources (by rintro _ ⟨⟩; rfl)
    exact ⟨hprojects, hrepos, hclus, hput⟩
  | deleteSource key =>
    have hput := put_keyed key none hsources (by rintro _ ⟨⟩)
    exact ⟨hprojects, hrepos, hclus, hput⟩

theorem SnapshotEditor.touchedIdentities_ok {identity : t.Value → ObjectKey} {message : String}
    (hkeyed : ∀ key x, (e.next.maps.table t).lookup key = some x → identity x = key) :
    e.touchedIdentities t identity message = .ok () := by
  rw [touchedIdentities, if_neg]
  intro hany
  obtain ⟨key, -, hkey⟩ := List.any_eq_true.mp hany
  cases hlook : (e.next.maps.table t).lookup key with
  | none => simp [hlook] at hkey
  | some x => simp [hlook, hkeyed key x hlook] at hkey

theorem SnapshotEditor.validateTouchedApplication_ok (hexact : e.next.Exact u) (id : ObjectKey) :
    e.validateTouchedApplication id = .ok () := by
  rw [validateTouchedApplication]
  cases ha : e.next.applications.lookup id with
  | none =>
    have hnone : id ∉ e.next.sourceBindings := by
      rw [← Finmap.lookup_eq_none, hexact.bindings, ha]
      rfl
    simp [hnone]
  | some a =>
  have hid := hexact.identities id a ha
  have hbind : (e.next.sourceBindings.lookup id).getD [] = a.observabilityBindings := by
    rw [hexact.bindings, ha]
    exact getD_bindingsOf a
  simp [hid, hbind]

/-- **Sealing an exact snapshot succeeds.** -/
theorem SnapshotEditor.sealNext_ok (hexact : e.next.Exact u) (hkeyed : e.next.Keyed) (generation : Nat) :
    e.sealNext generation = .ok { generation := generation, refs := e.session.refs } := by
  have happs : (sortedIDs (e.touched .applications)).forM e.validateTouchedApplication = .ok () := by
    induction sortedIDs (e.touched .applications) with
    | nil => rfl
    | cons id ids ih =>
      show (do e.validateTouchedApplication id; ids.forM e.validateTouchedApplication) = .ok ()
      rw [validateTouchedApplication_ok hexact id]
      exact ih
  have hknown : (groupingIndexes ++ [IndexName.trigrams]).any e.touchedIndexContainsUnknownApplication = false := by
    rw [List.any_eq_false]
    intro n _
    rw [touchedIndexContainsUnknownApplication, decide_eq_true_iff]
    rintro ⟨k, -, id, hid, hunk⟩
    obtain ⟨a, ha, -⟩ := ((hexact.index n).mem k id).mp hid
    exact hunk (Finmap.mem_of_lookup_eq_some ha)
  simp only [sealNext, validateTouched, validateTouchedIdentities,
    happs, hknown, touchedIdentities_ok (t := .projects) hkeyed.projects,
    touchedIdentities_ok (t := .repositories) hkeyed.repositories,
    touchedIdentities_ok (t := .clusters) hkeyed.clusters,
    touchedIdentities_ok (t := .sources) hkeyed.sources]
  rfl

/-- A builder with the projects, repositories, clusters and sources of a snapshot, and no application. -/
def Snapshot.withoutApplications (s : Snapshot) : Snapshot :=
  ((((newSnapshot s.generation).setTable .projects s.projects).setTable .repositories s.repositories).setTable
    .clusters s.clusters).setTable .sources s.sources

theorem Snapshot.Exact.eq_build {s : Snapshot} (hs : s.Exact u) {records : List ApplicationSummary}
    (hdist : (records.map ApplicationSummary.identity).Nodup)
    (hrecs : ∀ a, a ∈ records ↔ s.applications.lookup a.identity = some a) :
    s = rebuildSearchIndex u (records.foldl addApplicationMutable s.withoutApplications) := by
  have hnew := grouped_newSnapshot s.generation
  have hempty : s.withoutApplications.Grouped := ⟨hnew.identities, hnew.index, hnew.bindings⟩
  have hkeep := foldl_addApplicationMutable records s.withoutApplications
  obtain ⟨hgrouped, hlookup⟩ := hempty.addAll hdist (fun _ _ => rfl)
  obtain ⟨hexact, hsame⟩ := hgrouped.rebuildSearchIndex (u := u)
  have happs : (records.foldl addApplicationMutable s.withoutApplications).applications = s.applications := by
    apply Finmap.ext_lookup
    intro id
    apply ext
    intro a
    rw [hlookup]
    constructor
    · rintro (⟨ha, rfl⟩ | hnone)
      · exact (hrecs a).mp ha
      · cases hnone
    · intro ha
      have hid := hs.identities id a ha
      exact .inl ⟨(hrecs a).mpr (by rw [hid, ha]), hid⟩
  refine hs.unique hexact ⟨?_, ?_, ?_, ?_, ?_, ?_⟩
  · exact hkeep.1.symm.trans hsame.generation.symm
  · exact happs.symm.trans hsame.applications.symm
  · exact (hkeep.2 .projects (.inl rfl)).symm.trans hsame.projects.symm
  · exact (hkeep.2 .repositories (.inr (.inl rfl))).symm.trans hsame.repositories.symm
  · exact (hkeep.2 .clusters (.inr (.inr (.inl rfl)))).symm.trans hsame.clusters.symm
  · exact (hkeep.2 .sources (.inr (.inr (.inr rfl)))).symm.trans hsame.sources.symm

/-- **Index integrity.**  After any edits of an exact snapshot the sealed snapshot is exact, it is the one that is built
from scratch of the same records, and the base reads as before. -/
theorem snapshot_index_integrity {base : SnapshotRef} (hbase : h.Allocated base.refs)
    (hexact : (h.snapshot base).Exact u) (hkeyed : (h.snapshot base).Keyed) (edits : List Edit) (generation : Nat) :
    ∃ sealedRef, (run (edit u) (newSnapshotEditor h base) edits).sealNext generation = .ok sealedRef ∧
      let heap : SnapshotHeap := (run (edit u) (newSnapshotEditor h base) edits).session.heap
      (heap.snapshot sealedRef).Exact u ∧
      (∀ n k, (sortedIDs (posting ((heap.snapshot sealedRef).maps.index n) k)).Pairwise (· < ·)) ∧
      (∀ records : List ApplicationSummary, (records.map ApplicationSummary.identity).Nodup →
        (∀ a, a ∈ records ↔ (heap.snapshot sealedRef).applications.lookup a.identity = some a) →
        heap.snapshot sealedRef = rebuildSearchIndex u
          (records.foldl addApplicationMutable (heap.snapshot sealedRef).withoutApplications)) ∧
      heap.snapshot base = h.snapshot base := by
  obtain ⟨hinv, hnext⟩ := run_edit edits (inv_newSnapshotEditor hbase hexact)
  have hkeyed' : (run (edit u) (newSnapshotEditor h base) edits).next.Keyed := by
    rw [hnext]
    exact run_invariant (Snapshot.edit u) (fun s edit hs => hs.edit edit) edits _ hkeyed
  have hfinal := hinv.exact
  refine ⟨_, sealNext_ok hfinal hkeyed' generation, ?_⟩
  intro heap
  have hsealed : (heap.snapshot { generation := generation
                                  refs := (run (edit u) (newSnapshotEditor h base) edits).session.refs }).Exact
      u := ⟨hfinal.identities, hfinal.index, hfinal.documents, hfinal.bindings⟩
  refine ⟨hsealed, ?_, ?_, ?_⟩
  · intro n k
    exact (Finset.sortedLT_sort _).pairwise
  · intro records hdistinct hrecords
    exact hsealed.eq_build hdistinct hrecords
  · exact congrArg (Snapshot.mk base.generation) (hinv.owned.view_base hbase)

/-! ### What the edits say -/

/-- What an edit says of an application: nothing, that it is gone, or its record. -/
def Edit.application (id : ObjectKey) : Edit → Option (Option ApplicationSummary)
  | .upsertApplication summary => if summary.identity = id then some (some summary) else none
  | .deleteApplication key => if key = id then some none else none
  | _ => none

theorem lookup_edit (s : Snapshot) (edit : Edit) (id : ObjectKey) :
    (s.edit u edit).applications.lookup id = (edit.application id).getD (s.applications.lookup id) := by
  cases edit with
  | upsertApplication summary =>
    show (put s.applications summary.identity (some summary)).lookup id = _
    rw [lookup_put, Edit.application]
    by_cases hid : id = summary.identity
    · rw [if_pos hid, if_pos hid.symm, getD_some]
    · rw [if_neg hid, if_neg (Ne.symm hid), getD_none]
  | deleteApplication key =>
    show (put s.applications key none).lookup id = _
    rw [lookup_put, Edit.application]
    by_cases hid : id = key
    · rw [if_pos hid, if_pos hid.symm, getD_some]
    · rw [if_neg hid, if_neg (Ne.symm hid), getD_none]
  | _ => rfl

theorem lookup_run_edit (s : Snapshot) (edits : List Edit) (id : ObjectKey) :
    (run (Snapshot.edit u) s edits).applications.lookup id =
      (edits.reverse.findSome? (Edit.application id)).getD (s.applications.lookup id) := by
  induction edits using List.reverseRecOn with
  | nil => rfl
  | append_singleton edits edit ih =>
    rw [run_append, run_cons, run_nil, lookup_edit, ih, List.reverse_concat, List.findSome?_cons]
    cases edit.application id <;> rfl

/-- A published snapshot that is exact. -/
structure Published (u : Unicode) where
  heap : SnapshotHeap
  base : SnapshotRef
  allocated : heap.Allocated base.refs
  exact : (heap.snapshot base).Exact u
  keyed : (heap.snapshot base).Keyed

end

/-! ### A first application -/

def emptyHeap : SnapshotHeap :=
  { indexes := fun _ _ => ∅, postings := fun _ => ∅, tables := fun _ _ => ∅, fresh := 1 }

def emptyBase : SnapshotRef := { generation := 1, refs := { index := fun _ => 0, table := fun _ => 0 } }

/-- The first application of an empty fleet, found again under its health. -/
theorem snapshot_index_integrity_first :
    ∃ sealedRef, (run (edit asciiUnicode) (newSnapshotEditor emptyHeap emptyBase)
        [.upsertApplication sampleApplication]).sealNext 2 = .ok sealedRef ∧
      let heap : SnapshotHeap := (run (edit asciiUnicode) (newSnapshotEditor emptyHeap emptyBase)
        [.upsertApplication sampleApplication]).session.heap
      (heap.snapshot sealedRef).Exact asciiUnicode ∧ heap.snapshot emptyBase = emptyHeap.snapshot emptyBase := by
  have hview : emptyHeap.snapshot emptyBase = newSnapshot 1 := by
    have hempty : ∀ n : IndexName, mapValues (fun _ : Nat => (∅ : IDSet)) (∅ : Table n.Key Nat) = ∅ := by
      intro n
      apply Finmap.ext_lookup
      intro k
      rw [lookup_mapValues, Finmap.lookup_empty, Finmap.lookup_empty]
      rfl
    exact congrArg (Snapshot.mk 1) (Contents.ext (funext hempty) rfl)
  have hallocated : emptyHeap.Allocated emptyBase.refs := by
    refine ⟨fun _ => Nat.zero_lt_one, fun _ => Nat.zero_lt_one, ?_⟩
    intro f k a ha
    have hnone : (∅ : Table f.Key Nat).lookup k = some a := ha
    rw [Finmap.lookup_empty] at hnone
    cases hnone
  have hexact : (emptyHeap.snapshot emptyBase).Exact asciiUnicode := by
    rw [hview]
    exact exact_newSnapshot 1
  have hkeyed : (emptyHeap.snapshot emptyBase).Keyed := by refine ⟨?_, ?_, ?_, ?_⟩ <;> (intro key x hx; cases hx)
  obtain ⟨sealedRef, hsealed, hfinal, -, -, hbase⟩ := snapshot_index_integrity (u := asciiUnicode) hallocated hexact
    hkeyed [.upsertApplication sampleApplication] 2
  exact ⟨sealedRef, hsealed, hfinal, hbase⟩

end Paprika.Fleet
