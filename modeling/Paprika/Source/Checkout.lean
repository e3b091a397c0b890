import Paprika.Lib.FileTree

/-!
# Checkouts

`checkout_guard.go` and `writeCheckout` of `gitcli_checkout.go`: the files of a git tree are written under a directory, and
no entry may leave it.  Paths are absolute; a path is its names, the innermost first.

* `writeCheckout` — from the source, with the system and the files before as parameters;
* `Progress` — what holds between entries;
* **`writeCheckout_confined`** — what a checkout adds, and where its links lead.
-/

namespace Paprika.Source

open Lib.FileTree List Option Except Kernel

/-! ### Paths -/

/-- A Go string. -/
abbrev Bytes := List UInt8

def slash : UInt8 := 47

def dot : UInt8 := 46

/-- `strings.Split(p, "/")` -/
def splitSlash (p : Bytes) : List Bytes := p.splitOn slash

def step (name : Bytes) : Step Bytes :=
  if name = [] ∨ name = [dot] then .here else if name = [dot, dot] then .up else .name name

def steps (p : Bytes) : List (Step Bytes) := (splitSlash p).map step

/-- `path.Clean` of a relative path: how many `..` are at its front, and the names after them, the innermost first. -/
def clean (path : List (Step Bytes)) : Nat × List Bytes :=
  path.foldl (fun s next =>
    match next, s with
    | .here, s => s
    | .up, (ups, []) => (ups + 1, [])
    | .up, (ups, _ :: names) => (ups, names)
    | .name n, (ups, names) => (ups, n :: names)) (0, [])

def isAbs (p : Bytes) : Bool := p.head? == some slash

def isLocal (p : Bytes) : Bool := !p.isEmpty && !isAbs p && (clean (steps p)).1 == 0

def lower (c : UInt8) : UInt8 := if 65 ≤ c ∧ c ≤ 90 then c + 32 else c

/-- `strings.EqualFold(name, ".git")` -/
def foldsToGit (name : Bytes) : Bool := name.map lower == [46, 103, 105, 116]

def validateEntryPath (p : Bytes) : Bool :=
  !(p.isEmpty || p.contains 92 || p.contains 0 || !isLocal p) &&
    (splitSlash p).all fun name => !(name.isEmpty || name == [dot] || name == [dot, dot] || foldsToGit name)

def checkSymlinkTarget (name link : Bytes) : Bool :=
  !(link.isEmpty || isAbs link || (clean ((splitSlash name).dropLast.map step ++ steps link)).1 != 0)

def targetPath (link : Bytes) : Path Bytes := ⟨isAbs link, steps link⟩

/-- `filepath.Rel` of places, from the top. -/
def relative : List Bytes → List Bytes → List (Step Bytes)
  | b :: base, t :: targ => if b = t then relative base targ else .up :: (base.map (fun _ => .up) ++ (t :: targ).map .name)
  | base, targ => base.map (fun _ => .up) ++ targ.map .name

/-! ### The system -/

structure FileData where
  content : Bytes
  perm : Nat

abbrev Files := Tree Bytes FileData

/-- What `git cat-file --batch` writes for an entry: nothing of use, or a blob, of which the end may be missing. -/
inductive BatchObject where
  | unreadable
  | blob (content : Bytes) (complete : Bool)

/-- The kernel; the objects that `cat-file` writes for object ids, and whether it ends well; how much of a file is written, and
whether that is all; and `ComputeDirHash`, which reads only. -/
structure System extends Kernel Bytes FileData where
  catFile : List Bytes → List BatchObject × Bool
  copied : Bytes → List Bytes → Bytes × Bool
  computeDirHash : Files → List Bytes → Option String

structure TreeEntry where
  mode : Bytes
  oid : Bytes
  path : Bytes

def TreeEntry.names (e : TreeEntry) : List Bytes := (splitSlash e.path).reverse

inductive CheckoutError where
  | createRoot (e : Errno)
  | unsafePath (path : Bytes)
  | readBlob (path : Bytes)
  | parents (path : Bytes) (e : Errno)
  | beneathSymlink (path : Bytes) (above : List Bytes)
  | beneathFile (path : Bytes) (above : List Bytes)
  | createDir (path : Bytes) (e : Errno)
  | create (path : List Bytes) (e : Errno)
  | write (path : List Bytes)
  | symlinkOutside (name link : Bytes)
  | createSymlink (name : Bytes) (e : Errno)
  | git
  | resolveRoot (e : Errno)
  | walk (e : Errno)
  | unresolved (path : List Bytes) (e : Errno)
  | resolvesOutside (path : List Bytes)
  | hash

variable (S : System)

/-! ### The guard -/

/-- The loop of `parentsOK` from the directory `above` on; the guard knows the directories `dirs`. -/
def parentsFrom (t : Files) (root : List Bytes) (rel : Bytes) (above : List Bytes) :
    List Bytes → List (List Bytes) → Except CheckoutError (List (List Bytes))
  | [], dirs => .ok dirs
  | name :: rest, dirs =>
    if dirs.contains (name :: above) then parentsFrom t root rel (name :: above) rest dirs
    else match S.lstat t (name :: (above ++ root)) with
      | .error .notExist => .ok dirs
      | .error e => .error (.parents rel e)
      | .ok (.link _) => .error (.beneathSymlink rel (name :: above))
      | .ok (.file _) => .error (.beneathFile rel (name :: above))
      | .ok .dir => parentsFrom t root rel (name :: above) rest ((name :: above) :: dirs)

def parentsOK (t : Files) (root : List Bytes) (dirs : List (List Bytes)) (rel : Bytes) :
    Except CheckoutError (List (List Bytes)) := parentsFrom S t root rel [] (splitSlash rel).dropLast dirs

def evalSymlinks (t : Files) (path : List Bytes) : Except Errno (List Bytes) :=
  if S.refuses .evalSymlinks path t then .error .refused
  else match Lib.FileTree.walk t 255 [] (path.reverse.map .name) with
    | .error e => .error e
    | .ok (place, _) => .ok place

/-- What `WalkDir` finds, in some order. -/
def walkDir (t : Files) (root : List Bytes) : Except CheckoutError (List (List Bytes × Node Bytes FileData)) :=
  match S.lstat t root with
  | .error e => .error (.walk e)
  | .ok .dir =>
    match S.locate t root with
    | .error e => .error (.walk e)
    | .ok (place, _) =>
      if (t.below place).any fun e => e.2.isDir && S.refuses .readDir (e.1 ++ root) t then .error (.walk .refused)
      else .ok ((t.below place).map fun e => (e.1 ++ root, e.2))
  | .ok node => .ok [(root, node)]

def verifySymlink (t : Files) (realRoot path : List Bytes) : Node Bytes FileData → Option CheckoutError
  | .link _ =>
    match evalSymlinks S t path with
    | .error e => some (.unresolved path e)
    | .ok target => if (relative realRoot.reverse target.reverse).head? = some .up then some (.resolvesOutside path) else none
  | _ => none

def verifySymlinks (t : Files) (root : List Bytes) : Option CheckoutError :=
  match evalSymlinks S t root with
  | .error e => some (.resolveRoot e)
  | .ok realRoot =>
    match walkDir S t root with
    | .error err => some err
    | .ok found => found.findSome? fun e => verifySymlink S t realRoot e.1 e.2

/-! ### The writes -/

/-- `createFile` and the copy of the content. -/
def writeFile (t : Files) (content : Bytes) (target : List Bytes) (perm : Nat) : Files × Option CheckoutError :=
  match S.add t target (.file ⟨(S.copied content target).1, perm⟩) with
  | .error e => (t, some (.create target e))
  | .ok t => if (S.copied content target).2 then (t, none) else (t, some (.write target))

def writeSymlink (t : Files) (body name : Bytes) (target : List Bytes) : Files × Option CheckoutError :=
  let link := body.take 4096
  if !checkSymlinkTarget name link then (t, some (.symlinkOutside name link))
  else match S.add t target (.link (targetPath link)) with
    | .error e => (t, some (.createSymlink name e))
    | .ok t => (t, none)

/-- `120000` -/
def symlinkMode : Bytes := [49, 50, 48, 48, 48, 48]

/-- `entryPerm`: `100755` is executable. -/
def entryPerm (mode : Bytes) : Nat := if mode = [49, 48, 48, 55, 53, 53] then 0o750 else 0o640

def writeBatchEntry (t : Files) (root : List Bytes) (dirs : List (List Bytes)) (e : TreeEntry) :
    BatchObject → Files × Except CheckoutError (List (List Bytes))
  | .unreadable => (t, .error (.readBlob e.path))
  | .blob content complete =>
    match parentsOK S t root dirs e.path with
    | .error err => (t, .error err)
    | .ok dirs =>
      match S.mkdirAll t (e.names.tail ++ root) with
      | (t, some err) => (t, .error (.createDir e.path err))
      | (t, none) =>
        match (if e.mode = symlinkMode then writeSymlink S t content e.path (e.names ++ root)
          else writeFile S t content (e.names ++ root) (entryPerm e.mode)) with
        | (t, some err) => (t, .error err)
        | (t, none) => if complete then (t, .ok dirs) else (t, .error (.readBlob e.path))

/-- The loop over the entries, with what git writes for them. -/
def writeBatch (root : List Bytes) : Files → List (List Bytes) → List TreeEntry → List BatchObject → Files × Option CheckoutError
  | t, _, [], _ => (t, none)
  | t, dirs, e :: entries, objects =>
    match writeBatchEntry S t root dirs e (objects.head?.getD .unreadable) with
    | (t, .error err) => (t, some err)
    | (t, .ok dirs) => writeBatch root t dirs entries objects.tail

def writeEntries (t : Files) (entries : List TreeEntry) (root : List Bytes) : Files × Option CheckoutError :=
  match entries.find? fun e => !validateEntryPath e.path with
  | some e => (t, some (.unsafePath e.path))
  | none =>
    if entries.isEmpty then (t, none)
    else match writeBatch S root t [] entries (S.catFile (entries.map (·.oid))).1 with
      | (t, some err) => (t, some err)
      | (t, none) => if (S.catFile (entries.map (·.oid))).2 then (t, none) else (t, some .git)

def writeCheckout (t : Files) (entries : List TreeEntry) (root : List Bytes) : Files × Except CheckoutError String :=
  match S.mkdirAll t root with
  | (t, some e) => (t, .error (.createRoot e))
  | (t, none) =>
    match writeEntries S t entries root with
    | (t, some err) => (t, .error err)
    | (t, none) =>
      match verifySymlinks S t root with
      | some err => (t, .error err)
      | none =>
        match S.computeDirHash t root with
        | none => (t, .error .hash)
        | some h => (t, .ok h)

/-! ### What an entry adds -/

section
variable {S} {t t' base : Files} {root place : List Bytes} {left : Nat} {entries : List TreeEntry} {dirs dirs' : List (List Bytes)}

/-- What is at `rel` below the root belongs to an entry: it is what the entry names, or a directory on the way there. -/
def Belongs (entries : List TreeEntry) (rel : List Bytes) (node : Node Bytes FileData) : Prop :=
  ∃ e ∈ entries, rel ≠ [] ∧ rel <:+ e.names ∧ (rel = e.names ∨ node = .dir)

/-- What holds between entries, with the files `base` that were there when the root was. -/
structure Progress (S : System) (base : Files) (root place : List Bytes) (left : Nat) (entries : List TreeEntry) (t : Files) :
    Prop where
  grows : Grows base t
  locate : S.locate t root = .ok (place, left)
  dir : t.node place = some .dir
  added : ∀ p node, t.node p = some node → base.node p = none → ∃ rel, p = rel ++ place ∧ Belongs entries rel node

def Known (dirs : List (List Bytes)) (place : List Bytes) (t : Files) : Prop := ∀ d ∈ dirs, t.node (d ++ place) = some .dir

/-- No link and no file is at the names on the way to `rel`. -/
def Clear (t : Files) (place rel : List Bytes) : Prop :=
  ∀ d, d <:+ rel → t.node (d ++ place) = some .dir ∨ t.node (d ++ place) = none

theorem Known.grows (h : Known dirs place t) (hgrows : Grows t t') : Known dirs place t' := fun d hd => hgrows _ _ (h d hd)

theorem clear_of_dir {rel : List Bytes} (h : t.node (rel ++ place) = some .dir) : Clear t place rel := by
  intro d hd
  by_cases hsame : d = rel
  · rw [hsame]
    exact .inl h
  · refine .inl (Tree.above_dir ?_ _ (suffix_append_self_iff.mpr hd) ?_)
    · rw [h]
      exact some_ne_none _
    · exact fun heq => hsame (append_cancel_right heq)

theorem parentsFrom_ok {rel : Bytes} : ∀ {names above : List Bytes} {dirs dirs' : List (List Bytes)},
    S.locate t root = .ok (place, left) → t.node (above ++ place) = some .dir → Known dirs place t →
      parentsFrom S t root rel above names dirs = .ok dirs' → Known dirs' place t ∧ Clear t place (names.reverse ++ above) := by
  intro names
  induction names with
  | nil =>
    intro above dirs dirs' _ habove hknown h
    obtain rfl := ok.inj h
    exact ⟨hknown, clear_of_dir habove⟩
  | cons name rest ih =>
    intro above dirs dirs' hroot habove hknown h
    have hlocate := locate_append hroot habove
    rw [parentsFrom] at h
    rw [reverse_cons, append_assoc, singleton_append]
    split_ifs at h with hin
    · exact ih hroot (hknown _ (contains_iff_mem.mp hin)) hknown h
    split at h
    · rename_i hlstat
      obtain rfl := ok.inj h
      refine ⟨hknown, ?_⟩
      have hnone := lstat_notExist hlstat hlocate habove
      intro d hd
      rcases suffix_or_suffix_of_suffix hd (suffix_append rest.reverse (name :: above)) with hshort | hlong
      · rcases suffix_cons_iff.mp hshort with rfl | habove'
        · exact .inr hnone
        · exact clear_of_dir habove d habove'
      · -- below a name that is not there nothing is
        refine .inr (eq_none_iff_forall_ne_some.mpr fun node hnode => ?_)
        by_cases hsame : name :: above = d
        · rw [← hsame] at hnode
          exact absurd (hnone.symm.trans hnode) (some_ne_none _).symm
        · have hthere := Tree.above_dir (hnode ▸ some_ne_none node) _ (suffix_append_self_iff.mpr hlong)
            fun heq => hsame (append_cancel_right heq)
          exact absurd (hnone.symm.trans hthere) (some_ne_none _).symm
    · cases h
    · cases h
    · cases h
    · rename_i hlstat
      obtain ⟨d, left', hlocate', -, hnode⟩ := lstat_ok hlstat
      obtain ⟨rfl, -⟩ := Prod.mk.inj (ok.inj (hlocate.symm.trans hlocate'))
      refine ih hroot hnode ?_ h
      intro d hd
      rcases mem_cons.mp hd with rfl | hd
      · exact hnode
      · exact hknown d hd

variable {e : TreeEntry}

section
variable (h : Progress S base root place left entries t) (he : e ∈ entries)
include h he

/-- The directories of an entry, where the guard has found no link and no file. -/
theorem mkdirAll_progress (hclear : Clear t place e.names.tail) {result : Option Errno}
    (hmk : S.mkdirAll t (e.names.tail ++ root) = (t', result)) :
    Progress S base root place left entries t' ∧ Grows t t' ∧
      (result = none → t'.node (e.names.tail ++ place) = some .dir) := by
  have hgrows : Grows t (S.mkdirAll t (e.names.tail ++ root)).1 := mkdirAll_grows
  have hnew := @Kernel.mkdirAll_new _ _ _ S.toKernel t (e.names.tail ++ root)
  rw [hmk] at hgrows hnew
  have hroot := locate_grows hgrows h.locate
  have hdir := hgrows _ _ h.dir
  have hclear' : Clear t' place e.names.tail := by
    intro d hd
    rcases hclear d hd with hthere | hnone
    · exact .inl (hgrows _ _ hthere)
    cases hnode : t'.node (d ++ place) with
    | none => exact .inr rfl
    | some node =>
      obtain ⟨rfl, -⟩ := hnew hnode hnone
      exact .inl rfl
  refine ⟨⟨h.grows.trans hgrows, hroot, hdir, ?_⟩, hgrows, ?_⟩
  · intro p node hnode hbase
    cases hpre : t.node p with
    | some node' =>
      obtain rfl := some.inj ((hgrows _ _ hpre).symm.trans hnode)
      exact h.added p node' hpre hbase
    | none =>
    obtain ⟨rfl, above, left', habove, hlocate⟩ := hnew hnode hpre
    rcases suffix_or_suffix_of_suffix habove (suffix_append e.names.tail root) with hup | hdown
    · -- what is above the root was there
      obtain ⟨rest, hrest⟩ := hup
      have hlocate' := h.locate
      rw [← hrest] at hlocate'
      obtain ⟨d, left'', hd, hthere⟩ := locate_above hlocate' h.dir
      obtain ⟨rfl, -⟩ := Prod.mk.inj (ok.inj (hlocate.symm.trans (locate_grows hgrows hd)))
      exact absurd (hpre.symm.trans hthere) (some_ne_none _).symm
    · obtain ⟨d, rfl⟩ := hdown
      have hd : d <:+ e.names.tail := suffix_append_self_iff.mp habove
      obtain ⟨-, rfl⟩ := locate_clear hroot hdir (fun c hc => hclear' c (hc.trans hd)) hlocate
      refine ⟨d, rfl, e, he, ?_, hd.trans (tail_suffix _), .inr rfl⟩
      rintro rfl
      exact absurd (hpre.symm.trans h.dir) (some_ne_none _).symm
  · intro hnone
    rw [hnone] at hmk
    obtain ⟨q, left', hlocate, -, -⟩ := mkdirAll_ok hmk
    exact (locate_clear hroot hdir hclear' hlocate).1

theorem add_progress
    (hparent : t.node (e.names.tail ++ place) = some .dir) (hne : e.names ≠ []) {new : Node Bytes FileData}
    (hadd : S.add t (e.names ++ root) new = .ok t') : Progress S base root place left entries t' ∧ Grows t t' := by
  obtain ⟨n, above, d, left', hpath, hlocate, -, -, hgrows, hnew, hother⟩ := add_ok hadd
  obtain ⟨name, names, hnames⟩ := exists_cons_of_ne_nil hne
  rw [hnames, cons_append] at hpath
  obtain ⟨rfl, rfl⟩ := List.cons.inj hpath
  rw [hnames, tail_cons] at hparent
  obtain ⟨rfl, -⟩ := Prod.mk.inj (ok.inj (hlocate.symm.trans (locate_append h.locate hparent)))
  refine ⟨⟨h.grows.trans hgrows, locate_grows hgrows h.locate, hgrows _ _ h.dir, ?_⟩, hgrows⟩
  intro p node hnode hbase
  by_cases hp : p = name :: (names ++ place)
  · refine ⟨name :: names, hp, e, he, cons_ne_nil _ _, ?_, .inl hnames.symm⟩
    rw [hnames]
  · rw [hother p hp] at hnode
    exact h.added p node hnode hbase
end

theorem names_ne_nil (e : TreeEntry) : e.names ≠ [] := by
  intro h
  have hsplit := reverse_eq_nil_iff.mp h
  rw [splitSlash] at hsplit
  exact absurd hsplit (by simp [List.splitOn])

section
variable (h : Progress S base root place left entries t) (he : e ∈ entries)
  (hparent : t.node (e.names.tail ++ place) = some .dir)
include h he hparent

theorem writeFile_progress {content : Bytes} {perm : Nat} {result : Option CheckoutError}
    (hwrite : writeFile S t content (e.names ++ root) perm = (t', result)) :
    Progress S base root place left entries t' ∧ Grows t t' := by
  rw [writeFile] at hwrite
  split at hwrite
  · obtain ⟨rfl, -⟩ := Prod.mk.inj hwrite
    exact ⟨h, Grows.refl⟩
  · rename_i t'' hadd
    have hadded := add_progress h he hparent (names_ne_nil e) hadd
    split_ifs at hwrite
    · obtain ⟨rfl, -⟩ := Prod.mk.inj hwrite
      exact hadded
    · obtain ⟨rfl, -⟩ := Prod.mk.inj hwrite
      exact hadded

theorem writeSymlink_progress {body : Bytes} {result : Option CheckoutError}
    (hwrite : writeSymlink S t body e.path (e.names ++ root) = (t', result)) :
    Progress S base root place left entries t' ∧ Grows t t' := by
  rw [writeSymlink] at hwrite
  split_ifs at hwrite
  · obtain ⟨rfl, -⟩ := Prod.mk.inj hwrite
    exact ⟨h, Grows.refl⟩
  split at hwrite
  · obtain ⟨rfl, -⟩ := Prod.mk.inj hwrite
    exact ⟨h, Grows.refl⟩
  · rename_i t'' hadd
    obtain ⟨rfl, -⟩ := Prod.mk.inj hwrite
    exact add_progress h he hparent (names_ne_nil e) hadd
end

/-- **One entry**, whatever comes of it. -/
theorem writeBatchEntry_progress (h : Progress S base root place left entries t) (hknown : Known dirs place t)
    (he : e ∈ entries) {object : BatchObject} {result : Except CheckoutError (List (List Bytes))}
    (hwrite : writeBatchEntry S t root dirs e object = (t', result)) :
    Progress S base root place left entries t' ∧ ∀ dirs', result = .ok dirs' → Known dirs' place t' := by
  have hfailed : ∀ {t'' : Files} {err : CheckoutError}, Progress S base root place left entries t'' →
      (t'', error err) = (t', result) →
        Progress S base root place left entries t' ∧ ∀ dirs', result = .ok dirs' → Known dirs' place t' := by
    intro t'' err hprog heq
    obtain ⟨rfl, rfl⟩ := Prod.mk.inj heq
    exact ⟨hprog, fun dirs' hok => by cases hok⟩
  cases object with
  | unreadable => exact hfailed h hwrite
  | blob content complete =>
  rw [writeBatchEntry] at hwrite
  split at hwrite
  · exact hfailed h hwrite
  · rename_i known hparents
    obtain ⟨hknown', hclear⟩ := parentsFrom_ok h.locate (show t.node ([] ++ place) = some .dir from h.dir) hknown hparents
    rw [append_nil, ← tail_reverse] at hclear
    split at hwrite
    · rename_i t₁ err hmk
      exact hfailed (mkdirAll_progress h he hclear hmk).1 hwrite
    · rename_i t₁ hmk
      obtain ⟨h₁, hgrows₁, hparent⟩ := mkdirAll_progress h he hclear hmk
      have hparent := hparent rfl
      have hstep : ∀ {t₂ : Files} {failed : Option CheckoutError},
          (if e.mode = symlinkMode then writeSymlink S t₁ content e.path (e.names ++ root)
            else writeFile S t₁ content (e.names ++ root) (entryPerm e.mode)) = (t₂, failed) →
          Progress S base root place left entries t₂ ∧ Grows t₁ t₂ := by
        intro t₂ failed hnode
        split_ifs at hnode
        · exact writeSymlink_progress h₁ he hparent hnode
        · exact writeFile_progress h₁ he hparent hnode
      split at hwrite
      · rename_i t₂ err hnode
        exact hfailed (hstep hnode).1 hwrite
      · rename_i t₂ hnode
        obtain ⟨h₂, hgrows₂⟩ := hstep hnode
        split_ifs at hwrite
        · obtain ⟨rfl, rfl⟩ := Prod.mk.inj hwrite
          refine ⟨h₂, ?_⟩
          intro dirs' hok
          obtain rfl := ok.inj hok
          exact hknown'.grows (hgrows₁.trans hgrows₂)
        · exact hfailed h₂ hwrite

theorem writeBatch_progress : ∀ {es : List TreeEntry} {objects : List BatchObject} {t : Files} {dirs : List (List Bytes)},
    Progress S base root place left entries t → Known dirs place t → (∀ e ∈ es, e ∈ entries) →
      Progress S base root place left entries (writeBatch S root t dirs es objects).1 := by
  intro es
  induction es with
  | nil => exact fun h _ _ => h
  | cons e es ih =>
    intro objects t dirs h hknown hes
    rw [writeBatch]
    split
    · rename_i t' err hwrite
      exact (writeBatchEntry_progress h hknown (hes e mem_cons_self) hwrite).1
    · rename_i t' dirs' hwrite
      obtain ⟨h', hknown'⟩ := writeBatchEntry_progress h hknown (hes e mem_cons_self) hwrite
      exact ih h' (hknown' dirs' rfl) fun e' he' => hes e' (mem_cons_of_mem _ he')

theorem writeEntries_progress (h : Progress S base root place left entries t) :
    Progress S base root place left entries (writeEntries S t entries root).1 := by
  rw [writeEntries]
  split
  · exact h
  by_cases hempty : entries.isEmpty = true
  · rw [if_pos hempty]
    exact h
  have hbatch : Progress S base root place left entries
      (writeBatch S root t [] entries (S.catFile (entries.map (·.oid))).1).1 :=
    writeBatch_progress h (fun d hd => absurd hd not_mem_nil) fun e he => he
  rw [if_neg hempty]
  split
  · rename_i t' err hwrite
    rw [hwrite] at hbatch
    exact hbatch
  · rename_i t' hwrite
    rw [hwrite] at hbatch
    split_ifs
    · exact hbatch
    · exact hbatch
end

/-! ### Where the links lead -/

section
variable {S} {t : Files} {root place path target : List Bytes} {left : Nat}

theorem inside_of_relative : ∀ {base targ : List Bytes}, (relative base targ).head? ≠ some .up → base <+: targ := by
  intro base
  induction base with
  | nil => exact fun _ => nil_prefix
  | cons b base ih =>
    intro targ h
    cases targ with
    | nil => exact absurd rfl h
    | cons t targ =>
    rw [relative] at h
    split_ifs at h with hsame
    · rw [hsame]
      exact (prefix_cons_inj t).mpr (ih h)
    · exact absurd rfl h

theorem evalSymlinks_ok (h : evalSymlinks S t path = .ok target) :
    ∃ left, Lib.FileTree.walk t 255 [] (path.reverse.map .name) = .ok (target, left) := by
  rw [evalSymlinks] at h
  split_ifs at h
  split at h
  · cases h
  · rename_i place left hwalk
    obtain rfl := ok.inj h
    exact ⟨left, hwalk⟩

/-- The path of a link in a directory below the root resolves as the link does. -/
theorem resolves_of_evalSymlinks (hroot : S.locate t root = .ok (place, left)) {n : Bytes} {rel : List Bytes}
    (hrel : t.node (rel ++ place) = some .dir) (h : evalSymlinks S t (n :: (rel ++ root)) = .ok target) :
    Resolves t (rel ++ place) [.name n] target := by
  obtain ⟨left', hwalk⟩ := evalSymlinks_ok h
  rw [reverse_cons, reverse_append, append_assoc, map_append] at hwalk
  obtain ⟨d, left₁, hd, hdir⟩ := walk_split (by simp) hwalk t.top
  obtain rfl : d = place := Resolves.unique (resolves_of_walk hroot) (resolves_of_walk hd)
  rw [walk_append hdir hd, map_append, walk_append hrel (walk_names hrel)] at hwalk
  exact resolves_of_walk hwalk

/-- **After the last pass, each link below the root leads to something inside.** -/
theorem link_inside (hroot : RealDir S.toKernel t root place left) (hverify : verifySymlinks S t root = none) {n : Bytes}
    {d : List Bytes} {link : Path Bytes} (hbelow : place <:+ n :: d) (hlink : t.node (n :: d) = some (.link link)) :
    ∃ q node, Resolves t d [.name n] q ∧ t.node q = some node ∧ place <:+ q := by
  have hnode : t.node (n :: d) ≠ none := by
    rw [hlink]
    exact some_ne_none _
  have hd : t.node d = some .dir := t.parents n d hnode
  obtain ⟨rel, hrel⟩ : ∃ rel, rel ++ place = d := by
    rcases suffix_cons_iff.mp hbelow with hsame | hsuffix
    · have hdir := hroot.dir
      rw [hsame, hlink] at hdir
      cases hdir
    · exact hsuffix
  subst hrel
  rw [verifySymlinks] at hverify
  split at hverify
  · cases hverify
  · rename_i realRoot hreal
    obtain ⟨left₁, hwalk⟩ := evalSymlinks_ok hreal
    obtain rfl : realRoot = place := Resolves.unique (resolves_of_walk hroot.locate) (resolves_of_walk hwalk)
    split at hverify
    · cases hverify
    · rename_i found hfound
      have hmem : (n :: (rel ++ root), Node.link link) ∈ found := by
        rw [walkDir] at hfound
        split at hfound
        · cases hfound
        · rw [hroot.locate] at hfound
          simp only at hfound
          split_ifs at hfound
          obtain rfl := ok.inj hfound
          have hbelow' : (n :: rel, Node.link link) ∈ t.below realRoot := Tree.mem_below hlink
          exact mem_map.mpr ⟨_, hbelow', rfl⟩
        · rename_i node hnot hlstat
          exact absurd (hroot.lstat hlstat) hnot
      have hone := List.findSome?_eq_none_iff.mp hverify _ hmem
      rw [verifySymlink] at hone
      split at hone
      · cases hone
      · rename_i q hq
        split_ifs at hone with hup
        have hresolves := resolves_of_evalSymlinks hroot.locate hd hq
        obtain ⟨node, hnode⟩ := hresolves.there hd
        exact ⟨q, node, hresolves, hnode, reverse_prefix.mp (inside_of_relative hup)⟩
end

/-! ### Checkouts -/

/-- What a checkout may do to the files: what was there is there as it was; what is new is a directory on the way to the root,
or at or on the way to the path of an entry below the root; and all that is above a node is a real directory. -/
structure Confined (S : System) (t t' : Files) (entries : List TreeEntry) (root : List Bytes) : Prop where
  kept : Grows t t'
  added : ∀ p node, t'.node p = some node → t.node p = none →
    (node = .dir ∧ ∃ above left, above <:+ root ∧ S.locate t' above = .ok (p, left)) ∨
      ∃ place left rel, S.locate t' root = .ok (place, left) ∧ p = rel ++ place ∧ Belongs entries rel node
  real : ∀ p node, t'.node p = some node → ∀ above, above <:+ p → above ≠ p → t'.node above = some .dir

section
variable {S} {t t₁ : Files} {root place : List Bytes} {left : Nat} {entries : List TreeEntry}

theorem progress_init (hlocate : S.locate t₁ root = .ok (place, left)) (hdir : t₁.node place = some .dir) :
    Progress S t₁ root place left entries t₁ where
  grows := Grows.refl
  locate := hlocate
  dir := hdir
  added _ _ hnode hnone := absurd (hnone.symm.trans hnode) (some_ne_none _).symm

theorem mkdirAll_confined {result : Option Errno} (hmk : S.mkdirAll t root = (t₁, result)) :
    Confined S t t₁ entries root := by
  have hgrows : Grows t (S.mkdirAll t root).1 := mkdirAll_grows
  have hnew := @Kernel.mkdirAll_new _ _ _ S.toKernel t root
  rw [hmk] at hgrows hnew
  exact ⟨hgrows, fun p node hnode hnone => .inl (hnew hnode hnone),
    fun p node hnode => Tree.above_dir (hnode ▸ some_ne_none node)⟩

theorem Progress.confined (h : Progress S t₁ root place left entries t) {base : Files}
    (hmk : S.mkdirAll base root = (t₁, none)) : Confined S base t entries root := by
  have hroot : Confined S base t₁ entries root := mkdirAll_confined hmk
  refine ⟨hroot.kept.trans h.grows, ?_, fun p node hnode => Tree.above_dir (hnode ▸ some_ne_none node)⟩
  intro p node hnode hnone
  cases hmiddle : t₁.node p with
  | none =>
    obtain ⟨rel, hp, hbelongs⟩ := h.added p node hnode hmiddle
    exact .inr ⟨place, left, rel, h.locate, hp, hbelongs⟩
  | some node' =>
  obtain rfl := some.inj ((h.grows _ _ hmiddle).symm.trans hnode)
  rcases hroot.added p node' hmiddle hnone with ⟨hdir, above, left', habove, hlocate⟩ | ⟨place', left', rel, hlocate, hbelongs⟩
  · exact .inl ⟨hdir, above, left', habove, locate_grows h.grows hlocate⟩
  · exact .inr ⟨place', left', rel, locate_grows h.grows hlocate, hbelongs⟩

/-- The files that a checkout leaves, whatever it returns, and what has been verified when it succeeds. -/
theorem writeCheckout_cases {t' : Files} {result : Except CheckoutError String}
    (h : writeCheckout S t entries root = (t', result)) :
    Confined S t t' entries root ∧ ∀ hash, result = .ok hash → ∃ t₁ place left, S.mkdirAll t root = (t₁, none) ∧
      Progress S t₁ root place left entries t' ∧ verifySymlinks S t' root = none := by
  rw [writeCheckout] at h
  split at h
  · rename_i t₁ e hmk
    obtain ⟨rfl, rfl⟩ := Prod.mk.inj h
    exact ⟨mkdirAll_confined hmk, fun hash hok => by cases hok⟩
  · rename_i t₁ hmk
    obtain ⟨place, left, hlocate, hdir, -⟩ := mkdirAll_ok hmk
    have hinit : Progress S t₁ root place left entries t₁ := progress_init hlocate hdir
    have hprog := writeEntries_progress hinit
    split at h
    · rename_i t₂ err hents
      obtain ⟨rfl, rfl⟩ := Prod.mk.inj h
      rw [hents] at hprog
      exact ⟨hprog.confined hmk, fun hash hok => by cases hok⟩
    · rename_i t₂ hents
      rw [hents] at hprog
      split at h
      · obtain ⟨rfl, rfl⟩ := Prod.mk.inj h
        exact ⟨hprog.confined hmk, fun hash hok => by cases hok⟩
      · rename_i hverify
        split at h
        · obtain ⟨rfl, rfl⟩ := Prod.mk.inj h
          exact ⟨hprog.confined hmk, fun hash hok => by cases hok⟩
        · obtain ⟨rfl, rfl⟩ := Prod.mk.inj h
          exact ⟨hprog.confined hmk, fun hash _ => ⟨t₁, place, left, hmk, hprog, hverify⟩⟩
end

/-- A system that refuses nothing, and whose git has the object `f` of a file and `l` of a link to `a/f`. -/
def plainSystem : System where
  links := 40
  refuses _ _ _ := false
  catFile oids := (oids.map fun oid => .blob (if oid = [108] then [97, slash, 102] else [120]) true, true)
  copied content _ := (content, true)
  computeDirHash _ _ := some "hash"

def plainEntries : List TreeEntry :=
  [⟨symlinkMode, [108], [108]⟩, ⟨[49, 48, 48, 54, 52, 52], [102], [97, slash, 102]⟩]

end Paprika.Source
