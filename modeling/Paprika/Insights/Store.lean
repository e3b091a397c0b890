import Mathlib.Logic.Equiv.List
import Paprika.Insights.Documents
import Paprika.Lib.Run

/-!
# The dashboard store

`store.go`: `Put` and `Delete` on a directory with one file for each document, and a copy of the documents in memory.  A
call holds the store's lock.  It is taken apart at its file operations: `Put` writes and syncs a temporary file, renames it
into place and syncs the directory; `Delete` removes the file and syncs the directory.  What the directory's last sync does
not cover may or may not be there after a crash.

* `Op.check`, `step`, `run` — from the source, with each file operation's outcome and crashes as events;
* `Sound` — memory and directory agree, a failed call changes neither, a precondition held, and the directory opens;
* `Careful` — the steps that keep this; **`store_survives_restarts`**.
-/

namespace Paprika.Insights

open Lib.KeyedMap Lib.Run List Option

inductive Op where
  | put (id : String) (document : Document) (ifMatch ifNoneMatch : String)
  | delete (id ifMatch : String)
  deriving DecidableEq

namespace Op

def id : Op → String
  | .put id _ _ _ => id
  | .delete id _ => id

/-- What the call is for. -/
def apply : Op → Docs → Docs
  | .put id document _ _, docs => docs.insert id document
  | .delete id _, docs => docs.erase id

/-- The checks of `Put` and `Delete` before their first file operation. -/
def check {V : Type} (R : Rules V) : Op → Docs → Option StoreError
  | .put id document ifMatch ifNoneMatch, documents =>
    if !validateDashboard R id document then some .invalid
    else if !preconditions R (documents.lookup id) ifMatch ifNoneMatch then some .conflict
    else if (documents.lookup id).isNone && decide (maxDashboards ≤ documents.entries.length) then some .capacity
    else if maxStoreBytes < document.length + docsSize (documents.erase id) then some .capacity
    else none
  | .delete id ifMatch, documents =>
    if (documents.lookup id).isNone then some .notFound
    else if !preconditions R (documents.lookup id) ifMatch "" then some .conflict
    else none

/-- The call leaves the documents as they are. -/
def Same : Op → Docs → Prop
  | .put id document _ _, docs => docs.lookup id = some document
  | .delete _ _, _ => False

end Op

/-- What comes next: to write the temporary file, to rename it or to remove the document's file, to sync the directory. -/
inductive Stage where
  | prepare
  | change
  | sync
  deriving DecidableEq

def Op.firstStage : Op → Stage
  | .put .. => .prepare
  | .delete .. => .change

/-- The outcome of a rename or a removal: `lost` is an error although it took effect. -/
inductive Outcome where
  | done
  | failed
  | lost

/-- A call that holds the lock, with the directory and the memory that it found. -/
structure Pending where
  op : Op
  stage : Stage
  files₀ : Docs
  memory₀ : Docs

/-- A call that has returned, with the directory and the memory that it found and left. -/
structure Return where
  op : Op
  error : Option StoreError
  files₀ : Docs
  memory₀ : Docs
  files : Docs
  memory : Docs

/-- `files` is the directory, `durable` what its last sync covers, `memory` is there while the service runs.  `written`
records the documents of the writes that succeeded; a call that a crash interrupts is one of them if its change is there. -/
structure World where
  files : Docs
  durable : Docs
  memory : Option Docs
  call : Option Pending
  written : Docs
  last : Option Return

/-- The directory after a crash that loses the changes of some documents. -/
def restore (files durable : Docs) (lost : List String) : Docs :=
  lost.foldl (fun docs id =>
    match durable.lookup id with
    | none => docs.erase id
    | some document => docs.insert id document) files

namespace World

def init (files : Docs) : World := ⟨files, files, none, none, files, none⟩

def survivors (w : World) (lost : List String) : Docs := restore w.files w.durable lost

/-- A call returns, and leaves the memory `m`. -/
def finish (w : World) (p : Pending) (m : Docs) (error : Option StoreError) : World :=
  { w with
    memory := some m
    call := none
    last := some ⟨p.op, error, p.files₀, p.memory₀, w.files, m⟩ }

def start {V : Type} (R : Rules V) (w : World) (m : Docs) (op : Op) : World :=
  match op.check R m with
  | some error => w.finish ⟨op, op.firstStage, w.files, m⟩ m (some error)
  | none => { w with call := some ⟨op, op.firstStage, w.files, m⟩ }

def prepare (w : World) (m : Docs) (p : Pending) (ok : Bool) : World :=
  if ok then { w with call := some { p with stage := .change } } else w.finish p m (some .file)

/-- `Delete` drops the document from memory when its file is removed; `Put` stores it there when the directory is synced. -/
def change (w : World) (m : Docs) (p : Pending) : Outcome → World
  | .done =>
    { w with
      files := p.op.apply w.files
      memory := some (match p.op with
        | .put .. => m
        | .delete id _ => m.erase id)
      call := some { p with stage := .sync } }
  | .failed => w.finish p m (some .file)
  | .lost => { w with files := p.op.apply w.files }.finish p m (some .file)

def sync (w : World) (m : Docs) (p : Pending) (ok : Bool) : World :=
  if ok then
    { w with durable := w.files, written := p.op.apply w.written }.finish p
      (match p.op with
      | .put id document _ _ => m.insert id document
      | .delete .. => m) none
  else w.finish p m (some .file)

def interrupted (w : World) (survivors : Docs) : Docs :=
  match w.call with
  | none => w.written
  | some p =>
    if p.stage = .sync ∧ survivors.lookup p.op.id = (p.op.apply w.written).lookup p.op.id then p.op.apply w.written
    else w.written

def crash (w : World) (lost : List String) : World :=
  { w with
    files := w.survivors lost
    durable := w.survivors lost
    memory := none
    call := none
    written := w.interrupted (w.survivors lost) }

def openStore {V : Type} (R : Rules V) (w : World) : World := { w with memory := OpenStore R w.files }

end World

inductive Event where
  | start (op : Op)
  | prepare (ok : Bool)
  | change (outcome : Outcome)
  | sync (ok : Bool)
  | crash (lost : List String)
  | openStore

/-- An event that the state of the world does not admit leaves it as it is. -/
def step {V : Type} (R : Rules V) (w : World) : Event → World
  | .start op =>
    match w.memory, w.call with
    | some m, none => w.start R m op
    | _, _ => w
  | .prepare ok =>
    match w.memory, w.call with
    | some m, some p => if p.stage = .prepare then w.prepare m p ok else w
    | _, _ => w
  | .change outcome =>
    match w.memory, w.call with
    | some m, some p => if p.stage = .change then w.change m p outcome else w
    | _, _ => w
  | .sync ok =>
    match w.memory, w.call with
    | some m, some p => if p.stage = .sync then w.sync m p ok else w
    | _, _ => w
  | .crash lost => w.crash lost
  | .openStore =>
    match w.memory with
    | none => w.openStore R
    | some _ => w

section
variable {V : Type} (R : Rules V)

/-- What the store promises. -/
structure Sound (w : World) : Prop where
  agree : ∀ r, w.last = some r → Same r.memory r.files
  unchanged : ∀ r, w.last = some r → r.error ≠ none → Same r.files r.files₀ ∧ Same r.memory r.memory₀
  matched : ∀ r id document ifNoneMatch stored, w.last = some r → r.op = .put id document (etag R stored) ifNoneMatch →
    r.error = none → r.files₀.lookup id = some stored
  reopens : ∀ lost, ∃ docs, OpenStore R (w.survivors lost) = some docs ∧
    (Same docs w.written ∨ ∃ p, w.call = some p ∧ p.stage = .sync ∧ Same docs (p.op.apply w.written))

/-- A document that is renamed into place can be encoded anew, and an error of a rename, a removal or a directory sync is
reported only when nothing was changed. -/
def Careful (w : World) : Event → Prop
  | .change .done => ∀ p id document ifMatch ifNoneMatch, w.call = some p → p.stage = .change →
      p.op = .put id document ifMatch ifNoneMatch → Reencodes R document
  | .change .lost => ∀ p, w.call = some p → p.stage = .change → p.op.Same w.files
  | .sync ok => ok = false → ∀ p, w.call = some p → p.stage = .sync → p.op.Same p.files₀
  | _ => True
end

/-! ### What a step does -/

variable {V : Type} {R : Rules V} {w : World}

inductive Step (R : Rules V) (w : World) : Event → World → Prop where
  | idle (e : Event) : Step R w e w
  | start (m : Docs) (op : Op) (hmemory : w.memory = some m) (hcall : w.call = none) : Step R w (.start op) (w.start R m op)
  | prepare (m : Docs) (p : Pending) (ok : Bool) (hmemory : w.memory = some m) (hcall : w.call = some p)
      (hstage : p.stage = .prepare) : Step R w (.prepare ok) (w.prepare m p ok)
  | change (m : Docs) (p : Pending) (outcome : Outcome) (hmemory : w.memory = some m) (hcall : w.call = some p)
      (hstage : p.stage = .change) : Step R w (.change outcome) (w.change m p outcome)
  | sync (m : Docs) (p : Pending) (ok : Bool) (hmemory : w.memory = some m) (hcall : w.call = some p)
      (hstage : p.stage = .sync) : Step R w (.sync ok) (w.sync m p ok)
  | crash (lost : List String) : Step R w (.crash lost) (w.crash lost)
  | openStore (hmemory : w.memory = none) : Step R w .openStore (w.openStore R)

theorem step_cases (w : World) (e : Event) : Step R w e (step R w e) := by
  cases e with
  | crash lost => exact .crash lost
  | openStore =>
    simp only [step]
    cases hmemory : w.memory with
    | none => exact .openStore hmemory
    | some m => exact .idle _
  | start op =>
    simp only [step]
    cases hmemory : w.memory with
    | none => exact .idle _
    | some m =>
      cases hcall : w.call with
      | none => exact .start m op hmemory hcall
      | some p => exact .idle _
  | prepare x | change x | sync x =>
  simp only [step]
  cases hmemory : w.memory with
  | none => exact .idle _
  | some m =>
  cases hcall : w.call with
  | none => exact .idle _
  | some p =>
  dsimp only
  split
  · next hstage =>
    first
    | exact .prepare m p x hmemory hcall hstage
    | exact .change m p x hmemory hcall hstage
    | exact .sync m p x hmemory hcall hstage
  · exact .idle _

/-! ### The directory and the calls on it -/

variable {files m : Docs} {p : Pending}

theorem Op.apply_congr (op : Op) {n : Docs} (h : Insights.Same m n) : Insights.Same (op.apply m) (op.apply n) := by
  cases op with
  | put id document ifMatch ifNoneMatch => exact h.insert id document
  | delete id ifMatch => exact h.erase id

theorem Op.lookup_apply_of_ne (op : Op) (m : Docs) {k : String} (h : k ≠ op.id) : (op.apply m).lookup k = m.lookup k := by
  cases op with
  | put id document ifMatch ifNoneMatch => exact AList.lookup_insert_ne h
  | delete id ifMatch => exact AList.lookup_erase_ne h

theorem Op.apply_of_same {op : Op} (h : op.Same m) : Insights.Same (op.apply m) m := by
  cases op with
  | put id document ifMatch ifNoneMatch =>
    intro k
    by_cases hk : k = id
    · rw [hk, apply, AList.lookup_insert]
      exact h.symm
    · exact AList.lookup_insert_ne hk
  | delete id ifMatch => exact h.elim

theorem lookup_restore (durable : Docs) (lost : List String) (k : String) : ∀ files : Docs,
    (restore files durable lost).lookup k = if k ∈ lost then durable.lookup k else files.lookup k := by
  induction lost with
  | nil =>
    intro files
    rfl
  | cons id lost ih =>
    intro files
    rw [restore, foldl_cons, ← restore, ih]
    by_cases hrest : k ∈ lost
    · rw [if_pos hrest, if_pos (mem_cons_of_mem _ hrest)]
    rw [if_neg hrest]
    by_cases hk : k = id
    · rw [if_pos (hk ▸ mem_cons_self), hk]
      cases hlook : durable.lookup id with
      | none => exact AList.lookup_erase id files
      | some document => exact AList.lookup_insert files
    · rw [if_neg (fun hmem => (mem_cons.mp hmem).elim hk hrest)]
      cases hlook : durable.lookup id with
      | none => exact AList.lookup_erase_ne hk
      | some document => exact AList.lookup_insert_ne hk

theorem restore_of_same {durable : Docs} (h : Same files durable) (lost : List String) :
    Same (restore files durable lost) durable := by
  intro k
  rw [lookup_restore, h k, ite_self]

theorem restore_cases {durable : Docs} {op : Op} (h : Same files (op.apply durable)) (lost : List String) :
    Same (restore files durable lost) (op.apply durable) ∨ Same (restore files durable lost) durable := by
  by_cases hlost : op.id ∈ lost
  · refine .inr fun k => ?_
    by_cases hk : k = op.id
    · rw [lookup_restore, hk, if_pos hlost]
    · rw [lookup_restore, h k, op.lookup_apply_of_ne durable hk, ite_self]
  · refine .inl fun k => ?_
    by_cases hk : k = op.id
    · rw [lookup_restore, hk, if_neg hlost, ← hk, h k]
    · rw [lookup_restore, h k, op.lookup_apply_of_ne durable hk, ite_self]

theorem etag_toList (document : Document) : (etag R document).toList = '"' :: ((R.hash document).toList ++ ['"']) := by
  simp [etag]

theorem etag_inj {a b : Document} (h : etag R a = etag R b) : a = b := by
  have hlist := congrArg String.toList h
  rw [etag_toList, etag_toList] at hlist
  exact R.hash_injective a b (String.toList_inj.mp (append_cancel_right (List.cons.inj hlist).2))

theorem eq_of_preconditions {previous : Option Document} {stored : Document} {ifNoneMatch : String}
    (h : preconditions R previous (etag R stored) ifNoneMatch = true) : previous = some stored := by
  have hempty : etag R stored ≠ "" := by
    intro heq
    have hlist := etag_toList (R := R) stored
    rw [heq] at hlist
    cases hlist
  have hstar : etag R stored ≠ "*" := by
    intro heq
    have hlist := etag_toList (R := R) stored
    rw [heq] at hlist
    exact absurd (List.cons.inj hlist).1 (by decide)
  obtain ⟨hmatch, -⟩ := Bool.and_eq_true_iff.mp h
  cases previous with
  | none => simp [hempty] at hmatch
  | some found =>
    have htag : etag R found = etag R stored := by simpa [hempty, hstar] using hmatch
    rw [etag_inj htag]

theorem length_erase {id : String} {document : Document} (h : m.lookup id = some document) :
    (m.erase id).entries.length + 1 = m.entries.length := by
  have hmem : id ∈ m.keys := AList.mem_keys.mp (AList.lookup_isSome.mp (by rw [h]; rfl))
  have hkeys : ∀ n : Docs, n.entries.length = n.keys.length := fun n => (length_map _).symm
  rw [hkeys, hkeys, AList.keys_erase, length_erase_of_mem hmem]
  have hpos := length_pos_of_mem hmem
  omega

/-- A call whose checks hold changes a directory that opens into one that opens. -/
theorem loadable_apply {op : Op} (hm : Loadable R m) (hcheck : op.check R m = none)
    (hput : ∀ id document ifMatch ifNoneMatch, op = .put id document ifMatch ifNoneMatch → Reencodes R document) :
    Loadable R (op.apply m) := by
  cases op with
  | delete id ifMatch => exact hm.erase id
  | put id document ifMatch ifNoneMatch =>
  rw [Op.check] at hcheck
  split_ifs at hcheck with hvalid hpre hcount hsize
  rw [Bool.not_eq_true', Bool.not_eq_false] at hvalid
  refine ⟨?_, ?_, ?_⟩
  · intro k found hlook
    by_cases hk : k = id
    · rw [hk, Op.apply, AList.lookup_insert] at hlook
      obtain rfl := some.inj hlook
      obtain ⟨hpre, -⟩ := Bool.and_eq_true_iff.mp hvalid
      obtain ⟨hid, hlen⟩ := Bool.and_eq_true_iff.mp hpre
      rw [hk]
      exact ⟨hid, of_decide_eq_true hlen,
        (checkStoredDashboard_iff hvalid).mpr (hput id document ifMatch ifNoneMatch rfl)⟩
    · rw [Op.apply, AList.lookup_insert_ne hk] at hlook
      exact hm.checked k found hlook
  · have hlen : (m.erase id).entries.length + 1 ≤ maxDashboards := by
      cases hlook : m.lookup id with
      | some found =>
        rw [length_erase hlook]
        exact hm.count
      | none =>
        rw [hlook, isNone_none, Bool.true_and, decide_eq_true_eq, Nat.not_le] at hcount
        exact Nat.lt_of_le_of_lt (erase_sublist m id).length_le hcount
    rw [Op.apply, AList.entries_insert, length_cons]
    exact hlen
  · have htotal := Nat.le_of_not_lt hsize
    rw [Op.apply, docsSize, AList.entries_insert, map_cons, sum_cons]
    exact htotal

/-! ### What holds between file operations -/

/-- A call in flight: it has passed its checks on what it found, and its change is there once it comes to sync. -/
structure Held (R : Rules V) (w : World) (m : Docs) (p : Pending) : Prop where
  memory₀ : Same p.memory₀ p.files₀
  files₀ : Same p.files₀ w.durable
  checked : p.op.check R p.memory₀ = none
  before : p.stage ≠ .sync → Same m p.memory₀
  after : p.stage = .sync → Same w.files (p.op.apply p.files₀) ∧ Loadable R (p.op.apply p.files₀) ∧
    ((∃ id document ifMatch ifNoneMatch, p.op = .put id document ifMatch ifNoneMatch ∧ Same m p.memory₀) ∨
      ∃ id ifMatch, p.op = .delete id ifMatch ∧ Same m (p.op.apply p.memory₀))

structure Returned (R : Rules V) (r : Return) : Prop where
  agree : Same r.memory r.files
  unchanged : r.error ≠ none → Same r.files r.files₀ ∧ Same r.memory r.memory₀
  matched : ∀ id document ifNoneMatch stored, r.op = .put id document (etag R stored) ifNoneMatch → r.error = none →
    r.files₀.lookup id = some stored

structure Inv (R : Rules V) (w : World) : Prop where
  written : Same w.written w.durable
  loadable : Loadable R w.durable
  settled : (∀ p, w.call = some p → p.stage ≠ .sync) → Same w.files w.durable
  idle : ∀ m, w.memory = some m → w.call = none → Same m w.files
  held : ∀ p, w.call = some p → ∃ m, w.memory = some m ∧ Held R w m p
  returned : ∀ r, w.last = some r → Returned R r

theorem inv_init (h : Loadable R files) : Inv R (World.init files) := by
  refine ⟨Same.refl _, h, fun _ => Same.refl _, ?_, ?_, ?_⟩
  · intro m hm
    cases hm
  · intro p hp
    cases hp
  · intro r hr
    cases hr

theorem inv_finish {error : Option StoreError} (hwrote : Same w.written w.durable)
    (hloadable : Loadable R w.durable) (hfiles : Same w.files w.durable) (hm : Same m w.files)
    (hunchanged : error ≠ none → Same w.files p.files₀ ∧ Same m p.memory₀)
    (hmatched : ∀ id document ifNoneMatch stored, p.op = .put id document (etag R stored) ifNoneMatch → error = none →
      p.files₀.lookup id = some stored) : Inv R (w.finish p m error) := by
  refine ⟨hwrote, hloadable, fun _ => hfiles, ?_, ?_, ?_⟩
  · intro m' hm' _
    obtain rfl := some.inj hm'
    exact hm
  · intro p' hp'
    cases hp'
  · intro r hr
    obtain rfl := some.inj hr
    exact ⟨hm, hunchanged, hmatched⟩

section
variable (h : Inv R w)
include h

theorem Inv.fail {error : StoreError} (hfiles : Same files w.durable)
    (hm : Same m files) (hfiles₀ : Same p.files₀ files) (hm₀ : Same m p.memory₀) :
    Inv R ({ w with files := files }.finish p m (some error)) := by
  refine inv_finish h.written h.loadable hfiles hm (fun _ => ⟨hfiles₀.symm, hm₀⟩) ?_
  intro id document ifNoneMatch stored _ herror
  cases herror

theorem Inv.start (op : Op) (hmemory : w.memory = some m) (hcall : w.call = none) : Inv R (w.start R m op) := by
  have hset : Same w.files w.durable := by
    refine h.settled fun p hp => ?_
    rw [hcall] at hp
    cases hp
  have hm : Same m w.files := h.idle m hmemory hcall
  rw [World.start]
  cases hcheck : op.check R m with
  | some error => exact h.fail hset hm (Same.refl _) (Same.refl _)
  | none =>
  refine ⟨h.written, h.loadable, fun _ => hset, ?_, ?_, h.returned⟩
  · intro m' _ hnone
    cases hnone
  intro p hp
  obtain rfl := some.inj hp
  refine ⟨m, hmemory, hm, hset, hcheck, fun _ => Same.refl _, ?_⟩
  intro hstage
  cases op with
  | put id document ifMatch ifNoneMatch => cases hstage
  | delete id ifMatch => cases hstage

theorem Inv.before (hmemory : w.memory = some m) (hcall : w.call = some p)
    (hstage : p.stage ≠ .sync) : Held R w m p ∧ Same w.files w.durable ∧ Same m w.files ∧ Same p.files₀ w.files := by
  obtain ⟨m', hm', hheld⟩ := h.held p hcall
  obtain rfl : m = m' := some.inj (hmemory.symm.trans hm')
  have hset : Same w.files w.durable := by
    refine h.settled fun q hq => ?_
    rw [hcall] at hq
    obtain rfl := some.inj hq
    exact hstage
  have hfiles₀ : Same p.files₀ w.files := hheld.files₀.trans hset.symm
  exact ⟨hheld, hset, ((hheld.before hstage).trans hheld.memory₀).trans hfiles₀, hfiles₀⟩

theorem Inv.prepare (ok : Bool) (hmemory : w.memory = some m)
    (hcall : w.call = some p) (hstage : p.stage = .prepare) : Inv R (w.prepare m p ok) := by
  have hne : p.stage ≠ .sync := by
    rw [hstage]
    decide
  obtain ⟨hheld, hset, hm, hfiles₀⟩ := h.before hmemory hcall hne
  rw [World.prepare]
  split_ifs
  · refine ⟨h.written, h.loadable, fun _ => hset, ?_, ?_, h.returned⟩
    · intro m' _ hnone
      cases hnone
    intro q hq
    obtain rfl := some.inj hq
    refine ⟨m, hmemory, hheld.memory₀, hheld.files₀, hheld.checked, fun _ => hheld.before hne, ?_⟩
    intro hsync
    cases hsync
  · exact h.fail hset hm hfiles₀ (hheld.before hne)

theorem Inv.change {outcome : Outcome} (hmemory : w.memory = some m)
    (hcall : w.call = some p) (hstage : p.stage = .change) (hcare : Careful R w (.change outcome)) :
    Inv R (w.change m p outcome) := by
  have hne : p.stage ≠ .sync := by
    rw [hstage]
    decide
  obtain ⟨hheld, hset, hm, hfiles₀⟩ := h.before hmemory hcall hne
  have hm₀ := hheld.before hne
  cases outcome with
  | failed => exact h.fail hset hm hfiles₀ hm₀
  | lost =>
    have hsame : Same (p.op.apply w.files) w.files := Op.apply_of_same (hcare p hcall hstage)
    exact h.fail (hsame.trans hset) (hm.trans hsame.symm) (hfiles₀.trans hsame.symm) hm₀
  | done =>
  refine ⟨h.written, h.loadable, ?_, ?_, ?_, h.returned⟩
  · intro hnone
    exact absurd rfl (hnone _ rfl)
  · intro m' _ hnone
    cases hnone
  · intro q hq
    obtain rfl := some.inj hq
    refine ⟨_, rfl, hheld.memory₀, hheld.files₀, hheld.checked, ?_, ?_⟩
    · intro hsync
      exact absurd rfl hsync
    intro _
    have hfound : Loadable R p.memory₀ := h.loadable.congr (hheld.memory₀.trans hheld.files₀).symm
    have hloadable := loadable_apply hfound hheld.checked fun id document ifMatch ifNoneMatch hop =>
      hcare p id document ifMatch ifNoneMatch hcall hstage hop
    refine ⟨p.op.apply_congr hfiles₀.symm, hloadable.congr (p.op.apply_congr hheld.memory₀), ?_⟩
    cases hop : p.op with
    | put id document ifMatch ifNoneMatch => exact .inl ⟨id, document, ifMatch, ifNoneMatch, rfl, hm₀⟩
    | delete id ifMatch => exact .inr ⟨id, ifMatch, rfl, hm₀.erase id⟩

theorem Inv.sync {ok : Bool} (hmemory : w.memory = some m)
    (hcall : w.call = some p) (hstage : p.stage = .sync) (hcare : Careful R w (.sync ok)) : Inv R (w.sync m p ok) := by
  obtain ⟨m', hm', hheld⟩ := h.held p hcall
  obtain rfl : m = m' := some.inj (hmemory.symm.trans hm')
  obtain ⟨hfiles, hloadable, hm⟩ := hheld.after hstage
  rw [World.sync]
  cases ok with
  | true =>
    have hwrote : Same (p.op.apply w.written) w.files :=
      (p.op.apply_congr (h.written.trans hheld.files₀.symm)).trans hfiles.symm
    refine inv_finish hwrote (hloadable.congr hfiles.symm) (Same.refl _) ?_ (fun hne => absurd rfl hne) ?_
    · refine Same.trans ?_ hfiles.symm
      rcases hm with ⟨id, document, ifMatch, ifNoneMatch, hop, hm⟩ | ⟨id, ifMatch, hop, hm⟩
      · rw [hop]
        exact (hm.trans hheld.memory₀).insert id document
      · rw [hop] at hm ⊢
        exact hm.trans (hheld.memory₀.erase id)
    intro id document ifNoneMatch stored hop _
    have hcheck := hheld.checked
    rw [hop, Op.check] at hcheck
    split_ifs at hcheck with hvalid hpre
    rw [Bool.not_eq_true', Bool.not_eq_false] at hpre
    rw [← hheld.memory₀ id]
    exact eq_of_preconditions hpre
  | false =>
    have hsame := hcare rfl p hcall hstage
    have hfiles₀ : Same w.files p.files₀ := hfiles.trans (Op.apply_of_same hsame)
    rcases hm with ⟨id, document, ifMatch, ifNoneMatch, hop, hm⟩ | ⟨id, ifMatch, hop, hm⟩
    · exact h.fail (hfiles₀.trans hheld.files₀) ((hm.trans hheld.memory₀).trans hfiles₀.symm) hfiles₀.symm hm
    · rw [hop] at hsame
      exact hsame.elim

theorem Inv.restored (lost : List String) : Same (w.survivors lost) w.written ∨
    ∃ p, w.call = some p ∧ p.stage = .sync ∧ Same (w.survivors lost) (p.op.apply w.written) ∧
      Loadable R (p.op.apply w.written) := by
  by_cases hset : ∀ p, w.call = some p → p.stage ≠ .sync
  · exact .inl ((restore_of_same (h.settled hset) lost).trans h.written.symm)
  push Not at hset
  obtain ⟨p, hp, hstage⟩ := hset
  obtain ⟨m, -, hheld⟩ := h.held p hp
  obtain ⟨hfiles, hloadable, -⟩ := hheld.after hstage
  have hwrote : Same (p.op.apply w.durable) (p.op.apply w.written) := p.op.apply_congr h.written.symm
  rcases restore_cases (hfiles.trans (p.op.apply_congr hheld.files₀)) lost with hthere | hlost
  · exact .inr ⟨p, hp, hstage, hthere.trans hwrote,
      hloadable.congr ((p.op.apply_congr hheld.files₀).trans hwrote)⟩
  · exact .inl (hlost.trans h.written.symm)

theorem Inv.crash (lost : List String) : Inv R (w.crash lost) := by
  have hsurvive : Same (w.interrupted (w.survivors lost)) (w.survivors lost) ∧ Loadable R (w.survivors lost) := by
    have hwrote : Loadable R w.written := h.loadable.congr h.written.symm
    rw [World.interrupted]
    rcases h.restored lost with hsame | ⟨p, hcall, hstage, hsame, hloadable⟩
    · refine ⟨?_, hwrote.congr hsame.symm⟩
      cases hcall : w.call with
      | none => exact hsame.symm
      | some p =>
      show Same (if _ then _ else _) _
      split_ifs with hthere
      · intro k
        by_cases hk : k = p.op.id
        · rw [hk, hthere.2]
        · rw [p.op.lookup_apply_of_ne _ hk, hsame k]
      · exact hsame.symm
    · refine ⟨?_, hloadable.congr hsame.symm⟩
      rw [hcall]
      simp only [hstage, hsame p.op.id, and_self, if_true]
      exact hsame.symm
  refine ⟨hsurvive.1, hsurvive.2, fun _ => Same.refl _, ?_, ?_, h.returned⟩
  · intro m hm
    cases hm
  · intro p hp
    cases hp

theorem Inv.openStore (hmemory : w.memory = none) : Inv R (w.openStore R) := by
  have hcall : w.call = none := by
    cases hcall : w.call with
    | none => rfl
    | some p =>
      obtain ⟨m, hm, -⟩ := h.held p hcall
      rw [hmemory] at hm
      cases hm
  have hset : Same w.files w.durable := by
    refine h.settled fun p hp => ?_
    rw [hcall] at hp
    cases hp
  obtain ⟨docs, hdocs, hsame⟩ := OpenStore_of_loadable (h.loadable.congr hset.symm)
  refine ⟨h.written, h.loadable, h.settled, ?_, ?_, h.returned⟩
  · intro m hm _
    obtain rfl : docs = m := some.inj (hdocs.symm.trans hm)
    exact hsame
  · intro p hp
    rw [World.openStore, hcall] at hp
    cases hp

/-- **Every careful step keeps the invariant.** -/
theorem Inv.step {e : Event} (hcare : Careful R w e) : Inv R (step R w e) := by
  have hstep : Step R w e (Insights.step R w e) := step_cases w e
  generalize Insights.step R w e = w' at hstep ⊢
  cases hstep with
  | idle => exact h
  | start m op hmemory hcall => exact h.start op hmemory hcall
  | prepare m p ok hmemory hcall hstage => exact h.prepare ok hmemory hcall hstage
  | change m p outcome hmemory hcall hstage => exact h.change hmemory hcall hstage hcare
  | sync m p ok hmemory hcall hstage => exact h.sync hmemory hcall hstage hcare
  | crash lost => exact h.crash lost
  | openStore hmemory => exact h.openStore hmemory

theorem Inv.sound : Sound R w := by
  refine ⟨fun r hr => (h.returned r hr).agree, fun r hr => (h.returned r hr).unchanged, ?_, ?_⟩
  · intro r id document ifNoneMatch stored hr hop herror
    exact (h.returned r hr).matched id document ifNoneMatch stored hop herror
  intro lost
  rcases h.restored lost with hsame | ⟨p, hcall, hstage, hsame, hloadable⟩
  · obtain ⟨docs, hdocs, hopen⟩ := OpenStore_of_loadable ((h.loadable.congr h.written.symm).congr hsame.symm)
    exact ⟨docs, hdocs, .inl (hopen.trans hsame)⟩
  · obtain ⟨docs, hdocs, hopen⟩ := OpenStore_of_loadable (hloadable.congr hsame.symm)
    exact ⟨docs, hdocs, .inr ⟨p, hcall, hstage, hopen.trans hsame⟩⟩
end

/-- **The store survives restarts**, in every run whose steps are careful. -/
theorem store_survives_restarts (R : Rules V) (files : Docs) (hfiles : Loadable R files) (es : List Event)
    (hcareful : Guarded (Insights.step R) (Careful R) (World.init files) es) :
    Sound R (run (Insights.step R) (World.init files) es) :=
  (guarded_invariant (fun _ _ h => h.step) (inv_init hfiles) hcareful).sound

/-! ### A store with one dashboard -/

/-- `{"schemaVersion":1,"id":"main","title":"Main","timeRange":"1h","refreshInterval":0,"widgets":[]}`. -/
def sampleMembers : List (String × String) :=
  [("schemaVersion", "1"), ("id", "\"main\""), ("title", "\"Main\""), ("timeRange", "\"1h\""), ("refreshInterval", "0"),
    ("widgets", "[]")]

def sampleDocument : Document :=
  ("\x7b" ++ ",".intercalate (sampleMembers.map fun m => "\"" ++ m.1 ++ "\":" ++ m.2) ++ "\x7d").toUTF8.toList

def codes (s : String) : List Nat := s.toList.map Char.toNat

def text (cs : List Nat) : String := String.ofList (cs.map Char.ofNat)

theorem text_codes (s : String) : text (codes s) = s := by simp [text, codes, Function.comp_def, Char.ofNat_toNat]

theorem valuesOf_entries {es : List (Σ _ : String, V)} (k : String) (h : es.NodupKeys) :
    valuesOf (es.map fun e => (e.1, e.2)) k = (es.dlookup k).toList := by
  induction es with
  | nil => rfl
  | cons e es ih =>
    obtain ⟨name, v⟩ := e
    obtain ⟨hname, hrest⟩ := nodupKeys_cons.mp h
    by_cases hk : name = k
    · have hnone : es.dlookup k = none := dlookup_eq_none.mpr (hk ▸ hname)
      have hvalues : valuesOf (es.map fun e => (e.1, e.2)) k = [] := by
        rw [ih hrest, hnone]
        rfl
      rw [← hk, dlookup_cons_eq, map_cons, valuesOf, filterMap_cons, hk]
      rw [valuesOf] at hvalues
      simp [hvalues]
    · rw [dlookup_cons_ne _ _ (Ne.symm hk), ← ih hrest, map_cons, valuesOf, filterMap_cons]
      simp [valuesOf, hk]

/-- Reads the sample, and otherwise rows of zeros, which stand for the objects that are encoded anew. -/
def sampleRules : Rules String where
  decode := fun document =>
    if document = sampleDocument then some sampleMembers
    else (Encodable.decode (document.length - 1)).map fun members : List (List Nat × List Nat) =>
      members.map fun m => (text m.1, text m.2)
  encode := fun fields => 0 :: List.replicate (Encodable.encode (fields.entries.map fun e => (codes e.1, codes e.2))) 0
  decode_encode := by
    intro fields
    refine ⟨fields.entries.map fun e => (e.1, e.2), ?_, fun k => valuesOf_entries k fields.nodupKeys⟩
    have hhead : sampleDocument.head? = some 123 := by decide +kernel
    have hother : 0 :: List.replicate (Encodable.encode (fields.entries.map fun e => (codes e.1, codes e.2))) 0 ≠
        sampleDocument := by
      intro heq
      rw [← heq] at hhead
      cases hhead
    rw [if_neg hother]
    simp [text_codes, Function.comp_def]
  isNull := fun v => v == "null"
  hash := fun document => String.ofList (document.map fun b => Char.ofNat b.toNat)
  hash_injective := by
    intro a b h
    have hlist : a.map (fun b => Char.ofNat b.toNat) = b.map fun b => Char.ofNat b.toNat := by
      simpa using congrArg String.toList h
    refine List.map_injective_iff.mpr ?_ hlist
    intro x y hxy
    have hcode : ∀ z : UInt8, (Char.ofNat z.toNat).toNat = z.toNat := by
      intro z
      have hz := z.toNat_lt
      rw [Char.ofNat, dif_pos (Or.inl (by omega))]
      rfl
    refine UInt8.toNat_inj.mp ?_
    rw [← hcode x, ← hcode y]
    exact congrArg Char.toNat hxy
  canonicalZone := fun v => v == "\"UTC\""
  fieldsValid := fun id values => (values "id").getLast? == some ("\"" ++ id ++ "\"")
  fieldsValid_last := by
    intro id values h
    cases hlast : (values "id").getLast? with
    | none => simp [hlast] at h
    | some v => simpa [hlast] using h

def samplePut : List Event := [.openStore, .start (.put "main" sampleDocument "" ""), .prepare true, .change .done]

theorem reencodes_sample : Reencodes sampleRules sampleDocument := by
  intro members zone hdecode hzone
  have hsample : sampleRules.decode sampleDocument = some sampleMembers := if_pos rfl
  obtain rfl : sampleMembers = members := some.inj (hsample.symm.trans hdecode)
  have hnone : (fieldsOf sampleMembers).lookup "timeZone" = none := by decide
  rw [hnone] at hzone
  cases hzone

/-- A dashboard is stored, and the service crashes and starts again. -/
theorem store_survives_restarts_sample :
    Sound sampleRules (run (step sampleRules) (World.init ∅) (samplePut ++ [.sync true, .crash ["main"], .openStore])) := by
  refine store_survives_restarts sampleRules ∅ loadable_empty _ ⟨trivial, trivial, trivial, ?_, ?_, trivial, trivial, trivial⟩
  · rintro p id document ifMatch ifNoneMatch hcall - hop
    have hdocument : (run (step sampleRules) (World.init ∅) (samplePut.take 3)).call.map (·.op) =
        some (.put "main" sampleDocument "" "") := by decide +kernel
    rw [show (run (step sampleRules) (World.init ∅) (samplePut.take 3)).call = some p from hcall, map_some, hop]
      at hdocument
    obtain ⟨-, rfl, -⟩ := Op.put.inj (some.inj hdocument)
    exact reencodes_sample
  · intro hfalse
    cases hfalse

/-- The directory sync after the rename fails: `Put` returns an error, the directory holds the new dashboard, and memory
does not. -/
theorem unsynced_put_splits_memory :
    ¬ Sound sampleRules (run (step sampleRules) (World.init ∅) (samplePut ++ [.sync false])) := by
  intro h
  have hlast : (run (step sampleRules) (World.init ∅) (samplePut ++ [.sync false])).last.map
      (fun r => (r.memory.lookup "main", r.files.lookup "main")) = some (none, some sampleDocument) := by decide +kernel
  obtain ⟨r, hr, hlook⟩ := map_eq_some_iff.mp hlast
  obtain ⟨hmemory, hfiles⟩ := Prod.mk.inj hlook
  have hagree := h.agree r hr "main"
  rw [hmemory, hfiles] at hagree
  cases hagree

end Paprika.Insights
