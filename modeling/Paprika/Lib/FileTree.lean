import Mathlib.Data.List.Infix
import Paprika.Lib.KeyedMap

/-!
# File trees with symbolic links

A file system as a tree of directories, files and symbolic links.  A place is the list of the names on the way to it from
the top, the innermost name first.

* `walk` — the resolution of a path with a limit on the links, as a kernel does it;
* `Resolves` — resolution through any chain of links;
* `Kernel` — the calls that look at a tree or add to it, each of which may be refused;
* `Grows` — a tree that has all that another has; **`walk_grows`**, **`walk_append`**, **`resolves_of_walk`**.
-/

namespace Paprika.Lib.FileTree

open Lib.KeyedMap List Option Except

/-! ### Trees -/

inductive Step (N : Type) where
  | here
  | up
  | name (n : N)
  deriving DecidableEq

/-- What a symbolic link holds. -/
structure Path (N : Type) where
  absolute : Bool
  steps : List (Step N)
  deriving DecidableEq

inductive Node (N C : Type) where
  | dir
  | file (content : C)
  | link (target : Path N)

def Node.isDir {N C : Type} : Node N C → Bool
  | .dir => true
  | _ => false

theorem eq_dir_of_isDir {N C : Type} {node : Option (Node N C)} (h : node.any Node.isDir = true) : node = some .dir := by
  rcases node with - | ⟨⟩ | content | target
  · cases h
  · rfl
  · cases h
  · cases h

/-- What is in a directory is in a directory that is there. -/
structure Tree (N C : Type) [DecidableEq N] where
  nodes : Map (List N) (Node N C)
  top : nodes.lookup [] = some .dir
  parents : ∀ n place, nodes.lookup (n :: place) ≠ none → nodes.lookup place = some .dir

namespace Tree

variable {N C : Type} [DecidableEq N]

def node (t : Tree N C) (place : List N) : Option (Node N C) := t.nodes.lookup place

def put (t : Tree N C) (d : List N) (n : N) (new : Node N C) (hdir : t.node d = some .dir) (hfree : t.node (n :: d) = none) :
    Tree N C where
  nodes := t.nodes.insert (n :: d) new
  top := by
    rw [AList.lookup_insert_ne (List.cons_ne_nil n d).symm]
    exact t.top
  parents m place h := by
    by_cases hsame : m :: place = n :: d
    · obtain ⟨rfl, rfl⟩ := List.cons.inj hsame
      have hne : place ≠ m :: place := fun heq => absurd (congrArg List.length heq) (by simp)
      rw [AList.lookup_insert_ne hne]
      exact hdir
    rw [AList.lookup_insert_ne hsame] at h
    have hplace := t.parents m place h
    have hne : place ≠ n :: d := by
      rintro rfl
      rw [node] at hfree
      rw [hfree] at hplace
      cases hplace
    rw [AList.lookup_insert_ne hne]
    exact hplace

/-- What is at or below a place: the names from there, and the node. -/
def below (t : Tree N C) (place : List N) : List (List N × Node N C) :=
  t.nodes.entries.filterMap fun e =>
    if place.isSuffixOf e.1 then some (e.1.take (e.1.length - place.length), e.2) else none

def empty : Tree N C where
  nodes := (∅ : Map (List N) (Node N C)).insert [] .dir
  top := AList.lookup_insert _
  parents n place h := by
    rw [AList.lookup_insert_ne (List.cons_ne_nil n place), AList.lookup_empty] at h
    exact absurd rfl h

theorem node_empty {n : N} {place : List N} : (empty : Tree N C).node (n :: place) = none :=
  (AList.lookup_insert_ne (cons_ne_nil n place)).trans (AList.lookup_empty _)

variable {t : Tree N C} {d place : List N} {n : N} {new : Node N C} {hdir : t.node d = some .dir}
  {hfree : t.node (n :: d) = none}

theorem node_put_self : (t.put d n new hdir hfree).node (n :: d) = some new := AList.lookup_insert _

theorem node_put_of_ne (h : place ≠ n :: d) : (t.put d n new hdir hfree).node place = t.node place :=
  AList.lookup_insert_ne h

theorem mem_below {rel : List N} {node : Node N C} (h : t.node (rel ++ place) = some node) : (rel, node) ∈ t.below place := by
  have hmem : (⟨rel ++ place, node⟩ : Σ _ : List N, Node N C) ∈ t.nodes.entries := AList.mem_lookup_iff.mp h
  refine mem_filterMap.mpr ⟨_, hmem, ?_⟩
  rw [if_pos (isSuffixOf_iff_suffix.mpr (suffix_append rel place)), length_append, Nat.add_sub_cancel,
    take_left]

theorem above_dir : ∀ {place : List N}, t.node place ≠ none → ∀ above, above <:+ place → above ≠ place →
    t.node above = some .dir := by
  intro place
  induction place with
  | nil =>
    intro _ above habove hne
    exact absurd (suffix_nil.mp habove) hne
  | cons n place ih =>
    intro hnode above habove hne
    have hplace := t.parents n place hnode
    rcases suffix_cons_iff.mp habove with heq | hsuffix
    · exact absurd heq hne
    by_cases hsame : above = place
    · rw [hsame]
      exact hplace
    · refine ih ?_ above hsuffix hsame
      rw [node, hplace]
      exact some_ne_none _

theorem tail_dir (h : t.node place = some .dir) : t.node place.tail = some .dir := by
  cases place with
  | nil => exact t.top
  | cons n place =>
  refine t.parents n place ?_
  rw [node] at h
  rw [h]
  exact some_ne_none _

end Tree

/-! ### Resolution -/

inductive Errno where
  | notExist
  | notDir
  | exists
  | loop
  | refused
  deriving DecidableEq

section
variable {N C : Type} [DecidableEq N]

/-- Where the steps of a link begin. -/
def Path.start (target : Path N) (place : List N) : List N := if target.absolute then [] else place

/-- The steps from a directory; `next` goes on after a link. -/
def follow (t : Tree N C) (next : List N → List (Step N) → Except Errno (List N × Nat)) (left : Nat) (place : List N) :
    List (Step N) → Except Errno (List N × Nat)
  | [] => .ok (place, left)
  | .here :: rest => follow t next left place rest
  | .up :: rest => follow t next left place.tail rest
  | .name n :: rest =>
    match t.node (n :: place) with
    | none => .error .notExist
    | some .dir => follow t next left (n :: place) rest
    | some (.file _) => if rest.isEmpty then .ok (n :: place, left) else .error .notDir
    | some (.link target) => next (target.start place) (target.steps ++ rest)

/-- The place that steps from a directory lead to, through at most so many links, and how many links are left. -/
def walk (t : Tree N C) : Nat → List N → List (Step N) → Except Errno (List N × Nat)
  | 0 => follow t (fun _ _ => .error .loop) 0
  | left + 1 => follow t (walk t left) (left + 1)

/-- Resolution through any chain of links. -/
inductive Resolves (t : Tree N C) : List N → List (Step N) → List N → Prop
  | done {place : List N} : Resolves t place [] place
  | here {place : List N} {rest : List (Step N)} {q : List N} : Resolves t place rest q → Resolves t place (.here :: rest) q
  | up {place : List N} {rest : List (Step N)} {q : List N} : Resolves t place.tail rest q → Resolves t place (.up :: rest) q
  | dir {place : List N} {n : N} {rest : List (Step N)} {q : List N} :
      t.node (n :: place) = some .dir → Resolves t (n :: place) rest q → Resolves t place (.name n :: rest) q
  | file {place : List N} {n : N} {content : C} :
      t.node (n :: place) = some (.file content) → Resolves t place [.name n] (n :: place)
  | link {place : List N} {n : N} {target : Path N} {rest : List (Step N)} {q : List N} :
      t.node (n :: place) = some (.link target) → Resolves t (target.start place) (target.steps ++ rest) q →
      Resolves t place (.name n :: rest) q

/-- A tree that has all that another has. -/
def Grows (t t' : Tree N C) : Prop := ∀ place node, t.node place = some node → t'.node place = some node

variable {t t' t'' : Tree N C} {place : List N} {steps : List (Step N)} {left : Nat} {n : N}

theorem Grows.refl : Grows t t := fun _ _ h => h

theorem Grows.trans (h : Grows t t') (h' : Grows t' t'') : Grows t t'' := fun place node hnode => h' place node (h place node hnode)

theorem grows_put {d : List N} {new : Node N C} {hdir : t.node d = some .dir} {hfree : t.node (n :: d) = none} :
    Grows t (t.put d n new hdir hfree) := by
  intro place node hnode
  have hne : place ≠ n :: d := by
    rintro rfl
    rw [hfree] at hnode
    cases hnode
  rw [Tree.node_put_of_ne hne, hnode]

theorem walk_nil : walk t left place [] = .ok (place, left) := by
  cases left with
  | zero => rfl
  | succ left => rfl

variable {q : List N} {rest : List (Step N)} {target : Path N}

theorem walk_here : walk t left place (.here :: rest) = walk t left place rest := by
  cases left with
  | zero => rfl
  | succ left => rfl

theorem walk_up : walk t left place (.up :: rest) = walk t left place.tail rest := by
  cases left with
  | zero => rfl
  | succ left => rfl

/-- One named step, by what is found there. -/
theorem walk_name : walk t left place (.name n :: rest) =
    match t.node (n :: place) with
    | none => .error .notExist
    | some .dir => walk t left (n :: place) rest
    | some (.file _) => if rest.isEmpty then .ok (n :: place, left) else .error .notDir
    | some (.link target) =>
      match left with
      | 0 => .error .loop
      | left + 1 => walk t left (target.start place) (target.steps ++ rest) := by
  cases left with
  | zero => rfl
  | succ left => rfl

theorem walk_dir (h : t.node (n :: place) = some .dir) :
    walk t left place (.name n :: rest) = walk t left (n :: place) rest := by
  rw [walk_name, h]

theorem walk_none (h : t.node (n :: place) = none) : walk t left place (.name n :: rest) = .error .notExist := by
  rw [walk_name, h]

theorem walk_file {content : C} (h : t.node (n :: place) = some (.file content)) :
    walk t left place (.name n :: rest) = if rest.isEmpty then .ok (n :: place, left) else .error .notDir := by
  rw [walk_name, h]

theorem walk_link_zero (h : t.node (n :: place) = some (.link target)) :
    walk t 0 place (.name n :: rest) = .error .loop := by
  rw [walk_name, h]

theorem walk_link_succ (h : t.node (n :: place) = some (.link target)) :
    walk t (left + 1) place (.name n :: rest) = walk t left (target.start place) (target.steps ++ rest) := by
  rw [walk_name, h]

/-- A walk that ends, step by step. -/
theorem walk_induction {r : List N × Nat} {motive : Nat → List N → List (Step N) → Prop} (done : motive r.2 r.1 [])
    (here : ∀ {left place rest}, motive left place rest → motive left place (.here :: rest))
    (up : ∀ {left place rest}, motive left place.tail rest → motive left place (.up :: rest))
    (dir : ∀ {left place n rest}, t.node (n :: place) = some .dir → motive left (n :: place) rest →
      motive left place (.name n :: rest))
    (file : ∀ {place n content}, t.node (n :: place) = some (.file content) → r.1 = n :: place → motive r.2 place [.name n])
    (link : ∀ {left place n target rest}, t.node (n :: place) = some (.link target) →
      motive left (target.start place) (target.steps ++ rest) → motive (left + 1) place (.name n :: rest)) :
    ∀ {left : Nat} {steps : List (Step N)} {place : List N}, walk t left place steps = .ok r → motive left place steps := by
  intro left
  induction left using Nat.strong_induction_on with
  | _ left ihl =>
  intro steps
  induction steps with
  | nil =>
    intro place h
    rw [walk_nil] at h
    obtain rfl := ok.inj h
    exact done
  | cons step rest ih =>
    intro place h
    cases step with
    | here => exact here (ih (walk_here.symm.trans h))
    | up => exact up (ih (walk_up.symm.trans h))
    | name n =>
    cases hnode : t.node (n :: place) with
    | none =>
      rw [walk_none hnode] at h
      cases h
    | some node =>
    cases node with
    | dir => exact dir hnode (ih ((walk_dir hnode).symm.trans h))
    | file content =>
      rw [walk_file hnode] at h
      split_ifs at h with hempty
      obtain rfl := ok.inj h
      obtain rfl := isEmpty_iff.mp hempty
      exact file hnode rfl
    | link target =>
    cases left with
    | zero =>
      rw [walk_link_zero hnode] at h
      cases h
    | succ left => exact link hnode (ihl left (Nat.lt_succ_self left) ((walk_link_succ hnode).symm.trans h))

theorem walk_grows (h : Grows t t') {q : List N × Nat} :
    walk t left place steps = .ok q → walk t' left place steps = .ok q := by
  refine walk_induction (motive := fun left place steps => walk t' left place steps = .ok q) walk_nil walk_here.trans
    walk_up.trans (fun hnode ih => (walk_dir (h _ _ hnode)).trans ih) (fun hnode hend => ?_)
    fun hnode ih => (walk_link_succ (h _ _ hnode)).trans ih
  rw [walk_file (h _ _ hnode), ← hend]
  rfl

theorem walk_append {steps' : List (Step N)} {left' : Nat} (hq : t.node q = some .dir) :
    walk t left place steps = .ok (q, left') → walk t left place (steps ++ steps') = walk t left' q steps' := by
  refine walk_induction (motive := fun left place steps => walk t left place (steps ++ steps') = walk t left' q steps') rfl
    walk_here.trans walk_up.trans (fun hnode ih => (walk_dir hnode).trans ih) (fun hnode hend => ?_) fun hnode ih => ?_
  · rw [← hend, hq] at hnode
    cases hnode
  · rw [append_assoc] at ih
    exact (walk_link_succ hnode).trans ih

theorem Path.start_dir (h : t.node place = some .dir) : t.node (target.start place) = some .dir := by
  rw [Path.start]
  split_ifs
  · exact t.top
  · exact h

theorem walk_split {steps' : List (Step N)} (hsteps' : steps' ≠ []) {r : List N × Nat} :
    ∀ {left : Nat} {steps : List (Step N)} {place : List N}, walk t left place (steps ++ steps') = .ok r →
      t.node place = some .dir → ∃ d left', walk t left place steps = .ok (d, left') ∧ t.node d = some .dir := by
  intro left
  induction left using Nat.strong_induction_on with
  | _ left ihl =>
  intro steps
  induction steps with
  | nil => exact fun _ hplace => ⟨_, left, walk_nil, hplace⟩
  | cons step rest ih =>
    intro place h hplace
    rw [cons_append] at h
    cases step with
    | here =>
      rw [walk_here] at h ⊢
      exact ih h hplace
    | up =>
      rw [walk_up] at h ⊢
      exact ih h (Tree.tail_dir hplace)
    | name n =>
    cases hnode : t.node (n :: place) with
    | none =>
      rw [walk_none hnode] at h
      cases h
    | some node =>
    cases node with
    | dir =>
      rw [walk_dir hnode] at h ⊢
      exact ih h hnode
    | file content =>
      rw [walk_file hnode, if_neg (by simp [hsteps'])] at h
      cases h
    | link target =>
    cases left with
    | zero =>
      rw [walk_link_zero hnode] at h
      cases h
    | succ left =>
      rw [walk_link_succ hnode, ← append_assoc] at h
      rw [walk_link_succ hnode]
      exact ihl left (Nat.lt_succ_self left) h (Path.start_dir hplace)

theorem walk_names {left : Nat} {place : List N} : ∀ {rel : List N}, t.node (rel ++ place) = some .dir →
    walk t left place (rel.reverse.map .name) = .ok (rel ++ place, left) := by
  intro rel
  induction rel with
  | nil => exact fun _ => walk_nil
  | cons n rel ih =>
    intro h
    have hparent : t.node (n :: rel ++ place).tail = some .dir := Tree.tail_dir h
    rw [cons_append, tail_cons] at hparent
    rw [reverse_cons, map_append, walk_append hparent (ih hparent)]
    exact (walk_dir h).trans walk_nil

/-- **What a kernel resolves resolves** through its chain of links. -/
theorem resolves_of_walk {left' : Nat} :
    walk t left place steps = .ok (q, left') → Resolves t place steps q := by
  refine walk_induction (motive := fun _ place steps => Resolves t place steps q) .done .here .up .dir ?_ .link
  rintro place n content hnode rfl
  exact .file hnode

theorem Resolves.unique {q' : List N} (h : Resolves t place steps q)
    (h' : Resolves t place steps q') : q' = q := by
  induction h with
  | done =>
    cases h'
    rfl
  | here _ ih =>
    cases h' with
    | here h' => exact ih h'
  | up _ ih =>
    cases h' with
    | up h' => exact ih h'
  | dir hnode _ ih =>
    cases h' with
    | dir _ h' => exact ih h'
    | file hnode' => cases hnode.symm.trans hnode'
    | link hnode' _ => cases hnode.symm.trans hnode'
  | file hnode =>
    cases h' with
    | dir hnode' _ => cases hnode.symm.trans hnode'
    | file _ => rfl
    | link hnode' _ => cases hnode.symm.trans hnode'
  | link hnode _ ih =>
    cases h' with
    | dir hnode' _ => cases hnode.symm.trans hnode'
    | file hnode' => cases hnode.symm.trans hnode'
    | link hnode' h' =>
      cases hnode.symm.trans hnode'
      exact ih h'

theorem Resolves.there (h : Resolves t place steps q)
    (hplace : t.node place = some .dir) : ∃ node, t.node q = some node := by
  induction h with
  | done => exact ⟨.dir, hplace⟩
  | here _ ih => exact ih hplace
  | up _ ih => exact ih (Tree.tail_dir hplace)
  | dir hnode _ ih => exact ih hnode
  | file hnode => exact ⟨_, hnode⟩
  | link _ _ ih => exact ih (Path.start_dir hplace)
end

/-! ### Calls -/

inductive Call (N C : Type) where
  | stat
  | lstat
  | add (new : Node N C)
  | readDir
  | evalSymlinks

/-- A limit on the links of a path, and calls that are refused for reasons of their own: a full disk, a long name. -/
structure Kernel (N C : Type) [DecidableEq N] where
  links : Nat
  refuses : Call N C → List N → Tree N C → Bool

namespace Kernel

variable {N C : Type} [DecidableEq N] (K : Kernel N C)

/-- The place that a path leads to, all links followed.  A path is absolute and has its innermost name first. -/
def locate (t : Tree N C) (path : List N) : Except Errno (List N × Nat) := walk t K.links [] (path.reverse.map .name)

def stat (t : Tree N C) (path : List N) : Except Errno (Node N C) :=
  if K.refuses .stat path t then .error .refused
  else match K.locate t path with
    | .error e => .error e
    | .ok (place, _) =>
      match t.node place with
      | none => .error .notExist
      | some node => .ok node

/-- The node of a path whose last name is not followed. -/
def lstat (t : Tree N C) (path : List N) : Except Errno (Node N C) :=
  if K.refuses .lstat path t then .error .refused
  else match path with
    | [] => .ok .dir
    | n :: above =>
      match K.locate t above with
      | .error e => .error e
      | .ok (d, _) =>
        match t.node d with
        | some .dir =>
          match t.node (n :: d) with
          | none => .error .notExist
          | some node => .ok node
        | _ => .error .notDir

/-- A new node, where nothing is: a directory, a file that is opened with `O_CREATE|O_EXCL`, or a link. -/
def add (t : Tree N C) (path : List N) (new : Node N C) : Except Errno (Tree N C) :=
  if K.refuses (.add new) path t then .error .refused
  else match path with
    | [] => .error .exists
    | n :: above =>
      match K.locate t above with
      | .error e => .error e
      | .ok (d, _) =>
        if hdir : (t.node d).any Node.isDir = true then
          if hfree : (t.node (n :: d)).isNone = true then
            .ok (t.put d n new (eq_dir_of_isDir hdir) (Option.isNone_iff_eq_none.mp hfree))
          else .error .exists
        else .error .notDir

/-- `os.MkdirAll`: the directory of a path, and those above it that are not there. -/
def mkdirAll (t : Tree N C) : List N → Tree N C × Option Errno
  | [] => (t, none)
  | n :: above =>
    match K.stat t (n :: above) with
    | .ok .dir => (t, none)
    | .ok _ => (t, some .notDir)
    | .error _ =>
      match mkdirAll t above with
      | (t, some e) => (t, some e)
      | (t, none) =>
        match K.add t (n :: above) .dir with
        | .ok t => (t, none)
        | .error e =>
          match K.lstat t (n :: above) with
          | .ok .dir => (t, none)
          | _ => (t, some e)

variable {K} {t t' : Tree N C} {path above d : List N} {n : N} {new : Node N C} {left : Nat}

theorem locate_grows (h : Grows t t') {place : List N} (hplace : K.locate t path = .ok (place, left)) :
    K.locate t' path = .ok (place, left) := walk_grows h hplace

theorem locate_append {rel root place : List N} (hroot : K.locate t root = .ok (place, left))
    (hrel : t.node (rel ++ place) = some .dir) : K.locate t (rel ++ root) = .ok (rel ++ place, left) := by
  have hplace : t.node place = some .dir := by
    by_cases hsame : place = rel ++ place
    · rw [hsame]
      exact hrel
    · refine Tree.above_dir ?_ place (suffix_append rel place) hsame
      rw [hrel]
      exact some_ne_none _
  rw [locate, reverse_append, map_append, walk_append hplace hroot]
  exact walk_names hrel

theorem locate_above {rest place : List N} (h : K.locate t (rest ++ path) = .ok (place, left)) (hplace : t.node place = some .dir) :
    ∃ d left', K.locate t path = .ok (d, left') ∧ t.node d = some .dir := by
  by_cases hrest : rest = []
  · rw [hrest, nil_append] at h
    exact ⟨place, left, h, hplace⟩
  · rw [locate, reverse_append, map_append] at h
    exact walk_split (by simpa using hrest) h t.top

/-- A path on from a directory that no link and no file is on leads to its own names. -/
theorem locate_clear {root place : List N} (hroot : K.locate t root = .ok (place, left)) (hplace : t.node place = some .dir) :
    ∀ {rel q : List N} {left' : Nat}, (∀ d, d <:+ rel → t.node (d ++ place) = some .dir ∨ t.node (d ++ place) = none) →
      K.locate t (rel ++ root) = .ok (q, left') → t.node (rel ++ place) = some .dir ∧ q = rel ++ place := by
  intro rel
  induction rel with
  | nil =>
    intro q left' _ h
    obtain ⟨rfl, -⟩ := Prod.mk.inj (ok.inj (hroot.symm.trans h))
    exact ⟨hplace, rfl⟩
  | cons n rel ih =>
    intro q left' hclear h
    have hwalk := h
    rw [locate, cons_append, reverse_cons, map_append] at hwalk
    obtain ⟨d, left'', habove, hd⟩ := walk_split (cons_ne_nil _ _) hwalk t.top
    have hrel := (ih (fun d hd => hclear d (hd.trans (suffix_cons n rel))) habove).1
    have hin := locate_append hroot hrel
    rcases hclear (n :: rel) suffix_rfl with hdir | hnone
    · have hall := locate_append hroot hdir
      exact ⟨hdir, (Prod.mk.inj (ok.inj (h.symm.trans hall))).1⟩
    · have hnone' : t.node (n :: (rel ++ place)) = none := hnone
      rw [walk_append hrel hin, map_singleton, walk_none hnone'] at hwalk
      cases hwalk

theorem add_ok (h : K.add t path new = .ok t') : ∃ n above d left, path = n :: above ∧ K.locate t above = .ok (d, left) ∧
    t.node d = some .dir ∧ t.node (n :: d) = none ∧ Grows t t' ∧ t'.node (n :: d) = some new ∧
    ∀ place, place ≠ n :: d → t'.node place = t.node place := by
  cases path with
  | nil =>
    rw [add] at h
    split_ifs at h
  | cons n above =>
  rw [add] at h
  split_ifs at h
  split at h
  · cases h
  · rename_i d left hlocate
    split_ifs at h with hdir hfree
    obtain rfl := ok.inj h
    exact ⟨n, above, d, left, rfl, hlocate, eq_dir_of_isDir hdir, isNone_iff_eq_none.mp hfree, grows_put,
      Tree.node_put_self, fun _ hne => Tree.node_put_of_ne hne⟩

theorem lstat_ok {node : Node N C} (h : K.lstat t (n :: above) = .ok node) :
    ∃ d left, K.locate t above = .ok (d, left) ∧ t.node d = some .dir ∧ t.node (n :: d) = some node := by
  rw [lstat] at h
  split_ifs at h
  split at h
  · cases h
  · rename_i d left hlocate
    split at h
    · rename_i hdir
      split at h
      · cases h
      · rename_i node' hnode
        obtain rfl := ok.inj h
        exact ⟨d, left, hlocate, hdir, hnode⟩
    · cases h

theorem lstat_notExist (h : K.lstat t (n :: above) = .error .notExist) (hlocate : K.locate t above = .ok (d, left))
    (hdir : t.node d = some .dir) : t.node (n :: d) = none := by
  rw [lstat, hlocate] at h
  split_ifs at h
  · cases h
  simp only [hdir] at h
  cases hnode : t.node (n :: d) with
  | none => rfl
  | some node =>
    rw [hnode] at h
    cases h

theorem mkdirAll_grows : ∀ {path : List N}, Grows t (K.mkdirAll t path).1 := by
  intro path
  induction path with
  | nil => exact Grows.refl
  | cons n above ih =>
    rw [mkdirAll]
    split
    · exact Grows.refl
    · exact Grows.refl
    · split
      · rename_i t' e habove
        rw [habove] at ih
        exact ih
      · rename_i t' habove
        rw [habove] at ih
        split
        · rename_i t'' hadd
          obtain ⟨-, -, -, -, -, -, -, -, hgrows, -, -⟩ := add_ok hadd
          exact ih.trans hgrows
        · split
          · exact ih
          · exact ih

theorem mkdirAll_new : ∀ {path : List N} {place : List N} {node : Node N C}, (K.mkdirAll t path).1.node place = some node →
    t.node place = none → node = .dir ∧ ∃ above left, above <:+ path ∧ K.locate (K.mkdirAll t path).1 above = .ok (place, left) := by
  intro path
  induction path with
  | nil =>
    intro place node hnode hnone
    exact absurd (hnone.symm.trans hnode) (some_ne_none _).symm
  | cons n above ih =>
    intro place node hnode hnone
    rw [mkdirAll] at hnode ⊢
    split at hnode
    · exact absurd (hnone.symm.trans hnode) (some_ne_none _).symm
    · exact absurd (hnone.symm.trans hnode) (some_ne_none _).symm
    · split at hnode
      · rename_i t' e habove
        have hih := @ih place node
        rw [habove] at hih
        obtain ⟨hdir, p, left, hp, hlocate⟩ := hih hnode hnone
        exact ⟨hdir, p, left, hp.trans (suffix_cons n above), hlocate⟩
      · rename_i t' habove
        have hih := @ih place node
        rw [habove] at hih
        have hpre : ∀ {t'' : Tree N C}, Grows t' t'' → t'.node place = some node →
            node = .dir ∧ ∃ p left, p <:+ n :: above ∧ K.locate t'' p = .ok (place, left) := by
          intro t'' hgrows hnode'
          obtain ⟨hdir, p, left, hp, hlocate⟩ := hih hnode' hnone
          exact ⟨hdir, p, left, hp.trans (suffix_cons n above), locate_grows hgrows hlocate⟩
        split at hnode
        · rename_i t'' hadd
          obtain ⟨n', above', d, left, hpath, hlocate, hdir, hfree, hgrows, hnew, hother⟩ := add_ok hadd
          obtain ⟨rfl, rfl⟩ := List.cons.inj hpath
          by_cases hplace : place = n :: d
          · subst hplace
            obtain rfl := some.inj (hnew.symm.trans hnode)
            exact ⟨rfl, n :: above, left, suffix_rfl,
              @locate_append N C _ K t'' left [n] above d (locate_grows hgrows hlocate) hnew⟩
          · exact hpre hgrows (hother place hplace ▸ hnode)
        · split at hnode
          · exact hpre Grows.refl hnode
          · exact hpre Grows.refl hnode

/-- The last name of a path is that of a link. -/
def IsLink (K : Kernel N C) (t : Tree N C) : List N → Prop
  | [] => False
  | n :: above => ∃ d left target, K.locate t above = .ok (d, left) ∧ t.node (n :: d) = some (.link target)

/-- The last name of a path is that of a directory. -/
structure RealDir (K : Kernel N C) (t : Tree N C) (path place : List N) (left : Nat) : Prop where
  locate : K.locate t path = .ok (place, left)
  dir : t.node place = some .dir
  real : ∀ n above, path = n :: above → ∃ d, place = n :: d ∧ K.locate t above = .ok (d, left)

theorem RealDir.grows {place : List N} (h : RealDir K t path place left) (hgrows : Grows t t') : RealDir K t' path place left where
  locate := locate_grows hgrows h.locate
  dir := hgrows _ _ h.dir
  real n above hpath := by
    obtain ⟨d, hplace, hlocate⟩ := h.real n above hpath
    exact ⟨d, hplace, locate_grows hgrows hlocate⟩

theorem RealDir.lstat {place : List N} {node : Node N C} (h : RealDir K t path place left) (hnode : K.lstat t path = .ok node) :
    node = .dir := by
  cases path with
  | nil =>
    rw [Kernel.lstat] at hnode
    split_ifs at hnode
    exact (ok.inj hnode).symm
  | cons n above =>
    obtain ⟨d, rfl, hlocate⟩ := h.real n above rfl
    obtain ⟨d', left', hlocate', -, hthere⟩ := lstat_ok hnode
    obtain ⟨rfl, -⟩ := Prod.mk.inj (ok.inj (hlocate.symm.trans hlocate'))
    exact some.inj (hthere.symm.trans h.dir)

theorem realDir_cons (hlocate : K.locate t above = .ok (d, left)) (hdir : t.node (n :: d) = some .dir) :
    RealDir K t (n :: above) (n :: d) left where
  locate := @locate_append N C _ K t left [n] above d hlocate hdir
  dir := hdir
  real m above' hpath := by
    obtain ⟨rfl, rfl⟩ := List.cons.inj hpath
    exact ⟨d, rfl, hlocate⟩

/-- **`MkdirAll` leaves a directory**, at the end of links only if the path is one. -/
theorem mkdirAll_ok (h : K.mkdirAll t path = (t', none)) : ∃ place left, K.locate t' path = .ok (place, left) ∧
    t'.node place = some .dir ∧ (¬IsLink K t path → RealDir K t' path place left) := by
  cases path with
  | nil =>
    obtain ⟨rfl, -⟩ := Prod.mk.inj h
    refine ⟨[], K.links, walk_nil, t.top, fun _ => ⟨walk_nil, t.top, ?_⟩⟩
    intro n above hpath
    cases hpath
  | cons n above =>
  have hreal : ∀ {d : List N} {left : Nat}, K.locate t' above = .ok (d, left) → t'.node (n :: d) = some .dir →
      ∃ place left, K.locate t' (n :: above) = .ok (place, left) ∧ t'.node place = some .dir ∧
        (¬IsLink K t (n :: above) → RealDir K t' (n :: above) place left) := by
    intro d left hlocate hdir
    have hrd := realDir_cons hlocate hdir
    exact ⟨n :: d, left, hrd.locate, hrd.dir, fun _ => hrd⟩
  rw [mkdirAll] at h
  split at h
  · rename_i hstat
    obtain ⟨rfl, -⟩ := Prod.mk.inj h
    rw [stat] at hstat
    split_ifs at hstat
    split at hstat
    · cases hstat
    · rename_i place left hlocate
      split at hstat
      · cases hstat
      · rename_i node hnode
        obtain rfl := ok.inj hstat
        refine ⟨place, left, hlocate, hnode, ?_⟩
        intro hnot
        have hwalk := hlocate
        rw [locate, reverse_cons, map_append] at hwalk
        obtain ⟨d, left', habove, hd⟩ := walk_split (cons_ne_nil _ _) hwalk t.top
        rw [walk_append hd habove, map_singleton] at hwalk
        cases hlast : t.node (n :: d) with
        | none =>
          rw [walk_none hlast] at hwalk
          cases hwalk
        | some last =>
        cases last with
        | dir =>
          rw [walk_dir hlast, walk_nil] at hwalk
          obtain ⟨rfl, rfl⟩ := Prod.mk.inj (ok.inj hwalk)
          exact realDir_cons habove hlast
        | file content =>
          rw [walk_file hlast, if_pos isEmpty_nil] at hwalk
          obtain ⟨rfl, rfl⟩ := Prod.mk.inj (ok.inj hwalk)
          rw [hlast] at hnode
          cases hnode
        | link target => exact absurd ⟨d, left', target, habove, hlast⟩ hnot
  · cases h
  · split at h
    · cases h
    · rename_i t'' habove
      split at h
      · rename_i t''' hadd
        obtain ⟨rfl, -⟩ := Prod.mk.inj h
        obtain ⟨n', above', d, left, hpath, hlocate, -, -, hgrows, hnew, -⟩ := add_ok hadd
        obtain ⟨rfl, rfl⟩ := List.cons.inj hpath
        exact hreal (locate_grows hgrows hlocate) hnew
      split at h
      · rename_i hlstat
        obtain ⟨rfl, -⟩ := Prod.mk.inj h
        obtain ⟨d, left, hlocate, -, hnode⟩ := lstat_ok hlstat
        exact hreal hlocate hnode
      · cases h

end Kernel

end Paprika.Lib.FileTree
