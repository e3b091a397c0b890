import Mathlib.Data.List.Basic

/-!
# Hashes of directories

`ComputeDirHash` walks a directory in lexical order and writes the path and the content of each file into one hash, one behind
the other and with nothing between them.

* `eq_of_written` — what is written tells the files where it is known how long each part is;
* **`dir_hash_identifies_iff`** — which directories the hash tells apart.
-/

namespace Paprika.Source

open List

/-- What `Lstat` finds; the entries of a directory are in the lexical order of their names. -/
inductive Node where
  | file (content : List UInt8)
  | dir (entries : List (List UInt8 × Node))

/-- `.git`. -/
def gitName : List UInt8 := [46, 103, 105, 116]

/-- `filepath.Rel` of an entry, from that of its directory. -/
def relIn (rel name : List UInt8) : List UInt8 := if rel = [] then name else rel ++ 47 :: name

mutual

/-- The regular files that are visited, each with its path and content. -/
def Node.files (rel : List UInt8) : Node → List (List UInt8 × List UInt8)
  | .file content => [(rel, content)]
  | .dir entries => filesIn rel entries

/-- `skipDirHashEntry` leaves out what is called `.git`. -/
def filesIn (rel : List UInt8) : List (List UInt8 × Node) → List (List UInt8 × List UInt8)
  | [] => []
  | (name, node) :: rest => (if name = gitName then [] else node.files (relIn rel name)) ++ filesIn rel rest
end

/-- A directory that is hashed, with its own name. -/
structure Directory where
  name : List UInt8
  entries : List (List UInt8 × Node)

def Directory.files (d : Directory) : List (List UInt8 × List UInt8) := if d.name = gitName then [] else filesIn [] d.entries

/-- The bytes that are hashed. -/
def Directory.written (d : Directory) : List UInt8 := d.files.flatMap fun f => f.1 ++ f.2

/-- How long each path and each content is. -/
def Directory.layout (d : Directory) : List (Nat × Nat) := d.files.map fun f => (f.1.length, f.2.length)

variable {H : Type}

def computeDirHash (sha256 : List UInt8 → H) (d : Directory) : H := sha256 d.written

theorem eq_of_written {fs gs : List (List UInt8 × List UInt8)}
    (hlayout : fs.map (fun f => (f.1.length, f.2.length)) = gs.map fun f => (f.1.length, f.2.length))
    (hwrote : (fs.flatMap fun f => f.1 ++ f.2) = gs.flatMap fun f => f.1 ++ f.2) : fs = gs := by
  induction fs generalizing gs with
  | nil => exact (map_eq_nil_iff.mp hlayout.symm).symm
  | cons f fs ih =>
    cases gs with
    | nil => cases hlayout
    | cons g gs =>
    obtain ⟨hlengths, hrest⟩ := List.cons.inj hlayout
    obtain ⟨hpath, hcont⟩ := Prod.mk.inj hlengths
    rw [flatMap_cons, flatMap_cons, append_assoc, append_assoc] at hwrote
    obtain ⟨hpath, hwrote⟩ := append_inj hwrote hpath
    obtain ⟨hcont, hwrote⟩ := append_inj hwrote hcont
    rw [Prod.ext hpath hcont, ih hrest hwrote]

/-- **Which directories the hash tells apart.**  Equal hashes mean equal files exactly for those that have paths and contents of
the same lengths, or of which different bytes are hashed. -/
theorem dir_hash_identifies_iff (sha256 : List UInt8 → H) (hsha : Function.Injective sha256) (a b : Directory) :
    (computeDirHash sha256 a = computeDirHash sha256 b → a.files = b.files) ↔ a.layout = b.layout ∨ a.written ≠ b.written := by
  constructor
  · intro h
    by_cases hwritten : a.written = b.written
    · exact .inl (congrArg (map _) (h (congrArg sha256 hwritten)))
    · exact .inr hwritten
  · intro h hhash
    have hwritten : a.written = b.written := hsha hhash
    exact eq_of_written (h.resolve_right (not_not.mpr hwritten)) hwritten

/-- A directory with one file. -/
def oneFile (path content : List UInt8) : Directory := ⟨[100], [(path, .file content)]⟩

theorem dir_hash_identifies_changed : (computeDirHash id (oneFile [97] [98]) = computeDirHash id (oneFile [97] [99]) →
    (oneFile [97] [98]).files = (oneFile [97] [99]).files) ↔
      (oneFile [97] [98]).layout = (oneFile [97] [99]).layout ∨ (oneFile [97] [98]).written ≠ (oneFile [97] [99]).written :=
  dir_hash_identifies_iff id Function.injective_id _ _

/-- The file `a` with the content `bc`, and the file `ab` with the content `c`. -/
theorem path_runs_into_content : computeDirHash id (oneFile [97] [98, 99]) = computeDirHash id (oneFile [97, 98] [99]) ∧
    ¬∀ f, f ∈ (oneFile [97] [98, 99]).files ↔ f ∈ (oneFile [97, 98] [99]).files := by
  refine ⟨rfl, fun h => ?_⟩
  have hfile := (h ([97], [98, 99])).mp (by decide)
  exact absurd hfile (by decide)

end Paprika.Source
