import Mathlib.Data.List.Perm.Subperm
import Paprika.Lib.Unstructured

/-!
# Engine: the values of a chart

The parameters of an application are written into the values of its chart one after another (`buildValues`), in whatever
order the map of the parameters is visited.

**`values_order_free_iff`** — the order does not matter exactly if no two of the parameters clash at a tree of values that
others lead to.
-/

namespace Paprika.Engine

open Lib.Unstructured List

/-- What the libraries do: `yaml.Unmarshal`, `strvals.ParseInto` and the verb `%q`.  A tree is a map of values. -/
structure ValuesLibrary (Tree : Type) where
  unmarshal : String → Except String Tree
  parseInto : String → Tree → Except String Tree
  quote : String → String
  empty : Tree

def replaceAll (old : Char) (new s : String) : String :=
  String.ofList (s.toList.flatMap fun c => if c = old then new.toList else [c])

def escapeStrvalsValue (v : String) : String := replaceAll ',' "\\," (replaceAll '\\' "\\\\" v)

section
variable {Tree : Type} (L : ValuesLibrary Tree)

/-- One round of the loop over the parameters. -/
def parseParameter (merged : Tree) (param : String × String) : Except String Tree :=
  (L.parseInto (param.1 ++ "=" ++ escapeStrvalsValue param.2) merged).mapError
    (fun e => "parse parameter " ++ L.quote param.1 ++ ": " ++ e)

/-- The values that the parameters are written into. -/
def baseValues (baseContent : String) : Except String Tree :=
  if baseContent ≠ "" then (L.unmarshal baseContent).mapError ("parse base values: " ++ ·) else .ok L.empty

/-- `buildValues`, with the parameters in the order in which they are visited. -/
def buildValues (params : List (String × String)) (baseContent : String) : Except String Tree :=
  baseValues L baseContent >>= params.foldlM (parseParameter L)

/-- Every order of the parameters has the same outcome. -/
def OrderFree (params : List (String × String)) (baseContent : String) : Prop :=
  ∀ order order', order ~ params → order' ~ params → buildValues L order baseContent = buildValues L order' baseContent

/-- At this tree, it matters which of two parameters is written first, with others after them. -/
def Clash (tree : Tree) (p q : String × String) (after : List (String × String)) : Prop :=
  (p :: q :: after).foldlM (parseParameter L) tree ≠ (q :: p :: after).foldlM (parseParameter L) tree

/-- No two of the parameters clash at a tree that some of the others lead to, with the rest of them after the two. -/
def ClashFree (params : List (String × String)) (baseContent : String) : Prop :=
  ∀ before p q after base tree, before ++ p :: q :: after ~ params → baseValues L baseContent = .ok base →
    before.foldlM (parseParameter L) base = .ok tree → ¬Clash L tree p q after

/-- No two of the parameters clash, also without the rest. -/
def PairsCommute (params : List (String × String)) (baseContent : String) : Prop :=
  ∀ before p q base tree, before ++ [p, q] <+~ params → baseValues L baseContent = .ok base →
    before.foldlM (parseParameter L) base = .ok tree → ¬Clash L tree p q []

variable {L} {params : List (String × String)} {baseContent : String} {base : Tree}

theorem buildValues_append (hbase : baseValues L baseContent = .ok base) (before after : List (String × String)) :
    buildValues L (before ++ after) baseContent =
      before.foldlM (parseParameter L) base >>= after.foldlM (parseParameter L) := by
  rw [buildValues, hbase]
  exact foldlM_append

/-- The rest of the parameters may be visited in any order, after those that were visited before. -/
theorem ClashFree.buildValues_perm (h : ClashFree L params baseContent) (hbase : baseValues L baseContent = .ok base)
    {order order' : List (String × String)} (hperm : order ~ order') : ∀ before, before ++ order ~ params →
      buildValues L (before ++ order) baseContent = buildValues L (before ++ order') baseContent := by
  induction hperm with
  | nil => exact fun _ _ => rfl
  | cons p _ ih =>
    intro before hall
    simpa only [append_assoc, singleton_append] using ih (before ++ [p]) (by simpa using hall)
  | swap p q rest =>
    intro before hall
    rw [buildValues_append hbase, buildValues_append hbase]
    cases htree : before.foldlM (parseParameter L) base with
    | error e => rfl
    | ok tree => exact not_not.mp (h before q p rest base tree hall hbase htree)
  | trans hfirst _ ih ih' =>
    intro before hall
    exact (ih before hall).trans (ih' before ((hfirst.append_left before).symm.trans hall))

theorem orderFree_iff : OrderFree L params baseContent ↔ ClashFree L params baseContent := by
  constructor
  · intro h before p q after base tree hall hbase htree hclash
    have hsame := h _ _ hall (((Perm.swap p q after).append_left before).trans hall)
    rw [buildValues_append hbase, buildValues_append hbase, htree] at hsame
    exact hclash hsame
  · intro h order order' horder horder'
    cases hbase : baseValues L baseContent with
    | error e => rw [buildValues, buildValues, hbase]; rfl
    | ok base => exact h.buildValues_perm hbase (horder.trans horder'.symm) [] horder

theorem clashFree_of_pairsCommute (h : PairsCommute L params baseContent) : ClashFree L params baseContent := by
  intro before p q after base tree hall hbase htree hclash
  have hsub : before ++ [p, q] <+~ params :=
    (sublist_append_left (before ++ [p, q]) after).subperm.trans (by simpa using hall.subperm)
  have hswap := not_not.mp (h before p q base tree hsub hbase htree)
  refine hclash ?_
  show ([p, q] ++ after).foldlM (parseParameter L) tree = ([q, p] ++ after).foldlM (parseParameter L) tree
  rw [foldlM_append, foldlM_append, hswap]
end

/-- `strvals.ParseInto` below a path of names. -/
def setBelow (v : Value) : List String → Fields → Except String Fields
  | [], tree => .ok tree
  | [k], tree => .ok (setField k v tree)
  | k :: path, tree =>
    match tree.lookup k with
    | none => (setBelow v path []).map fun inner => setField k (.obj inner) tree
    | some (.obj inner) => (setBelow v path inner).map fun inner => setField k (.obj inner) tree
    | some _ => .error "unable to parse key: interface conversion: interface {} is string, not map[string]interface {}"

def plainValues : ValuesLibrary Fields :=
  { unmarshal := fun _ => .ok []
    parseInto := fun line =>
      let key := line.toList.takeWhile (· ≠ '=')
      setBelow (.str (String.ofList (line.toList.drop (key.length + 1)))) ((key.splitOn '.').map String.ofList)
    quote := fun s => "\"" ++ s ++ "\""
    empty := [] }

end Paprika.Engine
