import Callable.Store.Basic

/-!
# Snapshots

A snapshot is a finite picture of a value as it is at one moment, with the contents of the lists,
dicts, cells and code objects in it; functions appear by their qualified names. It can be shown and
compared after the program has gone on.

A list, dict, code object or cell inside itself appears as a mere mention. As with rendering, the
walk has two parts: `Value.snapshotBy` is one layer, structural in the value, and
`Store.snapshotWithin` ties the knot. Only code objects are entered within a layer, so the path to
an occurrence travels along with the layer; the number of mutable objects in the store bounds the
number of layers.
-/

namespace Callable

/-- A finite picture of a value. -/
inductive Snapshot where
  | none
  | bool (b : Bool)
  | int (n : Int64)
  | float (x : Binary64)
  | str (text : String)
  | tuple (items : List Snapshot)
  | list (items : List Snapshot)
  | dict (entries : List (String × Snapshot))
  | code (name : String) (consts : List Snapshot) (freeVars : List String)
  | cell (contents : Option Snapshot)
  | function (qualname : String)
  | method (qualname : String) (receiver : Snapshot)
  /-- An object inside itself. -/
  | again (kind : Kind)

/-- The objects that an occurrence is inside of. -/
structure Ancestors where
  lists : List ListRef
  dicts : List DictRef
  cells : List CellRef
  codes : List Label

namespace Ancestors

/-- The value itself is inside of nothing. -/
def none : Ancestors := ⟨[], [], [], []⟩

def addList (p : Ancestors) (r : ListRef) : Ancestors := { p with lists := r :: p.lists }

def addDict (p : Ancestors) (r : DictRef) : Ancestors := { p with dicts := r :: p.dicts }

def addCell (p : Ancestors) (r : CellRef) : Ancestors := { p with cells := r :: p.cells }

def addCode (p : Ancestors) (l : Label) : Ancestors := { p with codes := l :: p.codes }

end Ancestors

/-! ### One layer -/

/-- How the mutable objects of a layer are pictured. -/
structure Depiction where
  list : Ancestors → ListRef → Snapshot
  dict : Ancestors → DictRef → Snapshot
  cell : Ancestors → CellRef → Snapshot
  /-- The qualified name of a function. -/
  qualname : FunctionRef → String

namespace Value

variable (d : Depiction)

mutual

/-- The picture of a value, if mutable objects are pictured in the given way. -/
def snapshotBy (p : Ancestors) : Value → Snapshot
  | .none => .none
  | .bool b => .bool b
  | .int n => .int n
  | .float x => .float x
  | .str s => .str s.text
  | .tuple ⟨_, xs⟩ => .tuple (snapshotItemsBy p xs)
  | .list r => d.list p r
  | .dict r => d.dict p r
  | .code ⟨l, name, xs, freeVars⟩ =>
    if p.codes.contains l then .again .code
    else .code name (snapshotItemsBy (p.addCode l) xs) freeVars
  | .cell r => d.cell p r
  | .function r => .function (d.qualname r)
  | .method ⟨_, f, x⟩ => .method (d.qualname f) (snapshotBy p x)

/-- The pictures of the items. -/
def snapshotItemsBy (p : Ancestors) : List Value → List Snapshot
  | [] => []
  | x :: xs => snapshotBy p x :: snapshotItemsBy p xs

end

end Value

/-! ### The walk -/

namespace Store

/-- The picture of a value inside the given objects. The number bounds the layers; at zero, which no
walk of this store reaches, nothing is pictured. -/
def snapshotWithin (s : Store) : Nat → Ancestors → Value → Snapshot
  | 0, _ => fun _ => .none
  | n + 1, p =>
    Value.snapshotBy
      { list := fun p r =>
          if p.lists.contains r then .again .list
          else .list ((s.list r).map (s.snapshotWithin n (p.addList r)))
        dict := fun p r =>
          if p.dicts.contains r then .again .dict
          else .dict ((s.dict r).map (s.snapshotWithin n (p.addDict r))).entries
        cell := fun p r =>
          if p.cells.contains r then .again .cell
          else .cell ((s.cell r).map (s.snapshotWithin n (p.addCell r)))
        qualname := fun r => (s.function r).qualname }
      p

/-- The picture of a value. -/
def snapshot (s : Store) (v : Value) : Snapshot :=
  s.snapshotWithin (s.lists.size + s.dicts.size + s.cells.size + 1) .none v

end Store

end Callable
