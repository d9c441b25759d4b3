import Callable.Float.Written
import Callable.Store.Basic
import Callable.Text.Quoted
import Callable.Text.Rope

/-!
# Rendering

The text a program sees when it prints a value. Tuples, lists, dicts and the receivers of bound
methods are written with their contents; code objects, cells and functions are named with their
address and not entered.

A list or dict inside itself is elided. As with equality, the walk has two parts:

* `Value.renderBy` is one layer, structural in the value, which hands lists and dicts to the two
  renderings it is given.
* `Store.renderWithin` ties the knot: an occurrence of a container inside itself is a placeholder,
  any other is written with its contents, one layer deeper. The containers that enclose an
  occurrence are all different, so the number of containers in the store bounds the depth.

Texts are put together as ropes, so what is written takes no longer for being deeply nested.

The format's own decisions: a tuple of one item keeps its comma, and a tuple without items is
written as nothing at all.
-/

namespace Callable

/-! ### Pieces of text -/

namespace Rendering

open Text (Rope)

/-- The pieces with a comma and a space between them. -/
def commaSeparated : List Rope → Rope
  | [] => .text []
  | [x] => x
  | x :: rest => x ++ [',', ' '] ++ commaSeparated rest

/-- A tuple of written items. -/
def tuple : List Rope → Rope
  | [] => .text []
  | [x] => ['('] ++ x ++ [',', ')']
  | xs => ['('] ++ commaSeparated xs ++ [')']

/-- A list of written items. -/
def list (xs : List Rope) : Rope := ['['] ++ commaSeparated xs ++ [']']

/-- A dict of names and written values. -/
def dict (es : List (String × Rope)) : Rope :=
  ['\x7b'] ++ commaSeparated (es.map fun e => Text.Quoted.encode e.1.toList ++ [':', ' '] ++ e.2) ++
    ['\x7d']

/-- What stands for a list inside itself. -/
def elidedList : Rope := ['[', '.', '.', '.', ']']

/-- What stands for a dict inside itself. -/
def elidedDict : Rope := ['\x7b', '.', '.', '.', '\x7d']

/-- The address of an object, as far as there is one: its number in hexadecimal. -/
def address (index : Nat) : List Char := " at 0x".toList ++ Text.hexadecimal index

/-- A function, by its qualified name. -/
def function (qualname : String) (r : FunctionRef) : Rope :=
  "<function ".toList ++ qualname.toList ++ address r.index ++ ['>']

/-- A bound method, by its function's qualified name and its written receiver. -/
def method (qualname : String) (receiver : Rope) : Rope :=
  "<bound method ".toList ++ qualname.toList ++ " of ".toList ++ receiver ++ ['>']

/-- A code object, by its name. -/
def code (c : Code) : Rope :=
  "<code object ".toList ++ c.name.toList ++ address c.label.index ++ ['>']

/-- A cell, by what kind of value it holds. -/
def cell (r : CellRef) : Option Value → Rope
  | some v => "<cell".toList ++ address r.index ++ ": ".toList ++ v.kind.name.toList ++
      " object>".toList
  | none => "<cell".toList ++ address r.index ++ ": empty>".toList

end Rendering

/-! ### One layer -/

namespace Value

variable (s : Store) (list : ListRef → Text.Rope) (dict : DictRef → Text.Rope)

mutual

/-- The text of a value, if lists and dicts are written in the given way. -/
def renderBy : Value → Text.Rope
  | .none => "None".toList
  | .bool true => "True".toList
  | .bool false => "False".toList
  | .int n => Text.signedDecimal n.toInt
  | .float x => x.render
  | .str t => Text.Quoted.encode t.text.toList
  | .tuple ⟨_, xs⟩ => Rendering.tuple (renderItemsBy xs)
  | .list r => list r
  | .dict r => dict r
  | .code c => Rendering.code c
  | .cell r => Rendering.cell r (s.cell r)
  | .function r => Rendering.function (s.function r).qualname r
  | .method ⟨_, f, x⟩ => Rendering.method (s.function f).qualname (renderBy x)

/-- The texts of the items. -/
def renderItemsBy : List Value → List Text.Rope
  | [] => []
  | x :: xs => renderBy x :: renderItemsBy xs

end

end Value

/-! ### The walk -/

/-- The containers that enclose an occurrence. -/
structure Enclosing where
  lists : List ListRef
  dicts : List DictRef

namespace Enclosing

/-- Nothing encloses the value that is printed. -/
def none : Enclosing := ⟨[], []⟩

def addList (e : Enclosing) (r : ListRef) : Enclosing := { e with lists := r :: e.lists }

def addDict (e : Enclosing) (r : DictRef) : Enclosing := { e with dicts := r :: e.dicts }

end Enclosing

namespace Store

/-- The text of a value inside the given containers. The number bounds the nesting of containers; at
zero, which no walk of this store reaches, nothing is written. -/
def renderWithin (s : Store) : Nat → Enclosing → Value → Text.Rope
  | 0, _ => fun _ => .text []
  | n + 1, e =>
    Value.renderBy s
      (fun r =>
        if e.lists.contains r then Rendering.elidedList
        else Rendering.list ((s.list r).map (s.renderWithin n (e.addList r))))
      (fun r =>
        if e.dicts.contains r then Rendering.elidedDict
        else Rendering.dict ((s.dict r).map (s.renderWithin n (e.addDict r))).entries)

/-- The number of containers in the store, and one for the layer above the first. -/
def containerBound (s : Store) : Nat := s.lists.size + s.dicts.size + 1

/-- The text of a value, by characters. -/
def render (s : Store) (v : Value) : List Char := (s.renderWithin s.containerBound .none v).toList

/-- The text of a value. -/
def repr (s : Store) (v : Value) : String := String.ofList (s.render v)

/-- The text shown for a value in a sentence: functions and bound methods by their own text, any
other value by the name of its kind. -/
def display (s : Store) (v : Value) : String :=
  match v with
  | .function _ | .method _ => s.repr v
  | _ => v.kind.name

end Store

end Callable
