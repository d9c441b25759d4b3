import Callable.Store.Basic
import Callable.Value.Identity

/-!
# Equality

Values are compared by contents, through references, so the comparison of two values walks the
object graph. Lists and dicts may contain themselves; the walk remembers the pairs it is in the
middle of comparing, and takes such a pair for equal when it meets it again.

The walk has two parts.

* `Value.equalBy` is one layer: it compares scalars, cells, functions and bound methods itself, goes
  through tuples and the constants of code objects, and hands pairs of lists and of dicts to the two
  comparisons it is given. It is structural recursion, since immutable values are finite trees.
* `Store.equalWithin` ties the knot: it compares a pair of lists or dicts by their contents, one
  layer at a time, with the pair noted as in progress. Each step enters a pair that is not yet in
  progress, so the number of pairs of containers in the store bounds the depth.

`Store.equal` starts with nothing in progress. It defines equality; where values are large and share
parts, a comparison that takes no pair apart twice (`Store.agree`) comes to the same verdict sooner.

Two lists, dicts or code objects that are one object are equal without a look inside, two tuples are
not: a tuple holding a NaN differs from itself.
-/

namespace Callable

/-! ### One layer -/

namespace Value

variable (lists : ListRef → ListRef → Bool) (dicts : DictRef → DictRef → Bool)

mutual

/-- Are the two values equal, if lists and dicts are compared in the given way? -/
def equalBy : Value → Value → Bool
  | .none, .none => true
  | .bool a, .bool b => a == b
  | .int a, .int b => a == b
  | .float a, .float b => a.ieeeEq b
  | .str a, .str b => a.text == b.text
  | .tuple ⟨_, xs⟩, .tuple ⟨_, ys⟩ => equalItemsBy xs ys
  | .list a, .list b => lists a b
  | .dict a, .dict b => dicts a b
  | .code ⟨l, n, xs, fs⟩, .code ⟨l', n', ys, gs⟩ =>
    isIdentical (.code ⟨l, n, xs, fs⟩) (.code ⟨l', n', ys, gs⟩) ||
      (n == n' && fs == gs && equalItemsBy xs ys)
  | .cell a, .cell b => a == b
  | .function a, .function b => a == b
  | .method ⟨_, f, x⟩, .method ⟨_, g, y⟩ => f == g && isIdentical x y
  | _, _ => false

/-- Are the two lists of values equal item by item? -/
def equalItemsBy : List Value → List Value → Bool
  | [], [] => true
  | x :: xs, y :: ys => equalBy x y && equalItemsBy xs ys
  | _, _ => false

end

end Value

/-- Are the tables equal, if values are compared in the given way? The order of the names does not
matter: the sizes agree and every name of the first is in the second, with an equal value. -/
def Table.equalBy {V : Type} (eq : V → V → Bool) (t u : Table V) : Bool :=
  t.size == u.size && t.entries.all fun e =>
    match u.get? e.1 with
    | some v => eq e.2 v
    | none => false

/-! ### The walk -/

/-- The comparisons of containers that have begun and not ended. -/
structure PairsInProgress where
  lists : List (ListRef × ListRef)
  dicts : List (DictRef × DictRef)

namespace PairsInProgress

/-- No comparison has begun. -/
def none : PairsInProgress := ⟨[], []⟩

def addLists (p : PairsInProgress) (a b : ListRef) : PairsInProgress :=
  { p with lists := (a, b) :: p.lists }

def addDicts (p : PairsInProgress) (a b : DictRef) : PairsInProgress :=
  { p with dicts := (a, b) :: p.dicts }

end PairsInProgress

namespace Store

/-- Are the two values equal, given the comparisons in progress? The number bounds the nesting of
containers; at zero, which no walk of this store reaches, the answer is that of a pair in progress.
-/
def equalWithin (s : Store) : Nat → PairsInProgress → Value → Value → Bool
  | 0, _ => fun _ _ => true
  | n + 1, p =>
    Value.equalBy
      (fun a b => a == b || p.lists.contains (a, b) ||
        (s.list a).isEqv (s.list b) (s.equalWithin n (p.addLists a b)))
      (fun a b => a == b || p.dicts.contains (a, b) ||
        Table.equalBy (s.equalWithin n (p.addDicts a b)) (s.dict a) (s.dict b))

/-- The number of pairs of containers in the store, and one for the layer above the first pair. -/
def pairBound (s : Store) : Nat :=
  s.lists.size * s.lists.size + s.dicts.size * s.dicts.size + 1

/-- Are the two values equal? -/
def equal (s : Store) (a b : Value) : Bool := s.equalWithin s.pairBound .none a b

end Store

end Callable
