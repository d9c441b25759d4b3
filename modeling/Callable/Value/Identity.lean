import Callable.Value.Basic

/-!
# Identity

Two values are identical when they are the same object, or the same scalar. Since immutable objects
carry their labels and mutable ones are references, that is equality of values: `None`, booleans and
integers by value, floats by bit pattern, everything else by object.

* `Value.same_iff` — the structural test decides equality of values.
* `Value.isIdentical` — the same test, under the name programs know it by. Objects under different
  labels differ at once, and those under one label are one object in memory, so it does not come to
  a look inside, however large the objects are.
-/

namespace Callable.Value

mutual

/-- Are the two values the same, labels included? -/
def same : Value → Value → Bool
  | .none, .none => true
  | .bool a, .bool b => a == b
  | .int a, .int b => a == b
  | .float a, .float b => a == b
  | .str a, .str b => a == b
  | .tuple ⟨l, xs⟩, .tuple ⟨l', ys⟩ => l == l' && sameItems xs ys
  | .list a, .list b => a == b
  | .dict a, .dict b => a == b
  | .code ⟨l, n, xs, fs⟩, .code ⟨l', n', ys, gs⟩ =>
    l == l' && n == n' && fs == gs && sameItems xs ys
  | .cell a, .cell b => a == b
  | .function a, .function b => a == b
  | .method ⟨l, f, x⟩, .method ⟨l', g, y⟩ => l == l' && f == g && same x y
  | _, _ => false

/-- Are the two lists of values the same, item by item? -/
def sameItems : List Value → List Value → Bool
  | [], [] => true
  | x :: xs, y :: ys => same x y && sameItems xs ys
  | _, _ => false

end

mutual

theorem same_iff : (a b : Value) → (same a b = true ↔ a = b)
  | .none, b => by cases b <;> simp [same]
  | .bool _, b => by cases b <;> simp [same]
  | .int _, b => by cases b <;> simp [same]
  | .float _, b => by cases b <;> simp [same]
  | .str _, b => by cases b <;> simp [same]
  | .tuple ⟨_, xs⟩, b => by cases b <;> simp [same, sameItems_iff xs, TupleOf.ext_iff]
  | .list _, b => by cases b <;> simp [same]
  | .dict _, b => by cases b <;> simp [same]
  | .code ⟨_, _, xs, _⟩, b => by
    cases b <;> simp [same, sameItems_iff xs, CodeOf.ext_iff, and_assoc]
    grind
  | .cell _, b => by cases b <;> simp [same]
  | .function _, b => by cases b <;> simp [same]
  | .method ⟨_, _, x⟩, b => by cases b <;> simp [same, same_iff x, MethodOf.ext_iff, and_assoc]

theorem sameItems_iff : (xs ys : List Value) → (sameItems xs ys = true ↔ xs = ys)
  | [], ys => by cases ys <;> simp [sameItems]
  | x :: xs, ys => by cases ys <;> simp [sameItems, same_iff x, sameItems_iff xs]

end

/-- Is it one and the same object, or the same scalar? Of contents that are the same place in memory
it is known that they are the same. -/
def isIdentical : Value → Value → Bool
  | .tuple ⟨l, xs⟩, .tuple ⟨l', ys⟩ =>
    l == l' && withPtrEq xs ys (fun _ => sameItems xs ys) (sameItems_iff xs ys).2
  | .code ⟨l, n, xs, fs⟩, .code ⟨l', n', ys, gs⟩ =>
    l == l' && n == n' && fs == gs &&
      withPtrEq xs ys (fun _ => sameItems xs ys) (sameItems_iff xs ys).2
  | .method ⟨l, f, x⟩, .method ⟨l', g, y⟩ =>
    l == l' && f == g && withPtrEq x y (fun _ => same x y) (same_iff x y).2
  | a, b => same a b

theorem isIdentical_eq_same (a b : Value) : isIdentical a b = same a b := by
  -- the shortcut by place gives the verdict of the test that it saves
  fun_cases isIdentical a b <;> simp [same, withPtrEq]

theorem isIdentical_iff {a b : Value} : a.isIdentical b = true ↔ a = b :=
  isIdentical_eq_same a b ▸ same_iff a b

instance : DecidableEq Value := fun _ _ => decidable_of_iff _ isIdentical_iff

/-- Objects are found by their labels and references. -/
instance : Hashable Value where
  hash
    | .str s => hash s.label.index
    | .tuple t => hash t.label.index
    | .list r => hash r.index
    | .dict r => hash r.index
    | .code c => hash c.label.index
    | .cell r => hash r.index
    | .function r => hash r.index
    | .method m => hash m.label.index
    | _ => 0

end Callable.Value
