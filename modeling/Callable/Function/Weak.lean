import Callable.Value.Rendering

/-!
# Weak references

A weak reference names a function without holding it. While the function is alive the reference can
be turned into the function itself; once it is gone the reference stays dead, since numbers are
never given out again.

* `WeakRef.isAlive`, `WeakRef.upgrade?` — the two questions, which always agree.
* `WeakRef.render` — the text of a weak reference.
-/

namespace Callable

/-- A weak reference to a function. -/
structure WeakRef where
  target : FunctionRef
  deriving DecidableEq

namespace WeakRef

/-- Is the function alive? -/
def isAlive (w : WeakRef) (s : Store) : Bool := s.functions.isAlive w.target

/-- The function, while it is alive. -/
def upgrade? (w : WeakRef) (s : Store) : Option FunctionRef :=
  if w.isAlive s then some w.target else none

theorem upgrade?_isSome (w : WeakRef) (s : Store) : (w.upgrade? s).isSome = w.isAlive s := by
  unfold upgrade?
  split <;> simp_all

theorem eq_target_of_upgrade? {w : WeakRef} {s : Store} {f : FunctionRef}
    (h : w.upgrade? s = some f) : f = w.target := by
  unfold upgrade? at h
  split at h <;> simp_all

/-- The text of a weak reference. -/
def render (w : WeakRef) (s : Store) : List Char :=
  "<weakref".toList ++ Rendering.address w.target.index ++
    (if w.isAlive s then "; to '".toList ++ Kind.function.name.toList ++ "'>".toList
     else "; dead>".toList)

end WeakRef

end Callable
