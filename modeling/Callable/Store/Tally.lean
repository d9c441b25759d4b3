import Callable.Value.Handles

/-!
# Tallies

A tally counts, for each object of a store, how many handles there are on it.

* `Tally.ofList` — the tally of a list of handles, one pass over the list.
* `Tally.count_ofList` — it counts what is in the list.
* `Tally.count_discount` — the tally after some of the handles have gone.
-/

namespace Callable

/-- Numbers of handles, by sort and by number of the object. -/
structure Tally where
  lists : Array Nat
  dicts : Array Nat
  cells : Array Nat
  functions : Array Nat

namespace Tally

/-- No handles on any object of a store. -/
def zero (s : Store) : Tally where
  lists := Array.replicate s.lists.size 0
  dicts := Array.replicate s.dicts.size 0
  cells := Array.replicate s.cells.size 0
  functions := Array.replicate s.functions.size 0

/-- The number of handles on an object. -/
def count (t : Tally) : Object → Nat
  | .list r => t.lists[r.index]?.getD 0
  | .dict r => t.dicts[r.index]?.getD 0
  | .cell r => t.cells[r.index]?.getD 0
  | .function r => t.functions[r.index]?.getD 0

/-- Does the tally have a place for the object? -/
def admits (t : Tally) : Object → Prop
  | .list r => r.index < t.lists.size
  | .dict r => r.index < t.dicts.size
  | .cell r => r.index < t.cells.size
  | .function r => r.index < t.functions.size

/-- Change the number of handles on an object, if there is a place for it. -/
def modify (t : Tally) (o : Object) (f : Nat → Nat) : Tally :=
  match o with
  | .list r => { t with lists := t.lists.modify r.index f }
  | .dict r => { t with dicts := t.dicts.modify r.index f }
  | .cell r => { t with cells := t.cells.modify r.index f }
  | .function r => { t with functions := t.functions.modify r.index f }

/-- One handle more on an object. -/
def add (t : Tally) (o : Object) : Tally := t.modify o (· + 1)

/-- One handle less on an object. -/
def sub (t : Tally) (o : Object) : Tally := t.modify o (· - 1)

/-- The tally of some handles on objects of a store. -/
def ofList (s : Store) (os : List Object) : Tally := os.foldl add (zero s)

/-- The tally after some of the handles have gone. -/
def discount (t : Tally) (os : List Object) : Tally := os.foldl sub t

/-! ### What the operations count -/

theorem admits_modify (t : Tally) (o o' : Object) (f : Nat → Nat) :
    (t.modify o f).admits o' ↔ t.admits o' := by
  cases o <;> cases o' <;> simp [modify, admits]

theorem count_modify {t : Tally} (o : Object) (f : Nat → Nat) {o' : Object} (h : t.admits o') :
    (t.modify o f).count o' = if o' = o then f (t.count o') else t.count o' := by
  -- sort by sort: objects of two sorts are counted in different arrays
  rcases o with ⟨⟨i⟩⟩ | ⟨⟨i⟩⟩ | ⟨⟨i⟩⟩ | ⟨⟨i⟩⟩ <;> rcases o' with ⟨⟨j⟩⟩ | ⟨⟨j⟩⟩ | ⟨⟨j⟩⟩ | ⟨⟨j⟩⟩ <;>
    simp_all [modify, count, admits] <;> grind

theorem admits_foldl_add (os : List Object) (t : Tally) (o' : Object) :
    (os.foldl add t).admits o' ↔ t.admits o' := by
  induction os generalizing t with
  | nil => rfl
  | cons o os ih => rw [List.foldl_cons, ih, add, admits_modify]

theorem admits_discount (os : List Object) (t : Tally) (o' : Object) :
    (t.discount os).admits o' ↔ t.admits o' := by
  induction os generalizing t with
  | nil => rfl
  | cons o os ih => rw [discount, List.foldl_cons, ← discount, ih, sub, admits_modify]

theorem count_foldl_add (os : List Object) {t : Tally} {o' : Object} (h : t.admits o') :
    (os.foldl add t).count o' = t.count o' + os.count o' := by
  -- by induction on the handles, for any tally that has a place for the object
  induction os generalizing t with
  | nil => rfl
  | cons o os ih =>
    have h' : (t.add o).admits o' := (admits_modify t o o' _).2 h
    rw [List.foldl_cons, ih h', add, count_modify o _ h, List.count_cons]
    grind

/-- Each handle that has gone counts once less. -/
theorem count_discount (os : List Object) {t : Tally} {o' : Object} (h : t.admits o') :
    (t.discount os).count o' = t.count o' - os.count o' := by
  induction os generalizing t with
  | nil => rfl
  | cons o os ih =>
    have h' : (t.sub o).admits o' := (admits_modify t o o' _).2 h
    rw [discount, List.foldl_cons, ← discount, ih h', sub, count_modify o _ h, List.count_cons]
    grind

theorem count_zero (s : Store) (o : Object) : (zero s).count o = 0 := by
  rcases o with ⟨⟨i⟩⟩ | ⟨⟨i⟩⟩ | ⟨⟨i⟩⟩ | ⟨⟨i⟩⟩ <;>
    simp only [zero, count, Array.getElem?_replicate] <;> split <;> rfl

theorem admits_zero {s : Store} {o : Object} (h : s.isAlive o = true) : (zero s).admits o := by
  cases o <;> simpa [zero, admits] using Heap.index_lt_of_isAlive h

theorem admits_ofList {s : Store} (os : List Object) {o : Object} (h : s.isAlive o = true) :
    (ofList s os).admits o :=
  (admits_foldl_add os _ o).2 (admits_zero h)

/-- The tally of a list counts what is in the list. -/
theorem count_ofList {s : Store} (os : List Object) {o : Object} (h : s.isAlive o = true) :
    (ofList s os).count o = os.count o := by
  rw [ofList, count_foldl_add os (admits_zero h), count_zero, Nat.zero_add]

end Tally

end Callable
