import Callable.Value.Basic

/-!
# Heaps

A heap holds the contents of the mutable objects of one sort. Objects are numbered in the order in
which they were made and a number is never given out again, so a reference that has lost its object
never comes to mean another one.

* `Heap.get?` — the contents of an object, if it is alive. Everything else is stated through it.
* `get?_alloc`, `get?_set`, `get?_remove` — what each operation does to every reference.
-/

namespace Callable

/-- The objects of one sort by number; `none` where the object is gone. -/
structure Heap (sort : Mutable) (α : Type) where
  slots : Array (Option α)

namespace Heap

variable {sort : Mutable} {α : Type}

/-- The heap in which nothing was ever made. -/
def empty : Heap sort α := ⟨#[]⟩

instance : Inhabited (Heap sort α) := ⟨empty⟩

/-- The number of objects ever made, which is the number that the next one gets. -/
def size (h : Heap sort α) : Nat := h.slots.size

/-- The contents of an object, if it is alive. -/
def get? (h : Heap sort α) (r : Ref sort) : Option α := h.slots[r.index]?.join

/-- Is the object alive? -/
def isAlive (h : Heap sort α) (r : Ref sort) : Bool := (h.get? r).isSome

/-- The contents of an object, and of one that is gone the default. -/
def get [Inhabited α] (h : Heap sort α) (r : Ref sort) : α := (h.get? r).getD default

/-- Make an object. -/
def alloc (h : Heap sort α) (a : α) : Ref sort × Heap sort α :=
  (⟨h.size⟩, ⟨h.slots.push (some a)⟩)

/-- Replace the contents of an object. An object that is gone stays so. -/
def set (h : Heap sort α) (r : Ref sort) (a : α) : Heap sort α :=
  if h.isAlive r then ⟨h.slots.setIfInBounds r.index (some a)⟩ else h

/-- Let go of an object. -/
def remove (h : Heap sort α) (r : Ref sort) : Heap sort α := ⟨h.slots.setIfInBounds r.index none⟩

/-- References to the objects that are alive, in the order in which they were made. -/
def alive (h : Heap sort α) : List (Ref sort) :=
  ((List.range h.size).map Ref.mk).filter h.isAlive

/-! ### What the operations do -/

@[simp] theorem get?_empty (r : Ref sort) : (empty : Heap sort α).get? r = none := rfl

theorem get?_eq_none_of_size_le {h : Heap sort α} {r : Ref sort} (hr : h.size ≤ r.index) :
    h.get? r = none := by
  simp [get?, Array.getElem?_eq_none hr]

theorem index_lt_of_isAlive {h : Heap sort α} {r : Ref sort} (hr : h.isAlive r = true) :
    r.index < h.size := by
  rcases Nat.lt_or_ge r.index h.size with hlt | hge
  · exact hlt
  · simp [isAlive, get?_eq_none_of_size_le hge] at hr

/-- The new object has the given contents and the others are as they were. -/
theorem get?_alloc (h : Heap sort α) (a : α) (r : Ref sort) :
    (h.alloc a).2.get? r = if r = (h.alloc a).1 then some a else h.get? r := by
  obtain ⟨i⟩ := r
  -- the new number is the size, where nothing was before
  simp only [alloc, get?, size, Ref.mk.injEq, Array.getElem?_push]
  split <;> simp_all

/-- A new object is none of those that were alive. -/
theorem isAlive_alloc_fst (h : Heap sort α) (a : α) : h.isAlive (h.alloc a).1 = false := by
  have : h.get? (h.alloc a).1 = none := get?_eq_none_of_size_le (Nat.le_refl _)
  simp [isAlive, this]

/-- Writing changes the one object, if it is alive. -/
theorem get?_set (h : Heap sort α) (r r' : Ref sort) (a : α) :
    (h.set r a).get? r' = if r' = r ∧ h.isAlive r = true then some a else h.get? r' := by
  obtain ⟨i⟩ := r
  obtain ⟨j⟩ := r'
  by_cases hr : h.isAlive ⟨i⟩ = true
  · have hlt := index_lt_of_isAlive hr
    simp only [size] at hlt
    simp only [set, hr, if_true, get?, and_true, Ref.mk.injEq, Array.getElem?_setIfInBounds]
    -- alive means that there is a slot, so the write is within bounds
    by_cases hij : i = j
    · subst hij; simp [hlt]
    · simp [hij, Ne.symm hij]
  · simp [set, hr]

/-- Letting go of an object takes away its contents and no others. -/
theorem get?_remove (h : Heap sort α) (r r' : Ref sort) :
    (h.remove r).get? r' = if r' = r then none else h.get? r' := by
  obtain ⟨i⟩ := r
  obtain ⟨j⟩ := r'
  simp only [remove, get?, Array.getElem?_setIfInBounds, Ref.mk.injEq]
  grind

theorem isAlive_remove (h : Heap sort α) (r r' : Ref sort) :
    (h.remove r).isAlive r' = (r' != r && h.isAlive r') := by
  simp only [isAlive, get?_remove]
  grind

@[simp] theorem size_set (h : Heap sort α) (r : Ref sort) (a : α) : (h.set r a).size = h.size := by
  unfold set
  split <;> simp [size]

@[simp] theorem size_remove (h : Heap sort α) (r : Ref sort) : (h.remove r).size = h.size := by
  simp [remove, size]

theorem alive_remove (h : Heap sort α) (r : Ref sort) :
    (h.remove r).alive = h.alive.filter (· != r) := by
  simp only [alive, size_remove, List.filter_filter]
  exact List.filter_congr fun r' _ => isAlive_remove h r r'

theorem nodup_alive (h : Heap sort α) : h.alive.Nodup := by
  -- the numbers are those of a range, and different numbers are different references
  refine List.Pairwise.filter _ (List.Pairwise.map _ ?_ List.nodup_range)
  intro i j hij hr
  exact hij (Ref.mk.inj hr)

theorem mem_alive {h : Heap sort α} {r : Ref sort} : r ∈ h.alive ↔ h.isAlive r = true := by
  constructor
  · intro hr
    exact (List.mem_filter.1 hr).2
  · intro hr
    refine List.mem_filter.2 ⟨List.mem_map.2 ⟨r.index, ?_, rfl⟩, hr⟩
    simpa using index_lt_of_isAlive hr

end Heap

end Callable
