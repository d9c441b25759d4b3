import Callable.Proofs.Equality.Bisimulation
import Callable.Value.Handles

/-!
# What objects contain

`Store.contents` lists the values in an object of any sort, and nothing for an object that is gone.
This module relates it to what the single operations read.

* `Store.contents_list`, `Store.contents_dict`, `Store.contents_cell`, `Store.contents_function` —
  the contents by the sort of the object. Of these only a function has contents by default, so only
  there it matters whether the object is alive.
* `Store.isAlive_of_mem_contents` — only what is alive contains something.
* `FunctionObject.mem_contents`, `Table.mem_values_iff` — the parts of a function, and of a table.
-/

namespace Callable

namespace Table

variable {V : Type} {t : Table V} {k : String} {v w : V}

/-- The values of a table are those that are found under its names. -/
theorem mem_values_iff : v ∈ t.values ↔ ∃ k, t.get? k = some v := by
  simp only [values, List.mem_map, Prod.exists, exists_eq_right, mem_entries_iff]

/-- What a table contains after a write is the new value or was there before. -/
theorem mem_values_insert (h : w ∈ (t.insert k v).values) : w = v ∨ w ∈ t.values := by
  obtain ⟨k', hk'⟩ := mem_values_iff.1 h
  -- it is found under the name that was written, or under another one as before
  rw [get?_insert] at hk'
  split at hk'
  · exact .inl (Option.some.inj hk').symm
  · exact .inr (mem_values_iff.2 ⟨k', hk'⟩)

/-- What a table contains after a removal was there before. -/
theorem mem_values_erase (h : w ∈ (t.erase k).values) : w ∈ t.values := by
  obtain ⟨k', hk'⟩ := mem_values_iff.1 h
  rw [get?_erase] at hk'
  split at hk'
  · cases hk'
  · exact mem_values_iff.2 ⟨k', hk'⟩

end Table

namespace FunctionObject

/-- The values that a function contains, one by one. -/
theorem mem_contents {fn : FunctionObject} {v : Value} :
    v ∈ fn.contents ↔ v = .code fn.code ∨ v = .dict fn.globals ∨ v = .ofTuple? fn.defaults ∨
      v = .ofDict? fn.kwDefaults ∨ v = fn.doc ∨ v = fn.moduleName ∨ v = .ofDict? fn.dict ∨
      v = .ofDict? fn.annotations ∨ ∃ r ∈ fn.closure.getD [], v = .cell r := by
  simp only [contents, List.mem_append, List.mem_cons, List.not_mem_nil, or_false, List.mem_map,
    or_assoc, eq_comm]

/-- The cells of a closure are the cells that it was made of. -/
theorem getD_closureOf (cells : List CellRef) : (closureOf cells).getD [] = cells := by
  cases cells <;> rfl

end FunctionObject

namespace Store

variable {s : Store}

theorem contents_list (s : Store) (r : ListRef) : s.contents (.list r) = s.list r := rfl

theorem contents_dict (s : Store) (r : DictRef) : s.contents (.dict r) = (s.dict r).values := by
  rw [contents, dict, Heap.get]
  cases s.dicts.get? r <;> rfl

theorem contents_cell (s : Store) (r : CellRef) : s.contents (.cell r) = (s.cell r).toList := by
  rw [contents, cell, Heap.get]
  cases s.cells.get? r <;> rfl

theorem contents_function {r : FunctionRef} (h : s.isAlive (.function r) = true) :
    s.contents (.function r) = (s.function r).contents := by
  obtain ⟨fn, hfn⟩ := Option.isSome_iff_exists.1 h
  rw [contents, function, Heap.get, hfn]
  rfl

/-- What is gone contains nothing. -/
theorem contents_of_not_isAlive {o : Object} (h : s.isAlive o = false) : s.contents o = [] := by
  -- in every heap a number without an object has no contents
  cases o <;> simp_all [isAlive, Heap.isAlive, contents]

/-- Only what is alive contains something. -/
theorem isAlive_of_mem_contents {o : Object} {v : Value} (h : v ∈ s.contents o) :
    s.isAlive o = true := by
  cases halive : s.isAlive o with
  | true => rfl
  | false =>
    rw [contents_of_not_isAlive halive] at h
    cases h

end Store

end Callable
