/-!
# Tables: finite maps that remember the order of arrival

A table maps names to values. It lists its names in the order in which they came in: a name that is
written again keeps its place, one that is removed and written again goes to the end.

A table is a list of pairs without a repeated name; `Table.entries` is the view that everything
else is stated in.

* `get?_insert`, `get?_erase` — a table is a map: what is read is what was last written.
* `keys_insert`, `keys_erase` — and it is ordered by arrival.
-/

namespace Callable

/-- A finite map from names, in order of arrival. -/
structure Table (V : Type) where
  entries : List (String × V)
  nodup : (entries.map Prod.fst).Nodup

namespace Table

variable {V W : Type}

/-! ### Lists of named values -/

/-- The value under a name in a list of pairs. -/
def find (k : String) : List (String × V) → Option V
  | [] => none
  | (k', v) :: rest => if k' = k then some v else find k rest

/-- Overwrite the value under a name, or add the pair at the end. -/
def put (k : String) (v : V) : List (String × V) → List (String × V)
  | [] => [(k, v)]
  | (k', v') :: rest => if k' = k then (k, v) :: rest else (k', v') :: put k v rest

/-- Leave out the pairs under a name. -/
def without (k : String) (l : List (String × V)) : List (String × V) :=
  l.filter fun e => e.1 != k

theorem map_fst_put (k : String) (v : V) (l : List (String × V)) :
    (put k v l).map Prod.fst =
      if k ∈ l.map Prod.fst then l.map Prod.fst else l.map Prod.fst ++ [k] := by
  induction l with
  | nil => simp [put]
  | cons e rest ih =>
    obtain ⟨k', v'⟩ := e
    by_cases h : k' = k
    · simp [put, h]
    · -- the name does not stand here, so it is a matter of the rest
      have h' : k ≠ k' := Ne.symm h
      simp only [put, h, if_false, List.map_cons, ih, List.mem_cons, h', false_or]
      split <;> simp

theorem map_fst_without (k : String) (l : List (String × V)) :
    (without k l).map Prod.fst = (l.map Prod.fst).filter (· != k) := by
  simp [without, List.filter_map, Function.comp_def]

theorem find_put (k k' : String) (v : V) (l : List (String × V)) :
    find k' (put k v l) = if k = k' then some v else find k' l := by
  induction l with
  | nil => simp [put, find]
  | cons e rest ih => grind [put, find]

theorem find_without (k k' : String) (l : List (String × V)) :
    find k' (without k l) = if k = k' then none else find k' l := by
  induction l with
  | nil => simp [without, find]
  | cons e rest ih => grind [without, find]

theorem find_isSome (k : String) (l : List (String × V)) :
    (find k l).isSome = true ↔ k ∈ l.map Prod.fst := by
  induction l with
  | nil => simp [find]
  | cons e rest ih => grind [find]

/-! ### Operations -/

/-- The table without names. -/
def empty : Table V := ⟨[], by simp⟩

instance : Inhabited (Table V) := ⟨empty⟩
instance : EmptyCollection (Table V) := ⟨empty⟩

/-- The value under a name. -/
def get? (t : Table V) (k : String) : Option V := find k t.entries

/-- Does the table have the name? -/
def contains (t : Table V) (k : String) : Bool := (t.get? k).isSome

/-- The names in order of arrival. -/
def keys (t : Table V) : List String := t.entries.map Prod.fst

/-- The values, in the order of their names. -/
def values (t : Table V) : List V := t.entries.map Prod.snd

/-- The number of names. -/
def size (t : Table V) : Nat := t.entries.length

/-- Has the table no name? -/
def isEmpty (t : Table V) : Bool := t.entries.isEmpty

/-- Write a value under a name. A name that is there keeps its place. -/
def insert (t : Table V) (k : String) (v : V) : Table V where
  entries := put k v t.entries
  nodup := by
    rw [map_fst_put]
    split
    · exact t.nodup
    · rename_i h
      exact List.nodup_append.2 ⟨t.nodup, by simp, by grind⟩

/-- Remove a name. The others keep their order. -/
def erase (t : Table V) (k : String) : Table V where
  entries := without k t.entries
  nodup := by rw [map_fst_without]; exact t.nodup.filter _

/-- The table of a list of pairs: a repeated name keeps its first place and takes its last value. -/
def ofList (l : List (String × V)) : Table V :=
  l.foldl (fun t e => t.insert e.1 e.2) empty

/-- The same names with other values. -/
def map (f : V → W) (t : Table V) : Table W where
  entries := t.entries.map fun e => (e.1, f e.2)
  nodup := by simpa [Function.comp_def] using t.nodup

/-! ### What the operations do to the view -/

@[simp] theorem get?_empty (k : String) : (empty : Table V).get? k = none := rfl

@[simp] theorem keys_empty : (empty : Table V).keys = [] := rfl

/-- What is read under a name is what was last written there. -/
theorem get?_insert (t : Table V) (k k' : String) (v : V) :
    (t.insert k v).get? k' = if k = k' then some v else t.get? k' :=
  find_put k k' v t.entries

@[simp] theorem get?_insert_self (t : Table V) (k : String) (v : V) :
    (t.insert k v).get? k = some v := by
  simp [get?_insert]

/-- What was removed is gone, and nothing else is. -/
theorem get?_erase (t : Table V) (k k' : String) :
    (t.erase k).get? k' = if k = k' then none else t.get? k' :=
  find_without k k' t.entries

@[simp] theorem get?_erase_self (t : Table V) (k : String) : (t.erase k).get? k = none := by
  simp [get?_erase]

/-- Writing keeps the order of the names; a new one comes last. -/
theorem keys_insert (t : Table V) (k : String) (v : V) :
    (t.insert k v).keys = if k ∈ t.keys then t.keys else t.keys ++ [k] :=
  map_fst_put k v t.entries

/-- Removal keeps the order of the other names. -/
theorem keys_erase (t : Table V) (k : String) :
    (t.erase k).keys = t.keys.filter (· != k) :=
  map_fst_without k t.entries

theorem contains_iff {t : Table V} {k : String} : t.contains k = true ↔ k ∈ t.keys :=
  find_isSome k t.entries

theorem size_eq_length_keys (t : Table V) : t.size = t.keys.length := by
  simp [size, keys]

theorem nodup_keys (t : Table V) : t.keys.Nodup := t.nodup

end Table

end Callable
