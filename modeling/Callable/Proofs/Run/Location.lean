import Callable.Proofs.Function.Effect
import Callable.Proofs.Run.Step

/-!
# Locations and writes

What a store keeps is at locations: each field of each function, the items of a list, the entries of
a dict, what is in a cell. An operation writes to one location, or it writes to none and makes an
object, reads something or lets objects go.

Locations are told apart by who keeps something, and not by who holds the keeper. A dict that two
functions have as their `__dict__` is one location, to which one of them writes and the other one
too; and the `__dict__` of each is a location of its own, where it says which dict it is.

* `Location`, `Store.at?` — the locations, and what is kept there.
* `Store.Writes`, `Store.Idle` — the operations, with the location that they write to.
  `Store.step_iff` — these are the steps of a run.
* `Store.Writes.keeps`, `Store.Idle.keeps` — what an operation does not write to it keeps.
* `Spares` — a part of a run in which no operation writes to a location. `Spares.keeps` — the
  location is kept over all of it.
-/

namespace Callable

/-! ### Locations -/

/-- **A location of a store.** -/
inductive Location where
  | field (f : FunctionRef) (a : Attribute)
  | items (r : ListRef)
  | entries (r : DictRef)
  | filling (r : CellRef)

/-- What is kept at a location. -/
def Location.Kept : Location → Type
  | .field _ a => a.Field
  | .items _ => List Value
  | .entries _ => Table Value
  | .filling _ => Option Value

namespace Heap

variable {sort : Mutable} {α : Type} {h h' h'' : Heap sort α} {r r' : Ref sort}

/-- Between two heaps an object is kept: if it was made in the first one, it was made in the second,
and if it is alive there, it is as it was. -/
def Keeps (h : Heap sort α) (r : Ref sort) (h' : Heap sort α) : Prop :=
  r.index < h.size → r.index < h'.size ∧ ∀ {a}, h'.get? r = some a → h.get? r = some a

theorem Keeps.refl (h : Heap sort α) (r : Ref sort) : h.Keeps r h := by
  intro hr
  exact ⟨hr, fun ha => ha⟩

/-- To make an object keeps those that there are, since the new one has a number of its own. -/
theorem keeps_alloc (h : Heap sort α) (r : Ref sort) (a : α) : h.Keeps r (h.alloc a).2 := by
  intro hr
  constructor
  · rw [size_alloc]
    exact Nat.lt_succ_of_lt hr
  · intro b hb
    -- `r` was given out before, and the new reference has the next number
    have hne : r ≠ (h.alloc a).1 := by
      rintro rfl
      exact Nat.lt_irrefl _ hr
    rw [get?_alloc, if_neg hne] at hb
    exact hb

theorem keeps_set_of_ne (hne : r ≠ r') (h : Heap sort α) (a : α) : h.Keeps r (h.set r' a) := by
  intro hr
  constructor
  · rw [size_set]
    exact hr
  · intro b hb
    rw [get?_set, if_neg fun heq => hne heq.1] at hb
    exact hb

/-- An object that is let go is not alive, so nothing is said of it. -/
theorem keeps_remove (h : Heap sort α) (r r' : Ref sort) : h.Keeps r (h.remove r') := by
  intro hr
  constructor
  · rw [size_remove]
    exact hr
  · intro b hb
    rw [get?_remove] at hb
    split at hb
    · cases hb
    · exact hb

end Heap

namespace Store

variable {s s' s'' : Store} {p q : Location}

/-- What is kept at a location, as long as its keeper is alive. -/
def at? (s : Store) : (p : Location) → Option p.Kept
  | .field f a => (s.functions.get? f).map (·.field a)
  | .items r => s.lists.get? r
  | .entries r => s.dicts.get? r
  | .filling r => s.cells.get? r

/-- The keeper of a location was made, be it alive or gone. -/
def Made (s : Store) : Location → Prop
  | .field f _ => f.index < s.functions.size
  | .items r => r.index < s.lists.size
  | .entries r => r.index < s.dicts.size
  | .filling r => r.index < s.cells.size

/-- **A location is kept** between two stores: if it was made in the first one, it was made in the
second, and what is in it there was in it before. It may be gone. -/
def Keeps (s : Store) (p : Location) (s' : Store) : Prop :=
  s.Made p → s'.Made p ∧ ∀ {x}, s'.at? p = some x → s.at? p = some x

theorem Keeps.refl (s : Store) (p : Location) : s.Keeps p s := by
  intro hp
  exact ⟨hp, fun hx => hx⟩

theorem Keeps.trans (h : s.Keeps p s') (h' : s'.Keeps p s'') : s.Keeps p s'' := by
  intro hp
  obtain ⟨hp', hback⟩ := h hp
  obtain ⟨hp'', hback'⟩ := h' hp'
  exact ⟨hp'', fun hx => hback (hback' hx)⟩

/-- What is at a location was made. -/
theorem made_of_at? {x : p.Kept} (h : s.at? p = some x) : s.Made p := by
  cases p with
  | field f a =>
    obtain ⟨fn, hfn, -⟩ := Option.map_eq_some_iff.1 h
    exact Heap.index_lt_of_isAlive (Option.isSome_iff_exists.2 ⟨fn, hfn⟩)
  | items | entries | filling =>
    exact Heap.index_lt_of_isAlive (Option.isSome_iff_exists.2 ⟨x, h⟩)

/-- All locations are kept if all objects are. -/
theorem keeps_of_heaps (hlists : ∀ r, s.lists.Keeps r s'.lists)
    (hdicts : ∀ r, s.dicts.Keeps r s'.dicts) (hcells : ∀ r, s.cells.Keeps r s'.cells)
    (hfunctions : ∀ r, s.functions.Keeps r s'.functions) : s.Keeps p s' := by
  intro hp
  cases p with
  | items r => exact hlists r hp
  | entries r => exact hdicts r hp
  | filling r => exact hcells r hp
  | field f a =>
    -- a field is kept with the function that it belongs to
    obtain ⟨hmade, hback⟩ := hfunctions f hp
    refine ⟨hmade, fun {x} hx => ?_⟩
    obtain ⟨fn, hfn, rfl⟩ := Option.map_eq_some_iff.1 hx
    exact Option.map_eq_some_iff.2 ⟨fn, hback hfn, rfl⟩

/-- A field that is replaced leaves all other locations as they are. -/
theorem keeps_putField {f : FunctionRef} {a : Attribute} (hp : p ≠ .field f a) (s : Store)
    (x : a.Field) : s.Keeps p (s.putField f a x) := by
  intro hmade
  cases p with
  | items | entries | filling => exact ⟨hmade, fun hy => hy⟩
  | field g b =>
    -- the heap is as large as before, and what is looked up is this function or another one
    have hsize : (s.putField f a x).functions.size = s.functions.size := Heap.size_set ..
    refine ⟨Nat.lt_of_lt_of_eq hmade hsize.symm, fun {y} hy => ?_⟩
    obtain ⟨fn, hfn, rfl⟩ := Option.map_eq_some_iff.1 hy
    change (s.functions.set f ((s.function f).put a x)).get? g = some fn at hfn
    rw [Heap.get?_set] at hfn
    split at hfn
    · -- the same function, so it is another field
      rename_i hg
      obtain ⟨rfl, halive⟩ := hg
      cases hfn
      have hb : b ≠ a := fun hb => hp (hb ▸ rfl)
      refine Option.map_eq_some_iff.2 ⟨s.function g, Heap.get?_eq_some_get halive, ?_⟩
      exact (FunctionObject.field_put_of_ne hb x).symm
    · exact Option.map_eq_some_iff.2 ⟨fn, hfn, rfl⟩

theorem keeps_setList {r : ListRef} (hp : p ≠ .items r) (s : Store) (items : List Value) :
    s.Keeps p (s.setList r items) := by
  cases p with
  | items r' => exact Heap.keeps_set_of_ne (fun hr => hp (congrArg Location.items hr)) s.lists items
  | _ => exact .refl s _

theorem keeps_setDict {r : DictRef} (hp : p ≠ .entries r) (s : Store) (t : Table Value) :
    s.Keeps p (s.setDict r t) := by
  cases p with
  | entries r' => exact Heap.keeps_set_of_ne (fun hr => hp (congrArg Location.entries hr)) s.dicts t
  | _ => exact .refl s _

theorem keeps_setCell {r : CellRef} (hp : p ≠ .filling r) (s : Store) (v : Option Value) :
    s.Keeps p (s.setCell r v) := by
  cases p with
  | filling r' => exact Heap.keeps_set_of_ne (fun hr => hp (congrArg Location.filling hr)) s.cells v
  | _ => exact .refl s _

theorem keeps_newDict (s : Store) (t : Table Value) (p : Location) : s.Keeps p (s.newDict t).2 :=
  keeps_of_heaps (.refl _) (fun r => s.dicts.keeps_alloc r t) (.refl _) (.refl _)

theorem keeps_newFunction (s : Store) (fn : FunctionObject) (p : Location) :
    s.Keeps p (s.newFunction fn).2 :=
  keeps_of_heaps (.refl _) (.refl _) (.refl _) (fun r => s.functions.keeps_alloc r fn)

theorem keeps_remove (s : Store) (o : Object) (p : Location) : s.Keeps p (s.remove o) := by
  -- an object that is removed is in one heap, and the others are the same
  cases o with
  | list r =>
    exact keeps_of_heaps (fun r' => s.lists.keeps_remove r' r) (.refl _) (.refl _) (.refl _)
  | dict r =>
    exact keeps_of_heaps (.refl _) (fun r' => s.dicts.keeps_remove r' r) (.refl _) (.refl _)
  | cell r =>
    exact keeps_of_heaps (.refl _) (.refl _) (fun r' => s.cells.keeps_remove r' r) (.refl _)
  | function r =>
    exact keeps_of_heaps (.refl _) (.refl _) (.refl _) (fun r' => s.functions.keeps_remove r' r)

/-- What is left when objects are let go is as it was. -/
theorem keeps_cascade (s : Store) (t : Tally) (todo : List Object) (p : Location) :
    s.Keeps p (s.cascade t todo) := by
  -- along the cascade: each object that goes keeps the location, and so does the rest
  fun_induction cascade s t todo with
  | case1 s t => exact .refl s p
  | case2 s t o rest _ _ _ ih => exact (s.keeps_remove o p).trans ih
  | case3 s t o rest _ ih => exact ih

/-! ### Writes -/

/-- **A write to a location.** Fields are written when an attribute is set or deleted under its name,
and by the setters that the program around has for some of them. The entries of a dict are written
directly or, if it is the `__dict__` of a function, as attributes of the function; the first such
attribute of a function without a `__dict__` gives it one. -/
inductive Writes (s : Store) : Location → Store → Prop
  | set {f : FunctionRef} {a : Attribute} {v : Value} {s' : Store}
      (h : s.setAttr f a.label v = .ok s') : Writes s (.field f a) s'
  | delete {f : FunctionRef} {a : Attribute} {s' : Store} (h : s.delAttr f a.label = .ok s') :
      Writes s (.field f a) s'
  | setDefaults (f : FunctionRef) (t : Option Tuple) :
      Writes s (.field f .defaults) (s.setDefaults f t)
  | setKwDefaults (f : FunctionRef) (r : Option DictRef) :
      Writes s (.field f .kwDefaults) (s.setKwDefaults f r)
  | setAnnotations (f : FunctionRef) (r : Option DictRef) :
      Writes s (.field f .annotations) (s.setAnnotations f r)
  | setClosure {f : FunctionRef} {closure : Option (List CellRef)} {s' : Store}
      (h : s.setClosure f closure = .ok s') : Writes s (.field f .closure) s'
  | first {f : FunctionRef} {n : String} {v : Value} {s' : Store}
      (hn : Attribute.ofName? n = none) (hnone : (s.function f).dict = none)
      (h : s.setAttr f n v = .ok s') : Writes s (.field f .dict) s'
  | setEntry {f : FunctionRef} {r : DictRef} {n : String} {v : Value} {s' : Store}
      (hn : Attribute.ofName? n = none) (hr : (s.function f).dict = some r)
      (h : s.setAttr f n v = .ok s') : Writes s (.entries r) s'
  | deleteEntry {f : FunctionRef} {r : DictRef} {n : String} {s' : Store}
      (hn : Attribute.ofName? n = none) (hr : (s.function f).dict = some r)
      (h : s.delAttr f n = .ok s') : Writes s (.entries r) s'
  | setDict (r : DictRef) (t : Table Value) : Writes s (.entries r) (s.setDict r t)
  | setList (r : ListRef) (items : List Value) : Writes s (.items r) (s.setList r items)
  | setCell (r : CellRef) (v : Option Value) : Writes s (.filling r) (s.setCell r v)

/-- **An operation that writes to no location.** -/
inductive Idle (s : Store) : Store → Prop
  | rest : Idle s s
  | newStr (text : String) : Idle s (s.newStr text).2
  | newTuple (items : List Value) : Idle s (s.newTuple items).2
  | newCode (name : String) (consts : List Value) (freeVars : List String) :
      Idle s (s.newCode name consts freeVars).2
  | newMethod (f : FunctionRef) (receiver : Value) : Idle s (s.newMethod f receiver).2
  | newList (items : List Value) : Idle s (s.newList items).2
  | newDict (t : Table Value) : Idle s (s.newDict t).2
  | newCell (v : Option Value) : Idle s (s.newCell v).2
  | makeFunction (code : Code) (globals : DictRef) (qualname : String) :
      Idle s (s.makeFunction code globals qualname).2
  | makeClosure (code : Code) (globals : DictRef) (qualname : String) (cells : List CellRef) :
      Idle s (s.makeClosure code globals qualname cells).2
  | release (roots : List Value) : Idle s (s.release roots)

/-- **The steps of a run** are the writes and the operations that write to no location. -/
theorem step_iff : s.Step s' ↔ s.Idle s' ∨ ∃ p, s.Writes p s' := by
  constructor
  · intro h
    cases h with
    | rest => exact .inl .rest
    | newStr text => exact .inl (.newStr text)
    | newTuple items => exact .inl (.newTuple items)
    | newCode name consts freeVars => exact .inl (.newCode name consts freeVars)
    | newMethod f receiver => exact .inl (.newMethod f receiver)
    | newList items => exact .inl (.newList items)
    | newDict t => exact .inl (.newDict t)
    | newCell v => exact .inl (.newCell v)
    | makeFunction code globals qualname => exact .inl (.makeFunction code globals qualname)
    | makeClosure code globals qualname cells =>
      exact .inl (.makeClosure code globals qualname cells)
    | release roots => exact .inl (.release roots)
    | setList r items => exact .inr ⟨_, .setList r items⟩
    | setDict r t => exact .inr ⟨_, .setDict r t⟩
    | setCell r v => exact .inr ⟨_, .setCell r v⟩
    | setClosure h => exact .inr ⟨_, .setClosure h⟩
    | setDefaults f t => exact .inr ⟨_, .setDefaults f t⟩
    | setKwDefaults f r => exact .inr ⟨_, .setKwDefaults f r⟩
    | setAnnotations f r => exact .inr ⟨_, .setAnnotations f r⟩
    | @setAttr _ f n v h =>
      -- which location it is depends on the name, and then on whether there is a dict
      cases hn : Attribute.ofName? n with
      | some a =>
        obtain rfl := Attribute.ofName?_eq_some_iff.1 hn
        exact .inr ⟨_, .set h⟩
      | none =>
        cases hr : (s.function f).dict with
        | some r => exact .inr ⟨_, .setEntry hn hr h⟩
        | none => exact .inr ⟨_, .first hn hr h⟩
    | @delAttr _ f n h =>
      cases hn : Attribute.ofName? n with
      | some a =>
        obtain rfl := Attribute.ofName?_eq_some_iff.1 hn
        exact .inr ⟨_, .delete h⟩
      | none =>
        -- the deletion went well, so there is a dict to delete from
        obtain ⟨r, hr, -⟩ := exists_dict_of_delAttr hn h
        exact .inr ⟨_, .deleteEntry hn hr h⟩
  · -- conversely each of them is an operation that a step may be
    rintro (h | ⟨p, h⟩)
    · cases h with
      | rest => exact .rest s
      | newStr text => exact .newStr s text
      | newTuple items => exact .newTuple s items
      | newCode name consts freeVars => exact .newCode s name consts freeVars
      | newMethod f receiver => exact .newMethod s f receiver
      | newList items => exact .newList s items
      | newDict t => exact .newDict s t
      | newCell v => exact .newCell s v
      | makeFunction code globals qualname => exact .makeFunction s code globals qualname
      | makeClosure code globals qualname cells => exact .makeClosure s code globals qualname cells
      | release roots => exact .release s roots
    · cases h with
      -- where it is written to does not matter for a step
      | set h | first _ _ h | setEntry _ _ h => exact .setAttr h
      | delete h | deleteEntry _ _ h => exact .delAttr h
      | setDefaults f t => exact .setDefaults s f t
      | setKwDefaults f r => exact .setKwDefaults s f r
      | setAnnotations f r => exact .setAnnotations s f r
      | setClosure h => exact .setClosure h
      | setDict r t => exact .setDict s r t
      | setList r items => exact .setList s r items
      | setCell r v => exact .setCell s r v

/-! ### What operations keep -/

/-- What is not written to is kept. -/
theorem Idle.keeps (h : s.Idle s') (p : Location) : s.Keeps p s' := by
  cases h with
  | newList items =>
    exact keeps_of_heaps (fun r => s.lists.keeps_alloc r items) (.refl _) (.refl _) (.refl _)
  | newDict t => exact s.keeps_newDict t p
  | newCell v =>
    exact keeps_of_heaps (.refl _) (.refl _) (fun r => s.cells.keeps_alloc r v) (.refl _)
  | makeFunction | makeClosure => exact s.keeps_newFunction _ p
  | release roots => exact s.keeps_cascade _ _ p
  -- labels are no locations
  | _ => exact keeps_of_heaps (.refl _) (.refl _) (.refl _) (.refl _)

/-- A change of an attribute keeps all locations but the one field. -/
theorem keeps_of_change {c : Change} {f : FunctionRef} (h : c.apply f s = .ok s')
    (hp : p ≠ .field f c.target) : s.Keeps p s' := by
  obtain ⟨x, -, rfl⟩ := Change.exists_of_apply h
  -- a label may have been given out before
  have hlabels : s.Keeps p (s.takeLabels c.labels) :=
    keeps_of_heaps (.refl _) (.refl _) (.refl _) (.refl _)
  exact hlabels.trans (keeps_putField hp _ x)

/-- **The frame of a write.** It keeps all locations but the one that it writes to. -/
theorem Writes.keeps (h : s.Writes q s') (hp : p ≠ q) : s.Keeps p s' := by
  cases h with
  | @set f a v _ h => exact keeps_of_change (c := .set a v) h hp
  | @delete f a _ h => exact keeps_of_change (c := .delete a) h hp
  | setDefaults f t => exact keeps_putField (a := .defaults) hp s t
  | setKwDefaults f r => exact keeps_putField (a := .kwDefaults) hp s r
  | setAnnotations f r => exact keeps_putField (a := .annotations) hp s r
  | @setClosure f closure _ h =>
    obtain rfl := eq_putField_of_setClosure h
    exact keeps_putField (a := .closure) hp s (FunctionObject.closureOf (closure.getD []))
  | @first f n v _ hn hnone h =>
    cases written_of_setAttr h with
    | field ha => exact absurd hn (Attribute.ofName?_ne_none ha)
    | entry _ hr =>
      rw [hnone] at hr
      cases hr
    | first =>
      -- the dict is made before the function gets it
      have hdict := s.keeps_newDict (Table.empty.insert n v) p
      exact hdict.trans (keeps_putField (a := .dict) hp _ _)
  | @setEntry f r n v _ hn hr h =>
    -- the name is free and there is a dict, which leaves one of three ways for the write
    cases written_of_setAttr h with
    | field ha => exact absurd hn (Attribute.ofName?_ne_none ha)
    | first _ hnone =>
      rw [hnone] at hr
      cases hr
    | entry _ hr' =>
      cases hr.symm.trans hr'
      exact keeps_setDict hp s _
  | @deleteEntry f r n _ hn hr h =>
    obtain ⟨r', hr', rfl⟩ := exists_dict_of_delAttr hn h
    -- the dict of the function is the one of the location
    cases hr.symm.trans hr'
    exact keeps_setDict hp s _
  | setDict r t => exact keeps_setDict hp s t
  | setList r items => exact keeps_setList hp s items
  | setCell r v => exact keeps_setCell hp s v

end Store

/-! ### Runs that spare a location -/

/-- **A location is spared.** From a store on there are these moments, and each of them comes about by
an operation that writes to no location or to another one. -/
inductive Spares (p : Location) : Store → List Moment → Prop
  | nil (s : Store) : Spares p s []
  | idle {s : Store} {m : Moment} {ms : List Moment} (h : s.Idle m.store)
      (rest : Spares p m.store ms) : Spares p s (m :: ms)
  | writes {s : Store} {m : Moment} {ms : List Moment} {q : Location} (hq : p ≠ q)
      (h : s.Writes q m.store) (rest : Spares p m.store ms) : Spares p s (m :: ms)

namespace Spares

variable {p : Location} {s : Store} {ms : List Moment}

/-- **What is spared is kept**, from the store at the beginning to every moment. -/
theorem keeps (h : Spares p s ms) : ∀ m ∈ ms, s.Keeps p m.store := by
  -- an operation keeps the location, and from the store after it the rest does
  have next {s : Store} {m₀ : Moment} {ms : List Moment} (hkeeps : s.Keeps p m₀.store)
      (ih : ∀ m ∈ ms, m₀.store.Keeps p m.store) : ∀ m ∈ m₀ :: ms, s.Keeps p m.store := by
    intro m hm
    rcases List.mem_cons.1 hm with rfl | hm
    · exact hkeeps
    · exact hkeeps.trans (ih m hm)
  -- on the moments, each of which comes from the one before by one operation
  induction h with
  | nil => exact nofun
  | idle h _ ih => exact next (h.keeps p) ih
  | writes hq h _ ih => exact next (h.keeps hq) ih

end Spares

end Callable
