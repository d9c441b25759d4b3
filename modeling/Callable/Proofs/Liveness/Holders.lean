import Callable.Proofs.Store.Contents
import Callable.Store.Release
import Mathlib.Data.Set.Finite.Basic
import Mathlib.Logic.Relation
import Mathlib.Order.WellFounded

/-!
# Who holds an object

The handles on an object, spelled out. A value holds objects by what it is made of, an object that is
alive holds others by the values in it, and that is all: a weak reference is no value.

* `Value.Holds` — the objects that a value holds: the one that it refers to, and those held by the
  items of a tuple, the constants of a code object, the function and the receiver of a bound method.
* `Store.Contains` — the values in an object: the items of a list, the values of a dict, what is in a
  cell, and the parts of a function.
* `Store.holds_iff` — these are the handles that `Store.release` counts.
* `Store.Reaches` — what can be got at from some roots; `Store.OnCycle` — what holds itself in the
  end.
* `Store.reaches_or_onCycle` — where every object that is alive is held, each is reached from a root
  or from a cycle.
-/

namespace Callable

open Relation

/-- **A value holds an object.** -/
inductive Value.Holds : Value → Object → Prop
  | list (r : ListRef) : Holds (.list r) (.list r)
  | dict (r : DictRef) : Holds (.dict r) (.dict r)
  | cell (r : CellRef) : Holds (.cell r) (.cell r)
  | function (r : FunctionRef) : Holds (.function r) (.function r)
  | item {t : Tuple} {x : Value} {o : Object} (hx : x ∈ t.items) (h : Holds x o) :
      Holds (.tuple t) o
  | const {c : Code} {x : Value} {o : Object} (hx : x ∈ c.consts) (h : Holds x o) :
      Holds (.code c) o
  | bound (m : Method) : Holds (.method m) (.function m.function)
  | receiver {m : Method} {o : Object} (h : Holds m.receiver o) : Holds (.method m) o

namespace Store

/-- **An object contains a value.** The object is alive then. -/
inductive Contains (s : Store) : Object → Value → Prop
  | item {r : ListRef} {items : List Value} {v : Value} (h : s.lists.get? r = some items)
      (hv : v ∈ items) : Contains s (.list r) v
  | entry {r : DictRef} {t : Table Value} {key : String} {v : Value}
      (h : s.dicts.get? r = some t) (hv : t.get? key = some v) : Contains s (.dict r) v
  | cell {r : CellRef} {v : Value} (h : s.cells.get? r = some (some v)) : Contains s (.cell r) v
  | code {f : FunctionRef} {fn : FunctionObject} (h : s.functions.get? f = some fn) :
      Contains s (.function f) (.code fn.code)
  | globals {f : FunctionRef} {fn : FunctionObject} (h : s.functions.get? f = some fn) :
      Contains s (.function f) (.dict fn.globals)
  | defaults {f : FunctionRef} {fn : FunctionObject} {t : Tuple}
      (h : s.functions.get? f = some fn) (ht : fn.defaults = some t) :
      Contains s (.function f) (.tuple t)
  | kwDefaults {f : FunctionRef} {fn : FunctionObject} {r : DictRef}
      (h : s.functions.get? f = some fn) (hr : fn.kwDefaults = some r) :
      Contains s (.function f) (.dict r)
  | closure {f : FunctionRef} {fn : FunctionObject} {cells : List CellRef} {r : CellRef}
      (h : s.functions.get? f = some fn) (hcells : fn.closure = some cells) (hr : r ∈ cells) :
      Contains s (.function f) (.cell r)
  | doc {f : FunctionRef} {fn : FunctionObject} (h : s.functions.get? f = some fn) :
      Contains s (.function f) fn.doc
  | moduleName {f : FunctionRef} {fn : FunctionObject} (h : s.functions.get? f = some fn) :
      Contains s (.function f) fn.moduleName
  | dict {f : FunctionRef} {fn : FunctionObject} {r : DictRef}
      (h : s.functions.get? f = some fn) (hr : fn.dict = some r) : Contains s (.function f) (.dict r)
  | annotations {f : FunctionRef} {fn : FunctionObject} {r : DictRef}
      (h : s.functions.get? f = some fn) (hr : fn.annotations = some r) :
      Contains s (.function f) (.dict r)

/-- An object holds what the values in it hold. -/
def Holds (s : Store) (o o' : Object) : Prop := ∃ v, s.Contains o v ∧ v.Holds o'

/-- What can be got at from some values, from one object to the next. -/
def Reaches (s : Store) (roots : List Value) (o : Object) : Prop :=
  ∃ v ∈ roots, ∃ o₀, v.Holds o₀ ∧ ReflTransGen s.Holds o₀ o

/-- The object is on a cycle of objects that hold each other. -/
def OnCycle (s : Store) (o : Object) : Prop := TransGen s.Holds o o

end Store

/-! ### Handles -/

namespace Value

mutual

/-- A value holds what its handles are on. -/
theorem holds_of_mem_handles {o : Object} : (v : Value) → o ∈ v.handles → v.Holds o
  -- scalars and strings have no handles
  | .none, h | .bool _, h | .int _, h | .float _, h | .str _, h => by cases h
  | .tuple ⟨_, xs⟩, h => by
    obtain ⟨x, hx, ho⟩ := holds_of_mem_handlesOfItems xs h
    exact .item hx ho
  | .list r, h => List.mem_singleton.1 h ▸ .list r
  | .dict r, h => List.mem_singleton.1 h ▸ .dict r
  | .code ⟨_, _, xs, _⟩, h => by
    obtain ⟨x, hx, ho⟩ := holds_of_mem_handlesOfItems xs h
    exact .const hx ho
  | .cell r, h => List.mem_singleton.1 h ▸ .cell r
  | .function r, h => List.mem_singleton.1 h ▸ .function r
  | .method ⟨_, f, x⟩, h => by
    rcases List.mem_cons.1 h with rfl | ho
    · exact .bound _
    · exact .receiver (holds_of_mem_handles x ho)

/-- What the handles of some values are on is held by one of them. -/
theorem holds_of_mem_handlesOfItems {o : Object} :
    (xs : List Value) → o ∈ handlesOfItems xs → ∃ x ∈ xs, x.Holds o
  | [], h => by cases h
  | x :: xs, h => by
    rcases List.mem_append.1 h with ho | ho
    · exact ⟨x, List.mem_cons_self, holds_of_mem_handles x ho⟩
    · obtain ⟨y, hy, hyo⟩ := holds_of_mem_handlesOfItems xs ho
      exact ⟨y, List.mem_cons_of_mem _ hy, hyo⟩

end

theorem Holds.mem_handles {v : Value} {o : Object} (h : v.Holds o) : o ∈ v.handles := by
  -- by the way in which the object is held: one step down into the value for each constructor
  induction h with
  | list r | dict r | cell r | function r => exact List.mem_singleton_self _
  | @item t x o hx h ih =>
    rw [handles, handlesOfItems_eq_flatMap]
    exact List.mem_flatMap.2 ⟨x, hx, ih⟩
  | @const c x o hx h ih =>
    rw [handles, handlesOfItems_eq_flatMap]
    exact List.mem_flatMap.2 ⟨x, hx, ih⟩
  | bound m => exact List.mem_cons_self
  | receiver h ih => exact List.mem_cons_of_mem _ ih

theorem holds_iff {v : Value} {o : Object} : v.Holds o ↔ o ∈ v.handles :=
  ⟨Holds.mem_handles, holds_of_mem_handles v⟩

end Value

namespace Store

variable {s : Store} {roots : List Value} {o o' : Object}

/-- What an object contains is among its contents. -/
theorem Contains.mem_contents {v : Value} (h : s.Contains o v) : v ∈ s.contents o := by
  -- the parts of a function, once it is looked up
  have field {f : FunctionRef} {fn : FunctionObject} {w : Value}
      (hf : s.functions.get? f = some fn) (hw : w ∈ fn.contents) : w ∈ s.contents (.function f) := by
    rw [contents, hf]
    exact hw
  cases h with
  | item h hv =>
    rw [contents, h]
    exact hv
  | entry h hv =>
    rw [contents, h]
    exact Table.mem_values_iff.2 ⟨_, hv⟩
  | cell h =>
    rw [contents, h]
    exact List.mem_singleton_self _
  | code h => exact field h (FunctionObject.mem_contents.2 (by simp))
  | globals h => exact field h (FunctionObject.mem_contents.2 (by simp))
  | defaults h ht => exact field h (FunctionObject.mem_contents.2 (by simp [ht, Value.ofTuple?]))
  | kwDefaults h hr => exact field h (FunctionObject.mem_contents.2 (by simp [hr, Value.ofDict?]))
  | closure h hcells hr => exact field h (FunctionObject.mem_contents.2 (by simp [hcells, hr]))
  | doc h => exact field h (FunctionObject.mem_contents.2 (by simp))
  | moduleName h => exact field h (FunctionObject.mem_contents.2 (by simp))
  | dict h hr => exact field h (FunctionObject.mem_contents.2 (by simp [hr, Value.ofDict?]))
  | annotations h hr => exact field h (FunctionObject.mem_contents.2 (by simp [hr, Value.ofDict?]))

/-- Only what is alive holds something. -/
theorem Holds.isAlive (h : s.Holds o o') : s.isAlive o = true := by
  obtain ⟨v, hv, -⟩ := h
  exact isAlive_of_mem_contents hv.mem_contents

/-- A value of a field that may be missing holds something only if it is there. -/
theorem holds_ofDict? {r : Option DictRef} (h : (Value.ofDict? r).Holds o) :
    ∃ d, r = some d ∧ (Value.dict d).Holds o := by
  cases r with
  | none => cases h
  | some d => exact ⟨d, rfl, h⟩

theorem holds_ofTuple? {t : Option Tuple} (h : (Value.ofTuple? t).Holds o) :
    ∃ u, t = some u ∧ (Value.tuple u).Holds o := by
  cases t with
  | none => cases h
  | some u => exact ⟨u, rfl, h⟩

/-- The contents of a function hold what its parts hold. -/
theorem holds_of_mem_contents_function {f : FunctionRef} {fn : FunctionObject} {v : Value}
    (hf : s.functions.get? f = some fn) (hv : v ∈ fn.contents) (ho : v.Holds o) :
    s.Holds (.function f) o := by
  rw [FunctionObject.mem_contents] at hv
  rcases hv with rfl | rfl | rfl | rfl | rfl | rfl | rfl | rfl | ⟨r, hr, rfl⟩
  · exact ⟨_, .code hf, ho⟩
  · exact ⟨_, .globals hf, ho⟩
  · -- a missing field is listed as `None`, which holds nothing, so the field is there
    obtain ⟨t, ht, ho⟩ := holds_ofTuple? ho
    exact ⟨_, .defaults hf ht, ho⟩
  · obtain ⟨r, hr, ho⟩ := holds_ofDict? ho
    exact ⟨_, .kwDefaults hf hr, ho⟩
  · exact ⟨_, .doc hf, ho⟩
  · exact ⟨_, .moduleName hf, ho⟩
  · obtain ⟨r, hr, ho⟩ := holds_ofDict? ho
    exact ⟨_, .dict hf hr, ho⟩
  · obtain ⟨r, hr, ho⟩ := holds_ofDict? ho
    exact ⟨_, .annotations hf hr, ho⟩
  · -- the cells of a missing closure are the empty list
    cases hcells : fn.closure with
    | none =>
      rw [hcells] at hr
      cases hr
    | some cells =>
      rw [hcells] at hr
      exact ⟨_, .closure hf hcells hr, ho⟩

/-- **What an object holds** are the handles that are counted. -/
theorem holds_iff : s.Holds o o' ↔ o' ∈ s.handles o := by
  rw [mem_handles]
  constructor
  · rintro ⟨v, hv, ho'⟩
    exact ⟨v, hv.mem_contents, ho'.mem_handles⟩
  · rintro ⟨v, hv, ho'⟩
    have hholds : v.Holds o' := Value.holds_iff.2 ho'
    have halive : s.isAlive o = true := isAlive_of_mem_contents hv
    -- the object is alive, so what `contents` looks up is there
    cases o with
    | list r =>
      obtain ⟨items, hitems⟩ := Option.isSome_iff_exists.1 halive
      rw [contents, hitems] at hv
      exact ⟨v, .item hitems hv, hholds⟩
    | dict r =>
      obtain ⟨t, ht⟩ := Option.isSome_iff_exists.1 halive
      rw [contents, ht] at hv
      obtain ⟨key, hkey⟩ := Table.mem_values_iff.1 hv
      exact ⟨v, .entry ht hkey, hholds⟩
    | cell r =>
      obtain ⟨c, hc⟩ := Option.isSome_iff_exists.1 halive
      rw [contents, hc] at hv
      obtain rfl : c = some v := Option.mem_toList.1 hv
      exact ⟨v, .cell hc, hholds⟩
    | function f =>
      obtain ⟨fn, hfn⟩ := Option.isSome_iff_exists.1 halive
      rw [contents, hfn] at hv
      exact holds_of_mem_contents_function hfn hv hholds

/-! ### Paths -/

/-- What a root holds is reached. -/
theorem Reaches.of_root {v : Value} (hv : v ∈ roots) (ho : v.Holds o) : s.Reaches roots o :=
  ⟨v, hv, o, ho, .refl⟩

theorem Reaches.tail (h : s.Reaches roots o) (ho : s.Holds o o') : s.Reaches roots o' := by
  obtain ⟨v, hv, o₀, ho₀, hpath⟩ := h
  exact ⟨v, hv, o₀, ho₀, hpath.tail ho⟩

/-- Where everything has a predecessor, and there is no more than finitely much, there is a
cycle. -/
theorem exists_cycle_of_finite {α : Type} {r : α → α → Prop} {S : Set α} (hfinite : S.Finite)
    (hne : S.Nonempty) (hpred : ∀ x ∈ S, ∃ y ∈ S, r y x) : ∃ c ∈ S, TransGen r c c := by
  -- without a cycle the transitive closure is a strict order, and well-founded on a finite set
  by_contra hnot
  have hacyclic : ∀ c ∈ S, ¬ TransGen r c c := fun c hc hcycle => hnot ⟨c, hc, hcycle⟩
  have : Finite S := hfinite.to_subtype
  have : IsTrans S fun x y => TransGen r x.1 y.1 := ⟨fun _ _ _ => TransGen.trans⟩
  have : Std.Irrefl fun x y : S => TransGen r x.1 y.1 := ⟨fun x => hacyclic x.1 x.2⟩
  have hwf := Finite.wellFounded_of_trans_of_irrefl fun x y : S => TransGen r x.1 y.1
  -- so there would be a first one
  obtain ⟨x, hx⟩ := hne
  obtain ⟨first, -, hfirst⟩ := hwf.has_min Set.univ ⟨⟨x, hx⟩, trivial⟩
  obtain ⟨y, hy, hstep⟩ := hpred first.1 first.2
  exact hfirst ⟨y, hy⟩ trivial (.single hstep)

/-- **Where every object that is alive is held**, by a root or by another one, each is reached from a
root or from a cycle. -/
theorem reaches_or_onCycle
    (hheld : ∀ o, s.isAlive o = true → (∃ v ∈ roots, v.Holds o) ∨ ∃ o', s.Holds o' o)
    (ho : s.isAlive o = true) :
    s.Reaches roots o ∨ ∃ c, s.OnCycle c ∧ ReflTransGen s.Holds c o := by
  by_cases hreach : s.Reaches roots o
  · exact .inl hreach
  · refine .inr ?_
    -- of the objects that lead to this one none is held by a root, so each is held by another one
    have hpred : ∀ x ∈ { x | s.isAlive x = true ∧ ReflTransGen s.Holds x o },
        ∃ y ∈ { x | s.isAlive x = true ∧ ReflTransGen s.Holds x o }, s.Holds y x := by
      rintro x ⟨hx, hpath⟩
      rcases hheld x hx with ⟨v, hv, hroot⟩ | ⟨y, hy⟩
      · exact absurd ⟨v, hv, x, hroot, hpath⟩ hreach
      · exact ⟨y, ⟨hy.isAlive, .head hy hpath⟩, hy⟩
    -- only what is alive holds something, and there is no more than finitely much alive
    have hfinite : { x | s.isAlive x = true ∧ ReflTransGen s.Holds x o }.Finite :=
      (List.finite_toSet s.alive).subset fun x hx => mem_alive.2 hx.1
    obtain ⟨c, ⟨-, hpath⟩, hcycle⟩ := exists_cycle_of_finite hfinite ⟨o, ho, .refl⟩ hpred
    exact ⟨c, hcycle, hpath⟩

end Store

end Callable
