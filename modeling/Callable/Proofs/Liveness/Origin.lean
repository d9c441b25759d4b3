import Callable.Proofs.Function.Fields
import Callable.Proofs.Liveness.Holders

/-!
# Where the values in objects come from

An operation puts values into objects, and answers values. It was given them, or it has found them in
objects that it was given, or it has made them. So a property of objects that is handed on from an
object to all that it holds, and that new objects have, is one that an operation cannot get out of.

* `Value.Within` — all objects that a value holds have the property.
* `Store.Realm` — a property of objects that is handed on in this way.
* `Store.Draws` — what is said of an operation: nothing goes, and whatever gets into an object, or is
  answered, is within the realm. The lemmas `Realm.draws_newList`, `Realm.draws_setAttr`, … say so of
  the operations.
-/

namespace Callable

/-- All objects that the value holds have the property. -/
def Value.Within (P : Object → Prop) (v : Value) : Prop := ∀ o ∈ v.handles, P o

namespace Value

variable {P : Object → Prop}

theorem within_of_handles_eq_nil {v : Value} (h : v.handles = []) : v.Within P := by
  intro o ho
  rw [h] at ho
  cases ho

theorem within_of_handles_eq_singleton {v : Value} {o : Object} (h : v.handles = [o]) (ho : P o) :
    v.Within P := by
  intro o' ho'
  rw [h] at ho'
  rw [List.mem_singleton.1 ho']
  exact ho

theorem within_of_items {v : Value} {xs : List Value} (h : v.handles = handlesOfItems xs)
    (hxs : ∀ x ∈ xs, x.Within P) : v.Within P := by
  intro o ho
  rw [h, handlesOfItems_eq_flatMap] at ho
  obtain ⟨x, hx, ho⟩ := List.mem_flatMap.1 ho
  exact hxs x hx o ho

theorem within_tuple {t : Tuple} (h : ∀ x ∈ t.items, x.Within P) : (tuple t).Within P :=
  within_of_items rfl h

theorem within_code {c : Code} (h : ∀ x ∈ c.consts, x.Within P) : (code c).Within P :=
  within_of_items rfl h

theorem within_method {m : Method} (hf : (function m.function).Within P)
    (hx : m.receiver.Within P) : (method m).Within P := by
  intro o ho
  rcases List.mem_cons.1 ho with rfl | ho
  · exact hf _ List.mem_cons_self
  · exact hx o ho

/-- The parts of a bound method. -/
theorem Within.function_of_method {m : Method} (h : (method m).Within P) :
    (function m.function).Within P :=
  fun o ho => h o (List.mem_cons.2 (.inl (List.mem_singleton.1 ho)))

theorem Within.receiver_of_method {m : Method} (h : (method m).Within P) : m.receiver.Within P :=
  fun o ho => h o (List.mem_cons_of_mem _ ho)

end Value

/-! ### Fields -/

/-- The values in a field. -/
def Attribute.values : (a : Attribute) → a.Field → List Value
  | .code, c => [.code c]
  | .defaults, t => [.ofTuple? t]
  | .kwDefaults, r | .annotations, r | .dict, r => [.ofDict? r]
  | .name, _ | .qualname, _ => []
  | .doc, v | .moduleName, v => [v]
  | .globals, r => [.dict r]
  | .closure, cells => (cells.getD []).map .cell

namespace FunctionObject

variable {fn : FunctionObject} {a : Attribute} {v : Value}

/-- A function contains what is in its fields. -/
theorem mem_contents_of_mem_values (hv : v ∈ a.values (fn.field a)) : v ∈ fn.contents := by
  rw [mem_contents]
  cases a <;> simp_all [Attribute.values, field, eq_comm]

/-- With another field, it contains what is in this one and what it did contain. -/
theorem mem_contents_put {x : a.Field} (hv : v ∈ (fn.put a x).contents) :
    v ∈ fn.contents ∨ v ∈ a.values x := by
  rw [mem_contents] at hv ⊢
  cases a <;> simp_all only [Attribute.values, put, List.mem_singleton, List.mem_map] <;> grind

end FunctionObject

namespace Heap

variable {sort : Mutable} {α : Type} {h : Heap sort α} {r r' : Ref sort}

theorem isAlive_alloc (hr : h.isAlive r = true) (a : α) : (h.alloc a).2.isAlive r = true := by
  rw [isAlive, get?_alloc]
  split
  · rfl
  · exact hr

theorem isAlive_alloc_self (h : Heap sort α) (a : α) :
    (h.alloc a).2.isAlive (h.alloc a).1 = true := by
  rw [isAlive, get?_alloc, if_pos rfl]
  rfl

theorem isAlive_set (hr : h.isAlive r = true) (a : α) : (h.set r' a).isAlive r = true := by
  rw [isAlive, get?_set]
  split
  · rfl
  · exact hr

end Heap

namespace Store

variable {s s' : Store} {P : Object → Prop} {o : Object} {v : Value}

/-! ### What becomes of the contents -/

theorem mem_contents_newList {items : List Value} (hv : v ∈ (s.newList items).2.contents o) :
    v ∈ s.contents o ∨ v ∈ items := by
  cases o with
  | list r =>
    -- of all objects only the lists are looked up in the heap that has changed
    change v ∈ ((s.lists.alloc items).2.get? r).getD [] at hv
    rw [Heap.get?_alloc] at hv
    split at hv
    · exact .inr hv
    · exact .inl hv
  | _ => exact .inl hv

theorem mem_contents_newDict {t : Table Value} (hv : v ∈ (s.newDict t).2.contents o) :
    v ∈ s.contents o ∨ v ∈ t.values := by
  cases o with
  | dict r =>
    change v ∈ (((s.dicts.alloc t).2.get? r).map Table.values).getD [] at hv
    rw [Heap.get?_alloc] at hv
    split at hv
    · exact .inr hv
    · exact .inl hv
  | _ => exact .inl hv

theorem mem_contents_newCell {c : Option Value} (hv : v ∈ (s.newCell c).2.contents o) :
    v ∈ s.contents o ∨ v ∈ c := by
  cases o with
  | cell r =>
    change v ∈ ((s.cells.alloc c).2.get? r).join.toList at hv
    rw [Heap.get?_alloc] at hv
    split at hv
    · exact .inr (Option.mem_toList.1 hv)
    · exact .inl hv
  | _ => exact .inl hv

theorem mem_contents_newFunction {fn : FunctionObject}
    (hv : v ∈ (s.newFunction fn).2.contents o) : v ∈ s.contents o ∨ v ∈ fn.contents := by
  cases o with
  | function r =>
    -- as for lists, in the heap of functions
    change v ∈ (((s.functions.alloc fn).2.get? r).map FunctionObject.contents).getD [] at hv
    rw [Heap.get?_alloc] at hv
    split at hv
    · exact .inr hv
    · exact .inl hv
  | _ => exact .inl hv

theorem mem_contents_setList {r : ListRef} {items : List Value}
    (hv : v ∈ (s.setList r items).contents o) : v ∈ s.contents o ∨ v ∈ items := by
  cases o with
  | list r' =>
    change v ∈ ((s.lists.set r items).get? r').getD [] at hv
    rw [Heap.get?_set] at hv
    split at hv
    · exact .inr hv
    · exact .inl hv
  | _ => exact .inl hv

theorem mem_contents_setDict {r : DictRef} {t : Table Value}
    (hv : v ∈ (s.setDict r t).contents o) : v ∈ s.contents o ∨ o = .dict r ∧ v ∈ t.values := by
  cases o with
  | dict r' =>
    change v ∈ (((s.dicts.set r t).get? r').map Table.values).getD [] at hv
    rw [Heap.get?_set] at hv
    split at hv
    · -- the object is the dict itself, which `draws_setDict` has to know of what stays in it
      rename_i hr
      exact .inr ⟨congrArg Object.dict hr.1, hv⟩
    · exact .inl hv
  | _ => exact .inl hv

theorem mem_contents_setCell {r : CellRef} {c : Option Value}
    (hv : v ∈ (s.setCell r c).contents o) : v ∈ s.contents o ∨ v ∈ c := by
  cases o with
  | cell r' =>
    change v ∈ ((s.cells.set r c).get? r').join.toList at hv
    rw [Heap.get?_set] at hv
    split at hv
    · exact .inr (Option.mem_toList.1 hv)
    · exact .inl hv
  | _ => exact .inl hv

theorem mem_contents_putField {f : FunctionRef} {a : Attribute} {x : a.Field}
    (hv : v ∈ (s.putField f a x).contents o) : v ∈ s.contents o ∨ v ∈ a.values x := by
  cases o with
  | function r =>
    change v ∈ (((s.functions.set f ((s.function f).put a x)).get? r).map
      FunctionObject.contents).getD [] at hv
    rw [Heap.get?_set] at hv
    split at hv
    · -- the function is alive, so what is put into is what is looked up
      rename_i hr
      obtain ⟨rfl, halive⟩ := hr
      rw [contents_function halive]
      exact FunctionObject.mem_contents_put hv
    · exact .inl hv
  | _ => exact .inl hv

/-! ### Realms -/

/-- **A realm**, over an operation that leads from one store to another: a property that is handed on
from an object to what it contains, and that the objects have which the operation makes. -/
structure Realm (s s' : Store) (P : Object → Prop) : Prop where
  closed : ∀ {o}, P o → ∀ v ∈ s.contents o, v.Within P
  made : ∀ {o}, s.isAlive o = false → s'.isAlive o = true → P o

/-- **What an operation draws from.** Nothing goes; what gets into an object is within the realm, and
so is what is answered. -/
structure Draws (s s' : Store) (P : Object → Prop) (results : List Value) : Prop where
  keeps : ∀ o, s.isAlive o = true → s'.isAlive o = true
  contents : ∀ o, ∀ v ∈ s'.contents o, v ∈ s.contents o ∨ v.Within P
  results : ∀ v ∈ results, v.Within P

/-- A store that differs in its labels only. -/
theorem draws_labels {labels : Nat} {results : List Value} (h : ∀ v ∈ results, v.Within P) :
    s.Draws { s with labels } P results where
  keeps _ ho := ho
  contents _ _ hv := .inl hv
  results := h

theorem Draws.refl {results : List Value} (h : ∀ v ∈ results, v.Within P) : s.Draws s P results :=
  draws_labels h

/-- One operation after the other. -/
theorem Draws.trans {s'' : Store} {results results' : List Value} (h : s.Draws s' P results)
    (h' : s'.Draws s'' P results') : s.Draws s'' P results' where
  keeps o ho := h'.keeps o (h.keeps o ho)
  -- what the second has found in an object is from the first, or was there before both
  contents o v hv := (h'.contents o v hv).elim (h.contents o v) .inr
  results := h'.results

/-! ### Writing to objects -/

theorem draws_setList (r : ListRef) {items : List Value} (h : ∀ v ∈ items, v.Within P) :
    s.Draws (s.setList r items) P [] where
  keeps o ho := by
    cases o with
    | list r' => exact Heap.isAlive_set ho items
    | _ => exact ho
  contents o v hv := (mem_contents_setList hv).imp_right (h v)
  results := nofun

/-- What was in the dict may stay in it. -/
theorem draws_setDict (r : DictRef) {t : Table Value}
    (h : ∀ v ∈ t.values, v ∈ (s.dict r).values ∨ v.Within P) : s.Draws (s.setDict r t) P [] where
  keeps o ho := by
    cases o with
    | dict r' => exact Heap.isAlive_set ho t
    | _ => exact ho
  contents o v hv := by
    rcases mem_contents_setDict hv with hold | ⟨rfl, hnew⟩
    · exact .inl hold
    · rw [contents_dict]
      exact h v hnew
  results := nofun

theorem draws_setCell (r : CellRef) {c : Option Value} (h : ∀ v ∈ c, v.Within P) :
    s.Draws (s.setCell r c) P [] where
  keeps o ho := by
    cases o with
    | cell r' => exact Heap.isAlive_set ho c
    | _ => exact ho
  contents o v hv := (mem_contents_setCell hv).imp_right (h v)
  results := nofun

theorem draws_putField (labels : Nat) (f : FunctionRef) {a : Attribute} {x : a.Field}
    (h : ∀ v ∈ a.values x, v.Within P) : s.Draws ((s.takeLabels labels).putField f a x) P [] where
  keeps o ho := by
    cases o with
    | function r => exact Heap.isAlive_set ho _
    | _ => exact ho
  contents o v hv := (mem_contents_putField hv).imp_right (h v)
  results := nofun

namespace Realm

variable {f : FunctionRef} {a : Attribute}

/-- What a function that is alive has in its fields is within the realm. -/
theorem within_field (hP : s.Realm s' P) (hf : s.functions.isAlive f = true)
    (hPf : P (.function f)) (hv : v ∈ (s.function f).contents) : v.Within P := by
  rw [← contents_function (r := f) hf] at hv
  exact hP.closed hPf v hv

theorem within_item (hP : s.Realm s' P) {r : ListRef} (hr : P (.list r)) (hv : v ∈ s.list r) :
    v.Within P := by
  rw [← contents_list] at hv
  exact hP.closed hr v hv

theorem within_entry (hP : s.Realm s' P) {r : DictRef} (hr : P (.dict r)) {k : String}
    (hv : (s.dict r).get? k = some v) : v.Within P := by
  refine hP.closed hr v ?_
  rw [contents_dict]
  exact Table.mem_values_iff.2 ⟨k, hv⟩

/-! ### Making objects -/

theorem draws_newList {items : List Value} (hP : s.Realm (s.newList items).2 P)
    (h : ∀ v ∈ items, v.Within P) :
    s.Draws (s.newList items).2 P [.list (s.newList items).1] where
  keeps o ho := by
    cases o with
    | list r => exact Heap.isAlive_alloc ho items
    | _ => exact ho
  contents o v hv := (mem_contents_newList hv).imp_right (h v)
  results := by
    refine List.forall_mem_singleton.2 (Value.within_of_handles_eq_singleton rfl ?_)
    exact hP.made (s.lists.isAlive_alloc_fst items) (s.lists.isAlive_alloc_self items)

theorem draws_newDict {t : Table Value} (hP : s.Realm (s.newDict t).2 P)
    (h : ∀ v ∈ t.values, v.Within P) : s.Draws (s.newDict t).2 P [.dict (s.newDict t).1] where
  keeps o ho := by
    cases o with
    | dict r => exact Heap.isAlive_alloc ho t
    | _ => exact ho
  contents o v hv := (mem_contents_newDict hv).imp_right (h v)
  results := by
    refine List.forall_mem_singleton.2 (Value.within_of_handles_eq_singleton rfl ?_)
    exact hP.made (s.dicts.isAlive_alloc_fst t) (s.dicts.isAlive_alloc_self t)

theorem draws_newCell {c : Option Value} (hP : s.Realm (s.newCell c).2 P)
    (h : ∀ v ∈ c, v.Within P) : s.Draws (s.newCell c).2 P [.cell (s.newCell c).1] where
  keeps o ho := by
    cases o with
    | cell r => exact Heap.isAlive_alloc ho c
    | _ => exact ho
  contents o v hv := (mem_contents_newCell hv).imp_right (h v)
  results := by
    refine List.forall_mem_singleton.2 (Value.within_of_handles_eq_singleton rfl ?_)
    exact hP.made (s.cells.isAlive_alloc_fst c) (s.cells.isAlive_alloc_self c)

theorem draws_newFunction {fn : FunctionObject} (hP : s.Realm (s.newFunction fn).2 P)
    (h : ∀ v ∈ fn.contents, v.Within P) :
    s.Draws (s.newFunction fn).2 P [.function (s.newFunction fn).1] where
  keeps o ho := by
    cases o with
    | function r => exact Heap.isAlive_alloc ho fn
    | _ => exact ho
  contents o v hv := (mem_contents_newFunction hv).imp_right (h v)
  results := by
    refine List.forall_mem_singleton.2 (Value.within_of_handles_eq_singleton rfl ?_)
    exact hP.made (s.functions.isAlive_alloc_fst fn) (s.functions.isAlive_alloc_self fn)

/-- What a new function contains: its code, its globals, what is in the code, and the module named by
the globals. -/
theorem within_make (hP : s.Realm s' P) {code : Code} {globals : DictRef} (qualname : String)
    (hcode : (Value.code code).Within P) (hglobals : (Value.dict globals).Within P)
    (hv : v ∈ (FunctionObject.make code globals (s.dict globals) qualname).contents) :
    v.Within P := by
  -- a docstring is a string or `None`, and holds nothing
  have hdoc : code.docString.Within P := by
    rw [CodeOf.docString]
    split <;> exact Value.within_of_handles_eq_nil rfl
  -- the module is an entry of the globals, in the store as it was
  have hmodule : (((s.dict globals).get? moduleNameKey).getD .none).Within P := by
    cases hname : (s.dict globals).get? moduleNameKey with
    | none => exact Value.within_of_handles_eq_nil rfl
    | some w => exact hP.within_entry (hglobals _ List.mem_cons_self) hname
  have hnone : Value.none.Within P := Value.within_of_handles_eq_nil rfl
  rw [FunctionObject.mem_contents] at hv
  rcases hv with rfl | rfl | rfl | rfl | rfl | rfl | rfl | rfl | ⟨r, hr, -⟩
  · exact hcode
  · exact hglobals
  · exact hnone
  · exact hnone
  · exact hdoc
  · exact hmodule
  · exact hnone
  · exact hnone
  · cases hr

theorem draws_makeFunction {code : Code} {globals : DictRef} (qualname : String)
    (hP : s.Realm (s.makeFunction code globals qualname).2 P) (hcode : (Value.code code).Within P)
    (hglobals : (Value.dict globals).Within P) :
    s.Draws (s.makeFunction code globals qualname).2 P
      [.function (s.makeFunction code globals qualname).1] :=
  draws_newFunction hP fun _ hv => hP.within_make qualname hcode hglobals hv

theorem draws_makeClosure {code : Code} {globals : DictRef} (qualname : String)
    {cells : List CellRef} (hP : s.Realm (s.makeClosure code globals qualname cells).2 P)
    (hcode : (Value.code code).Within P) (hglobals : (Value.dict globals).Within P)
    (hcells : ∀ r ∈ cells, (Value.cell r).Within P) :
    s.Draws (s.makeClosure code globals qualname cells).2 P
      [.function (s.makeClosure code globals qualname cells).1] := by
  refine draws_newFunction hP fun v hv => ?_
  -- beside the cells it contains what a function without a closure would
  rcases List.mem_append.1 hv with hfield | hcell
  · exact hP.within_make qualname hcode hglobals (List.mem_append_left _ hfield)
  · obtain ⟨r, hr, rfl⟩ := List.mem_map.1 hcell
    rw [FunctionObject.getD_closureOf] at hr
    exact hcells r hr

theorem draws_toTuple? {t : Tuple} (hP : s.Realm s' P) (hv : v.Within P)
    (h : s.toTuple? v = some (t, s')) : s.Draws s' P [.tuple t] := by
  cases v with
  | tuple t =>
    cases h
    exact .refl (List.forall_mem_singleton.2 hv)
  | list r =>
    cases h
    -- the tuple is new and is no object of the store; its items are those of the list
    refine draws_labels (List.forall_mem_singleton.2 (Value.within_tuple fun x hx => ?_))
    exact hP.within_item (hv _ List.mem_cons_self) hx
  | _ => cases h

theorem draws_bind (f : FunctionRef) (hf : (Value.function f).Within P) (hv : v.Within P) :
    s.Draws (s.bind f v).2 P [(s.bind f v).1] := by
  rw [bind]
  split
  · -- bound to `None` a function is itself
    exact .refl (List.forall_mem_singleton.2 hf)
  · have hmethod : (Value.method (s.newMethod f v).1).Within P := Value.within_method hf hv
    exact draws_labels (List.forall_mem_singleton.2 hmethod)

/-! ### Attributes -/

/-- What is shown of a field is what is in it, or is made of that. -/
theorem within_showField {x : a.Field} (h : ∀ v ∈ a.values x, v.Within P) :
    (s.showField a x).1.Within P := by
  cases a with
  -- a name is shown as a new string
  | name | qualname => exact Value.within_of_handles_eq_nil rfl
  | closure =>
    cases x with
    -- the cells are shown in a new tuple
    | none => exact Value.within_of_handles_eq_nil rfl
    | some cells => exact Value.within_tuple h
  | _ => exact h _ List.mem_cons_self

/-- To show a field may take a label. -/
theorem exists_labels_showField (s : Store) (a : Attribute) (x : a.Field) :
    ∃ labels, (s.showField a x).2 = { s with labels } := by
  cases a with
  | name | qualname => exact ⟨_, rfl⟩
  | closure => cases x <;> exact ⟨_, rfl⟩
  | _ => exact ⟨_, rfl⟩

theorem draws_getAttr {n : String} (hP : s.Realm s' P) (hf : s.functions.isAlive f = true)
    (hPf : P (.function f)) (h : s.getAttr f n = .ok (v, s')) : s.Draws s' P [v] := by
  cases hn : Attribute.ofName? n with
  | some a =>
    obtain rfl := Attribute.ofName?_eq_some_iff.1 hn
    rw [getAttr_label] at h
    have hshow : s.showField a ((s.function f).field a) = (v, s') := Except.ok.inj h
    have hwithin : (s.showField a ((s.function f).field a)).1.Within P := within_showField
      fun w hw => hP.within_field hf hPf (FunctionObject.mem_contents_of_mem_values hw)
    obtain ⟨labels, hlabels⟩ := exists_labels_showField s a ((s.function f).field a)
    rw [hshow] at hwithin hlabels
    obtain rfl : s' = { s with labels } := hlabels
    exact draws_labels (List.forall_mem_singleton.2 hwithin)
  | none =>
    rw [getAttr, hn] at h
    cases hfree : s.freeAttr? f n with
    | none => simp only [hfree, reduceCtorEq] at h
    | some w =>
      simp only [hfree] at h
      cases h
      -- the value is an entry of the dict, which the function contains
      obtain ⟨r, hr, hentry⟩ := Option.bind_eq_some_iff.1 hfree
      have hdict : (Value.ofDict? (some r)).Within P := by
        rw [← hr]
        refine hP.within_field hf hPf (FunctionObject.mem_contents_of_mem_values (a := .dict) ?_)
        exact List.mem_cons_self
      exact .refl (List.forall_mem_singleton.2 (hP.within_entry (hdict _ List.mem_cons_self) hentry))

theorem draws_getMethodAttr {m : Method} {n : String} (hP : s.Realm s' P)
    (hf : s.functions.isAlive m.function = true) (hm : (Value.method m).Within P)
    (h : s.getMethodAttr m n = .ok (v, s')) : s.Draws s' P [v] := by
  rw [getMethodAttr] at h
  split at h
  · -- `__self__` and `__func__` are parts of the method, any other attribute is one of its function
    cases h
    exact .refl (List.forall_mem_singleton.2 hm.receiver_of_method)
  · split at h
    · cases h
      exact .refl (List.forall_mem_singleton.2 hm.function_of_method)
    · exact hP.draws_getAttr hf (hm _ List.mem_cons_self) h

/-- What comes into a field by a change is the value, or is made of it. -/
theorem within_of_outcome (hP : s.Realm s' P) {c : Change} {x : c.target.Field}
    (hx : c.outcomeIn s f = .ok x) (hc : ∀ v ∈ c.value?, v.Within P) :
    ∀ v ∈ c.target.values x, v.Within P := by
  obtain ⟨a, v?⟩ := c
  have hnone : Value.none.Within P := Value.within_of_handles_eq_nil rfl
  cases v? with
  | none =>
    change a.clear = .ok x at hx
    -- what cannot be deleted has no outcome
    cases a with
    | code | name | qualname | globals | closure => cases hx
    | _ =>
      cases hx
      exact List.forall_mem_singleton.2 hnone
  | some v =>
    have hv : v.Within P := hc v rfl
    change a.accept _ _ _ _ v = .ok x at hx
    cases a with
    | code =>
      cases v with
      | code c =>
        simp only [Attribute.accept] at hx
        split at hx
        · cases hx
          exact List.forall_mem_singleton.2 hv
        · cases hx
      | _ => cases hx
    | defaults =>
      -- a list is taken over as a new tuple of its items at this moment
      cases v with
      | tuple t =>
        cases hx
        exact List.forall_mem_singleton.2 hv
      | list r =>
        cases hx
        have hitems : ∀ w ∈ s.list r, w.Within P :=
          fun w hw => hP.within_item (hv _ List.mem_cons_self) hw
        exact List.forall_mem_singleton.2 (Value.within_tuple hitems)
      | _ => cases hx
    | kwDefaults | annotations | dict =>
      cases v with
      | dict r =>
        cases hx
        exact List.forall_mem_singleton.2 hv
      | _ => cases hx
    -- of a string that is assigned as a name only the text is kept
    | name | qualname => exact List.forall_mem_nil _
    | doc | moduleName =>
      cases hx
      exact List.forall_mem_singleton.2 hv
    | globals | closure => cases hx

theorem draws_change (hP : s.Realm s' P) {c : Change} (h : c.apply f s = .ok s')
    (hc : ∀ v ∈ c.value?, v.Within P) : s.Draws s' P [] := by
  obtain ⟨x, hx, rfl⟩ := Change.exists_of_apply h
  exact draws_putField _ f (hP.within_of_outcome hx hc)

theorem draws_setAttr {n : String} (hP : s.Realm s' P) (hv : v.Within P)
    (h : s.setAttr f n v = .ok s') : s.Draws s' P [] := by
  cases hn : Attribute.ofName? n with
  | some a =>
    obtain rfl := Attribute.ofName?_eq_some_iff.1 hn
    exact hP.draws_change (c := .set a v) h fun w hw => Option.some.inj hw ▸ hv
  | none =>
    rw [setAttr, hn] at h
    cases hr : (s.function f).dict with
    | some r =>
      simp only [hr] at h
      cases h
      refine draws_setDict r fun w hw => ?_
      -- the other entries of the dict stay, which is why a dict may keep what it had
      rcases Table.mem_values_insert hw with rfl | hold
      · exact .inr hv
      · exact .inl hold
    | none =>
      simp only [hr] at h
      cases h
      -- the dict is made with its entry, and then the function gets it
      have hentries : ∀ w ∈ (Table.empty.insert n v).values, w.Within P := by
        intro w hw
        rcases Table.mem_values_insert hw with rfl | hold
        · exact hv
        · cases hold
      have hmade : P (.dict (s.newDict (Table.empty.insert n v)).1) :=
        hP.made (s.dicts.isAlive_alloc_fst (Table.empty.insert n v))
          (s.dicts.isAlive_alloc_self (Table.empty.insert n v))
      have hfield : ∀ w ∈ Attribute.dict.values (some (s.newDict (Table.empty.insert n v)).1),
          w.Within P :=
        List.forall_mem_singleton.2 (Value.within_of_handles_eq_singleton rfl hmade)
      have hput := draws_putField (s := (s.newDict (Table.empty.insert n v)).2) 0 f hfield
      -- the realm is over both operations, and what the first one makes the second one leaves alive
      have hnew : s.Realm (s.newDict (Table.empty.insert n v)).2 P :=
        ⟨hP.closed, fun hdead halive => hP.made hdead (hput.keeps _ halive)⟩
      exact (hnew.draws_newDict hentries).trans hput

theorem draws_delAttr {n : String} (hP : s.Realm s' P) (h : s.delAttr f n = .ok s') :
    s.Draws s' P [] := by
  cases hn : Attribute.ofName? n with
  | some a =>
    obtain rfl := Attribute.ofName?_eq_some_iff.1 hn
    exact hP.draws_change (c := .delete a) h nofun
  | none =>
    -- fewer entries, and all of them were there
    obtain ⟨r, -, rfl⟩ := exists_dict_of_delAttr hn h
    exact draws_setDict r fun w hw => .inl (Table.mem_values_erase hw)

theorem draws_setClosure {closure : Option (List CellRef)}
    (hcells : ∀ r ∈ closure.getD [], (Value.cell r).Within P)
    (h : s.setClosure f closure = .ok s') : s.Draws s' P [] := by
  obtain rfl := eq_putField_of_setClosure h
  refine draws_putField 0 f (a := .closure) fun w hw => ?_
  obtain ⟨r, hr, rfl⟩ := List.mem_map.1 hw
  -- an empty list of cells is stored as no closure, which contains as much
  rw [FunctionObject.getD_closureOf] at hr
  exact hcells r hr

end Realm

end Store

end Callable
