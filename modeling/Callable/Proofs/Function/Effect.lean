import Callable.Proofs.Function.Fields
import Callable.Proofs.Function.Refusal
import Callable.Proofs.Liveness.Sound

/-!
# The effect of a write

An attribute of a function is written by its name, and the question is what is read otherwise from
then on, on this function or on another one. Functions can share a `__dict__`, and a dict can be the
`__dict__` of one function, the globals of another and the annotations of a third, so a free-form
name may come to have another value where nobody has written.

What a write can do is said once, by cases (`Store.Written`): it replaces one field of the function,
or it writes one entry of its `__dict__`, or it makes that dict. Of a store two things are read, the
fields of functions and the entries that are found by way of their `__dict__`; so it is enough to
know of either what becomes of it in each of the three cases.

* `Store.written_of_setAttr` — what an accepted write does.
* `Store.Rewritten` — the readings that a write is meant to change.
* `Store.Written.field_eq`, `Store.Written.freeAttr?_eq` — everything else reads as before.
* `Store.setAttr_effect` — the result.
-/

namespace Callable

/-- The name of a fixed attribute is not free-form. -/
theorem Attribute.ofName?_ne_none {a : Attribute} {n : String} (hn : n = a.label) :
    ofName? n ≠ none := by
  rw [hn, ofName?_label]
  exact Option.some_ne_none a

/-- What is alive is not what is made next. -/
theorem Heap.ne_alloc_fst {sort : Mutable} {α : Type} (h : Heap sort α) {r : Ref sort}
    (hr : h.isAlive r = true) (a : α) : r ≠ (h.alloc a).1 := by
  rintro rfl
  rw [h.isAlive_alloc_fst a] at hr
  cases hr

namespace Store

variable {s s' : Store} {f g : FunctionRef} {n m : String} {v : Value} {r : DictRef}

/-! ### Readings and what they depend on -/

/-- A fixed attribute reads alike if its field is the same. -/
theorem alike_of_field {a : Attribute} (h : (s'.function g).field a = (s.function g).field a)
    (copies : Tuple → Tuple → Prop) :
    Alike copies s s' (s.getAttr g a.label) (s'.getAttr g a.label) := by
  rw [getAttr_label, getAttr_label, h]
  exact alike_showField copies s s' a _

theorem getAttr_free (hm : Attribute.ofName? m = none) (s : Store) (g : FunctionRef) :
    s.getAttr g m = match s.freeAttr? g m with
      | some w => .ok (w, s)
      | none => .error (.noAttribute m) := by
  cases hfound : s.freeAttr? g m <;> simp only [getAttr, hm, hfound]

/-- A free-form name reads alike if the same is found under it. -/
theorem alike_of_freeAttr? (hm : Attribute.ofName? m = none)
    (h : s'.freeAttr? g m = s.freeAttr? g m) (copies : Tuple → Tuple → Prop) :
    Alike copies s s' (s.getAttr g m) (s'.getAttr g m) := by
  rw [getAttr_free hm, getAttr_free hm, h]
  cases s.freeAttr? g m with
  | some w => exact .object w
  | none => exact .refused _

/-- What is found under a free-form name depends on the dict of the function and on its entries. -/
theorem freeAttr?_congr (hdict : (s'.function g).dict = (s.function g).dict)
    (hentry : ∀ r, (s.function g).dict = some r → (s'.dict r).get? m = (s.dict r).get? m) :
    s'.freeAttr? g m = s.freeAttr? g m := by
  rw [freeAttr?, freeAttr?, hdict]
  cases hr : (s.function g).dict with
  | none => rfl
  | some r => exact hentry r hr

@[simp] theorem function_setDict (s : Store) (r : DictRef) (t : Table Value) (g : FunctionRef) :
    (s.setDict r t).function g = s.function g := rfl

/-- The dicts of a function that is alive are alive in a sound store. -/
theorem Sound.isAlive_of_mem (hs : s.Sound) (hg : s.functions.isAlive g = true)
    (hr : .dict r ∈ (s.function g).contents) : s.dicts.isAlive r = true :=
  Value.live_dict_iff.1 (hs.live_field (Value.live_function_iff.2 hg) hr)

/-- The dict of its attributes is alive whether or not the function is known to be alive. -/
theorem Sound.isAlive_dict (hs : s.Sound) (hr : (s.function g).dict = some r) :
    s.dicts.isAlive r = true := by
  cases hg : s.functions.isAlive g with
  | true =>
    refine hs.isAlive_of_mem hg (FunctionObject.mem_contents.2 ?_)
    rw [hr]
    exact .inr (.inr (.inr (.inr (.inr (.inr (.inl rfl))))))
  | false =>
    -- one that is gone reads as the default fields, which have no dict
    rw [function_of_not_isAlive hg] at hr
    cases hr

/-! ### What a write does -/

/-- The dict that is made for the first free-form attribute of a function, and the store with it. -/
def withFirst (s : Store) (f : FunctionRef) (n : String) (v : Value) : DictRef × Store :=
  let (r, s') := s.newDict (Table.empty.insert n v)
  (r, s'.putField f .dict (some r))

theorem dict_withFirst (s : Store) (f : FunctionRef) (n : String) (v : Value) :
    (s.withFirst f n v).2.dict (s.withFirst f n v).1 = Table.empty.insert n v :=
  s.dict_newDict _

/-- The new dict has a number that no other one has. -/
theorem dict_withFirst_of_isAlive (hr : s.dicts.isAlive r = true) (f : FunctionRef) (n : String)
    (v : Value) : (s.withFirst f n v).2.dict r = s.dict r := by
  change (s.dicts.alloc (Table.empty.insert n v)).2.get r = s.dicts.get r
  rw [Heap.get_alloc, if_neg (s.dicts.ne_alloc_fst hr _)]

theorem function_withFirst (hf : s.functions.isAlive f = true) (n : String) (v : Value) :
    ((s.withFirst f n v).2.function f).dict = some (s.withFirst f n v).1 :=
  field_putField_self (s := (s.newDict (Table.empty.insert n v)).2) (a := .dict) hf _

/-- **What an accepted write does.** Under the name of a fixed attribute it replaces a field. Under
any other name it writes an entry of the function's dict, or makes a dict with this entry. -/
inductive Written (s : Store) (f : FunctionRef) (n : String) (v : Value) : Store → Prop
  | field {a : Attribute} {x : a.Field} (hn : n = a.label)
      (hx : (Change.set a v).outcomeIn s f = .ok x) :
      Written s f n v ((s.takeLabels (Change.set a v).labels).putField f a x)
  | entry {r : DictRef} (hn : Attribute.ofName? n = none) (hr : (s.function f).dict = some r) :
      Written s f n v (s.setDict r ((s.dict r).insert n v))
  | first (hn : Attribute.ofName? n = none) (hnone : (s.function f).dict = none) :
      Written s f n v (s.withFirst f n v).2

theorem written_of_setAttr (h : s.setAttr f n v = .ok s') : Written s f n v s' := by
  cases ha : Attribute.ofName? n with
  | some a =>
    have hn : n = a.label := Attribute.ofName?_eq_some_iff.1 ha
    rw [hn] at h
    -- under the name of a fixed attribute the write is a change, and of those all is known
    obtain ⟨x, hx, rfl⟩ := Change.exists_of_apply (c := .set a v) h
    exact .field hn hx
  | none =>
    rw [setAttr, ha] at h
    cases hr : (s.function f).dict with
    | some r =>
      rw [hr] at h
      cases h
      exact .entry ha hr
    | none =>
      rw [hr] at h
      cases h
      exact .first ha hr

/-- The readings that a write is meant to change, where `s` is before it and `s'` after it. -/
inductive Rewritten (s : Store) (f : FunctionRef) (n : String) (s' : Store) :
    FunctionRef → String → Prop
  /-- The attribute itself. -/
  | fixed {a : Attribute} (hn : n = a.label) : Rewritten s f n s' f n
  /-- With another dict, all that is read from it. -/
  | replaced {m : String} (hn : n = Attribute.dict.label) (hm : Attribute.ofName? m = none) :
      Rewritten s f n s' f m
  /-- A free-form name, wherever it is read from the same dict. -/
  | shared {g : FunctionRef} (hn : Attribute.ofName? n = none)
      (hg : (s'.function g).dict = (s'.function f).dict) : Rewritten s f n s' g n
  /-- The dict, if it was made for this entry. -/
  | made (hn : Attribute.ofName? n = none) (hnone : (s.function f).dict = none) :
      Rewritten s f n s' f Attribute.dict.label

namespace Written

theorem lists_eq (h : Written s f n v s') : s'.lists = s.lists := by
  cases h <;> rfl

theorem cells_eq (h : Written s f n v s') : s'.cells = s.cells := by
  cases h <;> rfl

/-- No other function is written to. -/
theorem get?_function_of_ne (h : Written s f n v s') (hg : g ≠ f) :
    s'.functions.get? g = s.functions.get? g := by
  have hset (fn : FunctionObject) : (s.functions.set f fn).get? g = s.functions.get? g := by
    rw [Heap.get?_set, if_neg fun hgf => hg hgf.1]
  cases h with
  | field | first => exact hset _
  | entry => rfl

/-- The entry of a free-form name in the dict of the function, and no other entry of a dict, is
written to. -/
theorem get?_dict (h : Written s f n v s') (hr : s.dicts.isAlive r = true) :
    s'.dicts.get? r =
      if Attribute.ofName? n = none ∧ (s.function f).dict = some r then
        some ((s.dict r).insert n v)
      else s.dicts.get? r := by
  cases h with
  | @field a x hn =>
    -- a field is replaced, and the dicts are not touched
    rw [if_neg fun hfree => Attribute.ofName?_ne_none hn hfree.1]
    rfl
  | @entry r' hn hr' =>
    change (s.dicts.set r' ((s.dict r').insert n v)).get? r = _
    rw [Heap.get?_set, hr']
    by_cases hrr : r = r'
    · subst hrr
      rw [if_pos ⟨rfl, hr⟩, if_pos ⟨hn, rfl⟩]
    · rw [if_neg fun h => hrr h.1, if_neg fun h => hrr (Option.some.inj h.2).symm]
  | first hn hnone =>
    -- the dict that is made has a new number, so it is none of those that are alive
    change (s.dicts.alloc (Table.empty.insert n v)).2.get? r = _
    rw [Heap.get?_alloc, if_neg (s.dicts.ne_alloc_fst hr _), hnone, if_neg fun h => nomatch h.2]

/-- The fields stay as they are, but for the one that is written and for the dict that is made. -/
theorem field_eq (h : Written s f n v s') {a : Attribute} (ha : ¬ Rewritten s f n s' g a.label) :
    (s'.function g).field a = (s.function g).field a := by
  cases h with
  | @field b x hn =>
    refine field_putField_of_ne ?_ x
    -- the field that is written is among the readings that are meant to change
    rintro ⟨rfl, rfl⟩
    exact ha (hn ▸ .fixed hn)
  | entry => rfl
  | first hn hnone =>
    refine field_putField_of_ne ?_ _
    rintro ⟨rfl, rfl⟩
    exact ha (.made hn hnone)

/-- After a free-form name is written it is found. -/
theorem freeAttr?_self (h : Written s f n v s') (hs : s.Sound) (hf : s.functions.isAlive f = true)
    (hn : Attribute.ofName? n = none) : s'.freeAttr? f n = some v := by
  cases h with
  | field ha => exact absurd hn (Attribute.ofName?_ne_none ha)
  | @entry r _ hr =>
    rw [freeAttr?, function_setDict, hr, Option.bind_some, dict_setDict,
      if_pos ⟨rfl, hs.isAlive_dict hr⟩, Table.get?_insert_self]
  | first =>
    -- the function has the new dict now, and it has this one entry
    rw [freeAttr?, function_withFirst hf, Option.bind_some, dict_withFirst, Table.get?_insert_self]

/-- What is found under a free-form name stays the same where it is not meant to change. -/
theorem freeAttr?_eq (h : Written s f n v s') (hs : s.Sound) (hf : s.functions.isAlive f = true)
    (hm : Attribute.ofName? m = none) (hgm : ¬ Rewritten s f n s' g m) :
    s'.freeAttr? g m = s.freeAttr? g m := by
  cases h with
  | @field a x hn =>
    -- no dict is written to, so it can only be that the function has another one
    refine freeAttr?_congr (field_putField_of_ne (b := .dict) ?_ x) fun _ _ => rfl
    rintro ⟨rfl, rfl⟩
    exact hgm (.replaced hn hm)
  | @entry r hn hr =>
    refine freeAttr?_congr rfl fun r' hr' => ?_
    rw [dict_setDict]
    split
    · -- the two functions have one dict, so it is another name
      rename_i hsame
      obtain ⟨rfl, -⟩ := hsame
      have hne : n ≠ m := by
        rintro rfl
        exact hgm (.shared hn (hr'.trans hr.symm))
      rw [Table.get?_insert, if_neg hne]
    · rfl
  | first hn hnone =>
    by_cases hg : g = f
    · -- the dict was made, and has no entry but the one that is written
      subst hg
      have hne : n ≠ m := by
        rintro rfl
        exact hgm (.shared hn rfl)
      rw [freeAttr?, function_withFirst hf, Option.bind_some, dict_withFirst, Table.get?_insert,
        if_neg hne, freeAttr?, hnone]
      rfl
    · -- another function keeps its dict, which is an older one
      have hdict : ((s.withFirst f n v).2.function g).dict = (s.function g).dict :=
        field_putField_of_ne (b := .dict) (fun hgb => hg hgb.1) _
      refine freeAttr?_congr hdict fun r hr => ?_
      rw [dict_withFirst_of_isAlive (hs.isAlive_dict hr)]

/-- What is not meant to change reads alike. -/
theorem alike (h : Written s f n v s') (hs : s.Sound) (hf : s.functions.isAlive f = true)
    (hgm : ¬ Rewritten s f n s' g m) (copies : Tuple → Tuple → Prop) :
    Alike copies s s' (s.getAttr g m) (s'.getAttr g m) := by
  cases hm : Attribute.ofName? m with
  | some a =>
    obtain rfl := Attribute.ofName?_eq_some_iff.1 hm
    exact alike_of_field (h.field_eq hgm) copies
  | none => exact alike_of_freeAttr? hm (h.freeAttr?_eq hs hf hm hgm) copies

end Written

/-! ### What is read of a value that was written -/

/-- What is read of an attribute to which a value was written: a new string of the text for a name,
a tuple of the items that it had for a list among the defaults, and else the value. -/
def readBack (s : Store) (a : Attribute) (v : Value) (s' : Store) : Value × Store :=
  match a, v with
  | .name, .str t | .qualname, .str t => (.str (s'.newStr t.text).1, (s'.newStr t.text).2)
  | .defaults, .list r => (.tuple ⟨⟨s.labels⟩, s.list r⟩, s')
  | _, v => (v, s')

theorem showField_of_outcome {a : Attribute} {x : a.Field}
    (hx : (Change.set a v).outcomeIn s f = .ok x) (s' : Store) :
    s'.showField a x = s.readBack a v s' := by
  -- case by case as `accept` decides: of most attributes one sort of value is left
  change a.accept _ _ _ _ v = .ok x at hx
  cases a with
  | code =>
    cases v with
    | code c =>
      simp only [Attribute.accept] at hx
      split at hx
      · cases hx
        rfl
      · cases hx
    | _ => cases hx
  | defaults | kwDefaults | annotations | dict | name | qualname =>
    cases v <;> cases hx <;> rfl
  | doc | moduleName =>
    cases hx
    rfl
  | globals | closure => cases hx

/-! ### The result -/

/-- **The effect of a write** of a value to a function under a name, where `s` is the store before
it and `s'` the store after it. -/
structure WriteEffect (s : Store) (f : FunctionRef) (n : String) (v : Value) (s' : Store) :
    Prop where
  /-- The other readings have the outcome that they had: the same object or error, or a new string
  or tuple if it is new each time. -/
  others : ∀ g m, ¬ Rewritten s f n s' g m →
    Alike (fun _ _ => False) s s' (s.getAttr g m) (s'.getAttr g m)
  /-- A fixed attribute reads as what was written. -/
  fixed : ∀ a : Attribute, n = a.label → s'.getAttr f n = .ok (s.readBack a v s')
  /-- With another dict, the free-form attributes are read from it. -/
  replaced : n = Attribute.dict.label → ∃ r, v = .dict r ∧
    ∀ m, Attribute.ofName? m = none → s'.getAttr f m =
      match (s.dict r).get? m with
      | some w => .ok (w, s')
      | none => .error (.noAttribute m)
  /-- A free-form attribute reads as what was written on every function with the same dict. -/
  shared : Attribute.ofName? n = none →
    ∀ g, (s'.function g).dict = (s'.function f).dict → s'.getAttr g n = .ok (v, s')
  /-- A dict that was not there is a new one with this entry only. -/
  made : Attribute.ofName? n = none → (s.function f).dict = none →
    ∃ r, s.dicts.size ≤ r.index ∧ s'.getAttr f Attribute.dict.label = .ok (.dict r, s') ∧
      (s'.dict r).entries = [(n, v)]
  lists : s'.lists = s.lists
  cells : s'.cells = s.cells
  functions : ∀ g, g ≠ f → s'.functions.get? g = s.functions.get? g
  /-- A dict that there was has other entries only if it is the dict of the function and the name is
  free-form. -/
  dicts : ∀ r, s.dicts.isAlive r = true → s'.dicts.get? r =
    if Attribute.ofName? n = none ∧ (s.function f).dict = some r then some ((s.dict r).insert n v)
    else s.dicts.get? r
  /-- So it is with the dict of some globals. -/
  globals : ∀ g, s.functions.isAlive g = true →
    s'.dict (s.function g).globals ≠ s.dict (s.function g).globals →
      Attribute.ofName? n = none ∧ (s.function f).dict = some (s.function g).globals

namespace Written

theorem getAttr_fixed (h : Written s f n v s') (hf : s.functions.isAlive f = true) {a : Attribute}
    (hn : n = a.label) : s'.getAttr f n = .ok (s.readBack a v s') := by
  cases h with
  | @field b x hb hx =>
    obtain rfl : b = a := Attribute.label_injective (hb.symm.trans hn)
    have hfield := field_putField_self (s := s.takeLabels (Change.set b v).labels) hf x
    rw [hn, getAttr_label, hfield, showField_of_outcome hx]
  | entry hfree | first hfree => exact absurd hfree (Attribute.ofName?_ne_none hn)

theorem getAttr_replaced (h : Written s f n v s') (hf : s.functions.isAlive f = true)
    (hn : n = Attribute.dict.label) : ∃ r, v = .dict r ∧
      ∀ m, Attribute.ofName? m = none → s'.getAttr f m =
        match (s.dict r).get? m with
        | some w => .ok (w, s')
        | none => .error (.noAttribute m) := by
  cases h with
  | @field b x hb hx =>
    obtain rfl : b = .dict := Attribute.label_injective (hb.symm.trans hn)
    cases v with
    | dict r =>
      -- it was accepted as it is, and is the field now
      cases hx
      refine ⟨r, rfl, fun m hm => ?_⟩
      have hdict : (((s.takeLabels 0).putField f .dict (some r)).function f).dict = some r :=
        field_putField_self (s := s.takeLabels 0) (a := .dict) hf (some r)
      change ((s.takeLabels 0).putField f .dict (some r)).getAttr f m = _
      rw [getAttr_free hm, freeAttr?, hdict]
      rfl
    | _ => cases hx
  | entry hfree | first hfree => exact absurd hfree (Attribute.ofName?_ne_none hn)

theorem getAttr_shared (h : Written s f n v s') (hs : s.Sound) (hf : s.functions.isAlive f = true)
    (hn : Attribute.ofName? n = none) (hg : (s'.function g).dict = (s'.function f).dict) :
    s'.getAttr g n = .ok (v, s') := by
  -- the reading goes by way of the dict, so it is enough that the dicts are one
  have hfound : s'.freeAttr? g n = some v := by
    rw [freeAttr?, hg]
    exact h.freeAttr?_self hs hf hn
  rw [getAttr_free hn, hfound]

theorem getAttr_made (h : Written s f n v s') (hf : s.functions.isAlive f = true)
    (hn : Attribute.ofName? n = none) (hnone : (s.function f).dict = none) :
    ∃ r, s.dicts.size ≤ r.index ∧ s'.getAttr f Attribute.dict.label = .ok (.dict r, s') ∧
      (s'.dict r).entries = [(n, v)] := by
  cases h with
  | field ha => exact absurd hn (Attribute.ofName?_ne_none ha)
  | entry _ hr =>
    rw [hnone] at hr
    cases hr
  | first =>
    refine ⟨(s.withFirst f n v).1, Nat.le_refl _, ?_, ?_⟩
    · rw [getAttr_label, FunctionObject.field, function_withFirst hf]
      rfl
    · rw [dict_withFirst]
      rfl

/-- A dict with other entries than before is the dict of the function. -/
theorem of_dict_ne (h : Written s f n v s') (hr : s.dicts.isAlive r = true)
    (hne : s'.dict r ≠ s.dict r) : Attribute.ofName? n = none ∧ (s.function f).dict = some r := by
  by_contra hother
  refine hne ?_
  rw [dict, Heap.get, h.get?_dict hr, if_neg hother]
  rfl

end Written

/-- **The effect of a write.** In a store without dangling handles, as every store is that a program
comes to, a write that is accepted changes what it is meant to change and nothing else, however
functions share their dicts. -/
theorem setAttr_effect (hs : s.Sound) (hf : s.functions.isAlive f = true)
    (h : s.setAttr f n v = .ok s') : s.WriteEffect f n v s' := by
  have hw : Written s f n v s' := written_of_setAttr h
  exact {
    others := fun g m hgm => hw.alike hs hf hgm _
    fixed := fun a hn => hw.getAttr_fixed hf hn
    replaced := hw.getAttr_replaced hf
    shared := fun hn g hg => hw.getAttr_shared hs hf hn hg
    made := hw.getAttr_made hf
    lists := hw.lists_eq
    cells := hw.cells_eq
    functions := fun g hg => hw.get?_function_of_ne hg
    dicts := fun r hr => hw.get?_dict hr
    globals := fun g hg hne => by
      have hmem : .dict (s.function g).globals ∈ (s.function g).contents :=
        FunctionObject.mem_contents.2 (.inr (.inl rfl))
      exact hw.of_dict_ne (hs.isAlive_of_mem hg hmem) hne }

/-! ### A dict with three uses -/

section Shared

/-- The fields of a function of which the globals are also the dict of its attributes. -/
def sharedFields : FunctionObject :=
  { FunctionObject.make ⟨⟨0⟩, "f", [], []⟩ ⟨0⟩ .empty "" with dict := some ⟨0⟩ }

/-- A dict, and two functions with these fields. -/
def sharedStore : Store :=
  (((Store.empty.newDict .empty).2.newFunction sharedFields).2.newFunction sharedFields).2

theorem sound_sharedStore : sharedStore.Sound := by
  have hempty : Store.empty.Sound := by
    intro o v hv
    cases o <;> cases hv
  -- all that the functions hold is the one dict
  have hfields {s : Store} (hdict : (Value.dict ⟨0⟩).Live s) :
      ∀ v ∈ sharedFields.contents, v.Live s := by
    have hcontents : sharedFields.contents =
        [.code ⟨⟨0⟩, "f", [], []⟩, .dict ⟨0⟩, .none, .none, .none, .none, .dict ⟨0⟩, .none] := rfl
    have hnone : Value.none.Live s := Value.live_of_handles_eq_nil rfl
    intro v hv
    rw [hcontents] at hv
    simp only [List.mem_cons, List.not_mem_nil, or_false] at hv
    -- the code has no handles; the rest is the dict, or nothing
    rcases hv with rfl | rfl | rfl | rfl | rfl | rfl | rfl | rfl
    · exact Value.live_of_handles_eq_nil rfl
    all_goals first | exact hdict | exact hnone
  have hdict := hempty.grown_newDict (t := .empty) (List.forall_mem_nil _)
  have hfirst := hdict.sound.grown_newFunction (hfields (hdict.live _ List.mem_cons_self))
  exact (hfirst.sound.grown_newFunction (hfields (Value.live_dict_iff.2 rfl))).sound

/-- What one of them is given the other one has, and so have their globals; and it still has its
name. -/
theorem setAttr_effect_shared :
    ∃ s', sharedStore.setAttr ⟨0⟩ "cache" (.int 3) = .ok s' ∧
      s'.getAttr ⟨1⟩ "cache" = .ok (.int 3, s') ∧ (s'.dict ⟨0⟩).get? "cache" = some (.int 3) ∧
      Alike (fun _ _ => False) sharedStore s' (sharedStore.getAttr ⟨1⟩ "__name__")
        (s'.getAttr ⟨1⟩ "__name__") := by
  -- the entry goes into the dict that the first function has, which is also the globals of both
  let s' := sharedStore.setDict ⟨0⟩ ((sharedStore.dict ⟨0⟩).insert "cache" (.int 3))
  have hfree : Attribute.ofName? "cache" = none := by decide +kernel
  have hset : sharedStore.setAttr ⟨0⟩ "cache" (.int 3) = .ok s' := by
    rw [setAttr, hfree]
    rfl
  have heffect : sharedStore.WriteEffect ⟨0⟩ "cache" (.int 3) s' :=
    setAttr_effect sound_sharedStore rfl hset
  refine ⟨s', hset, heffect.shared hfree ⟨1⟩ rfl, ?_, heffect.others ⟨1⟩ "__name__" ?_⟩
  · rw [dict, Heap.get, heffect.dicts ⟨0⟩ rfl, if_pos ⟨hfree, rfl⟩]
    exact Table.get?_insert_self ..
  · -- it is another function and another name
    intro hw
    generalize hname : "__name__" = m at hw
    cases hw with
    | shared => exact absurd hname (by decide)

end Shared

end Store

end Callable
