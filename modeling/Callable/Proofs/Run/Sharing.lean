import Callable.Proofs.Function.Arity
import Callable.Proofs.Run.Delegation
import Callable.Proofs.Run.Location

/-!
# Snapshots and aliases

What is assigned to a function is kept until the next assignment, but the function need not be the
only one who has it. A list among the defaults is copied, and nobody has the copy but those to whom
the function hands it out. A tuple, a dict and the cells of a closure are kept as they are, so the
function shares them with everyone who has them: a dict that one function has as its `__dict__` may
be the defaults of another one and a variable of the code that runs.

So there are two things to be said of a run after an assignment. The field stays as it is until it
is written again, whatever else is written. And what is in a dict or in a cell is the same for all
who have it: it is what was written last, whoever did it.

* `Store.Puts`, `Store.Captures`, `Store.Builds` — how an attribute gets its value, a function its
  cells, and its module and documentation.
* `Store.Enters` — how a dict gets its entries, through one holder or another.
* `Moment.Shows`, `Moment.ShowsEntries` — how they are read.
* `Trail.exists_spares` — a run goes on up to the next write.
* `Store.Lasting` — what holds until then, `Course.snapshots_fixed_aliases_live` — the result.
-/

namespace Callable

namespace Value

/-- Only a tuple that is there is shown as a tuple. -/
theorem ofTuple?_eq_tuple_iff {x : Option Tuple} {t : Tuple} :
    ofTuple? x = .tuple t ↔ x = some t := by
  cases x <;> simp [ofTuple?]

theorem ofDict?_eq_dict_iff {x : Option DictRef} {r : DictRef} :
    ofDict? x = .dict r ↔ x = some r := by
  cases x <;> simp [ofDict?]

end Value

/-! ### How values are put into fields -/

namespace Store

variable {s s' : Store} {f g : FunctionRef} {a : Attribute} {v : Value} {r : DictRef}
  {t : Table Value}

/-- **A value is put into an attribute**: under its name, by its descriptor, or by the setter that
the program around has for it. -/
inductive Puts (s : Store) (f : FunctionRef) : Attribute → Value → Store → Prop
  | name {a : Attribute} {v : Value} {s' : Store} (h : s.setAttr f a.label v = .ok s') :
      Puts s f a v s'
  | descriptor {a : Attribute} {v : Value} {s' : Store} (h : s.setAttribute f a v = .ok s') :
      Puts s f a v s'
  | defaults (t : Tuple) : Puts s f .defaults (.tuple t) (s.setDefaults f (some t))
  | kwDefaults (r : DictRef) : Puts s f .kwDefaults (.dict r) (s.setKwDefaults f (some r))
  | annotations (r : DictRef) : Puts s f .annotations (.dict r) (s.setAnnotations f (some r))

/-- **A function captures cells** when it is made with them, or gets them as its closure. -/
inductive Captures (s : Store) : FunctionRef → List CellRef → Store → Prop
  | make (code : Code) (globals : DictRef) (qualname : String) (cells : List CellRef) :
      Captures s (s.makeClosure code globals qualname cells).1 cells
        (s.makeClosure code globals qualname cells).2
  | set {f : FunctionRef} {closure : Option (List CellRef)} {s' : Store}
      (h : s.setClosure f closure = .ok s') : Captures s f (closure.getD []) s'

/-- A function is built of code and globals, with or without a closure. -/
inductive Builds (s : Store) (code : Code) (globals : DictRef) : FunctionRef → Store → Prop
  | function (qualname : String) :
      Builds s code globals (s.makeFunction code globals qualname).1
        (s.makeFunction code globals qualname).2
  | closure (qualname : String) (cells : List CellRef) :
      Builds s code globals (s.makeClosure code globals qualname cells).1
        (s.makeClosure code globals qualname cells).2

/-- **A dict gets entries**: directly, from whoever has it, or because an attribute is set or deleted
on a function of which it is the `__dict__`. -/
inductive Enters (s : Store) (r : DictRef) : Table Value → Store → Prop
  | direct (t : Table Value) : Enters s r t (s.setDict r t)
  | set {g : FunctionRef} {n : String} {v : Value} {s' : Store} (hn : Attribute.ofName? n = none)
      (hr : (s.function g).dict = some r) (h : s.setAttr g n v = .ok s') :
      Enters s r ((s.dict r).insert n v) s'
  | delete {g : FunctionRef} {n : String} {s' : Store} (hn : Attribute.ofName? n = none)
      (hr : (s.function g).dict = some r) (h : s.delAttr g n = .ok s') :
      Enters s r ((s.dict r).erase n) s'

/-- After a field was replaced it is there, on a function that is alive as it was. -/
theorem isAlive_and_field_putField (hf : s.functions.isAlive f = true) (x : a.Field) :
    (s.putField f a x).functions.isAlive f = true ∧ ((s.putField f a x).function f).field a = x := by
  constructor
  · rw [isAlive_putField]
    exact hf
  · exact field_putField_self hf x

/-- **What is put into an attribute** is what is shown of its field from then on. -/
theorem Puts.exists_field (h : s.Puts f a v s') (hf : s.functions.isAlive f = true) :
    ∃ x : a.Field, s'.functions.isAlive f = true ∧ (s'.function f).field a = x ∧
      ∀ s'' : Store, s''.showField a x = s.readBack a v s'' := by
  -- under the name, a put is a change of the attribute, of which it is known what it stores
  have named {a : Attribute} {v : Value} {s' : Store} (h : s.setAttr f a.label v = .ok s') :
      ∃ x : a.Field, s'.functions.isAlive f = true ∧ (s'.function f).field a = x ∧
        ∀ s'' : Store, s''.showField a x = s.readBack a v s'' := by
    obtain ⟨x, hx, rfl⟩ := Change.exists_of_apply (c := .set a v) h
    obtain ⟨halive, hfield⟩ :=
      isAlive_and_field_putField (s := s.takeLabels (Change.set a v).labels) hf x
    exact ⟨x, halive, hfield, showField_of_outcome hx⟩
  cases h with
  | name h => exact named h
  | descriptor h =>
    -- the attribute of its name is the attribute itself
    refine named ?_
    rw [setAttr, Attribute.ofName?_label]
    exact h
  | defaults t =>
    -- the setters of the program around write the field without a check
    obtain ⟨halive, hfield⟩ := isAlive_and_field_putField (a := .defaults) hf (some t)
    exact ⟨some t, halive, hfield, fun _ => rfl⟩
  | kwDefaults r =>
    obtain ⟨halive, hfield⟩ := isAlive_and_field_putField (a := .kwDefaults) hf (some r)
    exact ⟨some r, halive, hfield, fun _ => rfl⟩
  | annotations r =>
    obtain ⟨halive, hfield⟩ := isAlive_and_field_putField (a := .annotations) hf (some r)
    exact ⟨some r, halive, hfield, fun _ => rfl⟩

/-- The fields of a new function are made with it. -/
theorem made_newFunction (s : Store) (fn : FunctionObject) :
    (s.newFunction fn).2.Made (.field (s.newFunction fn).1 a) := by
  -- it has the last number of the heap after
  change s.functions.size < (s.functions.alloc fn).2.size
  rw [Heap.size_alloc]
  exact Nat.lt_succ_self _

/-- A function that captures cells has them for its closure. -/
theorem Captures.closure_eq {cells : List CellRef} (h : s.Captures f cells s')
    (hf : s'.functions.isAlive f = true) :
    (s'.function f).closure = FunctionObject.closureOf cells := by
  cases h with
  | make code globals qualname =>
    rw [makeClosure, function_newFunction]
  | @set _ closure _ h =>
    obtain rfl := eq_putField_of_setClosure h
    -- a function that is alive after its field is put was alive before
    have hlive : s.functions.isAlive f = true := (isAlive_putField ..).symm.trans hf
    exact field_putField_self (a := .closure) hlive _

/-- The module and the documentation of a new function. -/
theorem Builds.fields_eq {code : Code} {globals : DictRef} (h : s.Builds code globals f s') :
    (s'.function f).doc = code.docString ∧
      (s'.function f).moduleName = ((s.dict globals).get? moduleNameKey).getD .none := by
  cases h with
  | function qualname =>
    rw [makeFunction, function_newFunction]
    exact ⟨rfl, rfl⟩
  | closure qualname cells =>
    rw [makeClosure, function_newFunction]
    exact ⟨rfl, rfl⟩

theorem Builds.made {code : Code} {globals : DictRef} (h : s.Builds code globals f s') :
    s'.Made (.field f a) := by
  cases h with
  | function | closure => exact made_newFunction s _

/-- A dict that gets entries has them then. -/
theorem Enters.get?_eq (h : s.Enters r t s') (hr : s.dicts.isAlive r = true) :
    s'.dicts.get? r = some t := by
  -- all three come down to one write of the whole table
  have written (t : Table Value) : (s.setDict r t).dicts.get? r = some t := by
    change (s.dicts.set r t).get? r = some t
    rw [Heap.get?_set, if_pos ⟨rfl, hr⟩]
  cases h with
  | direct => exact written t
  | @set g n v _ hn hdict h =>
    rw [setAttr, hn] at h
    simp only [hdict] at h
    cases h
    exact written _
  | @delete g n _ hn hdict h =>
    -- the deletion was accepted, so there is a dict, and it is this one
    obtain ⟨r', hr', rfl⟩ := exists_dict_of_delAttr hn h
    cases hdict.symm.trans hr'
    exact written _

/-! ### What is kept while a location is spared -/

theorem at?_field (hf : s.functions.isAlive f = true) (a : Attribute) :
    s.at? (.field f a) = some ((s.function f).field a) := by
  rw [at?, Heap.get?_eq_some_get hf]
  rfl

end Store

namespace Spares

variable {s : Store} {ms : List Moment} {m : Moment} {f : FunctionRef} {a : Attribute}

/-- **A field stays as it is** until it is written, as long as the function lives. -/
theorem field_eq (h : Spares (.field f a) s ms) (hmade : s.Made (.field f a)) (hm : m ∈ ms)
    (hf : m.store.functions.isAlive f = true) :
    (m.store.function f).field a = (s.function f).field a := by
  -- read backwards: what the field has at the moment it has had since `s`
  have hback : s.at? (.field f a) = some ((m.store.function f).field a) :=
    (h.keeps m hm hmade).2 (Store.at?_field hf a)
  obtain ⟨fn, hfn, hfield⟩ := Option.map_eq_some_iff.1 hback
  have hfunction : s.function f = fn := by
    rw [Store.function, Heap.get, hfn]
    rfl
  rw [hfunction]
  exact hfield.symm

/-- **The entries of a dict stay as they are** until it is written to. -/
theorem dict_eq {r : DictRef} {t : Table Value} (h : Spares (.entries r) s ms)
    (ht : s.dicts.get? r = some t) (hm : m ∈ ms) (hr : m.store.dicts.isAlive r = true) :
    m.store.dict r = t := by
  have hmade : s.Made (.entries r) := Store.made_of_at? ht
  have hback : s.dicts.get? r = some (m.store.dict r) :=
    (h.keeps m hm hmade).2 (Heap.get?_eq_some_get hr)
  exact Option.some.inj (hback.symm.trans ht)

/-- **What is in a cell stays there** until it is written to. -/
theorem cell_eq {r : CellRef} {v : Option Value} (h : Spares (.filling r) s ms)
    (hv : s.cells.get? r = some v) (hm : m ∈ ms) (hr : m.store.cells.isAlive r = true) :
    m.store.cell r = v := by
  have hmade : s.Made (.filling r) := Store.made_of_at? hv
  have hback : s.cells.get? r = some (m.store.cell r) :=
    (h.keeps m hm hmade).2 (Heap.get?_eq_some_get hr)
  exact Option.some.inj (hback.symm.trans hv)

end Spares

/-- **Up to the next write.** A run spares a location to its end, or up to an operation that writes to
the location. -/
theorem Trail.exists_spares {s s' : Store} {ms : List Moment} (h : Trail s ms s') (p : Location) :
    ∃ during later, ms = during ++ later ∧ Spares p s during ∧
      ∀ m ∈ later.head?, (s.after during).Writes p m.store := by
  -- on the trail; what is spared by the rest is spared by all, unless this very step writes to it
  induction h with
  | nil s => exact ⟨[], [], rfl, .nil s, nofun⟩
  | @cons s s' m ms hstep hhanded rest ih =>
    obtain ⟨during, later, rfl, hspares, hlater⟩ := ih
    rcases Store.step_iff.1 hstep with hidle | ⟨q, hwrites⟩
    · exact ⟨m :: during, later, rfl, .idle hidle hspares, hlater⟩
    · by_cases hq : p = q
      · -- here it is written to
        subst hq
        refine ⟨[], m :: (during ++ later), rfl, .nil s, fun m' hm' => ?_⟩
        cases Option.some.inj hm'
        exact hwrites
      · exact ⟨m :: during, later, rfl, .writes hq hwrites hspares, hlater⟩

/-! ### What is read at a moment -/

/-- **A moment shows a value** for an attribute: it is read under the name and by the descriptor, and
nothing is made for that. -/
structure Moment.Shows (m : Moment) (f : FunctionRef) (a : Attribute) (v : Value) : Prop where
  name : m.store.getAttr f a.label = .ok (v, m.store)
  descriptor : m.store.getAttribute f a = (v, m.store)

/-- **A moment shows the entries** of a dict: to all who have it, and as the attributes of every
function of which it is the `__dict__`. -/
structure Moment.ShowsEntries (m : Moment) (r : DictRef) (t : Table Value) : Prop where
  direct : m.store.dict r = t
  attributes : ∀ {g n}, (m.store.function g).dict = some r → Attribute.ofName? n = none →
    m.store.getAttr g n = match t.get? n with
      | some v => .ok (v, m.store)
      | none => .error (.noAttribute n)

namespace Moment

variable {m : Moment} {f : FunctionRef} {a : Attribute} {v : Value}

theorem shows_of_field {x : a.Field} (hfield : (m.store.function f).field a = x)
    (hshow : m.store.showField a x = (v, m.store)) : m.Shows f a v where
  name := by rw [Store.getAttr_label, hfield, hshow]
  descriptor := by rw [Store.getAttribute_eq, hfield, hshow]

theorem showsEntries_of_eq {r : DictRef} {t : Table Value} (h : m.store.dict r = t) :
    m.ShowsEntries r t where
  direct := h
  attributes {g n} hdict hn := by
    -- a free attribute is looked up in the dict, which has these entries
    have hread : m.store.freeAttr? g n = t.get? n := by
      rw [Store.freeAttr?, hdict, Option.bind_some, h]
    have hget := Store.getAttr_free hn m.store g
    rw [hread] at hget
    exact hget

end Moment

/-! ### The result -/

/-- **What is fixed and what is shared.** An operation has led from the store `s₀` to `s`, and there
are some moments after it in which the location that it has written to is spared. -/
structure Store.Lasting (s₀ s : Store) (during : List Moment) : Prop where
  /-- A list was copied: there is one new tuple of its items, and this is what is read and what is
  handed over. -/
  copied : ∀ {f : FunctionRef} {l : ListRef}, s₀.functions.isAlive f = true →
    s₀.Puts f .defaults (.list l) s → Spares (.field f .defaults) s during →
    ∃ t : Tuple, t.items = s₀.list l ∧ t.label = ⟨s₀.labels⟩ ∧
      ∀ m ∈ during, m.store.functions.isAlive f = true →
        m.Shows f .defaults (.tuple t) ∧ ∀ q, m.handed = some (f, q) → q.defaults = some t
  /-- A tuple is kept as the same object. -/
  tuple : ∀ {f : FunctionRef} {t : Tuple}, s₀.functions.isAlive f = true →
    s₀.Puts f .defaults (.tuple t) s → Spares (.field f .defaults) s during →
    ∀ m ∈ during, m.store.functions.isAlive f = true →
      m.Shows f .defaults (.tuple t) ∧ ∀ q, m.handed = some (f, q) → q.defaults = some t
  /-- A dict is kept as the same object by each of the attributes that take dicts. -/
  dict : ∀ {f : FunctionRef} {a : Attribute} {r : DictRef}, a.accepts = .dict →
    s₀.functions.isAlive f = true → s₀.Puts f a (.dict r) s → Spares (.field f a) s during →
    ∀ m ∈ during, m.store.functions.isAlive f = true →
      m.Shows f a (.dict r) ∧
        ∀ q, m.handed = some (f, q) → a = .kwDefaults → q.kwDefaults = some r
  /-- Cells are kept as the same cells in the same order. Reading makes a tuple of them. -/
  cells : ∀ {f : FunctionRef} {cells : List CellRef}, s.functions.isAlive f = true →
    s₀.Captures f cells s → Spares (.field f .closure) s during →
    ∀ m ∈ during, m.store.functions.isAlive f = true →
      m.store.getAttr f Attribute.closure.label =
          .ok (m.store.showField .closure (FunctionObject.closureOf cells)) ∧
        ∀ q, m.handed = some (f, q) → q.closure = FunctionObject.closureOf cells
  /-- The documentation is an object of the code, and the module is what the globals had at the
  time. -/
  built : ∀ {f : FunctionRef} {code : Code} {globals : DictRef}, s₀.Builds code globals f s →
    (Spares (.field f .doc) s during → ∀ m ∈ during, m.store.functions.isAlive f = true →
      m.Shows f .doc code.docString) ∧
    (Spares (.field f .moduleName) s during →
      ∀ m ∈ during, m.store.functions.isAlive f = true →
        m.Shows f .moduleName (((s₀.dict globals).get? moduleNameKey).getD .none))
  /-- What one holder of a dict has written to it, all of them read. -/
  entries : ∀ {r : DictRef} {t : Table Value}, s₀.dicts.isAlive r = true → s₀.Enters r t s →
    Spares (.entries r) s during →
    ∀ m ∈ during, m.store.dicts.isAlive r = true → m.ShowsEntries r t
  /-- And what one holder of a cell has stored in it. -/
  filling : ∀ {r : CellRef} {v : Option Value}, s₀.cells.isAlive r = true → s = s₀.setCell r v →
    Spares (.filling r) s during →
    ∀ m ∈ during, m.store.cells.isAlive r = true → m.store.cell r = v

/-- What is read of an attribute until it is written again, where reading it makes no object. -/
theorem Store.Puts.shows {s₀ s : Store} {during : List Moment} {f : FunctionRef} {a : Attribute}
    {v u : Value} (h : s₀.Puts f a v s) (hf : s₀.functions.isAlive f = true)
    (hspares : Spares (.field f a) s during) (hread : ∀ s' : Store, s₀.readBack a v s' = (u, s'))
    {m : Moment} (hm : m ∈ during) (hmf : m.store.functions.isAlive f = true) :
    m.Shows f a u ∧ m.store.showField a ((m.store.function f).field a) = (u, m.store) := by
  obtain ⟨x, hlive, hx, hshow⟩ := h.exists_field hf
  have hmade : s.Made (.field f a) := Heap.index_lt_of_isAlive hlive
  have hfield : (m.store.function f).field a = x := (hspares.field_eq hmade hm hmf).trans hx
  have hu : m.store.showField a x = (u, m.store) := (hshow m.store).trans (hread m.store)
  refine ⟨Moment.shows_of_field hfield hu, ?_⟩
  rw [hfield]
  exact hu

/-- The rest of a trail is a trail. -/
theorem Trail.drop {s s' : Store} {before after : List Moment} (h : Trail s (before ++ after) s') :
    Trail (s.after before) after s' := by
  -- `s` is general, as the rest begins in the store of the last moment that is dropped
  induction before generalizing s with
  | nil => exact h
  | cons m before ih =>
    cases h with
    | cons _ _ rest => exact ih rest

/-- What a trail hands over for a function is what its fields are at the moment. -/
theorem Trail.lasting {s s' s₀ : Store} {during later : List Moment}
    (h : Trail s (during ++ later) s') : s₀.Lasting s during := by
  -- the parts of a request are the fields of the function
  have hpart {m : Moment} {f : FunctionRef} {q : Request} (hm : m ∈ during)
      (hq : m.handed = some (f, q)) : q.defaults = (m.store.function f).defaults ∧
        q.kwDefaults = (m.store.function f).kwDefaults ∧
        q.closure = (m.store.function f).closure := by
    obtain ⟨locals, args, kwargs, rfl⟩ := h.exists_request (List.mem_append_left later hm) hq
    exact ⟨rfl, rfl, rfl⟩
  -- what is read of the defaults and what is handed over come from one field
  have htuple {f : FunctionRef} {v : Value} {t : Tuple} (hf : s₀.functions.isAlive f = true)
      (hputs : s₀.Puts f .defaults v s) (hspares : Spares (.field f .defaults) s during)
      (hread : ∀ s' : Store, s₀.readBack .defaults v s' = (.tuple t, s')) :
      ∀ m ∈ during, m.store.functions.isAlive f = true →
        m.Shows f .defaults (.tuple t) ∧ ∀ q, m.handed = some (f, q) → q.defaults = some t := by
    intro m hm hmf
    obtain ⟨hshows, hfield⟩ := hputs.shows hf hspares hread hm hmf
    refine ⟨hshows, fun q hq => ?_⟩
    have hvalue : Value.ofTuple? (m.store.function f).defaults = .tuple t :=
      congrArg Prod.fst hfield
    exact (hpart hm hq).1.trans (Value.ofTuple?_eq_tuple_iff.1 hvalue)
  exact {
    copied := by
      intro f l hf hputs hspares
      -- the copy has the label that was free when the list was assigned
      exact ⟨⟨⟨s₀.labels⟩, s₀.list l⟩, rfl, rfl, htuple hf hputs hspares fun _ => rfl⟩
    tuple := by
      intro f t hf hputs hspares
      exact htuple hf hputs hspares fun _ => rfl
    dict := by
      intro f a r ha hf hputs hspares m hm hmf
      -- for all three attributes a dict is read back as it is
      have hread (s' : Store) : s₀.readBack a (.dict r) s' = (.dict r, s') := by
        cases a <;> rfl
      obtain ⟨hshows, hfield⟩ := hputs.shows hf hspares hread hm hmf
      refine ⟨hshows, fun q hq hkw => ?_⟩
      subst hkw
      have hvalue : Value.ofDict? (m.store.function f).kwDefaults = .dict r :=
        congrArg Prod.fst hfield
      exact (hpart hm hq).2.1.trans (Value.ofDict?_eq_dict_iff.1 hvalue)
    cells := by
      intro f cells hf hcaptures hspares m hm hmf
      have hmade : s.Made (.field f .closure) := Heap.index_lt_of_isAlive hf
      -- the field still has the cells; what is read of it is a tuple made anew
      have hfield : (m.store.function f).closure = FunctionObject.closureOf cells :=
        (hspares.field_eq hmade hm hmf).trans (hcaptures.closure_eq hf)
      refine ⟨?_, fun q hq => (hpart hm hq).2.2.trans hfield⟩
      rw [Store.getAttr_label]
      exact congrArg (fun x => Except.ok (m.store.showField .closure x)) hfield
    built := by
      intro f code globals hbuilds
      obtain ⟨hdoc, hmodule⟩ := hbuilds.fields_eq
      constructor
      · intro hspares m hm hmf
        exact Moment.shows_of_field ((hspares.field_eq hbuilds.made hm hmf).trans hdoc) rfl
      · intro hspares m hm hmf
        exact Moment.shows_of_field ((hspares.field_eq hbuilds.made hm hmf).trans hmodule) rfl
    entries := by
      intro r t hr henters hspares m hm hmr
      exact Moment.showsEntries_of_eq (hspares.dict_eq (henters.get?_eq hr) hm hmr)
    filling := by
      intro r v hr hset hspares m hm hmr
      have hv : s.cells.get? r = some v := by
        rw [hset]
        change (s₀.cells.set r v).get? r = some v
        rw [Heap.get?_set, if_pos ⟨rfl, hr⟩]
      exact hspares.cell_eq hv hm hmr }

/-- **Snapshots stay fixed and aliases stay live.** From any moment of a run on and for any location
there is a part of the run up to the next write to the location, or to the end. Let it be the store
after an operation; then as long as the location that it has written to is spared, a list among the
defaults is a copy that was made then, and tuples, dicts and cells are the objects that were given;
so are the documentation and the module of a function that was made. Of a dict and of a cell all
holders read what was written last by any of them. -/
theorem Course.snapshots_fixed_aliases_live {σ ω : Type} {obs : Observer ω} {w w' : World σ ω}
    {ds : List Deed} {before after : List Moment} (h : Course .lawful obs w ds w')
    (hms : Deed.momentsAll ds = before ++ after) :
    (∀ p, ∃ during later, after = during ++ later ∧ Spares p (w.store.after before) during ∧
      ∀ m ∈ later.head?, ((w.store.after before).after during).Writes p m.store) ∧
    ∀ during later, after = during ++ later →
      ∀ s₀ : Store, s₀.Lasting (w.store.after before) during := by
  have htrail : Trail (w.store.after before) after w'.store := (hms ▸ h.trail).drop
  refine ⟨htrail.exists_spares, ?_⟩
  rintro during later rfl s₀
  exact htrail.lasting

/-! ### A list that is emptied, and a dict with two holders -/

section Holders

/-- Two functions, a list with an item, and a dict. The dict is the `__dict__` of the second function
and the defaults of keyword parameters of the first one. -/
def holdersStore : Store :=
  let made := (((Store.empty.makeFunction firstCode ⟨0⟩ "").2.makeFunction secondCode ⟨0⟩ "").2)
  let held := ((made.newDict .empty).2.newList [.int 1]).2
  (held.setKwDefaults ⟨0⟩ (some ⟨0⟩)).putField ⟨1⟩ .dict (some (⟨0⟩ : DictRef))

/-- The list was assigned to the defaults of the first function. -/
def assignedStore : Store :=
  (holdersStore.takeLabels 1).putField ⟨0⟩ .defaults (some (⟨⟨0⟩, [.int 1]⟩ : Tuple))

/-- Whatever it is asked to run, it empties the list. -/
def emptying : Evaluator Unit Unit := fun _ _ w =>
  (.ok .none, { w with store := w.store.setList ⟨0⟩ [] })

/-- The list gets another item and the second function an attribute, and then the first function is
called, which empties the list. The request has the one item that was there when the list was
assigned, and so has what is read in the end; and the attribute is in the dict that is handed
over. -/
theorem Course.snapshots_fixed_aliases_live_holders :
    ∃ ds w' m₁ m₂ m₃ m₄ q, ∃ t : Tuple,
      holdersStore.setAttr ⟨0⟩ "__defaults__" (.list ⟨0⟩) = .ok assignedStore ∧
      Course .lawful Observer.silent (⟨assignedStore, (), (), ""⟩ : World Unit Unit) ds w' ∧
      Deed.momentsAll ds = [m₁, m₂, m₃, m₄] ∧ m₃.handed = some (⟨0⟩, q) ∧
      t.items = [.int 1] ∧ q.defaults = some t ∧ q.kwDefaults = some ⟨0⟩ ∧
      m₃.ShowsEntries ⟨0⟩ (Table.empty.insert "x" (.int 5)) ∧
      m₄.store.list ⟨0⟩ = [] ∧ m₄.Shows ⟨0⟩ .defaults (.tuple t) := by
  let w : World Unit Unit := ⟨assignedStore, (), (), ""⟩
  let pushed := assignedStore.setList ⟨0⟩ [.int 1, .int 2]
  let entered := pushed.setDict ⟨0⟩ (Table.empty.insert "x" (.int 5))
  -- the runs below begin after the assignment, which is said to be one here
  have hassign : holdersStore.setAttr ⟨0⟩ Attribute.defaults.label (.list ⟨0⟩) =
      .ok assignedStore := rfl
  have hset : pushed.setAttr ⟨1⟩ "x" (.int 5) = .ok entered := rfl
  have hpush : Conduct.lawful.own w { w with store := pushed } := .setList _ _ _
  have henter : Conduct.lawful.own { w with store := pushed } { w with store := entered } :=
    .setAttr hset
  have hgives : Conduct.lawful.gives (σ := Unit) Observer.silent true (.silent : Observer Unit) :=
    trivial
  -- the evaluation of the call begins with a new dict and empties the list
  let called : World Unit Unit := World.entering { w with store := entered } ⟨0⟩ .silent
  have hempty : Conduct.lawful.own called
      { called with store := called.store.setList ⟨0⟩ [] } := .setList _ _ _
  have hbody : Course .lawful Observer.silent called _
      (FunctionRef.evaluation ⟨0⟩ emptying .silent [] .empty { w with store := entered }).2 :=
    .own hempty (.done _ _)
  have hcourse : Course .lawful Observer.silent w _ _ :=
    .own hpush (.own henter (.call hgives hbody (.done _ _)))
  -- after the assignment nothing is written to the defaults
  have hfield : ∀ q : Location, q = .items ⟨0⟩ ∨ q = .entries ⟨0⟩ → .field ⟨0⟩ .defaults ≠ q := by
    rintro q (rfl | rfl) <;> exact nofun
  have hfree : Attribute.ofName? "x" = none := by decide +kernel
  have hdict : (pushed.function ⟨1⟩).dict = some ⟨0⟩ := rfl
  have hlist := (Course.snapshots_fixed_aliases_live hcourse (List.nil_append _).symm).2 _ []
    (List.append_nil _).symm holdersStore
  obtain ⟨t, hitems, -, hread⟩ := hlist.copied rfl (.name hassign)
    (.writes (hfield _ (.inl rfl)) (.setList _ _)
      (.writes (hfield _ (.inr rfl)) (.setEntry hfree hdict hset)
        (.idle (.newDict _) (.writes (hfield _ (.inl rfl)) (.setList _ _) (.nil _)))))
  -- and after the attribute was set nothing is written to the dict
  have hshared := (Course.snapshots_fixed_aliases_live hcourse
    (List.take_append_drop 2 _).symm).2 _ [] (List.append_nil _).symm pushed
  have hother : Location.entries ⟨0⟩ ≠ .items ⟨0⟩ := nofun
  have hentries := hshared.entries rfl (.set hfree hdict hset)
    (.idle (.newDict _) (.writes hother (.setList _ _) (.nil _)))
  refine ⟨_, _, _, _, _, _, _, t, hassign, hcourse, rfl, rfl, hitems, ?_, rfl, ?_, rfl, ?_⟩
  · exact (hread _ (.tail _ (.tail _ (.head _))) rfl).2 _ rfl
  · exact hentries _ (.head _) rfl
  · exact (hread _ (.tail _ (.tail _ (.tail _ (.head _)))) rfl).1

end Holders

end Callable
