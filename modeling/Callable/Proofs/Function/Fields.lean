import Callable.Proofs.Run.Operation

/-!
# The fixed attributes as fields

Every fixed attribute has a field of its own in the function, and an operation on it reads and
writes that field. There are eleven of them with getters, setters and deleters, so what they have in
common is said here once: fields can be read and replaced independently of each other, and each
operation comes to reading or replacing one of them. What an operation looks at besides is what
`Attribute.accept` is given: the items of lists, a label for a tuple that it may have to make, and
for `__code__` the name of the function and the number of its cells.

* `Attribute.Field` — what a function keeps for an attribute, `FunctionObject.field` and
  `FunctionObject.put` — the field of a function, and the function with another one.
* `FunctionObject.put_comm`, `FunctionObject.field_put_of_ne` — fields are independent.
* `Store.getAttribute_eq` — to read an attribute is to show its field.
* `Store.Alike` — readings that differ only in the objects that each of them makes anew.
* `Change` — an attribute is set or deleted, `Change.apply_eq` — this replaces one field, or is
  refused.
* `Change.exists_of_apply`, `Store.exists_dict_of_delAttr`, `Store.eq_putField_of_setClosure` — what
  is known of a change, of the deletion of an entry and of a new closure once they were accepted.
-/

namespace Callable

/-! ### Fields -/

/-- What a function keeps for an attribute. -/
def Attribute.Field : Attribute → Type
  | .code => Code
  | .defaults => Option Tuple
  | .kwDefaults | .annotations | .dict => Option DictRef
  | .name | .qualname => String
  | .doc | .moduleName => Value
  | .globals => DictRef
  | .closure => Option (List CellRef)

namespace FunctionObject

/-- The field of an attribute. -/
def field (fn : FunctionObject) : (a : Attribute) → a.Field
  | .code => fn.code
  | .defaults => fn.defaults
  | .kwDefaults => fn.kwDefaults
  | .annotations => fn.annotations
  | .dict => fn.dict
  | .name => fn.name
  | .qualname => fn.qualname
  | .doc => fn.doc
  | .moduleName => fn.moduleName
  | .globals => fn.globals
  | .closure => fn.closure

/-- The function with another field for an attribute. -/
def put (fn : FunctionObject) : (a : Attribute) → a.Field → FunctionObject
  | .code, c => { fn with code := c }
  | .defaults, t => { fn with defaults := t }
  | .kwDefaults, r => { fn with kwDefaults := r }
  | .annotations, r => { fn with annotations := r }
  | .dict, r => { fn with dict := r }
  | .name, t => { fn with name := t }
  | .qualname, t => { fn with qualname := t }
  | .doc, v => { fn with doc := v }
  | .moduleName, v => { fn with moduleName := v }
  | .globals, r => { fn with globals := r }
  | .closure, cells => { fn with closure := cells }

variable {fn : FunctionObject} {a b : Attribute}

@[simp] theorem field_put_self (fn : FunctionObject) (a : Attribute) (x : a.Field) :
    (fn.put a x).field a = x := by
  cases a <;> rfl

/-- Another field stays as it is. -/
theorem field_put_of_ne (h : b ≠ a) (x : a.Field) : (fn.put a x).field b = fn.field b := by
  cases a <;> cases b <;> first | rfl | exact absurd rfl h

/-- Two fields can be replaced in any order. -/
theorem put_comm (h : a ≠ b) (x : a.Field) (y : b.Field) :
    (fn.put a x).put b y = (fn.put b y).put a x := by
  cases a <;> cases b <;> first | rfl | exact absurd rfl h

end FunctionObject

/-! ### Replacing a field -/

namespace Heap

variable {sort : Mutable} {α : Type} {h : Heap sort α} {r : Ref sort}

/-- Of an object that is gone there is nothing to replace. -/
theorem set_of_not_isAlive (hr : h.isAlive r = false) (a : α) : h.set r a = h := by
  rw [set, hr]
  rfl

/-- The second of two writes to one object counts. -/
theorem set_set (h : Heap sort α) (r : Ref sort) (a b : α) : (h.set r a).set r b = h.set r b := by
  cases hr : h.isAlive r with
  | false => rw [set_of_not_isAlive hr]
  | true =>
    -- the object is alive after the first write too, so the second one is done
    have hr' : (h.set r a).isAlive r = true := by
      rw [isAlive, get?_set, if_pos ⟨rfl, hr⟩]
      rfl
    rw [set, if_pos hr', set, if_pos hr, set, if_pos hr, Array.setIfInBounds_setIfInBounds]

variable [Inhabited α]

theorem get_set (h : Heap sort α) (r r' : Ref sort) (a : α) :
    (h.set r a).get r' = if r' = r ∧ h.isAlive r = true then a else h.get r' := by
  rw [get, get?_set]
  split <;> rfl

theorem get_alloc (h : Heap sort α) (a : α) (r : Ref sort) :
    (h.alloc a).2.get r = if r = (h.alloc a).1 then a else h.get r := by
  rw [get, get?_alloc]
  split <;> rfl

end Heap

namespace Store

variable {s : Store} {f g : FunctionRef} {a b : Attribute}

/-- Replace a field of a function. -/
def putField (s : Store) (f : FunctionRef) (a : Attribute) (x : a.Field) : Store :=
  s.modifyFunction f fun fn => fn.put a x

/-- Give out some labels. -/
def takeLabels (s : Store) (n : Nat) : Store := { s with labels := s.labels + n }

/-- The entries of a dict after those of a dict that is alive were replaced. -/
theorem dict_setDict (s : Store) (r r' : DictRef) (t : Table Value) :
    (s.setDict r t).dict r' = if r' = r ∧ s.dicts.isAlive r = true then t else s.dict r' :=
  s.dicts.get_set r r' t

theorem function_modifyFunction (s : Store) (f g : FunctionRef)
    (k : FunctionObject → FunctionObject) :
    (s.modifyFunction f k).function g =
      if g = f ∧ s.functions.isAlive f = true then k (s.function f) else s.function g :=
  s.functions.get_set f g _

/-- Fields of one function are changed twice. -/
theorem modifyFunction_modifyFunction (s : Store) (f : FunctionRef)
    (k k' : FunctionObject → FunctionObject) :
    (s.modifyFunction f k).modifyFunction f k' = s.modifyFunction f fun fn => k' (k fn) := by
  -- a function that is gone is changed neither time, and of one that lives the second write counts
  have hfunctions : ((s.functions.set f (k (s.function f))).set f
      (k' ((s.modifyFunction f k).function f))) = s.functions.set f (k' (k (s.function f))) := by
    cases hf : s.functions.isAlive f with
    | false => simp only [Heap.set_of_not_isAlive hf]
    | true => rw [Heap.set_set, function_modifyFunction, if_pos ⟨rfl, hf⟩]
  exact congrArg (fun h => { s with functions := h }) hfunctions

/-- Two fields of a function are replaced in any order. -/
theorem putField_comm (h : a ≠ b) (s : Store) (f : FunctionRef) (x : a.Field) (y : b.Field) :
    (s.putField f a x).putField f b y = (s.putField f b y).putField f a x := by
  simp only [putField, modifyFunction_modifyFunction, FunctionObject.put_comm h]

/-- A field that is replaced is no other function's, and no other field of this one. -/
theorem field_putField_of_ne (h : ¬(g = f ∧ b = a)) (x : a.Field) :
    ((s.putField f a x).function g).field b = (s.function g).field b := by
  rw [putField, function_modifyFunction]
  split
  · -- it is the same function, so it has to be another field
    rename_i hg
    obtain ⟨rfl, -⟩ := hg
    exact FunctionObject.field_put_of_ne (fun hb => h ⟨rfl, hb⟩) x
  · rfl

theorem field_putField_self (hf : s.functions.isAlive f = true) (x : a.Field) :
    ((s.putField f a x).function f).field a = x := by
  rw [putField, function_modifyFunction, if_pos ⟨rfl, hf⟩, FunctionObject.field_put_self]

theorem function_of_not_isAlive (hf : s.functions.isAlive f = false) : s.function f = default := by
  have hgone : s.functions.get? f = none :=
    Option.isNone_iff_eq_none.1 (Option.isSome_eq_false_iff.1 hf)
  rw [function, Heap.get, hgone]
  rfl

theorem putField_of_not_isAlive (hf : s.functions.isAlive f = false) (x : a.Field) :
    s.putField f a x = s := by
  have hfunctions : s.functions.set f ((s.function f).put a x) = s.functions :=
    Heap.set_of_not_isAlive hf _
  exact congrArg (fun h => { s with functions := h }) hfunctions

theorem isAlive_putField (s : Store) (f g : FunctionRef) (a : Attribute) (x : a.Field) :
    (s.putField f a x).functions.isAlive g = s.functions.isAlive g := by
  -- a write puts something where something was
  change (s.functions.set f _).isAlive g = _
  rw [Heap.isAlive, Heap.get?_set]
  split
  · rename_i hg
    obtain ⟨rfl, halive⟩ := hg
    exact halive.symm
  · rfl

/-! ### Reading -/

/-- Hand out a field: the object that it is, a new string of a text, or a new tuple of the cells of
a closure. -/
def showField (s : Store) : (a : Attribute) → a.Field → Value × Store
  | .code, c => (.code c, s)
  | .defaults, t => (.ofTuple? t, s)
  | .kwDefaults, r | .annotations, r | .dict, r => (.ofDict? r, s)
  | .name, t | .qualname, t => (.str (s.newStr t).1, (s.newStr t).2)
  | .doc, v | .moduleName, v => (v, s)
  | .globals, r => (.dict r, s)
  | .closure, some cells =>
    (.tuple (s.newTuple (cells.map .cell)).1, (s.newTuple (cells.map .cell)).2)
  | .closure, none => (.none, s)

/-- To read an attribute is to show its field. -/
theorem getAttribute_eq (s : Store) (f : FunctionRef) (a : Attribute) :
    s.getAttribute f a = s.showField a ((s.function f).field a) := by
  cases a with
  | closure =>
    -- only here is something made, and only if there is a closure
    rw [getAttribute, FunctionObject.field]
    cases (s.function f).closure <;> rfl
  | _ => rfl

theorem getAttr_label (s : Store) (f : FunctionRef) (a : Attribute) :
    s.getAttr f a.label = .ok (s.showField a ((s.function f).field a)) := by
  rw [getAttr, Attribute.ofName?_label]
  exact congrArg Except.ok (getAttribute_eq s f a)

/-- **Readings that are alike.** In two stores a reading answers one and the same object, or
the same error; or it makes an object anew in either of them, a string with one text or a tuple of
the same cells. Some tuples may pass for copies of each other, too. -/
inductive Alike (copies : Tuple → Tuple → Prop) (s s' : Store) :
    Except Fault (Value × Store) → Except Fault (Value × Store) → Prop
  | object (v : Value) : Alike copies s s' (.ok (v, s)) (.ok (v, s'))
  | text (t : String) :
      Alike copies s s' (.ok (.str (s.newStr t).1, (s.newStr t).2))
        (.ok (.str (s'.newStr t).1, (s'.newStr t).2))
  | cells (rs : List CellRef) :
      Alike copies s s' (.ok (.tuple (s.newTuple (rs.map .cell)).1, (s.newTuple (rs.map .cell)).2))
        (.ok (.tuple (s'.newTuple (rs.map .cell)).1, (s'.newTuple (rs.map .cell)).2))
  | copy {t t' : Tuple} (h : copies t t') :
      Alike copies s s' (.ok (.tuple t, s)) (.ok (.tuple t', s'))
  | refused (e : Fault) : Alike copies s s' (.error e) (.error e)

/-- In two stores the attributes that are watched are read alike. -/
def ReadAlikeOn (s : Store) (watched : Attribute → Bool) (copies : Tuple → Tuple → Prop)
    (f : FunctionRef) (s' : Store) : Prop :=
  ∀ a, watched a = true → Alike copies s s' (s.getAttr f a.label) (s'.getAttr f a.label)

/-- One field read in two stores. -/
theorem alike_showField (copies : Tuple → Tuple → Prop) (s s' : Store) (a : Attribute)
    (x : a.Field) : Alike copies s s' (.ok (s.showField a x)) (.ok (s'.showField a x)) := by
  cases a with
  | name | qualname => exact .text x
  | closure =>
    cases x with
    | none => exact .object .none
    | some cells => exact .cells cells
  | _ => exact .object _

end Store

/-! ### Changes -/

/-- What a value has to be for an attribute that takes dicts. -/
def Attribute.acceptDict (a : Attribute) : Value → Except Fault (Option DictRef)
  | .dict r => .ok (some r)
  | v => .error (.wrongKind a v.kind)

/-- What a value has to be for an attribute that takes strings. -/
def Attribute.acceptText (a : Attribute) : Value → Except Fault String
  | .str t => .ok t.text
  | v => .error (.wrongKind a v.kind)

/-- What becomes of a value that is written to an attribute, or why it is refused. Of a list a
tuple of its items is made, under the label that is given; code is compared with the number of cells
that there are, and the name is for the message if they are not as many. -/
def Attribute.accept (items : ListRef → List Value) (label : Label) (name : String) (cells : Nat) :
    (a : Attribute) → Value → Except Fault a.Field
  | .code, v =>
    match v with
    | .code c =>
      if c.freeVarCount = cells then .ok c else .error (.codeArity name cells c.freeVarCount)
    | v => .error (.wrongKind .code v.kind)
  | .defaults, v =>
    match v with
    | .tuple t => .ok (some t)
    | .list r => .ok (some ⟨label, items r⟩)
    | v => .error (.wrongKind .defaults v.kind)
  | .kwDefaults, v => acceptDict .kwDefaults v
  | .annotations, v => acceptDict .annotations v
  | .dict, v => acceptDict .dict v
  | .name, v => acceptText .name v
  | .qualname, v => acceptText .qualname v
  | .doc, v | .moduleName, v => .ok v
  | .globals, _ | .closure, _ => .error .readOnly

/-- What is left of an attribute that is deleted, or why it cannot be deleted. -/
def Attribute.clear : (a : Attribute) → Except Fault a.Field
  | .defaults | .kwDefaults | .annotations | .dict => .ok none
  | .doc | .moduleName => .ok .none
  | .code => .error (.notDeletable .code)
  | .name => .error (.notDeletable .name)
  | .qualname => .error (.notDeletable .qualname)
  | .globals | .closure => .error .readOnly

/-- A change of an attribute: it is set to a value, or deleted. -/
structure Change where
  target : Attribute
  /-- The value, and none to delete the attribute. -/
  value? : Option Value

namespace Change

/-- Set an attribute to a value. -/
def set (a : Attribute) (v : Value) : Change := ⟨a, some v⟩

/-- Delete an attribute. -/
def delete (a : Attribute) : Change := ⟨a, none⟩

/-- Make a change of a function, under the name of the attribute. -/
def apply (c : Change) (f : FunctionRef) (s : Store) : Except Fault Store :=
  match c.value? with
  | some v => s.setAttr f c.target.label v
  | none => s.delAttr f c.target.label

/-- The field after a change, or why it is refused. -/
def outcome (c : Change) (items : ListRef → List Value) (label : Label) (name : String)
    (cells : Nat) : Except Fault c.target.Field :=
  match c.value? with
  | some v => c.target.accept items label name cells v
  | none => c.target.clear

/-- The labels that a change needs: one for the tuple of a list. -/
def labels (c : Change) : Nat :=
  match c.target, c.value? with
  | .defaults, some (.list _) => 1
  | _, _ => 0

/-- The field of a function after a change, or why it is refused. -/
def outcomeIn (c : Change) (s : Store) (f : FunctionRef) : Except Fault c.target.Field :=
  c.outcome s.list ⟨s.labels⟩ (s.function f).name (s.function f).cellCount

/-- **A change replaces one field**, or is refused. -/
theorem apply_eq (c : Change) (f : FunctionRef) (s : Store) :
    c.apply f s =
      (c.outcomeIn s f).map fun x => (s.takeLabels c.labels).putField f c.target x := by
  obtain ⟨a, v?⟩ := c
  cases v? with
  | none =>
    -- what can be deleted becomes empty, and the rest is refused whatever it was
    change s.delAttr f a.label = _
    rw [Store.delAttr, Attribute.ofName?_label]
    cases a <;> rfl
  | some v =>
    change s.setAttr f a.label v = _
    rw [Store.setAttr, Attribute.ofName?_label]
    cases a with
    | code =>
      cases v with
      | code c =>
        -- the one attribute for which the fields that the function has decide as well
        simp only [Store.setAttribute, outcomeIn, outcome, Attribute.accept]
        split <;> rfl
      | _ => rfl
    | defaults | kwDefaults | annotations | dict | name | qualname => cases v <;> rfl
    | doc | moduleName | globals | closure => rfl

/-- An accepted change has put its outcome into the field of its attribute. -/
theorem exists_of_apply {c : Change} {f : FunctionRef} {s s' : Store} (h : c.apply f s = .ok s') :
    ∃ x, c.outcomeIn s f = .ok x ∧ s' = (s.takeLabels c.labels).putField f c.target x := by
  rw [apply_eq] at h
  cases hx : c.outcomeIn s f with
  | error e =>
    rw [hx] at h
    cases h
  | ok x =>
    rw [hx] at h
    cases h
    exact ⟨x, rfl, rfl⟩

end Change

/-! ### What else may be accepted -/

namespace Store

variable {s s' : Store} {f : FunctionRef}

/-- An entry that was deleted under a free-form name was in the dict of the function. -/
theorem exists_dict_of_delAttr {n : String} (hn : Attribute.ofName? n = none)
    (h : s.delAttr f n = .ok s') :
    ∃ r, (s.function f).dict = some r ∧ s' = s.setDict r ((s.dict r).erase n) := by
  rw [delAttr, hn] at h
  cases hr : (s.function f).dict with
  | none => simp only [hr, reduceCtorEq] at h
  | some r =>
    simp only [hr] at h
    split at h
    · cases h
      exact ⟨r, rfl, rfl⟩
    · cases h

/-- An accepted closure is put into its field, and nothing else is done. -/
theorem eq_putField_of_setClosure {closure : Option (List CellRef)}
    (h : s.setClosure f closure = .ok s') :
    s' = s.putField f .closure (FunctionObject.closureOf (closure.getD [])) := by
  rw [setClosure] at h
  split at h
  · cases h
    rfl
  · cases h

end Store

end Callable
