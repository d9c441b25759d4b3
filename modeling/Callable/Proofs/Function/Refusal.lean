import Callable.Proofs.Run.Operation

/-!
# Refused writes

A write to a function is refused for reasons that can be told from the function and the value, and a
refused write has done nothing.

The operations answer a fault or the store after them, so a refusal has no store of its own to
spoil. That is how they are written here; done one effect after the other, a write could well come
to its refusal with some of its effects behind it. So the writes are given a second time as
computations on a store that stays as it was left (`Attempt`): a dict is made when it is first
needed, a list is copied before the tuple is kept, an entry is taken out before anyone asks whether
it was there. `Write.attempt_eq` says that both come to the same.

* `Write` — the writes, `Write.apply` what the library answers, and `Write.attempt` the same effect
  by effect.
* `Attribute.refusalOf`, `Write.refusal` — which writes are refused, and with which class of
  exception.
* `Write.verdict_apply` — these are refused and no others; `wrongKind_of_setAttribute` says that
  there are words for each sort of value that may be missed.
* `Write.answers` — the result, for all ways to make a write.
-/

namespace Callable

/-! ### Heaps written where they grew -/

namespace Heap

variable {sort : Mutable} {α : Type}

/-- To make an object and then fill it is to make it full. -/
theorem set_alloc (h : Heap sort α) (a b : α) :
    (h.alloc a).2.set (h.alloc a).1 b = (h.alloc b).2 := by
  have halive : (h.alloc a).2.isAlive (h.alloc a).1 = true := by
    rw [isAlive, get?_alloc, if_pos rfl]
    rfl
  -- the slot that was pushed last is the one that is replaced
  rw [set, if_pos halive]
  change Heap.mk ((h.slots.push (some a)).setIfInBounds h.slots.size (some b)) =
    ⟨h.slots.push (some b)⟩
  rw [Array.setIfInBounds, dif_pos (by simp), Array.set_push]
  simp

end Heap

namespace Store

/-- The entries of a dict that was just made. -/
theorem dict_newDict (s : Store) (t : Table Value) :
    (s.newDict t).2.dict (s.newDict t).1 = t := by
  change ((s.dicts.alloc t).2.get? (s.dicts.alloc t).1).getD default = t
  rw [Heap.get?_alloc, if_pos rfl]
  rfl

theorem setDict_newDict (s : Store) (t t' : Table Value) :
    (s.newDict t).2.setDict (s.newDict t).1 t' = (s.newDict t').2 := by
  change { s with dicts := (s.dicts.alloc t).2.set (s.dicts.alloc t).1 t' } = _
  rw [Heap.set_alloc]
  rfl

end Store

/-! ### Writes -/

/-- A write to a function: one of the fixed attributes is set or deleted by itself, any attribute
by its name, or the closure is replaced. -/
inductive Write where
  | set (a : Attribute) (v : Value)
  | delete (a : Attribute)
  | setAttr (name : String) (v : Value)
  | delAttr (name : String)
  | setClosure (closure : Option (List CellRef))

/-- What the library answers to a write. -/
def Write.apply (w : Write) (f : FunctionRef) (s : Store) : Except Fault Store :=
  match w with
  | .set a v => s.setAttribute f a v
  | .delete a => s.deleteAttribute f a
  | .setAttr name v => s.setAttr f name v
  | .delAttr name => s.delAttr f name
  | .setClosure closure => s.setClosure f closure

/-! ### Writes effect by effect -/

/-- Work on a store that may be refused. What was done until then stays done. -/
abbrev Attempt := ExceptT Fault (StateM Store)

namespace Attempt

/-- Go on if something holds, or be refused. -/
def require (p : Prop) [Decidable p] (e : Fault) : Attempt Unit := if p then pure () else throw e

/-- Change the fields of a function. -/
def modifyFields (f : FunctionRef) (g : FunctionObject → FunctionObject) : Attempt Unit :=
  modify fun s => s.modifyFunction f g

/-- The fields of a function. -/
def fields (f : FunctionRef) : Attempt FunctionObject := do return (← get).function f

/-- A value that has to be a code object. -/
def expectCode (a : Attribute) : Value → Attempt Code
  | .code c => return c
  | v => throw (.wrongKind a v.kind)

/-- A value that has to be a dict. -/
def expectDict (a : Attribute) : Value → Attempt DictRef
  | .dict r => return r
  | v => throw (.wrongKind a v.kind)

/-- A value that has to be a string. -/
def expectString (a : Attribute) : Value → Attempt String
  | .str t => return t.text
  | v => throw (.wrongKind a v.kind)

/-- A value that has to be a sequence. A list is copied at once. -/
def expectSequence (a : Attribute) : Value → Attempt Tuple
  | .tuple t => return t
  | .list r => modifyGet fun s => s.newTuple (s.list r)
  | v => throw (.wrongKind a v.kind)

/-- Set an attribute. -/
def setAttribute (f : FunctionRef) (a : Attribute) (v : Value) : Attempt Unit := do
  match a with
  | .code =>
    let c ← expectCode a v
    let fn ← fields f
    require (c.freeVarCount = fn.cellCount) (.codeArity fn.name fn.cellCount c.freeVarCount)
    modifyFields f fun fn => { fn with code := c }
  | .defaults =>
    let t ← expectSequence a v
    modifyFields f fun fn => { fn with defaults := some t }
  | .kwDefaults =>
    let r ← expectDict a v
    modifyFields f fun fn => { fn with kwDefaults := some r }
  | .annotations =>
    let r ← expectDict a v
    modifyFields f fun fn => { fn with annotations := some r }
  | .dict =>
    let r ← expectDict a v
    modifyFields f fun fn => { fn with dict := some r }
  | .name =>
    let text ← expectString a v
    modifyFields f fun fn => { fn with name := text }
  | .qualname =>
    let text ← expectString a v
    modifyFields f fun fn => { fn with qualname := text }
  | .doc => modifyFields f fun fn => { fn with doc := v }
  | .moduleName => modifyFields f fun fn => { fn with moduleName := v }
  | .globals | .closure => throw .readOnly

/-- Delete an attribute. -/
def deleteAttribute (f : FunctionRef) (a : Attribute) : Attempt Unit :=
  match a with
  | .defaults => modifyFields f fun fn => { fn with defaults := none }
  | .kwDefaults => modifyFields f fun fn => { fn with kwDefaults := none }
  | .annotations => modifyFields f fun fn => { fn with annotations := none }
  | .dict => modifyFields f fun fn => { fn with dict := none }
  | .doc => modifyFields f fun fn => { fn with doc := .none }
  | .moduleName => modifyFields f fun fn => { fn with moduleName := .none }
  | .code | .name | .qualname => throw (.notDeletable a)
  | .globals | .closure => throw .readOnly

/-- The dict of the free-form attributes, which is made when it is needed. -/
def ensureDict (f : FunctionRef) : Attempt DictRef := do
  match (← fields f).dict with
  | some r => return r
  | none =>
    let r ← modifyGet fun s => s.newDict .empty
    modifyFields f fun fn => { fn with dict := some r }
    return r

/-- Take an entry out of a dict; the answer is what was taken out. -/
def takeOut (r : DictRef) (name : String) : Attempt (Option Value) :=
  modifyGet fun s =>
    match (s.dict r).get? name with
    | some v => (some v, s.setDict r ((s.dict r).erase name))
    | none => (none, s)

/-- Set an attribute by its name. -/
def setAttr (f : FunctionRef) (name : String) (v : Value) : Attempt Unit := do
  match Attribute.ofName? name with
  | some a => setAttribute f a v
  | none =>
    let r ← ensureDict f
    modify fun s => s.setDict r ((s.dict r).insert name v)

/-- Delete an attribute by its name. -/
def delAttr (f : FunctionRef) (name : String) : Attempt Unit := do
  match Attribute.ofName? name with
  | some a => deleteAttribute f a
  | none =>
    let taken ←
      match (← fields f).dict with
      | some r => takeOut r name
      | none => pure none
    require (taken.isSome = true) (.noAttribute name)

/-- Replace the closure. -/
def setClosure (f : FunctionRef) (closure : Option (List CellRef)) : Attempt Unit := do
  let fn ← fields f
  let cells := closure.getD []
  require (cells.length = fn.code.freeVarCount)
    (.closureArity fn.name fn.code.freeVarCount cells.length)
  modifyFields f fun fn => { fn with closure := FunctionObject.closureOf cells }

end Attempt

/-- A write, effect by effect. -/
def Write.attempt (w : Write) (f : FunctionRef) : Attempt Unit :=
  match w with
  | .set a v => Attempt.setAttribute f a v
  | .delete a => Attempt.deleteAttribute f a
  | .setAttr name v => Attempt.setAttr f name v
  | .delAttr name => Attempt.delAttr f name
  | .setClosure closure => Attempt.setClosure f closure

/-! ### Both come to the same -/

/-- An answer with the store that is found then: after a refusal, the one that was there before. -/
def Store.left (s : Store) : Except Fault Store → Except Fault Unit × Store
  | .ok s' => (.ok (), s')
  | .error e => (.error e, s)

/-- A refusal that depends on a condition. -/
theorem Store.left_ite (s s' : Store) (p : Prop) [Decidable p] (e : Fault) :
    s.left (if p then .ok s' else .error e) = if p then (.ok (), s') else (.error e, s) := by
  split <;> rfl

namespace Attempt

variable (s : Store) (f : FunctionRef)

theorem require_bind (p : Prop) [Decidable p] (e : Fault) (m : Attempt Unit) :
    (require p e >>= fun _ => m) s = if p then m s else (.error e, s) := by
  rw [require]
  split <;> rfl

theorem setAttribute_eq (a : Attribute) (v : Value) :
    setAttribute f a v s = s.left (s.setAttribute f a v) := by
  cases a with
  | code =>
    cases v with
    | code c =>
      -- both ask the same question before anything is written
      rw [Store.setAttribute, Store.left_ite]
      exact require_bind s (c.freeVarCount = (s.function f).cellCount) _ _
    | _ => rfl
  | defaults | kwDefaults | annotations | dict | name | qualname => cases v <;> rfl
  | doc | moduleName | globals | closure => rfl

theorem deleteAttribute_eq (a : Attribute) :
    deleteAttribute f a s = s.left (s.deleteAttribute f a) := by
  cases a <;> rfl

/-- What goes on from an answer. -/
theorem bind_ok {α : Type} {m : Attempt α} {k : α → Attempt Unit} {s s' : Store} {a : α}
    (h : m s = (.ok a, s')) : (m >>= k) s = k a s' := by
  -- the layers of the monad are opened down to what `m` answers
  change (match m s with | (r, s') => ExceptT.bindCont k r s') = _
  rw [h]
  rfl

theorem ensureDict_of_some {r : DictRef} (h : (s.function f).dict = some r) :
    ensureDict f s = (.ok r, s) := by
  change (match (s.function f).dict with
    | some r => (pure r : Attempt DictRef)
    | none => _) s = _
  rw [h]
  rfl

theorem ensureDict_of_none (h : (s.function f).dict = none) :
    ensureDict f s = (.ok (s.newDict .empty).1, (s.newDict .empty).2.modifyFunction f
      fun fn => { fn with dict := some (s.newDict .empty).1 }) := by
  change (match (s.function f).dict with
    | some r => (pure r : Attempt DictRef)
    | none => _) s = _
  rw [h]
  rfl

theorem setAttr_eq (name : String) (v : Value) :
    setAttr f name v s = s.left (s.setAttr f name v) := by
  rw [setAttr, Store.setAttr]
  cases Attribute.ofName? name with
  | some a => exact setAttribute_eq s f a v
  | none =>
    cases hdict : (s.function f).dict with
    | some r => exact bind_ok (ensureDict_of_some s f hdict)
    | none =>
      refine (bind_ok (ensureDict_of_none s f hdict)).trans ?_
      -- the function holds the dict by the time the entry goes in, but it is the same dict as if
      -- the entry had been there from the beginning
      have hfilled : (s.newDict .empty).2.setDict (s.newDict .empty).1
          (((s.newDict .empty).2.dict (s.newDict .empty).1).insert name v) =
            (s.newDict (Table.empty.insert name v)).2 := by
        rw [Store.dict_newDict, Store.setDict_newDict]
      change (Except.ok (), ((s.newDict .empty).2.setDict (s.newDict .empty).1
          (((s.newDict .empty).2.dict (s.newDict .empty).1).insert name v)).modifyFunction f
            fun fn => { fn with dict := some (s.newDict .empty).1 }) = _
      rw [hfilled]
      rfl

theorem modifyGet_eq {α : Type} (g : Store → α × Store) :
    (modifyGet g : Attempt α) s = (.ok (g s).1, (g s).2) := rfl

/-- What was taken out decides, and nothing is changed if there was nothing. -/
theorem takeOut_bind (r : DictRef) (name : String) :
    (takeOut r name >>= fun taken => require (taken.isSome = true) (.noAttribute name)) s =
      s.left (if (s.dict r).contains name then .ok (s.setDict r ((s.dict r).erase name))
        else .error (.noAttribute name)) := by
  -- an entry is asked for by `get?` here and by `contains` there
  cases hfound : (s.dict r).get? name with
  | some v =>
    have h : takeOut r name s = (.ok (some v), s.setDict r ((s.dict r).erase name)) := by
      simp only [takeOut, modifyGet_eq, hfound]
    rw [bind_ok h, Table.contains, hfound]
    rfl
  | none =>
    have h : takeOut r name s = (.ok none, s) := by
      simp only [takeOut, modifyGet_eq, hfound]
    rw [bind_ok h, Table.contains, hfound]
    rfl

theorem delAttr_eq (name : String) : delAttr f name s = s.left (s.delAttr f name) := by
  rw [delAttr, Store.delAttr]
  cases Attribute.ofName? name with
  | some a => exact deleteAttribute_eq s f a
  | none =>
    -- nothing was done when the dict is looked for, so the entry is taken out of the same store
    have h : fields f s = (.ok (s.function f), s) := rfl
    refine (bind_ok h).trans ?_
    cases hdict : (s.function f).dict with
    | some r => exact takeOut_bind s r name
    | none => rfl

theorem setClosure_eq (closure : Option (List CellRef)) :
    setClosure f closure s = s.left (s.setClosure f closure) := by
  rw [Store.setClosure, Store.left_ite]
  exact require_bind s ((closure.getD []).length = (s.function f).code.freeVarCount) _ _

end Attempt

/-- **Effect by effect is all at once.** A write leaves the store that the library answers, and one
that is refused the store that there was. -/
theorem Write.attempt_eq (w : Write) (f : FunctionRef) (s : Store) :
    w.attempt f s = s.left (w.apply f s) := by
  cases w with
  | set a v => exact Attempt.setAttribute_eq s f a v
  | delete a => exact Attempt.deleteAttribute_eq s f a
  | setAttr name v => exact Attempt.setAttr_eq s f name v
  | delAttr name => exact Attempt.delAttr_eq s f name
  | setClosure closure => exact Attempt.setClosure_eq s f closure

/-! ### Which writes are refused -/

/-- The class of exception with which a value is refused for an attribute of a function with these
fields. -/
def Attribute.refusalOf (fn : FunctionObject) (v : Value) : Attribute → Option ExceptionClass
  | .globals | .closure => some .attributeError
  | .code =>
    match v with
    | .code c => if c.freeVarCount = fn.cellCount then none else some .valueError
    | _ => some .typeError
  | .defaults => if v.kind = .tuple ∨ v.kind = .list then none else some .typeError
  | .kwDefaults | .annotations | .dict => if v.kind = .dict then none else some .typeError
  | .name | .qualname => if v.kind = .str then none else some .typeError
  | .doc | .moduleName => none

/-- The class of exception with which the deletion of an attribute is refused. -/
def Attribute.refusalOfDeletion : Attribute → Option ExceptionClass
  | .code | .name | .qualname | .globals | .closure => some .attributeError
  | .defaults | .kwDefaults | .annotations | .dict | .doc | .moduleName => none

/-- **The refusals.** The class of exception with which a write is refused, if it is. -/
def Write.refusal (s : Store) (f : FunctionRef) : Write → Option ExceptionClass
  | .set a v => a.refusalOf (s.function f) v
  | .delete a => a.refusalOfDeletion
  | .setAttr name v => (Attribute.ofName? name).bind (Attribute.refusalOf (s.function f) v)
  | .delAttr name =>
    match Attribute.ofName? name with
    | some a => a.refusalOfDeletion
    | none => if (s.freeAttr? f name).isSome then none else some .attributeError
  | .setClosure closure =>
    if (closure.getD []).length = (s.function f).code.freeVarCount then none
    else some .valueError

namespace Attribute

/-- An attribute can be deleted exactly if its deletion is not refused. -/
theorem refusalOfDeletion_eq_none_iff (a : Attribute) :
    a.refusalOfDeletion = none ↔ a.isDeletable = true := by
  cases a <;> simp [refusalOfDeletion, isDeletable]

/-- An attribute can be written exactly if no value is refused as for one that cannot. -/
theorem refusalOf_eq_attributeError_iff (fn : FunctionObject) (v : Value) (a : Attribute) :
    a.refusalOf fn v = some .attributeError ↔ a.isWritable = false := by
  cases a with
  | code =>
    cases v with
    | code c =>
      -- for the wrong number of cells code is refused with another class
      rw [refusalOf]
      split <;> simp [isWritable, accepts]
    | _ => simp [refusalOf, isWritable, accepts]
  | defaults | kwDefaults | annotations | dict | name | qualname =>
    rw [refusalOf]
    split <;> simp [isWritable, accepts]
  | doc | moduleName | globals | closure => simp [refusalOf, isWritable, accepts]

end Attribute

/-- The class of the fault that was answered, if one was. -/
def verdict : Except Fault Store → Option ExceptionClass
  | .ok _ => none
  | .error e => some e.cls

section Verdict

variable (s : Store) (f : FunctionRef)

theorem verdict_setAttribute (a : Attribute) (v : Value) :
    verdict (s.setAttribute f a v) = a.refusalOf (s.function f) v := by
  cases a with
  | code =>
    cases v with
    | code c =>
      rw [Store.setAttribute, Attribute.refusalOf]
      split <;> rfl
    | _ => rfl
  | defaults | kwDefaults | annotations | dict | name | qualname => cases v <;> rfl
  | doc | moduleName | globals | closure => rfl

/-- A value that is refused for its sort is refused under the name of the attribute and with the
value's kind, and there are words for the sort that was expected. -/
theorem wrongKind_of_setAttribute {a b : Attribute} {v : Value} {k : Kind}
    (h : s.setAttribute f a v = .error (.wrongKind b k)) :
    b = a ∧ k = v.kind ∧ a.accepts.phrase ≠ "" := by
  cases a with
  | code =>
    cases v with
    | code c =>
      -- a code object may still be refused, but for the number of its free variables
      rw [Store.setAttribute] at h
      split at h <;> cases h
    | _ =>
      cases h
      exact ⟨rfl, rfl, by decide⟩
  | defaults =>
    rw [Store.setAttribute] at h
    split at h
    · cases h
    · cases h
      exact ⟨rfl, rfl, by decide⟩
  | kwDefaults | annotations | dict =>
    cases v with
    | dict r => cases h
    | _ =>
      cases h
      exact ⟨rfl, rfl, by decide⟩
  | name | qualname =>
    cases v with
    | str t => cases h
    | _ =>
      cases h
      exact ⟨rfl, rfl, by decide⟩
  -- the sorts without words: `setAttribute` gives no `wrongKind` here
  | doc | moduleName | globals | closure => cases h

theorem verdict_deleteAttribute (a : Attribute) :
    verdict (s.deleteAttribute f a) = a.refusalOfDeletion := by
  cases a <;> rfl

theorem verdict_setAttr (name : String) (v : Value) :
    verdict (s.setAttr f name v) = (Write.setAttr name v).refusal s f := by
  rw [Store.setAttr, Write.refusal]
  cases Attribute.ofName? name with
  | some a => exact verdict_setAttribute s f a v
  | none => cases hdict : (s.function f).dict <;> rfl

theorem verdict_delAttr (name : String) :
    verdict (s.delAttr f name) = (Write.delAttr name).refusal s f := by
  rw [Store.delAttr, Write.refusal]
  cases Attribute.ofName? name with
  | some a => exact verdict_deleteAttribute s f a
  | none =>
    rw [Store.freeAttr?]
    cases (s.function f).dict with
    | none => rfl
    | some r =>
      -- what is free-form is refused exactly where there is no entry
      change verdict (if (s.dict r).contains name then _ else _) =
        if (s.dict r).contains name then _ else _
      split <;> rfl

end Verdict

/-- **Which writes are refused.** Those with a refusal, each with this class of exception, and no
others. -/
theorem Write.verdict_apply (w : Write) (f : FunctionRef) (s : Store) :
    verdict (w.apply f s) = w.refusal s f := by
  cases w with
  | set a v => exact verdict_setAttribute s f a v
  | delete a => exact verdict_deleteAttribute s f a
  | setAttr name v => exact verdict_setAttr s f name v
  | delAttr name => exact verdict_delAttr s f name
  | setClosure closure =>
    rw [apply, Store.setClosure, refusal]
    split <;> rfl

/-! ### All ways to make a write -/

section Answers

variable {σ : Type}

/-- The operation under a monitor that makes the write, if there is one. -/
def Write.operation? (f : FunctionRef) : Write → Option (Monitored.Operation σ)
  | .setAttr name v => some (.setAttr f name v)
  | .delAttr name => some (.delAttr f name)
  | _ => none

/-- Every way to make a write has this answer and leaves this store: as the library answers it,
effect by effect, and under a monitor. -/
structure Write.Answers (w : Write) (f : FunctionRef) (m : Monitored σ) (answer : Except Fault Unit)
    (after : Store) : Prop where
  apply : w.apply f m.store = answer.map fun _ => after
  attempt : w.attempt f m.store = (answer, after)
  monitored : ∀ ev op, w.operation? f = some op →
    (op.perform ev m).1 = (answer.map fun _ => none).mapError Fault.toError ∧
      (op.perform ev m).2.store = after

/-- Under a monitor a write has the answer that it has without one. -/
theorem Write.perform_operation (w : Write) (f : FunctionRef) (m : Monitored σ)
    {ev : Evaluator σ Monitor} {op : Monitored.Operation σ} (h : w.operation? f = some op) :
    (op.perform ev m).1 =
        ((m.store.left (w.apply f m.store)).1.map fun _ => none).mapError Fault.toError ∧
      (op.perform ev m).2.store = (m.store.left (w.apply f m.store)).2 := by
  cases w with
  | setAttr name v =>
    cases h
    -- the monitor only hears of the write, accepted or refused
    rw [Monitored.Operation.perform, Monitored.setAttr, apply]
    cases m.store.setAttr f name v <;> exact ⟨rfl, rfl⟩
  | delAttr name =>
    cases h
    rw [Monitored.Operation.perform, Monitored.delAttr, apply]
    cases m.store.delAttr f name <;> exact ⟨rfl, rfl⟩
  | set a v => cases h
  | delete a => cases h
  | setClosure closure => cases h

/-- **Refused writes.** A write is refused exactly if there is a refusal for it, with an exception
of that class, and then the store is what it was; else it succeeds. -/
theorem Write.answers (w : Write) (f : FunctionRef) (m : Monitored σ) :
    match w.refusal m.store f with
    | some c => ∃ e, e.cls = c ∧ w.Answers f m (.error e) m.store
    | none => ∃ after, w.Answers f m (.ok ()) after := by
  have hverdict := w.verdict_apply f m.store
  have hattempt := w.attempt_eq f m.store
  -- the three ways agree already, so it is enough to look at one of them
  have hmonitored {ev : Evaluator σ Monitor} {op} (h : w.operation? f = some op) :=
    @perform_operation σ w f m ev op h
  rw [← hverdict]
  cases happly : w.apply f m.store with
  | ok after =>
    rw [happly] at hattempt hmonitored
    exact ⟨after, happly, hattempt, fun ev op h => hmonitored h⟩
  | error e =>
    rw [happly] at hattempt hmonitored
    exact ⟨e, rfl, happly, hattempt, fun ev op h => hmonitored h⟩

end Answers

end Callable
