import Callable.Function.Access
import Callable.Json.Forms
import Callable.Json.Reader
import Callable.Script.Run
import Callable.Text.Address
import Callable.Value.Comparison

/-!
# Performing actions

What the actions of a script do, calls apart: each is one operation of the library, on the values of
its expressions. A family of actions has a function `perform`, which answers a `Result`.
-/

namespace Callable.Script

/-- What an action answers, and the value that it produces, if any. -/
structure Result where
  answer : Answer
  value : Option Value

variable {ω : Type}

namespace Run

/-- Answer without a value. -/
def answer (a : Answer) : Run ω Result := return ⟨a, none⟩

/-- Answer that it is done. -/
def done : Run ω Result := answer .done

/-- Answer a value. -/
def give (v : Value) : Run ω Result := do
  return ⟨.value ((← store).snapshot v), some v⟩

/-- Answer a value that may be missing. -/
def giveOptional (v : Option Value) : Run ω Result := do
  return ⟨.optional (v.map (← store).snapshot), v⟩

/-- Answer a value that may be missing, only to show it. -/
def showOptional (v : Option Value) : Run ω Result := do
  return { ← giveOptional v with value := none }

/-- Answer a text of which the addresses are of no interest. -/
def giveText (cs : List Char) : Run ω Result :=
  answer (.text (String.ofList (Text.Address.hide cs)))

end Run

/-! ### Values -/

/-- Wrap a value once. -/
def Wrapper.wrap (w : Wrapper) (v : Value) : Run ω Value := do
  match w with
  | .list => return .list (← Run.make (·.newList [v]))
  | .tuple => return .tuple (← Run.make (·.newTuple [v]))
  | .dict => return .dict (← Run.make (·.newDict (.ofList [("k", v)])))

/-- Wrap a value so many times. -/
def Wrapper.wrapTimes (w : Wrapper) : Nat → Value → Run ω Value
  | 0, v => return v
  | n + 1, v => do w.wrapTimes n (← w.wrap v)

/-- Ask something of values, or make one. -/
def ValueAction.perform : ValueAction → Run ω Result
  | .take e => do Run.give (← e.eval)
  | .nest wrapper depth e => do
    let v ← wrapper.wrapTimes depth (← e.eval)
    return ⟨.done, some v⟩
  | .repr e => do
    let v ← e.eval
    Run.giveText ((← Run.store).render v)
  | .display e => do
    let v ← e.eval
    Run.giveText ((← Run.store).display v).toList
  | .kind e => do Run.answer (.text (← e.eval).kind.name)
  | .isCallable e => do Run.answer (.truth (← e.eval).isCallable)
  | .isNone e => do Run.answer (.truth (← e.eval).isNone)
  | .text e => do Run.answer (.textOf (← e.eval).text?)
  | .toTuple e => do
    let v ← e.eval
    match (← Run.store).toTuple? v with
    | some (t, store) =>
      Run.modifyStore fun _ => store
      return ⟨.sequence (some (store.snapshot (.tuple t))), some (.tuple t)⟩
    | none => Run.answer (.sequence none)
  | .equal a b => do
    let a ← a.eval
    let b ← b.eval
    Run.answer (.truth ((← Run.store).agree a b))
  | .identical a b => do
    let a ← a.eval
    let b ← b.eval
    Run.answer (.truth (a.isIdentical b))

/-! ### Containers -/

/-- Read or change a list. -/
def ListAction.perform : ListAction → Run ω Result
  | .push l e => do
    let r ← l.evalList
    let v ← e.eval
    Run.modifyStore fun s => s.setList r (s.list r ++ [v])
    Run.done
  | .set l i e => do
    let r ← l.evalList
    let v ← e.eval
    let items := (← Run.store).list r
    let _ ← Run.require items[i]?
    Run.modifyStore fun s => s.setList r (items.set i v)
    Run.done
  | .pop l => do
    let r ← l.evalList
    let items := (← Run.store).list r
    Run.modifyStore fun s => s.setList r items.dropLast
    Run.showOptional items.getLast?

/-- Read or change a dict. -/
def DictAction.perform : DictAction → Run ω Result
  | .get d key => do
    let r ← d.evalDict
    Run.giveOptional (((← Run.store).dict r).get? key)
  | .contains d key => do
    let r ← d.evalDict
    Run.answer (.truth (((← Run.store).dict r).contains key))
  | .set d key e => do
    let r ← d.evalDict
    let v ← e.eval
    let t := (← Run.store).dict r
    Run.modifyStore fun s => s.setDict r (t.insert key v)
    Run.showOptional (t.get? key)
  | .remove d key => do
    let r ← d.evalDict
    let t := (← Run.store).dict r
    Run.modifyStore fun s => s.setDict r (t.erase key)
    Run.showOptional (t.get? key)
  | .size d => do
    let t := (← Run.store).dict (← d.evalDict)
    Run.answer (.extent t.size t.isEmpty)
  | .keys d => do
    let r ← d.evalDict
    Run.answer (.names ((← Run.store).dict r).keys)
  | .copy d => do
    let r ← d.evalDict
    Run.give (.dict (← Run.make fun s => s.newDict (s.dict r)))
  | .same a b => do
    let a ← a.evalDict
    let b ← b.evalDict
    Run.answer (.truth (a == b))

/-- Read or change a cell. -/
def CellAction.perform : CellAction → Run ω Result
  | .get c => do
    let r ← c.evalCell
    Run.showOptional ((← Run.store).cell r)
  | .set c e => do
    let r ← c.evalCell
    let v ← e.eval
    Run.modifyStore fun s => s.setCell r (some v)
    Run.done
  | .clear c => do
    let r ← c.evalCell
    Run.modifyStore fun s => s.setCell r none
    Run.done
  | .isEmpty c => do
    let r ← c.evalCell
    Run.answer (.truth ((← Run.store).cell r).isNone)
  | .contents c => do
    let r ← c.evalCell
    Run.give (← Run.orFault ((← Run.store).cellContents r))
  | .same a b => do
    let a ← a.evalCell
    let b ← b.evalCell
    Run.answer (.truth (a == b))

/-! ### Functions -/

/-- The cells of an expression list that may be missing. -/
def evalClosure : Option (List Expr) → Run ω (Option (List CellRef))
  | some es => return some (← Expr.evalCells es)
  | none => return none

/-- A tuple, or nothing where the value is none. -/
def evalTuple? (e : Expr) : Run ω (Option Tuple) := do
  match ← e.eval with
  | .none => return none
  | v => return some (← Run.require v.tuple?)

/-- A dict, or nothing where the value is none. -/
def evalDict? (e : Expr) : Run ω (Option DictRef) := do
  match ← e.eval with
  | .none => return none
  | v => return some (← Run.require v.dict?)

/-- The fields of a function. -/
def fieldsOf (s : Store) (f : FunctionObject) : Fields where
  codeName := f.code.name
  freeVarCount := f.code.freeVarCount
  globals := s.snapshot (.dict f.globals)
  doc := s.snapshot f.doc
  moduleName := s.snapshot f.moduleName
  name := f.name
  qualname := f.qualname
  defaults := f.defaults.map fun t => s.snapshot (.tuple t)
  kwDefaults := f.kwDefaults.map fun r => s.snapshot (.dict r)
  closure := f.closure.map fun cells => .tuple (cells.map fun r => s.snapshot (.cell r))
  dict := f.dict.map fun r => s.snapshot (.dict r)
  annotations := f.annotations.map fun r => s.snapshot (.dict r)

/-- The parts of a new function. -/
def Making.eval (m : Making) : Run ω (Code × DictRef × Option (List CellRef)) := do
  let code ← m.code.evalCode
  let globals ← m.globals.evalDict
  let cells ← evalClosure m.cells
  return (code, globals, cells)

/-- Make, read or change a function. -/
def FunctionAction.perform : FunctionAction → Run ω Result
  | .make m => do
    let (code, globals, cells) ← m.eval
    let f ← Run.make fun s =>
      match cells with
      | some cells => s.makeClosure code globals m.qualname cells
      | none => s.makeFunction code globals m.qualname
    Run.give (.function f)
  | .fields f => do
    let r ← f.evalFunction
    let s ← Run.store
    Run.answer (.fields (fieldsOf s (s.function r)))
  | .same a b => do
    let a ← a.evalFunction
    let b ← b.evalFunction
    Run.answer (.truths (a == b) (a == b))
  | .codeInfo e => do
    let c ← e.evalCode
    Run.answer (.code c.name (c.consts.map (← Run.store).snapshot) c.freeVars)
  | .getAttr f name => do
    let r ← f.evalFunction
    Run.give (← Run.attempt (·.getAttr r name))
  | .setAttr f name e => do
    let r ← f.evalFunction
    let v ← e.eval
    Run.attemptWrite (·.setAttr r name v)
    Run.done
  | .delAttr f name => do
    let r ← f.evalFunction
    Run.attemptWrite (·.delAttr r name)
    Run.done
  | .setClosure f cells => do
    let r ← f.evalFunction
    let cells ← evalClosure cells
    Run.attemptWrite (·.setClosure r cells)
    Run.done
  | .setDefaults f e => do
    let r ← f.evalFunction
    let t ← evalTuple? e
    Run.modifyStore (·.setDefaults r t)
    Run.done
  | .setKwDefaults f e => do
    let r ← f.evalFunction
    let d ← evalDict? e
    Run.modifyStore (·.setKwDefaults r d)
    Run.done
  | .setAnnotations f e => do
    let r ← f.evalFunction
    let d ← evalDict? e
    Run.modifyStore (·.setAnnotations r d)
    Run.done

/-- Make or read a bound method. -/
def MethodAction.perform : MethodAction → Run ω Result
  | .bind f e => do
    let r ← f.evalFunction
    let v ← e.eval
    Run.give (← Run.make (·.bind r v))
  | .make f e => do
    let r ← f.evalFunction
    let v ← e.eval
    Run.give (.method (← Run.make (·.newMethod r v)))
  | .getAttr m name => do
    let m ← m.evalMethod
    Run.give (← Run.attempt (·.getMethodAttr m name))
  | .parts m => do
    let m ← m.evalMethod
    let s ← Run.store
    Run.answer (.parts (s.snapshot (.function m.function)) (s.snapshot m.receiver))

/-- Read or change one of the fixed attributes. -/
def AttributeAction.perform : AttributeAction → Run ω Result
  | .names => Run.answer (.names (Attribute.all.map Attribute.label))
  | .describe name => Run.answer (.fixed (Attribute.ofName? name))
  | .get f a => do
    let r ← f.evalFunction
    Run.give (← Run.make (·.getAttribute r a))
  | .set f a e => do
    let r ← f.evalFunction
    let v ← e.eval
    Run.attemptWrite (·.setAttribute r a v)
    Run.done
  | .delete f a => do
    let r ← f.evalFunction
    Run.attemptWrite (·.deleteAttribute r a)
    Run.done

/-! ### Weak references -/

/-- The weak reference of a register, to be asked about its function. -/
def evalWeak (name : String) : Run ω WeakRef := do
  let w ← Run.require ((← Run.stage).weak? name)
  Run.settleFor w.target
  return w

/-- Make, read or let go of a weak reference. -/
def WeakAction.perform : WeakAction → Run ω Result
  | .make f name => do
    let r ← f.evalFunction
    Run.modifyStage (·.keepWeak name ⟨r⟩)
    Run.done
  | .clone name copy => do
    let w ← Run.require ((← Run.stage).weak? name)
    Run.modifyStage (·.keepWeak copy w)
    Run.done
  | .drop name => do
    let there := ((← Run.stage).weak? name).isSome
    Run.modifyStage (·.dropWeak name)
    Run.answer (.truth there)
  | .isAlive name => do
    let w ← evalWeak name
    Run.answer (.truth (w.isAlive (← Run.store)))
  | .upgrade name => do
    let w ← evalWeak name
    Run.giveOptional ((w.upgrade? (← Run.store)).map .function)
  | .repr name => do
    let w ← evalWeak name
    Run.giveText (w.render (← Run.store))
  | .count f => do
    let r ← f.evalFunction
    Run.answer (.count ((← Run.stage).weakCount r))

/-! ### Errors and their forms -/

/-- Read a text in one of the forms, and write again what was read. -/
def Exchanged.reread (form : Exchanged) (text : String) : Option Json := do
  let j ← Json.parse? text
  match form with
  | .exceptionClass => (ExceptionClass.ofJson? j).map ExceptionClass.toJson
  | .exception => (Exception.ofJson? j).map Exception.toJson
  | .error => (RunError.ofJson? j).map RunError.toJson
  | .event => (Event.ofJson? j).map Event.toJson

/-- Ask something of errors. -/
def ErrorAction.answer : ErrorAction → Answer
  | .error e => .error e
  | .equal a b => .truth (a == b)
  | .exception e => .exception e
  | .subclass a b => .truth (a.isSubclassOf b)
  | .classOf text => .exceptionClass (ExceptionClass.ofName? text)
  | .read form text => .read (form.reread text)

end Callable.Script
