import Callable.Error.Fault
import Callable.Store.Basic

/-!
# Making functions, and access to their attributes

Operations that can fail answer a fault or the store after them, so a refused operation has no store
of its own: nothing was changed.

* `Store.makeFunction`, `Store.makeClosure` — functions from code.
* `Store.getAttr`, `Store.setAttr`, `Store.delAttr` — attributes by name: one of the fixed
  attributes if the name is one of theirs, and else an entry of the function's `__dict__`, which is
  made on the first write.
* `Store.setClosure` and the setters of single fields — what the program around may do besides.
-/

namespace Callable

/-! ### Making functions -/

/-- The fields of a new function: its documentation comes from the code, its module from the
globals, and its qualified name is the code's name unless one is given. -/
def FunctionObject.make (code : Code) (globals : DictRef) (globalNames : Table Value)
    (qualname : String) : FunctionObject where
  code := code
  globals := globals
  name := code.name
  qualname := if qualname.isEmpty then code.name else qualname
  defaults := none
  kwDefaults := none
  closure := none
  doc := code.docString
  moduleName := (globalNames.get? moduleNameKey).getD .none
  dict := none
  annotations := none

namespace Store

/-- A new function that captures nothing. -/
def makeFunction (s : Store) (code : Code) (globals : DictRef) (qualname : String) :
    FunctionRef × Store :=
  s.newFunction (.make code globals (s.dict globals) qualname)

/-- A new function that captures the cells, meant to be one for each free variable of the code. -/
def makeClosure (s : Store) (code : Code) (globals : DictRef) (qualname : String)
    (cells : List CellRef) : FunctionRef × Store :=
  s.newFunction
    { FunctionObject.make code globals (s.dict globals) qualname with
      closure := FunctionObject.closureOf cells }

/-! ### The fixed attributes -/

/-- The tuple of a value that is a sequence: a tuple is its own, a list gives a new one of its items
at this moment. -/
def toTuple? (s : Store) : Value → Option (Tuple × Store)
  | .tuple t => some (t, s)
  | .list r => some (s.newTuple (s.list r))
  | _ => none

/-- Read an attribute. Names are new strings and the closure is a new tuple at every read; what is
absent reads as `None`. -/
def getAttribute (s : Store) (f : FunctionRef) (a : Attribute) : Value × Store :=
  let fn := s.function f
  match a with
  | .code => (.code fn.code, s)
  | .defaults => (.ofTuple? fn.defaults, s)
  | .kwDefaults => (.ofDict? fn.kwDefaults, s)
  | .annotations => (.ofDict? fn.annotations, s)
  | .dict => (.ofDict? fn.dict, s)
  | .name => let (t, s) := s.newStr fn.name; (.str t, s)
  | .qualname => let (t, s) := s.newStr fn.qualname; (.str t, s)
  | .doc => (fn.doc, s)
  | .moduleName => (fn.moduleName, s)
  | .globals => (.dict fn.globals, s)
  | .closure =>
    match fn.closure with
    | some cells => let (t, s) := s.newTuple (cells.map .cell); (.tuple t, s)
    | none => (.none, s)

/-- Write an attribute. A code object has to need as many cells as the function has captured. -/
def setAttribute (s : Store) (f : FunctionRef) (a : Attribute) (v : Value) : Except Fault Store :=
  let fn := s.function f
  match a with
  | .code =>
    match v with
    | .code c =>
      if c.freeVarCount = fn.cellCount then .ok (s.setFunction f { fn with code := c })
      else .error (.codeArity fn.name fn.cellCount c.freeVarCount)
    | _ => .error (.wrongKind a v.kind)
  | .defaults =>
    match s.toTuple? v with
    | some (t, s) => .ok (s.setFunction f { fn with defaults := some t })
    | none => .error (.wrongKind a v.kind)
  | .kwDefaults =>
    match v with
    | .dict r => .ok (s.setFunction f { fn with kwDefaults := some r })
    | _ => .error (.wrongKind a v.kind)
  | .annotations =>
    match v with
    | .dict r => .ok (s.setFunction f { fn with annotations := some r })
    | _ => .error (.wrongKind a v.kind)
  | .dict =>
    match v with
    | .dict r => .ok (s.setFunction f { fn with dict := some r })
    | _ => .error (.wrongKind a v.kind)
  | .name =>
    match v with
    | .str t => .ok (s.setFunction f { fn with name := t.text })
    | _ => .error (.wrongKind a v.kind)
  | .qualname =>
    match v with
    | .str t => .ok (s.setFunction f { fn with qualname := t.text })
    | _ => .error (.wrongKind a v.kind)
  | .doc => .ok (s.setFunction f { fn with doc := v })
  | .moduleName => .ok (s.setFunction f { fn with moduleName := v })
  | .globals | .closure => .error .readOnly

/-- Delete an attribute, so that it reads as absent. It may be absent already. -/
def deleteAttribute (s : Store) (f : FunctionRef) (a : Attribute) : Except Fault Store :=
  let fn := s.function f
  match a with
  | .defaults => .ok (s.setFunction f { fn with defaults := none })
  | .kwDefaults => .ok (s.setFunction f { fn with kwDefaults := none })
  | .annotations => .ok (s.setFunction f { fn with annotations := none })
  | .dict => .ok (s.setFunction f { fn with dict := none })
  | .doc => .ok (s.setFunction f { fn with doc := .none })
  | .moduleName => .ok (s.setFunction f { fn with moduleName := .none })
  | .code | .name | .qualname => .error (.notDeletable a)
  | .globals | .closure => .error .readOnly

/-! ### Attributes by name -/

/-- The value of a free-form attribute. -/
def freeAttr? (s : Store) (f : FunctionRef) (name : String) : Option Value :=
  (s.function f).dict.bind fun r => (s.dict r).get? name

/-- Read an attribute by name. -/
def getAttr (s : Store) (f : FunctionRef) (name : String) : Except Fault (Value × Store) :=
  match Attribute.ofName? name with
  | some a => .ok (s.getAttribute f a)
  | none =>
    match s.freeAttr? f name with
    | some v => .ok (v, s)
    | none => .error (.noAttribute name)

/-- Write an attribute by name. -/
def setAttr (s : Store) (f : FunctionRef) (name : String) (v : Value) : Except Fault Store :=
  match Attribute.ofName? name with
  | some a => s.setAttribute f a v
  | none =>
    match (s.function f).dict with
    | some r => .ok (s.setDict r ((s.dict r).insert name v))
    | none =>
      let (r, s) := s.newDict (Table.empty.insert name v)
      .ok (s.modifyFunction f fun fn => { fn with dict := some r })

/-- Delete an attribute by name. -/
def delAttr (s : Store) (f : FunctionRef) (name : String) : Except Fault Store :=
  match Attribute.ofName? name with
  | some a => s.deleteAttribute f a
  | none =>
    match (s.function f).dict with
    | some r =>
      if (s.dict r).contains name then .ok (s.setDict r ((s.dict r).erase name))
      else .error (.noAttribute name)
    | none => .error (.noAttribute name)

/-! ### What the program around may do -/

/-- Replace the closure: one cell for each free variable of the code, where no closure counts as no
cells. -/
def setClosure (s : Store) (f : FunctionRef) (closure : Option (List CellRef)) :
    Except Fault Store :=
  let fn := s.function f
  let cells := closure.getD []
  if cells.length = fn.code.freeVarCount then
    .ok (s.setFunction f { fn with closure := FunctionObject.closureOf cells })
  else
    .error (.closureArity fn.name fn.code.freeVarCount cells.length)

/-- Replace the defaults. -/
def setDefaults (s : Store) (f : FunctionRef) (t : Option Tuple) : Store :=
  s.modifyFunction f fun fn => { fn with defaults := t }

/-- Replace the defaults of keyword parameters. -/
def setKwDefaults (s : Store) (f : FunctionRef) (r : Option DictRef) : Store :=
  s.modifyFunction f fun fn => { fn with kwDefaults := r }

/-- Replace the annotations. -/
def setAnnotations (s : Store) (f : FunctionRef) (r : Option DictRef) : Store :=
  s.modifyFunction f fun fn => { fn with annotations := r }

/-! ### Binding -/

/-- Read the function through an instance: a new bound method, or the function itself when there is
no instance. -/
def bind (s : Store) (f : FunctionRef) (receiver : Value) : Value × Store :=
  if receiver.isNone then (.function f, s)
  else
    let (m, s) := s.newMethod f receiver
    (.method m, s)

/-- Read an attribute of a bound method: its two parts under their own names, and every other
attribute from the function. -/
def getMethodAttr (s : Store) (m : Method) (name : String) : Except Fault (Value × Store) :=
  if name = "__self__" then .ok (m.receiver, s)
  else if name = "__func__" then .ok (.function m.function, s)
  else s.getAttr m.function name

/-! ### Cells -/

/-- The contents of a cell that has to be filled. -/
def cellContents (s : Store) (r : CellRef) : Except Fault Value :=
  match s.cell r with
  | some v => .ok v
  | none => .error .emptyCell

end Store

end Callable
