import Callable.Error.Exception
import Callable.Json.Basic
import Callable.Trace.Event

/-!
# JSON forms of errors and events

How exception classes, exceptions, errors and trace events are exchanged with other programs. A
class is its name; an exception is a record; an error and an event are an object with one member,
which names the case.

* `toJson` — the form that is written.
* `ofJson?` — the forms that are read: besides the written one a record may be an array of its
  fields, an exception may lack its message, and a class may be the one member of an object, with
  `null`.
-/

namespace Callable

/-! ### Classes and exceptions -/

namespace ExceptionClass

def toJson (c : ExceptionClass) : Json := .str c.name

def ofJson? : Json → Option ExceptionClass
  | .string (some name) => ofName? name
  | .object [(some name, .null)] => ofName? name
  | _ => none

end ExceptionClass

namespace Exception

def toJson (e : Exception) : Json :=
  .obj [("exc_type", e.cls.toJson), ("arg", (e.message.map Json.str).getD .null)]

def ofJson? (j : Json) : Option Exception :=
  match j.fields? ["exc_type", "arg"] with
  | some [some cls, some message] => do
    let cls ← ExceptionClass.ofJson? cls
    let message ← message.optionalText?
    return ⟨cls, message⟩
  | some [some cls, none] => do
    let cls ← ExceptionClass.ofJson? cls
    return ⟨cls, none⟩
  | _ => none

end Exception

namespace RunError

def toJson : RunError → Json
  | internal message => .obj [("Internal", .str message)]
  | raised e => .obj [("Exc", e.toJson)]

def ofJson? (j : Json) : Option RunError :=
  match j.single? with
  | some ("Internal", v) => v.text?.map internal
  | some ("Exc", v) => (Exception.ofJson? v).map raised
  | _ => none

end RunError

/-! ### Events -/

namespace Event

def toJson : Event → Json
  | made name cells defaults =>
    .obj [("MakeFunction",
      .obj [("name", .str name), ("cell_count", .nat cells), ("defaults_count", .nat defaults)])]
  | called name depth =>
    .obj [("Call", .obj [("func_name", .str name), ("depth", .nat depth)])]
  | returned depth ok => .obj [("Return", .obj [("depth", .nat depth), ("ok", .bool ok)])]
  | attrSet name ok => .obj [("AttrSet", .obj [("attr", .str name), ("ok", .bool ok)])]
  | attrDeleted name ok => .obj [("AttrDelete", .obj [("attr", .str name), ("ok", .bool ok)])]
  | bound method => .obj [("Bind", .obj [("bound", .bool method)])]

/-- The fields of a record, all of which have to be there. -/
private def allFields? (names : List String) (j : Json) : Option (List Json) :=
  (j.fields? names).bind fun fields => fields.mapM id

def ofJson? (j : Json) : Option Event := do
  let (case, v) ← j.single?
  match case with
  | "MakeFunction" =>
    match ← allFields? ["name", "cell_count", "defaults_count"] v with
    | [name, cells, defaults] =>
      return made (← name.text?) (← cells.count?) (← defaults.count?)
    | _ => none
  | "Call" =>
    match ← allFields? ["func_name", "depth"] v with
    | [name, depth] => return called (← name.text?) (← depth.count?)
    | _ => none
  | "Return" =>
    match ← allFields? ["depth", "ok"] v with
    | [depth, ok] => return returned (← depth.count?) (← ok.bool?)
    | _ => none
  | "AttrSet" =>
    match ← allFields? ["attr", "ok"] v with
    | [name, ok] => return attrSet (← name.text?) (← ok.bool?)
    | _ => none
  | "AttrDelete" =>
    match ← allFields? ["attr", "ok"] v with
    | [name, ok] => return attrDeleted (← name.text?) (← ok.bool?)
    | _ => none
  | "Bind" =>
    match ← allFields? ["bound"] v with
    | [method] => return bound (← method.bool?)
    | _ => none
  | _ => none

end Event

end Callable
