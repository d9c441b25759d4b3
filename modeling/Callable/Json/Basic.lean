/-!
# JSON values

A value as it is written: numbers keep their spelling, and objects the order of their members, with
repeated names. A string literal can spell code units that make up no text (one half of a surrogate
pair); such a string is a value without a text.

* `Json` — the values.
* `Json.fields?` — the fields of a record, in either of the two forms in which records are accepted.
-/

namespace Callable

/-- A value as it is written. -/
inductive Json where
  | null
  | bool (b : Bool)
  | number (spelling : String)
  | string (text : Option String)
  | array (items : List Json)
  | object (members : List (Option String × Json))

instance : Inhabited Json := ⟨.null⟩

namespace Json

/-- The string of a text. -/
def str (s : String) : Json := .string (some s)

/-- The numeral of a natural number. -/
def nat (n : Nat) : Json := .number (toString n)

/-- An object with the given members. -/
def obj (members : List (String × Json)) : Json := .object (members.map fun m => (some m.1, m.2))

/-- The text of a string that has one. -/
def text? : Json → Option String
  | .string (some s) => some s
  | _ => none

/-- A truth value. -/
def bool? : Json → Option Bool
  | .bool b => some b
  | _ => none

/-- A count: a numeral of digits alone, below `2 ^ 64`. -/
def count? : Json → Option Nat
  | .number spelling =>
    match spelling.toNat? with
    | some n => if n < Nat.pow 2 64 then some n else none
    | none => none
  | _ => none

/-- A text or `null`, which stands for its absence. -/
def optionalText? : Json → Option (Option String)
  | .null => some none
  | .string (some s) => some (some s)
  | _ => none

/-- The values under a name. -/
def under (name : String) (members : List (Option String × Json)) : List Json :=
  (members.filter fun m => m.1 == some name).map Prod.snd

/-- The value of a field: a name may occur once or be missing, but not be repeated. -/
def field? (members : List (Option String × Json)) (name : String) : Option (Option Json) :=
  match under name members with
  | [] => some none
  | [v] => some (some v)
  | _ => none

/-- The fields of a record with the given names. An object may leave out fields, in any order, and
have members that are none of the record's; an array lists all fields in their order. -/
def fields? (names : List String) : Json → Option (List (Option Json))
  | .object members =>
    if members.all (fun m => m.1.isSome) then names.mapM (field? members) else none
  | .array items => if items.length = names.length then some (items.map some) else none
  | _ => none

/-- The one member of an object that has exactly one. -/
def single? : Json → Option (String × Json)
  | .object [(some name, v)] => some (name, v)
  | _ => none

end Json

end Callable
