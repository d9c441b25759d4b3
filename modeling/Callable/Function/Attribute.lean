/-!
# The attributes every function has

Eleven attributes are part of what a function is. Some of them only take values of one sort, some
cannot be deleted, and two can be read only; any other attribute of a function is free-form and
lives in a dict of its own (`Callable.Function.Access`).

* `Attribute` — the attributes, `Attribute.all` in their order of definition.
* `Attribute.accepts` — what may be assigned, `Attribute.isDeletable` — what may be deleted.
* `Attribute.ofName?_label` — an attribute is found under its name.
-/

namespace Callable

/-- An attribute that every function has. -/
inductive Attribute where
  | code
  | defaults
  | kwDefaults
  | annotations
  | dict
  | name
  | qualname
  | doc
  | moduleName
  | globals
  | closure
  deriving DecidableEq

/-- What may be assigned to an attribute. -/
inductive Accepted where
  | code
  | sequence
  | dict
  | string
  | anything
  | nothing
  deriving DecidableEq

/-- The sort of value in the words of a refusal. Where anything may be assigned nothing is refused
for its sort, and where nothing may it is refused for another reason, so these two have no words. -/
def Accepted.phrase : Accepted → String
  | code => "a code object"
  | sequence => "a tuple or list object"
  | dict => "a dict object"
  | string => "a string object"
  | anything | nothing => ""

namespace Attribute

/-- All attributes in order of definition. -/
def all : List Attribute :=
  [code, defaults, kwDefaults, annotations, dict, name, qualname, doc, moduleName, globals, closure]

theorem mem_all (a : Attribute) : a ∈ all := by cases a <;> simp [all]

/-- The name under which programs read and write the attribute. -/
def label : Attribute → String
  | code => "__code__"
  | defaults => "__defaults__"
  | kwDefaults => "__kwdefaults__"
  | annotations => "__annotations__"
  | dict => "__dict__"
  | name => "__name__"
  | qualname => "__qualname__"
  | doc => "__doc__"
  | moduleName => "__module__"
  | globals => "__globals__"
  | closure => "__closure__"

/-- The attribute of a name. -/
def ofName? (n : String) : Option Attribute := all.find? fun a => a.label == n

theorem ofName?_label (a : Attribute) : ofName? a.label = some a := by
  cases a <;> decide +kernel

theorem label_of_ofName? {n : String} {a : Attribute} (h : ofName? n = some a) : a.label = n := by
  simpa using List.find?_some h

theorem ofName?_eq_some_iff {n : String} {a : Attribute} : ofName? n = some a ↔ n = a.label :=
  ⟨fun h => (label_of_ofName? h).symm, fun h => h ▸ ofName?_label a⟩

theorem label_injective {a b : Attribute} (h : a.label = b.label) : a = b := by
  have := ofName?_label a
  rw [h, ofName?_label] at this
  exact (Option.some.inj this).symm

/-- What may be assigned. -/
def accepts : Attribute → Accepted
  | code => .code
  | defaults => .sequence
  | kwDefaults | annotations | dict => .dict
  | name | qualname => .string
  | doc | moduleName => .anything
  | globals | closure => .nothing

/-- May anything be assigned at all? -/
def isWritable (a : Attribute) : Bool := a.accepts != .nothing

/-- May the attribute be deleted, so that it reads as absent? -/
def isDeletable : Attribute → Bool
  | defaults | kwDefaults | annotations | dict | doc | moduleName => true
  | code | name | qualname | globals | closure => false

/-- What can be deleted can be written. -/
theorem isWritable_of_isDeletable {a : Attribute} (h : a.isDeletable = true) :
    a.isWritable = true := by
  cases a <;> simp_all [isWritable, accepts, isDeletable]

/-- A truth value in words. -/
private def truth (b : Bool) : String := if b then "true" else "false"

/-- A description of the attribute. -/
def describe (a : Attribute) : String :=
  "Descriptor \x7b name: \"" ++ a.label ++ "\", writable: " ++ truth a.isWritable ++
    ", deletable: " ++ truth a.isDeletable ++ " \x7d"

end Attribute

/-- The name in a function's globals whose value becomes the function's module. -/
def moduleNameKey : String := "__name__"

end Callable
