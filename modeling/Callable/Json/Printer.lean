import Callable.Json.Basic
import Callable.Text.Numeral

/-!
# Writing JSON

The compact form, without blanks. In strings the quote, the backslash and the control characters are
escaped, by a letter where there is one and else by four hexadecimal digits; everything else stands
for itself.

* `Json.render` — the written form of a value.
-/

namespace Callable.Json

/-- Four hexadecimal digits of a code unit. -/
def fourDigits (n : Nat) : List Char :=
  let digits := Text.hexadecimal n
  List.replicate (4 - digits.length) '0' ++ digits

/-- A code unit by its number. -/
def unitEscape (n : Nat) : List Char := ['\\', 'u'] ++ fourDigits n

/-- The written form of one character of a string. -/
def escape (c : Char) : List Char :=
  match c with
  | '"' => ['\\', '"']
  | '\\' => ['\\', '\\']
  | '\n' => ['\\', 'n']
  | '\r' => ['\\', 'r']
  | '\t' => ['\\', 't']
  | c =>
    if c.toNat = 8 then ['\\', 'b']
    else if c.toNat = 12 then ['\\', 'f']
    else if c.toNat < 32 then unitEscape c.toNat
    else [c]

/-- The written form of a string. One without a text is written as half of a surrogate pair. -/
def renderText : Option String → List Char
  | some s => ['"'] ++ s.toList.flatMap escape ++ ['"']
  | none => ['"'] ++ unitEscape 0xD800 ++ ['"']

mutual

/-- The written form of a value. -/
def render : Json → List Char
  | .null => "null".toList
  | .bool true => "true".toList
  | .bool false => "false".toList
  | .number spelling => spelling.toList
  | .string text => renderText text
  | .array [] => ['[', ']']
  | .array (v :: vs) => ['['] ++ render v ++ renderItems vs ++ [']']
  | .object [] => ['\x7b', '\x7d']
  | .object ((name, v) :: ms) =>
    ['\x7b'] ++ renderText name ++ [':'] ++ render v ++ renderMembers ms ++ ['\x7d']

/-- The items after the first, a comma before each. -/
def renderItems : List Json → List Char
  | [] => []
  | v :: vs => [','] ++ render v ++ renderItems vs

/-- The members after the first, a comma before each. -/
def renderMembers : List (Option String × Json) → List Char
  | [] => []
  | (name, v) :: ms => [','] ++ renderText name ++ [':'] ++ render v ++ renderMembers ms

end

/-- The written form of a value as a string. -/
def print (v : Json) : String := String.ofList v.render

end Callable.Json
