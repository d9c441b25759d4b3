import Callable.Json.Basic

/-!
# Reading JSON

A reader takes a value off the front of a list of characters and answers what is left. The grammar
is the standard's: no comma after the last item, no zero before other digits, no control character
inside a string.

Strings are read in two steps: `Reader.pieces` takes the literal apart into characters and escaped
code units, and `Reader.joinPieces` puts pairs of units together, which fails where a unit is half
of a pair without the other half.

* `Json.parse?` — the value that a whole text spells.
-/

namespace Callable.Json

namespace Reader

/-- Blanks that may stand between tokens. -/
def isBlank (c : Char) : Bool := c == ' ' || c == '\n' || c == '\t' || c == '\r'

/-- The characters after the blanks at the front. -/
def skipBlanks (cs : List Char) : List Char := cs.dropWhile isBlank

/-! ### Strings -/

/-- A piece of a string literal: a character, or a code unit given by its number. -/
inductive Piece where
  | char (c : Char)
  | unit (n : Nat)

/-- The value of a hexadecimal digit. -/
def hexDigit? (c : Char) : Option Nat :=
  if '0' ≤ c ∧ c ≤ '9' then some (c.toNat - '0'.toNat)
  else if 'a' ≤ c ∧ c ≤ 'f' then some (c.toNat - 'a'.toNat + 10)
  else if 'A' ≤ c ∧ c ≤ 'F' then some (c.toNat - 'A'.toNat + 10)
  else none

/-- The code unit of four hexadecimal digits. -/
def unit? (a b c d : Char) : Option Nat := do
  let a ← hexDigit? a
  let b ← hexDigit? b
  let c ← hexDigit? c
  let d ← hexDigit? d
  return ((a * 16 + b) * 16 + c) * 16 + d

/-- The character of an escape of two characters. -/
def simpleEscape? : Char → Option Char
  | '"' => some '"'
  | '\\' => some '\\'
  | '/' => some '/'
  | 'b' => some (Char.ofNat 8)
  | 'f' => some (Char.ofNat 12)
  | 'n' => some '\n'
  | 'r' => some '\r'
  | 't' => some '\t'
  | _ => none

/-- The pieces of a string literal whose opening quote was read, and what follows its closing one.
-/
def pieces : List Char → Option (List Piece × List Char)
  | [] => none
  | '"' :: rest => some ([], rest)
  | '\\' :: 'u' :: a :: b :: c :: d :: rest => do
    let n ← unit? a b c d
    let (ps, rest) ← pieces rest
    return (.unit n :: ps, rest)
  | '\\' :: e :: rest => do
    let c ← simpleEscape? e
    let (ps, rest) ← pieces rest
    return (.char c :: ps, rest)
  | c :: rest =>
    if c.toNat < 32 ∨ c = '\\' then none
    else do
      let (ps, rest) ← pieces rest
      return (.char c :: ps, rest)

/-- Is it the first half of a surrogate pair? -/
def isHigh (n : Nat) : Bool := 0xD800 ≤ n && n ≤ 0xDBFF

/-- Is it the second half of a surrogate pair? -/
def isLow (n : Nat) : Bool := 0xDC00 ≤ n && n ≤ 0xDFFF

/-- The text of the pieces, if the units among them make one up. -/
def joinPieces : List Piece → Option (List Char)
  | [] => some []
  | .char c :: ps => (joinPieces ps).map (c :: ·)
  | .unit n :: .unit m :: ps =>
    if isHigh n then
      if isLow m then
        (joinPieces ps).map (Char.ofNat (0x10000 + (n - 0xD800) * 0x400 + (m - 0xDC00)) :: ·)
      else none
    else if isLow n then none
    else (joinPieces (.unit m :: ps)).map (Char.ofNat n :: ·)
  | .unit n :: ps =>
    if isHigh n || isLow n then none else (joinPieces ps).map (Char.ofNat n :: ·)

/-- A string whose opening quote was read. -/
def string (cs : List Char) : Option (Option String × List Char) :=
  (pieces cs).map fun (ps, rest) => ((joinPieces ps).map String.ofList, rest)

/-! ### Numbers -/

/-- The digits at the front. -/
def digits (cs : List Char) : List Char × List Char :=
  (cs.takeWhile Char.isDigit, cs.dropWhile Char.isDigit)

/-- The whole part of a number: a zero, or digits that do not begin with one. -/
def whole : List Char → Option (List Char × List Char)
  | '0' :: rest => some (['0'], rest)
  | cs =>
    match digits cs with
    | ([], _) => none
    | (ds, rest) => some (ds, rest)

/-- The fraction of a number, if there is one. -/
def fraction : List Char → Option (List Char × List Char)
  | '.' :: cs =>
    match digits cs with
    | ([], _) => none
    | (ds, rest) => some ('.' :: ds, rest)
  | cs => some ([], cs)

/-- The sign of a power, if there is one. -/
def powerSign : List Char → List Char × List Char
  | '+' :: cs => (['+'], cs)
  | '-' :: cs => (['-'], cs)
  | cs => ([], cs)

/-- The power of ten of a number, if there is one. -/
def power : List Char → Option (List Char × List Char)
  | [] => some ([], [])
  | e :: cs =>
    if e = 'e' ∨ e = 'E' then
      let (sign, cs) := powerSign cs
      match digits cs with
      | ([], _) => none
      | (ds, rest) => some (e :: sign ++ ds, rest)
    else some ([], e :: cs)

/-- A number without its sign. -/
def unsigned (cs : List Char) : Option (List Char × List Char) := do
  let (w, cs) ← whole cs
  let (f, cs) ← fraction cs
  let (p, cs) ← power cs
  return (w ++ f ++ p, cs)

/-- A number. -/
def number : List Char → Option (String × List Char)
  | '-' :: cs => (unsigned cs).map fun (ds, rest) => (String.ofList ('-' :: ds), rest)
  | cs => (unsigned cs).map fun (ds, rest) => (String.ofList ds, rest)

/-! ### Values -/

/-- The characters after a given beginning. -/
def expect (token : List Char) (cs : List Char) : Option (List Char) :=
  if token.isPrefixOf cs then some (cs.drop token.length) else none

/-- The name of a member and its colon. -/
def memberName (cs : List Char) : Option (Option String × List Char) :=
  match skipBlanks cs with
  | '"' :: cs => do
    let (name, cs) ← string cs
    match skipBlanks cs with
    | ':' :: cs => return (name, cs)
    | _ => none
  | _ => none

mutual

/-- A value. The number bounds the tokens still to come; every one takes at least one character. -/
def value : Nat → List Char → Option (Json × List Char)
  | 0, _ => none
  | n + 1, cs =>
    match skipBlanks cs with
    | [] => none
    | '"' :: cs => (string cs).map fun (s, cs) => (.string s, cs)
    | '[' :: cs =>
      match skipBlanks cs with
      | ']' :: cs => some (.array [], cs)
      | cs => (items n cs).map fun (vs, cs) => (.array vs, cs)
    | '\x7b' :: cs =>
      match skipBlanks cs with
      | '\x7d' :: cs => some (.object [], cs)
      | cs => (members n cs).map fun (ms, cs) => (.object ms, cs)
    | 'n' :: _ => (expect "null".toList (skipBlanks cs)).map (.null, ·)
    | 't' :: _ => (expect "true".toList (skipBlanks cs)).map (.bool true, ·)
    | 'f' :: _ => (expect "false".toList (skipBlanks cs)).map (.bool false, ·)
    | cs => (number cs).map fun (s, cs) => (.number s, cs)

/-- The items of an array that has some, up to the closing bracket. -/
def items : Nat → List Char → Option (List Json × List Char)
  | 0, _ => none
  | n + 1, cs => do
    let (v, cs) ← value n cs
    match skipBlanks cs with
    | ',' :: cs =>
      let (vs, cs) ← items n cs
      return (v :: vs, cs)
    | ']' :: cs => return ([v], cs)
    | _ => none

/-- The members of an object that has some, up to the closing brace. -/
def members : Nat → List Char → Option (List (Option String × Json) × List Char)
  | 0, _ => none
  | n + 1, cs => do
    let (name, cs) ← memberName cs
    let (v, cs) ← value n cs
    match skipBlanks cs with
    | ',' :: cs =>
      let (ms, cs) ← members n cs
      return ((name, v) :: ms, cs)
    | '\x7d' :: cs => return ([(name, v)], cs)
    | _ => none

end

end Reader

/-- The value that a whole text spells, with blanks around it. -/
def parse? (text : String) : Option Json :=
  let cs := text.toList
  match Reader.value (cs.length + 1) cs with
  | some (v, rest) => if (Reader.skipBlanks rest).isEmpty then some v else none
  | none => none

end Callable.Json
