import Callable.Text.GraphemeExtend
import Callable.Text.Numeral
import Callable.Text.Printable

/-!
# Quoted text

Strings are shown between double quotes, each character on its own: a few have a short escape of
two characters, a character that would not show as itself is written by its code point between
braces, and all others stand for themselves.

* `Quoted.isShownByCode` — the characters written by their code point.
* `Quoted.escape` — the written form of one character.
* `Quoted.encode` — the written form of a text, quotes included.
* `Quoted.head?_escape_ne_quote` — no written character begins with a bare quote, so a bare quote
  where a character should begin is the closing one.
-/

namespace Callable.Text.Quoted

/-- A code point between braces, in lower case hexadecimal without leading zeros. -/
def codePoint (c : Char) : List Char :=
  ['\\', 'u', '\x7b'] ++ hexadecimal c.toNat ++ ['\x7d']

/-- Is this a half-width katakana voicing mark? Both extend the grapheme before them, yet each is a
letter with a cell of its own and leaves its neighbour's look alone. -/
def isHalfwidthVoicing (c : Char) : Bool :=
  c.toNat == 0xff9e || c.toNat == 0xff9f

/-- Is the character shown by its code point? So it is if it would not show as itself, or would be
drawn on top of its neighbour. -/
def isShownByCode (c : Char) : Bool :=
  !isPrintable c || (isGraphemeExtend c && !isHalfwidthVoicing c)

/-- The written form of one character inside double quotes. The single quote needs no escape. -/
def escape (c : Char) : List Char :=
  match c with
  | '\x00' => ['\\', '0']
  | '\t' => ['\\', 't']
  | '\r' => ['\\', 'r']
  | '\n' => ['\\', 'n']
  | '\\' => ['\\', '\\']
  | '"' => ['\\', '"']
  | c => if isShownByCode c then codePoint c else [c]

/-- The written form of a text: its characters' written forms between double quotes. -/
def encode (cs : List Char) : List Char :=
  ['"'] ++ cs.flatMap escape ++ ['"']

theorem escape_ne_nil (c : Char) : escape c ≠ [] := by
  unfold escape
  split <;> try simp
  split <;> simp [codePoint]

/-- A written character never starts with a bare quote. -/
theorem head?_escape_ne_quote (c : Char) : (escape c).head? ≠ some '"' := by
  unfold escape
  split <;> try simp
  rename_i h
  split
  · simp [codePoint]
  · simpa using h

example : encode "a\"b".toList = "\"a\\\"b\"".toList := by decide +kernel

example : encode [Char.ofNat 0x200b] = "\"\\u\x7b200b\x7d\"".toList := by decide +kernel

/-- A combining accent is shown by its code point, a voicing mark by itself. -/
example : escape (Char.ofNat 0x301) = "\\u\x7b301\x7d".toList ∧
    escape (Char.ofNat 0xff9e) = [Char.ofNat 0xff9e] := by
  decide +kernel

end Callable.Text.Quoted
