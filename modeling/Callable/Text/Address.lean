/-!
# Addresses in texts

The texts of objects show where they are, which differs from one run to the next. Where texts are
compared the addresses are hidden: a question mark takes the place of the digits of each.

* `Text.Address.hide` — the text without its addresses.
-/

namespace Callable.Text.Address

/-- Is it a digit of an address? -/
def isDigit (c : Char) : Bool :=
  ('0' ≤ c && c ≤ '9') || ('a' ≤ c && c ≤ 'f') || ('A' ≤ c && c ≤ 'F')

/-- The text with every address hidden. -/
def hide : List Char → List Char
  | ' ' :: 'a' :: 't' :: ' ' :: '0' :: 'x' :: d :: rest =>
    if isDigit d then " at 0x?".toList ++ hide (rest.dropWhile isDigit)
    else ' ' :: hide ('a' :: 't' :: ' ' :: '0' :: 'x' :: d :: rest)
  | c :: rest => c :: hide rest
  | [] => []
termination_by cs => cs.length
decreasing_by
  · have := (List.dropWhile_sublist isDigit (l := rest)).length_le
    simp only [List.length_cons]
    omega
  all_goals simp

end Callable.Text.Address
