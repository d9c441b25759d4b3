/-!
# Numerals

Whole numbers in the two notations in use: decimal with a minus sign, and hexadecimal in lower case.
-/

namespace Callable.Text

/-- The decimal digits of a natural number. -/
def decimal (n : Nat) : List Char := Nat.toDigits 10 n

/-- The decimal form of an integer. -/
def signedDecimal (n : Int) : List Char :=
  if n < 0 then '-' :: decimal n.natAbs else decimal n.natAbs

/-- The hexadecimal digits of a natural number, in lower case. -/
def hexadecimal (n : Nat) : List Char := Nat.toDigits 16 n

/-- The decimal form of a natural number as a string. -/
def count (n : Nat) : String := String.ofList (decimal n)

end Callable.Text
