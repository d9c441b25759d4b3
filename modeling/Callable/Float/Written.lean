import Callable.Float.Shortest
import Callable.Text.Numeral

/-!
# Written form of floating point numbers

The digits are those of the shortest decimal that reads back. They are written positionally, with at
least one digit on each side of the point, as long as the number is at least `10 ^ -4` and below
`10 ^ 16`; outside that range with one digit before the point and a power of ten, which has neither
padding nor a plus sign, and without a point when there is only one digit.

* `Binary64.render` — the written form.
-/

namespace Callable.Binary64

/-- Is a number with leading digit at `10 ^ e` written positionally? -/
def isPositional (e : Int) : Bool := -4 ≤ e && e < 16

/-- Digits with the point after the first `n` of them, filled up with zeros on either side. -/
def pointAfter (digits : List Char) (n : Int) : List Char :=
  if n ≤ 0 then
    ['0', '.'] ++ List.replicate (-n).toNat '0' ++ digits
  else if n.toNat < digits.length then
    digits.take n.toNat ++ ['.'] ++ digits.drop n.toNat
  else
    digits ++ List.replicate (n.toNat - digits.length) '0' ++ ['.', '0']

/-- Digits with the point after the first, and the power of ten of that first digit. -/
def withPower (digits : List Char) (e : Int) : List Char :=
  let fraction := if digits.length ≤ 1 then [] else '.' :: digits.drop 1
  let sign := if e < 0 then ['-'] else []
  digits.take 1 ++ fraction ++ ['e'] ++ sign ++ Text.decimal e.natAbs

/-- The written form of a decimal. -/
def renderDecimal (d : Decimal) : List Char :=
  let digits := Text.decimal d.digits
  let e := d.exponent + digits.length - 1
  if isPositional e then pointAfter digits (e + 1) else withPower digits e

/-- The written form of a number. A NaN has no sign, a zero keeps its own. -/
def render (x : Binary64) : List Char :=
  let sign := if x.isNegative then ['-'] else []
  if x.isNaN then ['N', 'a', 'N']
  else if x.isInfinite then sign ++ ['i', 'n', 'f']
  else if x.isZero then sign ++ ['0', '.', '0']
  else sign ++ renderDecimal x.shortest

example : render ⟨0x3FF0000000000000⟩ = "1.0".toList := by decide +kernel
example : render ⟨0x8000000000000000⟩ = "-0.0".toList := by decide +kernel
example : render ⟨0x3FB999999999999A⟩ = "0.1".toList := by decide +kernel
example : render ⟨0x4341C37937E08000⟩ = "1e16".toList := by decide +kernel
example : render ⟨0x0000000000000001⟩ = "5e-324".toList := by decide +kernel
example : render ⟨0x7FEFFFFFFFFFFFFF⟩ = "1.7976931348623157e308".toList := by decide +kernel

end Callable.Binary64
