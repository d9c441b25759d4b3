/-!
# Binary floating point numbers of 64 bits

A number is its bit pattern: one sign bit, eleven bits of exponent, fifty-two of fraction. Nothing
here computes with numbers; they are stored, told apart, compared and printed.

* Two numbers are the *same* when their patterns are, so a NaN is the same as itself and the two
  zeros differ. This is equality of the type.
* `Binary64.ieeeEq` is comparison by value: NaN differs from everything, the two zeros agree.
* `Binary64.significand`, `Binary64.exponent` — a finite number is
  `significand * 2 ^ exponent`, with its sign.
-/

namespace Callable

/-- A floating point number, by its bit pattern. -/
structure Binary64 where
  bits : UInt64
  deriving DecidableEq

namespace Binary64

/-- The sign bit. -/
def isNegative (x : Binary64) : Bool := Nat.pow 2 63 ≤ x.bits.toNat

/-- The pattern without its sign. -/
def magnitude (x : Binary64) : Nat := x.bits.toNat % Nat.pow 2 63

/-- The eleven bits of the exponent, as they are stored. -/
def exponentField (x : Binary64) : Nat := x.magnitude / Nat.pow 2 52

/-- The fifty-two bits of the fraction. -/
def fraction (x : Binary64) : Nat := x.magnitude % Nat.pow 2 52

/-- A NaN has the largest exponent and some fraction. -/
def isNaN (x : Binary64) : Bool := x.exponentField == 2047 && x.fraction != 0

/-- An infinity has the largest exponent and no fraction. -/
def isInfinite (x : Binary64) : Bool := x.exponentField == 2047 && x.fraction == 0

/-- One of the two zeros. -/
def isZero (x : Binary64) : Bool := x.magnitude == 0

/-- The significand as a whole number. The smallest exponent has no leading bit of its own. -/
def significand (x : Binary64) : Nat :=
  if x.exponentField = 0 then x.fraction else x.fraction + Nat.pow 2 52

/-- The power of two by which the significand counts. -/
def exponent (x : Binary64) : Int :=
  if x.exponentField = 0 then -1074 else (x.exponentField : Int) - 1075

/-- Comparison by value: a NaN equals nothing, and the two zeros are equal. -/
def ieeeEq (x y : Binary64) : Bool :=
  !x.isNaN && !y.isNaN && (x == y || (x.isZero && y.isZero))

/-- A number equals itself exactly when it is a number. -/
theorem ieeeEq_self (x : Binary64) : x.ieeeEq x = !x.isNaN := by
  simp [ieeeEq]

theorem ieeeEq_comm (x y : Binary64) : x.ieeeEq y = y.ieeeEq x := by
  rw [Bool.eq_iff_iff]
  simp only [ieeeEq]
  grind

theorem ieeeEq_trans {x y z : Binary64} (hxy : x.ieeeEq y = true) (hyz : y.ieeeEq z = true) :
    x.ieeeEq z = true := by
  simp only [ieeeEq, Bool.and_eq_true, Bool.or_eq_true, beq_iff_eq, Bool.not_eq_true'] at *
  obtain ⟨⟨hx, _⟩, h⟩ := hxy
  obtain ⟨⟨_, hz⟩, k⟩ := hyz
  refine ⟨⟨hx, hz⟩, ?_⟩
  rcases h with rfl | ⟨h, h'⟩
  · exact k
  · rcases k with rfl | ⟨_, k⟩
    · exact .inr ⟨h, h'⟩
    · exact .inr ⟨h, k⟩

end Binary64

end Callable
