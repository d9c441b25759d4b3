import Callable.Float.Binary64

/-!
# The shortest decimal that reads back

Among the decimals that a reader rounds to a given positive number, the shortest is the one on the
coarsest decimal grid: the largest power of ten of which some multiple lies in the interval of
numbers that round to the given one. Of two multiples in the interval the nearer is taken, and of
two equally near the greater.

All arithmetic is exact, on whole numbers of quarter units of the last binary place, so that the
ends of the interval, half a unit away (a quarter below a power of two), are whole numbers too.

* `Span` — the interval of numbers that read back.
* `Span.pick` — the chosen point of one grid, if the grid has a point in the interval.
* `Span.above` — where the search starts, on a grid too coarse to have a point in the interval.
* `Binary64.shortest` — the search from there down. On the finest grid the number itself is a point,
  so the search always ends with an answer.
-/

namespace Callable

/-- A decimal number `digits * 10 ^ exponent`. -/
structure Decimal where
  digits : Nat
  exponent : Int
  deriving DecidableEq

/-- The numbers that read back as a given one: from `low` to `high` around `value`, all three in
units of `2 ^ unit`, and whether the two ends belong to them. -/
structure Span where
  low : Nat
  value : Nat
  high : Nat
  unit : Int
  closed : Bool

namespace Span

/-- `scale n p q` is `n * 10 ^ p * 2 ^ q`, without the factors of negative exponent. -/
def scale (n : Nat) (p q : Int) : Nat := n * Nat.pow 10 p.toNat * Nat.pow 2 q.toNat

/-- The largest multiple of `10 ^ k` that is at most the value. -/
def floor (s : Span) (k : Int) : Nat :=
  scale s.value (-k) s.unit / scale 1 k (-s.unit)

/-- Does `c * 10 ^ k` read back as the value? -/
def contains (s : Span) (c : Nat) (k : Int) : Bool :=
  let point := scale c k (-s.unit)
  let low := scale s.low (-k) s.unit
  let high := scale s.high (-k) s.unit
  if s.closed then low ≤ point && point ≤ high else low < point && point < high

/-- Is `c * 10 ^ k` nearer to the value than `(c + 1) * 10 ^ k`? -/
def lowerIsNearer (s : Span) (c : Nat) (k : Int) : Bool :=
  2 * scale s.value (-k) s.unit < scale (2 * c + 1) k (-s.unit)

/-- The multiple of `10 ^ k` to write, if one reads back: the two around the value are tried. -/
def pick (s : Span) (k : Int) : Option Nat :=
  let c := s.floor k
  match s.contains c k, s.contains (c + 1) k with
  | true, true => some (if s.lowerIsNearer c k then c else c + 1)
  | true, false => some c
  | false, true => some (c + 1)
  | false, false => none

/-- The finest grid in use. Every finite number is a multiple of `2 ^ -1074`, hence of
`10 ^ -1074`. -/
def finest : Int := -1074

/-- The first grid with a point, from the `n`-th above the finest down. -/
def coarsest (s : Span) : Nat → Decimal
  | 0 => ⟨s.floor finest, finest⟩
  | n + 1 =>
    let k := finest + (n + 1 : Nat)
    match s.pick k with
    | some c => ⟨c, k⟩
    | none => s.coarsest n

/-- A power of ten above the span, whose grid therefore has no point in it. The span ends below
`2 ^ b` for the number `b` of its upper end's binary digits, counted from the point, and the
logarithm of 2 to the base 10 is `1233 / 4096` to five places. -/
def above (s : Span) : Int :=
  let b := s.high.log2 + 1 + s.unit
  b * 1233 / 4096 + 2

end Span

namespace Binary64

/-- The numbers that round to a finite positive one. Below a power of two the grid of binary numbers
is twice as fine, so the lower end is nearer there; a tie rounds to the even significand. -/
def span (x : Binary64) : Span :=
  let m := x.significand
  let narrow := x.fraction = 0 ∧ 1 < x.exponentField
  { low := 4 * m - (if narrow then 1 else 2)
    value := 4 * m
    high := 4 * m + 2
    unit := x.exponent - 2
    closed := m % 2 == 0 }

/-- The shortest decimal that reads back as the magnitude of a finite number other than zero. -/
def shortest (x : Binary64) : Decimal :=
  let s := x.span
  s.coarsest (s.above - Span.finest).toNat

end Binary64

end Callable
