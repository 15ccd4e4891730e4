import RecordSieve.Number.Binary64
/-!
# RecordSieve.Number.Shortest

The fewest decimal digits that still identify a finite double among all doubles,
and of those the ones nearest to it. The reals that round to a double form an
interval reaching halfway to each neighbour, its ends included when the
significand is even. For one digit, two digits and so on, the two neighbours of
the value on the decimal grid of that many digits are tested against the
interval; the first grid with a hit wins, because if any point of a grid lies in
the interval then one of the value's two neighbours does.
-/

namespace RecordSieve

/-- Which of two equally near neighbours on the grid is taken. -/
inductive DecimalTie
  /-- The neighbour farther from zero. -/
  | away
  /-- The neighbour with an even last digit. -/
  | even
deriving DecidableEq, Repr

/-- Decimal digits without trailing zeros, and the power of ten of the first:
`digits = ['1', '5'], exponent = 3` is 1500. -/
structure Decimal where
  digits : List Char
  exponent : Int
deriving DecidableEq, Repr

namespace Binary64

/-- Twice the ends of the interval of reals that round to a code, and twice its
value, in units of `2 ^ -1074`. -/
structure Basin where
  low : Nat
  value : Nat
  high : Nat
  closed : Bool

/-- The interval of reals that round to the number with a given code. -/
def basin (code : Nat) : Basin where
  low := unitsOfCode (code - 1) + unitsOfCode code
  value := 2 * unitsOfCode code
  high := unitsOfCode code + unitsOfCode (code + 1)
  closed := code % 2 == 0

/-- A decimal grid: the points `c * 10 ^ exponent`. Multiplying both sides by
the powers in a fraction's denominator turns every comparison of a point with a
bound of a basin into one between naturals. -/
structure DecimalGrid where
  exponent : Int

namespace DecimalGrid

/-- A bound of a basin as the numerator of its position on the grid. -/
def numerator (g : DecimalGrid) (bound : Nat) : Nat := bound * Nat.pow 10 (-g.exponent).toNat

/-- The common denominator of positions on the grid. -/
def denominator (g : DecimalGrid) : Nat := Nat.pow 2 1075 * Nat.pow 10 g.exponent.toNat

/-- Whether the point `c` of the grid rounds to the basin's number. -/
def hits (g : DecimalGrid) (b : Basin) (c : Nat) : Bool :=
  let here := c * g.denominator
  if b.closed then decide (g.numerator b.low ≤ here) && decide (here ≤ g.numerator b.high)
  else decide (g.numerator b.low < here) && decide (here < g.numerator b.high)

/-- The last grid point not above the value. -/
def floor (g : DecimalGrid) (b : Basin) : Nat := g.numerator b.value / g.denominator

/-- The point of the grid that identifies the number, if there is one: of the
two neighbours of the value the only one that rounds to it, or the nearer, or by
`tie` when they are equally near. -/
def choose (g : DecimalGrid) (tie : DecimalTie) (b : Basin) : Option Nat :=
  let c := g.floor b
  match g.hits b c, g.hits b (c + 1) with
  | true, true =>
    let below := g.numerator b.value - c * g.denominator
    if 2 * below < g.denominator then some c
    else if g.denominator < 2 * below then some (c + 1)
    else some (match tie with
      | .away => c + 1
      | .even => if c % 2 = 0 then c else c + 1)
  | true, false => some c
  | false, true => some (c + 1)
  | false, false => none

end DecimalGrid

/-- The exponent of the leading decimal digit of a positive number of units: the
number of digits of the value times `10 ^ 342`, which is at least one for every
positive double. -/
def leadingExponent (units : Nat) : Int :=
  ((Nat.toDigits 10 (units * Nat.pow 10 342 / Nat.pow 2 1074)).length : Int) - 343

/-- The digits of a natural number without its trailing zeros. -/
def significantDigits (c : Nat) : List Char :=
  ((Nat.toDigits 10 c).reverse.dropWhile (· == '0')).reverse

/-- The shortest digits of the positive finite number with the given code.
Seventeen digits tell all doubles apart, so the search below always ends with a
hit; were it to fail, the value rounded down to seventeen digits would stand. -/
def shortest (tie : DecimalTie) (code : Nat) : Decimal :=
  let b := basin code
  let p := leadingExponent (unitsOfCode code)
  let attempt (n : Nat) : Option Decimal :=
    let g : DecimalGrid := ⟨p - n⟩
    (g.choose tie b).map fun c =>
      ⟨significantDigits c, p + ((Nat.toDigits 10 c).length : Int) - (n + 1)⟩
  ((List.range 17).findSome? attempt).getD
    ⟨significantDigits (DecimalGrid.floor ⟨p - 16⟩ b), p⟩

end Binary64
end RecordSieve
