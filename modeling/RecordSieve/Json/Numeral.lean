import RecordSieve.Json.Value
import RecordSieve.Number.Numeral
/-!
# RecordSieve.Json.Numeral

Numbers of a JSON text. An integer that fits 64 bits, signed or unsigned, is kept
exactly; every other number becomes a double.

The double is computed in two steps, each rounded: the leading digits that fit an
unsigned 64-bit integer become a double, which is then multiplied or divided by
the power of ten that is left. Up to 15 digits and powers up to 22 this is the
nearest double; beyond that it can be off by one in the last place.
-/

namespace RecordSieve
namespace Json

/-- The parts of a number's text. -/
structure NumeralParts where
  negative : Bool
  /-- The digits before the point. -/
  whole : List Char
  /-- The digits after the point; none without a point. -/
  fraction : List Char
  /-- The exponent, if one is written. -/
  exponent : Option Int

/-- The largest integer kept exactly. -/
def largestInteger : Nat := 0xFFFFFFFFFFFFFFFF

/-- Reads digits into a number while it stays within `largestInteger`: the
number, and how many digits went into it. -/
def gather : Nat → List Char → Nat × Nat
  | acc, [] => (acc, 0)
  | acc, c :: cs =>
    let next := 10 * acc + (c.toNat - 48)
    if next ≤ largestInteger then
      let (n, used) := gather next cs
      (n, used + 1)
    else (acc, 0)

/-- A power of ten as a double. -/
def powerOfTen (k : Nat) : Binary64 := .ofDecimal false 1 k

/-- `significand * 10 ^ e` in double arithmetic. Below the table of powers the
value is first divided by its last entry; what is still below after that is
zero. A result past the largest double is an error. -/
def scale (significand : Nat) (e : Int) : Option Binary64 :=
  let f := Binary64.ofInt significand
  if significand = 0 then some .zero
  else if 308 < e then none
  else if 0 ≤ e then
    let x := f.times (powerOfTen e.toNat)
    if x.isFinite then some x else none
  else if -308 ≤ e then some (f.dividedBy (powerOfTen e.natAbs))
  else if -616 ≤ e then some ((f.dividedBy (powerOfTen 308)).dividedBy (powerOfTen (e + 308).natAbs))
  else some .zero

/-- The double that the parts of a number denote. -/
def NumeralParts.toBinary64? (p : NumeralParts) : Option Binary64 :=
  let (s, used) := gather 0 p.whole
  let (s, usedFraction) := gather s p.fraction
  let e : Int := (p.whole.length - used : Nat) - (usedFraction : Int) + p.exponent.getD 0
  (scale s e).map fun x => if p.negative then -x else x

/-- The number that the parts denote. `-0` is the double negative zero. -/
def NumeralParts.toNumber? (p : NumeralParts) : Option JsonNumber :=
  let n := Numeral.digitsValue p.whole
  if p.fraction.isEmpty && p.exponent.isNone &&
      (if p.negative then decide (0 < n) && decide (n ≤ 0x8000000000000000) else decide (n ≤ largestInteger))
  then some (.integer (if p.negative then -(n : Int) else n))
  else p.toBinary64?.map .double

/-- The digits of a fraction and the rest; a point needs a digit after it. -/
def readFraction : List Char → Option (List Char × List Char)
  | '.' :: cs =>
    let ds := cs.takeWhile Char.isDigit
    if ds.isEmpty then none else some (ds, cs.dropWhile Char.isDigit)
  | cs => some ([], cs)

/-- An exponent and the rest; a mark needs a digit after it. -/
def readExponent : List Char → Option (Option Int × List Char)
  | [] => some (none, [])
  | c :: cs =>
    if c = 'e' ∨ c = 'E' then
      let (negative, cs) := Numeral.readSign cs
      let ds := cs.takeWhile Char.isDigit
      if ds.isEmpty then none
      else
        let n : Int := Numeral.digitsValue ds
        some (some (if negative then -n else n), cs.dropWhile Char.isDigit)
    else some (none, c :: cs)

/-- Reads a number and the text after it. A leading zero stands alone. -/
def readNumber (cs : List Char) : Option (JsonNumber × List Char) := do
  let (negative, cs) := match cs with
    | '-' :: r => (true, r)
    | r => (false, r)
  let whole := cs.takeWhile Char.isDigit
  if whole.isEmpty || (decide (1 < whole.length) && whole.head? == some '0') then none
  else
    let (fraction, cs) ← readFraction (cs.dropWhile Char.isDigit)
    let (exponent, cs) ← readExponent cs
    let n ← NumeralParts.toNumber? ⟨negative, whole, fraction, exponent⟩
    return (n, cs)

end Json
end RecordSieve
