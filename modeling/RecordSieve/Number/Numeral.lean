import RecordSieve.Number.Rounding
/-!
# RecordSieve.Number.Numeral

Reading a number written in decimal: an optional sign, digits with at most one
point and at least one digit around it, and an optional exponent; or a sign and
one of the names `inf`, `infinity` and `nan` in any letter case. The result is
the nearest double, so a numeral too large for one reads as infinity.
-/

namespace RecordSieve
namespace Numeral

/-- The natural number a run of decimal digits denotes. -/
def digitsValue (ds : List Char) : Nat :=
  ds.foldl (fun n c => 10 * n + (c.toNat - 48)) 0

/-- A leading sign, if there is one: whether it is a minus, and what follows. -/
def readSign : List Char → Bool × List Char
  | '+' :: cs => (false, cs)
  | '-' :: cs => (true, cs)
  | cs => (false, cs)

/-- The exponent that a numeral ends with: zero if nothing is left, otherwise
`e`, an optional sign and one digit or more up to the end. -/
def readExponent : List Char → Option Int
  | [] => some 0
  | c :: cs =>
    if c = 'e' ∨ c = 'E' then
      let (negative, ds) := readSign cs
      if ds.isEmpty || !ds.all Char.isDigit then none
      else some (if negative then -(digitsValue ds : Int) else digitsValue ds)
    else none

/-- The digits of a fraction and what follows them; none without a point. -/
def readFraction : List Char → List Char × List Char
  | '.' :: cs => (cs.takeWhile Char.isDigit, cs.dropWhile Char.isDigit)
  | cs => ([], cs)

/-- An unsigned decimal as coefficient and exponent of ten. -/
def readDecimal (cs : List Char) : Option (Nat × Int) :=
  let whole := cs.takeWhile Char.isDigit
  let (fraction, rest) := readFraction (cs.dropWhile Char.isDigit)
  if whole.isEmpty && fraction.isEmpty then none
  else (readExponent rest).map fun e => (digitsValue (whole ++ fraction), e - fraction.length)

/-- The values that are written by name. -/
def readName (negative : Bool) (cs : List Char) : Option Binary64 :=
  let name := cs.map Char.toLower
  if name = "inf".toList ∨ name = "infinity".toList then some (.infinity negative)
  else if name = "nan".toList then some .nan
  else none

/-- The double a whole text denotes, or nothing when it is no numeral. -/
def read? (cs : List Char) : Option Binary64 :=
  let (negative, body) := readSign cs
  match readDecimal body with
  | some (m, e) => some (.ofDecimal negative m e)
  | none => readName negative body

end Numeral
end RecordSieve
