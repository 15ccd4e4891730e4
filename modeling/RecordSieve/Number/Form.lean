import RecordSieve.Number.Shortest
/-!
# RecordSieve.Number.Form

Writing a double: its shortest digits laid out by a `NumberForm`, the record of
everything the two written formats decide differently.

* `NumberForm.clause` is how a clause writes a number: never an exponent, no
  point in a whole number.
* `NumberForm.json` is how a record writes one: a point in every whole number,
  an exponent outside `1e-5 ≤ |x| < 1e16`.
-/

namespace RecordSieve

/-- The decisions of one way of writing numbers. -/
structure NumberForm where
  /-- The least exponent written positionally; all small ones if absent. -/
  least : Option Int
  /-- The first exponent too large to be written positionally, if any. -/
  bound : Option Int
  /-- Whether a whole number written positionally ends in `.0`. -/
  wholePoint : Bool
  /-- Which digits stand for a value halfway between two candidates. -/
  tie : DecimalTie
  /-- The text of the values without digits. -/
  nanText : String
  /-- The text of positive infinity. -/
  infinityText : String

namespace NumberForm

/-- Numbers inside a clause. -/
def clause : NumberForm where
  least := none
  bound := none
  wholePoint := false
  tie := .away
  nanText := "NaN"
  infinityText := "inf"

/-- Numbers inside a record. JSON has no NaN and no infinity; `null` stands for
them. -/
def json : NumberForm where
  least := some (-5)
  bound := some 16
  wholePoint := true
  tie := .even
  nanText := "null"
  infinityText := "null"

/-- Whether an exponent is written positionally. -/
def isPositional (f : NumberForm) (p : Int) : Bool :=
  f.least.all (fun lo => decide (lo ≤ p)) && f.bound.all (fun hi => decide (p < hi))

/-- Digits around a point, with zeros where the value has no digits. -/
def positional (f : NumberForm) (d : Decimal) : List Char :=
  let n := d.digits.length
  if d.exponent < 0 then
    '0' :: '.' :: (List.replicate (d.exponent.natAbs - 1) '0' ++ d.digits)
  else
    let whole := d.exponent.toNat + 1
    if n ≤ whole then
      d.digits ++ List.replicate (whole - n) '0' ++ (if f.wholePoint then ['.', '0'] else [])
    else d.digits.take whole ++ '.' :: d.digits.drop whole

/-- One digit, the others after a point, and the exponent with its sign. -/
def scientific (d : Decimal) : List Char :=
  let exponent := 'e' :: (if d.exponent < 0 then '-' else '+') :: Nat.toDigits 10 d.exponent.natAbs
  match d.digits with
  | [c] => c :: exponent
  | c :: cs => c :: '.' :: (cs ++ exponent)
  | [] => exponent

/-- The text of a non-negative number by its code. -/
def renderCode (f : NumberForm) (code : Nat) : List Char :=
  if code = 0 then f.positional ⟨['0'], 0⟩
  else
    let d := Binary64.shortest f.tie code
    if f.isPositional d.exponent then f.positional d else scientific d

/-- The text of a number. A NaN has no sign. -/
def render (f : NumberForm) (x : Binary64) : List Char :=
  if x.isNaN then f.nanText.toList
  else
    let body := if x.isFinite then f.renderCode x.magnitude else f.infinityText.toList
    if x.negative then '-' :: body else body

end NumberForm
end RecordSieve
