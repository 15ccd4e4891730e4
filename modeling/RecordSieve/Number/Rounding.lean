import RecordSieve.Number.Binary64
/-!
# RecordSieve.Number.Rounding

The double nearest to an exact value, ties going to the even significand. An
exact value is a ratio of two naturals (`ofRatio`) or a decimal `m * 10 ^ e`
(`ofDecimal`); products and quotients of doubles (`times`, `dividedBy`) are rounded
ratios of their units. All of it is exact arithmetic on `Nat`.
-/

namespace RecordSieve
namespace Binary64

/-- The natural number nearest to `num / den`; a half goes to the even one. -/
def nearestEven (num den : Nat) : Nat :=
  let q := num / den
  let r := num % den
  if 2 * r < den then q
  else if den < 2 * r then q + 1
  else q + q % 2

/-- The magnitude code nearest to `num / den`.

With the value in units of `2 ^ -1074`, `k` is the number of binary digits it has
beyond 53, so the significand is the value divided by `2 ^ k` and rounded. In the
code one step of `k` is one step of the exponent field, and a significand that
rounds up to `2 ^ 53` carries into that field as it should. Subnormal values are
the case `k = 0`. -/
def codeOfRatio (num den : Nat) : Nat :=
  let scaled := num * Nat.pow 2 1074
  let k := (scaled / den).log2 - 52
  k * fractions + nearestEven scaled (den * Nat.pow 2 k)

/-- The double nearest to `num / den`, or infinity past the largest one. -/
def ofRatio (negative : Bool) (num den : Nat) : Binary64 :=
  ofCode negative (codeOfRatio num den)

/-- The double nearest to `m * 10 ^ e`. Exponents so large or so small that the
result is infinity or zero whatever the digits say are settled without computing
the power. -/
def ofDecimal (negative : Bool) (m : Nat) (e : Int) : Binary64 :=
  if m = 0 then ofCode negative 0
  else if 400 < e then infinity negative
  else if 0 ≤ e then ofRatio negative (m * Nat.pow 10 e.toNat) 1
  else if m.log2 + 400 < e.natAbs then ofCode negative 0
  else ofRatio negative m (Nat.pow 10 e.natAbs)

/-- The double nearest to an integer. -/
def ofInt (n : Int) : Binary64 :=
  ofRatio (decide (n < 0)) n.natAbs 1

/-- The product of two non-negative finite doubles, rounded. -/
def times (x y : Binary64) : Binary64 :=
  ofRatio false (x.units * y.units) (Nat.pow 2 2148)

/-- The quotient of two non-negative finite doubles, the second positive,
rounded. -/
def dividedBy (x y : Binary64) : Binary64 :=
  ofRatio false x.units y.units

end Binary64
end RecordSieve
