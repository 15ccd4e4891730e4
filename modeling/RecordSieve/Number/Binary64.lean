/-!
# RecordSieve.Number.Binary64

Double-precision numbers by their IEEE 754 encoding: a sign and the low 63 bits
read as one natural number, the *magnitude code*. For numbers of one sign the
order of the codes is the order of the values, so every comparison here is a
comparison of integers:

* `key` orders by value; both zeros have the key 0;
* `totalKey` orders all encodings, the two zeros and the NaNs included, and is the
  order that `compare` decides.

The value of a finite number is `units / 2 ^ 1074`, a whole number of the
smallest positive double, which lets rounding and printing stay in `Nat`.
-/

namespace RecordSieve

/-- A double-precision number: its sign bit and its other 63 bits. -/
structure Binary64 where
  /-- The sign bit. -/
  negative : Bool
  /-- Exponent field and fraction field as one number. -/
  magnitude : Nat
  magnitude_lt : magnitude < 0x8000000000000000
deriving DecidableEq

namespace Binary64

instance : Inhabited Binary64 := ⟨⟨false, 0, by decide⟩⟩

/-- The code of infinity: all exponent bits set and an empty fraction. Larger
codes are NaNs. -/
def infinityCode : Nat := 0x7FF0000000000000

/-- The number with the given 64-bit encoding. -/
def ofBits (n : Nat) : Binary64 :=
  ⟨decide (n / 0x8000000000000000 % 2 = 1), n % 0x8000000000000000, Nat.mod_lt _ (by decide)⟩

/-- The 64-bit encoding. -/
def bits (x : Binary64) : Nat :=
  (if x.negative then 0x8000000000000000 else 0) + x.magnitude

/-- A number of the given sign and magnitude code; codes past infinity's become
infinity's. -/
def ofCode (negative : Bool) (code : Nat) : Binary64 :=
  ⟨negative, min code infinityCode, by
    have : infinityCode < 0x8000000000000000 := by decide
    omega⟩

/-- Positive zero. -/
def zero : Binary64 := ⟨false, 0, by decide⟩

/-- Infinity of the given sign. -/
def infinity (negative : Bool) : Binary64 := ofCode negative infinityCode

/-- The quiet NaN with an empty payload. -/
def nan : Binary64 := ⟨false, infinityCode + 0x8000000000000, by decide⟩

/-- Not a number. -/
def isNaN (x : Binary64) : Bool := decide (infinityCode < x.magnitude)

/-- Neither infinite nor NaN. -/
def isFinite (x : Binary64) : Bool := decide (x.magnitude < infinityCode)

/-- The number with the opposite sign. -/
def neg (x : Binary64) : Binary64 := { x with negative := !x.negative }

instance : Neg Binary64 := ⟨neg⟩

/-- The bit of the fraction field that tells a quiet NaN from a signalling one. -/
def quietBit : Nat := 0x8000000000000

/-- A signalling NaN as the quiet one with its sign and payload; every other number
as it is. -/
def quiet (x : Binary64) : Binary64 :=
  if h : x.isNaN = true ∧ x.magnitude / quietBit % 2 = 0 then
    ⟨x.negative, x.magnitude + quietBit, by
      have := x.magnitude_lt
      have := h.2
      unfold quietBit at *
      omega⟩
  else x

/-- The sum with positive zero: both zeros are positive zero and NaNs are quiet; every
other number is as it was. -/
def plusZero (x : Binary64) : Binary64 := if x.magnitude = 0 then zero else x.quiet

/-- The number of values of the fraction field, `2 ^ 52`. -/
def fractions : Nat := 0x10000000000000

/-- The value of a magnitude code in units of `2 ^ -1074`. Codes below `2 ^ 52`
are subnormal and are their own value; above, each step of the exponent field
doubles the unit. -/
def unitsOfCode (code : Nat) : Nat :=
  if code < fractions then code
  else (fractions + code % fractions) * Nat.pow 2 (code / fractions - 1)

/-- The absolute value of a finite number in units of `2 ^ -1074`. -/
def units (x : Binary64) : Nat := unitsOfCode x.magnitude

/-! ### Order by value -/

/-- An integer ordered like the values; equal for the two zeros. -/
def key (x : Binary64) : Int := if x.negative then -(x.magnitude : Int) else x.magnitude

/-- Numeric equality: zeros are equal, a NaN equals nothing. -/
def numEq (x y : Binary64) : Bool := !x.isNaN && !y.isNaN && decide (x.key = y.key)

/-- The order of two values, or nothing when one of them is a NaN. -/
def compare? (x y : Binary64) : Option Ordering :=
  if x.isNaN || y.isNaN then none else some (compare x.key y.key)

theorem isNaN_quiet (x : Binary64) : x.quiet.isNaN = x.isNaN := by
  unfold quiet
  split
  · rename_i h
    have hnan : infinityCode < x.magnitude := of_decide_eq_true h.1
    rw [h.1]
    exact decide_eq_true (Nat.lt_of_lt_of_le hnan (Nat.le_add_right _ _))
  · rfl

theorem quiet_of_not_isNaN {x : Binary64} (h : x.isNaN = false) : x.quiet = x := by
  rw [quiet, dif_neg]
  exact fun hnan => Bool.false_ne_true (h.symm.trans hnan.1)

/-- A NaN is no zero. -/
theorem plusZero_of_isNaN {x : Binary64} (h : x.isNaN = true) : x.plusZero = x.quiet := by
  rw [plusZero, if_neg]
  intro hzero
  simp [isNaN, hzero] at h

@[simp] theorem isNaN_plusZero (x : Binary64) : x.plusZero.isNaN = x.isNaN := by
  unfold plusZero
  split
  · rename_i h
    simp [isNaN, zero, h]
  · exact isNaN_quiet x

/-- Adding zero leaves a value as it is. -/
theorem key_plusZero {x : Binary64} (h : x.isNaN = false) : x.plusZero.key = x.key := by
  rw [plusZero, quiet_of_not_isNaN h]
  split
  · rename_i hzero
    simp [key, zero, hzero]
  · rfl

/-! ### Order of all encodings -/

/-- An integer that tells all encodings apart: negative NaNs, then negative
numbers, then -0.0, 0.0, the positive numbers and the positive NaNs. -/
def totalKey (x : Binary64) : Int :=
  if x.negative then -(x.magnitude : Int) - 1 else x.magnitude

/-- Numbers with one total key are the same number. -/
theorem totalKey_inj {x y : Binary64} (h : x.totalKey = y.totalKey) : x = y := by
  obtain ⟨sx, mx, _⟩ := x
  obtain ⟨sy, my, _⟩ := y
  simp only [totalKey] at h
  cases sx <;> cases sy <;> simp_all <;> omega

instance : Ord Binary64 := ⟨compareOn totalKey⟩

instance : Std.TransOrd Binary64 := inferInstanceAs (Std.TransCmp (compareOn totalKey))

instance : Std.LawfulEqOrd Binary64 where
  eq_of_compare h := totalKey_inj (Std.LawfulEqOrd.eq_of_compare h)

/-- Away from NaN, equal values are equal encodings once zero is added to them. -/
theorem numEq_iff_plusZero {x y : Binary64} (hx : x.isNaN = false) (hy : y.isNaN = false) :
    x.numEq y = true ↔ x.plusZero = y.plusZero := by
  rw [plusZero, plusZero, quiet_of_not_isNaN hx, quiet_of_not_isNaN hy]
  obtain ⟨sx, mx, _⟩ := x
  obtain ⟨sy, my, _⟩ := y
  simp only [numEq, hx, hy, key, zero, Bool.not_false, Bool.true_and, decide_eq_true_eq]
  constructor
  · intro h
    by_cases h1 : mx = 0 <;> by_cases h2 : my = 0 <;> cases sx <;> cases sy <;>
      simp_all <;> omega
  · intro h
    by_cases h1 : mx = 0 <;> by_cases h2 : my = 0 <;> cases sx <;> cases sy <;>
      simp_all

/-! ### Encodings -/

@[simp] theorem bits_ofBits (n : Nat) (h : n < 0x10000000000000000) : (ofBits n).bits = n := by
  simp only [ofBits, bits, decide_eq_true_eq]
  split <;> omega

end Binary64
end RecordSieve
