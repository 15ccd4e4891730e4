import Mathlib.Algebra.Ring.Nat
import RecordSieve.Number.Rounding
import RecordSieve.Number.Shortest
/-!
# RecordSieve.Proofs.Number.Rounding

The basin of a double is what rounds to it. A finite code is written as
`k * 2 ^ 52 + m`, with a significand `m` below `2 ^ 53` that is at least `2 ^ 52`
unless `k` is zero, and its value is `m * 2 ^ k` units (`unitsOfCode_add`). A ratio
within half a step of that value has the digits to be cut off that `codeOfRatio`
counts, and rounds to that significand (`codeOfRatio_eq`). The step below a power of
two is half as wide, so there the count may be one less, and the significand is
carried into the exponent.
-/

namespace RecordSieve
namespace Binary64

/-! ### The value of a code -/

/-- The value of a code from its significand. The bound is met by the significand
that carries. -/
theorem unitsOfCode_add {k m : Nat} (hm : m ≤ 2 * fractions) (hk : 0 < k → fractions ≤ m) :
    unitsOfCode (k * fractions + m) = m * 2 ^ k := by
  have hf : 0 < fractions := by decide
  by_cases hsmall : m < fractions
  · have h0 : k = 0 := by
      by_cases h : 0 < k
      · exact absurd (hk h) (by omega)
      · omega
    subst h0
    simp [unitsOfCode, hsmall]
  -- A full significand carries: it is the smallest one of the next exponent.
  · by_cases htop : m = 2 * fractions
    · subst htop
      have hcode : k * fractions + 2 * fractions = (k + 2) * fractions := (Nat.add_mul ..).symm
      have hlow : ¬(k + 2) * fractions < fractions := by
        have := Nat.mul_le_mul_right fractions (show 1 ≤ k + 2 by omega)
        omega
      rw [hcode, unitsOfCode, if_neg hlow, Nat.mul_mod_left, Nat.mul_div_cancel _ hf]
      show (fractions + 0) * 2 ^ (k + 1) = 2 * fractions * 2 ^ k
      rw [Nat.pow_succ]
      rw [Nat.add_zero, Nat.mul_comm (2 ^ k), Nat.mul_assoc, Nat.mul_left_comm]
    · obtain ⟨r, rfl⟩ : ∃ r, m = fractions + r := ⟨m - fractions, by omega⟩
      have hr : r < fractions := by omega
      have hcode : k * fractions + (fractions + r) = r + (k + 1) * fractions := by
        rw [Nat.add_mul]
        omega
      have hlow : ¬r + (k + 1) * fractions < fractions := by
        have := Nat.mul_le_mul_right fractions (show 1 ≤ k + 1 by omega)
        omega
      rw [hcode, unitsOfCode, if_neg hlow, Nat.add_mul_mod_self_right, Nat.mod_eq_of_lt hr,
        Nat.add_mul_div_right _ _ hf, Nat.div_eq_of_lt hr]
      simp

/-- Every code has an exponent and a significand. -/
theorem exists_significand (code : Nat) :
    ∃ k m, code = k * fractions + m ∧ m < 2 * fractions ∧ (0 < k → fractions ≤ m) := by
  have hf : 0 < fractions := by decide
  by_cases h : code < fractions
  · exact ⟨0, code, by omega, by omega, by omega⟩
  · have hdiv : 1 ≤ code / fractions := (Nat.le_div_iff_mul_le hf).2 (by omega)
    have hcode := Nat.div_add_mod' code fractions
    have hmod := Nat.mod_lt code hf
    refine ⟨code / fractions - 1, fractions + code % fractions, ?_, by omega, by omega⟩
    rw [Nat.sub_mul]
    have := Nat.mul_le_mul_right fractions hdiv
    omega

/-! ### Rounding within half a step -/

/-- A ratio within half of a natural number rounds to it; an odd number loses the
ties. -/
theorem nearestEven_eq {num den m : Nat} (hden : 0 < den)
    (hlow : (2 * m) * den ≤ 2 * num + den) (hhigh : 2 * num ≤ (2 * m + 1) * den)
    (hodd : m % 2 = 1 → (2 * m) * den < 2 * num + den ∧ 2 * num < (2 * m + 1) * den) :
    nearestEven num den = m := by
  have hdiv := Nat.div_add_mod' num den
  have hlt := Nat.mod_lt num hden
  unfold nearestEven
  generalize num / den = q at *
  generalize num % den = r at *
  subst hdiv
  -- The quotient is the number or the one below it.
  have hcases : m = q ∨ m = q + 1 := by
    have h1 : m < q + 2 := by
      by_cases h : m < q + 2
      · exact h
      · have := Nat.mul_le_mul_right den (show 2 * (q + 2) ≤ 2 * m by omega)
        simp only [Nat.mul_add, Nat.add_mul, Nat.mul_assoc] at *
        omega
    have h2 : q < m + 1 := by
      by_cases h : q < m + 1
      · exact h
      · have := Nat.mul_le_mul_right den (show 2 * (m + 1) ≤ 2 * q by omega)
        simp only [Nat.mul_add, Nat.add_mul, Nat.mul_assoc] at *
        omega
    omega
  simp only
  rcases hcases with rfl | rfl
  · simp only [Nat.add_mul, Nat.mul_add, Nat.mul_assoc] at *
    split
    · rfl
    · rw [if_neg (by omega)]
      by_cases h : m % 2 = 1
      · have := hodd h
        omega
      · omega
  · simp only [Nat.add_mul, Nat.mul_add, Nat.mul_assoc] at *
    rw [if_neg (by omega)]
    split
    · rfl
    · by_cases h : (q + 1) % 2 = 1
      · have := hodd h
        omega
      · omega

/-- The code of a ratio of which it is known how many digits are cut off and what
the others round to. -/
theorem codeOfRatio_eq {num den scaled k m : Nat} (hscaled : num * Nat.pow 2 1074 = scaled)
    (hden : 0 < den) (hbelow : scaled < 2 ^ (53 + k) * den)
    (habove : 0 < k → 2 ^ (52 + k) * den ≤ scaled)
    (hm : nearestEven scaled (den * 2 ^ k) = m) :
    codeOfRatio num den = k * fractions + m := by
  have hk : (scaled / den).log2 - 52 = k := by
    have hlt : scaled / den < 2 ^ (53 + k) := (Nat.div_lt_iff_lt_mul hden).2 hbelow
    by_cases h : 0 < k
    · have hle : 2 ^ (52 + k) ≤ scaled / den := (Nat.le_div_iff_mul_le hden).2 (habove h)
      have hne : scaled / den ≠ 0 := by
        have := Nat.two_pow_pos (52 + k)
        omega
      have := (Nat.log2_eq_iff hne).2 ⟨hle, by rwa [show 52 + k + 1 = 53 + k by omega]⟩
      omega
    · by_cases hz : scaled / den = 0
      · rw [hz, show Nat.log2 0 = 0 by decide]
        omega
      · have := (Nat.log2_lt hz).2 hlt
        omega
  rw [codeOfRatio, hscaled]
  simp only [hk]
  exact congrArg _ hm

/-! ### The basin of a code -/

/-- Whether the ratio `twice / den` of twice a value lies in a basin. -/
structure Basin.Covers (b : Basin) (twice den : Nat) : Prop where
  low : b.low * den ≤ twice
  high : twice ≤ b.high * den
  inner : b.closed = false → b.low * den < twice ∧ twice < b.high * den

theorem basin_high {k m : Nat} (hm : m < 2 * fractions) (hk : 0 < k → fractions ≤ m) :
    (basin (k * fractions + m)).high = (2 * m + 1) * 2 ^ k := by
  simp only [basin]
  rw [Nat.add_assoc, unitsOfCode_add (by omega) hk,
    unitsOfCode_add (by omega) (by omega), ← Nat.add_mul]
  congr 1
  omega

/-- The step below a code is as wide as the one above, except below a power of two. -/
theorem basin_low {k m : Nat} (hm : m + 1 < 2 * fractions) (hk : 0 < k → fractions ≤ m) :
    (basin (k * fractions + (m + 1))).low = (2 * m + 1) * 2 ^ k := by
  simp only [basin]
  rw [show k * fractions + (m + 1) - 1 = k * fractions + m by omega,
    unitsOfCode_add (by omega) hk, unitsOfCode_add (by omega) (by omega), ← Nat.add_mul]
  congr 1
  omega

/-- Below a power of two the step is half as wide. -/
theorem basin_low_power (k : Nat) :
    (basin ((k + 1) * fractions + fractions)).low + 2 ^ k = 4 * fractions * 2 ^ k := by
  have hf : 0 < fractions := by decide
  have hbefore : (k + 1) * fractions + fractions - 1 = k * fractions + (2 * fractions - 1) := by
    rw [Nat.add_mul]
    omega
  have hhere : (k + 1) * fractions + fractions = k * fractions + 2 * fractions := by
    rw [Nat.add_mul]
    omega
  simp only [basin]
  rw [hbefore, hhere, unitsOfCode_add (by omega) (by omega),
    unitsOfCode_add (by omega) (by omega), ← Nat.add_mul, ← Nat.succ_mul]
  congr 1

theorem basin_closed {k m : Nat} : (basin (k * fractions + m)).closed = false ↔ m % 2 = 1 := by
  have hmod : (k * fractions + m) % 2 = m % 2 := by
    rw [Nat.add_mod, Nat.mul_mod, show fractions % 2 = 0 by decide]
    simp
  show ((k * fractions + m) % 2 == 0) = false ↔ _
  rw [hmod]
  simp

theorem basin_value {k m : Nat} (hm : m < 2 * fractions) (hk : 0 < k → fractions ≤ m) :
    (basin (k * fractions + m)).value = 2 * m * 2 ^ k := by
  simp only [basin]
  rw [unitsOfCode_add (by omega) hk, Nat.mul_assoc]

/-- The powers of two that bound the digits before the cut, in steps. -/
theorem two_pow_mul (k den : Nat) :
    2 ^ (53 + k) * den = 2 * (fractions * (den * 2 ^ k)) ∧
      2 ^ (52 + k) * den = fractions * (den * 2 ^ k) := by
  have h53 : 2 ^ 53 = 2 * fractions := by decide
  have h52 : 2 ^ 52 = fractions := by decide
  rw [Nat.pow_add, Nat.pow_add, h53, h52]
  simp only [Nat.mul_assoc, Nat.mul_comm, Nat.mul_left_comm, and_self]

/-- Around a power of two the significand is that power if the ratio is not below
it, and otherwise all ones, or rounded up from there into the exponent. -/
theorem codeOfRatio_of_covers_power {k num den scaled : Nat}
    (hscaled : num * Nat.pow 2 1074 = scaled) (hden : 0 < den)
    (h : (basin ((k + 1) * fractions + fractions)).Covers (2 * scaled) den) :
    codeOfRatio num den = (k + 1) * fractions + fractions := by
  have hf : fractions % 2 = 0 ∧ 1 ≤ fractions := by decide
  have hhigh := h.high
  rw [basin_high (by omega) (by omega), Nat.mul_assoc, Nat.mul_comm (2 ^ _)] at hhigh
  have hlow : 4 * fractions * (den * 2 ^ k) ≤ 2 * scaled + den * 2 ^ k := by
    rw [Nat.mul_comm den, ← Nat.mul_assoc, ← basin_low_power k, Nat.add_mul]
    exact Nat.add_le_add_right h.low _
  have hstep : 0 < den * 2 ^ k := Nat.mul_pos hden (Nat.two_pow_pos k)
  have hwide : den * 2 ^ (k + 1) = 2 * (den * 2 ^ k) := by
    rw [Nat.pow_succ, Nat.mul_comm (2 ^ k), Nat.mul_left_comm]
  have hmany := Nat.mul_le_mul_right (den * 2 ^ k) hf.2
  -- The two sides of a power of two have steps of different width, so the digits that
  -- are cut off are counted on each side for itself.
  by_cases hge : fractions * (den * 2 ^ (k + 1)) ≤ scaled
  · refine codeOfRatio_eq hscaled hden ?_ ?_
      (nearestEven_eq (by omega) ?_ hhigh fun hodd => by omega)
    · rw [(two_pow_mul (k + 1) den).1]
      rw [hwide] at hge hhigh ⊢
      simp only [Nat.add_mul, Nat.mul_assoc, Nat.mul_left_comm fractions 2] at *
      omega
    · intro _
      rw [(two_pow_mul (k + 1) den).2]
      exact hge
    · simp only [Nat.add_mul, Nat.mul_assoc] at *
      omega
  · have hcarry : (k + 1) * fractions + fractions = k * fractions + 2 * fractions := by
      rw [Nat.add_mul]
      omega
    rw [hcarry]
    rw [hwide] at hge
    refine codeOfRatio_eq hscaled hden ?_ ?_
      (nearestEven_eq hstep ?_ ?_ fun hodd => by omega)
    · rw [(two_pow_mul k den).1]
      simp only [Nat.add_mul, Nat.mul_assoc, Nat.mul_left_comm fractions 2] at *
      omega
    · intro _
      rw [(two_pow_mul k den).2]
      simp only [Nat.add_mul, Nat.mul_assoc] at *
      omega
    · simp only [Nat.add_mul, Nat.mul_assoc] at *
      omega
    · simp only [Nat.add_mul, Nat.mul_assoc, Nat.mul_left_comm fractions 2] at *
      omega

/-- A ratio in the basin of a positive code rounds to that code. -/
theorem codeOfRatio_of_covers {code num den scaled : Nat}
    (hscaled : num * Nat.pow 2 1074 = scaled) (hden : 0 < den) (hcode : 0 < code)
    (h : (basin code).Covers (2 * scaled) den) : codeOfRatio num den = code := by
  obtain ⟨k, m, rfl, hm, hk⟩ := exists_significand code
  have hhigh := h.high
  rw [basin_high hm hk, Nat.mul_assoc, Nat.mul_comm (2 ^ k)] at hhigh
  -- Only at a power of two is the basin narrower below the value than above it.
  by_cases hpower : 0 < k ∧ m = fractions
  · obtain ⟨k, rfl⟩ : ∃ j, k = j + 1 := ⟨k - 1, by omega⟩
    obtain rfl := hpower.2
    exact codeOfRatio_of_covers_power hscaled hden h
  · have hm0 : 0 < m := by
      by_cases h0 : 0 < k
      · have := hk h0
        have : 0 < fractions := by decide
        omega
      · obtain rfl : k = 0 := by omega
        omega
    obtain ⟨m, rfl⟩ : ∃ n, m = n + 1 := ⟨m - 1, by omega⟩
    have hlow := h.low
    have hinner := h.inner
    rw [basin_low (by omega) (by omega), Nat.mul_assoc, Nat.mul_comm (2 ^ k)] at hlow
    rw [basin_closed, basin_low (by omega) (by omega), basin_high hm hk] at hinner
    simp only [Nat.mul_assoc, Nat.mul_comm (2 ^ k)] at hinner
    have hstep : 0 < den * 2 ^ k := Nat.mul_pos hden (Nat.two_pow_pos k)
    refine codeOfRatio_eq hscaled hden ?_ ?_ (nearestEven_eq hstep ?_ hhigh ?_)
    · rw [(two_pow_mul k den).1]
      have := Nat.mul_le_mul_right (den * 2 ^ k) (show 2 * (m + 1) + 2 ≤ 4 * fractions by omega)
      simp only [Nat.mul_add, Nat.add_mul, Nat.mul_assoc] at *
      omega
    · intro h0
      rw [(two_pow_mul k den).2]
      have := hk h0
      have := Nat.mul_le_mul_right (den * 2 ^ k) (show fractions ≤ m by omega)
      simp only [Nat.mul_add, Nat.add_mul, Nat.mul_assoc] at *
      omega
    · simp only [Nat.mul_add, Nat.add_mul, Nat.mul_assoc] at *
      omega
    · intro hodd
      have := hinner hodd
      simp only [Nat.mul_add, Nat.add_mul, Nat.mul_assoc] at *
      omega

end Binary64
end RecordSieve
