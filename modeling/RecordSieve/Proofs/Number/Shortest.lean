import RecordSieve.Proofs.Number.Rounding
/-!
# RecordSieve.Proofs.Number.Shortest

The digits that are printed for a double identify it. Some point of the grid of
seventeen digits lies in the basin of every positive double: the basin is wider than
a step of that grid, because its width is more than the `10 ^ 16`-th part of the value
(`basin_width`) and the grid has more than `10 ^ 16` steps below the value
(`ten_pow_mul_le_units`). So the search always ends with a hit.
-/

namespace RecordSieve
namespace Binary64

/-! ### The width of a basin -/

/-- The value lies inside its basin, which is wide for seventeen digits. -/
theorem basin_width {code : Nat} (hcode : 0 < code) :
    (basin code).low < (basin code).value ∧ (basin code).value < (basin code).high ∧
      (basin code).value + 10 ^ 16 * (basin code).low < 10 ^ 16 * (basin code).high := by
  obtain ⟨k, m, rfl, hm, hk⟩ := exists_significand code
  have hf : 0 < fractions ∧ 4 * fractions < 2 * 10 ^ 16 := by decide
  have hpow := Nat.two_pow_pos k
  rw [basin_value hm hk, basin_high hm hk]
  -- Here too a power of two is the only code with a basin that is not symmetric.
  by_cases hpower : 0 < k ∧ m = fractions
  · obtain ⟨k, rfl⟩ : ∃ j, k = j + 1 := ⟨k - 1, by omega⟩
    obtain rfl := hpower.2
    have hlow := basin_low_power k
    have hwide := Nat.mul_le_mul_right (2 ^ k) (Nat.le_of_lt hf.2)
    have hvalue : 2 * fractions * 2 ^ (k + 1) = 4 * fractions * 2 ^ k := by
      rw [Nat.pow_succ, Nat.mul_comm (2 ^ k), ← Nat.mul_assoc]
      congr 1
    have hhigh : (2 * fractions + 1) * 2 ^ (k + 1) = 4 * fractions * 2 ^ k + 2 * 2 ^ k := by
      rw [Nat.add_mul, hvalue, Nat.pow_succ]
      omega
    rw [hvalue, hhigh]
    have hpow := Nat.two_pow_pos k
    rw [Nat.mul_assoc 2] at hwide
    generalize 4 * fractions * 2 ^ k = v at *
    generalize 2 ^ k = w at *
    omega
  · have hm0 : 0 < m := by
      by_cases h0 : 0 < k
      · have := hk h0
        omega
      · obtain rfl : k = 0 := by omega
        omega
    obtain ⟨m, rfl⟩ : ∃ n, m = n + 1 := ⟨m - 1, by omega⟩
    rw [basin_low (by omega) (by omega)]
    have hwide := Nat.mul_lt_mul_of_pos_right (show m + 1 < 10 ^ 16 by omega) hpow
    simp only [Nat.mul_add, Nat.add_mul, Nat.mul_assoc] at hwide ⊢
    generalize m * 2 ^ k = v at *
    generalize 2 ^ k = w at *
    omega

/-! ### Hits and choices -/

namespace DecimalGrid

theorem denominator_pos (g : DecimalGrid) : 0 < g.denominator := by
  unfold denominator
  generalize 1075 = n
  exact Nat.mul_pos (Nat.pow_pos (by decide)) (Nat.pow_pos (by decide))

/-- A step of a grid is counted in halves of a unit. -/
theorem denominator_eq (g : DecimalGrid) :
    g.denominator = 2 * Nat.pow 2 1074 * Nat.pow 10 g.exponent.toNat := by
  have htwice : ∀ m n, n = m + 1 → Nat.pow 2 n * Nat.pow 10 g.exponent.toNat =
      2 * Nat.pow 2 m * Nat.pow 10 g.exponent.toNat := by
    intro m n h
    subst h
    exact congrArg (· * _) (Nat.mul_comm ..)
  unfold denominator
  exact htwice 1074 1075 rfl

theorem hits_iff {g : DecimalGrid} {b : Basin} {c : Nat} :
    g.hits b c = true ↔ b.Covers (c * g.denominator) (Nat.pow 10 (-g.exponent).toNat) := by
  unfold hits numerator
  cases hb : b.closed
  · simp only [Bool.false_eq_true, if_false, Bool.and_eq_true, decide_eq_true_eq]
    constructor
    · intro h
      exact ⟨Nat.le_of_lt h.1, Nat.le_of_lt h.2, fun _ => h⟩
    · intro h
      exact h.inner hb
  · simp only [if_true, Bool.and_eq_true, decide_eq_true_eq]
    constructor
    · intro h
      exact ⟨h.1, h.2, fun h' => by simp [hb] at h'⟩
    · intro h
      exact ⟨h.low, h.high⟩

/-- The point that is chosen is a hit. -/
theorem hits_of_choose {g : DecimalGrid} {tie : DecimalTie} {b : Basin} {c : Nat}
    (h : g.choose tie b = some c) : g.hits b c = true := by
  unfold choose at h
  simp only at h
  split at h
  · rename_i h0 h1
    have hboth : c = g.floor b ∨ c = g.floor b + 1 := by
      split at h
      · exact .inl (Option.some.inj h).symm
      · split at h
        · exact .inr (Option.some.inj h).symm
        · cases tie with
          | away => exact .inr (Option.some.inj h).symm
          | even =>
            by_cases hc : g.floor b % 2 = 0
            · simp only [hc, if_true] at h
              exact .inl (Option.some.inj h).symm
            · simp only [hc, if_false] at h
              exact .inr (Option.some.inj h).symm
    rcases hboth with rfl | rfl
    · exact h0
    · exact h1
  · rename_i h0 _
    obtain rfl := Option.some.inj h
    exact h0
  · rename_i _ h1
    obtain rfl := Option.some.inj h
    exact h1
  · cases h

/-- There is a choice as soon as one of the neighbours of the value is a hit. -/
theorem exists_choose {g : DecimalGrid} {b : Basin} (tie : DecimalTie)
    (h : g.hits b (g.floor b) = true ∨ g.hits b (g.floor b + 1) = true) :
    ∃ c, g.choose tie b = some c := by
  unfold choose
  simp only
  split
  · split
    · exact ⟨_, rfl⟩
    · split
      · exact ⟨_, rfl⟩
      · exact ⟨_, rfl⟩
  · exact ⟨_, rfl⟩
  · exact ⟨_, rfl⟩
  · rename_i h0 h1
    rw [h0, h1] at h
    rcases h with h | h <;> cases h

/-- A grid that is finer than a basin is wide has a point in it next to the value. -/
theorem exists_choose_of_fine {g : DecimalGrid} {b : Basin} (tie : DecimalTie)
    (hlow : b.low < b.value) (hhigh : b.value < b.high)
    (hfine : g.numerator b.low + g.denominator < g.numerator b.high) :
    ∃ c, g.choose tie b = some c := by
  have hden : 0 < g.denominator := g.denominator_pos
  have hten : 0 < Nat.pow 10 (-g.exponent).toNat := Nat.pow_pos (by decide)
  refine exists_choose tie ?_
  have hl : g.numerator b.low < g.numerator b.value := Nat.mul_lt_mul_of_pos_right hlow hten
  have hh : g.numerator b.value < g.numerator b.high := Nat.mul_lt_mul_of_pos_right hhigh hten
  have hdiv : g.floor b * g.denominator + g.numerator b.value % g.denominator =
      g.numerator b.value := Nat.div_add_mod' _ _
  have hmod := Nat.mod_lt (g.numerator b.value) hden
  have hcovers : ∀ c, g.numerator b.low < c * g.denominator →
      c * g.denominator < g.numerator b.high → g.hits b c = true := fun c h1 h2 =>
    hits_iff.2 ⟨Nat.le_of_lt h1, Nat.le_of_lt h2, fun _ => ⟨h1, h2⟩⟩
  -- The floor of the value is in the basin, or the next point of the grid is, because
  -- less than a step of the grid lies between them.
  by_cases h : g.numerator b.low < g.floor b * g.denominator
  · exact .inl (hcovers _ h (by omega))
  · refine .inr (hcovers _ ?_ ?_)
    · rw [Nat.add_mul]
      omega
    · rw [Nat.add_mul]
      omega

end DecimalGrid

/-! ### Seventeen digits -/

/-- A positive number is at least the power of ten of its first digit. -/
theorem ten_pow_length_le {n : Nat} (hn : 0 < n) : 10 ^ ((Nat.toDigits 10 n).length - 1) ≤ n := by
  by_cases h : (Nat.toDigits 10 n).length - 1 = 0
  · rw [h]
    exact hn
  · have := Nat.length_toDigits_le_iff (n := n) (b := 10) (by decide) (Nat.pos_of_ne_zero h)
    omega

/-- The first digit of the value is where `leadingExponent` says. -/
theorem ten_pow_mul_le_units {units : Nat} (h : 0 < units) :
    10 ^ (leadingExponent units + 342).toNat * Nat.pow 2 1074 ≤ units * Nat.pow 10 342 := by
  have hbig : Nat.pow 2 1074 ≤ Nat.pow 10 342 := by decide +kernel
  have hpos : 0 < Nat.pow 2 1074 := by decide +kernel
  rw [leadingExponent]
  generalize Nat.pow 2 1074 = unit at *
  generalize Nat.pow 10 342 = ten at *
  have hn : 0 < units * ten / unit := Nat.div_pos (Nat.le_trans hbig (Nat.le_mul_of_pos_left _ h)) hpos
  have hlength : 0 < (Nat.toDigits 10 (units * ten / unit)).length := Nat.length_toDigits_pos
  have hle := ten_pow_length_le hn
  rw [show ((Nat.toDigits 10 (units * ten / unit)).length - 343 + 342 : Int).toNat =
    (Nat.toDigits 10 (units * ten / unit)).length - 1 by omega]
  exact (Nat.le_div_iff_mul_le hpos).1 hle

theorem leadingExponent_ge (units : Nat) : -342 ≤ leadingExponent units := by
  have := Nat.length_toDigits_pos (b := 10) (n := units * Nat.pow 10 342 / Nat.pow 2 1074)
  rw [leadingExponent]
  omega

theorem ten_pow_mul_ten_pow {i j k l : Nat} (h : i + j = k + l) :
    Nat.pow 10 i * 10 ^ j = Nat.pow 10 k * 10 ^ l := by
  show 10 ^ i * 10 ^ j = 10 ^ k * 10 ^ l
  rw [← Nat.pow_add, ← Nat.pow_add, h]

/-- A bound with a factor on one side is a bound with what that factor leaves of
another one. -/
theorem mul_le_mul_of_scale {ten down lead rest unit x : Nat}
    (hscale : down * lead = ten * rest) (hten : 0 < ten) (h : lead * unit ≤ x * ten) :
    rest * unit ≤ x * down := by
  have hle := Nat.mul_le_mul_left down h
  rw [← Nat.mul_assoc, hscale, Nat.mul_assoc, Nat.mul_comm x, Nat.mul_left_comm down] at hle
  rw [Nat.mul_comm x]
  exact Nat.le_of_mul_le_mul_left hle hten

/-- The grid of seventeen digits has at least `10 ^ 16` steps below a value. -/
theorem ten_pow_mul_denominator_le {units : Nat} (h : 0 < units) {g : DecimalGrid}
    (hg : g.exponent = leadingExponent units - 16) :
    10 ^ 16 * g.denominator ≤ g.numerator (2 * units) := by
  have hge := leadingExponent_ge units
  have hsplit : (-g.exponent).toNat + (leadingExponent units + 342).toNat =
      342 + (16 + g.exponent.toNat) := by omega
  have hten : ∀ n, 0 < Nat.pow 10 n := fun n => Nat.pow_pos (by decide)
  have hscale := ten_pow_mul_ten_pow hsplit
  have hle := mul_le_mul_of_scale hscale (hten 342) (ten_pow_mul_le_units h)
  rw [DecimalGrid.denominator_eq, DecimalGrid.numerator]
  rw [Nat.pow_add] at hle
  show 10 ^ 16 * (2 * Nat.pow 2 1074 * 10 ^ g.exponent.toNat) ≤ _
  generalize Nat.pow 2 1074 = unit at *
  generalize Nat.pow 10 (-g.exponent).toNat = down at *
  have := Nat.mul_le_mul_left 2 hle
  simp only [Nat.mul_assoc, Nat.mul_comm, Nat.mul_left_comm] at this ⊢
  exact this

/-- What is printed for a positive code is the digits of a hit on some grid. -/
theorem exists_hit_of_shortest (tie : DecimalTie) {code : Nat} (hcode : 0 < code) :
    ∃ g c, DecimalGrid.hits g (basin code) c = true ∧ -358 ≤ g.exponent ∧
      shortest tie code = ⟨significantDigits c, g.exponent + (Nat.toDigits 10 c).length - 1⟩ := by
  obtain ⟨hlow, hhigh, hwide⟩ := basin_width hcode
  have hunits : 0 < unitsOfCode code := by
    have : (basin code).value = 2 * unitsOfCode code := rfl
    omega
  have hge := leadingExponent_ge (unitsOfCode code)
  -- The search ends at seventeen digits if not before.
  have hlast : ∃ c, (⟨leadingExponent (unitsOfCode code) - 16⟩ : DecimalGrid).choose tie
      (basin code) = some c := by
    refine DecimalGrid.exists_choose_of_fine tie hlow hhigh ?_
    have hsteps := ten_pow_mul_denominator_le hunits
      (g := ⟨leadingExponent (unitsOfCode code) - 16⟩) rfl
    have hten : 0 < Nat.pow 10 (-(leadingExponent (unitsOfCode code) - 16)).toNat :=
      Nat.pow_pos (by decide)
    have hscaled := Nat.mul_lt_mul_of_pos_right hwide hten
    rw [Nat.add_mul, Nat.mul_assoc, Nat.mul_assoc] at hscaled
    simp only [DecimalGrid.numerator] at hsteps ⊢
    rw [show (basin code).value = 2 * unitsOfCode code from rfl] at hscaled
    omega
  obtain ⟨c, hc⟩ := hlast
  have hfound : ((List.range 17).findSome? fun (n : Nat) =>
      ((⟨leadingExponent (unitsOfCode code) - n⟩ : DecimalGrid).choose tie (basin code)).map
        fun c => (⟨significantDigits c, leadingExponent (unitsOfCode code) +
          ((Nat.toDigits 10 c).length : Int) - (n + 1)⟩ : Decimal)).isSome = true := by
    rw [List.findSome?_isSome_iff]
    exact ⟨16, by decide, by simp [hc]⟩
  -- What is found was chosen at some number of digits, not always at the last one.
  obtain ⟨d, hd⟩ := Option.isSome_iff_exists.1 hfound
  obtain ⟨n, hn, hattempt⟩ := List.exists_of_findSome?_eq_some hd
  obtain ⟨c, hchoose, rfl⟩ := Option.map_eq_some_iff.1 hattempt
  rw [List.mem_range] at hn
  refine ⟨⟨leadingExponent (unitsOfCode code) - n⟩, c, DecimalGrid.hits_of_choose hchoose, ?_, ?_⟩
  · show -358 ≤ leadingExponent (unitsOfCode code) - n
    omega
  · rw [shortest]
    simp only [hd, Option.getD_some]
    congr 1
    omega

end Binary64
end RecordSieve
