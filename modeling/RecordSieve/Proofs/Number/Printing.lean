import RecordSieve.Number.Form
import RecordSieve.Proofs.Number.Numeral
import RecordSieve.Proofs.Number.Shortest
/-!
# RecordSieve.Proofs.Number.Printing

A number that a clause prints is read back as the same double. The printed text has
no exponent, so reading it is reading digits around a point (`readDecimal_positional`);
the coefficient and the power of ten that are read name the same ratio as the hit that
was printed, and the ratio of a hit rounds to the number it is a hit of.
-/

namespace RecordSieve
namespace Numeral

open Text (takeWhile_append dropWhile_append)

/-! ### The value of digits -/

theorem digitsValue_append (xs ys : List Char) :
    digitsValue (xs ++ ys) = 10 ^ ys.length * digitsValue xs + digitsValue ys :=
  (Nat.ofDigitChars_append 0).trans Nat.ofDigitChars_eq_ofDigitChars_zero

theorem digitsValue_zeros (n : Nat) : digitsValue (List.replicate n '0') = 0 :=
  Nat.ofDigitChars_replicate_zero

theorem digitsValue_toDigits (n : Nat) : digitsValue (Nat.toDigits 10 n) = n :=
  Nat.ofDigitChars_ten_toDigits

theorem isDigits_toDigits (n : Nat) : IsDigits (Nat.toDigits 10 n) :=
  fun _ hc => Nat.isDigit_of_mem_toDigits (by decide) (by decide) hc

theorem isDigits_zeros (n : Nat) : IsDigits (List.replicate n '0') := by
  intro c hc
  rw [List.eq_of_mem_replicate hc]
  decide

theorem IsDigits.append {xs ys : List Char} (hx : IsDigits xs) (hy : IsDigits ys) :
    IsDigits (xs ++ ys) := by
  intro c hc
  rcases List.mem_append.1 hc with hc | hc
  · exact hx c hc
  · exact hy c hc

/-! ### Reading digits around a point -/

theorem IsDigits.takeWhile {ds : List Char} (h : IsDigits ds) :
    ds.takeWhile Char.isDigit = ds := by
  have hnil : ∀ c ∈ ([] : List Char).head?, Char.isDigit c = false := nofun
  have htake := takeWhile_append h hnil
  rwa [List.append_nil] at htake

theorem IsDigits.dropWhile {ds : List Char} (h : IsDigits ds) :
    ds.dropWhile Char.isDigit = [] := by
  have hnil : ∀ c ∈ ([] : List Char).head?, Char.isDigit c = false := nofun
  have hdrop := dropWhile_append h hnil
  rwa [List.append_nil] at hdrop

/-- Digits alone are a whole number. -/
theorem readDecimal_whole {ds : List Char} (hds : IsDigits ds) (hne : ds ≠ []) :
    readDecimal ds = some (digitsValue ds, 0) := by
  simp [readDecimal, hds.takeWhile, hds.dropWhile, readFraction, readExponent, hne]

/-- Digits after a point lower the power of ten. -/
theorem readDecimal_point {ds fs : List Char} (hds : IsDigits ds) (hfs : IsDigits fs)
    (hne : ds ≠ []) :
    readDecimal (ds ++ '.' :: fs) = some (digitsValue (ds ++ fs), -(fs.length : Int)) := by
  have hpoint : ∀ c ∈ ('.' :: fs).head?, Char.isDigit c = false := by
    intro c hc
    obtain rfl := Option.some.inj hc
    decide
  simp [readDecimal, takeWhile_append hds hpoint, dropWhile_append hds hpoint, readFraction,
    hfs.takeWhile, hfs.dropWhile, readExponent, hne]

end Numeral

namespace Decimal

open Numeral

/-- The power of ten of the last digit. -/
def scale (d : Decimal) : Int := d.exponent + 1 - d.digits.length

/-- The printed digits are read as their value, times the power of ten of the last
digit. -/
theorem readDecimal_positional {d : Decimal} (hds : IsDigits d.digits) (hne : d.digits ≠ []) :
    readDecimal (NumberForm.clause.positional d) =
      some (digitsValue d.digits * 10 ^ d.scale.toNat, -((-d.scale).toNat : Int)) := by
  have hlength : 0 < d.digits.length := List.length_pos_iff.2 hne
  unfold NumberForm.positional scale
  simp only
  -- The point stands before all digits, behind all of them, or between two of them.
  by_cases hneg : d.exponent < 0
  · rw [if_pos hneg]
    have hzeros := isDigits_zeros (d.exponent.natAbs - 1)
    have hread : readDecimal ('0' :: '.' :: (_ ++ d.digits)) = _ :=
      readDecimal_point (isDigits_zeros 1) (hzeros.append hds) (by simp)
    rw [hread, ← List.append_assoc, List.replicate_append_replicate, digitsValue_append,
      digitsValue_zeros, List.length_append, List.length_replicate]
    simp only [Option.some.injEq, Prod.mk.injEq]
    constructor
    · rw [show (d.exponent + 1 - d.digits.length).toNat = 0 by omega]
      simp
    · omega
  · rw [if_neg hneg]
    by_cases hwhole : d.digits.length ≤ d.exponent.toNat + 1
    · rw [if_pos hwhole]
      have hzeros := isDigits_zeros (d.exponent.toNat + 1 - d.digits.length)
      have hread := readDecimal_whole (hds.append hzeros) (by simp [hne])
      rw [show NumberForm.clause.wholePoint = false from rfl, if_neg (by decide), List.append_nil,
        hread, digitsValue_append, digitsValue_zeros, List.length_replicate, Nat.add_zero,
        Nat.mul_comm]
      simp only [Option.some.injEq, Prod.mk.injEq]
      constructor
      · congr 2
        omega
      · omega
    · rw [if_neg hwhole]
      have htake : d.digits.take (d.exponent.toNat + 1) ≠ [] := by
        simp [hne]
      have hbefore : IsDigits (d.digits.take (d.exponent.toNat + 1)) :=
        fun c hc => hds c (List.mem_of_mem_take hc)
      have hafter : IsDigits (d.digits.drop (d.exponent.toNat + 1)) :=
        fun c hc => hds c (List.mem_of_mem_drop hc)
      rw [readDecimal_point hbefore hafter htake, List.take_append_drop, List.length_drop]
      simp only [Option.some.injEq, Prod.mk.injEq]
      constructor
      · rw [show (d.exponent + 1 - d.digits.length).toNat = 0 by omega]
        simp
      · omega

end Decimal

namespace Binary64

open Numeral

/-! ### The number that was printed -/

/-- Dropping the zeros at the end divides by a power of ten. -/
theorem toDigits_eq_significantDigits (c : Nat) :
    ∃ z, Nat.toDigits 10 c = significantDigits c ++ List.replicate z '0' := by
  have hsplit := List.takeWhile_append_dropWhile (p := (· == '0')) (l := (Nat.toDigits 10 c).reverse)
  have hzeros : ∀ b ∈ (Nat.toDigits 10 c).reverse.takeWhile (· == '0'), b = '0' := by
    intro b hb
    simpa using List.all_eq_true.1 List.all_takeWhile b hb
  rw [List.eq_replicate_of_mem hzeros] at hsplit
  have hreverse := congrArg List.reverse hsplit
  rw [List.reverse_append, List.reverse_replicate, List.reverse_reverse] at hreverse
  exact ⟨_, hreverse.symm⟩

theorem isDigits_significantDigits (c : Nat) : IsDigits (significantDigits c) := by
  obtain ⟨z, hz⟩ := toDigits_eq_significantDigits c
  intro d hd
  have hall := isDigits_toDigits c
  rw [hz] at hall
  exact hall d (List.mem_append_left _ hd)

/-- The significant digits are the number without a power of ten. -/
theorem exists_digitsValue_significantDigits (c : Nat) :
    ∃ z, (Nat.toDigits 10 c).length = (significantDigits c).length + z ∧
      c = 10 ^ z * digitsValue (significantDigits c) := by
  obtain ⟨z, hz⟩ := toDigits_eq_significantDigits c
  refine ⟨z, ?_, ?_⟩
  · rw [hz, List.length_append, List.length_replicate]
  · have hvalue := digitsValue_toDigits c
    rw [hz, digitsValue_append, digitsValue_zeros, List.length_replicate] at hvalue
    exact hvalue.symm

/-- Covering depends on the ratio only. -/
theorem Basin.Covers.of_eq_ratio {b : Basin} {s t d e : Nat} (h : b.Covers s d) (hd : 0 < d)
    (he : 0 < e) (hst : s * e = t * d) : b.Covers t e := by
  have hleft : ∀ x, x * d * e = x * e * d := fun x => Nat.mul_right_comm ..
  constructor
  · have hle := Nat.mul_le_mul_right e h.low
    rw [hst, hleft] at hle
    exact Nat.le_of_mul_le_mul_right hle hd
  · have hle := Nat.mul_le_mul_right e h.high
    rw [hst, hleft] at hle
    exact Nat.le_of_mul_le_mul_right hle hd
  · intro hopen
    have hlow := Nat.mul_lt_mul_of_pos_right (h.inner hopen).1 he
    have hhigh := Nat.mul_lt_mul_of_pos_right (h.inner hopen).2 he
    rw [hst, hleft] at hlow hhigh
    exact ⟨Nat.lt_of_mul_lt_mul_right hlow, Nat.lt_of_mul_lt_mul_right hhigh⟩

theorem codeOfRatio_zero (den : Nat) : codeOfRatio 0 den = 0 := by
  rw [codeOfRatio, Nat.zero_mul, Nat.zero_div]
  simp [nearestEven]

/-- A whole or fractional decimal with few digits after the point is rounded as a
ratio. -/
theorem ofDecimal_eq_ofRatio {m k : Nat} (hm : 0 < m) (hk : k ≤ 400) :
    ofDecimal false m (-(k : Int)) = ofRatio false m (10 ^ k) := by
  unfold ofDecimal
  rw [if_neg (by omega), if_neg (by omega)]
  by_cases h : k = 0
  · subst h
    simp
  · rw [if_neg (by omega), if_neg (by omega)]
    rw [show (-(k : Int)).natAbs = k by omega]
    rfl

/-- The ratio that is read for the digits of a hit rounds to what it is a hit of. -/
theorem codeOfRatio_of_hits {code v k : Nat} {g q : Int} {z : Nat} (hcode : 0 < code)
    (hhits : DecimalGrid.hits ⟨g⟩ (basin code) (10 ^ z * v) = true) (hq : q = g + z)
    (hk : k = (-q).toNat) : codeOfRatio (v * 10 ^ q.toNat) (10 ^ k) = code := by
  have hcovers := DecimalGrid.hits_iff.1 hhits
  have hten : ∀ n, 0 < 10 ^ n := fun n => Nat.pow_pos (by decide)
  refine codeOfRatio_of_covers rfl (hten k) hcode (hcovers.of_eq_ratio (hten _) (hten k) ?_)
  rw [DecimalGrid.denominator_eq]
  generalize Nat.pow 2 1074 = unit
  have hsplit : z + (g.toNat + k) = q.toNat + (-g).toNat := by omega
  have hpow : 10 ^ z * (10 ^ g.toNat * 10 ^ k) = 10 ^ q.toNat * 10 ^ (-g).toNat := by
    rw [← Nat.pow_add, ← Nat.pow_add, ← Nat.pow_add, hsplit]
  show 10 ^ z * v * (2 * unit * 10 ^ g.toNat) * 10 ^ k =
    2 * (v * 10 ^ q.toNat * unit) * 10 ^ (-g).toNat
  calc 10 ^ z * v * (2 * unit * 10 ^ g.toNat) * 10 ^ k
      = 2 * (v * unit) * (10 ^ z * (10 ^ g.toNat * 10 ^ k)) := by
        simp only [Nat.mul_assoc, Nat.mul_comm, Nat.mul_left_comm]
    _ = 2 * (v * unit) * (10 ^ q.toNat * 10 ^ (-g).toNat) := by rw [hpow]
    _ = 2 * (v * 10 ^ q.toNat * unit) * 10 ^ (-g).toNat := by
        simp only [Nat.mul_assoc, Nat.mul_comm, Nat.mul_left_comm]

end Binary64

namespace NumberForm

open Numeral

/-- What a clause prints for a code is digits around a point, and their value rounds to
that code. -/
theorem exists_decimal_of_renderCode (code : Nat) :
    ∃ d : Decimal, NumberForm.clause.renderCode code = NumberForm.clause.positional d ∧
      IsDigits d.digits ∧ d.digits ≠ [] ∧
      Binary64.ofDecimal false (digitsValue d.digits * 10 ^ d.scale.toNat)
        (-((-d.scale).toNat : Int)) = Binary64.ofCode false code := by
  unfold renderCode
  by_cases h : code = 0
  · subst h
    exact ⟨⟨['0'], 0⟩, rfl, isDigits_zeros 1, by simp, rfl⟩
  · have hcode := Nat.pos_of_ne_zero h
    obtain ⟨g, c, hhits, hg, hshortest⟩ := Binary64.exists_hit_of_shortest .away hcode
    obtain ⟨z, hlength, hc⟩ := Binary64.exists_digitsValue_significantDigits c
    -- A hit may end in zeros, which are not printed: they go into the power of ten.
    rw [hc] at hhits
    have hdigits : (Binary64.shortest .away code).digits = Binary64.significantDigits c := by
      rw [hshortest]
    have hscale : (Binary64.shortest .away code).scale = g.exponent + z := by
      rw [Decimal.scale, hdigits, hshortest]
      show g.exponent + _ - 1 + 1 - _ = _
      omega
    have hround := Binary64.codeOfRatio_of_hits hcode hhits hscale rfl
    -- The digits are not all zero, since the code is not.
    have hpos : 0 < digitsValue (Binary64.significantDigits c) := by
      refine Nat.pos_of_ne_zero fun hzero => ?_
      rw [hzero, Nat.zero_mul, Binary64.codeOfRatio_zero] at hround
      omega
    refine ⟨Binary64.shortest .away code, by rw [if_neg h]; rfl, ?_, ?_, ?_⟩
    · rw [hdigits]
      exact Binary64.isDigits_significantDigits c
    · rw [hdigits]
      intro hnil
      rw [hnil] at hpos
      exact absurd hpos (by decide)
    · rw [hdigits, Binary64.ofDecimal_eq_ofRatio (Nat.mul_pos hpos (Nat.pow_pos (by decide)))
        (by omega), Binary64.ofRatio, hround]

/-- Digits around a point start with a digit. -/
theorem exists_head_positional {d : Decimal} (hds : IsDigits d.digits) (hne : d.digits ≠ []) :
    ∃ c cs, NumberForm.clause.positional d = c :: cs ∧ c.isDigit = true := by
  obtain ⟨c, cs, hcs⟩ := List.exists_cons_of_ne_nil hne
  have hc : c.isDigit = true := hds c (by rw [hcs]; exact List.mem_cons_self)
  unfold positional
  simp only
  split
  · exact ⟨_, _, rfl, by decide⟩
  · split
    · exact ⟨c, _, by rw [hcs]; rfl, hc⟩
    · exact ⟨c, _, by rw [hcs]; rfl, hc⟩

/-- A printed number is read back as the number it was printed for. -/
theorem read?_renderCode (code : Nat) :
    Numeral.read? (NumberForm.clause.renderCode code) = some (Binary64.ofCode false code) := by
  obtain ⟨d, htext, hds, hne, hround⟩ := exists_decimal_of_renderCode code
  obtain ⟨c, cs, hcs, hc⟩ := exists_head_positional hds hne
  have hstart : Clause.isNumberStart c = true := by simp [Clause.isNumberStart, hc]
  rw [htext, read?]
  rw [hcs, readSign_of_isNumberStart hstart, ← hcs]
  simp only [Decimal.readDecimal_positional hds hne, hround]

/-- A printed number is written in digits. -/
theorem isDecimal_renderCode (code : Nat) : IsDecimal (NumberForm.clause.renderCode code) := by
  obtain ⟨d, htext, hds, hne, -⟩ := exists_decimal_of_renderCode code
  rw [htext]
  exact isDecimal_of_readDecimal (Decimal.readDecimal_positional hds hne)

end NumberForm

namespace Numeral

theorem negative_ofDecimal (negative : Bool) (m : Nat) (e : Int) :
    (Binary64.ofDecimal negative m e).negative = negative := by
  unfold Binary64.ofDecimal
  repeat' split
  all_goals rfl

/-- A numeral that starts like a number has no sign. -/
theorem negative_of_read? {cs : List Char} {n : Binary64} (h : read? cs = some n)
    (hcs : ∀ c ∈ cs.head?, Clause.isNumberStart c = true) : n.negative = false := by
  cases cs with
  | nil => cases h
  | cons c cs =>
    have hc := hcs c rfl
    rw [read?, readSign_of_isNumberStart hc] at h
    simp only at h
    split at h
    · cases h
      exact negative_ofDecimal _ _ _
    · rw [readName_of_isNumberStart hc] at h
      cases h

end Numeral
end RecordSieve
