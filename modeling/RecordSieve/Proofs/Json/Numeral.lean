import RecordSieve.Json.Parser
import RecordSieve.Json.Printer
import RecordSieve.Proofs.Number.Printing
/-!
# RecordSieve.Proofs.Json.Numeral

The numbers of a JSON text. Every number that is written, but a double that is no
number, is a numeral (`isNumeral_renderNumber`): its digits do not start with a zero
that could be left out, and a point has digits on both sides. A numeral is read in
the same way whatever stands behind it, as long as that does not go on with the
numeral (`IsNumeral.exists_parts`).
-/

namespace RecordSieve

/-! ### Leading digits -/

namespace Numeral

/-- The digits of a whole number: a zero at the front stands alone. -/
structure IsWhole (ds : List Char) : Prop where
  digits : IsDigits ds
  ne_nil : ds ≠ []
  lead : ds.head? = some '0' → ds.length = 1

theorem head?_toDigits {n : Nat} (h : 0 < n) : (Nat.toDigits 10 n).head? ≠ some '0' := by
  induction n using Nat.strongRecOn with
  | ind n ih =>
    by_cases hn : n < 10
    · rw [Nat.toDigits_of_lt_base hn]
      have hdigit : ∀ m < 10, 0 < m → m.digitChar ≠ '0' := by decide
      exact fun he => hdigit n hn h (Option.some.inj he)
    · have hdiv : 0 < n / 10 := Nat.div_pos (Nat.le_of_not_lt hn) (by decide)
      rw [Nat.toDigits_of_base_le (by decide) (Nat.le_of_not_lt hn),
        List.head?_append, Option.or_of_isSome (by simp [Nat.toDigits_ne_nil])]
      exact ih _ (Nat.div_lt_self h (by decide)) hdiv

theorem isWhole_toDigits (n : Nat) : IsWhole (Nat.toDigits 10 n) where
  digits := isDigits_toDigits n
  ne_nil := Nat.toDigits_ne_nil
  lead := by
    intro hzero
    by_cases hn : n = 0
    · rw [hn, Nat.toDigits_zero]
      rfl
    · exact absurd hzero (head?_toDigits (Nat.pos_of_ne_zero hn))

end Numeral

namespace Binary64

open Numeral

/-- The digits of a positive number do not start with a zero. -/
theorem head?_significantDigits {c : Nat} (h : 0 < c) :
    significantDigits c ≠ [] ∧ (significantDigits c).head? ≠ some '0' := by
  have hhead := head?_toDigits h
  have hne : Nat.toDigits 10 c ≠ [] := Nat.toDigits_ne_nil
  obtain ⟨z, hz⟩ := toDigits_eq_significantDigits c
  rw [hz] at hhead hne
  cases hds : significantDigits c with
  | nil =>
    rw [hds, List.nil_append] at hhead hne
    cases z with
    | zero => exact absurd rfl hne
    | succ z => exact absurd rfl hhead
  | cons d ds =>
    rw [hds] at hhead
    exact ⟨List.cons_ne_nil d ds, hhead⟩

/-- Zero lies in the basin of no positive double. -/
theorem pos_of_hits {g : DecimalGrid} {code c : Nat} (hcode : 0 < code)
    (h : g.hits (basin code) c = true) : 0 < c := by
  refine Nat.pos_of_ne_zero fun hc => ?_
  have hlow := (DecimalGrid.hits_iff.1 h).low
  have hten : 0 < Nat.pow 10 (-g.exponent).toNat := Nat.pow_pos (by decide)
  have hwidth := (basin_width hcode).1
  have hbasin : (basin code).low = unitsOfCode (code - 1) + unitsOfCode code ∧
      (basin code).value = 2 * unitsOfCode code := ⟨rfl, rfl⟩
  rw [hc, Nat.zero_mul] at hlow
  have hzero : (basin code).low ≤ 0 :=
    Nat.le_of_mul_le_mul_right (by rwa [Nat.zero_mul]) hten
  omega

/-- What is printed for a positive double starts with a digit that counts. -/
theorem isWhole_shortest (tie : DecimalTie) {code : Nat} (hcode : 0 < code) :
    IsDigits (shortest tie code).digits ∧ (shortest tie code).digits ≠ [] ∧
      (shortest tie code).digits.head? ≠ some '0' := by
  obtain ⟨g, c, hhits, -, hshortest⟩ := exists_hit_of_shortest tie hcode
  rw [hshortest]
  exact ⟨isDigits_significantDigits c, head?_significantDigits (pos_of_hits hcode hhits)⟩

end Binary64

namespace Json

open Numeral (IsDigits IsFraction IsExponent IsWhole)

/-! ### Numerals -/

/-- A number of a JSON text. -/
inductive IsNumeral : List Char → Prop
  | mk {sign whole fraction exponent : List Char} (hsign : sign = [] ∨ sign = ['-'])
      (hwhole : IsWhole whole) (hfraction : IsFraction fraction) (hpoint : fraction ≠ ['.'])
      (hexponent : IsExponent exponent) :
      IsNumeral (sign ++ (whole ++ (fraction ++ exponent)))

theorem isNumeral_renderInt (n : Int) : IsNumeral (renderInt n) := by
  have hall : ∀ sign : List Char, sign = [] ∨ sign = ['-'] →
      IsNumeral (sign ++ Nat.toDigits 10 n.natAbs) := by
    intro sign hsign
    have h := IsNumeral.mk hsign (Numeral.isWhole_toDigits n.natAbs) .absent nofun .absent
    rwa [List.append_nil, List.append_nil] at h
  unfold renderInt
  split
  · exact hall ['-'] (.inr rfl)
  · exact hall [] (.inl rfl)

theorem isExponent_scientific (e : Int) :
    IsExponent ('e' :: (if e < 0 then '-' else '+') :: Nat.toDigits 10 e.natAbs) := by
  have hdigits := Numeral.isDigits_toDigits e.natAbs
  obtain ⟨d, ds, hds⟩ := List.exists_cons_of_ne_nil (Nat.toDigits_ne_nil (n := e.natAbs) (b := 10))
  rw [hds] at hdigits ⊢
  refine .signed (.inl rfl) ?_ hdigits
  split
  · exact .inr rfl
  · exact .inl rfl

section Decimal

variable {d : Decimal}

theorem isNumeral_scientific {sign : List Char} (hsign : sign = [] ∨ sign = ['-'])
    (hds : IsDigits d.digits) (hne : d.digits ≠ []) :
    IsNumeral (sign ++ NumberForm.scientific d) := by
  have hexponent := isExponent_scientific d.exponent
  unfold NumberForm.scientific
  cases hcs : d.digits with
  | nil => exact absurd hcs hne
  | cons c cs =>
    rw [hcs] at hds
    have hwhole : IsWhole [c] :=
      ⟨fun x hx => hds x (List.mem_singleton.1 hx ▸ List.mem_cons_self), by simp, fun _ => rfl⟩
    cases cs with
    | nil => exact .mk hsign hwhole .absent nofun hexponent
    | cons b cs =>
      have hfraction : IsFraction ('.' :: b :: cs) :=
        .point fun x hx => hds x (List.mem_cons_of_mem _ hx)
      exact .mk hsign hwhole hfraction nofun hexponent

theorem isNumeral_positional {sign : List Char} (hsign : sign = [] ∨ sign = ['-'])
    (hds : IsDigits d.digits) (hne : d.digits ≠ []) (hlead : d.digits.head? ≠ some '0') :
    IsNumeral (sign ++ NumberForm.json.positional d) := by
  have hmk : ∀ {whole fraction : List Char}, IsWhole whole → IsDigits fraction → fraction ≠ [] →
      IsNumeral (sign ++ (whole ++ '.' :: fraction)) := by
    intro whole fraction hwhole hfraction hne
    have h := IsNumeral.mk hsign hwhole (.point hfraction) (fun he => hne (List.cons.inj he).2)
      .absent
    rwa [List.append_nil] at h
  unfold NumberForm.positional
  simp only
  -- The point stands before all digits, behind all of them, or between two of them.
  split
  · have hzero : IsWhole ['0'] := ⟨Numeral.isDigits_zeros 1, by simp, fun _ => rfl⟩
    exact hmk hzero ((Numeral.isDigits_zeros _).append hds) (by simp [hne])
  · obtain ⟨c, cs, hcs⟩ := List.exists_cons_of_ne_nil hne
    have hc : c ≠ '0' := by
      rintro rfl
      exact hlead (by rw [hcs]; rfl)
    split
    · have hwhole : IsWhole (d.digits ++
          List.replicate (d.exponent.toNat + 1 - d.digits.length) '0') :=
        ⟨hds.append (Numeral.isDigits_zeros _), by simp [hne], fun h => by
          rw [hcs] at h
          exact absurd (Option.some.inj h) hc⟩
      exact hmk hwhole (Numeral.isDigits_zeros 1) (by simp)
    · rename_i hlong
      have hwhole : IsWhole (d.digits.take (d.exponent.toNat + 1)) :=
        ⟨fun x hx => hds x (List.mem_of_mem_take hx), by simp [hne], fun h => by
          rw [hcs] at h
          exact absurd (Option.some.inj h) hc⟩
      exact hmk hwhole (fun x hx => hds x (List.mem_of_mem_drop hx)) (by simp; omega)

end Decimal

theorem isNumeral_renderCode {sign : List Char} (hsign : sign = [] ∨ sign = ['-']) (code : Nat) :
    IsNumeral (sign ++ NumberForm.json.renderCode code) := by
  unfold NumberForm.renderCode
  by_cases hcode : code = 0
  · rw [if_pos hcode]
    have hzero : IsWhole ['0'] := ⟨Numeral.isDigits_zeros 1, by simp, fun _ => rfl⟩
    exact .mk hsign hzero (.point (Numeral.isDigits_zeros 1)) (by simp) .absent
  · rw [if_neg hcode]
    obtain ⟨hds, hne, hlead⟩ :=
      Binary64.isWhole_shortest NumberForm.json.tie (Nat.pos_of_ne_zero hcode)
    simp only
    split
    · exact isNumeral_positional hsign hds hne hlead
    · exact isNumeral_scientific hsign hds hne

/-- Every number that is finite is written as a numeral. -/
theorem isNumeral_renderNumber {n : JsonNumber}
    (h : ∀ x, n = .double x → x.isFinite = true) : IsNumeral (renderNumber n) := by
  cases n with
  | integer n => exact isNumeral_renderInt n
  | double x =>
    have hfinite := h x rfl
    have hnan : x.isNaN = false := by
      simp only [Binary64.isFinite, Binary64.isNaN, decide_eq_true_eq, decide_eq_false_iff_not]
        at hfinite ⊢
      omega
    rw [renderNumber, NumberForm.render, hnan, hfinite]
    simp only [Bool.false_eq_true, if_false, if_true]
    split
    · exact @isNumeral_renderCode ['-'] (.inr rfl) x.magnitude
    · exact @isNumeral_renderCode [] (.inl rfl) x.magnitude

/-! ### Reading a numeral -/

/-- The characters that a numeral can go on with. -/
def isNumeralPart (c : Char) : Bool := c.isDigit || c == '.' || c == 'e' || c == 'E'

/-- Whether a numeral ends in front of a text. -/
def EndsNumeral (cs : List Char) : Prop := ∀ c ∈ cs.head?, isNumeralPart c = false

theorem endsNumeral_nil : EndsNumeral [] := nofun

theorem endsNumeral_cons {c : Char} (h : isNumeralPart c = false) (cs : List Char) :
    EndsNumeral (c :: cs) := by
  intro d hd
  cases hd
  exact h

section Ends

variable {rest : List Char} (hrest : EndsNumeral rest)

include hrest

theorem EndsNumeral.isDigit : ∀ c ∈ rest.head?, c.isDigit = false := by
  intro c hc
  have h := hrest c hc
  simp only [isNumeralPart, Bool.or_eq_false_iff] at h
  exact h.1.1.1

theorem EndsNumeral.ne {c : Char} (hc : isNumeralPart c = true) (cs : List Char) :
    rest ≠ c :: cs := by
  rintro rfl
  rw [hrest c rfl] at hc
  cases hc

end Ends

theorem readFraction_append {fraction rest : List Char} (h : IsFraction fraction)
    (hpoint : fraction ≠ ['.']) (hd : ∀ c ∈ rest.head?, c.isDigit = false)
    (hne : ∀ cs, rest ≠ '.' :: cs) :
    readFraction (fraction ++ rest) = some (fraction.drop 1, rest) := by
  cases h with
  | absent =>
    rw [List.nil_append]
    unfold readFraction
    split
    · exact absurd rfl (hne _)
    · rfl
  | @point ds hds =>
    have hds' : ds ≠ [] := by
      rintro rfl
      exact hpoint rfl
    simp [readFraction, Text.takeWhile_append hds hd, Text.dropWhile_append hds hd, hds']

/-- The value of an exponent does not depend on what follows it. -/
theorem exists_readExponent {exponent : List Char} (h : IsExponent exponent) :
    ∃ e, ∀ rest, EndsNumeral rest → readExponent (exponent ++ rest) = some (e, rest) := by
  cases h with
  | absent =>
    refine ⟨none, fun rest hrest => ?_⟩
    cases rest with
    | nil => rfl
    | cons c cs =>
      have hc : ¬(c = 'e' ∨ c = 'E') := by
        rintro (rfl | rfl)
        · exact hrest.ne (by decide) cs rfl
        · exact hrest.ne (by decide) cs rfl
      rw [List.nil_append, readExponent, if_neg hc]
  | @plain m d ds hm hds =>
    refine ⟨some (Numeral.digitsValue (d :: ds)), fun rest hrest => ?_⟩
    have hstart : Clause.isNumberStart d = true := by
      simp [Clause.isNumberStart, hds d List.mem_cons_self]
    have hm : m = 'e' ∨ m = 'E' := hm
    have htake := Text.takeWhile_append hds hrest.isDigit
    have hdrop := Text.dropWhile_append hds hrest.isDigit
    rw [List.cons_append] at htake hdrop
    rw [List.cons_append, List.cons_append, readExponent, if_pos hm,
      Numeral.readSign_of_isNumberStart hstart]
    simp only [htake, hdrop]
    rfl
  | @signed m s d ds hm hs hds =>
    have hm : m = 'e' ∨ m = 'E' := hm
    obtain ⟨negative, hsign⟩ : ∃ negative, ∀ cs, Numeral.readSign (s :: cs) = (negative, cs) := by
      rcases hs with rfl | rfl
      · exact ⟨false, fun _ => rfl⟩
      · exact ⟨true, fun _ => rfl⟩
    let n : Int := Numeral.digitsValue (d :: ds)
    refine ⟨some (if negative then -n else n), fun rest hrest => ?_⟩
    have htake := Text.takeWhile_append hds hrest.isDigit
    have hdrop := Text.dropWhile_append hds hrest.isDigit
    rw [List.cons_append] at htake hdrop
    rw [List.cons_append, List.cons_append, List.cons_append, readExponent, if_pos hm, hsign]
    simp only [htake, hdrop]
    rfl

/-- Reads a number behind its sign. -/
def readUnsigned (negative : Bool) (cs : List Char) : Option (JsonNumber × List Char) :=
  let whole := cs.takeWhile Char.isDigit
  if whole.isEmpty || (decide (1 < whole.length) && whole.head? == some '0') then none
  else do
    let (fraction, cs) ← readFraction (cs.dropWhile Char.isDigit)
    let (exponent, cs) ← readExponent cs
    let n ← NumeralParts.toNumber? ⟨negative, whole, fraction, exponent⟩
    return (n, cs)

theorem readNumber_minus (cs : List Char) : readNumber ('-' :: cs) = readUnsigned true cs := rfl

theorem readNumber_of_ne {c : Char} (h : c ≠ '-') (cs : List Char) :
    readNumber (c :: cs) = readUnsigned false (c :: cs) := by
  unfold readNumber readUnsigned
  split
  rename_i hsign
  split at hsign
  · rename_i he
    exact absurd (List.cons.inj he).1 h
  · cases hsign
    rfl

/-- The parts of a numeral are read whatever it stands in front of. -/
theorem exists_readUnsigned {whole fraction exponent : List Char} (negative : Bool)
    (hwhole : IsWhole whole) (hfraction : IsFraction fraction) (hpoint : fraction ≠ ['.'])
    (hexponent : IsExponent exponent) :
    ∃ p : NumeralParts, ∀ rest, EndsNumeral rest →
      readUnsigned negative (whole ++ (fraction ++ exponent) ++ rest) =
        p.toNumber?.map fun n => (n, rest) := by
  obtain ⟨e, he⟩ := exists_readExponent hexponent
  refine ⟨⟨negative, whole, fraction.drop 1, e⟩, fun rest hrest => ?_⟩
  -- What ends the digits of each part: the mark of the exponent or what follows it, and
  -- the point or one of these.
  have hbehind : ∀ c ∈ (exponent ++ rest).head?, c.isDigit = false ∧ c ≠ '.' := by
    intro c hc
    cases hexponent with
    | absent =>
      refine ⟨hrest.isDigit c hc, ?_⟩
      rintro rfl
      cases hrest '.' hc
    | plain hm _ | signed hm _ _ =>
      cases hc
      rcases hm with rfl | rfl
      · exact ⟨rfl, by decide⟩
      · exact ⟨rfl, by decide⟩
  have hdigit : ∀ c ∈ (fraction ++ (exponent ++ rest)).head?, c.isDigit = false := by
    intro c hc
    cases hfraction with
    | absent => exact (hbehind c hc).1
    | point _ =>
      cases hc
      rfl
  have hlead : (whole.isEmpty || (decide (1 < whole.length) && whole.head? == some '0')) =
      false := by
    have hlength := hwhole.lead
    have hne := hwhole.ne_nil
    by_cases hzero : whole.head? = some '0'
    · simp [hne, hlength hzero]
    · simp [hne, hzero]
  have hread := readFraction_append hfraction hpoint (fun c hc => (hbehind c hc).1)
    fun cs hcs => (hbehind '.' (by rw [hcs]; rfl)).2 rfl
  rw [List.append_assoc, List.append_assoc, readUnsigned,
    Text.takeWhile_append hwhole.digits hdigit, Text.dropWhile_append hwhole.digits hdigit]
  simp only [hlead, hread, he rest hrest, Bool.false_eq_true, if_false, Option.bind_eq_bind,
    Option.bind_some]
  cases NumeralParts.toNumber? ⟨negative, whole, fraction.drop 1, e⟩ with
  | _ => rfl

/-- A numeral is read in the same way whatever it stands in front of. -/
theorem IsNumeral.exists_parts {cs : List Char} (h : IsNumeral cs) :
    ∃ p : NumeralParts, ∀ rest, EndsNumeral rest →
      readNumber (cs ++ rest) = p.toNumber?.map fun n => (n, rest) := by
  obtain ⟨hsign, hwhole, hfraction, hpoint, hexponent⟩ := h
  rename_i sign whole fraction exponent
  rcases hsign with rfl | rfl
  · obtain ⟨p, hp⟩ := exists_readUnsigned false hwhole hfraction hpoint hexponent
    obtain ⟨c, cs, hcs⟩ := List.exists_cons_of_ne_nil hwhole.ne_nil
    have hc : c ≠ '-' := by
      rintro rfl
      cases hwhole.digits '-' (hcs ▸ List.mem_cons_self)
    refine ⟨p, fun rest hrest => ?_⟩
    rw [← hp rest hrest, List.nil_append, hcs]
    exact readNumber_of_ne hc _
  · obtain ⟨p, hp⟩ := exists_readUnsigned true hwhole hfraction hpoint hexponent
    exact ⟨p, fun rest hrest => (hp rest hrest).symm ▸ readNumber_minus _⟩

end Json
end RecordSieve
