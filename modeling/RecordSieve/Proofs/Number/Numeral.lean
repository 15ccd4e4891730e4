import RecordSieve.Number.Numeral
import RecordSieve.Proofs.Text.Delimiter
import RecordSieve.Sql.Lexer
/-!
# RecordSieve.Proofs.Number.Numeral

The written form of a number, and that both readers of a clause cut it off whole.
A numeral that starts with a digit or a point is digits, perhaps a point and digits,
and perhaps an exponent (`IsDecimal`). The two readers take more than that: one
takes whatever is stuck to a number, the other knows hexadecimal texts and a letter
for long numbers. In front of a delimiter they agree (`IsDecimal.splitNumber`,
`IsDecimal.lexNumber`).
-/

namespace RecordSieve
namespace Numeral

/-! ### The written form -/

/-- Whether a text holds nothing but decimal digits. -/
def IsDigits (cs : List Char) : Prop := ∀ c ∈ cs, c.isDigit = true

/-- The point and digits of a fraction, or nothing. -/
inductive IsFraction : List Char → Prop
  | absent : IsFraction []
  | point {ds : List Char} : IsDigits ds → IsFraction ('.' :: ds)

/-- The mark of an exponent. -/
def IsMark (c : Char) : Prop := c = 'e' ∨ c = 'E'

/-- An exponent with its mark and at least one digit, or nothing. -/
inductive IsExponent : List Char → Prop
  | absent : IsExponent []
  | plain {m d : Char} {ds : List Char} :
      IsMark m → IsDigits (d :: ds) → IsExponent (m :: d :: ds)
  | signed {m s d : Char} {ds : List Char} :
      IsMark m → s = '+' ∨ s = '-' → IsDigits (d :: ds) → IsExponent (m :: s :: d :: ds)

/-- A number without a sign: digits, a fraction and an exponent, and a digit before
the exponent. -/
inductive IsDecimal : List Char → Prop
  | mk {whole fraction exponent : List Char} :
      IsDigits whole → IsFraction fraction → IsExponent exponent →
      (whole = [] → 1 < fraction.length) → IsDecimal (whole ++ (fraction ++ exponent))

theorem isDigits_takeWhile (cs : List Char) : IsDigits (cs.takeWhile Char.isDigit) :=
  fun _ hc => List.all_eq_true.1 List.all_takeWhile _ hc

/-- What is read as an exponent has the form of one. -/
theorem isExponent_of_readExponent {cs : List Char} {e : Int} (h : readExponent cs = some e) :
    IsExponent cs := by
  cases cs with
  | nil => exact .absent
  | cons m cs =>
    by_cases hm : m = 'e' ∨ m = 'E'
    · have hdigits : (readSign cs).2 ≠ [] ∧ IsDigits (readSign cs).2 := by
        by_cases hds : ((readSign cs).2.isEmpty || !(readSign cs).2.all Char.isDigit) = true
        · simp [readExponent, hm, hds] at h
        · simp only [Bool.or_eq_true, List.isEmpty_iff, Bool.not_eq_true', not_or,
            Bool.not_eq_false, List.all_eq_true] at hds
          exact hds
      cases cs with
      | nil => exact absurd rfl hdigits.1
      | cons s cs =>
        by_cases hs : s = '+' ∨ s = '-'
        · have hrest : (readSign (s :: cs)).2 = cs := by
            rcases hs with rfl | rfl <;> rfl
          rw [hrest] at hdigits
          cases cs with
          | nil => exact absurd rfl hdigits.1
          | cons d ds => exact .signed hm hs hdigits.2
        · have hrest : (readSign (s :: cs)).2 = s :: cs := by
            unfold readSign
            split
            · rename_i e
              cases e
              exact absurd (.inl rfl) hs
            · rename_i e
              cases e
              exact absurd (.inr rfl) hs
            · rfl
          rw [hrest] at hdigits
          exact .plain hm hdigits.2
    · simp [readExponent, hm] at h

/-- What is read as a decimal has the form of one. -/
theorem isDecimal_of_readDecimal {cs : List Char} {r : Nat × Int} (h : readDecimal cs = some r) :
    IsDecimal cs := by
  have hcs : cs.takeWhile Char.isDigit ++ cs.dropWhile Char.isDigit = cs :=
    List.takeWhile_append_dropWhile
  have hwhole := isDigits_takeWhile cs
  unfold readDecimal at h
  generalize cs.takeWhile Char.isDigit = whole at *
  generalize cs.dropWhile Char.isDigit = rest at *
  subst hcs
  -- A fraction is read only from a point on.
  by_cases hpoint : ∃ ds, rest = '.' :: ds
  · obtain ⟨ds, rfl⟩ := hpoint
    have hds : ds.takeWhile Char.isDigit ++ ds.dropWhile Char.isDigit = ds :=
      List.takeWhile_append_dropWhile
    have hfraction := isDigits_takeWhile ds
    simp only [readFraction] at h
    generalize ds.takeWhile Char.isDigit = fraction at *
    generalize ds.dropWhile Char.isDigit = exponent at *
    subst hds
    split at h
    · cases h
    · rename_i hne
      obtain ⟨e, he, -⟩ := Option.map_eq_some_iff.1 h
      refine .mk hwhole (.point hfraction) (isExponent_of_readExponent he) ?_
      intro h
      subst h
      cases fraction with
      | nil => exact absurd rfl hne
      | cons d ds => simp
  · have hfraction : readFraction rest = ([], rest) := by
      unfold readFraction
      split
      · exact absurd ⟨_, rfl⟩ hpoint
      · rfl
    simp only [hfraction] at h
    split at h
    · cases h
    · rename_i hne
      obtain ⟨e, he, -⟩ := Option.map_eq_some_iff.1 h
      have hdigit : whole = [] → 1 < ([] : List Char).length := by
        intro hwhole
        subst hwhole
        exact absurd rfl hne
      exact IsDecimal.mk hwhole .absent (isExponent_of_readExponent he) hdigit

/-- The code points that numbers start with. -/
def startCodes : List Nat := [0x2E, 0x30, 0x31, 0x32, 0x33, 0x34, 0x35, 0x36, 0x37, 0x38, 0x39]

theorem toNat_mem_startCodes {c : Char} (h : Clause.isNumberStart c = true) :
    c.toNat ∈ startCodes := by
  simp only [Clause.isNumberStart, Bool.or_eq_true, beq_iff_eq] at h
  rcases h with h | rfl
  · simp only [Char.isDigit, Bool.and_eq_true, decide_eq_true_eq, ge_iff_le,
      UInt32.le_iff_toNat_le] at h
    have hlow : 48 ≤ c.toNat := h.1
    have hhigh : c.toNat ≤ 57 := h.2
    simp only [startCodes, List.mem_cons, List.not_mem_nil, or_false]
    omega
  · decide

/-- No value that is written by name starts like a number. -/
theorem readName_of_isNumberStart {c : Char} (h : Clause.isNumberStart c = true)
    (negative : Bool) (cs : List Char) : readName negative (c :: cs) = none := by
  have hall : ∀ n ∈ startCodes, (Char.ofNat n).toLower ≠ 'i' ∧ (Char.ofNat n).toLower ≠ 'n' := by
    decide
  have hc := hall _ (toNat_mem_startCodes h)
  rw [Char.ofNat_toNat] at hc
  simp [readName, hc.1, hc.2]

/-- No sign starts like a number. -/
theorem readSign_of_isNumberStart {c : Char} {cs : List Char} (h : Clause.isNumberStart c = true) :
    readSign (c :: cs) = (false, c :: cs) := by
  unfold readSign
  split
  · rename_i e
    cases e
    cases h
  · rename_i e
    cases e
    cases h
  · rfl

/-- A numeral that starts like a number is written in digits. -/
theorem isDecimal_of_read? {c : Char} {cs : List Char} {n : Binary64}
    (h : read? (c :: cs) = some n) (hc : Clause.isNumberStart c = true) : IsDecimal (c :: cs) := by
  rw [read?, readSign_of_isNumberStart hc] at h
  simp only at h
  split at h
  · rename_i hr
    exact isDecimal_of_readDecimal hr
  · rw [readName_of_isNumberStart hc] at h
    cases h

/-! ### Cut off by the reader of pieces -/

open Text (Delimited takeWhile_append dropWhile_append)

theorem IsDecimal.ne_nil {cs : List Char} (h : IsDecimal cs) : cs ≠ [] := by
  obtain ⟨-, -, -, hdigit⟩ := h
  intro he
  obtain ⟨hwhole, he⟩ := List.append_eq_nil_iff.1 he
  obtain ⟨hfraction, -⟩ := List.append_eq_nil_iff.1 he
  have hlength := hdigit hwhole
  rw [hfraction] at hlength
  cases hlength

/-- An exponent starts with its mark, so digits and points end in front of it. -/
theorem IsExponent.head?_append {exponent rest : List Char} (h : IsExponent exponent)
    {p : Char → Bool} (he : p 'e' = false) (hE : p 'E' = false)
    (hrest : ∀ c ∈ rest.head?, p c = false) :
    ∀ c ∈ (exponent ++ rest).head?, p c = false := by
  intro c hc
  have hmark : ∀ {m : Char}, IsMark m → p m = false := by
    intro m hm
    rcases hm with rfl | rfl
    · exact he
    · exact hE
  cases h with
  | absent => exact hrest c hc
  | plain hm _ =>
    cases hc
    exact hmark hm
  | signed hm _ _ =>
    cases hc
    exact hmark hm

theorem isDigit_of_delimited {rest : List Char} (h : Delimited rest) :
    ∀ c ∈ rest.head?, c.isDigit = false :=
  fun c hc => Text.isDigit_of_isDelimiter (h c hc)

/-- The digits at the start of a text are cut off where it goes on with something else. -/
theorem IsDigits.span {ds rest : List Char} (h : IsDigits ds)
    (hrest : ∀ c ∈ rest.head?, c.isDigit = false) :
    (ds ++ rest).takeWhile Char.isDigit = ds ∧ (ds ++ rest).dropWhile Char.isDigit = rest :=
  ⟨takeWhile_append h hrest, dropWhile_append h hrest⟩

theorem IsExponent.splitExponent {exponent rest : List Char} (h : IsExponent exponent)
    (hrest : Delimited rest) : Clause.splitExponent (exponent ++ rest) = (exponent, rest) := by
  cases h with
  | absent =>
    cases rest with
    | nil => rfl
    | cons c cs =>
      have hc : ¬(c = 'e' ∨ c = 'E') := by
        intro h
        rcases h with rfl | rfl
        · exact absurd (hrest _ rfl) (by decide)
        · exact absurd (hrest _ rfl) (by decide)
      simp [Clause.splitExponent, hc]
  | @plain m d ds hm hds =>
    have hd : ¬(d = '+' ∨ d = '-') := by
      intro h
      rcases h with rfl | rfl
      · exact absurd (hds _ (List.mem_cons_self ..)) (by decide)
      · exact absurd (hds _ (List.mem_cons_self ..)) (by decide)
    obtain ⟨htake, hdrop⟩ := hds.span (isDigit_of_delimited hrest)
    have hm : m = 'e' ∨ m = 'E' := hm
    rw [List.cons_append, List.cons_append, Clause.splitExponent, if_pos hm]
    simp only [if_neg hd]
    rw [List.cons_append] at htake hdrop
    rw [htake, hdrop]
  | @signed m s d ds hm hs hds =>
    obtain ⟨htake, hdrop⟩ := hds.span (isDigit_of_delimited hrest)
    have hm : m = 'e' ∨ m = 'E' := hm
    rw [List.cons_append, List.cons_append, Clause.splitExponent, if_pos hm]
    simp only [if_pos hs]
    rw [htake, hdrop]

theorem IsFraction.isNumberStart {fraction : List Char} (h : IsFraction fraction) :
    ∀ c ∈ fraction, Clause.isNumberStart c = true := by
  cases h with
  | absent => nofun
  | point hds =>
    intro c hc
    rcases List.mem_cons.1 hc with rfl | hc
    · rfl
    · simp [Clause.isNumberStart, hds c hc]

/-- A number in front of a delimiter is one piece. -/
theorem IsDecimal.splitNumber {cs rest : List Char} (h : IsDecimal cs) (hrest : Delimited rest) :
    Clause.splitNumber (cs ++ rest) = (cs, rest) := by
  obtain ⟨hwhole, hfraction, hexponent, -⟩ := h
  rename_i whole fraction exponent
  have hlead : ∀ c ∈ whole ++ fraction, Clause.isNumberStart c = true := by
    intro c hc
    rcases List.mem_append.1 hc with hc | hc
    · simp [Clause.isNumberStart, hwhole c hc]
    · exact hfraction.isNumberStart c hc
  have hend := hexponent.head?_append (p := Clause.isNumberStart) rfl rfl
    fun c hc => Text.isNumberStart_of_isDelimiter (hrest c hc)
  have hword : ∀ c ∈ rest.head?, Clause.isWordChar c = false :=
    fun c hc => Text.isWordChar_of_isDelimiter (hrest c hc)
  -- The first reader takes digits and points as one run and the exponent behind it.
  have hsplit : whole ++ (fraction ++ exponent) ++ rest =
      (whole ++ fraction) ++ (exponent ++ rest) := by
    simp only [List.append_assoc]
  have hnone : ∀ c ∈ ([] : List Char), Clause.isWordChar c = true := nofun
  have htake : rest.takeWhile Clause.isWordChar = [] := takeWhile_append hnone hword
  have hdrop : rest.dropWhile Clause.isWordChar = rest := dropWhile_append hnone hword
  rw [hsplit, Clause.splitNumber, takeWhile_append hlead hend, dropWhile_append hlead hend,
    hexponent.splitExponent hrest]
  simp only [htake, hdrop, List.append_nil, List.append_assoc]

/-! ### Cut off by the reader of tokens -/

/-- The characters that the reader of tokens goes on with in a number: those that it starts
with, the marks of an exponent and the mark of a hexadecimal number. -/
def goesOn (c : Char) : Bool := Clause.isNumberStart c || ['e', 'E', 'x'].contains c

/-- Whether a text ends or goes on with what is no part of a number. -/
def Ended (cs : List Char) : Prop := ∀ c ∈ cs.head?, goesOn c = false

theorem Ended.head? {cs : List Char} (h : Ended cs) {p : Char → Bool}
    (hp : ∀ c, p c = true → goesOn c = true) : ∀ c ∈ cs.head?, p c = false := by
  intro c hc
  cases hpc : p c with
  | false => rfl
  | true =>
    rw [← h c hc]
    exact (hp c hpc).symm

theorem goesOn_of_isNumberStart {c : Char} (h : Clause.isNumberStart c = true) :
    goesOn c = true := by
  simp [goesOn, h]

theorem goesOn_of_isDigit {c : Char} (h : c.isDigit = true) : goesOn c = true :=
  goesOn_of_isNumberStart (by simp [Clause.isNumberStart, h])

/-- A number ends in front of its suffix, and in front of a delimiter. -/
theorem ended_longSuffix (long : Bool) {rest : List Char} (hrest : Delimited rest) :
    Ended (Sql.longSuffix long ++ rest) := by
  cases long with
  | true =>
    intro c hc
    cases hc
    rfl
  | false => exact fun c hc => Text.eq_false_of_isDelimiter (hrest c hc) (by decide)

theorem IsExponent.exponentPart {exponent rest : List Char} (h : IsExponent exponent)
    (hrest : Ended rest) : Sql.exponentPart (exponent ++ rest) = (exponent, rest) := by
  have hdigit : ∀ c ∈ rest.head?, c.isDigit = false :=
    hrest.head? fun _ => goesOn_of_isDigit
  cases h with
  | absent =>
    have hc : ∀ c ∈ rest.head?, ¬(c = 'e' ∨ c = 'E') := by
      intro c hc h
      rcases h with rfl | rfl
      · exact absurd (hrest _ hc) (by decide)
      · exact absurd (hrest _ hc) (by decide)
    -- A sign needs a third character behind it, so short rests are cases of their own.
    match rest with
    | [] => rfl
    | [c] => rfl
    | [c, s] => simp [Sql.exponentPart, hc c rfl]
    | c :: s :: d :: r => simp [Sql.exponentPart, hc c rfl]
  | @plain m d ds hm hds =>
    have hm : m = 'e' ∨ m = 'E' := hm
    have hd : d.isDigit = true := hds d (List.mem_cons_self ..)
    obtain ⟨htake, hdrop⟩ := hds.span hdigit
    rw [List.cons_append] at htake hdrop
    rw [List.cons_append, List.cons_append]
    -- The reader tells the last two characters of a text from any others.
    cases hr : ds ++ rest with
    | nil =>
      obtain ⟨rfl, rfl⟩ := List.append_eq_nil_iff.1 hr
      simp [Sql.exponentPart, hm, hd]
    | cons c cs =>
      rw [hr] at htake hdrop
      simp only [Sql.exponentPart, if_pos hm, hd, if_true]
      rw [htake, hdrop]
  | @signed m s d ds hm hs hds =>
    have hm : m = 'e' ∨ m = 'E' := hm
    have hd : d.isDigit = true := hds d (List.mem_cons_self ..)
    have hsign : s.isDigit = false := by
      rcases hs with rfl | rfl <;> rfl
    obtain ⟨htake, hdrop⟩ := hds.span hdigit
    rw [List.cons_append] at htake hdrop
    rw [List.cons_append, List.cons_append, List.cons_append]
    simp only [Sql.exponentPart, if_pos hm, hsign, Bool.false_eq_true, if_false,
      if_pos (And.intro hs hd)]
    rw [htake, hdrop]

theorem decimalPart_append {whole fraction rest : List Char} (hwhole : IsDigits whole)
    (hfraction : IsFraction fraction) (hd : ∀ c ∈ rest.head?, c.isDigit = false)
    (hpoint : ∀ c ∈ rest.head?, c ≠ '.') :
    Sql.decimalPart (whole ++ (fraction ++ rest)) = (whole ++ fraction, rest) := by
  cases hfraction with
  | absent =>
    rw [List.nil_append, List.append_nil, Sql.decimalPart, takeWhile_append hwhole hd,
      dropWhile_append hwhole hd]
    cases rest with
    | nil => rfl
    | cons c cs =>
      have hc := hpoint c rfl
      split
      · rename_i e
        cases e
        exact absurd rfl hc
      · rfl
  | @point ds hds =>
    have hend : ∀ c ∈ ('.' :: (ds ++ rest)).head?, c.isDigit = false := by
      intro c hc
      cases hc
      rfl
    rw [List.cons_append, Sql.decimalPart, takeWhile_append hwhole hend,
      dropWhile_append hwhole hend]
    simp only [takeWhile_append hds hd, dropWhile_append hds hd]

/-- A number starts with a digit, or with a point and a digit. -/
theorem lead_cases {whole fraction : List Char} (hwhole : IsDigits whole)
    (hfraction : IsFraction fraction) (hdigit : whole = [] → 1 < fraction.length) :
    (∃ c cs, whole ++ fraction = c :: cs ∧ c.isDigit = true) ∨
      ∃ d ds, whole ++ fraction = '.' :: d :: ds ∧ d.isDigit = true := by
  cases whole with
  | cons c cs => exact .inl ⟨c, cs ++ fraction, rfl, hwhole c (List.mem_cons_self ..)⟩
  | nil =>
    have hlength := hdigit rfl
    cases hfraction with
    | absent => cases hlength
    | @point ds hds =>
      cases ds with
      | nil => exact absurd hlength (by decide)
      | cons d ds => exact .inr ⟨d, ds, rfl, hds d (List.mem_cons_self ..)⟩

/-- A number is no point alone. -/
theorem lead_ne_point {whole fraction : List Char} (hwhole : IsDigits whole)
    (hfraction : IsFraction fraction) (hdigit : whole = [] → 1 < fraction.length) :
    whole ++ fraction ≠ ['.'] := by
  intro he
  rcases lead_cases hwhole hfraction hdigit with ⟨c, cs, hlead, hc⟩ | ⟨d, ds, hlead, -⟩
  · rw [hlead] at he
    cases he
    cases hc
  · rw [hlead] at he
    cases he

/-- A number does not start as a point in front of a name. -/
theorem lead_append_ne {whole fraction : List Char} (hwhole : IsDigits whole)
    (hfraction : IsFraction fraction) (hdigit : whole = [] → 1 < fraction.length)
    (rest r : List Char) : whole ++ fraction ++ rest ≠ '.' :: '_' :: r := by
  intro he
  rcases lead_cases hwhole hfraction hdigit with ⟨c, cs, hlead, hc⟩ | ⟨d, ds, hlead, hd⟩
  · rw [hlead] at he
    rw [(List.cons.inj he).1] at hc
    cases hc
  · rw [hlead] at he
    cases he
    cases hd

theorem IsDecimal.isNumberStart {c : Char} {cs : List Char} (h : IsDecimal (c :: cs)) :
    Clause.isNumberStart c = true := by
  generalize he : c :: cs = ds at h
  obtain ⟨hwhole, hfraction, -, hdigit⟩ := h
  rename_i exponent
  rw [← List.append_assoc] at he
  rcases lead_cases hwhole hfraction hdigit with ⟨d, ds, hlead, hd⟩ | ⟨d, ds, hlead, -⟩
  · rw [hlead] at he
    rw [(List.cons.inj he).1]
    simp [Clause.isNumberStart, hd]
  · rw [hlead] at he
    rw [(List.cons.inj he).1]
    rfl

/-- A number in front of a delimiter is one token, with a suffix or without. -/
theorem IsDecimal.lexNumber {cs rest : List Char} (h : IsDecimal cs) (long : Bool)
    (hrest : Delimited rest) (afterWord : Bool) :
    Sql.lexNumber afterWord (cs ++ (Sql.longSuffix long ++ rest)) =
      .token (.number (String.ofList cs) long) rest := by
  have hended := ended_longSuffix long hrest
  generalize hafter : Sql.longSuffix long ++ rest = after at hended
  obtain ⟨hwhole, hfraction, hexponent, hdigit⟩ := h
  rename_i whole fraction exponent
  have hd := hexponent.head?_append (p := Char.isDigit) rfl rfl
    (hended.head? fun _ => goesOn_of_isDigit)
  have hpoint : ∀ c ∈ (exponent ++ after).head?, c ≠ '.' := by
    intro c hc h
    subst h
    have hstart := hexponent.head?_append (p := Clause.isNumberStart) rfl rfl
      (hended.head? fun _ => goesOn_of_isNumberStart) _ hc
    cases hstart
  have hdecimal := decimalPart_append hwhole hfraction hd hpoint
  -- Zero in front of an x would be taken for a hexadecimal number.
  have hhex : ∀ r, exponent ++ after ≠ 'x' :: r := by
    intro r hr
    have hx := hexponent.head?_append (p := (· == 'x')) rfl rfl
      (hended.head? fun c hc => by rw [beq_iff_eq.1 hc]; rfl) 'x' (by rw [hr]; rfl)
    cases hx
  rw [List.append_assoc, List.append_assoc]
  unfold Sql.lexNumber
  split
  · rename_i r he
    rw [← List.append_assoc] at he
    exact absurd he (lead_append_ne hwhole hfraction hdigit _ _)
  · rw [hdecimal]
    simp only [if_neg (lead_ne_point hwhole hfraction hdigit)]
    split
    · rename_i hr
      exact absurd hr (hhex _)
    · rw [hexponent.exponentPart hended]
      simp only [List.append_assoc]
      subst hafter
      cases long with
      | true => rfl
      | false =>
        split
        · rename_i hr
          exact absurd (hrest 'L' (congrArg List.head? hr)) (by decide)
        · rfl

end Numeral
end RecordSieve
