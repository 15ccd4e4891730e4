import RecordSieve.Clause.Piece
import RecordSieve.Query.Expression
import RecordSieve.Sql.Token
/-!
# RecordSieve.Proofs.Text.Delimiter

The characters that end a token for both readers of a clause, the one that cuts it
into pieces and the one that cuts its normal form into tokens: white space,
parentheses and commas. Each reader has character classes of its own, and what is
proved here is that a delimiter is in none of them, so a run of such characters
ends at a delimiter (`takeWhile_append`, `dropWhile_append`).
-/

namespace RecordSieve
namespace Text

/-- The characters that end a token. -/
def isDelimiter (c : Char) : Bool := isBlank c || c == '(' || c == ')' || c == ','

/-- The code points of the delimiters. -/
def delimiterCodes : List Nat :=
  [0x9, 0xA, 0xB, 0xC, 0xD, 0x20, 0x28, 0x29, 0x2C, 0x85, 0xA0, 0x1680, 0x2000, 0x2001, 0x2002,
   0x2003, 0x2004, 0x2005, 0x2006, 0x2007, 0x2008, 0x2009, 0x200A, 0x2028, 0x2029, 0x202F,
   0x205F, 0x3000]

theorem toNat_mem_delimiterCodes {c : Char} (h : isDelimiter c = true) :
    c.toNat ∈ delimiterCodes := by
  simp only [isDelimiter, Bool.or_eq_true, beq_iff_eq] at h
  rcases h with ((h | rfl) | rfl) | rfl
  · simp only [isBlank, Bool.or_eq_true, Bool.and_eq_true, decide_eq_true_eq, beq_iff_eq] at h
    simp only [delimiterCodes, List.mem_cons, List.not_mem_nil, or_false]
    omega
  all_goals decide

/-- What holds of no delimiter in the list holds of no delimiter. -/
theorem eq_false_of_isDelimiter {p : Char → Bool} {c : Char} (h : isDelimiter c = true)
    (hp : ∀ n ∈ delimiterCodes, p (Char.ofNat n) = false) : p c = false := by
  have hc := hp _ (toNat_mem_delimiterCodes h)
  rwa [Char.ofNat_toNat] at hc

variable {c : Char}

theorem isDelimiter_of_isBlank (h : isBlank c = true) : isDelimiter c = true := by
  simp [isDelimiter, h]

theorem isAlphabetic_of_isDelimiter (h : isDelimiter c = true) : isAlphabetic c = false :=
  eq_false_of_isDelimiter h (by decide +kernel)

theorem isNumeric_of_isDelimiter (h : isDelimiter c = true) : isNumeric c = false :=
  eq_false_of_isDelimiter h (by decide +kernel)

theorem isWordChar_of_isDelimiter (h : isDelimiter c = true) : Clause.isWordChar c = false := by
  rw [Clause.isWordChar, isAlphanumeric, isAlphabetic_of_isDelimiter h,
    isNumeric_of_isDelimiter h, Bool.false_or, Bool.false_or]
  exact eq_false_of_isDelimiter (p := fun c => c == '_' || c == '.') h (by decide)

theorem isNameStart_of_isDelimiter (h : isDelimiter c = true) : Sql.isNameStart c = false := by
  rw [Sql.isNameStart, isAlphabetic_of_isDelimiter h, Bool.false_or]
  exact eq_false_of_isDelimiter (p := (· == '_')) h (by decide)

theorem isNamePart_of_isDelimiter (h : isDelimiter c = true) : Sql.isNamePart c = false := by
  rw [Sql.isNamePart, isAlphabetic_of_isDelimiter h, Bool.false_or]
  exact eq_false_of_isDelimiter
    (p := fun c => c.isDigit || c == '_' || c == '$' || c == '@' || c == '#') h (by decide)

theorem isOperatorChar_of_isDelimiter (h : isDelimiter c = true) :
    Clause.isOperatorChar c = false :=
  eq_false_of_isDelimiter h (by decide)

theorem isNumberStart_of_isDelimiter (h : isDelimiter c = true) : Clause.isNumberStart c = false :=
  eq_false_of_isDelimiter h (by decide)

theorem isDigit_of_isDelimiter (h : isDelimiter c = true) : c.isDigit = false :=
  eq_false_of_isDelimiter h (by decide)

theorem isQuote_of_isDelimiter (h : isDelimiter c = true) : Clause.isQuote c = false :=
  eq_false_of_isDelimiter h (by decide)

theorem isBlank_of_isNameStart (h : Sql.isNameStart c = true) : isBlank c = false := by
  cases hb : isBlank c with
  | false => rfl
  | true =>
    rw [isNameStart_of_isDelimiter (isDelimiter_of_isBlank hb)] at h
    cases h

/-! ### Runs of characters -/

/-- Whether a text ends or goes on with a delimiter. -/
def Delimited (cs : List Char) : Prop := ∀ c ∈ cs.head?, isDelimiter c = true

theorem Delimited.nil : Delimited [] := nofun

theorem Delimited.cons (h : isDelimiter c = true) (cs : List Char) : Delimited (c :: cs) := by
  intro d hd
  cases hd
  exact h

/-- A character that no delimiter is does not stand at the start. -/
theorem Delimited.head?_ne {cs : List Char} (h : Delimited cs) (hc : isDelimiter c = false) :
    cs.head? ≠ some c := by
  intro e
  rw [h c e] at hc
  cases hc

variable {p : Char → Bool} {cs rest : List Char}

/-- A run of characters ends where one fails the test. -/
theorem takeWhile_append (hcs : ∀ c ∈ cs, p c = true) (hrest : ∀ c ∈ rest.head?, p c = false) :
    (cs ++ rest).takeWhile p = cs := by
  rw [List.takeWhile_append_of_pos hcs]
  cases rest with
  | nil => simp
  | cons d ds => simp [hrest d rfl]

theorem dropWhile_append (hcs : ∀ c ∈ cs, p c = true) (hrest : ∀ c ∈ rest.head?, p c = false) :
    (cs ++ rest).dropWhile p = rest := by
  rw [List.dropWhile_append_of_pos hcs]
  cases rest with
  | nil => rfl
  | cons d ds => simp [hrest d rfl]

end Text
end RecordSieve
