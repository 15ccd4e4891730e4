import RecordSieve.Proofs.Clause.Unified
import RecordSieve.Proofs.Sql.Locality
/-!
# RecordSieve.Proofs.Clause.Separator

Where a clause may be taken apart before it is normalized. A separator is a character that is
in no piece but one of its own. In front of it the pieces are those of the text in front, if no
quote is left open there, and behind it they are those of the text behind (`pieces_separated`);
so the two parts are normalized one after the other (`normalizeChars_separated`).
-/

namespace RecordSieve
namespace Clause

open Text.Quoted (scan escape)

/-- The characters that are in no longer piece. -/
def isSeparator (c : Char) : Bool :=
  !(isQuote c || isOperatorChar c || isNumberStart c || isWordChar c || c == '+' || c == '-')

/-- A text that leaves no quote open. -/
def IsClosed (cs : List Char) : Prop := ∀ us, Piece.unterminated us ∉ pieces cs

variable {d : Char}

theorem isSeparator_eq_true (h : isSeparator d = true) :
    isQuote d = false ∧ isOperatorChar d = false ∧ isNumberStart d = false ∧
      isWordChar d = false ∧ d ≠ '+' ∧ d ≠ '-' := by
  simpa [isSeparator, and_assoc] using h

theorem isSeparator_of_isDelimiter (h : Text.isDelimiter d = true) : isSeparator d = true := by
  have hne : ∀ c : Char, Text.isDelimiter c = false → d ≠ c := by
    intro c hc he
    rw [he, hc] at h
    cases h
  simp [isSeparator, Text.isQuote_of_isDelimiter h, Text.isOperatorChar_of_isDelimiter h,
    Text.isNumberStart_of_isDelimiter h, Text.isWordChar_of_isDelimiter h, hne '+' rfl, hne '-' rfl]

/-! ### Cutting in front of a separator -/

theorem takeWhile_separated {p : Char → Bool} (hp : p d = false) (cs ys : List Char) :
    (cs ++ d :: ys).takeWhile p = cs.takeWhile p := by
  induction cs with
  | nil => simp [hp]
  | cons c cs ih => rw [List.cons_append, List.takeWhile_cons, List.takeWhile_cons, ih]

theorem dropWhile_separated {p : Char → Bool} (hp : p d = false) (cs ys : List Char) :
    (cs ++ d :: ys).dropWhile p = cs.dropWhile p ++ d :: ys := by
  induction cs with
  | nil => simp [hp]
  | cons c cs ih =>
    rw [List.cons_append, List.dropWhile_cons, List.dropWhile_cons, ih]
    split
    · rfl
    · rfl

theorem isDigit_of_isNumberStart (h : isNumberStart d = false) : d.isDigit = false := by
  rw [isNumberStart, Bool.or_eq_false_iff] at h
  exact h.1

theorem splitExponent_separated (hd : isSeparator d = true) (cs ys : List Char) :
    splitExponent (cs ++ d :: ys) = ((splitExponent cs).1, (splitExponent cs).2 ++ d :: ys) := by
  obtain ⟨-, -, hnumber, hword, hplus, hminus⟩ := isSeparator_eq_true hd
  have hdigit := isDigit_of_isNumberStart hnumber
  have hmark : ¬(d = 'e' ∨ d = 'E') := by
    intro hmark
    rcases hmark with rfl | rfl
    · exact absurd hword (by decide)
    · exact absurd hword (by decide)
  have htake := fun cs => takeWhile_separated hdigit cs ys
  have hdrop := fun cs => dropWhile_separated hdigit cs ys
  cases cs with
  | nil => simp [splitExponent, hmark]
  | cons c cs =>
    by_cases hc : c = 'e' ∨ c = 'E'
    · cases cs with
      | nil => simp [splitExponent, hc, hplus, hminus, hdigit]
      | cons s ds =>
        by_cases hs : s = '+' ∨ s = '-'
        · simp [splitExponent, hc, hs, htake, hdrop]
        · have htake' := htake (s :: ds)
          have hdrop' := hdrop (s :: ds)
          rw [List.cons_append] at htake' hdrop'
          simp [splitExponent, hc, hs, htake', hdrop']
    · simp [splitExponent, hc]

theorem splitNumber_separated (hd : isSeparator d = true) (cs ys : List Char) :
    splitNumber (cs ++ d :: ys) = ((splitNumber cs).1, (splitNumber cs).2 ++ d :: ys) := by
  obtain ⟨-, -, hnumber, hword, -, -⟩ := isSeparator_eq_true hd
  simp only [splitNumber, takeWhile_separated hnumber, dropWhile_separated hnumber,
    splitExponent_separated hd, takeWhile_separated hword, dropWhile_separated hword]

theorem scan_separated {q : Char} {cs body rest : List Char} (hq : d ≠ q)
    (h : scan q cs = some (body, rest)) (ys : List Char) :
    scan q (cs ++ d :: ys) = some (body, rest ++ d :: ys) := by
  have hcs : q :: (escape q body ++ q :: rest) = q :: cs := by
    rw [← encode_append, encode_of_scan h]
  obtain rfl := (List.cons.inj hcs).2
  have hend : (rest ++ d :: ys).head? ≠ some q := by
    have hrest := Sql.head?_of_scan h
    cases rest with
    | nil => simpa using hq
    | cons c rest => exact hrest
  rw [List.append_assoc, List.cons_append]
  exact Text.Quoted.scan_escape q body _ hend

/-- A closed piece in front of a separator stays as it is. -/
theorem cut_separated (hd : isSeparator d = true) {c : Char} {cs : List Char}
    (h : ∀ us, (cut c cs).1 ≠ .unterminated us) (ys : List Char) :
    cut c (cs ++ d :: ys) = ((cut c cs).1, (cut c cs).2 ++ d :: ys) := by
  obtain ⟨hquote, hop, hnumber, hword, -, -⟩ := isSeparator_eq_true hd
  unfold cut at h ⊢
  split
  · rename_i hc
    rw [if_pos hc] at h
    have hne : d ≠ c := by
      intro he
      rw [he, hc] at hquote
      cases hquote
    cases hscan : scan c cs with
    | none =>
      rw [hscan] at h
      exact absurd rfl (h _)
    | some r => simp only [scan_separated hne hscan]
  split
  · rw [takeWhile_separated hop, dropWhile_separated hop]
  split
  · rw [← List.cons_append, splitNumber_separated hd]
  split
  · rw [takeWhile_separated hword, dropWhile_separated hword]
  · rfl

theorem cut_separator (hd : isSeparator d = true) (ys : List Char) :
    cut d ys = (.other d, ys) := by
  obtain ⟨hquote, hop, hnumber, hword, -, -⟩ := isSeparator_eq_true hd
  simp [cut, hquote, hop, hnumber, hword]

/-! ### The parts of a text -/

theorem pieces_separated (hd : isSeparator d = true) {cs : List Char} (h : IsClosed cs)
    (ys : List Char) : pieces (cs ++ d :: ys) = pieces cs ++ .other d :: pieces ys := by
  unfold IsClosed at h
  fun_induction pieces cs with
  | case1 => rw [List.nil_append, pieces_cons, cut_separator hd, List.nil_append]
  | case2 c cs ih =>
    have hfirst : ∀ us, (cut c cs).1 ≠ .unterminated us :=
      fun us he => h us (he ▸ List.mem_cons_self)
    rw [List.cons_append, pieces_cons, cut_separated hd hfirst,
      ih fun us hus => h us (List.mem_cons_of_mem _ hus)]
    rfl

theorem normalizePieces_append (ps qs : List Piece) :
    normalizePieces (ps ++ qs) =
      (normalizePieces ps).bind fun xs => (normalizePieces qs).map (xs ++ ·) := by
  induction ps with
  | nil =>
    cases h : normalizePieces qs with
    | error e => simp [normalizePieces, Except.bind, Except.map, h]
    | ok xs => simp [normalizePieces, Except.bind, Except.map, h]
  | cons p ps ih =>
    rw [List.cons_append, normalizePieces, normalizePieces]
    cases p.normalize with
    | error e => rfl
    | ok cs =>
      simp only [ih]
      cases normalizePieces ps with
      | error e => rfl
      | ok xs =>
        cases normalizePieces qs with
        | error e => rfl
        | ok ys => simp [Except.bind, Except.map]

/-- The parts around a separator are normalized one after the other. -/
theorem normalizeChars_separated (hd : isSeparator d = true) {cs : List Char} (h : IsClosed cs)
    (ys : List Char) :
    normalizeChars (cs ++ d :: ys) =
      (normalizeChars cs).bind fun xs => (normalizeChars ys).map (xs ++ d :: ·) := by
  unfold normalizeChars
  rw [pieces_separated hd h, normalizePieces_append]
  have hother : normalizePieces (.other d :: pieces ys) = (normalizePieces (pieces ys)).map (d :: ·) :=
    rfl
  rw [hother]
  cases normalizePieces (pieces cs) with
  | error e => rfl
  | ok xs =>
    cases normalizePieces (pieces ys) with
    | error e => rfl
    | ok zs => rfl

/-- What has a normal form is closed. -/
theorem isClosed_of_normalizeChars {cs normal : List Char} (h : normalizeChars cs = .ok normal) :
    IsClosed cs := by
  intro us hus
  obtain ⟨ns, hns⟩ := (eq_of_normalizePieces h).2 _ hus
  cases hns

end Clause
end RecordSieve
