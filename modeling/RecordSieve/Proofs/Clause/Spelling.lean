import RecordSieve.Clause.Normal
import RecordSieve.Proofs.Sql.Lexing
import RecordSieve.Proofs.Sql.Lowering
/-!
# RecordSieve.Proofs.Clause.Spelling

The ways of writing tokens in a clause. `Spells` relates what is written to its
normal form and to the token it stands for, and `Written` puts such spellings in a
row. The two readers of a clause then do their work one after the other: a written
row has a normal form, and the tokens of the normal form are the row again
(`Written.normalizes`).
-/

namespace RecordSieve
namespace Clause

open Sql (Token BinaryOp Lexes)
open Text (Delimited isDelimiter takeWhile_append dropWhile_append)

/-! ### Spellings -/

/-- A token other than a punctuation mark as it is written, and in its normal form. -/
inductive Spells : List Char → List Char → Token → Prop
  | word {s : String} :
      Expression.isPlainName s.toList = true → (∀ c ∈ s.toList, Sql.isNamePart c = true) →
      Spells s.toList s.toList (.word s none)
  | name (s : String) :
      Spells (Text.Quoted.encode '\x60' s.toList) (Text.Quoted.encode '\x60' s.toList)
        (.word s (some '\x60'))
  | text {q : Char} (s : String) : q = '\'' ∨ q = '"' →
      Spells (Text.Quoted.encode q s.toList) (Text.Quoted.encode '\'' s.toList) (.text .plain s)
  | number {s : String} {n : Binary64} :
      (∀ c ∈ s.toList.head?, isNumberStart c = true) → readNumber s.toList = .ok n →
      Spells s.toList s.toList (.number s)
  | comparison {symbol : String} {op : Comparison} : Comparison.ofSymbol? symbol = some op →
      Spells symbol.toList op.symbol.toList (.symbol (BinaryOp.compare op).symbol)

/-- Tokens in a row: white space between them, which may be left out around
parentheses and commas and between a sign and its number. -/
inductive Written : List Token → List Char → Prop
  | nil : Written [] []
  | blank {c : Char} {cs : List Char} {ts : List Token} :
      Text.isBlank c = true → Written ts cs → Written ts (c :: cs)
  | spelled {raw normal cs : List Char} {t : Token} {ts : List Token} :
      Spells raw normal t → Delimited cs → Written ts cs → Written (t :: ts) (raw ++ cs)
  | mark {c : Char} {cs : List Char} {ts : List Token} :
      c ∈ ['(', ')', ','] → Written ts cs → Written (.symbol (String.ofList [c]) :: ts) (c :: cs)
  | sign (minus : Bool) {c : Char} {cs : List Char} {ts : List Token} :
      Text.isBlank c = true ∨ isNumberStart c = true → Written ts (c :: cs) →
      Written (.symbol (if minus then "-" else "+") :: ts)
        ((if minus then '-' else '+') :: c :: cs)

/-! ### Character classes -/

theorem classes_of_isNumberStart {c : Char} (h : isNumberStart c = true) :
    isQuote c = false ∧ isOperatorChar c = false ∧ Sql.isNameStart c = false := by
  have hall : ∀ n ∈ Numeral.startCodes, isQuote (Char.ofNat n) = false ∧
      isOperatorChar (Char.ofNat n) = false ∧ Sql.isNameStart (Char.ofNat n) = false := by
    decide
  have hc := hall _ (Numeral.toNat_mem_startCodes h)
  rwa [Char.ofNat_toNat] at hc

theorem classes_of_isNameStart {c : Char} (h : Sql.isNameStart c = true) :
    isQuote c = false ∧ isOperatorChar c = false ∧ isNumberStart c = false := by
  have hne : ∀ d : Char, Sql.isNameStart d = false → c ≠ d := by
    intro d hd h
    subst h
    rw [h] at hd
    cases hd
  refine ⟨?_, ?_, ?_⟩
  · simp [isQuote, hne '\'' rfl, hne '"' rfl, hne '\x60' rfl]
  · simp [isOperatorChar, hne '=' rfl, hne '!' rfl, hne '<' rfl, hne '>' rfl]
  · cases hn : isNumberStart c with
    | false => rfl
    | true =>
      rw [(classes_of_isNumberStart hn).2.2] at h
      cases h

theorem isQuote_of_isOperatorChar {c : Char} (h : isOperatorChar c = true) : isQuote c = false := by
  simp only [isOperatorChar, Bool.or_eq_true, beq_iff_eq] at h
  rcases h with ((rfl | rfl) | rfl) | rfl <;> rfl

/-- A plain name starts like a name and goes on with the characters of words. -/
theorem isPlainName_cons {c : Char} {cs : List Char} (h : Expression.isPlainName (c :: cs) = true) :
    Sql.isNameStart c = true ∧ isWordChar c = true ∧ ∀ d ∈ cs, isWordChar d = true := by
  simp only [Expression.isPlainName, Bool.and_eq_true, List.all_eq_true] at h
  obtain ⟨hc, hcs⟩ := h
  refine ⟨hc, ?_, fun d hd => ?_⟩
  · simp only [Bool.or_eq_true] at hc
    rcases hc with hc | hc
    · simp [isWordChar, Text.isAlphanumeric, hc]
    · simp [isWordChar, hc]
  · have hd := hcs d hd
    rw [isWordChar, hd]
    rfl

/-! ### The reader of pieces -/

theorem cut_delimiter {c : Char} (h : isDelimiter c = true) (cs : List Char) :
    cut c cs = (.other c, cs) := by
  simp [cut, Text.isQuote_of_isDelimiter h, Text.isOperatorChar_of_isDelimiter h,
    Text.isNumberStart_of_isDelimiter h, Text.isWordChar_of_isDelimiter h]

/-- A plain name in front of a delimiter is one piece. -/
theorem cut_word {c : Char} {cs rest : List Char} (h : Expression.isPlainName (c :: cs) = true)
    (hrest : Delimited rest) : cut c (cs ++ rest) = (.word (c :: cs), rest) := by
  obtain ⟨hstart, hword, hcs⟩ := isPlainName_cons h
  obtain ⟨hquote, hop, hnum⟩ := classes_of_isNameStart hstart
  have hend : ∀ d ∈ rest.head?, isWordChar d = false :=
    fun d hd => Text.isWordChar_of_isDelimiter (hrest d hd)
  simp only [cut, hquote, hop, hnum, hword, Bool.false_eq_true, if_false, if_true,
    takeWhile_append hcs hend, dropWhile_append hcs hend]

theorem cut_quoted {q : Char} (hq : isQuote q = true) (body : List Char) {rest : List Char}
    (hrest : Delimited rest) :
    cut q (Text.Quoted.escape q body ++ q :: rest) = (.quoted q body, rest) := by
  have hne : rest.head? ≠ some q := by
    refine hrest.head?_ne ?_
    cases hd : isDelimiter q with
    | false => rfl
    | true =>
      rw [Text.isQuote_of_isDelimiter hd] at hq
      cases hq
  simp only [cut, hq, if_true, Text.Quoted.scan_escape q body rest hne]

theorem cut_number {c : Char} {cs rest : List Char} (h : Numeral.IsDecimal (c :: cs))
    (hrest : Delimited rest) : cut c (cs ++ rest) = (.number (c :: cs), rest) := by
  have hstart := h.isNumberStart
  obtain ⟨hquote, hop, -⟩ := classes_of_isNumberStart hstart
  have hsplit := h.splitNumber hrest
  rw [List.cons_append] at hsplit
  simp only [cut, hquote, hop, hstart, hsplit, Bool.false_eq_true, if_false, if_true]

theorem cut_operator {c : Char} {cs rest : List Char} (h : ∀ d ∈ c :: cs, isOperatorChar d = true)
    (hrest : Delimited rest) : cut c (cs ++ rest) = (.operator (c :: cs), rest) := by
  have hc := h c (List.mem_cons_self ..)
  have hcs : ∀ d ∈ cs, isOperatorChar d = true := fun d hd => h d (List.mem_cons_of_mem _ hd)
  have hend : ∀ d ∈ rest.head?, isOperatorChar d = false :=
    fun d hd => Text.isOperatorChar_of_isDelimiter (hrest d hd)
  simp only [cut, isQuote_of_isOperatorChar hc, hc, Bool.false_eq_true, if_false, if_true,
    takeWhile_append hcs hend, dropWhile_append hcs hend]

/-- A text is normalized piece by piece. -/
theorem normalizeChars_of_cut {c : Char} {cs rest ns normal : List Char} {p : Piece}
    (hcut : cut c cs = (p, rest)) (hp : p.normalize = .ok ns)
    (hrest : normalizeChars rest = .ok normal) :
    normalizeChars (c :: cs) = .ok (ns ++ normal) := by
  rw [normalizeChars, pieces_cons, hcut, normalizePieces, hp]
  simp only
  rw [normalizeChars] at hrest
  rw [hrest]
  rfl

/-- The symbols that comparison operators may be written with. -/
def comparisonSymbols : List String := ["=", "==", "===", "!=", "!==", "<>", ">", ">=", "<", "<="]

theorem mem_comparisonSymbols_iff {symbol : String} :
    symbol ∈ comparisonSymbols ↔ ∃ op, Comparison.ofSymbol? symbol = some op := by
  constructor
  · have hall : ∀ s ∈ comparisonSymbols, (Comparison.ofSymbol? s).isSome = true := by decide
    exact fun h => Option.isSome_iff_exists.1 (hall symbol h)
  · rintro ⟨op, h⟩
    refine Decidable.byContradiction fun hmem => ?_
    simp only [comparisonSymbols, List.mem_cons, List.not_mem_nil, or_false, not_or] at hmem
    simp [Comparison.ofSymbol?, hmem] at h

theorem isOperatorChar_of_ofSymbol? {symbol : String} {op : Comparison}
    (h : Comparison.ofSymbol? symbol = some op) :
    symbol.toList ≠ [] ∧ ∀ c ∈ symbol.toList, isOperatorChar c = true := by
  have hall : ∀ s ∈ comparisonSymbols, s.toList ≠ [] ∧ s.toList.all isOperatorChar = true := by
    decide
  obtain ⟨hne, hop⟩ := hall symbol (mem_comparisonSymbols_iff.2 ⟨op, h⟩)
  exact ⟨hne, List.all_eq_true.1 hop⟩

/-- What is spelled is normalized to its normal form. -/
theorem Spells.normalizes {raw normal rest cs : List Char} {t : Token} (h : Spells raw normal t)
    (hrest : Delimited rest) (hcs : normalizeChars rest = .ok cs) :
    normalizeChars (raw ++ rest) = .ok (normal ++ cs) := by
  cases h with
  | @word s hplain _ =>
    generalize s.toList = raw at *
    cases raw with
    | nil => cases hplain
    | cons c raw => exact normalizeChars_of_cut (cut_word hplain hrest) rfl hcs
  | name s =>
    have hcut := cut_quoted (q := '\x60') rfl s.toList hrest
    rw [Text.Quoted.encode, List.cons_append, List.append_assoc]
    exact normalizeChars_of_cut hcut rfl hcs
  | text s hq =>
    rw [Text.Quoted.encode, List.cons_append, List.append_assoc]
    -- Both quotes of a text become the one of the normal form.
    rcases hq with rfl | rfl
    · exact normalizeChars_of_cut (cut_quoted rfl s.toList hrest) rfl hcs
    · exact normalizeChars_of_cut (cut_quoted rfl s.toList hrest) rfl hcs
  | @number s n hstart hn =>
    generalize s.toList = raw at *
    cases raw with
    | nil => cases hn
    | cons c raw =>
      have hread := (readNumber_eq_ok_iff.1 hn).1
      have hdecimal := Numeral.isDecimal_of_read? hread (hstart c rfl)
      refine normalizeChars_of_cut (cut_number hdecimal hrest) ?_ hcs
      rw [Piece.normalize, hn]
      rfl
  | @comparison symbol op hop =>
    obtain ⟨hne, hall⟩ := isOperatorChar_of_ofSymbol? hop
    have hnormalize : (Piece.operator symbol.toList).normalize = .ok op.symbol.toList := by
      rw [Piece.normalize, String.ofList_toList, hop]
    -- Operators of several spellings have one normal form.
    generalize symbol.toList = raw at *
    cases raw with
    | nil => exact absurd rfl hne
    | cons c raw => exact normalizeChars_of_cut (cut_operator hall hrest) hnormalize hcs

/-- A number token that denotes a number is cut off with its suffix. -/
theorem lexes_numberToken {s : String} {n : Binary64} {rest : List Char}
    (hstart : ∀ c ∈ s.toList.head?, isNumberStart c = true) (hn : readNumber s.toList = .ok n)
    (long : Bool) (hrest : Delimited rest) :
    Lexes (s.toList ++ (Sql.longSuffix long ++ rest)) [.number s long] rest := by
  have hs := String.ofList_toList (s := s)
  generalize s.toList = raw at *
  subst hs
  cases raw with
  | nil => cases hn
  | cons c raw =>
    have hread := (readNumber_eq_ok_iff.1 hn).1
    exact Sql.lexes_number (Numeral.isDecimal_of_read? hread (hstart c rfl)) long hrest

/-- The normal form of what is spelled is cut off as its token. -/
theorem Spells.lexes {raw normal rest : List Char} {t : Token} (h : Spells raw normal t)
    (hrest : Delimited rest) : Lexes (normal ++ rest) [t] rest := by
  cases h with
  | @word s hplain hparts =>
    have hs := String.ofList_toList (s := s)
    generalize s.toList = raw at *
    subst hs
    cases raw with
    | nil => cases hplain
    | cons c raw =>
      refine Sql.lexes_word (isPlainName_cons hplain).1 (fun d hd => ?_) hrest
      exact hparts d (List.mem_cons_of_mem _ hd)
  | name s =>
    have h := Sql.lexes_quotedName (.inl rfl) s.toList hrest
    rwa [String.ofList_toList] at h
  | text s _ =>
    have h := Sql.lexes_text s.toList hrest
    rwa [String.ofList_toList] at h
  | number hstart hn => exact lexes_numberToken hstart hn false hrest
  | comparison _ => exact Sql.lexes_comparison _ hrest

/-! ### Rows -/

/-- What the first reader makes of a row: its normal form, from which the second reader
cuts the tokens of the row. The start of the text is kept where no quote or operator
is, which is what delimiters and signs ask of the text after a token. -/
structure Normalizes (ts : List Token) (cs normal : List Char) : Prop where
  normalizes : normalizeChars cs = .ok normal
  lexes : Lexes normal ts []
  start : ∀ c ∈ cs.head?, isQuote c = false → isOperatorChar c = false → normal.head? = some c
  ends : cs = [] → normal = []

theorem Normalizes.delimited {ts : List Token} {cs normal : List Char}
    (h : Normalizes ts cs normal) (hcs : Delimited cs) : Delimited normal := by
  cases cs with
  | nil =>
    rw [h.ends rfl]
    exact .nil
  | cons c cs =>
    have hc := hcs c rfl
    intro d hd
    rw [h.start c rfl (Text.isQuote_of_isDelimiter hc) (Text.isOperatorChar_of_isDelimiter hc)] at hd
    cases hd
    exact hc

/-- A character that both readers take by itself. -/
theorem Normalizes.cons {c : Char} {ts us : List Token} {cs normal : List Char}
    (h : Normalizes ts cs normal) (hcut : cut c cs = (.other c, cs))
    (hlex : Lexes (c :: normal) us normal) : Normalizes (us ++ ts) (c :: cs) (c :: normal) where
  normalizes := normalizeChars_of_cut hcut rfl h.normalizes
  lexes := hlex.append h.lexes
  start := by
    intro d hd _ _
    cases hd
    rfl
  ends := nofun

/-- The start of what is spelled is kept in its normal form, or is a quote or an
operator. -/
theorem Spells.head? {raw normal : List Char} {t : Token} (h : Spells raw normal t) :
    raw ≠ [] ∧ ∀ c ∈ raw.head?, isQuote c = false → isOperatorChar c = false →
      normal.head? = some c := by
  cases h with
  | @word s hplain _ =>
    refine ⟨?_, fun c hc _ _ => hc⟩
    generalize s.toList = raw at *
    intro h
    subst h
    cases hplain
  | name body => exact ⟨nofun, fun c hc _ _ => hc⟩
  | text body hq =>
    refine ⟨nofun, fun c hc hquote _ => ?_⟩
    cases hc
    rcases hq with rfl | rfl
    · cases hquote
    · cases hquote
  | @number s n _ hn =>
    refine ⟨?_, fun c hc _ _ => hc⟩
    generalize s.toList = raw at *
    intro h
    subst h
    cases hn
  | comparison hop =>
    obtain ⟨hne, hall⟩ := isOperatorChar_of_ofSymbol? hop
    refine ⟨hne, fun c hc _ hno => ?_⟩
    rw [hall c (List.mem_of_head? hc)] at hno
    cases hno

/-- A row of tokens has a normal form, and the tokens of the normal form are the row. -/
theorem Written.normalizes {ts : List Token} {cs : List Char} (h : Written ts cs) :
    ∃ normal, Normalizes ts cs normal := by
  induction h with
  | nil =>
    refine ⟨[], ?_, .done [], nofun, fun _ => rfl⟩
    rw [normalizeChars, pieces_nil]
    rfl
  | @blank c cs ts hc _ ih =>
    obtain ⟨normal, hn⟩ := ih
    exact ⟨_, hn.cons (cut_delimiter (Text.isDelimiter_of_isBlank hc) cs)
      (Sql.lexes_blank hc normal)⟩
  | @spelled raw form cs t ts hspell hcs _ ih =>
    obtain ⟨normal, hn⟩ := ih
    obtain ⟨hne, hhead⟩ := hspell.head?
    have hlex := (hspell.lexes (hn.delimited hcs)).append hn.lexes
    refine ⟨form ++ normal, hspell.normalizes hcs hn.normalizes, hlex, ?_, ?_⟩
    · intro c hc hquote hop
      have hc : c ∈ raw.head? := by
        cases raw with
        | nil => exact absurd rfl hne
        | cons d ds => exact hc
      have hc := hhead c hc hquote hop
      rw [List.head?_append, hc]
      rfl
    · intro he
      exact absurd (List.append_eq_nil_iff.1 he).1 hne
  | @mark c cs ts hc _ ih =>
    obtain ⟨normal, hn⟩ := ih
    have hd : isDelimiter c = true := by
      simp only [List.mem_cons, List.not_mem_nil, or_false] at hc
      rcases hc with rfl | rfl | rfl <;> rfl
    have hmem : c ∈ ['(', ')', ',', '+'] := List.mem_append_left ['+'] hc
    exact ⟨_, hn.cons (cut_delimiter hd cs) (Sql.lexes_mark hmem normal)⟩
  -- A sign must not be taken for a comment or an arrow together with what follows it.
  | @sign minus c cs ts hc _ ih =>
    obtain ⟨normal, hn⟩ := ih
    obtain ⟨hquote, hop⟩ : isQuote c = false ∧ isOperatorChar c = false := by
      rcases hc with hc | hc
      · have hd := Text.isDelimiter_of_isBlank hc
        exact ⟨Text.isQuote_of_isDelimiter hd, Text.isOperatorChar_of_isDelimiter hd⟩
      · obtain ⟨hquote, hop, -⟩ := classes_of_isNumberStart hc
        exact ⟨hquote, hop⟩
    have hne : ∀ d : Char, Text.isBlank d = false → isNumberStart d = false → c ≠ d := by
      intro d hblank hnum h
      subst h
      rw [hblank, hnum] at hc
      rcases hc with hc | hc <;> cases hc
    have hhead := hn.start c rfl hquote hop
    cases minus with
    | false => exact ⟨_, hn.cons rfl (Sql.lexes_mark (by decide) normal)⟩
    | true =>
      refine ⟨_, hn.cons rfl (Sql.lexes_minus ?_ ?_)⟩
      · rw [hhead]
        simpa using hne '-' rfl rfl
      · rw [hhead]
        simpa using hne '>' rfl rfl

end Clause
end RecordSieve
