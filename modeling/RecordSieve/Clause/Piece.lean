import RecordSieve.Text.Numeric
import RecordSieve.Text.Quoted
/-!
# RecordSieve.Clause.Piece

The pieces a clause is cut into before it is read as a query: quoted text, runs
of comparison symbols, tokens that start like a number, words, and single other
characters. Cutting never fails and loses nothing: the sources of the pieces
joined are the clause again (`pieces_source`).

A number piece takes everything that is stuck to it, so `12abc` is one piece and
can be refused as a whole; a word takes digits and points with it, so the `2` of
`road2` is no number.
-/

namespace RecordSieve
namespace Clause

/-- A piece of a clause. -/
inductive Piece
  /-- Quoted text: the quote character and the body with doubled quotes undone. -/
  | quoted (quote : Char) (body : List Char)
  /-- A quote that is never closed, with everything after it. -/
  | unterminated (source : List Char)
  /-- A run of `=`, `!`, `<` and `>`. -/
  | operator (symbol : List Char)
  /-- A token that starts like a number. -/
  | number (token : List Char)
  /-- A name or keyword. -/
  | word (chars : List Char)
  /-- Any other character. -/
  | other (c : Char)
deriving DecidableEq, Repr

/-- The characters a piece was cut from. -/
def Piece.source : Piece → List Char
  | quoted q body => Text.Quoted.encode q body
  | unterminated cs => cs
  | operator cs => cs
  | number cs => cs
  | word cs => cs
  | other c => [c]

/-! ### Character classes -/

/-- The characters that open quoted text. -/
def isQuote (c : Char) : Bool := c == '\'' || c == '"' || c == '\x60'

/-- The characters of comparison symbols. -/
def isOperatorChar (c : Char) : Bool := c == '=' || c == '!' || c == '<' || c == '>'

/-- The characters a number starts with. -/
def isNumberStart (c : Char) : Bool := c.isDigit || c == '.'

/-- The characters of words, and of what may be stuck to a number. -/
def isWordChar (c : Char) : Bool := Text.isAlphanumeric c || c == '_' || c == '.'

/-! ### Cutting -/

/-- Splits off an exponent: its mark, a sign if there is one, and any digits. -/
def splitExponent : List Char → List Char × List Char
  | [] => ([], [])
  | c :: cs =>
    if c = 'e' ∨ c = 'E' then
      match cs with
      | s :: ds =>
        if s = '+' ∨ s = '-' then
          (c :: s :: ds.takeWhile Char.isDigit, ds.dropWhile Char.isDigit)
        else (c :: cs.takeWhile Char.isDigit, cs.dropWhile Char.isDigit)
      | [] => ([c], [])
    else ([], c :: cs)

/-- Splits off a number token: digits and points, an exponent, and whatever word
characters follow. -/
def splitNumber (cs : List Char) : List Char × List Char :=
  let lead := cs.takeWhile isNumberStart
  let (exponent, rest) := splitExponent (cs.dropWhile isNumberStart)
  (lead ++ exponent ++ rest.takeWhile isWordChar, rest.dropWhile isWordChar)

/-- The first piece of a text and the text after it. -/
def cut (c : Char) (cs : List Char) : Piece × List Char :=
  if isQuote c then
    match Text.Quoted.scan c cs with
    | some (body, rest) => (.quoted c body, rest)
    | none => (.unterminated (c :: cs), [])
  else if isOperatorChar c then
    (.operator (c :: cs.takeWhile isOperatorChar), cs.dropWhile isOperatorChar)
  else if isNumberStart c then
    let (token, rest) := splitNumber (c :: cs)
    (.number token, rest)
  else if isWordChar c then (.word (c :: cs.takeWhile isWordChar), cs.dropWhile isWordChar)
  else (.other c, cs)

/-! ### Nothing is lost -/

theorem splitExponent_append (cs : List Char) :
    (splitExponent cs).1 ++ (splitExponent cs).2 = cs := by
  unfold splitExponent
  split
  · rfl
  · split
    · split
      · split <;> simp
      · rfl
    · rfl

theorem splitNumber_append (cs : List Char) : (splitNumber cs).1 ++ (splitNumber cs).2 = cs := by
  have h := splitExponent_append (cs.dropWhile isNumberStart)
  have e : ∀ l : List Char, l.takeWhile isWordChar ++ l.dropWhile isWordChar = l :=
    fun l => List.takeWhile_append_dropWhile
  simp only [splitNumber, List.append_assoc, e, h]
  exact List.takeWhile_append_dropWhile

/-- A closed quoted text is its written form followed by the rest. -/
theorem encode_of_scan {q : Char} {cs body rest : List Char}
    (h : Text.Quoted.scan q cs = some (body, rest)) :
    Text.Quoted.encode q body ++ rest = q :: cs := by
  suffices Text.Quoted.escape q body ++ q :: rest = cs by
    simpa [Text.Quoted.encode, List.append_assoc] using this
  fun_induction Text.Quoted.scan q cs generalizing body rest with
  | case1 => simp at h
  | case2 => simp at h; obtain ⟨rfl, rfl⟩ := h; rfl
  | case3 => simp at h
  | case4 cs ih =>
    obtain ⟨s, hs, he⟩ := Option.map_eq_some_iff.1 h
    obtain ⟨rfl, rfl⟩ := Prod.mk.inj he
    simp [Text.Quoted.escape_cons_quote, ih hs]
  | case5 => simp at h; obtain ⟨rfl, rfl⟩ := h; rfl
  | case6 c d cs hc ih =>
    obtain ⟨s, hs, he⟩ := Option.map_eq_some_iff.1 h
    obtain ⟨rfl, rfl⟩ := Prod.mk.inj he
    simp [Text.Quoted.escape_cons_other hc, ih hs]

/-- A piece and the text after it are the text it was cut from. -/
theorem cut_source (c : Char) (cs : List Char) :
    (cut c cs).1.source ++ (cut c cs).2 = c :: cs := by
  unfold cut
  split
  · split
    · rename_i body rest h
      exact encode_of_scan h
    · simp [Piece.source]
  · split
    · simp [Piece.source]
    · split
      · exact splitNumber_append (c :: cs)
      · split <;> simp [Piece.source]

/-- Every cut takes at least one character. -/
theorem length_cut_lt (c : Char) (cs : List Char) : (cut c cs).2.length < (c :: cs).length := by
  unfold cut
  have drop_le : ∀ p : Char → Bool, (cs.dropWhile p).length ≤ cs.length :=
    fun p => (List.dropWhile_suffix p).length_le
  split
  · split
    · rename_i h
      have := Text.Quoted.length_lt_of_scan h
      simp only [List.length_cons]
      exact Nat.lt_succ_of_lt this
    · simp
  · split
    · simpa using Nat.lt_succ_of_le (drop_le _)
    · split
      · rename_i h
        have hs := congrArg List.length (splitNumber_append (c :: cs))
        have hp : 0 < (splitNumber (c :: cs)).1.length := by
          simp only [splitNumber, List.takeWhile_cons, h, if_true, List.length_append,
            List.length_cons]
          omega
        simp only [List.length_append] at hs
        simp only
        omega
      · split
        · simpa using Nat.lt_succ_of_le (drop_le _)
        · simp

/-- The pieces of a clause, in order. -/
def pieces : List Char → List Piece
  | [] => []
  | c :: cs => (cut c cs).1 :: pieces (cut c cs).2
termination_by cs => cs.length
decreasing_by exact length_cut_lt c cs

@[simp] theorem pieces_nil : pieces [] = [] := by simp [pieces]

theorem pieces_cons (c : Char) (cs : List Char) :
    pieces (c :: cs) = (cut c cs).1 :: pieces (cut c cs).2 := by
  rw [pieces]

/-- The sources of the pieces joined are the clause. -/
theorem pieces_source (cs : List Char) : (pieces cs).flatMap Piece.source = cs := by
  fun_induction pieces cs with
  | case1 => rfl
  | case2 c cs ih => rw [List.flatMap_cons, ih, cut_source]

end Clause
end RecordSieve
