import RecordSieve.Proofs.Number.Numeral
import RecordSieve.Proofs.Text.Delimiter
import RecordSieve.Query.Comparison
import RecordSieve.Sql.Lexer
import RecordSieve.Sql.Node
/-!
# RecordSieve.Proofs.Sql.Lexing

Cutting a text into tokens, as a relation. `Lexes cs ts us` says that the reader
gets from `cs` to `us` by cutting off the tokens `ts`. What is still to be read is
part of the relation, so the longest match of a name or a number is decided by the
characters that really follow it, and stretches can be joined (`Lexes.append`).
-/

namespace RecordSieve
namespace Sql

open Text (Delimited isDelimiter takeWhile_append dropWhile_append)

/-- The reader gets from one text to an end of it by cutting off some tokens, whatever
came before. -/
inductive Lexes : List Char → List Token → List Char → Prop
  | done (cs : List Char) : Lexes cs [] cs
  | step {c : Char} {cs rest us : List Char} {l : Lexeme} {ts : List Token} :
      (∀ afterWord, step afterWord c cs = some (l, rest)) → rest.length ≤ cs.length →
      Lexes rest ts us → Lexes (c :: cs) (l.toList ++ ts) us

theorem Lexes.append {cs us vs : List Char} {ts ws : List Token} (h : Lexes cs ts us)
    (h' : Lexes us ws vs) : Lexes cs (ts ++ ws) vs := by
  induction h with
  | done => exact h'
  | step hstep hle _ ih =>
    rw [List.append_assoc]
    exact .step hstep hle (ih h')

/-- A token alone. -/
theorem Lexes.token {c : Char} {cs rest : List Char} {t : Token}
    (h : ∀ afterWord, Sql.step afterWord c cs = some (.token t, rest))
    (hle : rest.length ≤ cs.length) : Lexes (c :: cs) [t] rest :=
  .step h hle (.done rest)

/-- The tokens that are cut off come first, on every budget that is large enough. -/
theorem Lexes.tokensWithin {cs us : List Char} {ts : List Token} (h : Lexes cs ts us)
    {budget : Nat} (hb : cs.length ≤ budget) (afterWord : Bool) :
    ∃ left after, us.length ≤ left ∧
      tokensWithin budget afterWord cs = (tokensWithin left after us).map (ts ++ ·) := by
  induction h generalizing budget afterWord with
  | done cs =>
    refine ⟨budget, afterWord, hb, ?_⟩
    cases Sql.tokensWithin budget afterWord cs with
    | none => rfl
    | some ts => rfl
  | @step c cs rest us l ts hstep hle _ ih =>
    cases budget with
    | zero => cases hb
    | succ budget =>
      obtain ⟨left, after, hleft, hrest⟩ :=
        ih (Nat.le_trans hle (Nat.le_of_succ_le_succ hb)) l.isWord
      refine ⟨left, after, hleft, ?_⟩
      rw [Sql.tokensWithin, hstep, Option.bind_some, hrest, Option.map_map]
      simp only [Function.comp_def, List.append_assoc]

/-- What is cut off up to the end are the tokens. -/
theorem Lexes.tokens {cs : List Char} {ts : List Token} (h : Lexes cs ts []) :
    tokens cs = some ts := by
  obtain ⟨left, after, -, hts⟩ := h.tokensWithin (Nat.le_refl _) false
  rw [Sql.tokens, hts, tokensWithin_nil, Option.map_some, List.append_nil]

/-- What is cut off a text on some budget that is large enough. -/
def CutsTo (cs : List Char) (ts : List Token) : Prop :=
  ∃ budget afterWord, cs.length ≤ budget ∧ tokensWithin budget afterWord cs = some ts

theorem cutsTo_of_tokens {cs : List Char} {ts : List Token} (h : tokens cs = some ts) :
    CutsTo cs ts :=
  ⟨cs.length, false, Nat.le_refl _, h⟩

theorem CutsTo.nil {ts : List Token} (h : CutsTo [] ts) : ts = [] := by
  obtain ⟨budget, afterWord, -, hts⟩ := h
  rw [tokensWithin_nil] at hts
  exact (Option.some.inj hts).symm

/-- What is known to be cut off first stands in front of the other tokens. -/
theorem CutsTo.of_lexes {cs us : List Char} {ts ws : List Token} (h : CutsTo cs ws)
    (hl : Lexes cs ts us) : ∃ vs, ws = ts ++ vs ∧ CutsTo us vs := by
  obtain ⟨budget, afterWord, hb, hws⟩ := h
  obtain ⟨left, after, hleft, hrest⟩ := hl.tokensWithin hb afterWord
  rw [hrest] at hws
  obtain ⟨vs, hvs, rfl⟩ := Option.map_eq_some_iff.1 hws
  exact ⟨vs, rfl, left, after, hleft, hvs⟩

/-! ### One stretch -/

theorem lexes_blank {c : Char} (h : Text.isBlank c = true) (cs : List Char) :
    Lexes (c :: cs) [] cs := by
  have hstep : ∀ afterWord, step afterWord c cs = some (.blank, cs) := by
    intro afterWord
    rw [step, if_pos h]
  exact .step hstep (Nat.le_refl _) (.done cs)

/-- White space holds no tokens. -/
theorem lexes_of_allBlank {cs : List Char} (h : Text.allBlank cs = true) : Lexes cs [] [] := by
  induction cs with
  | nil => exact .done []
  | cons c cs ih =>
    rw [Text.allBlank_cons, Bool.and_eq_true] at h
    exact (lexes_blank h.1 cs).append (ih h.2)

/-- A word is cut off where the characters of names end, if no quote follows its
first letter. -/
theorem step_name {c : Char} {cs : List Char} (hc : isNameStart c = true)
    (hquote : ∀ d ∈ cs.head?, d ≠ '\'' ∧ d ≠ '&') (afterWord : Bool) :
    step afterWord c cs = some (.token (.word (String.ofList (c :: cs.takeWhile isNamePart)) none),
      cs.dropWhile isNamePart) := by
  have hname : lexWord c cs = lexName [c] cs := by
    unfold lexWord
    split
    · exact absurd rfl (hquote '\'' rfl).1
    · exact absurd rfl (hquote '&' rfl).2
    · rfl
  rw [step, if_neg (by rw [Text.isBlank_of_isNameStart hc]; exact Bool.false_ne_true), if_pos hc,
    hname]
  rfl

theorem step_word {c : Char} {cs rest : List Char} (hc : isNameStart c = true)
    (hcs : ∀ d ∈ cs, isNamePart d = true) (hend : ∀ d ∈ rest.head?, isNamePart d = false)
    (hquote : ∀ d ∈ (cs ++ rest).head?, d ≠ '\'' ∧ d ≠ '&') (afterWord : Bool) :
    step afterWord c (cs ++ rest) =
      some (.token (.word (String.ofList (c :: cs)) none), rest) := by
  rw [step_name hc hquote, takeWhile_append hcs hend, dropWhile_append hcs hend]

theorem isNamePart_of_isNameStart {c : Char} (h : isNameStart c = true) : isNamePart c = true := by
  simp only [isNameStart, Bool.or_eq_true] at h
  rcases h with h | h
  · simp [isNamePart, h]
  · simp [isNamePart, h]

/-- A word in front of a delimiter is one token. -/
theorem lexes_word {c : Char} {cs rest : List Char} (hc : isNameStart c = true)
    (hcs : ∀ d ∈ cs, isNamePart d = true) (hrest : Delimited rest) :
    Lexes (c :: (cs ++ rest)) [.word (String.ofList (c :: cs)) none] rest := by
  have hend : ∀ d ∈ rest.head?, isNamePart d = false :=
    fun d hd => Text.isNamePart_of_isDelimiter (hrest d hd)
  have hquote : ∀ d ∈ (cs ++ rest).head?, d ≠ '\'' ∧ d ≠ '&' := by
    intro d hd
    cases cs with
    | nil =>
      constructor
      · intro h
        subst h
        exact absurd (hrest _ hd) (by decide)
      · intro h
        subst h
        exact absurd (hrest _ hd) (by decide)
    | cons e es =>
      cases hd
      have he := hcs _ (List.mem_cons_self ..)
      constructor
      · intro h
        subst h
        exact absurd he (by decide)
      · intro h
        subst h
        exact absurd he (by decide)
  refine .token (step_word hc hcs hend hquote) ?_
  rw [List.length_append]
  exact Nat.le_add_left _ _

/-- A name in quotes is one token. -/
theorem lexes_quotedName {q : Char} (hq : q = '\x60' ∨ q = '"') (body : List Char)
    {rest : List Char} (hrest : Delimited rest) :
    Lexes (Text.Quoted.encode q body ++ rest) [.word (String.ofList body) (some q)] rest := by
  have hne : isDelimiter q = false := by
    rcases hq with rfl | rfl <;> decide
  have hscan := Text.Quoted.scan_escape q body rest (hrest.head?_ne hne)
  have hle := Text.Quoted.length_lt_of_scan hscan
  rw [Text.Quoted.encode, List.cons_append, List.append_assoc, List.singleton_append]
  refine .token (fun afterWord => ?_) (Nat.le_of_lt hle)
  rcases hq with rfl | rfl
  · simp only [step, hscan]
    rfl
  · simp only [step, hscan]
    rfl

/-- A text between single quotes is one token. -/
theorem lexes_text (body : List Char) {rest : List Char} (hrest : Delimited rest) :
    Lexes (Text.Quoted.encode '\'' body ++ rest) [.text .plain (String.ofList body)] rest := by
  have hscan := Text.Quoted.scan_escape '\'' body rest (hrest.head?_ne (by decide))
  have hle := Text.Quoted.length_lt_of_scan hscan
  rw [Text.Quoted.encode, List.cons_append, List.append_assoc, List.singleton_append]
  refine .token (fun afterWord => ?_) (Nat.le_of_lt hle)
  simp only [step, lexText, hscan]
  rfl

/-- A number is one token, with a suffix or without. -/
theorem lexes_number {cs rest : List Char} (h : Numeral.IsDecimal cs) (long : Bool)
    (hrest : Delimited rest) :
    Lexes (cs ++ (longSuffix long ++ rest)) [.number (String.ofList cs) long] rest := by
  cases cs with
  | nil => exact absurd rfl h.ne_nil
  | cons c cs =>
    have hc := h.isNumberStart
    have hall : ∀ n ∈ Numeral.startCodes,
        Text.isBlank (Char.ofNat n) = false ∧ isNameStart (Char.ofNat n) = false := by
      decide
    obtain ⟨hblank, hname⟩ := hall _ (Numeral.toNat_mem_startCodes hc)
    rw [Char.ofNat_toNat] at hblank hname
    rw [Clause.isNumberStart] at hc
    refine .token (fun afterWord => ?_) ?_
    · simp only [step, hblank, hname, hc, Bool.false_eq_true, if_false, if_true]
      exact h.lexNumber long hrest afterWord
    · show rest.length ≤ (cs ++ (longSuffix long ++ rest)).length
      rw [List.length_append, List.length_append]
      omega

example : tokens "OR.5L".toList = some [.word "OR" none, .number ".5" true] := by decide +kernel

/-! ### Symbols -/

@[simp] theorem startsWith_nil (cs : List Char) : startsWith [] cs = true := rfl

@[simp] theorem startsWith_cons (d c : Char) (ds cs : List Char) :
    startsWith (d :: ds) (c :: cs) = (c == d && startsWith ds cs) := by
  simp [startsWith]

theorem startsWith_of_head?_ne {d : Char} {cs : List Char} (h : cs.head? ≠ some d)
    (ds : List Char) : startsWith (d :: ds) cs = false := by
  cases cs with
  | nil => rfl
  | cons c cs =>
    have hc : c ≠ d := by
      intro h
      subst h
      exact h rfl
    simp [hc]

/-- A parenthesis, a comma or a plus sign is a symbol, whatever follows. -/
theorem lexes_mark {c : Char} (hc : c ∈ ['(', ')', ',', '+']) (cs : List Char) :
    Lexes (c :: cs) [.symbol (String.ofList [c])] cs := by
  refine .token (fun afterWord => ?_) (Nat.le_refl _)
  simp only [List.mem_cons, List.not_mem_nil, or_false] at hc
  rcases hc with rfl | rfl | rfl | rfl <;> rfl

/-- A minus sign is a symbol, unless it starts a comment or an arrow. -/
theorem lexes_minus {cs : List Char} (hminus : cs.head? ≠ some '-') (harrow : cs.head? ≠ some '>') :
    Lexes ('-' :: cs) [.symbol "-"] cs := by
  refine .token (fun afterWord => ?_) (Nat.le_refl _)
  have hcomment : startsWith ['-'] cs = false := startsWith_of_head?_ne hminus _
  have hsymbol : step afterWord '-' cs = lexSymbol '-' cs := by
    show (if startsWith ['-'] cs then _ else lexSymbol '-' cs) = _
    rw [hcomment]
    rfl
  have hlong : ∀ ds, startsWith ('>' :: ds) cs = false := startsWith_of_head?_ne harrow
  rw [hsymbol]
  simp [lexSymbol, longSymbols, hlong]
  rfl

/-- A comparison in its printed spelling is the symbol of its operator. -/
theorem lexes_comparison (op : Comparison) {rest : List Char} (hrest : Delimited rest) :
    Lexes (op.symbol.toList ++ rest) [.symbol (BinaryOp.compare op).symbol] rest := by
  have hlong : ∀ d : Char, isDelimiter d = false → ∀ ds, startsWith (d :: ds) rest = false :=
    fun d hd => startsWith_of_head?_ne (hrest.head?_ne hd)
  have hle : rest.length ≤ ('=' :: rest).length := Nat.le_succ _
  cases op with
  | eq =>
    refine .token (fun afterWord => ?_) (Nat.le_refl _)
    show lexSymbol '=' rest = _
    simp [lexSymbol, longSymbols, hlong '=' rfl, hlong '>' rfl]
    rfl
  | ne =>
    refine .token (fun afterWord => ?_) hle
    show lexSymbol '!' ('=' :: rest) = _
    simp [lexSymbol, longSymbols]
    rfl
  | lt =>
    refine .token (fun afterWord => ?_) (Nat.le_refl _)
    show lexSymbol '<' rest = _
    simp [lexSymbol, longSymbols, hlong '=' rfl, hlong '>' rfl, hlong '<' rfl, hlong '@' rfl]
    rfl
  | le =>
    refine .token (fun afterWord => ?_) hle
    show lexSymbol '<' ('=' :: rest) = _
    simp [lexSymbol, longSymbols, hlong '>' rfl]
    rfl
  | gt =>
    refine .token (fun afterWord => ?_) (Nat.le_refl _)
    show lexSymbol '>' rest = _
    simp [lexSymbol, longSymbols, hlong '=' rfl, hlong '>' rfl]
    rfl
  | ge =>
    refine .token (fun afterWord => ?_) hle
    show lexSymbol '>' ('=' :: rest) = _
    simp [lexSymbol, longSymbols]
    rfl

end Sql
end RecordSieve
