import RecordSieve.Clause.Piece
import RecordSieve.Proofs.Sql.Lexing
/-!
# RecordSieve.Proofs.Sql.Step

What one step of the lexer takes off a text, said once. `Takes cs l rest` has one rule for
each kind of lexeme that filters are made of and one for all others, and `takes_of_step`
says that every step is by one of the rules. `Scans` puts steps in a row without a budget,
so that facts about the tokens of a text are proved by going along the steps.
-/

namespace RecordSieve
namespace Sql

open Clause (isQuote isNumberStart)

/-! ### One step -/

/-- What a bare name may start with: a letter, or one or two marks and any character that
makes no symbol with them. -/
inductive StartsName : List Char → Prop
  | letter {c : Char} : isNameStart c = true → StartsName [c]
  | hash {c : Char} : c ≠ '-' → c ≠ '>' → c ≠ ' ' → StartsName ['#', c]
  | single {c : Char} : c ∉ ['>', '?', '@', ' ', '\'', '"', '\x60'] → StartsName ['@', c]
  | double {c : Char} : c ≠ ' ' → StartsName ['@', '@', c]

/-- The tokens that filters are made of: words, numbers, plain texts and symbols. -/
def Token.isOrdinary : Token → Bool
  | word _ _ | number _ _ | symbol _ => true
  | text kind _ => kind == .plain
  | _ => false

/-- What one step takes off a text. Of a token that no filter is made of nothing is said
but that it is one. -/
inductive Takes : List Char → Lexeme → List Char → Prop
  | blank {c : Char} {cs : List Char} : Text.isBlank c = true → Takes (c :: cs) .blank cs
  | line {cs : List Char} : Takes ('-' :: '-' :: cs) .blank ((cs.dropWhile (· != '\n')).drop 1)
  | block {cs rest : List Char} :
      afterComment 0 cs = some rest → Takes ('/' :: '*' :: cs) .blank rest
  | name {start cs : List Char} : StartsName start →
      Takes (start ++ cs)
        (.token (.word (String.ofList (start ++ cs.takeWhile isNamePart)) none))
        (cs.dropWhile isNamePart)
  | quotedName {q : Char} {cs body rest : List Char} :
      q = '\x60' ∨ q = '"' → Text.Quoted.scan q cs = some (body, rest) →
      Takes (q :: cs) (.token (.word (String.ofList body) (some q))) rest
  | text {cs body rest : List Char} : Text.Quoted.scan '\'' cs = some (body, rest) →
      Takes ('\'' :: cs) (.token (.text .plain (String.ofList body))) rest
  | number {c : Char} {cs rest : List Char} (long : Bool) : isNumberStart c = true →
      (∀ d ∈ c :: cs, isQuote d = false) →
      Takes (c :: cs ++ (longSuffix long ++ rest))
        (.token (.number (String.ofList (c :: cs)) long)) rest
  | symbol {s : String} (cs : List Char) {rest : List Char} : (∀ d ∈ cs, isQuote d = false) →
      Takes (cs ++ rest) (.token (.symbol s)) rest
  | other {t : Token} {cs rest : List Char} : t.isOrdinary = false → Takes cs (.token t) rest

/-- What passes a test that quotes fail is no quote. -/
theorem isQuote_eq_false {p : Char → Bool} {c : Char} (h : p c = true)
    (hp : ['\'', '"', '\x60'].any p = false) : isQuote c = false := by
  rw [Bool.eq_false_iff]
  intro hc
  have hmem : c ∈ ['\'', '"', '\x60'] := by simpa [isQuote, or_assoc] using hc
  exact List.any_eq_false.1 hp c hmem h

/-- A symbol whose characters are written out, so that the test for quotes can be computed. -/
theorem Takes.mark {s : String} (cs : List Char) {rest : List Char} (h : cs.any isQuote = false) :
    Takes (cs ++ rest) (.token (.symbol s)) rest :=
  .symbol cs (by simpa using h)

/-! ### Numbers -/

/-- The characters of number tokens. -/
def isNumberPart (c : Char) : Bool := c.isDigit || ['.', 'e', 'E', '+', '-'].contains c

theorem isQuote_of_isNumberPart {c : Char} (h : isNumberPart c = true) : isQuote c = false :=
  isQuote_eq_false h (by decide)

theorem isNumberPart_of_isDigit {c : Char} (h : c.isDigit = true) : isNumberPart c = true := by
  rw [isNumberPart, h, Bool.true_or]

/-- A text is split in two, and its first part holds the characters of numbers only. -/
structure SplitsNumber (cs xs ys : List Char) : Prop where
  joined : cs = xs ++ ys
  isNumberPart : ∀ c ∈ xs, isNumberPart c = true

theorem SplitsNumber.nil (cs : List Char) : SplitsNumber cs [] cs := ⟨rfl, nofun⟩

theorem SplitsNumber.digits (cs : List Char) :
    SplitsNumber cs (cs.takeWhile Char.isDigit) (cs.dropWhile Char.isDigit) :=
  ⟨List.takeWhile_append_dropWhile.symm,
    fun c hc => isNumberPart_of_isDigit (Numeral.isDigits_takeWhile cs c hc)⟩

theorem SplitsNumber.cons {c : Char} {cs xs ys : List Char} (hc : Sql.isNumberPart c = true)
    (h : SplitsNumber cs xs ys) : SplitsNumber (c :: cs) (c :: xs) ys :=
  ⟨congrArg (c :: ·) h.joined, List.forall_mem_cons.2 ⟨hc, h.isNumberPart⟩⟩

theorem SplitsNumber.append {cs xs ys zs us : List Char} (h : SplitsNumber cs xs ys)
    (h' : SplitsNumber ys zs us) : SplitsNumber cs (xs ++ zs) us := by
  refine ⟨?_, fun c hc => ?_⟩
  · rw [h.joined, h'.joined, List.append_assoc]
  · rcases List.mem_append.1 hc with hc | hc
    · exact h.isNumberPart c hc
    · exact h'.isNumberPart c hc

theorem splitsNumber_decimalPart (cs : List Char) :
    SplitsNumber cs (decimalPart cs).1 (decimalPart cs).2 := by
  have hwhole := SplitsNumber.digits cs
  unfold decimalPart
  simp only
  split
  · rename_i r hr
    rw [hr] at hwhole
    exact hwhole.append (.cons rfl (.digits r))
  · exact hwhole

theorem isNumberPart_mark {c : Char} (h : c = 'e' ∨ c = 'E') : isNumberPart c = true := by
  rcases h with rfl | rfl <;> rfl

theorem isNumberPart_sign {c : Char} (h : c = '+' ∨ c = '-') : isNumberPart c = true := by
  rcases h with rfl | rfl <;> rfl

theorem splitsNumber_exponentPart (cs : List Char) :
    SplitsNumber cs (exponentPart cs).1 (exponentPart cs).2 := by
  unfold exponentPart
  split
  · split
    · rename_i hmark
      split
      · exact .cons (isNumberPart_mark hmark) (.digits _)
      · split
        · rename_i hsign
          exact .cons (isNumberPart_mark hmark) (.cons (isNumberPart_sign hsign.1) (.digits _))
        · exact .nil _
    · exact .nil _
  · split
    · rename_i h
      exact .cons (isNumberPart_mark h.1) (.cons (isNumberPart_of_isDigit h.2) (.nil _))
    · exact .nil _
  · exact .nil _

variable {afterWord : Bool} {c : Char} {cs rest : List Char} {l : Lexeme}

/-- What splits off a number token is taken as one, with its suffix. -/
theorem SplitsNumber.takes {xs : List Char} (long : Bool) (hc : isNumberStart c = true)
    (h : SplitsNumber (c :: cs) xs (longSuffix long ++ rest)) (hne : xs ≠ []) :
    Takes (c :: cs) (.token (.number (String.ofList xs) long)) rest := by
  cases xs with
  | nil => exact absurd rfl hne
  | cons d ds =>
    rw [h.joined]
    obtain ⟨rfl, -⟩ := List.cons.inj h.joined
    exact .number long hc fun d hd => isQuote_of_isNumberPart (h.isNumberPart d hd)

/-- The decimal part of a text that starts like a number is not empty. -/
theorem decimalPart_ne_nil (hc : isNumberStart c = true) (cs : List Char) :
    (decimalPart (c :: cs)).1 ≠ [] := by
  unfold decimalPart
  simp only
  split
  · exact List.append_ne_nil_of_right_ne_nil _ (List.cons_ne_nil _ _)
  · rename_i hpoint
    by_cases hdigit : c.isDigit = true
    · rw [List.takeWhile_cons_of_pos hdigit]
      exact List.cons_ne_nil _ _
    · rw [isNumberStart, Bool.eq_false_iff.2 hdigit, Bool.false_or, beq_iff_eq] at hc
      subst hc
      exact absurd rfl (hpoint _)

theorem takes_of_lexNumber (hc : isNumberStart c = true)
    (h : lexNumber afterWord (c :: cs) = some (l, rest)) : Takes (c :: cs) l rest := by
  have hdecimal := splitsNumber_decimalPart (c :: cs)
  have hne := decimalPart_ne_nil hc cs
  unfold lexNumber at h
  split at h
  · split at h
    · rename_i he _
      cases h
      rw [he]
      exact .mark ['.'] rfl
    · cases h
  · generalize decimalPart (c :: cs) = parts at h hdecimal hne
    obtain ⟨decimal, r⟩ := parts
    simp only at h hdecimal hne
    split at h
    · rename_i hlone
      cases h
      rw [hdecimal.joined, hlone]
      exact .mark ['.'] rfl
    · split at h
      · cases h
        exact .other rfl
      · have hexponent := hdecimal.append (splitsNumber_exponentPart r)
        have hnumber := List.append_ne_nil_of_left_ne_nil hne (exponentPart r).1
        split at h
        · rename_i us hus
          cases h
          rw [hus] at hexponent
          exact hexponent.takes true hc hnumber
        · cases h
          exact hexponent.takes false hc hnumber

/-! ### Words, texts and symbols -/

theorem takes_of_lexName {start : List Char} (hstart : StartsName start)
    (h : lexName start cs = some (l, rest)) : Takes (start ++ cs) l rest := by
  cases h
  exact .name hstart

theorem takes_of_lexText {kind : TextKind} (hkind : kind ≠ .plain) {us : List Char}
    (h : lexText kind cs = some (l, rest)) : Takes us l rest := by
  unfold lexText at h
  split at h
  · cases h
    exact .other (by simpa [Token.isOrdinary] using hkind)
  · cases h

theorem takes_of_lexTextBy (kind : TextKind) (hkind : kind ≠ .plain)
    {body : Nat → List Char → Option (List Char × List Char)} {us : List Char}
    (h : lexTextBy kind body cs = some (l, rest)) : Takes us l rest := by
  unfold lexTextBy at h
  split at h
  · cases h
    exact .other (by simpa [Token.isOrdinary] using hkind)
  · cases h

theorem ne_plain_of_markedKind? {kind : TextKind} (h : markedKind? c = some kind) :
    kind ≠ .plain := by
  unfold markedKind? at h
  intro hplain
  subst hplain
  repeat' split at h
  all_goals cases h

theorem takes_of_lexWord (hc : isNameStart c = true) (h : lexWord c cs = some (l, rest)) :
    Takes (c :: cs) l rest := by
  unfold lexWord at h
  split at h
  · split at h
    · rename_i hkind
      exact takes_of_lexText (ne_plain_of_markedKind? hkind) h
    · split at h
      · exact takes_of_lexTextBy .escaped nofun h
      · exact takes_of_lexName (.letter hc) h
  · split at h
    · exact takes_of_lexTextBy .unicode nofun h
    · exact takes_of_lexName (.letter hc) h
  · exact takes_of_lexName (.letter hc) h

/-- Symbols have characters, and none of these is a quote or white space. -/
theorem mem_longSymbols {s : String × String} (hs : s ∈ longSymbols c) :
    s.1 ≠ "" ∧ ∀ d ∈ s.1.toList, isQuote d = false ∧ Text.isBlank d = false := by
  have ite : ∀ {p : Prop} [Decidable p] {f : String × String → Bool} {x y : List (String × String)},
      x.all f = true → y.all f = true → (if p then x else y).all f = true := by
    intro p _ f x y hx hy
    by_cases hp : p
    · rwa [if_pos hp]
    · rwa [if_neg hp]
  have hall : (longSymbols c).all (fun s =>
      s.1 != "" && s.1.toList.all fun d => !isQuote d && !Text.isBlank d) = true := by
    unfold longSymbols
    repeat' first
      | decide
      | refine ite ?_ ?_
  simpa using List.all_eq_true.1 hall s hs

theorem takes_of_lexSymbol (hc : isQuote c = false) (h : lexSymbol c cs = some (l, rest)) :
    Takes (c :: cs) l rest := by
  unfold lexSymbol at h
  split at h
  · rename_i written printed hfind
    cases h
    have hstart : startsWith written.toList (c :: cs) = true := by
      simpa using List.find?_some hfind
    have htake : (c :: cs).take written.length = written.toList := by
      simpa [startsWith, String.length_toList] using hstart
    have hjoined := List.take_append_drop written.length (c :: cs)
    rw [htake] at hjoined
    have hquote : ∀ d ∈ written.toList, isQuote d = false :=
      fun d hd => ((mem_longSymbols (List.mem_of_find?_eq_some hfind)).2 d hd).1
    have htakes : Takes (written.toList ++ (c :: cs).drop written.length)
        (.token (.symbol printed)) ((c :: cs).drop written.length) := .symbol _ hquote
    rwa [hjoined] at htakes
  · cases h
    exact .symbol [c] (by simpa using hc)

theorem takes_of_lexHash (h : lexHash cs = some (l, rest)) : Takes ('#' :: cs) l rest := by
  unfold lexHash at h
  split at h
  · cases h
    exact .mark ['#'] rfl
  · rename_i d ds
    split at h
    · rename_i hd
      subst hd
      cases h
      exact .mark ['#', '-'] rfl
    · split at h
      · rename_i hd
        subst hd
        split at h
        · cases h
          exact .mark ['#', '>', '>'] rfl
        · cases h
          exact .mark ['#', '>'] rfl
      · split at h
        · cases h
          exact .mark ['#'] rfl
        · exact takes_of_lexName (.hash ‹_› ‹_› ‹_›) h

theorem takes_of_lexAt (h : lexAt cs = some (l, rest)) : Takes ('@' :: cs) l rest := by
  unfold lexAt at h
  split at h
  · cases h
    exact .mark ['@'] rfl
  · rename_i d ds
    split at h
    · rename_i hd
      subst hd
      cases h
      exact .mark ['@', '>'] rfl
    · split at h
      · rename_i hd
        subst hd
        cases h
        exact .mark ['@', '?'] rfl
      · split at h
        · rename_i hd
          subst hd
          split at h
          · cases h
            exact .mark ['@', '@'] rfl
          · split at h
            · cases h
              exact .mark ['@', '@'] rfl
            · exact takes_of_lexName (.double ‹_›) h
        · split at h
          · cases h
            exact .mark ['@'] rfl
          · rename_i h1 h2 h3 h4
            refine takes_of_lexName (.single ?_) h
            simp only [not_or] at h4
            simp only [List.mem_cons, List.not_mem_nil, or_false, not_or]
            exact ⟨h1, h2, h3, h4⟩

theorem takes_of_lexDollar {us : List Char} (h : lexDollar cs = some (l, rest)) :
    Takes us l rest := by
  unfold lexDollar at h
  simp only at h
  split at h
  · split at h
    · cases h
      exact .other rfl
    · cases h
  · cases h
    exact .other rfl

/-! ### All of them -/

theorem isQuote_of_isSymbolChar (h : isSymbolChar c = true) : isQuote c = false :=
  isQuote_eq_false h (by decide)

/-- Every step is by one of the rules. -/
theorem takes_of_step (h : step afterWord c cs = some (l, rest)) : Takes (c :: cs) l rest := by
  have ite : ∀ {p : Prop} [Decidable p] {x y : Lex},
      (p → x = some (l, rest) → Takes (c :: cs) l rest) →
      (y = some (l, rest) → Takes (c :: cs) l rest) →
      (if p then x else y) = some (l, rest) → Takes (c :: cs) l rest := by
    intro p _ x y hx hy h
    by_cases hp : p
    · exact hx hp ((if_pos hp).symm.trans h)
    · exact hy ((if_neg hp).symm.trans h)
  refine ite (fun hc hx => ?_) (ite (fun hc => takes_of_lexWord hc) ?_) h
  · cases hx
    exact .blank hc
  refine ite (fun hc => takes_of_lexNumber hc) (ite (fun hc hx => ?_) (ite (fun hc hx => ?_) ?_))
  · subst hc
    unfold lexText at hx
    split at hx
    · cases hx
      exact .text ‹_›
    · cases hx
  · rw [Bool.or_eq_true, decide_eq_true_eq, decide_eq_true_eq] at hc
    split at hx
    · cases hx
      exact .quotedName hc ‹_›
    · cases hx
  refine ite (fun hc hx => ?_) (ite (fun hc hx => ?_) ?_)
  · rw [Bool.and_eq_true, decide_eq_true_eq] at hc
    obtain ⟨rfl, hstart⟩ := hc
    cases hx
    cases cs with
    | nil => cases hstart
    | cons d ds =>
      rw [startsWith_cons, Bool.and_eq_true, beq_iff_eq] at hstart
      obtain ⟨rfl, -⟩ := hstart
      exact .line
  · rw [Bool.and_eq_true, decide_eq_true_eq] at hc
    obtain ⟨rfl, hstart⟩ := hc
    obtain ⟨us, hus, he⟩ := Option.map_eq_some_iff.1 hx
    cases he
    cases cs with
    | nil => cases hstart
    | cons d ds =>
      rw [startsWith_cons, Bool.and_eq_true, beq_iff_eq] at hstart
      obtain ⟨rfl, -⟩ := hstart
      exact .block hus
  refine ite (fun hc hx => ?_) (ite (fun hc hx => ?_) (ite (fun _ hx => ?_) ?_))
  · rw [hc]
    exact takes_of_lexHash hx
  · rw [hc]
    exact takes_of_lexAt hx
  · cases hx
    exact .other rfl
  refine ite (fun _ => takes_of_lexDollar) (ite (fun hc hx => ?_) fun hx => ?_)
  · exact takes_of_lexSymbol (isQuote_of_isSymbolChar hc) hx
  · cases hx
    exact .other rfl

/-! ### Steps in a row -/

/-- The lexer gets from one text to an end of it by cutting off some tokens. The flags tell
whether the last token before each text is a word that touches it. -/
inductive Scans : Bool → List Char → List Token → Bool → List Char → Prop
  | done (w : Bool) (cs : List Char) : Scans w cs [] w cs
  | step {w w' : Bool} {c : Char} {cs rest us : List Char} {l : Lexeme} {ts : List Token} :
      Sql.step w c cs = some (l, rest) → Scans l.isWord rest ts w' us →
      Scans w (c :: cs) (l.toList ++ ts) w' us

/-- The tokens of a text are cut off it step by step. -/
theorem scans_of_tokens {ts : List Token} (h : tokens cs = some ts) :
    ∃ w, Scans false cs ts w [] := by
  have hwithin : ∀ budget w cs ts, tokensWithin budget w cs = some ts → ∃ w', Scans w cs ts w' [] := by
    intro budget
    induction budget with
    | zero =>
      intro w cs ts h
      cases cs with
      | nil =>
        cases h
        exact ⟨w, .done w []⟩
      | cons c cs => cases h
    | succ budget ih =>
      intro w cs ts h
      cases cs with
      | nil =>
        cases h
        exact ⟨w, .done w []⟩
      | cons c cs =>
        obtain ⟨⟨l, rest⟩, hstep, hrest⟩ := Option.bind_eq_some_iff.1 h
        obtain ⟨us, hus, rfl⟩ := Option.map_eq_some_iff.1 hrest
        obtain ⟨w', hscans⟩ := ih _ _ _ hus
        exact ⟨w', .step hstep hscans⟩
  exact hwithin _ _ _ _ h

theorem Scans.forall_mem {P : Token → Prop} {w w' : Bool} {cs us : List Char} {ts : List Token}
    (hP : ∀ cs t rest, Takes cs (.token t) rest → P t) (h : Scans w cs ts w' us) :
    ∀ t ∈ ts, P t := by
  induction h with
  | done => exact nofun
  | @step w w' c cs rest us l ts hstep _ ih =>
    intro t ht
    rcases List.mem_append.1 ht with ht | ht
    · cases l with
      | token u =>
        cases List.mem_singleton.1 ht
        exact hP _ _ _ (takes_of_step hstep)
      | blank => cases ht
    · exact ih t ht

/-- What holds of every token that a step takes off holds of all tokens of a text. -/
theorem forall_mem_tokens {P : Token → Prop} {ts : List Token}
    (hP : ∀ cs t rest, Takes cs (.token t) rest → P t) (h : tokens cs = some ts) :
    ∀ t ∈ ts, P t := by
  obtain ⟨w, hscans⟩ := scans_of_tokens h
  exact hscans.forall_mem hP

/-- Whether a token does not look like a number, or starts like one. -/
def Token.StartsAsNumber : Token → Prop
  | .number s _ => ∀ c ∈ s.toList.head?, isNumberStart c = true
  | _ => True

/-- The number tokens of a text start like numbers, so none of them has a sign. -/
theorem startsAsNumber_of_mem_tokens {ts : List Token} (h : tokens cs = some ts) :
    ∀ t ∈ ts, t.StartsAsNumber := by
  refine forall_mem_tokens (fun us t rest htakes => ?_) h
  cases htakes with
  | number long hc _ =>
    intro d hd
    rw [String.toList_ofList] at hd
    cases hd
    exact hc
  | other ht =>
    cases t with
    | number s long => cases ht
    | _ => trivial
  | _ => trivial

end Sql
end RecordSieve
