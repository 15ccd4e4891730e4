import Mathlib.Data.List.Forall2
import Mathlib.Data.List.Perm.Basic
import RecordSieve.Proofs.Clause.Cutting
/-!
# RecordSieve.Proofs.Clause.Acceptance

Which clauses have a normal form, and why the others have none. Two of the three conditions are
said of the text alone, read from left to right with the quote in mind that is open
(`openQuote`): no quote is open at its end, and every run of operator characters outside quotes
is the symbol of a comparison operator. They are conditions on the pieces of the text
(`openQuote_eq_none_iff`, `isOperatorRun_iff`), because no quote is open between two pieces and
a quote is open at every other place of a quoted text, except inside a doubled quote.

A clause without a normal form has a piece that offends (`Piece.Offends`), and the first one is
the error (`normalization_by_pieces`).
-/

namespace RecordSieve
namespace Clause

open Text.Quoted (scan escape encode)
open Text (takeWhile_append)

/-! ### Quotes that are open -/

/-- The quote that is open behind a character, from the one that is open in front of it. A
doubled quote closes and opens again. -/
def quoteStep : Option Char → Char → Option Char
  | none, c => if isQuote c then some c else none
  | some q, c => if c = q then none else some q

/-- The quote that is open at the end of a text. -/
def openQuote (cs : List Char) : Option Char := cs.foldl quoteStep none

theorem openQuote_append {us : List Char} (h : openQuote us = none) (vs : List Char) :
    openQuote (us ++ vs) = openQuote vs := by
  rw [openQuote, openQuote, List.foldl_append]
  exact congrArg (vs.foldl quoteStep) h

theorem openQuote_of_isQuote {cs : List Char} (h : ∀ c ∈ cs, isQuote c = false) :
    openQuote cs = none := by
  induction cs with
  | nil => rfl
  | cons c cs ih =>
    obtain ⟨hc, hcs⟩ := List.forall_mem_cons.1 h
    rw [openQuote, List.foldl_cons, quoteStep, hc]
    exact ih hcs

variable {q : Char}

theorem quoteStep_of_isQuote (hq : isQuote q = true) : quoteStep none q = some q := by
  rw [quoteStep, if_pos hq]

theorem quoteStep_same : quoteStep (some q) q = none := if_pos rfl

theorem quoteStep_of_ne {c : Char} (h : c ≠ q) : quoteStep (some q) c = some q := if_neg h

theorem foldl_quoteStep_escape (hq : isQuote q = true) (body : List Char) :
    (escape q body).foldl quoteStep (some q) = some q := by
  induction body with
  | nil => rfl
  | cons c body ih =>
    by_cases hc : c = q
    · rw [hc, Text.Quoted.escape_cons_quote, List.foldl_cons, List.foldl_cons, quoteStep_same,
        quoteStep_of_isQuote hq, ih]
    · rw [Text.Quoted.escape_cons_other hc, List.foldl_cons, quoteStep_of_ne hc, ih]

theorem openQuote_encode (hq : isQuote q = true) (body : List Char) :
    openQuote (encode q body) = none := by
  rw [openQuote, encode, List.foldl_cons, List.foldl_append, quoteStep_of_isQuote hq,
    foldl_quoteStep_escape hq]
  exact quoteStep_same

theorem foldl_quoteStep_of_scan {cs : List Char} (hq : isQuote q = true)
    (h : scan q cs = none) : cs.foldl quoteStep (some q) = some q := by
  fun_induction scan q cs with
  | case1 => rfl
  | case2 => cases h
  | case3 c hc => exact quoteStep_of_ne hc
  | case4 cs ih =>
    rw [List.foldl_cons, List.foldl_cons, quoteStep_same, quoteStep_of_isQuote hq]
    exact ih (Option.map_eq_none_iff.1 h)
  | case5 => cases h
  | case6 c d cs hc ih =>
    rw [List.foldl_cons, quoteStep_of_ne hc]
    exact ih (Option.map_eq_none_iff.1 h)

/-- Where a text behind an opening quote has no end before its own, no quote is open only
inside a doubled quote. -/
theorem eq_quote_of_scan {cs us vs : List Char} {d : Char} (hq : isQuote q = true)
    (h : ∀ r ∈ scan q cs, r.2 = []) (heq : cs = us ++ d :: vs)
    (hopen : us.foldl quoteStep (some q) = none) : d = q := by
  have hmap : ∀ (f : List Char → List Char) (cs : List Char),
      (∀ r ∈ (scan q cs).map fun r => (f r.1, r.2), r.2 = []) → ∀ r ∈ scan q cs, r.2 = [] :=
    fun f cs h r hr => h (f r.1, r.2) (Option.map_eq_some_iff.2 ⟨r, hr, rfl⟩)
  fun_induction scan q cs generalizing us with
  | case1 => cases us <;> cases heq
  | case2 =>
    cases us with
    | nil => cases hopen
    | cons e us => cases us <;> cases heq
  | case3 =>
    cases us with
    | nil => cases hopen
    | cons e us => cases us <;> cases heq
  | case4 cs ih =>
    rcases us with _ | ⟨e, _ | ⟨f, us⟩⟩
    · cases hopen
    · cases heq
      rfl
    · rw [List.cons_append, List.cons_append] at heq
      cases heq
      rw [List.foldl_cons, List.foldl_cons, quoteStep_same, quoteStep_of_isQuote hq] at hopen
      exact ih (hmap _ _ h) rfl hopen
  | case5 => cases h _ rfl
  | case6 c e cs hc ih =>
    cases us with
    | nil => cases hopen
    | cons f us =>
      rw [List.cons_append] at heq
      obtain ⟨rfl, hrest⟩ := List.cons.inj heq
      rw [List.foldl_cons, quoteStep_of_ne hc] at hopen
      exact ih (hmap _ _ h) hrest hopen

theorem eq_quote_of_openQuote {cs us vs : List Char} {d : Char} (hq : isQuote q = true)
    (h : ∀ r ∈ scan q cs, r.2 = []) (heq : q :: cs = us ++ d :: vs)
    (hopen : openQuote us = none) : d = q := by
  cases us with
  | nil => exact (List.cons.inj heq).1.symm
  | cons e us =>
    rw [List.cons_append] at heq
    obtain ⟨rfl, hrest⟩ := List.cons.inj heq
    rw [openQuote, List.foldl_cons, quoteStep_of_isQuote hq] at hopen
    exact eq_quote_of_scan hq h hrest hopen

/-! ### Quotes and operators of a piece -/

namespace Piece

variable {p : Piece}

theorem IsFormed.isQuote_of_mem (h : p.IsFormed) (hp : p.isQuoted = false) {c : Char}
    (hc : c ∈ p.source) : isQuote c = false := by
  cases h with
  | quoted _ _ => cases hp
  | unterminated _ _ => cases hp
  | operator hall => exact isQuote_of_isOperatorChar (hall c hc)
  | number hlike =>
    rcases hlike.mem_cases hc with hword | hsign
    · exact isQuote_of_isWordChar hword
    · exact (classes_of_isSign hsign).2.2.1
  | word _ hall => exact isQuote_of_isWordChar (hall c hc)
  | other hquote _ _ =>
    cases List.mem_singleton.1 hc
    exact hquote

theorem IsFormed.isOperatorChar_of_mem (h : p.IsFormed) (hp : p.isQuoted = false)
    (hop : ∀ us, p ≠ .operator us) {c : Char} (hc : c ∈ p.source) : isOperatorChar c = false := by
  cases h with
  | quoted _ _ => cases hp
  | unterminated _ _ => cases hp
  | operator _ => exact absurd rfl (hop _)
  | number hlike =>
    rcases hlike.mem_cases hc with hword | hsign
    · exact isOperatorChar_of_isWordChar hword
    · exact (classes_of_isSign hsign).2.2.2.1
  | word _ hall => exact isOperatorChar_of_isWordChar (hall c hc)
  | other _ hother _ =>
    cases List.mem_singleton.1 hc
    exact hother

/-- No quote is open behind a piece, unless the piece is a quote that is not closed. -/
theorem IsFormed.openQuote_source (h : p.IsFormed) :
    (openQuote p.source = none ∧ ∀ us, p ≠ .unterminated us) ∨
      (openQuote p.source ≠ none ∧ ∃ us, p = .unterminated us) := by
  cases hp : p.isQuoted with
  | false =>
    refine .inl ⟨openQuote_of_isQuote fun c => h.isQuote_of_mem hp, ?_⟩
    rintro us rfl
    cases hp
  | true =>
    cases h with
    | quoted body hq => exact .inl ⟨openQuote_encode hq body, nofun⟩
    | @unterminated q us hq hus =>
      have hopen : openQuote (q :: us) = some q := by
        rw [openQuote, List.foldl_cons, quoteStep_of_isQuote hq]
        exact foldl_quoteStep_of_scan hq (scan_eq_none_iff.2 hus)
      exact .inr ⟨fun hnone => (by cases hopen.symm.trans hnone), _, rfl⟩
    | _ => cases hp

end Piece

/-- No quote is open at the end of a text exactly if all its quotes are closed. -/
theorem openQuote_eq_none_iff {cs : List Char} : openQuote cs = none ↔ IsClosed cs := by
  suffices ∀ ps, IsCut cs ps → (openQuote cs = none ↔ ∀ us, .unterminated us ∉ ps) from
    this _ (isCut_pieces cs)
  intro ps h
  induction h with
  | nil => exact ⟨fun _ _ => List.not_mem_nil, fun _ => rfl⟩
  | @cons p rest ps hp hstop _ ih =>
    rcases hp.openQuote_source with ⟨hopen, hne⟩ | ⟨hopen, us, rfl⟩
    · rw [openQuote_append hopen, ih]
      simp only [List.mem_cons, not_or]
      exact ⟨fun h us => ⟨(hne us).symm, h us⟩, fun h us => (h us).2⟩
    · rw [Piece.eq_nil_of_unterminated hstop, List.append_nil]
      exact ⟨fun h => absurd h hopen, fun h => absurd List.mem_cons_self (h us)⟩

/-! ### Runs of operator characters -/

/-- A run of operator characters in a place outside quotes, of which neither side goes on. -/
structure IsRunBetween (front run back : List Char) : Prop where
  openQuote : openQuote front = none
  ne_nil : run ≠ []
  isOperatorChar : ∀ c ∈ run, isOperatorChar c = true
  front : ∀ c ∈ front.getLast?, Clause.isOperatorChar c = false
  back : ∀ c ∈ back.head?, Clause.isOperatorChar c = false

/-- A run of operator characters outside the quotes of a text, as long as it can be. -/
def IsOperatorRun (cs run : List Char) : Prop :=
  ∃ front back, cs = front ++ (run ++ back) ∧ IsRunBetween front run back

variable {p : Piece} {rest run : List Char}

theorem isOperatorRun_operator (hp : (Piece.operator run).IsFormed)
    (hstop : ∀ d ∈ rest.head?, (Piece.operator run).StopsAt d) :
    IsOperatorRun (run ++ rest) run := by
  cases hp with
  | operator hall => exact ⟨[], rest, rfl, rfl, List.cons_ne_nil _ _, hall, nofun, hstop⟩

theorem Piece.IsFormed.isOperatorChar_getLast? (hp : p.IsFormed) (hop : ∀ us, p ≠ .operator us)
    (hclosed : ∀ us, p ≠ .unterminated us) :
    ∀ c ∈ p.source.getLast?, isOperatorChar c = false := by
  intro c hc
  cases hquoted : p.isQuoted with
  | false => exact hp.isOperatorChar_of_mem hquoted hop (List.mem_of_getLast? hc)
  | true =>
    cases hp with
    | @quoted q body hq =>
      have hlast : c = q := by
        rw [Piece.source, encode, ← List.cons_append, List.getLast?_concat] at hc
        exact (Option.some.inj hc).symm
      rw [hlast]
      exact isOperatorChar_of_isQuote hq
    | unterminated _ _ => exact absurd rfl (hclosed _)
    | _ => cases hquoted

/-- A run behind a piece is a run of the whole text. -/
theorem IsOperatorRun.source_append (h : IsOperatorRun rest run) (hp : p.IsFormed)
    (hstop : ∀ d ∈ rest.head?, p.StopsAt d) : IsOperatorRun (p.source ++ rest) run := by
  obtain ⟨front, back, rfl, hrun⟩ := h
  obtain ⟨d, run, rfl⟩ := List.exists_cons_of_ne_nil hrun.ne_nil
  have hop := hrun.isOperatorChar d List.mem_cons_self
  rcases hp.openQuote_source with ⟨hopen, hclosed⟩ | ⟨-, us, rfl⟩
  · refine ⟨p.source ++ front, back, by rw [List.append_assoc], ?_, hrun.ne_nil,
      hrun.isOperatorChar, ?_, hrun.back⟩
    · rw [openQuote_append hopen, hrun.openQuote]
    · cases front with
      | nil =>
        rw [List.append_nil]
        refine hp.isOperatorChar_getLast? ?_ hclosed
        rintro us rfl
        have hend : isOperatorChar d = false := hstop d rfl
        rw [hop] at hend
        cases hend
      | cons e front =>
        rw [List.getLast?_append_cons]
        exact hrun.front
  · have hnil := List.append_eq_nil_iff.1 (Piece.eq_nil_of_unterminated hstop)
    cases hnil.2

/-- An operator character in a piece, outside quotes and behind no other one, is the first
character of an operator. -/
theorem Piece.IsFormed.eq_operator {front mid : List Char} {d : Char} (hp : p.IsFormed)
    (hsource : p.source = front ++ d :: mid) (hop : isOperatorChar d = true)
    (hopen : openQuote front = none) (hfront : ∀ c ∈ front.getLast?, isOperatorChar c = false) :
    front = [] ∧ ∃ us, p = .operator us := by
  have hmem : d ∈ p.source := hsource ▸ List.mem_append_right _ List.mem_cons_self
  have hquote : ∀ q cs, isQuote q = true → p.source = q :: cs → ¬∀ r ∈ scan q cs, r.2 = [] := by
    intro q cs hq hcs h
    rw [eq_quote_of_openQuote hq h (hcs.symm.trans hsource) hopen,
      isOperatorChar_of_isQuote hq] at hop
    cases hop
  have hother : p.isQuoted = false → ¬∀ us, p ≠ .operator us := by
    intro hquoted hne
    rw [hp.isOperatorChar_of_mem hquoted hne hmem] at hop
    cases hop
  cases hp with
  | @quoted q body hq =>
    refine absurd ?_ (hquote q (escape q body ++ [q]) hq rfl)
    rw [Text.Quoted.scan_escape q body [] nofun]
    rintro _ ⟨⟩
    rfl
  | @unterminated q us hq hus =>
    refine absurd ?_ (hquote q us hq rfl)
    rw [scan_eq_none_iff.2 hus]
    exact nofun
  | operator hall =>
    rw [Piece.source] at hsource
    rw [hsource] at hall
    have hlast : front.getLast? = none := by
      refine Option.eq_none_iff_forall_not_mem.2 fun c hc => ?_
      exact absurd (hall c (List.mem_append_left _ (List.mem_of_getLast? hc)))
        (Bool.eq_false_iff.1 (hfront c hc))
    exact ⟨List.getLast?_eq_none_iff.1 hlast, _, rfl⟩
  | _ => exact (hother rfl fun _ he => Piece.noConfusion he).elim

/-- A run of a text is its first piece or is behind it. -/
theorem IsOperatorRun.of_source_append (h : IsOperatorRun (p.source ++ rest) run)
    (hp : p.IsFormed) (hstop : ∀ d ∈ rest.head?, p.StopsAt d) :
    p = .operator run ∨ IsOperatorRun rest run := by
  obtain ⟨front, back, heq, hrun⟩ := h
  have hbehind : ∀ mid, front = p.source ++ mid → rest = mid ++ (run ++ back) →
      IsOperatorRun rest run := by
    rintro mid rfl rfl
    obtain ⟨hopen, -⟩ | ⟨-, us, rfl⟩ := hp.openQuote_source
    · refine ⟨mid, back, rfl, ?_, hrun.ne_nil, hrun.isOperatorChar, fun c hc => ?_, hrun.back⟩
      · rw [← openQuote_append hopen, hrun.openQuote]
      · exact hrun.front c (List.mem_getLast?_append_of_mem_getLast? hc)
    · have hnil := List.append_eq_nil_iff.1 (Piece.eq_nil_of_unterminated hstop)
      exact absurd (List.append_eq_nil_iff.1 hnil.2).1 hrun.ne_nil
  rcases List.append_eq_append_iff.1 heq with ⟨mid, hfront, hrest⟩ | ⟨mid, hsource, hback⟩
  · exact .inr (hbehind mid hfront hrest)
  cases mid with
  | nil =>
    rw [List.append_nil] at hsource
    exact .inr (hbehind [] (by rw [hsource, List.append_nil]) hback.symm)
  | cons d mid =>
    -- The run starts inside the piece, which is then an operator and ends where the run does.
    obtain ⟨e, es, rfl⟩ := List.exists_cons_of_ne_nil hrun.ne_nil
    cases (List.cons.inj hback).1
    obtain ⟨rfl, us, rfl⟩ := hp.eq_operator hsource (hrun.isOperatorChar _ List.mem_cons_self)
      hrun.openQuote hrun.front
    have hall : ∀ c ∈ us, isOperatorChar c = true := by
      cases hp with
      | operator hall => exact hall
    have htake := congrArg (List.takeWhile isOperatorChar) heq
    rw [List.nil_append, Piece.source, takeWhile_append hall hstop,
      takeWhile_append hrun.isOperatorChar hrun.back] at htake
    exact .inl (congrArg Piece.operator htake)

/-- The runs of operator characters are the operators among the pieces. -/
theorem isOperatorRun_iff {cs : List Char} :
    IsOperatorRun cs run ↔ .operator run ∈ pieces cs := by
  suffices ∀ ps, IsCut cs ps → (IsOperatorRun cs run ↔ .operator run ∈ ps) from
    this _ (isCut_pieces cs)
  intro ps h
  induction h with
  | nil =>
    refine ⟨?_, nofun⟩
    rintro ⟨front, back, heq, hrun⟩
    exact absurd (List.append_eq_nil_iff.1 (List.append_eq_nil_iff.1 heq.symm).2).1 hrun.ne_nil
  | @cons p rest ps hp hstop _ ih =>
    rw [List.mem_cons, ← ih]
    constructor
    · intro h
      exact (h.of_source_append hp hstop).imp_left Eq.symm
    · rintro (rfl | h)
      · exact isOperatorRun_operator hp hstop
      · exact h.source_append hp hstop

/-! ### Pieces that offend -/

namespace Piece

/-- What is wrong with a piece: a quote that is not closed, operator characters that are no
symbol of a comparison operator, and a token that is no number or too large a one. -/
inductive Offends : Piece → CompileError → Prop
  | unclosed (cs : List Char) :
      Offends (unterminated cs) (.malformed (.unterminatedQuote (String.ofList cs)))
  | unknown {run : List Char} : String.ofList run ∉ comparisonSymbols →
      Offends (operator run) (.unsupported (.operator (String.ofList run)))
  | invalid {token : List Char} : Numeral.read? token = none →
      Offends (number token) (.malformed (.invalidNumber (String.ofList token)))
  | tooLarge {token : List Char} {n : Binary64} : Numeral.read? token = some n →
      n.isFinite = false →
      Offends (number token) (.malformed (.numberOutOfRange (String.ofList token)))

/-- What a piece is in the normal form: a text in double quotes the same text in single ones, an
operator its one symbol, and anything else what it is. -/
inductive Becomes : Piece → List Char → Prop
  | requoted (body : List Char) : Becomes (quoted '"' body) (encode '\'' body)
  | printed {run : List Char} {op : Comparison} :
      Comparison.ofSymbol? (String.ofList run) = some op →
      Becomes (operator run) op.symbol.toList
  | kept {p : Piece} : (∀ body, p ≠ quoted '"' body) → (∀ run, p ≠ operator run) →
      Becomes p p.source

theorem normalize_eq_error_iff {p : Piece} {e : CompileError} :
    p.normalize = .error e ↔ p.Offends e := by
  constructor
  · intro h
    cases p with
    | unterminated cs =>
      cases h
      exact .unclosed cs
    | operator run =>
      rw [normalize] at h
      split at h
      · cases h
      · rename_i hop
        cases h
        refine .unknown fun hmem => ?_
        obtain ⟨op, hsome⟩ := mem_comparisonSymbols_iff.1 hmem
        cases hop.symm.trans hsome
    | number token =>
      rw [normalize, readNumber] at h
      split at h
      · rename_i hread
        cases h
        exact .invalid hread
      · rename_i n hread
        split at h
        · cases h
        · rename_i hfinite
          cases h
          exact .tooLarge hread (Bool.eq_false_iff.2 hfinite)
    | _ => cases h
  · intro h
    cases h with
    | unclosed cs => rfl
    | @unknown run hmem =>
      cases hop : Comparison.ofSymbol? (String.ofList run) with
      | none => simp only [normalize, hop]
      | some op => exact absurd (mem_comparisonSymbols_iff.2 ⟨op, hop⟩) hmem
    | invalid hread =>
      simp only [normalize, readNumber, hread]
      rfl
    | tooLarge hread hfinite =>
      simp only [normalize, readNumber, hread, hfinite]
      rfl

theorem becomes_of_normalize {p : Piece} {cs : List Char} (h : p.normalize = .ok cs) :
    p.Becomes cs := by
  cases p with
  | quoted q body =>
    cases h
    by_cases hq : q = '"'
    · rw [if_pos hq, hq]
      exact .requoted body
    · rw [if_neg hq]
      refine .kept (fun _ he => ?_) fun _ he => Piece.noConfusion he
      cases he
      exact hq rfl
  | unterminated us => cases h
  | operator run =>
    rw [normalize] at h
    split at h
    · rename_i op hop
      cases h
      exact .printed hop
    · cases h
  | number token =>
    obtain ⟨n, -, rfl⟩ := Except.map_eq_ok_iff.1 h
    exact .kept (fun _ he => Piece.noConfusion he) fun _ he => Piece.noConfusion he
  | word us =>
    cases h
    exact .kept (fun _ he => Piece.noConfusion he) fun _ he => Piece.noConfusion he
  | other c =>
    cases h
    exact .kept (fun _ he => Piece.noConfusion he) fun _ he => Piece.noConfusion he

end Piece

theorem normalizePieces_cons_of_ok {p : Piece} {cs : List Char} (h : p.normalize = .ok cs)
    (ps : List Piece) : normalizePieces (p :: ps) = (normalizePieces ps).map (cs ++ ·) := by
  rw [normalizePieces, h]

theorem normalizePieces_cons_of_error {p : Piece} {e : CompileError} (h : p.normalize = .error e)
    (ps : List Piece) : normalizePieces (p :: ps) = .error e := by
  rw [normalizePieces, h]

/-- The first piece that offends decides the error. -/
theorem normalizePieces_eq_error_iff {ps : List Piece} {e : CompileError} :
    normalizePieces ps = .error e ↔ ∃ before p after, ps = before ++ p :: after ∧
      (∀ q ∈ before, ∀ e, ¬q.Offends e) ∧ p.Offends e := by
  simp only [← Piece.normalize_eq_error_iff]
  constructor
  · intro h
    induction ps with
    | nil => cases h
    | cons p ps ih =>
      cases hp : p.normalize with
      | error e' =>
        rw [normalizePieces_cons_of_error hp] at h
        cases h
        exact ⟨[], p, ps, rfl, nofun, hp⟩
      | ok cs =>
        rw [normalizePieces_cons_of_ok hp] at h
        obtain ⟨before, r, after, rfl, hbefore, hr⟩ := ih (Except.map_eq_error_iff.1 h)
        refine ⟨p :: before, r, after, rfl, List.forall_mem_cons.2 ⟨fun e he => ?_, hbefore⟩, hr⟩
        cases hp.symm.trans he
  · rintro ⟨before, p, after, rfl, hbefore, hp⟩
    induction before with
    | nil => exact normalizePieces_cons_of_error hp after
    | cons q before ih =>
      obtain ⟨hq, hbefore⟩ := List.forall_mem_cons.1 hbefore
      rw [List.cons_append]
      cases hq' : q.normalize with
      | error e' => exact absurd hq' (hq e')
      | ok cs =>
        rw [normalizePieces_cons_of_ok hq', ih hbefore]
        rfl

/-- A normal form is made of what the pieces become. -/
theorem becomes_of_normalizePieces {ps : List Piece} {cs : List Char}
    (h : normalizePieces ps = .ok cs) :
    ∃ parts, List.Forall₂ Piece.Becomes ps parts ∧ cs = parts.flatten := by
  induction ps generalizing cs with
  | nil =>
    cases h
    exact ⟨[], .nil, rfl⟩
  | cons p ps ih =>
    cases hp : p.normalize with
    | error e =>
      rw [normalizePieces_cons_of_error hp] at h
      cases h
    | ok us =>
      rw [normalizePieces_cons_of_ok hp] at h
      obtain ⟨vs, hvs, rfl⟩ := Except.map_eq_ok_iff.1 h
      obtain ⟨parts, hparts, rfl⟩ := ih hvs
      exact ⟨us :: parts, .cons (Piece.becomes_of_normalize hp) hparts, List.flatten_cons.symm⟩

/-- Pieces have a normal form exactly if none of them offends. -/
theorem exists_normalizePieces_iff {ps : List Piece} :
    (∃ cs, normalizePieces ps = .ok cs) ↔ ∀ p ∈ ps, ∀ e, ¬p.Offends e := by
  constructor
  · rintro ⟨cs, h⟩ p hp e hoffends
    obtain ⟨ns, hns⟩ := (eq_of_normalizePieces h).2 p hp
    cases hns.symm.trans (Piece.normalize_eq_error_iff.2 hoffends)
  · intro h
    cases hps : normalizePieces ps with
    | ok cs => exact ⟨cs, rfl⟩
    | error e =>
      obtain ⟨before, p, after, rfl, -, hp⟩ := normalizePieces_eq_error_iff.1 hps
      exact absurd hp (h p (List.mem_append_right _ List.mem_cons_self) e)

/-- What it says of a text that none of its pieces offends. -/
theorem forall_not_offends_iff {cs : List Char} :
    (∀ p ∈ pieces cs, ∀ e, ¬p.Offends e) ↔
      openQuote cs = none ∧
        (∀ run, IsOperatorRun cs run → String.ofList run ∈ comparisonSymbols) ∧
        ∀ token, .number token ∈ pieces cs →
          ∃ n, Numeral.read? token = some n ∧ n.isFinite = true := by
  simp only [openQuote_eq_none_iff, isOperatorRun_iff]
  constructor
  · intro h
    refine ⟨fun us hus => h _ hus _ (.unclosed us), fun run hrun => ?_, fun token htoken => ?_⟩
    · by_contra hmem
      exact h _ hrun _ (.unknown hmem)
    · cases hread : Numeral.read? token with
      | none => exact absurd (.invalid hread) (h _ htoken _)
      | some n =>
        refine ⟨n, rfl, ?_⟩
        by_contra hfinite
        exact h _ htoken _ (.tooLarge hread (Bool.eq_false_iff.2 hfinite))
  · rintro ⟨hclosed, hruns, hnumbers⟩ p hp e hoffends
    cases hoffends with
    | unclosed cs => exact hclosed cs hp
    | unknown hmem => exact hmem (hruns _ hp)
    | invalid hread =>
      obtain ⟨n, hn, -⟩ := hnumbers _ hp
      cases hread.symm.trans hn
    | tooLarge hread hinfinite =>
      obtain ⟨n, hn, hfinite⟩ := hnumbers _ hp
      cases hread.symm.trans hn
      rw [hfinite] at hinfinite
      cases hinfinite

theorem IsCut.after_unterminated {cs us : List Char} {before after : List Piece}
    (h : IsCut cs (before ++ .unterminated us :: after)) : after = [] := by
  induction before generalizing cs with
  | nil =>
    cases h with
    | cons _ hstop hrest =>
      cases Piece.eq_nil_of_unterminated hstop
      exact (isCut_iff.1 hrest).trans pieces_nil
  | cons p before ih =>
    cases h with
    | cons _ _ hrest => exact ih hrest

theorem heading_of_offends {p : Piece} {e : CompileError} (h : p.Offends e) :
    e.heading ≠ CompileError.grammar.heading := by
  cases h <;> simp [CompileError.heading]

/-- The pieces of a clause are its only cutting: none is empty, and together they are the
clause. The clause has a normal form exactly if no quote is open at its end, every run of
operator characters outside quotes is a symbol, and every number token is a finite number; then
all pieces but operators and texts in double quotes are kept. Otherwise the first piece that
offends is the error, an open quote with all that is behind it; the grammar is never blamed. -/
theorem normalization_by_pieces (clause : String) :
    (∀ ps, IsCut clause.toList ps ↔ ps = pieces clause.toList) ∧
      (∀ p ∈ pieces clause.toList, p.source ≠ []) ∧
      (pieces clause.toList).flatMap Piece.source = clause.toList ∧
      ((∃ normal, normalize clause = .ok normal) ↔
        openQuote clause.toList = none ∧
          (∀ run, IsOperatorRun clause.toList run → String.ofList run ∈ comparisonSymbols) ∧
          ∀ token, .number token ∈ pieces clause.toList →
            ∃ n, Numeral.read? token = some n ∧ n.isFinite = true) ∧
      (∀ normal, normalize clause = .ok normal →
        ∃ parts, List.Forall₂ Piece.Becomes (pieces clause.toList) parts ∧
          normal.toList = parts.flatten) ∧
      (∀ e, normalize clause = .error e ↔
        ∃ before p after, pieces clause.toList = before ++ p :: after ∧
          (∀ q ∈ before, ∀ e, ¬q.Offends e) ∧ p.Offends e) ∧
      (∀ before us after, pieces clause.toList = before ++ .unterminated us :: after →
        after = []) ∧
      ∀ e, normalize clause = .error e → e.heading ≠ CompileError.grammar.heading := by
  have herror : ∀ e, normalize clause = .error e ↔
      ∃ before p after, pieces clause.toList = before ++ p :: after ∧
        (∀ q ∈ before, ∀ e, ¬q.Offends e) ∧ p.Offends e :=
    fun e => Except.map_eq_error_iff.trans normalizePieces_eq_error_iff
  refine ⟨fun ps => isCut_iff, fun p hp hnil => ?_, pieces_source _, ?_, fun normal h => ?_, herror,
    fun before us after h => ?_, fun e he => ?_⟩
  · obtain ⟨c, cs, hcs⟩ := ((isCut_pieces _).isFormed p hp).exists_head
    cases hcs.symm.trans hnil
  · rw [← forall_not_offends_iff, ← exists_normalizePieces_iff]
    constructor
    · rintro ⟨normal, h⟩
      obtain ⟨cs, hcs, -⟩ := Except.map_eq_ok_iff.1 h
      exact ⟨cs, hcs⟩
    · rintro ⟨cs, h⟩
      exact ⟨String.ofList cs, Except.map_eq_ok_iff.2 ⟨cs, h, rfl⟩⟩
  · obtain ⟨cs, hcs, rfl⟩ := Except.map_eq_ok_iff.1 h
    rw [String.toList_ofList]
    exact becomes_of_normalizePieces hcs
  · exact (h ▸ isCut_pieces clause.toList).after_unterminated
  · obtain ⟨before, p, after, -, -, hp⟩ := (herror e).1 he
    exact heading_of_offends hp

/-- One clause with three pieces that offend, and one with a normal form. -/
theorem normalization_by_pieces_first :
    normalize "a2 => 12abc'" = .error (.unsupported (.operator "=>")) ∧
      normalize "a2 <> \"it's\"" = .ok "a2 != 'it''s'" ∧
      ∃ parts, List.Forall₂ Piece.Becomes (pieces "a2 <> \"it's\"".toList) parts ∧
        "a2 != 'it''s'".toList = parts.flatten := by
  have hpieces : pieces "a2 => 12abc'".toList =
      [.word ['a', '2'], .other ' '] ++ .operator ['=', '>'] ::
        [.other ' ', .number ['1', '2', 'a', 'b', 'c'], .unterminated ['\'']] := by
    decide +kernel
  have hbefore : ∀ q ∈ [Piece.word ['a', '2'], .other ' '], ∀ e, ¬q.Offends e := by
    intro q hq e hoffends
    cases hoffends <;> simp at hq
  obtain ⟨-, -, -, -, -, herror, -, -⟩ := normalization_by_pieces "a2 => 12abc'"
  have hnormal : normalize "a2 <> \"it's\"" = .ok "a2 != 'it''s'" :=
    Except.toOption_eq_some_iff.1 (by decide +kernel)
  obtain ⟨-, -, -, -, hparts, -, -, -⟩ := normalization_by_pieces "a2 <> \"it's\""
  refine ⟨?_, hnormal, hparts _ hnormal⟩
  exact (herror _).2 ⟨_, _, _, hpieces, hbefore, .unknown (by decide)⟩

/-- A clause of ten runs of operator characters: it has a normal form, so whichever nine symbols
there are, one of its runs is none of them. -/
theorem normalization_of_ten_symbols :
    (∃ normal, normalize "= == === != !== <> > >= < <=" = .ok normal) ∧
      ∀ known : List String, known.length = 9 →
        ∃ run, IsOperatorRun "= == === != !== <> > >= < <=".toList run ∧
          String.ofList run ∉ known := by
  refine ⟨⟨"= = = != != != > >= < <=", Except.toOption_eq_some_iff.1 (by decide +kernel)⟩, ?_⟩
  intro known hlength
  by_contra hall
  have hmem : ∀ s ∈ comparisonSymbols,
      Piece.operator s.toList ∈ pieces "= == === != !== <> > >= < <=".toList := by
    decide +kernel
  have hknown : comparisonSymbols ⊆ known := by
    intro s hs
    by_contra hnot
    refine hall ⟨s.toList, isOperatorRun_iff.2 (hmem s hs), ?_⟩
    rwa [String.ofList_toList]
  have hnodup : comparisonSymbols.Nodup := by decide
  have hle := (List.subperm_of_subset hnodup hknown).length_le
  rw [hlength] at hle
  exact absurd hle (by decide)

end Clause
end RecordSieve
