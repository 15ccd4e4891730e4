import Mathlib.Data.List.TakeWhile
import RecordSieve.Proofs.Clause.Separator
/-!
# RecordSieve.Proofs.Clause.Cutting

How a clause is cut into pieces, said without the reader that does it. Every piece has the form
that goes with its first character (`Piece.IsFormed`) and reaches as far as this form allows:
the character behind it does not go on with it (`Piece.StopsAt`). A row of such pieces is a
cutting of the text that they make up (`IsCut`), and every text has one cutting, which is what
the reader finds (`isCut_iff`).

The reader takes a number in three runs, and looks one character back for a sign. What it takes
is the longest text of the form `IsNumberLike` (`splitNumber_of_isNumberLike`).
-/

namespace RecordSieve
namespace Clause

open Text.Quoted (scan escape encode)
open Text (takeWhile_append dropWhile_append)

/-! ### Character classes -/

theorem isWordChar_of_isNumberStart {c : Char} (h : isNumberStart c = true) :
    isWordChar c = true := by
  have hall : ∀ n ∈ Numeral.startCodes, isWordChar (Char.ofNat n) = true := by decide
  have hc := hall _ (Numeral.toNat_mem_startCodes h)
  rwa [Char.ofNat_toNat] at hc

theorem isWordChar_of_isDigit {c : Char} (h : c.isDigit = true) : isWordChar c = true :=
  isWordChar_of_isNumberStart (by simp [isNumberStart, h])

theorem isWordChar_of_isOperatorChar {c : Char} (h : isOperatorChar c = true) :
    isWordChar c = false := by
  simp only [isOperatorChar, Bool.or_eq_true, beq_iff_eq] at h
  rcases h with ((rfl | rfl) | rfl) | rfl <;> rfl

theorem isWordChar_of_isQuote {c : Char} (h : isQuote c = true) : isWordChar c = false := by
  cases hw : isWordChar c with
  | false => rfl
  | true =>
    rw [isQuote_of_isWordChar hw] at h
    cases h

theorem isOperatorChar_of_isWordChar {c : Char} (h : isWordChar c = true) :
    isOperatorChar c = false := by
  rw [Bool.eq_false_iff]
  intro hop
  rw [isWordChar_of_isOperatorChar hop] at h
  cases h

theorem isOperatorChar_of_isQuote {c : Char} (h : isQuote c = true) : isOperatorChar c = false := by
  rw [Bool.eq_false_iff]
  intro hop
  rw [isQuote_of_isOperatorChar hop] at h
  cases h

/-- The signs that an exponent may have. -/
def IsSign (c : Char) : Prop := c = '+' ∨ c = '-'

open Numeral (IsMark)

theorem classes_of_isMark {c : Char} (h : IsMark c) :
    isWordChar c = true ∧ isNumberStart c = false := by
  rcases h with rfl | rfl <;> decide

theorem classes_of_isSign {c : Char} (h : IsSign c) :
    isWordChar c = false ∧ isNumberStart c = false ∧ isQuote c = false ∧
      isOperatorChar c = false ∧ ¬IsMark c := by
  rcases h with rfl | rfl <;> refine ⟨by decide, by decide, by decide, by decide, ?_⟩ <;>
    simp [IsMark]

/-! ### Numbers and what is stuck to them -/

/-- A text that starts like a number and goes on with characters of words, among which a sign
may stand behind the mark of an exponent if there are only digits and points in front of it. -/
inductive IsNumberLike : List Char → Prop
  | plain {c : Char} {cs : List Char} : isNumberStart c = true →
      (∀ d ∈ cs, isWordChar d = true) → IsNumberLike (c :: cs)
  | signed {lead cs : List Char} {m s : Char} : lead ≠ [] →
      (∀ d ∈ lead, isNumberStart d = true) → IsMark m → IsSign s →
      (∀ d ∈ cs, isWordChar d = true) → IsNumberLike (lead ++ m :: s :: cs)

theorem IsNumberLike.exists_head {cs : List Char} (h : IsNumberLike cs) :
    ∃ c ds, cs = c :: ds ∧ isNumberStart c = true := by
  cases h with
  | plain hc _ => exact ⟨_, _, rfl, hc⟩
  | @signed lead ds m s hne hlead _ _ _ =>
    obtain ⟨c, lead, rfl⟩ := List.exists_cons_of_ne_nil hne
    exact ⟨c, _, rfl, hlead c List.mem_cons_self⟩

theorem IsNumberLike.mem_cases {cs : List Char} (h : IsNumberLike cs) {c : Char} (hc : c ∈ cs) :
    isWordChar c = true ∨ IsSign c := by
  cases h with
  | plain hhead hcs =>
    rcases List.mem_cons.1 hc with rfl | hc
    · exact .inl (isWordChar_of_isNumberStart hhead)
    · exact .inl (hcs c hc)
  | signed _ hlead hm hs hcs =>
    simp only [List.mem_append, List.mem_cons] at hc
    rcases hc with hc | rfl | rfl | hc
    · exact .inl (isWordChar_of_isNumberStart (hlead c hc))
    · exact .inl (classes_of_isMark hm).1
    · exact .inr hs
    · exact .inl (hcs c hc)

/-- A character of words goes on with a number. -/
theorem IsNumberLike.concat {cs : List Char} (h : IsNumberLike cs) {d : Char}
    (hd : isWordChar d = true) : IsNumberLike (cs ++ [d]) := by
  have hall : ∀ ds : List Char, (∀ c ∈ ds, isWordChar c = true) →
      ∀ c ∈ ds ++ [d], isWordChar c = true :=
    fun ds hds => List.forall_mem_append.2 ⟨hds, List.forall_mem_singleton.2 hd⟩
  cases h with
  | plain hc hcs => exact .plain hc (hall _ hcs)
  | signed hne hlead hm hs hcs =>
    rw [List.append_assoc]
    exact .signed hne hlead hm hs (hall _ hcs)

/-- Any other character goes on with a number only if it is the sign of its exponent. -/
theorem IsNumberLike.of_concat {cs : List Char} {d : Char} (h : IsNumberLike (cs ++ [d]))
    (hd : isWordChar d = false) : IsSign d ∧ ∃ lead m, cs = lead ++ [m] ∧ lead ≠ [] ∧
      (∀ c ∈ lead, isNumberStart c = true) ∧ IsMark m := by
  generalize hds : cs ++ [d] = ds at h
  have hlast : ds.getLast? = some d := by rw [← hds, List.getLast?_concat]
  cases h with
  | @plain c ds hc hall =>
    have hmem : d ∈ c :: ds := List.mem_of_getLast? hlast
    rcases List.mem_cons.1 hmem with rfl | hmem
    · rw [isWordChar_of_isNumberStart hc] at hd
      cases hd
    · rw [hall d hmem] at hd
      cases hd
  | @signed lead ds m s hne hlead hm hs hall =>
    rcases List.eq_nil_or_concat ds with rfl | ⟨es, e, rfl⟩
    · have heq : cs ++ [d] = (lead ++ [m]) ++ [s] := by rw [hds, List.append_assoc]; rfl
      obtain ⟨rfl, hsign⟩ := List.append_inj' heq rfl
      cases hsign
      exact ⟨hs, lead, m, rfl, hne, hlead, hm⟩
    · rw [List.concat_eq_append] at hall hlast
      have heq : lead ++ m :: s :: (es ++ [e]) = (lead ++ m :: s :: es) ++ [e] := by
        rw [List.append_assoc]; rfl
      rw [heq, List.getLast?_concat] at hlast
      cases hlast
      rw [hall d (by simp)] at hd
      cases hd

/-! ### What the reader takes for a number -/

variable {α : Type} {p q : α → Bool}

/-- A longer run is a shorter run and the rest of it. -/
theorem takeWhile_of_imp (h : ∀ a, p a = true → q a = true) (as : List α) :
    as.takeWhile q = as.takeWhile p ++ (as.dropWhile p).takeWhile q := by
  induction as with
  | nil => rfl
  | cons a as ih =>
    by_cases ha : p a = true
    · rw [List.takeWhile_cons_of_pos (h a ha), List.takeWhile_cons_of_pos ha,
        List.dropWhile_cons_of_pos ha, ih, List.cons_append]
    · rw [List.takeWhile_cons_of_neg ha, List.dropWhile_cons_of_neg ha, List.nil_append]

theorem dropWhile_of_imp (h : ∀ a, p a = true → q a = true) (as : List α) :
    as.dropWhile q = (as.dropWhile p).dropWhile q := by
  induction as with
  | nil => rfl
  | cons a as ih =>
    by_cases ha : p a = true
    · rw [List.dropWhile_cons_of_pos (h a ha), List.dropWhile_cons_of_pos ha, ih]
    · rw [List.dropWhile_cons_of_neg ha]

theorem head?_dropWhile {as : List α} {a : α} (h : a ∈ (as.dropWhile p).head?) : p a = false := by
  have hnot := List.head?_dropWhile_not p as
  rw [Option.mem_def] at h
  rw [h] at hnot
  simpa using hnot

/-- Whether digits and points are followed by the mark of an exponent and a sign. -/
def HasSign (cs : List Char) : Prop :=
  ∃ m s more, cs.dropWhile isNumberStart = m :: s :: more ∧ IsMark m ∧ IsSign s

theorem splitNumber_of_hasSign {cs more : List Char} {m s : Char}
    (h : cs.dropWhile isNumberStart = m :: s :: more) (hm : IsMark m) (hs : IsSign s) :
    splitNumber cs = (cs.takeWhile isNumberStart ++ m :: s :: more.takeWhile isWordChar,
      more.dropWhile isWordChar) := by
  have hdigit : ∀ c : Char, c.isDigit = true → isWordChar c = true :=
    fun c => isWordChar_of_isDigit
  have hm' : m = 'e' ∨ m = 'E' := hm
  have hs' : s = '+' ∨ s = '-' := hs
  simp only [splitNumber, h, splitExponent, hm', hs', if_true]
  rw [takeWhile_of_imp hdigit more, dropWhile_of_imp hdigit more, List.append_assoc]
  rfl

/-- Without a sign behind the mark of an exponent, a number is one run. -/
theorem splitNumber_of_not_hasSign {cs : List Char} (h : ¬HasSign cs) :
    splitNumber cs = (cs.takeWhile isWordChar, cs.dropWhile isWordChar) := by
  have hstart : ∀ c : Char, isNumberStart c = true → isWordChar c = true :=
    fun c => isWordChar_of_isNumberStart
  have hdigit : ∀ c : Char, c.isDigit = true → isWordChar c = true :=
    fun c => isWordChar_of_isDigit
  rw [takeWhile_of_imp hstart, dropWhile_of_imp hstart]
  unfold HasSign at h
  simp only [splitNumber]
  generalize cs.dropWhile isNumberStart = rest at *
  cases rest with
  | nil => simp [splitExponent]
  | cons m rest =>
    by_cases hm : m = 'e' ∨ m = 'E'
    · have hword : isWordChar m = true := (classes_of_isMark hm).1
      have hrest : splitExponent (m :: rest) =
          (m :: rest.takeWhile Char.isDigit, rest.dropWhile Char.isDigit) := by
        cases rest with
        | nil => simp [splitExponent, hm]
        | cons s more =>
          have hs : ¬(s = '+' ∨ s = '-') := fun hs => h ⟨m, s, more, rfl, hm, hs⟩
          simp [splitExponent, hm, hs]
      rw [hrest, List.takeWhile_cons_of_pos hword, List.dropWhile_cons_of_pos hword,
        takeWhile_of_imp hdigit rest, dropWhile_of_imp hdigit rest, List.append_assoc]
      rfl
    · simp [splitExponent, hm]

/-- What is taken for a number is like one and cannot be longer. -/
theorem isNumberLike_splitNumber {c : Char} (hc : isNumberStart c = true) (cs : List Char) :
    IsNumberLike (splitNumber (c :: cs)).1 ∧
      ∀ d ∈ (splitNumber (c :: cs)).2.head?, ¬IsNumberLike ((splitNumber (c :: cs)).1 ++ [d]) := by
  have happend := splitNumber_append (c :: cs)
  by_cases h : HasSign (c :: cs)
  · obtain ⟨m, s, more, hdrop, hm, hs⟩ := h
    rw [splitNumber_of_hasSign hdrop hm hs]
    have hlead : ∀ d ∈ (c :: cs).takeWhile isNumberStart, isNumberStart d = true :=
      fun d hd => List.mem_takeWhile_imp hd
    have hne : (c :: cs).takeWhile isNumberStart ≠ [] := by
      rw [List.takeWhile_cons_of_pos hc]
      exact nofun
    refine ⟨.signed hne hlead hm hs fun d hd => List.mem_takeWhile_imp hd, fun d hd hlonger => ?_⟩
    -- The sign stands among what would be digits, points and a mark.
    obtain ⟨-, lead, m', heq, -, hlead', hm'⟩ := hlonger.of_concat (head?_dropWhile hd)
    have hmem : s ∈ lead ++ [m'] := heq ▸ by simp
    obtain ⟨-, hstart, -, -, hmark⟩ := classes_of_isSign hs
    rcases List.mem_append.1 hmem with hmem | hmem
    · rw [hlead' s hmem] at hstart
      cases hstart
    · rw [List.mem_singleton.1 hmem] at hmark
      exact hmark hm'
  · rw [splitNumber_of_not_hasSign h] at happend ⊢
    have hword := isWordChar_of_isNumberStart hc
    refine ⟨?_, fun d hd hlonger => h ?_⟩
    · rw [List.takeWhile_cons_of_pos hword]
      exact .plain hc fun d hd => List.mem_takeWhile_imp hd
    · obtain ⟨hs, lead, m, heq, -, hlead, hm⟩ := hlonger.of_concat (head?_dropWhile hd)
      obtain ⟨more, hmore⟩ := List.head?_eq_some_iff.1 hd
      rw [heq, hmore, List.append_assoc] at happend
      refine ⟨m, d, more, ?_, hm, hs⟩
      rw [← happend]
      refine dropWhile_append hlead fun e he => ?_
      cases he
      exact (classes_of_isMark hm).2

/-- The longest text that is like a number is taken for one. -/
theorem splitNumber_of_isNumberLike {token rest : List Char} (h : IsNumberLike token)
    (hrest : ∀ d ∈ rest.head?, ¬IsNumberLike (token ++ [d])) :
    splitNumber (token ++ rest) = (token, rest) := by
  have hword : ∀ d ∈ rest.head?, isWordChar d = false := by
    intro d hd
    rw [Bool.eq_false_iff]
    exact fun hw => hrest d hd (h.concat hw)
  cases h with
  | @signed lead cs m s hne hlead hm hs hcs =>
    have hend : ∀ d ∈ (m :: s :: (cs ++ rest)).head?, isNumberStart d = false := by
      intro d hd
      cases hd
      exact (classes_of_isMark hm).2
    have heq : (lead ++ m :: s :: cs) ++ rest = lead ++ (m :: s :: (cs ++ rest)) := by
      rw [List.append_assoc]; rfl
    rw [heq, splitNumber_of_hasSign (dropWhile_append hlead hend) hm hs,
      takeWhile_append hlead hend, takeWhile_append hcs hword, dropWhile_append hcs hword]
  | @plain c cs hc hcs =>
    have hall : ∀ d ∈ c :: cs, isWordChar d = true :=
      List.forall_mem_cons.2 ⟨isWordChar_of_isNumberStart hc, hcs⟩
    have htake := takeWhile_append hall hword
    have hdrop := dropWhile_append hall hword
    rw [splitNumber_of_not_hasSign, htake, hdrop]
    -- A sign would be the first character behind the token, and go on with it.
    intro hsign
    obtain ⟨m, s, more, hmore, hm, hs⟩ := hsign
    have hlead : ∀ d ∈ (c :: cs ++ rest).takeWhile isNumberStart, isNumberStart d = true :=
      fun d hd => List.mem_takeWhile_imp hd
    have hsplit :
        (c :: cs ++ rest).takeWhile isNumberStart ++ m :: s :: more = c :: cs ++ rest := by
      rw [← hmore, List.takeWhile_append_dropWhile]
    generalize (c :: cs ++ rest).takeWhile isNumberStart = lead at *
    have hfront : ∀ d ∈ lead ++ [m], isWordChar d = true :=
      List.forall_mem_append.2 ⟨fun d hd => isWordChar_of_isNumberStart (hlead d hd),
        List.forall_mem_singleton.2 (classes_of_isMark hm).1⟩
    have hback : ∀ d ∈ (s :: more).head?, isWordChar d = false := by
      intro d hd
      cases hd
      exact (classes_of_isSign hs).1
    have heq : c :: cs ++ rest = (lead ++ [m]) ++ (s :: more) := by
      rw [← hsplit, List.append_assoc]; rfl
    rw [heq, takeWhile_append hfront hback] at htake
    rw [heq, dropWhile_append hfront hback] at hdrop
    refine hrest s (hdrop ▸ rfl) ?_
    rw [← htake, List.append_assoc]
    refine .signed ?_ hlead hm hs nofun
    rintro rfl
    rw [List.nil_append] at htake
    cases htake
    rw [(classes_of_isMark hm).2] at hc
    cases hc

/-! ### Pieces and where they end -/

/-- No closing quote stands behind an opening one: every quote character that could close it is
followed by another one. -/
def IsUnclosed (q : Char) (cs : List Char) : Prop :=
  ∀ body rest, q :: cs = encode q body ++ rest → rest.head? = some q

theorem scan_eq_none_iff {q : Char} {cs : List Char} : scan q cs = none ↔ IsUnclosed q cs := by
  constructor
  · intro h body rest heq
    rw [encode_append] at heq
    obtain rfl := (List.cons.inj heq).2
    by_contra hrest
    rw [Text.Quoted.scan_escape q body rest hrest] at h
    cases h
  · intro h
    cases hscan : scan q cs with
    | none => rfl
    | some r => exact absurd (h _ _ (encode_of_scan hscan).symm) (Sql.head?_of_scan hscan)

namespace Piece

/-- A piece has the form that goes with its first character. -/
inductive IsFormed : Piece → Prop
  | quoted {q : Char} (body : List Char) : isQuote q = true → IsFormed (quoted q body)
  | unterminated {q : Char} {cs : List Char} : isQuote q = true → IsUnclosed q cs →
      IsFormed (unterminated (q :: cs))
  | operator {c : Char} {cs : List Char} : (∀ d ∈ c :: cs, isOperatorChar d = true) →
      IsFormed (operator (c :: cs))
  | number {cs : List Char} : IsNumberLike cs → IsFormed (number cs)
  | word {c : Char} {cs : List Char} : isNumberStart c = false →
      (∀ d ∈ c :: cs, isWordChar d = true) → IsFormed (word (c :: cs))
  | other {c : Char} : isQuote c = false → isOperatorChar c = false → isWordChar c = false →
      IsFormed (other c)

/-- A character behind a piece that does not go on with it. Nothing stands behind a quote that
is not closed. -/
def StopsAt : Piece → Char → Prop
  | quoted q _, d => d ≠ q
  | unterminated _, _ => False
  | operator _, d => isOperatorChar d = false
  | number cs, d => ¬IsNumberLike (cs ++ [d])
  | word _, d => isWordChar d = false
  | other _, _ => True

theorem eq_nil_of_unterminated {us rest : List Char}
    (h : ∀ d ∈ rest.head?, (unterminated us).StopsAt d) : rest = [] := by
  cases rest with
  | nil => rfl
  | cons d rest => exact absurd (h d rfl) id

theorem IsFormed.exists_head {p : Piece} (h : p.IsFormed) : ∃ c cs, p.source = c :: cs := by
  cases h with
  | number h =>
    obtain ⟨c, cs, rfl, -⟩ := h.exists_head
    exact ⟨c, cs, rfl⟩
  | _ => exact ⟨_, _, rfl⟩

end Piece

open Piece (IsFormed StopsAt)

/-- The first piece of a text has its form and ends where it should. -/
theorem isFormed_cut (c : Char) (cs : List Char) :
    (cut c cs).1.IsFormed ∧ ∀ d ∈ (cut c cs).2.head?, (cut c cs).1.StopsAt d := by
  unfold cut
  split
  · rename_i hquote
    split
    · rename_i body rest hscan
      refine ⟨.quoted body hquote, fun d hd he => Sql.head?_of_scan hscan ?_⟩
      rw [← he]
      exact hd
    · rename_i hscan
      exact ⟨.unterminated hquote (scan_eq_none_iff.1 hscan), nofun⟩
  split
  · rename_i hop
    have hall : ∀ d ∈ c :: cs.takeWhile isOperatorChar, isOperatorChar d = true :=
      List.forall_mem_cons.2 ⟨hop, fun d hd => List.mem_takeWhile_imp hd⟩
    exact ⟨.operator hall, fun d hd => head?_dropWhile hd⟩
  split
  · rename_i hnumber
    obtain ⟨hlike, hend⟩ := isNumberLike_splitNumber hnumber cs
    exact ⟨.number hlike, hend⟩
  split
  · rename_i hnumber hword
    have hall : ∀ d ∈ c :: cs.takeWhile isWordChar, isWordChar d = true :=
      List.forall_mem_cons.2 ⟨hword, fun d hd => List.mem_takeWhile_imp hd⟩
    exact ⟨.word (Bool.eq_false_iff.2 hnumber) hall, fun d hd => head?_dropWhile hd⟩
  · rename_i hquote hop _ hword
    exact ⟨.other (Bool.eq_false_iff.2 hquote) (Bool.eq_false_iff.2 hop)
      (Bool.eq_false_iff.2 hword), fun _ _ => trivial⟩

/-- A piece that has its form and ends where it should is the first piece. -/
theorem cut_of_isFormed {p : Piece} {c : Char} {cs rest : List Char} (h : p.IsFormed)
    (hstop : ∀ d ∈ rest.head?, p.StopsAt d) (hsource : p.source = c :: cs) :
    cut c (cs ++ rest) = (p, rest) := by
  cases h with
  | @quoted q body hq =>
    cases hsource
    have hrest : rest.head? ≠ some c := fun hd => hstop c hd rfl
    have hscan := Text.Quoted.scan_escape c body rest hrest
    rw [List.append_assoc, List.singleton_append]
    simp only [cut, hq, if_true, hscan]
  | @unterminated q us hq hus =>
    cases hsource
    rw [Piece.eq_nil_of_unterminated hstop, List.append_nil]
    simp only [cut, hq, if_true, scan_eq_none_iff.2 hus]
  | operator hall =>
    cases hsource
    obtain ⟨hc, hcs⟩ := List.forall_mem_cons.1 hall
    simp only [cut, isQuote_of_isOperatorChar hc, hc, Bool.false_eq_true, if_false, if_true,
      takeWhile_append hcs hstop, dropWhile_append hcs hstop]
  | number hlike =>
    obtain ⟨e, es, rfl, hc⟩ := hlike.exists_head
    have hsplit := splitNumber_of_isNumberLike hlike hstop
    cases hsource
    obtain ⟨hquote, hop, -⟩ := classes_of_isNumberStart hc
    rw [List.cons_append] at hsplit
    simp only [cut, hquote, hop, hc, Bool.false_eq_true, if_false, if_true, hsplit]
  | word hstart hall =>
    cases hsource
    obtain ⟨hc, hcs⟩ := List.forall_mem_cons.1 hall
    simp only [cut, isQuote_of_isWordChar hc, isOperatorChar_of_isWordChar hc, hstart, hc,
      Bool.false_eq_true, if_false, if_true, takeWhile_append hcs hstop,
      dropWhile_append hcs hstop]
  | other hquote hop hword =>
    cases hsource
    have hstart : isNumberStart c = false := by
      rw [Bool.eq_false_iff]
      intro hstart
      rw [isWordChar_of_isNumberStart hstart] at hword
      cases hword
    simp only [cut, hquote, hop, hstart, hword, Bool.false_eq_true, if_false, List.nil_append]

/-! ### Cuttings -/

/-- A text as a row of pieces, each of its form and ended by what follows. -/
inductive IsCut : List Char → List Piece → Prop
  | nil : IsCut [] []
  | cons {p : Piece} {rest : List Char} {ps : List Piece} : p.IsFormed →
      (∀ d ∈ rest.head?, p.StopsAt d) → IsCut rest ps → IsCut (p.source ++ rest) (p :: ps)

/-- The pieces of a text are its only cutting. -/
theorem isCut_iff {cs : List Char} {ps : List Piece} : IsCut cs ps ↔ ps = pieces cs := by
  constructor
  · intro h
    induction h with
    | nil => rw [pieces_nil]
    | @cons p rest ps hp hstop _ ih =>
      obtain ⟨c, cs, hcs⟩ := hp.exists_head
      rw [hcs, List.cons_append, pieces_cons, cut_of_isFormed hp hstop hcs, ih]
  · rintro rfl
    fun_induction pieces cs with
    | case1 => exact .nil
    | case2 c cs ih =>
      obtain ⟨hform, hstop⟩ := isFormed_cut c cs
      rw [← cut_source c cs]
      exact .cons hform hstop ih

theorem isCut_pieces (cs : List Char) : IsCut cs (pieces cs) := isCut_iff.2 rfl

theorem IsCut.flatMap_source {cs : List Char} {ps : List Piece} (h : IsCut cs ps) :
    ps.flatMap Piece.source = cs := by
  rw [isCut_iff.1 h, pieces_source]

theorem IsCut.isFormed {cs : List Char} {ps : List Piece} (h : IsCut cs ps) :
    ∀ p ∈ ps, p.IsFormed := by
  induction h with
  | nil => exact nofun
  | cons hp _ _ ih => exact List.forall_mem_cons.2 ⟨hp, ih⟩

end Clause
end RecordSieve
