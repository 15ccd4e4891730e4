import RecordSieve.Proofs.Clause.Spelling
import RecordSieve.Proofs.Sql.Step
/-!
# RecordSieve.Proofs.Clause.Atoms

The quoted texts of a clause and of its normal form. Both readers of a clause find quoted
text in the same way, and between quotes they go on differently; what they agree on are the
atoms of a text, which are its quoted texts and all other characters one by one.

The normal form of a clause is the sources of its unified pieces (`normalizePieces_eq_ok`),
and the atoms of joined sources are the atoms of the pieces (`atoms_sources`), except that
quoted texts of one kind which touch are one quoted text in the normal form.
-/

namespace RecordSieve
namespace Clause

open Text.Quoted (scan escape encode)

/-! ### Atoms -/

/-- A text as quoted texts and single characters. -/
def atoms : List Char → List Piece
  | [] => []
  | c :: cs =>
    if isQuote c then
      match _h : scan c cs with
      | some r => .quoted c r.1 :: atoms r.2
      | none => [.unterminated (c :: cs)]
    else .other c :: atoms cs
termination_by cs => cs.length
decreasing_by
  · exact Nat.lt_succ_of_lt (Text.Quoted.length_lt_of_scan _h)
  · exact Nat.lt_succ_self _

@[simp] theorem atoms_nil : atoms [] = [] := by rw [atoms]

theorem atoms_other {c : Char} (h : isQuote c = false) (cs : List Char) :
    atoms (c :: cs) = .other c :: atoms cs := by
  rw [atoms, if_neg (by simp [h])]

theorem atoms_quoted {q : Char} {cs body rest : List Char} (hq : isQuote q = true)
    (h : scan q cs = some (body, rest)) : atoms (q :: cs) = .quoted q body :: atoms rest := by
  rw [atoms, if_pos hq]
  split
  · rename_i r hr
    cases h.symm.trans hr
    rfl
  · rename_i hr
    cases h.symm.trans hr

theorem atoms_unterminated {q : Char} {cs : List Char} (hq : isQuote q = true)
    (h : scan q cs = none) : atoms (q :: cs) = [.unterminated (q :: cs)] := by
  rw [atoms, if_pos hq]
  split
  · rename_i r hr
    cases h.symm.trans hr
  · rfl

/-- Characters that are no quotes are atoms each. -/
theorem atoms_append {xs : List Char} (h : ∀ c ∈ xs, isQuote c = false) (cs : List Char) :
    atoms (xs ++ cs) = xs.map .other ++ atoms cs := by
  induction xs with
  | nil => rfl
  | cons c xs ih =>
    obtain ⟨hc, hxs⟩ := List.forall_mem_cons.1 h
    rw [List.cons_append, atoms_other hc, ih hxs]
    rfl

/-- A quoted text is the first atom only where the text starts with its quote. -/
theorem head?_of_atoms {q : Char} {cs body : List Char} {as : List Piece}
    (h : atoms cs = .quoted q body :: as) : cs.head? = some q := by
  cases cs with
  | nil => cases h.symm.trans atoms_nil
  | cons c cs =>
    by_cases hc : isQuote c = true
    · cases hs : scan c cs with
      | some r =>
        cases h.symm.trans (atoms_quoted hc hs)
        rfl
      | none => cases h.symm.trans (atoms_unterminated hc hs)
    · cases h.symm.trans (atoms_other (Bool.eq_false_iff.2 hc) cs)

/-! ### Pieces -/

namespace Piece

/-- Whether a piece is quoted text, closed or not. -/
def isQuoted : Piece → Bool
  | quoted _ _ | unterminated _ => true
  | _ => false

/-- The quote character of a closed quoted text. -/
def quote? : Piece → Option Char
  | quoted q _ => some q
  | _ => none

/-- The atoms of a piece. -/
def atoms : Piece → List Piece
  | quoted q body => [quoted q body]
  | unterminated cs => [unterminated cs]
  | p => p.source.map other

/-- A piece that is no quoted text has the form that such pieces of a clause have. -/
structure IsBare (p : Piece) : Prop where
  isQuoted : p.isQuoted = false
  ne_nil : p.source ≠ []
  isQuote : ∀ c ∈ p.source, isQuote c = false
  isOperatorChar : ∀ cs, p = operator cs → ∀ c ∈ cs, isOperatorChar c = true

/-- A piece is closed and has the form that all pieces of a clause have. -/
inductive IsProper : Piece → Prop
  | quoted {q : Char} (body : List Char) : isQuote q = true → IsProper (quoted q body)
  | bare {p : Piece} : p.IsBare → IsProper p

/-- A piece in front of others. Two quoted texts with one quote character are read as one. -/
def joinTo : Piece → List Piece → List Piece
  | quoted q body, quoted r more :: rest =>
    if q = r then quoted q (body ++ q :: more) :: rest
    else quoted q body :: quoted r more :: rest
  | p, rest => p :: rest

end Piece

/-- Pieces with touching quoted texts joined. -/
def joinQuoted (ps : List Piece) : List Piece := ps.foldr Piece.joinTo []

theorem joinQuoted_cons (p : Piece) (ps : List Piece) :
    joinQuoted (p :: ps) = p.joinTo (joinQuoted ps) := rfl

namespace Piece

variable {p : Piece} {q : Char} {body more : List Char} {ps as : List Piece}

/-- Joining puts the piece in front, or makes one text of it and the first quoted text. -/
theorem joinTo_cases (p : Piece) (ps : List Piece) :
    p.joinTo ps = p :: ps ∨ ∃ q body more rest, p = quoted q body ∧ ps = quoted q more :: rest ∧
      p.joinTo ps = quoted q (body ++ q :: more) :: rest := by
  cases p with
  | quoted q body =>
    cases ps with
    | nil => exact .inl rfl
    | cons p ps =>
      cases p with
      | quoted r more =>
        by_cases hq : q = r
        · subst hq
          exact .inr ⟨q, body, more, ps, rfl, rfl, if_pos rfl⟩
        · exact .inl (if_neg hq)
      | _ => exact .inl rfl
  | _ => exact .inl rfl

theorem joinTo_of_same :
    (quoted q body).joinTo (quoted q more :: ps) = quoted q (body ++ q :: more) :: ps :=
  if_pos rfl

theorem joinTo_of_head (h : ∀ more, ps.head? ≠ some (quoted q more)) :
    (quoted q body).joinTo ps = quoted q body :: ps := by
  rcases joinTo_cases (quoted q body) ps with h' | ⟨r, _, more, rest, hp, rfl, -⟩
  · exact h'
  · cases hp
    exact absurd rfl (h more)

theorem joinTo_of_isQuoted (h : p.isQuoted = false) (ps : List Piece) : p.joinTo ps = p :: ps := by
  rcases joinTo_cases p ps with h' | ⟨q, body, _, _, rfl, -, -⟩
  · exact h'
  · cases h

theorem atoms_of_isQuoted (h : p.isQuoted = false) : p.atoms = p.source.map other := by
  cases p with
  | quoted q body => cases h
  | unterminated cs => cases h
  | _ => rfl

/-- A quoted text is the first atom of a piece only if it is the piece. -/
theorem IsProper.eq_of_atoms (h : p.IsProper) (ha : p.atoms ++ as = .quoted q more :: ps) :
    p = .quoted q more ∧ as = ps := by
  cases h with
  | quoted body _ =>
    cases ha
    exact ⟨rfl, rfl⟩
  | bare hp =>
    rw [atoms_of_isQuoted hp.isQuoted] at ha
    obtain ⟨c, cs, hcs⟩ := List.exists_cons_of_ne_nil hp.ne_nil
    rw [hcs] at ha
    cases ha

theorem IsProper.not_mem_atoms (h : p.IsProper) (cs : List Char) : unterminated cs ∉ p.atoms := by
  intro hmem
  cases h with
  | quoted body _ => cases List.mem_singleton.1 hmem
  | bare hp =>
    rw [atoms_of_isQuoted hp.isQuoted] at hmem
    obtain ⟨c, -, he⟩ := List.mem_map.1 hmem
    cases he

end Piece

theorem isQuote_of_isWordChar {c : Char} (h : isWordChar c = true) : isQuote c = false :=
  Sql.isQuote_eq_false h (by decide)

/-- A number token has no quotes, even one that is no number. -/
theorem isQuote_of_mem_splitNumber {cs : List Char} {c : Char} (hc : c ∈ (splitNumber cs).1) :
    isQuote c = false := by
  have hdigits : ∀ ds : List Char, ∀ d ∈ ds.takeWhile Char.isDigit, isQuote d = false :=
    fun ds d hd =>
      Sql.isQuote_of_isNumberPart (Sql.isNumberPart_of_isDigit (Numeral.isDigits_takeWhile ds d hd))
  have hexponent : ∀ ds : List Char, ∀ d ∈ (splitExponent ds).1, isQuote d = false := by
    intro ds
    have hmark : ∀ m : Char, m = 'e' ∨ m = 'E' → isQuote m = false :=
      fun m hm => Sql.isQuote_of_isNumberPart (Sql.isNumberPart_mark hm)
    unfold splitExponent
    split
    · exact List.forall_mem_nil _
    · split
      · rename_i hm
        split
        · split
          · rename_i hs
            exact List.forall_mem_cons.2 ⟨hmark _ hm, List.forall_mem_cons.2
              ⟨Sql.isQuote_of_isNumberPart (Sql.isNumberPart_sign hs), hdigits _⟩⟩
          · exact List.forall_mem_cons.2 ⟨hmark _ hm, hdigits _⟩
        · exact List.forall_mem_cons.2 ⟨hmark _ hm, List.forall_mem_nil _⟩
      · exact List.forall_mem_nil _
  simp only [splitNumber, List.mem_append] at hc
  rcases hc with (hc | hc) | hc
  · exact (classes_of_isNumberStart (List.all_eq_true.1 List.all_takeWhile c hc)).1
  · exact hexponent _ c hc
  · exact isQuote_of_isWordChar (List.all_eq_true.1 List.all_takeWhile c hc)

/-- What is cut off a text is a quoted text, closed or not, or holds no quotes. -/
theorem cut_cases (c : Char) (cs : List Char) :
    (∃ body rest, isQuote c = true ∧ scan c cs = some (body, rest) ∧
        cut c cs = (.quoted c body, rest)) ∨
      (isQuote c = true ∧ scan c cs = none ∧ cut c cs = (.unterminated (c :: cs), [])) ∨
      (cut c cs).1.IsBare := by
  have takes : ∀ (f : Char → Bool), f c = true → ∀ d ∈ c :: cs.takeWhile f, f d = true :=
    fun f hc => List.forall_mem_cons.2 ⟨hc, List.all_eq_true.1 List.all_takeWhile⟩
  unfold cut
  split
  · split
    · exact .inl ⟨_, _, ‹_›, ‹_›, rfl⟩
    · exact .inr (.inl ⟨‹_›, ‹_›, rfl⟩)
  refine .inr (.inr ?_)
  split
  · rename_i hop
    have hall := takes isOperatorChar hop
    refine ⟨rfl, List.cons_ne_nil _ _, fun d hd => isQuote_of_isOperatorChar (hall d hd), ?_⟩
    intro ds hds
    cases hds
    exact hall
  split
  · rename_i hnum
    refine ⟨rfl, fun he => ?_, fun d hd => isQuote_of_mem_splitNumber hd,
      fun _ he => Piece.noConfusion he⟩
    have hlead : (c :: cs).takeWhile isNumberStart = [] := by
      have happend : (splitNumber (c :: cs)).1 = [] := he
      simp only [splitNumber, List.append_eq_nil_iff] at happend
      exact happend.1.1
    rw [List.takeWhile_cons_of_pos hnum] at hlead
    cases hlead
  split
  · rename_i hword
    have hall := takes isWordChar hword
    exact ⟨rfl, List.cons_ne_nil _ _, fun d hd => isQuote_of_isWordChar (hall d hd),
      fun _ he => Piece.noConfusion he⟩
  · rename_i hquote _ _ _
    refine ⟨rfl, List.cons_ne_nil _ _, ?_, fun _ he => Piece.noConfusion he⟩
    intro d hd
    cases List.mem_singleton.1 hd
    exact Bool.eq_false_iff.2 hquote

/-- The atoms of a text are those of its pieces. -/
theorem atoms_eq (cs : List Char) : atoms cs = (pieces cs).flatMap Piece.atoms := by
  fun_induction pieces cs with
  | case1 => exact atoms_nil
  | case2 c cs ih =>
    rw [List.flatMap_cons]
    rcases cut_cases c cs with ⟨body, rest, hq, hscan, hcut⟩ | ⟨hq, hscan, hcut⟩ | hp
    · rw [hcut] at ih ⊢
      rw [atoms_quoted hq hscan, ih]
      rfl
    · rw [hcut, atoms_unterminated hq hscan, pieces_nil]
      rfl
    · rw [Piece.atoms_of_isQuoted hp.isQuoted, ← ih, ← atoms_append hp.isQuote, cut_source]

/-! ### Joined sources -/

/-- What is true of all pieces stays true when texts are joined, if it is true of a text that
is made of two such texts. -/
theorem forall_mem_joinQuoted {P : Piece → Prop}
    (hjoin : ∀ q body more, P (.quoted q body) → P (.quoted q more) →
      P (.quoted q (body ++ q :: more)))
    {ps : List Piece} (h : ∀ p ∈ ps, P p) : ∀ p ∈ joinQuoted ps, P p := by
  induction ps with
  | nil => exact nofun
  | cons p ps ih =>
    obtain ⟨hp, hps⟩ := List.forall_mem_cons.1 h
    have hrest := ih hps
    rw [joinQuoted_cons]
    rcases Piece.joinTo_cases p (joinQuoted ps) with hj | ⟨q, body, more, rest, rfl, hr, hj⟩
    · rw [hj]
      exact List.forall_mem_cons.2 ⟨hp, hrest⟩
    · rw [hr] at hrest
      obtain ⟨hmore, hrest⟩ := List.forall_mem_cons.1 hrest
      rw [hj]
      exact List.forall_mem_cons.2 ⟨hjoin q body more hp hmore, hrest⟩

theorem isProper_joinQuoted {ps : List Piece} (h : ∀ p ∈ ps, p.IsProper) :
    ∀ p ∈ joinQuoted ps, p.IsProper := by
  refine forall_mem_joinQuoted (fun q body more hp _ => ?_) h
  cases hp with
  | quoted _ hq => exact .quoted _ hq
  | bare hp => cases hp.isQuoted

/-- A quoted text is the first atom of some pieces only if it is the first piece. -/
theorem eq_of_flatMap_atoms {q : Char} {more : List Char} {ps as : List Piece}
    (h : ∀ p ∈ ps, p.IsProper) (ha : ps.flatMap Piece.atoms = .quoted q more :: as) :
    ∃ rest, ps = .quoted q more :: rest ∧ rest.flatMap Piece.atoms = as := by
  cases ps with
  | nil => cases ha
  | cons p ps =>
    obtain ⟨rfl, hrest⟩ := (h p List.mem_cons_self).eq_of_atoms ha
    exact ⟨ps, rfl, hrest⟩

/-- A doubled quote character belongs to the text before it and the text after it. -/
theorem scan_escape_quote (q : Char) (body cs : List Char) :
    scan q (escape q body ++ q :: q :: cs) = (scan q cs).map fun r => (body ++ q :: r.1, r.2) := by
  induction body with
  | nil => simp [scan]
  | cons c body ih =>
    by_cases hc : c = q
    · subst hc
      rw [Text.Quoted.escape_cons_quote, List.cons_append, List.cons_append, scan, if_pos rfl,
        if_pos rfl, ih, Option.map_map]
      rfl
    · rw [Text.Quoted.escape_cons_other hc, List.cons_append]
      obtain ⟨d, ds, hd⟩ : ∃ d ds, escape q body ++ q :: q :: cs = d :: ds :=
        List.exists_cons_of_ne_nil (by simp)
      rw [hd] at ih ⊢
      rw [scan, if_neg hc, ih, Option.map_map]
      rfl

theorem encode_append (q : Char) (body cs : List Char) :
    encode q body ++ cs = q :: (escape q body ++ q :: cs) := by
  rw [encode, List.cons_append, List.append_assoc, List.singleton_append]

/-- The atoms of joined sources are those of the pieces, touching texts joined. -/
theorem atoms_sources {ps : List Piece} (h : ∀ p ∈ ps, p.IsProper) :
    atoms (ps.flatMap Piece.source) = (joinQuoted ps).flatMap Piece.atoms := by
  induction ps with
  | nil => exact atoms_nil
  | cons p ps ih =>
    obtain ⟨hp, hps⟩ := List.forall_mem_cons.1 h
    have hrest := ih hps
    have hproper := isProper_joinQuoted hps
    rw [List.flatMap_cons, joinQuoted_cons]
    generalize ps.flatMap Piece.source = cs at *
    generalize joinQuoted ps = js at *
    cases hp with
    | bare hp =>
      rw [Piece.joinTo_of_isQuoted hp.isQuoted, List.flatMap_cons, atoms_append hp.isQuote, hrest,
        Piece.atoms_of_isQuoted hp.isQuoted]
    | @quoted q body hq =>
      rw [Piece.source, encode_append]
      by_cases hhead : cs.head? = some q
      · -- The closing quote and the next opening one are read as one doubled quote.
        obtain ⟨ds, rfl⟩ : ∃ ds, cs = q :: ds := List.head?_eq_some_iff.1 hhead
        cases hscan : scan q ds with
        | none =>
          rw [atoms_unterminated hq hscan] at hrest
          have hmem : Piece.unterminated (q :: ds) ∈ js.flatMap Piece.atoms :=
            hrest ▸ List.mem_singleton_self _
          obtain ⟨p, hp, hmem⟩ := List.mem_flatMap.1 hmem
          exact absurd hmem ((hproper p hp).not_mem_atoms _)
        | some r =>
          rw [atoms_quoted hq hscan] at hrest
          obtain ⟨rest, rfl, hatoms⟩ := eq_of_flatMap_atoms hproper hrest.symm
          have hjoined : scan q (escape q body ++ q :: q :: ds) =
              some (body ++ q :: r.1, r.2) := by
            rw [scan_escape_quote, hscan]
            rfl
          rw [atoms_quoted hq hjoined, Piece.joinTo_of_same, List.flatMap_cons, hatoms]
          rfl
      · rw [atoms_quoted hq (Text.Quoted.scan_escape q body cs hhead), hrest,
          Piece.joinTo_of_head, List.flatMap_cons]
        · rfl
        · intro more hmore
          obtain ⟨rest, rfl⟩ := List.head?_eq_some_iff.1 hmore
          exact hhead (head?_of_atoms hrest)

end Clause
end RecordSieve
