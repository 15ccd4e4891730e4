import RecordSieve.Proofs.Clause.Atoms
import RecordSieve.Proofs.Text.Neighbours
/-!
# RecordSieve.Proofs.Clause.Unified

The normal form of a clause by its pieces. Every piece has a unified form, which is the piece
with its quotes or its operator in the one spelling that the query language has, and the normal
form is the sources of the unified pieces (`eq_of_normalizePieces`).

Whether the second reader goes along with the pieces depends on which atoms touch: two minus
signs open a comment, as do a slash and a star, and a name mark takes a quote for a letter of
a name. Atoms of a clause are `Apart` if nothing like this happens between them, and then the
atoms of the normal form are so too (`Text.Keeps`).
-/

namespace RecordSieve
namespace Clause

open Text (Keeps Neutral)

namespace Piece

/-! ### Unified pieces -/

/-- A piece in the spelling of the query language. -/
def unified : Piece → Piece
  | quoted q body => quoted (if q = '"' then '\'' else q) body
  | operator cs =>
    match Comparison.ofSymbol? (String.ofList cs) with
    | some op => operator op.symbol.toList
    | none => operator cs
  | p => p

theorem source_unified {p : Piece} {cs : List Char} (h : p.normalize = .ok cs) :
    p.unified.source = cs := by
  cases p with
  | quoted q body => exact Except.ok.inj h
  | unterminated us => cases h
  | operator us =>
    cases hop : Comparison.ofSymbol? (String.ofList us) with
    | none => simp [normalize, hop] at h
    | some op =>
      simp only [normalize, hop, Except.ok.injEq] at h
      simp only [unified, hop, source, h]
  | number us =>
    obtain ⟨n, -, rfl⟩ := Except.map_eq_ok_iff.1 h
    rfl
  | word us => exact Except.ok.inj h
  | other c => exact Except.ok.inj h

/-- The unified form of a piece that is no quoted text is none either, and has the same
characters unless the piece is an operator. -/
theorem IsBare.unified {p : Piece} (h : p.IsBare) :
    p.unified.IsBare ∧
      (p.unified = p ∨ ∃ us vs, p = .operator us ∧ p.unified = .operator vs) := by
  cases p with
  | quoted q body => cases h.isQuoted
  | unterminated cs => cases h.isQuoted
  | operator us =>
    cases hop : Comparison.ofSymbol? (String.ofList us) with
    | none =>
      have hu : (Piece.operator us).unified = .operator us := by simp only [Piece.unified, hop]
      rw [hu]
      exact ⟨h, .inl rfl⟩
    | some op =>
      have hu : (Piece.operator us).unified = .operator op.symbol.toList := by
        simp only [Piece.unified, hop]
      rw [hu]
      obtain ⟨hne, hall⟩ := isOperatorChar_of_ofSymbol? (Comparison.ofSymbol?_symbol op)
      refine ⟨⟨rfl, hne, fun c hc => isQuote_of_isOperatorChar (hall c hc), ?_⟩,
        .inr ⟨us, _, rfl, rfl⟩⟩
      intro cs hcs
      cases hcs
      exact hall
  | _ => exact ⟨h, .inl rfl⟩

theorem isQuote_unified {q : Char} (h : isQuote q = true) :
    isQuote (if q = '"' then '\'' else q) = true := by
  split
  · rfl
  · exact h

theorem IsProper.unified {p : Piece} (h : p.IsProper) : p.unified.IsProper := by
  cases h with
  | quoted body hq => exact .quoted body (isQuote_unified hq)
  | bare hp => exact .bare hp.unified.1

end Piece

/-- The normal form of pieces is the sources of the unified pieces. -/
theorem eq_of_normalizePieces {ps : List Piece} {cs : List Char} (h : normalizePieces ps = .ok cs) :
    cs = (ps.map Piece.unified).flatMap Piece.source ∧ ∀ p ∈ ps, ∃ ns, p.normalize = .ok ns := by
  induction ps generalizing cs with
  | nil =>
    cases h
    exact ⟨rfl, nofun⟩
  | cons p ps ih =>
    unfold normalizePieces at h
    split at h
    · cases h
    · rename_i ns hns
      obtain ⟨us, hus, rfl⟩ := Except.map_eq_ok_iff.1 h
      obtain ⟨rfl, hall⟩ := ih hus
      rw [List.map_cons, List.flatMap_cons, Piece.source_unified hns]
      exact ⟨rfl, List.forall_mem_cons.2 ⟨⟨ns, hns⟩, hall⟩⟩

/-- The pieces of a text that all have a normal form are closed. -/
theorem isProper_of_mem_pieces {cs : List Char} (h : ∀ p ∈ pieces cs, ∃ ns, p.normalize = .ok ns) :
    ∀ p ∈ pieces cs, p.IsProper := by
  fun_induction pieces cs with
  | case1 => exact List.forall_mem_nil _
  | case2 c cs ih =>
    obtain ⟨⟨ns, hns⟩, hps⟩ := List.forall_mem_cons.1 h
    refine List.forall_mem_cons.2 ⟨?_, ih hps⟩
    rcases cut_cases c cs with ⟨body, rest, hq, -, hcut⟩ | ⟨-, -, hcut⟩ | hp
    · rw [hcut]
      exact .quoted body hq
    · rw [hcut] at hns
      cases hns
    · exact .bare hp

/-! ### Atoms that touch -/

namespace Piece

/-- Two atoms that open a comment together. -/
def OpensComment (p q : Piece) : Prop :=
  (p = other '-' ∧ q = other '-') ∨ (p = other '/' ∧ q = other '*')

/-- A name mark in front of quoted text, whose quote it takes for a letter of a name. -/
def TakesQuote (p q : Piece) : Prop := (p = other '#' ∨ p = other '@') ∧ q.isQuoted = true

/-- Two atoms that the second reader takes one by one. -/
def Apart (p q : Piece) : Prop := ¬p.OpensComment q ∧ ¬p.TakesQuote q

instance (p q : Piece) : Decidable (p.OpensComment q) :=
  inferInstanceAs (Decidable ((p = other '-' ∧ q = other '-') ∨ (p = other '/' ∧ q = other '*')))

instance (p q : Piece) : Decidable (p.TakesQuote q) :=
  inferInstanceAs (Decidable ((p = other '#' ∨ p = other '@') ∧ q.isQuoted = true))

instance (p q : Piece) : Decidable (p.Apart q) :=
  inferInstanceAs (Decidable (¬p.OpensComment q ∧ ¬p.TakesQuote q))

theorem apart_of_isQuoted {p : Piece} (h : p.isQuoted = true) (q : Piece) : p.Apart q := by
  cases p with
  | other c => cases h
  | _ => simp [Apart, OpensComment, TakesQuote]

/-- All that counts of a quoted text is that it is one. -/
theorem Apart.of_isQuoted {p q r : Piece} (h : p.Apart q) (hq : q.isQuoted = true)
    (hr : r.isQuoted = true) : p.Apart r := by
  refine ⟨fun hc => ?_, fun ht => h.2 ⟨ht.1, hq⟩⟩
  rcases hc with ⟨-, rfl⟩ | ⟨-, rfl⟩
  · cases hr
  · cases hr

/-- Operators touch anything. -/
theorem neutral_operator {c : Char} (h : isOperatorChar c = true) : Neutral Apart (other c) := by
  have hne : ∀ d : Char, isOperatorChar d = false → c ≠ d := by
    intro d hd hc
    rw [hc, hd] at h
    cases h
  intro p
  simp [Apart, OpensComment, TakesQuote, isQuoted, hne '-' rfl, hne '/' rfl, hne '*' rfl,
    hne '#' rfl, hne '@' rfl]

end Piece

theorem isChain_apart {as : List Piece} (hcomment : as.IsChain fun p q => ¬p.OpensComment q)
    (hmark : as.IsChain fun p q => ¬p.TakesQuote q) : as.IsChain Piece.Apart := by
  induction as with
  | nil => exact .nil
  | cons a as ih =>
    rw [List.isChain_cons] at hcomment hmark ⊢
    exact ⟨fun b hb => ⟨hcomment.1 b hb, hmark.1 b hb⟩, ih hcomment.2 hmark.2⟩

open Piece (Apart)

theorem keeps_unified {ps : List Piece} (h : ∀ p ∈ ps, p.IsProper) :
    Keeps Apart (ps.flatMap Piece.atoms) ((ps.map Piece.unified).flatMap Piece.atoms) := by
  induction ps with
  | nil => exact .refl []
  | cons p ps ih =>
    obtain ⟨hp, hps⟩ := List.forall_mem_cons.1 h
    rw [List.map_cons, List.flatMap_cons, List.flatMap_cons]
    cases hp with
    | quoted body _ =>
      exact .cons (Piece.apart_of_isQuoted rfl) (fun r hr => hr.of_isQuoted rfl rfl) (ih hps).isChain
    | bare hp =>
      obtain ⟨hunified, he | ⟨us, vs, rfl, he⟩⟩ := hp.unified
      · rw [he]
        exact (ih hps).append _
      · rw [he] at hunified ⊢
        refine (ih hps).neutral _ (fun hnil => hunified.ne_nil (List.map_eq_nil_iff.1 hnil)) ?_
        exact List.forall_mem_map.2 fun c hc =>
          Piece.neutral_operator (hunified.isOperatorChar vs rfl c hc)

theorem keeps_joinQuoted (ps : List Piece) :
    Keeps Apart (ps.flatMap Piece.atoms) ((joinQuoted ps).flatMap Piece.atoms) := by
  induction ps with
  | nil => exact .refl []
  | cons p ps ih =>
    rw [List.flatMap_cons, joinQuoted_cons]
    rcases Piece.joinTo_cases p (joinQuoted ps) with hj | ⟨q, body, more, rest, rfl, hr, hj⟩
    · rw [hj, List.flatMap_cons]
      exact ih.append _
    · rw [hj, List.flatMap_cons]
      rw [hr, List.flatMap_cons] at ih
      refine .cons (Piece.apart_of_isQuoted rfl) (fun r hr => hr.of_isQuoted rfl rfl) fun has => ?_
      exact (List.isChain_cons.1 (ih.isChain has)).2

/-! ### Quotes -/

theorem eq_quoted_of_quote? {p : Piece} {q : Char} (h : p.quote? = some q) :
    ∃ body, p = .quoted q body := by
  cases p with
  | quoted r body =>
    cases h
    exact ⟨body, rfl⟩
  | _ => cases h

theorem quote?_unified {p : Piece} {q : Char} (hp : p.IsProper) (hq : p.unified.quote? = some q) :
    q = '\'' ∨ q = '\x60' := by
  obtain ⟨body, hu⟩ := eq_quoted_of_quote? hq
  cases hp with
  | bare hp =>
    have hbare := hp.unified.1.isQuoted
    rw [hu] at hbare
    cases hbare
  | @quoted r more hr =>
    cases hq
    simp only [isQuote, Bool.or_eq_true, beq_iff_eq] at hr
    rcases hr with (rfl | rfl) | rfl
    · exact .inl rfl
    · exact .inl rfl
    · exact .inr rfl

theorem quote?_atoms {p : Piece} (q : Char) (h : p.quote? ≠ some q) :
    ∀ a ∈ p.atoms, a.quote? ≠ some q := by
  have hothers : ∀ cs : List Char, ∀ a ∈ cs.map Piece.other, a.quote? ≠ some q := by
    intro cs a ha
    obtain ⟨c, -, rfl⟩ := List.mem_map.1 ha
    exact nofun
  intro a ha
  cases p with
  | quoted r body =>
    cases List.mem_singleton.1 ha
    exact h
  | unterminated cs =>
    cases List.mem_singleton.1 ha
    exact nofun
  | operator cs => exact hothers _ a ha
  | number cs => exact hothers _ a ha
  | word cs => exact hothers _ a ha
  | other c => exact hothers _ a ha

/-- Joining brings no quotes of other kinds. -/
theorem quote?_joinQuoted {ps : List Piece} {q : Char} (h : ∀ p ∈ ps, p.quote? ≠ some q) :
    ∀ p ∈ joinQuoted ps, p.quote? ≠ some q :=
  forall_mem_joinQuoted (fun _ _ _ hq _ => hq) h

/-! ### The normal form -/

/-- The atoms of a normal form: the unified pieces, touching texts joined. Where the atoms of
the clause are apart, these are. -/
theorem atoms_of_normalizeChars {cs normal : List Char} (h : normalizeChars cs = .ok normal) :
    atoms normal = (joinQuoted ((pieces cs).map Piece.unified)).flatMap Piece.atoms ∧
      ((atoms cs).IsChain Apart → (atoms normal).IsChain Apart) := by
  obtain ⟨rfl, hall⟩ := eq_of_normalizePieces h
  have hproper := isProper_of_mem_pieces hall
  have hunified : ∀ p ∈ (pieces cs).map Piece.unified, p.IsProper := by
    simpa using fun p hp => (hproper p hp).unified
  have hatoms := atoms_sources hunified
  refine ⟨hatoms, fun hapart => ?_⟩
  rw [atoms_eq] at hapart
  rw [hatoms]
  exact ((keeps_unified hproper).trans (keeps_joinQuoted _)).isChain hapart

end Clause
end RecordSieve
