import RecordSieve.Clause.Compile
import RecordSieve.Proofs.Clause.Cutting
/-!
# RecordSieve.Proofs.Clause.Normality

The normal form of a clause is in normal form. It is cut into the unified pieces of the clause,
where quoted texts that touch and have one quote character now are one piece
(`IsCut.unified`); all other pieces end where they ended before, because what follows a piece
still starts with the same character or with another quote or operator. Such pieces stay as
they are when they are normalized again, so a clause and its normal form compile alike
(`normalize_normal`).
-/

namespace RecordSieve
namespace Clause

open Text.Quoted (scan escape encode)

/-! ### Pieces in normal form -/

namespace Piece

/-- A piece whose normal form is its source. -/
def IsNormal (p : Piece) : Prop := p.normalize = .ok p.source

theorem isNormal_quoted_iff {q : Char} {body : List Char} :
    (quoted q body).IsNormal ↔ q ≠ '"' := by
  constructor
  · rintro h rfl
    rw [IsNormal, normalize, if_pos rfl, source] at h
    cases h
  · intro hq
    rw [IsNormal, normalize, if_neg hq, source]

theorem isNormal_unified {p : Piece} {cs : List Char} (h : p.normalize = .ok cs) :
    p.unified.IsNormal := by
  cases p with
  | quoted q body =>
    refine isNormal_quoted_iff.2 ?_
    split
    · decide
    · assumption
  | unterminated us => cases h
  | operator us =>
    cases hop : Comparison.ofSymbol? (String.ofList us) with
    | none => simp [normalize, hop] at h
    | some op => simp [IsNormal, unified, hop, normalize, source]
  | number token =>
    obtain ⟨n, hn, rfl⟩ := Except.map_eq_ok_iff.1 h
    exact h
  | word us => rfl
  | other c => rfl

theorem isQuoted_unified (p : Piece) : p.unified.isQuoted = p.isQuoted := by
  cases p with
  | operator us =>
    cases hop : Comparison.ofSymbol? (String.ofList us) <;> simp [unified, hop, isQuoted]
  | _ => rfl

end Piece

theorem isNormal_map_unified {ps : List Piece} (h : ∀ p ∈ ps, ∃ cs, p.normalize = .ok cs) :
    ∀ p ∈ ps.map Piece.unified, p.IsNormal :=
  List.forall_mem_map.2 fun p hp => (h p hp).elim fun _ => Piece.isNormal_unified

theorem normalizePieces_of_isNormal {ps : List Piece} (h : ∀ p ∈ ps, p.IsNormal) :
    normalizePieces ps = .ok (ps.flatMap Piece.source) := by
  induction ps with
  | nil => rfl
  | cons p ps ih =>
    obtain ⟨hp, hps⟩ := List.forall_mem_cons.1 h
    rw [normalizePieces, hp, ih hps]
    rfl

theorem isNormal_joinQuoted {ps : List Piece} (h : ∀ p ∈ ps, p.IsNormal) :
    ∀ p ∈ joinQuoted ps, p.IsNormal := by
  refine forall_mem_joinQuoted (fun q body more hq _ => ?_) h
  exact Piece.isNormal_quoted_iff.2 (Piece.isNormal_quoted_iff.1 hq)

/-! ### The cutting of a normal form -/

/-- Characters that a text may have in the same place before and after it is normalized. -/
def Stands (c d : Char) : Prop :=
  c = d ∨ (isQuote c = true ∧ isQuote d = true) ∨
    (isOperatorChar c = true ∧ isOperatorChar d = true)

theorem isOperatorChar_symbol (op : Comparison) :
    ∃ d ds, op.symbol.toList = d :: ds ∧ ∀ e ∈ d :: ds, isOperatorChar e = true := by
  obtain ⟨hne, hall⟩ := isOperatorChar_of_ofSymbol? (Comparison.ofSymbol?_symbol op)
  obtain ⟨d, ds, hds⟩ := List.exists_cons_of_ne_nil hne
  exact ⟨d, ds, hds, hds ▸ hall⟩

/-- The unified form of a piece is formed, and starts with a character that stands for the
first one of the piece. -/
theorem Piece.IsFormed.unified {p : Piece} (h : p.IsFormed) {ns : List Char}
    (hns : p.normalize = .ok ns) : p.unified.IsFormed ∧
      ∃ c cs d ds, p.source = c :: cs ∧ p.unified.source = d :: ds ∧ Stands c d := by
  cases h with
  | @quoted q body hq =>
    have hunified := isQuote_unified hq
    exact ⟨.quoted body hunified, _, _, _, _, rfl, rfl, .inr (.inl ⟨hq, hunified⟩)⟩
  | unterminated _ _ => cases hns
  | @operator c cs hall =>
    cases hop : Comparison.ofSymbol? (String.ofList (c :: cs)) with
    | none =>
      simp only [normalize, hop] at hns
      cases hns
    | some op =>
      obtain ⟨d, ds, hds, hall'⟩ := isOperatorChar_symbol op
      simp only [Piece.unified, hop, hds]
      exact ⟨.operator hall', _, _, _, _, rfl, rfl,
        .inr (.inr ⟨hall c List.mem_cons_self, hall' d List.mem_cons_self⟩)⟩
  | number hlike =>
    obtain ⟨c, cs, rfl, -⟩ := hlike.exists_head
    exact ⟨.number hlike, c, cs, c, cs, rfl, rfl, .inl rfl⟩
  | word hstart hall => exact ⟨.word hstart hall, _, _, _, _, rfl, rfl, .inl rfl⟩
  | other hquote hop hword => exact ⟨.other hquote hop hword, _, _, _, _, rfl, rfl, .inl rfl⟩

/-- A piece that is no quoted text ends in front of a character if it does so in front of one
that the character stands for. -/
theorem Piece.StopsAt.unified {p : Piece} (hp : p.IsFormed) (hquoted : p.isQuoted = false)
    {ns : List Char} (hns : p.normalize = .ok ns) {c d : Char} (h : p.StopsAt c)
    (hd : Stands c d) : p.unified.StopsAt d := by
  have hquote : isQuote d = true → ∀ cs, ¬IsNumberLike (cs ++ [d]) := by
    intro hq cs hlike
    have hsign := (hlike.of_concat (isWordChar_of_isQuote hq)).1
    rw [(classes_of_isSign hsign).2.2.1] at hq
    cases hq
  have hoperator : isOperatorChar d = true → ∀ cs, ¬IsNumberLike (cs ++ [d]) := by
    intro hop cs hlike
    have hsign := (hlike.of_concat (isWordChar_of_isOperatorChar hop)).1
    rw [(classes_of_isSign hsign).2.2.2.1] at hop
    cases hop
  cases hp with
  | quoted body hq => cases hquoted
  | unterminated _ _ => cases hquoted
  | @operator e es _ =>
    have hstop : isOperatorChar d = false := by
      rcases hd with rfl | ⟨-, hq⟩ | ⟨hop, -⟩
      · exact h
      · exact isOperatorChar_of_isQuote hq
      · exact absurd hop (Bool.eq_false_iff.1 h)
    cases hop : Comparison.ofSymbol? (String.ofList (e :: es)) with
    | none =>
      simp only [normalize, hop] at hns
      cases hns
    | some op =>
      simp only [Piece.unified, hop]
      exact hstop
  | number hlike =>
    rcases hd with rfl | ⟨-, hq⟩ | ⟨-, hop⟩
    · exact h
    · exact hquote hq _
    · exact hoperator hop _
  | word hstart hall =>
    rcases hd with rfl | ⟨-, hq⟩ | ⟨-, hop⟩
    · exact h
    · exact isWordChar_of_isQuote hq
    · exact isWordChar_of_isOperatorChar hop
  | other _ _ _ => trivial

theorem pieces_quoted {q : Char} {cs body rest : List Char} (hq : isQuote q = true)
    (h : scan q cs = some (body, rest)) : pieces (q :: cs) = .quoted q body :: pieces rest := by
  rw [pieces_cons]
  simp only [cut, hq, if_true, h]

/-- A quoted text in front of a text that leaves no quote open is the first piece of both, one
text with the quoted text behind it if they touch. -/
theorem pieces_encode_append {q : Char} {body cs : List Char} (hq : isQuote q = true)
    (h : IsClosed cs) :
    pieces (encode q body ++ cs) = (Piece.quoted q body).joinTo (pieces cs) := by
  rw [encode_append]
  by_cases hhead : cs.head? = some q
  · -- The closing quote and the next opening one are read as one doubled quote.
    obtain ⟨ds, rfl⟩ := List.head?_eq_some_iff.1 hhead
    cases hscan : scan q ds with
    | none =>
      refine absurd ?_ (h (q :: ds))
      rw [pieces_cons]
      simp only [cut, hq, if_true, hscan]
      exact List.mem_cons_self
    | some r =>
      have hjoined : scan q (escape q body ++ q :: q :: ds) = some (body ++ q :: r.1, r.2) := by
        rw [scan_escape_quote, hscan]
        rfl
      rw [pieces_quoted hq hjoined, pieces_quoted hq hscan, Piece.joinTo_of_same]
  · rw [pieces_quoted hq (Text.Quoted.scan_escape q body cs hhead), Piece.joinTo_of_head]
    intro more hmore
    obtain ⟨ps, hps⟩ := List.head?_eq_some_iff.1 hmore
    have hsource := pieces_source cs
    rw [hps, List.flatMap_cons] at hsource
    exact hhead (hsource ▸ rfl)

/-- A normal form is cut into the unified pieces of the clause, texts that touch joined. -/
theorem IsCut.unified {cs : List Char} {ps : List Piece} (h : IsCut cs ps)
    (hok : ∀ p ∈ ps, ∃ ns, p.normalize = .ok ns) :
    IsCut ((ps.map Piece.unified).flatMap Piece.source) (joinQuoted (ps.map Piece.unified)) ∧
      ∀ d ∈ ((ps.map Piece.unified).flatMap Piece.source).head?, ∃ c ∈ cs.head?, Stands c d := by
  induction h with
  | nil => exact ⟨.nil, nofun⟩
  | @cons p rest ps hp hstop _ ih =>
    obtain ⟨⟨ns, hns⟩, hps⟩ := List.forall_mem_cons.1 hok
    obtain ⟨hcut, hhead⟩ := ih hps
    obtain ⟨hform, c, us, d, vs, hus, hvs, hstands⟩ := hp.unified hns
    rw [List.map_cons, List.flatMap_cons, joinQuoted_cons]
    refine ⟨?_, ?_⟩
    · have hnormal := isNormal_joinQuoted (isNormal_map_unified hps)
      generalize (ps.map Piece.unified).flatMap Piece.source = more at *
      generalize joinQuoted (ps.map Piece.unified) = js at *
      cases hquoted : p.isQuoted with
      | false =>
        rw [Piece.joinTo_of_isQuoted (p.isQuoted_unified.trans hquoted)]
        refine .cons hform (fun e he => ?_) hcut
        obtain ⟨f, hf, hstands⟩ := hhead e he
        exact (hstop f hf).unified hp hquoted hns hstands
      | true =>
        cases hp with
        | quoted body hq =>
          obtain rfl := isCut_iff.1 hcut
          have hclosed : IsClosed more := fun us hmem => nomatch hnormal _ hmem
          exact isCut_iff.2 (pieces_encode_append (Piece.isQuote_unified hq) hclosed).symm
        | unterminated => cases hns
        | _ => cases hquoted
    · rw [hvs, hus]
      rintro _ ⟨⟩
      exact ⟨c, rfl, hstands⟩

/-- Of a text that has a normal form, the pieces of that form: the unified pieces of the text,
touching texts joined. They are normal, so the normal form is its own. -/
theorem normalizeChars_normal {cs normal : List Char} (h : normalizeChars cs = .ok normal) :
    pieces normal = joinQuoted ((pieces cs).map Piece.unified) ∧
      normalizeChars normal = .ok normal := by
  obtain ⟨rfl, hall⟩ := eq_of_normalizePieces h
  obtain ⟨hcut, -⟩ := (isCut_pieces cs).unified hall
  have hpieces := isCut_iff.1 hcut
  have hnormal : ∀ p ∈ joinQuoted ((pieces cs).map Piece.unified), p.IsNormal :=
    isNormal_joinQuoted (isNormal_map_unified hall)
  refine ⟨hpieces.symm, ?_⟩
  rw [normalizeChars, ← hpieces, normalizePieces_of_isNormal hnormal, hcut.flatMap_source]

/-- A normal form is cut into the pieces of the clause, each in the spelling of the query
language, where texts that touch and have one quote character now are one text. It is its own
normal form, and compiles as the clause does, to the same predicate or with the same error. -/
theorem normalize_normal {clause normal : String} (h : normalize clause = .ok normal) :
    pieces normal.toList = joinQuoted ((pieces clause.toList).map Piece.unified) ∧
      normalize normal = .ok normal ∧ compile normal = compile clause := by
  obtain ⟨cs, hcs, rfl⟩ := Except.map_eq_ok_iff.1 h
  obtain ⟨hpieces, hnormal⟩ := normalizeChars_normal hcs
  rw [String.toList_ofList]
  refine ⟨hpieces, ?_, ?_⟩
  · rw [normalize, String.toList_ofList, hnormal]
    rfl
  · simp only [compile, condition, String.toList_ofList, hnormal, hcs]

/-- Two texts that touch, of which the second was in double quotes and holds a single one. -/
theorem normalize_normal_touching :
    normalize "a == 'x'\"y'z\"" = .ok "a = 'x''y''z'" ∧
      pieces "a = 'x''y''z'".toList =
        joinQuoted ((pieces "a == 'x'\"y'z\"".toList).map Piece.unified) ∧
      normalize "a = 'x''y''z'" = .ok "a = 'x''y''z'" ∧
      compile "a = 'x''y''z'" = compile "a == 'x'\"y'z\"" := by
  have h : normalize "a == 'x'\"y'z\"" = .ok "a = 'x''y''z'" :=
    Except.toOption_eq_some_iff.1 (by decide +kernel)
  exact ⟨h, normalize_normal h⟩

end Clause
end RecordSieve
