import RecordSieve.Proofs.Clause.Separator
import RecordSieve.Proofs.Clause.Soundness
/-!
# RecordSieve.Proofs.Clause.Comments

Comments in a clause. The reader of pieces knows no comments: it checks and rewrites their text
like any other, and the reader of tokens skips what comes out. So a comment is without effect
if its text has a normal form, and refused with the error of its text otherwise, as long as it
leaves no quote open (`compile_insert`). A comment that does leaves the rest of the clause in
another reading.

Comments are put behind white space between two tokens (`IsGap`). What stands behind the white
space has no part in whether it is a gap, so several comments are put in from right to left
(`Commented`).
-/

namespace RecordSieve
namespace Clause

open Text (Keeps Neutral)
open Sql (Token Scans Agree)

/-! ### Comments and their normal forms -/

/-- Two characters that are no comment mark together. -/
def NoMark (c d : Char) : Prop := ¬(c = '*' ∧ d = '/') ∧ ¬(c = '/' ∧ d = '*')

/-- A comment and its text. As comments nest, the text of one between marks must not open
another, also not with the star of the closing mark. -/
inductive IsComment : List Char → List Char → Prop
  | block {body : List Char} : (body ++ ['*']).IsChain NoMark →
      IsComment ('/' :: '*' :: (body ++ ['*', '/'])) body
  | line {body : List Char} : '\n' ∉ body → IsComment ('-' :: '-' :: (body ++ ['\n'])) body

/-- What passes a test that star and slash fail makes no comment mark. -/
theorem neutral_of_test {p : Char → Bool} {c : Char} (h : p c = true)
    (hp : p '*' = false ∧ p '/' = false) : Neutral NoMark c := by
  have hstar : c ≠ '*' := by
    rintro rfl
    cases h.symm.trans hp.1
  have hslash : c ≠ '/' := by
    rintro rfl
    cases h.symm.trans hp.2
  intro d
  simp [NoMark, hstar, hslash]

theorem neutral_quote {q : Char} (h : isQuote q = true) : Neutral NoMark q :=
  neutral_of_test h ⟨rfl, rfl⟩

theorem neutral_operatorChar {c : Char} (h : isOperatorChar c = true) : Neutral NoMark c :=
  neutral_of_test h ⟨rfl, rfl⟩

/-- Doubling the quotes of a text neither brings marks nor takes them away. -/
theorem isChain_escape {q : Char} (hq : Neutral NoMark q) (body : List Char) :
    (Text.Quoted.escape q body).IsChain NoMark ↔ body.IsChain NoMark := by
  induction body with
  | nil => rfl
  | cons c body ih =>
    by_cases hc : c = q
    · subst hc
      rw [Text.Quoted.escape_cons_quote, List.isChain_cons, List.isChain_cons, List.isChain_cons, ih]
      simp [fun d => (hq d).1]
    · have hhead : (Text.Quoted.escape q body).head? = body.head? := by
        cases body with
        | nil => rfl
        | cons d body =>
          by_cases hd : d = q
          · subst hd
            rw [Text.Quoted.escape_cons_quote]
            rfl
          · rw [Text.Quoted.escape_cons_other hd]
            rfl
      rw [Text.Quoted.escape_cons_other hc, List.isChain_cons, List.isChain_cons, ih, hhead]

/-- The quotes of a text may be others. -/
theorem keeps_encode {q r : Char} (hq : Neutral NoMark q) (hr : Neutral NoMark r)
    (body : List Char) {xs ys : List Char} (h : Keeps NoMark xs ys) :
    Keeps NoMark (Text.Quoted.encode q body ++ xs) (Text.Quoted.encode r body ++ ys) := by
  rw [encode_append, encode_append]
  refine .cons (fun b => (hr b).1) (fun p _ => (hr p).2) fun hchain => ?_
  rw [List.isChain_append] at hchain ⊢
  refine ⟨(isChain_escape hr body).2 ((isChain_escape hq body).1 hchain.1), ?_, ?_⟩
  · exact List.isChain_cons.2 ⟨fun b _ => (hr b).1, h.isChain (List.isChain_cons.1 hchain.2.1).2⟩
  · intro x _ y hy
    cases hy
    exact (hr x).2

/-- Normalizing brings no comment marks into a text. -/
theorem keeps_sources {ps : List Piece} (h : ∀ p ∈ ps, p.IsProper) (zs : List Char) :
    Keeps NoMark (ps.flatMap Piece.source ++ zs)
      ((ps.map Piece.unified).flatMap Piece.source ++ zs) := by
  induction ps with
  | nil => exact .refl zs
  | cons p ps ih =>
    obtain ⟨hp, hps⟩ := List.forall_mem_cons.1 h
    rw [List.map_cons, List.flatMap_cons, List.flatMap_cons, List.append_assoc, List.append_assoc]
    cases hp with
    | quoted body hq =>
      exact keeps_encode (neutral_quote hq) (neutral_quote (Piece.isQuote_unified hq)) body (ih hps)
    | bare hp =>
      obtain ⟨hunified, he | ⟨us, vs, rfl, he⟩⟩ := hp.unified
      · rw [he]
        exact (ih hps).append _
      · rw [he] at hunified ⊢
        exact (ih hps).neutral us hunified.ne_nil fun c hc =>
          neutral_operatorChar (hunified.isOperatorChar vs rfl c hc)

theorem mem_escape {q c : Char} {body : List Char} :
    c ∈ Text.Quoted.escape q body ↔ c ∈ body := by
  induction body with
  | nil => rfl
  | cons d body ih =>
    by_cases hd : d = q
    · subst hd
      rw [Text.Quoted.escape_cons_quote, List.mem_cons, List.mem_cons, List.mem_cons, ih]
      exact ⟨fun h => h.elim .inl id, fun h => .inr h⟩
    · rw [Text.Quoted.escape_cons_other hd, List.mem_cons, List.mem_cons, ih]

/-- Normalizing brings no characters into a text but quotes and operators. -/
theorem mem_of_mem_sources {ps : List Piece} (h : ∀ p ∈ ps, p.IsProper) {c : Char}
    (hc : c ∈ (ps.map Piece.unified).flatMap Piece.source) :
    c ∈ ps.flatMap Piece.source ∨ isQuote c = true ∨ isOperatorChar c = true := by
  rw [List.flatMap_map] at hc
  obtain ⟨p, hp, hc⟩ := List.mem_flatMap.1 hc
  have hsource : c ∈ p.source ∨ isQuote c = true ∨ isOperatorChar c = true := by
    cases h p hp with
    | @quoted q body hq =>
      simp only [Piece.unified, Piece.source, Text.Quoted.encode, List.mem_cons, List.mem_append,
        mem_escape, List.not_mem_nil, or_false] at hc ⊢
      rcases hc with rfl | hc | rfl
      · exact .inr (.inl (Piece.isQuote_unified hq))
      · exact .inl (.inr (.inl hc))
      · exact .inr (.inl (Piece.isQuote_unified hq))
    | bare hp =>
      obtain ⟨hunified, he | ⟨us, vs, rfl, he⟩⟩ := hp.unified
      · rw [he] at hc
        exact .inl hc
      · rw [he] at hunified hc
        exact .inr (.inr (hunified.isOperatorChar vs rfl c hc))
  exact hsource.imp_left fun hc => List.mem_flatMap.2 ⟨p, hp, hc⟩

/-! ### Reading a comment -/

theorem pieces_minus (cs : List Char) : pieces ('-' :: cs) = .other '-' :: pieces cs := by
  rw [pieces_cons]
  rfl

theorem pieces_block {body : List Char} (hbody : IsClosed body) (vs : List Char) :
    pieces ('/' :: '*' :: (body ++ '*' :: '/' :: vs)) =
      .other '/' :: .other '*' :: (pieces body ++ .other '*' :: .other '/' :: pieces vs) := by
  rw [pieces_cons, cut_separator rfl, pieces_cons, cut_separator rfl, pieces_separated rfl hbody,
    pieces_cons, cut_separator rfl]

theorem pieces_line {body : List Char} (hbody : IsClosed body) (vs : List Char) :
    pieces ('-' :: '-' :: (body ++ '\n' :: vs)) =
      .other '-' :: .other '-' :: (pieces body ++ .other '\n' :: pieces vs) := by
  rw [pieces_minus, pieces_minus, pieces_separated rfl hbody]

/-- A comment that leaves no quote open is apart from what follows. -/
theorem IsComment.pieces_append {k body : List Char} (h : IsComment k body)
    (hbody : IsClosed body) (vs : List Char) : pieces (k ++ vs) = pieces k ++ pieces vs := by
  cases h with
  | block _ => simpa [pieces_block hbody []] using pieces_block hbody vs
  | line _ => simpa [pieces_line hbody []] using pieces_line hbody vs

theorem IsComment.normalizeChars_append {k body : List Char} (h : IsComment k body)
    (hbody : IsClosed body) (vs : List Char) :
    normalizeChars (k ++ vs) =
      (normalizeChars k).bind fun xs => (normalizeChars vs).map (xs ++ ·) := by
  rw [normalizeChars, h.pieces_append hbody, normalizePieces_append]
  rfl

/-- The text between the marks of a block comment is skipped together with the closing one. -/
theorem afterComment_of_isChain {body : List Char} (h : (body ++ ['*']).IsChain NoMark)
    (vs : List Char) : Sql.afterComment 0 (body ++ '*' :: '/' :: vs) = some vs := by
  induction body with
  | nil => rfl
  | cons c body ih =>
    rw [List.cons_append, List.isChain_cons] at h
    have hrest := ih h.2
    have hhead : ∃ d ds, body ++ '*' :: '/' :: vs = d :: ds ∧ d ∈ (body ++ ['*']).head? := by
      cases body with
      | nil => exact ⟨'*', '/' :: vs, rfl, rfl⟩
      | cons d ds => exact ⟨d, _, rfl, rfl⟩
    obtain ⟨d, ds, hds, hd⟩ := hhead
    have hmark := h.1 d hd
    rw [hds] at hrest
    rw [List.cons_append, hds, Sql.afterComment.eq_def]
    simp only [if_neg hmark.1, if_neg hmark.2, hrest]

/-- The normal form of a comment is skipped. -/
theorem IsComment.scans {k body normal : List Char} (h : IsComment k body)
    (hbody : IsClosed body) (hk : normalizeChars k = .ok normal) (w : Bool) (vs : List Char) :
    Scans w (normal ++ vs) [] false vs := by
  obtain ⟨rfl, hall⟩ := eq_of_normalizePieces hk
  have hproper : ∀ p ∈ pieces body, p.IsProper := by
    refine isProper_of_mem_pieces fun p hp => hall p ?_
    cases h with
    | block _ => simp [pieces_block hbody [], hp]
    | line _ => simp [pieces_line hbody [], hp]
  have hsource := pieces_source body
  cases h with
  | block hmarks =>
    have hchain := (keeps_sources hproper ['*']).isChain (hsource.symm ▸ hmarks)
    have hskip := afterComment_of_isChain hchain vs
    have hstep : Sql.step w '/' ('*' ::
        (((pieces body).map Piece.unified).flatMap Piece.source ++ '*' :: '/' :: vs)) =
          some (.blank, vs) := by
      show (Sql.afterComment 0 _).map _ = _
      rw [List.drop_one, List.tail_cons, hskip]
      rfl
    have hscans : Scans w _ [] false vs := .step hstep (.done false vs)
    simpa [pieces_block hbody [], Piece.unified, Piece.source] using hscans
  | line hbreak =>
    have hnone : ∀ c ∈ ((pieces body).map Piece.unified).flatMap Piece.source,
        (c != '\n') = true := by
      intro c hc
      rw [bne_iff_ne]
      intro he
      subst he
      rcases mem_of_mem_sources hproper hc with hc | hc | hc
      · exact hbreak (hsource ▸ hc)
      · cases hc
      · cases hc
    have hstep : Sql.step w '-' ('-' ::
        (((pieces body).map Piece.unified).flatMap Piece.source ++ '\n' :: vs)) =
          some (.blank, vs) := by
      show some (Sql.Lexeme.blank, (('-' :: (_ ++ '\n' :: vs)).dropWhile (· != '\n')).drop 1) = _
      rw [List.dropWhile_cons_of_pos rfl, Text.dropWhile_append hnone (by simp)]
      rfl
    have hscans : Scans w _ [] false vs := .step hstep (.done false vs)
    simpa [pieces_line hbody [], Piece.unified, Piece.source] using hscans

/-! ### Putting comments in -/

/-- White space between two tokens: the reader of pieces and the reader of tokens both get to
it with nothing open. -/
structure IsGap (us : List Char) (b : Char) (normal : List Char) : Prop where
  isBlank : Text.isBlank b = true
  normalizes : normalizeChars us = .ok normal
  scans : ∃ ts w, Scans false (normal ++ [b]) ts w [b]

/-- A text and what comes out of it when comments are put in behind white space between two
tokens, from right to left. -/
inductive Commented (clause : List Char) : List (List Char) → List Char → Prop
  | refl : Commented clause [] clause
  | insert {ks : List (List Char)} {us vs k body normal : List Char} {b : Char} :
      Commented clause ks (us ++ b :: vs) → IsGap us b normal → IsComment k body →
      IsClosed body → Commented clause (k :: ks) (us ++ b :: (k ++ vs))

/-- Whether the normal form of a text, if it has one, is more than white space. -/
def NotBlank (cs : List Char) : Prop :=
  ∀ normal, normalizeChars cs = .ok normal → Text.allBlank normal = false

namespace IsGap

variable {us normal : List Char} {b : Char}

theorem isSeparator (h : IsGap us b normal) : Clause.isSeparator b = true :=
  isSeparator_of_isDelimiter (Text.isDelimiter_of_isBlank h.isBlank)

/-- What stands in front of a gap is normalized by itself. -/
theorem normalizeChars (h : IsGap us b normal) (vs : List Char) :
    Clause.normalizeChars (us ++ b :: vs) = (Clause.normalizeChars vs).map (normal ++ b :: ·) := by
  rw [normalizeChars_separated h.isSeparator (isClosed_of_normalizeChars h.normalizes),
    h.normalizes]
  rfl

/-- The reader of tokens gets over a gap, whatever stands behind it. -/
theorem exists_scans (h : IsGap us b normal) :
    ∃ ts, ∀ vs, Scans false (normal ++ b :: vs) ts false vs := by
  obtain ⟨ts, w, hscans⟩ := h.scans
  obtain ⟨xs, hxs, hlocal⟩ := hscans.isLocal
  obtain rfl := List.append_cancel_right hxs
  refine ⟨ts, fun vs => ?_⟩
  have hstep : Sql.step w b vs = some (.blank, vs) := by rw [Sql.step, if_pos h.isBlank]
  have hblank : Scans w (b :: vs) [] false vs := .step hstep (.done false vs)
  simpa using (hlocal (b :: vs) (.blank [] vs h.isBlank)).append hblank

end IsGap

section

variable {us vs k body normal : List Char} {b : Char}

/-- A comment that is skipped leaves the tokens as they are. -/
theorem tokens_insert (hgap : IsGap us b normal) {skipped : List Char}
    (hskip : ∀ w vs, Scans w (skipped ++ vs) [] false vs) (vs : List Char) :
    Sql.tokens (normal ++ b :: (skipped ++ vs)) = Sql.tokens (normal ++ b :: vs) := by
  obtain ⟨ts, hts⟩ := hgap.exists_scans
  have hwith := (hts (skipped ++ vs)).append (hskip false vs)
  rw [List.append_nil] at hwith
  exact Sql.tokens_eq_of_scans hwith (hts vs)

/-- A comment is no white space. -/
theorem IsComment.allBlank {xs : List Char} (h : IsComment k body)
    (hk : normalizeChars k = .ok xs) : Text.allBlank xs = false := by
  obtain ⟨rfl, -⟩ := eq_of_normalizePieces hk
  cases h with
  | block _ =>
    rw [pieces_cons, cut_separator rfl]
    rfl
  | line _ =>
    rw [pieces_minus]
    rfl

/-- A comment is without effect if it has a normal form, and an error otherwise. -/
theorem compile_insert (hgap : IsGap us b normal) (hk : IsComment k body) (hbody : IsClosed body)
    (hblank : NotBlank (us ++ b :: vs)) :
    compile (String.ofList (us ++ b :: (k ++ vs))) =
      (normalizeChars k).bind fun _ => compile (String.ofList (us ++ b :: vs)) := by
  unfold compile condition
  rw [String.toList_ofList, String.toList_ofList, hgap.normalizeChars, hgap.normalizeChars,
    hk.normalizeChars_append hbody]
  unfold NotBlank at hblank
  rw [hgap.normalizeChars] at hblank
  cases hxs : normalizeChars k with
  | error e => rfl
  | ok xs =>
    cases hys : normalizeChars vs with
    | error e => rfl
    | ok ys =>
      rw [hys] at hblank
      have htokens := tokens_insert hgap (hk.scans hbody hxs) ys
      have hblank' : Text.allBlank (normal ++ b :: (xs ++ ys)) = false := by
        simp [hk.allBlank hxs]
      simp only [Except.bind, Except.map, conditionOfNormal, htokens, hblank', hblank _ rfl]

theorem NotBlank.insert (hgap : IsGap us b normal) (hk : IsComment k body) (hbody : IsClosed body) :
    NotBlank (us ++ b :: (k ++ vs)) := by
  intro xs hxs
  rw [hgap.normalizeChars, hk.normalizeChars_append hbody] at hxs
  obtain ⟨ys, hys, rfl⟩ := Except.map_eq_ok_iff.1 hxs
  obtain ⟨zs, hzs, hrest⟩ := Except.bind_eq_ok_iff.1 hys
  obtain ⟨us', -, rfl⟩ := Except.map_eq_ok_iff.1 hrest
  simp [hk.allBlank hzs]

end

theorem notBlank_of_compile {clause : String} {e : Expression} (h : compile clause = .ok e) :
    NotBlank clause.toList := by
  intro normal hnormal
  unfold compile condition at h
  rw [hnormal] at h
  cases hblank : Text.allBlank normal with
  | false => rfl
  | true =>
    simp only [conditionOfNormal, if_pos hblank, reduceCtorEq] at h

/-- A compiled clause with comments compiles to the same expression if all comments have normal
forms, and otherwise to the error of the first that has none. -/
theorem compile_commented {clause : String} {e : Expression} {ks : List (List Char)}
    {commented : List Char} (h : compile clause = .ok e)
    (hcommented : Commented clause.toList ks commented) :
    compile (String.ofList commented) = (ks.mapM normalizeChars).map fun _ => e := by
  suffices hboth : NotBlank commented ∧
      compile (String.ofList commented) = (ks.mapM normalizeChars).map fun _ => e from hboth.2
  induction hcommented with
  | refl =>
    rw [String.ofList_toList]
    exact ⟨notBlank_of_compile h, h⟩
  | @insert ks us vs k body normal b _ hgap hk hbody ih =>
    refine ⟨.insert hgap hk hbody, ?_⟩
    rw [compile_insert hgap hk hbody ih.1, ih.2, List.mapM_cons]
    cases normalizeChars k with
    | error e => rfl
    | ok xs =>
      cases ks.mapM normalizeChars with
      | error e => rfl
      | ok yss => rfl

/-- The text of a comment is checked like the clause: `a = 1` is refused with `=>` in a comment. -/
theorem compile_commented_arrow :
    compile "a = 1" =
        .ok (.compare .eq (.field "a") (.literal (.number (.ofBits 0x3FF0000000000000)))) ∧
      Commented "a = 1".toList ["/* => */".toList] "a = /* => */1".toList ∧
      compile "a = /* => */1" = .error (.unsupported (.operator "=>")) := by
  have hcompile : compile "a = 1" =
      .ok (.compare .eq (.field "a") (.literal (.number (.ofBits 0x3FF0000000000000)))) :=
    compile_of_toOption (by decide +kernel)
  have hname : Sql.step false 'a' [' ', '=', ' '] =
      some (.token (.word "a" none), [' ', '=', ' ']) := by decide +kernel
  have hspace : Sql.step true ' ' ['=', ' '] = some (.blank, ['=', ' ']) := by decide +kernel
  have heq : Sql.step false '=' [' '] = some (.token (.symbol "="), [' ']) := by decide +kernel
  have hscans : Scans false ['a', ' ', '=', ' '] [.word "a" none, .symbol "="] false [' '] :=
    .step hname (.step hspace (.step heq (.done false [' '])))
  have hgap : IsGap ['a', ' ', '='] ' ' ['a', ' ', '='] :=
    ⟨by decide, by decide +kernel, _, _, hscans⟩
  have htext : "/* => */".toList = '/' :: '*' :: ([' ', '=', '>', ' '] ++ ['*', '/']) := by decide
  have hcomment : IsComment "/* => */".toList [' ', '=', '>', ' '] := by
    rw [htext]
    exact .block (by simp [NoMark])
  have hclosed : IsClosed [' ', '=', '>', ' '] := by
    have hpieces : pieces [' ', '=', '>', ' '] = [.other ' ', .operator ['=', '>'], .other ' '] := by
      decide +kernel
    intro us
    simp [hpieces]
  have hbare : Commented "a = 1".toList [] (['a', ' ', '='] ++ ' ' :: ['1']) := .refl
  have hcommented : Commented "a = 1".toList ["/* => */".toList] "a = /* => */1".toList :=
    .insert hbare hgap hcomment hclosed
  have hrefused : ["/* => */".toList].mapM normalizeChars =
      .error (.unsupported (.operator "=>")) := by decide +kernel
  have hresult := compile_commented hcompile hcommented
  rw [String.ofList_toList, hrefused] at hresult
  exact ⟨hcompile, hcommented, hresult⟩

end Clause
end RecordSieve
