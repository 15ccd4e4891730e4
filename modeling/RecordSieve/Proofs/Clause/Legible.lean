import RecordSieve.Proofs.Clause.Completeness
import RecordSieve.Proofs.Clause.Printed
import RecordSieve.Proofs.Query.Evaluation
/-!
# RecordSieve.Proofs.Clause.Legible

Predicates whose printed form means what they mean. Numbers, texts, operators and
parentheses are always legible. What can go wrong is a field name that is printed without
quotes: printing looks at its letters only, and the reader may take such a word for a
keyword, or see its end before the printer does. `Expression.Legible` says of every name
where it stands that neither happens. The tokens of a legible predicate read as a condition
that means it (`readsBack`), and its text is cut into them (`Legible.isCutInto`).

Whether `NOT` and `CASE` are names depends on the tokens that follow. Other names are
legible everywhere or nowhere, and a predicate that has only names of the first kind is
legible (`legible_of_fields`).
-/

namespace RecordSieve

open Sql (Token BinaryOp Level Lowers Reads ReadsIn)

/-! ### Legible predicates -/

namespace Expression

/-- Whether the names of a printed predicate are read as names where they stand, some
levels being left and some tokens following. A name that is printed without quotes has to
end where the second reader ends it and must be no keyword there; and what stands behind
an operator or in a group must not start another form. -/
def Legible : Nat → Expression → List Token → Prop
  | _, literal _, _ => True
  | d, field name, rest =>
    isPlainName name.toList = true →
      (∀ c ∈ name.toList, Sql.isNamePart c = true) ∧ (Level.ofDepth d).TakesAsName name rest
  | _, list _, _ => False
  | d, compare op l r, rest =>
    l.Legible d ((BinaryOp.compare op).token :: (r.tokens ++ rest)) ∧
      Sql.startsQuantifier (r.tokens ++ rest) = false ∧ r.Legible (d - 1) rest
  | d, and l r, rest =>
    l.Legible d (BinaryOp.and.token :: (r.tokens ++ rest)) ∧
      Sql.startsQuantifier (r.tokens ++ rest) = false ∧ r.Legible (d - 1) rest
  | d, or l r, rest =>
    l.Legible d (BinaryOp.or.token :: (r.tokens ++ rest)) ∧
      Sql.startsQuantifier (r.tokens ++ rest) = false ∧ r.Legible (d - 1) rest
  | d, not e, rest => e.Legible (d - 1) rest
  | d, member p s negated, rest =>
    p.Legible d (inTokens negated ++ (Literal.listTokens s.values ++ rest))
  | d, group e, rest =>
    Sql.startsQuery (e.tokens ++ .symbol ")" :: rest) = false ∧
      e.Legible (d - 1) (.symbol ")" :: rest)

variable {op : BinaryOp} {l r : Expression} {d : Nat} {rest : List Token}

theorem legible_join (hop : op.isOfFilter = true) :
    (op.join l r).Legible d rest ↔ l.Legible d (op.token :: (r.tokens ++ rest)) ∧
      Sql.startsQuantifier (r.tokens ++ rest) = false ∧ r.Legible (d - 1) rest := by
  cases op with
  | other s => cases hop
  | _ => exact Iff.rfl

end Expression

/-! ### A legible predicate comes back -/

/-- A constant that fits is written by its tokens. -/
theorem Literal.Fits.tokens {d : Nat} {v : Literal} (h : v.Fits d) :
    Clause.LiteralTokens (d + 1) v v.tokens := by
  cases v with
  | text s => exact .text s
  | boolean b => exact .boolean b (by cases b <;> rfl)
  | number n =>
    obtain ⟨hfinite, hsign⟩ := h
    have hsigned := Literal.signedNumber_ofCode hfinite
    have hread : Clause.readNumber
        (String.ofList (NumberForm.clause.renderCode n.magnitude)).toList =
          .ok (Binary64.ofCode false n.magnitude) := by
      rw [String.toList_ofList]
      exact Literal.readNumber_renderCode hfinite
    rw [Literal.tokens]
    cases hneg : n.negative with
    | false =>
      rw [hneg] at hsigned
      have htokens := Clause.LiteralTokens.number (d := d) hread
      rwa [show Binary64.ofCode false n.magnitude = n from hsigned] at htokens
    | true =>
      obtain ⟨c, rfl⟩ : ∃ c, d = c + 1 := ⟨d - 1, by have := hsign hneg; omega⟩
      rw [hneg] at hsigned
      have htokens := Clause.LiteralTokens.signed (d := c) true hread
      rwa [hsigned] at htokens

theorem Literal.itemTokens_of_fits {d : Nat} {vs : List Literal} (hne : vs ≠ [])
    (h : ∀ v ∈ vs, v.Fits d) : Clause.ItemTokens (d + 1) vs (itemTokens vs) := by
  fun_induction Literal.itemTokens vs with
  | case1 => exact absurd rfl hne
  | case2 v => exact .one (h v List.mem_cons_self).tokens
  | case3 v vs hvs ih =>
    exact .cons (h v List.mem_cons_self).tokens
      (ih hvs fun w hw => h w (List.mem_cons_of_mem _ hw))

namespace Expression

variable {d : Nat} {e : Expression} {rest : List Token}

theorem inTokens_reads (negated : Bool) (vs : List Literal) (rest : List Token) :
    ReadsIn negated (inTokens negated ++ (Literal.listTokens vs ++ rest))
      (Literal.itemTokens vs ++ .symbol ")" :: rest) := by
  rw [Literal.listTokens, List.cons_append, List.append_assoc]
  cases negated with
  | true => exact .negated rfl rfl
  | false => exact .plain rfl

/-- The tokens of a predicate are read as a condition that means it, wherever the
predicate is legible. -/
def ReadsBack (e : Expression) : Prop :=
  ∀ {d : Nat} {rest : List Token}, e.Fits d → e.Legible d rest →
    ∃ t, Lowers t e ∧ Reads d (e.tokens ++ rest) t rest

theorem ReadsBack.join (op : BinaryOp) {l r : Expression} (hop : op.isOfFilter = true)
    (ihl : l.ReadsBack) (ihr : r.ReadsBack) : (op.join l r).ReadsBack := by
  intro d rest hfits h
  obtain ⟨hpos, hfl, hfr⟩ := (fits_join hop d).1 hfits
  obtain ⟨hl, hq, hr⟩ := (legible_join hop).1 h
  obtain ⟨c, rfl⟩ : ∃ c, d = c + 1 := ⟨d - 1, by omega⟩
  obtain ⟨x, hx, hxs⟩ := ihl hfl hl
  obtain ⟨y, hy, hys⟩ := ihr hfr hr
  refine ⟨.binary x op y, Sql.lowers_binary_iff.2 ⟨l, r, rfl, hop, hx, hy⟩, ?_⟩
  rw [tokens_join hop, List.append_assoc, List.cons_append]
  exact .binary hxs (operator?_token hop) hq hys

theorem readsBack (e : Expression) : e.ReadsBack := by
  induction e with
  | literal v =>
    intro d rest hfits _
    obtain ⟨c, t, hc, hl, hr⟩ := (Literal.Fits.tokens hfits).reads
    cases hc
    exact ⟨t, hl, .constant (hr rest)⟩
  | field name =>
    intro d rest _ h
    refine ⟨.name ⟨name, if isPlainName name.toList then none else some '\x60'⟩, .name _, ?_⟩
    refine .name fun hq => (h ?_).2
    cases hplain : isPlainName name.toList with
    | true => rfl
    | false => simp [hplain] at hq
  | list vs =>
    intro d rest hfits _
    cases hfits
  | compare op l r ihl ihr => exact ReadsBack.join (.compare op) rfl ihl ihr
  | and l r ihl ihr => exact ReadsBack.join .and rfl ihl ihr
  | or l r ihl ihr => exact ReadsBack.join .or rfl ihl ihr
  | not e ih =>
    intro d rest hfits h
    obtain ⟨hpos, hfe⟩ := hfits
    obtain ⟨c, rfl⟩ : ∃ c, d = c + 1 := ⟨d - 1, by omega⟩
    obtain ⟨t, ht, hts⟩ := ih hfe h
    exact ⟨_, .not ht, .not rfl hts⟩
  | member p s negated ih =>
    intro d rest hfits h
    obtain ⟨hpos, hfp, hset, hne, hvalues⟩ := hfits
    obtain ⟨c, rfl⟩ : ∃ c, d = c + 1 := ⟨d - 1, by omega⟩
    obtain ⟨x, hx, hxs⟩ := ih hfp h
    -- The values of a set are kept as they were written, so they are its items.
    obtain ⟨b, items, hb, hitems, hread⟩ := (Literal.itemTokens_of_fits hne hvalues).reads
    cases hb
    refine ⟨.inList x items negated, ?_, ?_⟩
    · rw [hset]
      exact .inList negated hx hitems
    · rw [tokens, List.append_assoc, List.append_assoc]
      exact .inList hxs (inTokens_reads negated _ rest) (hread _)
  | group e ih =>
    intro d rest hfits h
    obtain ⟨hpos, hfe⟩ := hfits
    obtain ⟨c, rfl⟩ : ∃ c, d = c + 1 := ⟨d - 1, by omega⟩
    obtain ⟨hq, he⟩ := h
    obtain ⟨t, ht, hts⟩ := ih hfe he
    refine ⟨_, .nested ht, ?_⟩
    rw [tokens, List.cons_append, List.append_assoc]
    exact .nested hq hts

/-! ### Its text is cut into its tokens -/

/-- A name that the second reader ends where the printer did is cut off as it is. -/
theorem isCutInto_renderField {name : String}
    (h : isPlainName name.toList = true → ∀ c ∈ name.toList, Sql.isNamePart c = true) :
    IsCutInto (renderField name.toList) [fieldToken name] := by
  unfold renderField fieldToken
  by_cases hplain : isPlainName name.toList = true
  · rw [if_pos hplain, if_pos hplain]
    exact (Clause.Spells.word hplain (h hplain)).isCutInto
  · rw [if_neg hplain, if_neg hplain]
    exact (Clause.Spells.name name).isCutInto

theorem isCutInto_words (negated : Bool) :
    IsCutInto (if negated then "NOT IN".toList else "IN".toList) (inTokens negated) := by
  have hnot := (spells_printedWord (s := "NOT") (by decide)).isCutInto
  have hin := (spells_printedWord (s := "IN") (by decide)).isCutInto
  cases negated with
  | true => exact hnot.append (IsCutInto.blank (c := ' ') (by decide) hin) (delimited_space _)
  | false => exact hin

theorem isCutInto_join (op : BinaryOp) {l r : Expression} (hop : op.isOfFilter = true)
    (hl : IsCutInto l.render l.tokens) (hr : IsCutInto r.render r.tokens) :
    IsCutInto (op.join l r).render (op.join l r).tokens := by
  rw [render_join hop, tokens_join hop]
  exact hl.spaced (spells_operator hop).isCutInto hr

/-- The printed form of a legible predicate is cut into its tokens. -/
theorem Legible.isCutInto (hfits : e.Fits d) (h : e.Legible d rest) :
    IsCutInto e.render e.tokens := by
  induction e generalizing d rest with
  | literal v => exact Literal.isCutInto_render hfits
  | field name => exact isCutInto_renderField fun hplain => (h hplain).1
  | list vs => cases hfits
  | compare op l r ihl ihr =>
    exact isCutInto_join (.compare op) rfl (ihl hfits.2.1 h.1) (ihr hfits.2.2 h.2.2)
  | and l r ihl ihr =>
    exact isCutInto_join .and rfl (ihl hfits.2.1 h.1) (ihr hfits.2.2 h.2.2)
  | or l r ihl ihr =>
    exact isCutInto_join .or rfl (ihl hfits.2.1 h.1) (ihr hfits.2.2 h.2.2)
  | not e ih =>
    have hnot := (spells_printedWord (s := "NOT") (by decide)).isCutInto
    have he := IsCutInto.blank (c := ' ') (by decide) (ih hfits.2 h)
    exact hnot.append he (delimited_space _)
  | member p s negated ih =>
    rw [render_member]
    exact (ih hfits.2.1 h).spaced (isCutInto_words negated)
      (Literal.isCutInto_renderList hfits.2.2.2.2)
  | group e ih => exact (ih hfits.2 h.2).parenthesized

end Expression

/-! ### Names that are legible everywhere -/

namespace Expression

/-- Whether a name is read as a name wherever it is printed: both readers end it at the
same place, and it is no keyword. -/
def IsLegibleName (name : String) : Prop :=
  isPlainName name.toList = true →
    (∀ c ∈ name.toList, Sql.isNamePart c = true) ∧
      Sql.keywordSpelling name ∉ Clause.reservedNames

variable {d : Nat} {e : Expression}

theorem fields_join {op : BinaryOp} {l r : Expression} (hop : op.isOfFilter = true) :
    (op.join l r).fields = l.fields ++ r.fields := by
  cases op with
  | other s => cases hop
  | _ => rfl

theorem isKeyword_fieldToken {name k : String} (h : IsLegibleName name)
    (hk : k ∈ Clause.reservedNames) : (fieldToken name).isKeyword k = false := by
  unfold fieldToken
  by_cases hplain : isPlainName name.toList = true
  · rw [if_pos hplain, Token.isKeyword, beq_eq_false_iff_ne]
    intro hname
    exact (h hplain).2 (hname ▸ hk)
  · rw [if_neg hplain]
    rfl

/-- A printed predicate of legible names can stand behind an operator or an opening
parenthesis. -/
theorem opensFreely_tokens (hfits : e.Fits d) (h : ∀ name ∈ e.fields, IsLegibleName name) :
    Clause.OpensFreely e.tokens := by
  induction e generalizing d with
  | literal v => exact hfits.tokens.opensFreely
  | field name =>
    have hall : ∀ k ∈ Clause.openingWords, k ∈ Clause.reservedNames := by decide
    refine ⟨_, _, rfl, fun k hk => ?_⟩
    exact isKeyword_fieldToken (h name List.mem_cons_self) (hall k hk)
  | list vs => cases hfits
  -- An operator stands behind its left operand, whose names are among those of the whole.
  | compare op l r ihl _ => exact (ihl hfits.2.1 fun n hn => h n (List.mem_append_left _ hn)).append _
  | and l r ihl _ => exact (ihl hfits.2.1 fun n hn => h n (List.mem_append_left _ hn)).append _
  | or l r ihl _ => exact (ihl hfits.2.1 fun n hn => h n (List.mem_append_left _ hn)).append _
  | not e _ => exact ⟨_, _, rfl, by decide⟩
  | member p s negated ih => exact (ih hfits.2.1 h).append _
  | group e _ => exact ⟨_, _, rfl, by decide⟩

theorem IsLegibleName.takesAsName {name : String} (h : IsLegibleName name)
    (hplain : isPlainName name.toList = true) (lv : Level) (rest : List Token) :
    lv.TakesAsName name rest := by
  have hne : ∀ k ∈ Clause.reservedNames, Sql.keywordSpelling name ≠ k := by
    intro k hk hname
    exact (h hplain).2 (hname ▸ hk)
  refine ⟨fun hmem => (h hplain).2 (List.mem_append_left _ hmem), fun hnot => ?_, fun hcase => ?_⟩
  · exact absurd hnot (hne "NOT" (by decide))
  · exact absurd hcase (hne "CASE" (by decide))

theorem legible_join_of_fields (op : BinaryOp) {l r : Expression} (hop : op.isOfFilter = true)
    (hfits : (op.join l r).Fits d) (h : ∀ name ∈ (op.join l r).fields, IsLegibleName name)
    (ihl : ∀ {d}, l.Fits d → (∀ name ∈ l.fields, IsLegibleName name) → ∀ rest, l.Legible d rest)
    (ihr : ∀ {d}, r.Fits d → (∀ name ∈ r.fields, IsLegibleName name) → ∀ rest, r.Legible d rest)
    (rest : List Token) : (op.join l r).Legible d rest := by
  obtain ⟨-, hfl, hfr⟩ := (fits_join hop d).1 hfits
  rw [fields_join hop] at h
  have hl := fun name hn => h name (List.mem_append_left _ hn)
  have hr := fun name hn => h name (List.mem_append_right _ hn)
  have hq : Sql.startsQuantifier (r.tokens ++ rest) = false :=
    (opensFreely_tokens hfr hr).startsWithWord rest (by decide)
  exact (legible_join hop).2 ⟨ihl hfl hl _, hq, ihr hfr hr rest⟩

/-- A predicate of legible names is legible wherever it stands. -/
theorem legible_of_fields (hfits : e.Fits d) (h : ∀ name ∈ e.fields, IsLegibleName name)
    (rest : List Token) : e.Legible d rest := by
  induction e generalizing d rest with
  | literal v => trivial
  | field name =>
    intro hplain
    have hname := h name List.mem_cons_self
    exact ⟨(hname hplain).1, hname.takesAsName hplain _ rest⟩
  | list vs => cases hfits
  | compare op l r ihl ihr => exact legible_join_of_fields (.compare op) rfl hfits h ihl ihr rest
  | and l r ihl ihr => exact legible_join_of_fields .and rfl hfits h ihl ihr rest
  | or l r ihl ihr => exact legible_join_of_fields .or rfl hfits h ihl ihr rest
  | not e ih => exact ih hfits.2 h rest
  | member p s negated ih => exact ih hfits.2.1 h _
  | group e ih =>
    exact ⟨(opensFreely_tokens hfits.2 h).startsWithWord _ (by decide), ih hfits.2 h _⟩

end Expression

end RecordSieve
