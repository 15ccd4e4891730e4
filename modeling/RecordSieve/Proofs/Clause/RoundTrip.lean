import RecordSieve.Proofs.Clause.Legible
import RecordSieve.Proofs.Clause.Soundness
/-!
# RecordSieve.Proofs.Clause.RoundTrip

When the printed form of a compiled predicate compiles to that predicate again: exactly if
it is legible (`compile_text_iff`). One direction puts together that a legible predicate is
cut into its tokens and read back. For the other one, the reading that gave the predicate
back is followed along the printed text (`ReadsLegibly`): at each place what is left of the
text and what is left of the tokens belong together, so that every name of the predicate
was read where it was printed.
-/

namespace RecordSieve

open Sql (Token Node BinaryOp Lowers Reads ReadsConstant ReadsItem ReadsItems ReadsIn Lexes CutsTo)
open Text (Delimited)

/-! ### Only a legible predicate comes back -/

/-- A constant takes its own tokens and no more. -/
theorem Sql.ReadsConstant.eq_of_tokens {d : Nat} {v : Literal} {t : Node} {us vs : List Token}
    (h : ReadsConstant d (v.tokens ++ vs) t us) : us = vs := by
  cases v with
  | text s =>
    cases h
    rfl
  | boolean b =>
    cases h
    rfl
  | number n =>
    rw [Literal.tokens] at h
    generalize NumberForm.clause.renderCode n.magnitude = cs at h
    cases hneg : n.negative with
    | false =>
      rw [hneg] at h
      cases h
      rfl
    | true =>
      rw [hneg, if_pos rfl, List.append_assoc] at h
      generalize hts : [Token.symbol "-"] ++ ([Token.number (String.ofList cs)] ++ vs) = ts at h
      cases h with
      | signed minus token =>
        injection hts with _ hts
        injection hts with _ hts
        exact hts.symm
      | _ => cases hts

/-- Literals come from constants only. -/
theorem Sql.Reads.constant_of_literal {d : Nat} {ts us : List Token} {t : Node} {v : Literal}
    (h : Reads d ts t us) (hl : Lowers t (.literal v)) : ReadsConstant d ts t us := by
  cases h with
  | constant h => exact h
  | name _ => cases hl
  | not _ _ =>
    obtain ⟨f, hf, -⟩ := Sql.lowers_not_iff.1 hl
    cases hf
  | nested _ _ => cases hl
  | binary _ _ _ _ => cases hl
  | inList _ _ _ => cases hl

/-- A negation starts with its word. -/
theorem Sql.Reads.not_inv {d : Nat} {ts us : List Token} {t : Node}
    (h : Reads d ts (.unary .not t) us) :
    ∃ c v xs, d = c + 1 ∧ ts = .word v none :: xs ∧ Reads c xs t us := by
  generalize hn : Node.unary .not t = n at h
  cases h with
  | @not c v xs _ _ _ hx =>
    cases hn
    exact ⟨c, v, xs, rfl, rfl, hx⟩
  | constant h =>
    cases h with
    | signed minus token => cases minus <;> cases hn
    | _ => cases hn
  | _ => cases hn

/-- No printed constant starts with a parenthesis. -/
theorem Literal.head?_tokens (v : Literal) (vs : List Token) :
    (v.tokens ++ vs).head? ≠ some (.symbol "(") := by
  cases v with
  | text s => simp [Literal.tokens]
  | boolean b => simp [Literal.tokens]
  | number n =>
    rw [Literal.tokens]
    cases n.negative with
    | true => simp
    | false => simp

theorem Sql.ReadsItem.eq_of_tokens {d : Nat} {v : Literal} {t : Node} {us vs : List Token}
    (h : ReadsItem d (v.tokens ++ vs) t us) : us = vs := by
  have hhead := v.head?_tokens vs
  generalize hts : v.tokens ++ vs = ts at h hhead
  cases h with
  | constant h =>
    rw [← hts] at h
    exact h.eq_of_tokens
  | nested _ => exact absurd rfl hhead

/-- The constants of a list take their own tokens and no more. -/
theorem Sql.ReadsItems.eq_of_tokens {d : Nat} {vs : List Literal} {items : List Node}
    {us ws : List Token} (hne : vs ≠ [])
    (h : ReadsItems d (Literal.itemTokens vs ++ .symbol ")" :: ws) items (.symbol ")" :: us)) :
    us = ws := by
  fun_induction Literal.itemTokens vs generalizing items with
  | case1 => exact absurd rfl hne
  | case2 v =>
    cases h with
    | one h =>
      have he := h.eq_of_tokens
      injection he
    | cons h _ =>
      have he := h.eq_of_tokens
      injection he with he
      exact absurd he (by decide)
  | case3 v vs hvs ih =>
    rw [List.append_assoc, List.cons_append] at h
    cases h with
    | one h =>
      have he := h.eq_of_tokens
      injection he with he
      exact absurd he (by decide)
    | cons h hrest =>
      have he := h.eq_of_tokens
      injection he with _ he
      rw [he] at hrest
      exact ih hvs hrest

theorem Sql.ReadsIn.eq_of_tokens {negated : Bool} {vs : List Literal} {us ws : List Token}
    (h : ReadsIn negated (Expression.inTokens negated ++ (Literal.listTokens vs ++ ws)) us) :
    us = Literal.itemTokens vs ++ .symbol ")" :: ws := by
  rw [Literal.listTokens, List.cons_append, List.append_assoc] at h
  cases negated with
  | true =>
    cases h
    rfl
  | false =>
    cases h
    rfl

namespace Expression

variable {d : Nat} {e : Expression} {rest : List Token}

/-- A name without quotes is cut off as itself only if the second reader ends it where
the printer did. -/
theorem isNamePart_of_cutsTo {name : String} {q : Option Char} {cs : List Char} {us : List Token}
    (hplain : isPlainName name.toList = true) (hcs : Delimited cs)
    (h : CutsTo (name.toList ++ cs) (.word name q :: us)) :
    q = none ∧ (∀ c ∈ name.toList, Sql.isNamePart c = true) ∧ CutsTo cs us := by
  generalize hname : name.toList = ds at *
  cases ds with
  | nil => cases hplain
  | cons c ds =>
    obtain ⟨hstart, -, hword⟩ := Clause.isPlainName_cons hplain
    -- A letter in front of a quote or of `&` could start a marked text, but neither stands
    -- in a name or is a delimiter.
    have hquote : ∀ b ∈ (ds ++ cs).head?, b ≠ '\'' ∧ b ≠ '&' := by
      intro b hb
      have hb : Clause.isWordChar b = true ∨ Text.isDelimiter b = true := by
        cases ds with
        | nil => exact .inr (hcs b hb)
        | cons a as =>
          cases hb
          exact .inl (hword _ List.mem_cons_self)
      constructor
      · intro h
        subst h
        exact absurd hb (by decide)
      · intro h
        subst h
        exact absurd hb (by decide)
    have hlex := Sql.Lexes.token (Sql.step_name hstart hquote) (List.dropWhile_suffix _).length_le
    obtain ⟨vs, hvs, hrest⟩ := h.of_lexes hlex
    injection hvs with hw hvs
    injection hw with hw hq
    rw [hw, String.toList_ofList] at hname
    injection hname with _ hds
    -- The second reader took the whole name, so every character of it passes its test.
    have hparts : ∀ b ∈ ds, Sql.isNamePart b = true := by
      rw [← hds]
      exact fun b hb => List.all_eq_true.1 List.all_takeWhile b hb
    have hdrop : (ds ++ cs).dropWhile Sql.isNamePart = cs := by
      have hsplit := List.takeWhile_append_dropWhile (p := Sql.isNamePart) (l := ds ++ cs)
      rw [hds] at hsplit
      exact List.append_cancel_left hsplit
    refine ⟨hq, fun b hb => ?_, ?_⟩
    · rcases List.mem_cons.1 hb with rfl | hb
      · exact Sql.isNamePart_of_isNameStart hstart
      · exact hparts b hb
    · rw [hdrop] at hrest
      rw [show us = vs from hvs]
      exact hrest

/-- Whatever is read from the printed form of a predicate and has its shape was read from
its tokens, which the names of the predicate allow only if it is legible. -/
def ReadsLegibly (e : Expression) : Prop :=
  ∀ {d : Nat} {cs : List Char} {ts us : List Token} {t : Node} {f : Expression},
    e.Fits d → Delimited cs → CutsTo (e.render ++ cs) ts → Reads d ts t us → Lowers t f →
    f.same e = true → ts = e.tokens ++ us ∧ CutsTo cs us ∧ e.Legible d us

theorem same_join {op : BinaryOp} {f l r : Expression} (hop : op.isOfFilter = true)
    (h : f.same (op.join l r) = true) :
    ∃ a b, f = op.join a b ∧ a.same l = true ∧ b.same r = true := by
  cases op with
  | and =>
    cases f with
    | and a b => exact ⟨a, b, rfl, (Bool.and_eq_true _ _).mp h⟩
    | _ => cases h
  | or =>
    cases f with
    | or a b => exact ⟨a, b, rfl, (Bool.and_eq_true _ _).mp h⟩
    | _ => cases h
  | compare op =>
    cases f with
    | compare o a b =>
      simp only [BinaryOp.join, same, Bool.and_eq_true, beq_iff_eq] at h
      obtain ⟨⟨rfl, ha⟩, hb⟩ := h
      exact ⟨a, b, rfl, ha, hb⟩
    | _ => cases h
  | other s => cases hop

theorem lowers_join {op : BinaryOp} {t : Node} {a b : Expression} (hop : op.isOfFilter = true)
    (h : Lowers t (op.join a b)) : ∃ x y, t = .binary x op y ∧ Lowers x a ∧ Lowers y b := by
  cases op with
  | and =>
    cases h with
    | and hx hy => exact ⟨_, _, rfl, hx, hy⟩
  | or =>
    cases h with
    | or hx hy => exact ⟨_, _, rfl, hx, hy⟩
  | compare op =>
    cases h with
    | compare _ hx hy => exact ⟨_, _, rfl, hx, hy⟩
  | other s => cases hop

/-- The left operand ends where its printed form does, so what is left starts with the
printed operator, and the right operand is read from behind it. -/
theorem ReadsLegibly.join (op : BinaryOp) {l r : Expression} (hop : op.isOfFilter = true)
    (ihl : l.ReadsLegibly) (ihr : r.ReadsLegibly) : (op.join l r).ReadsLegibly := by
  intro d cs ts us t f hfits hcs hcut hread hlowers hsame
  obtain ⟨-, hfl, hfr⟩ := (fits_join hop d).1 hfits
  obtain ⟨a, b, rfl, ha, hb⟩ := same_join hop hsame
  obtain ⟨x, y, rfl, hx, hy⟩ := lowers_join hop hlowers
  have htext : (op.join l r).render ++ cs =
      l.render ++ ' ' :: (op.printed ++ ' ' :: (r.render ++ cs)) := by
    simp [render_join hop]
  rw [htext] at hcut
  cases hread with
  | constant h => cases h
  | binary hleft ho hq hright =>
    obtain ⟨hts, hrest, hl⟩ := ihl hfl (delimited_space _) hcut hleft hx ha
    obtain ⟨vs, hvs, hcut⟩ := hrest.of_lexes ((spells_operator hop).isCutInto.lexes_spaced _)
    injection hvs with ho hvs
    subst ho
    rw [← show _ = vs from hvs] at hcut
    obtain ⟨hus, htail, hr⟩ := ihr hfr hcs hcut hright hy hb
    subst hus
    refine ⟨?_, htail, (legible_join hop).2 ⟨hl, hq, hr⟩⟩
    rw [hts, tokens_join hop, List.append_assoc, List.cons_append]

theorem ReadsLegibly.field (name : String) : (field name).ReadsLegibly := by
  intro d cs ts us t f hfits hcs hcut hread hlowers hsame
  cases f with
  | field m =>
    obtain rfl : m = name := by simpa [same] using hsame
    cases hlowers
    cases hread with
    | constant h => cases h
    | @name _ v q _ hname =>
      cases hplain : isPlainName v.toList with
      | true =>
        rw [render, renderField, if_pos hplain] at hcut
        obtain ⟨rfl, hparts, htail⟩ := isNamePart_of_cutsTo hplain hcs hcut
        refine ⟨?_, htail, fun _ => ⟨hparts, hname rfl⟩⟩
        rw [tokens, fieldToken, if_pos hplain, List.singleton_append]
      -- Between quotes every name comes back, keyword or not.
      | false =>
        have hquoted : ¬isPlainName v.toList = true := by simp [hplain]
        rw [render, renderField, if_neg hquoted] at hcut
        obtain ⟨vs, hvs, htail⟩ := hcut.of_lexes (Sql.lexes_quotedName (.inl rfl) v.toList hcs)
        injection hvs with hq hvs
        rw [show us = vs from hvs]
        refine ⟨?_, htail, fun hp => absurd hp hquoted⟩
        rw [tokens, fieldToken, if_neg hquoted, List.singleton_append, hq, String.ofList_toList]
  | _ => cases hsame

theorem ReadsLegibly.literal (v : Literal) : (literal v).ReadsLegibly := by
  intro d cs ts us t f hfits hcs hcut hread hlowers hsame
  obtain ⟨vs, hvs, htail⟩ := hcut.of_lexes (Literal.isCutInto_render hfits cs hcs)
  cases f with
  | literal w =>
    have hconstant := hread.constant_of_literal hlowers
    rw [hvs] at hconstant
    obtain rfl := hconstant.eq_of_tokens
    exact ⟨hvs, htail, trivial⟩
  | _ => cases hsame

theorem ReadsLegibly.not {e : Expression} (ih : e.ReadsLegibly) : (not e).ReadsLegibly := by
  intro d cs ts us t f hfits hcs hcut hread hlowers hsame
  have hnot := (spells_printedWord (s := "NOT") (by decide)).isCutInto
  obtain ⟨vs, hvs, hrest⟩ := hcut.of_lexes (hnot.lexes_space (e.render ++ cs))
  cases f with
  | not g =>
    cases hlowers with
    | not hg =>
      obtain ⟨c, v, xs, rfl, rfl, hx⟩ := hread.not_inv
      injection hvs with hw hxs
      cases hw
      rw [← show xs = vs from hxs] at hrest
      obtain ⟨rfl, htail, he⟩ := ih hfits.2 hcs hrest hx hg hsame
      exact ⟨rfl, htail, he⟩
  | _ => cases hsame

theorem ReadsLegibly.group {e : Expression} (ih : e.ReadsLegibly) : (group e).ReadsLegibly := by
  intro d cs ts us t f hfits hcs hcut hread hlowers hsame
  have htext : (Expression.group e).render ++ cs = '(' :: (e.render ++ (')' :: cs)) := by
    simp [render]
  rw [htext] at hcut
  obtain ⟨vs, hvs, hrest⟩ := hcut.of_lexes (Sql.lexes_mark (by decide) _)
  cases f with
  | group g =>
    cases hlowers with
    | nested hg =>
      cases hread with
      | constant h => cases h
      -- The reading passes the opening parenthesis with the text and finds the closing one
      -- where the text has it.
      | @nested d xs _ x hq hx =>
        injection hvs with _ hxs
        rw [← show xs = vs from hxs] at hrest
        obtain ⟨rfl, hclose, he⟩ := ih hfits.2 (delimited_close cs) hrest hx hg hsame
        obtain ⟨ws, hws, htail⟩ := hclose.of_lexes (Sql.lexes_mark (by decide) cs)
        injection hws with _ hws
        rw [← show us = ws from hws] at htail
        refine ⟨?_, htail, hq, he⟩
        rw [tokens, List.cons_append, List.append_assoc, List.singleton_append]
  | _ => cases hsame

theorem ReadsLegibly.member {p : Expression} {s : ValueSet} {negated : Bool}
    (ih : p.ReadsLegibly) : (member p s negated).ReadsLegibly := by
  intro d cs ts us t f hfits hcs hcut hread hlowers hsame
  obtain ⟨-, hfp, -, hne, hvalues⟩ := hfits
  have htext : (Expression.member p s negated).render ++ cs = p.render ++ ' ' ::
      ((if negated then "NOT IN".toList else "IN".toList) ++ ' ' ::
        (Literal.renderList s.values ++ cs)) := by
    simp only [render_member, List.append_assoc, List.cons_append]
  rw [htext] at hcut
  cases f with
  | member q u m =>
    simp only [same, Bool.and_eq_true, beq_iff_eq] at hsame
    obtain ⟨⟨hq, -⟩, rfl⟩ := hsame
    cases hlowers with
    | inList _ hx hitems =>
      cases hread with
      | constant h => cases h
      | @inList _ _ xs ys _ _ _ _ hprobe hin hlist =>
        obtain ⟨rfl, hrest, hp⟩ := ih hfp (delimited_space _) hcut hprobe hx hq
        obtain ⟨vs, hvs, hrest⟩ := hrest.of_lexes ((isCutInto_words m).lexes_spaced _)
        obtain ⟨ws, hws, htail⟩ := hrest.of_lexes (Literal.isCutInto_renderList hvalues cs hcs)
        rw [hvs, hws] at hin
        rw [hin.eq_of_tokens] at hlist
        obtain rfl := hlist.eq_of_tokens hne
        rw [hws] at hvs
        subst hvs
        refine ⟨?_, htail, hp⟩
        rw [tokens, List.append_assoc, List.append_assoc]
  | _ => cases hsame

/-- Reading back what was printed shows that it is legible. -/
theorem readsLegibly (e : Expression) : e.ReadsLegibly := by
  induction e with
  | literal v => exact ReadsLegibly.literal v
  | field name => exact ReadsLegibly.field name
  | list vs =>
    intro d cs ts us t f hfits
    cases hfits
  | compare op l r ihl ihr => exact ReadsLegibly.join (.compare op) rfl ihl ihr
  | and l r ihl ihr => exact ReadsLegibly.join .and rfl ihl ihr
  | or l r ihl ihr => exact ReadsLegibly.join .or rfl ihl ihr
  | not e ih => exact ReadsLegibly.not ih
  | member p s negated ih => exact ReadsLegibly.member ih
  | group e ih => exact ReadsLegibly.group ih

end Expression

/-! ### The round trip -/

theorem Literal.same_self {d : Nat} {v : Literal} (h : v.Fits d) : v.same v = true := by
  cases v with
  | text s => simp [same]
  | boolean b => simp [same]
  | number n =>
    have hnan : n.isNaN = false := by
      have hlt : n.magnitude < Binary64.infinityCode := of_decide_eq_true h.1
      exact decide_eq_false (by omega)
    simp [same, Binary64.numEq, hnan]

theorem ValueSet.same_self {d : Nat} {s : ValueSet} (h : ∀ v ∈ s.values, v.Fits d) :
    s.same s = true := by
  have hall : ∀ vs : List Literal, (∀ v ∈ vs, v.Fits d) →
      (vs.zip vs).all (fun p => p.1.same p.2) = true := by
    intro vs
    induction vs with
    | nil => exact fun _ => rfl
    | cons v vs ih =>
      intro hvs
      rw [List.zip_cons_cons, List.all_cons, Bool.and_eq_true]
      exact ⟨Literal.same_self (hvs v List.mem_cons_self),
        ih fun w hw => hvs w (List.mem_cons_of_mem _ hw)⟩
  rw [same, Bool.and_eq_true]
  exact ⟨by simp, hall _ h⟩

/-- A predicate whose numbers are finite is equal to itself. -/
theorem Expression.same_self {d : Nat} {e : Expression} (h : e.Fits d) : e.same e = true := by
  induction e generalizing d with
  | literal v => exact Literal.same_self h
  | field name => simp [same]
  | list vs => cases h
  | compare op l r ihl ihr => simp [same, ihl h.2.1, ihr h.2.2]
  | and l r ihl ihr => simp [same, ihl h.2.1, ihr h.2.2]
  | or l r ihl ihr => simp [same, ihl h.2.1, ihr h.2.2]
  | not e ih => exact ih h.2
  | member p s negated ih => simp [same, ih h.2.1, ValueSet.same_self h.2.2.2.2]
  | group e ih => exact ih h.2

namespace Clause

variable {clause : String} {e : Expression}

/-- The printed form of a legible predicate compiles to that very predicate. -/
theorem compile_text_of_legible (h : compile clause = .ok e) (hlegible : e.Legible 47 []) :
    compile e.text = .ok e := by
  obtain ⟨hfits, ho⟩ := fits_of_compile h
  obtain ⟨t, hl, hread⟩ := e.readsBack hfits hlegible
  have hcut := hlegible.isCutInto hfits [] .nil
  have hnormal : normalizeChars e.text.toList = .ok e.render := by
    rw [Expression.text, String.toList_ofList]
    exact Expression.normalizeChars_render hfits
  rw [List.append_nil] at hread hcut
  exact compile_of_lexes hnormal hcut hread hl ho

/-- A compiled predicate comes back if its names are legible everywhere. -/
theorem compile_text_of_fields (h : compile clause = .ok e)
    (hnames : ∀ name ∈ e.fields, Expression.IsLegibleName name) : compile e.text = .ok e :=
  compile_text_of_legible h (Expression.legible_of_fields (fits_of_compile h).1 hnames [])

/-- A compiled predicate comes back from its printed form exactly if the printed form is
legible: every name that is printed without quotes is read as a name where it stands, and
no operand or group starts with a word that means something else there. -/
theorem compile_text_iff (h : compile clause = .ok e) :
    (∃ f, compile e.text = .ok f ∧ f.same e = true) ↔ e.Legible 47 [] := by
  have hfits := (fits_of_compile h).1
  constructor
  · intro h
    obtain ⟨f, hf, hsame⟩ := h
    obtain ⟨normal, ts, t, us, hnormal, htokens, hread, hl, -⟩ := exists_reads_of_compile hf
    rw [Expression.text, String.toList_ofList, Expression.normalizeChars_render hfits] at hnormal
    cases hnormal
    have hcut : CutsTo (e.render ++ []) ts := by
      rw [List.append_nil]
      exact Sql.cutsTo_of_tokens htokens
    obtain ⟨-, htail, hlegible⟩ := e.readsLegibly hfits .nil hcut hread hl hsame
    rwa [htail.nil] at hlegible
  · intro hlegible
    exact ⟨e, compile_text_of_legible h hlegible, Expression.same_self hfits⟩

/-- A field that is called `true` is printed without quotes, and comes back as a truth
value. -/
theorem compile_text_iff_true :
    compile "\x60true\x60 = 1" =
        .ok (.compare .eq (.field "true") (.literal (.number (.ofBits 0x3FF0000000000000)))) ∧
      ¬∃ f, compile (Expression.compare .eq (.field "true")
          (.literal (.number (.ofBits 0x3FF0000000000000)))).text = .ok f ∧
        f.same (.compare .eq (.field "true")
          (.literal (.number (.ofBits 0x3FF0000000000000)))) = true := by
  have hoption : (compile "\x60true\x60 = 1").toOption = some (.compare .eq (.field "true")
      (.literal (.number (.ofBits 0x3FF0000000000000)))) := by
    decide +kernel
  have hcompile : compile "\x60true\x60 = 1" =
      .ok (.compare .eq (.field "true") (.literal (.number (.ofBits 0x3FF0000000000000)))) := by
    cases hc : compile "\x60true\x60 = 1" with
    | error err =>
      rw [hc] at hoption
      cases hoption
    | ok e =>
      rw [hc] at hoption
      exact congrArg _ (Option.some.inj hoption)
  refine ⟨hcompile, fun h => ?_⟩
  -- Were the predicate printed legibly, its field would be no keyword.
  have hlegible := (compile_text_iff hcompile).1 h
  exact absurd (hlegible.1 (by decide)).2.1 (by decide)

end Clause

end RecordSieve
