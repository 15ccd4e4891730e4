import RecordSieve.Proofs.Sql.OperandReading
import RecordSieve.Proofs.Sql.Strength
/-!
# RecordSieve.Proofs.Sql.Completeness

What the grammar allows and the precedence of operators asks for is what the reader
finds. `Reads.expression` says it for expressions at any place of a condition: if
the operator that follows is no stronger than the right edge of the expression,
the reader gets to the end of it and then goes on from there as from any operand.

The invariant is about the loop that extends operands: an expression is reached
with more budget left than there are tokens after it.
-/

namespace RecordSieve
namespace Sql

open Reader
open Level (ofDepth)

variable {d : Nat} {ts us vs ws : List Token} {t : Node}

/-! ### Stopping -/

theorem expression_of_fullOperand {lv : Level} (h : lv.fullOperand ts = .ok (t, us))
    (b : Strength) : lv.expression b ts = lv.extendAll b (us.length + 1) t us := by
  rw [Level.expression, bind_of_ok h, bind_of_ok (get_apply us)]

/-- An expression ends before an operator that is no stronger than its bound. -/
theorem extendAll_of_le {lv : Level} {b : Strength} (h : strengthAt us ≤ b) (k : Nat) :
    lv.extendAll b k t us = .ok (t, us) := by
  cases k with
  | zero => rfl
  | succ k =>
    rw [Level.extendAll, bind_of_ok (nextStrength_apply us), if_pos (.inl h)]
    rfl

/-- An expression goes on with a stronger operator. -/
theorem extendAll_of_lt {lv : Level} {b : Strength} {n : Node} (h : b < strengthAt us)
    (hp : strengthAt us ≠ Strength.point) (he : lv.extend t (strengthAt us) us = .ok (n, vs))
    (k : Nat) : lv.extendAll b (k + 1) t us = lv.extendAll b k n vs := by
  have hgo : ¬(strengthAt us ≤ b ∨ strengthAt us = Strength.point) :=
    fun hor => hor.elim (Nat.not_le_of_lt h) hp
  rw [Level.extendAll, bind_of_ok (nextStrength_apply us), if_neg hgo, bind_of_ok he]

/-! ### Constants and items -/

/-- A constant is read whole. -/
theorem ReadsConstant.fullOperand (h : ReadsConstant d ts t us) (hf : Follows us) :
    (ofDepth d).fullOperand ts = .ok (t, us) := by
  cases h with
  | boolean b hv => exact hf.fullOperand_boolean b hv
  | number token long => exact hf.fullOperand_number _ token long
  | text body => exact hf.fullOperand_text _ body
  | @signed d minus token long =>
    have hn : (ofDepth d).expression Strength.product (.number token long :: us) =
        .ok (.value (.number token long), us) := by
      rw [expression_of_fullOperand (hf.fullOperand_number _ token long)]
      exact extendAll_of_le (Nat.le_trans hf.strengthAt_le (by decide)) _
    refine hf.fullOperand (fun interval => typedConstant_of_noKeyword interval rfl rfl)
      fun interval => ?_
    rw [Level.untypedOperand, bind_of_ok (next_cons _ _)]
    cases minus with
    | true => exact bind_of_ok hn
    | false => exact bind_of_ok hn

theorem ReadsConstant.head_isKeyword (h : ReadsConstant d ts t us) {k : String}
    (ht : k ≠ "TRUE") (hf : k ≠ "FALSE") : ts.head?.any (Token.isKeyword k) = false := by
  cases h with
  | boolean b hv =>
    rw [List.head?_cons, Option.any_some, Token.isKeyword, hv, beq_eq_false_iff_ne]
    cases b with
    | true => exact ht.symm
    | false => exact hf.symm
  | number token long => rfl
  | text body => rfl
  | signed minus token long => rfl

theorem ReadsItem.head_isKeyword (h : ReadsItem d ts t us) {k : String} (ht : k ≠ "TRUE")
    (hf : k ≠ "FALSE") : ts.head?.any (Token.isKeyword k) = false := by
  cases h with
  | constant h => exact h.head_isKeyword ht hf
  | nested h => rfl

/-- What is read between parentheses is read with them. -/
theorem fullOperand_of_parentheses (hq : startsQuery ts = false) (hf : Follows us)
    (h : (ofDepth d).expression Strength.none ts = .ok (t, .symbol ")" :: us)) :
    (ofDepth (d + 1)).fullOperand (.symbol "(" :: ts) = .ok (.nested t, us) := by
  have hquery : Level.atQuery ts = .ok (false, ts) := by
    rw [Level.atQuery, bind_of_ok (atWord_apply _ ts)]
    rw [startsWithWord_eq_false_iff.1 hq "SELECT" (by decide)]
    show atWord "WITH" ts = _
    rw [atWord_apply, startsWithWord_eq_false_iff.1 hq "WITH" (by decide)]
  -- A single item ends the list at once, and the parentheses hold an expression.
  have hcomma : eat "," (.symbol ")" :: us) = .ok (false, .symbol ")" :: us) :=
    eatIf_of_head rfl
  have hlist : commaList ((ofDepth (d + 1)).expr Strength.none) ts =
      .ok ([t], .symbol ")" :: us) := by
    rw [commaList, sepBy, bind_of_ok (get_apply ts), sepByWithin]
    have hitem : (ofDepth (d + 1)).expr Strength.none ts = .ok (t, .symbol ")" :: us) := h
    rw [bind_of_ok hitem, bind_of_ok hcomma]
    rfl
  refine hf.fullOperand (fun interval => typedConstant_of_noKeyword interval rfl rfl)
    fun interval => ?_
  rw [Level.untypedOperand, bind_of_ok (next_cons _ _)]
  show Level.parentheses _ ts = _
  rw [Level.parentheses, bind_of_ok hquery]
  simp only [Bool.false_eq_true, if_false]
  rw [bind_of_ok hlist, bind_of_ok (expect_of_symbol _ _)]
  rfl

/-- An item is read up to the comma or parenthesis that ends it. -/
theorem ReadsItem.expression (h : ReadsItem d ts t us) (hf : Follows us)
    (hs : strengthAt us = Strength.none) :
    (ofDepth d).expression Strength.none ts = .ok (t, us) := by
  induction h with
  | constant h =>
    rw [expression_of_fullOperand (h.fullOperand hf)]
    exact extendAll_of_le (Nat.le_of_eq hs) _
  | nested h ih =>
    have hq : startsQuery _ = false := startsWithWord_eq_false_iff.2 fun k hk => by
      have hne : ∀ k ∈ ["SELECT", "WITH"], k ≠ "TRUE" ∧ k ≠ "FALSE" := by decide
      exact h.head_isKeyword (hne k hk).1 (hne k hk).2
    have hinner := ih (.cons rfl _) rfl
    rw [expression_of_fullOperand (fullOperand_of_parentheses hq hf hinner)]
    exact extendAll_of_le (Nat.le_of_eq hs) _

/-- A list of items is read as a list. -/
theorem ReadsItems.commaList {items : List Node} (h : ReadsItems d ts items (.symbol ")" :: us)) :
    Reader.commaList ((ofDepth d).expression Strength.none) ts = .ok (items, .symbol ")" :: us) := by
  suffices hk : ∀ k, ts.length < k →
      sepByWithin (eat ",") ((ofDepth d).expression Strength.none) k ts =
        .ok (items, .symbol ")" :: us) by
    rw [Reader.commaList, sepBy, bind_of_ok (get_apply ts)]
    exact hk _ (Nat.lt_succ_self _)
  generalize hrest : Token.symbol ")" :: us = rest at h
  -- The items are counted down by a budget, which the tokens ahead are always less than.
  induction h with
  | one h =>
    subst hrest
    intro k hk
    cases k with
    | zero => cases hk
    | succ k =>
      have hcomma : eat "," (.symbol ")" :: us) = .ok (false, .symbol ")" :: us) :=
        eatIf_of_head rfl
      rw [sepByWithin, bind_of_ok (h.expression (.cons rfl _) rfl), bind_of_ok hcomma]
      rfl
  | cons h hitems ih =>
    intro k hk
    cases k with
    | zero => cases hk
    | succ k =>
      have hcomma : ∀ ts : List Token, eat "," (.symbol "," :: ts) = .ok (true, ts) :=
        fun ts => eatIf_of_true rfl ts
      have hlength := h.length_lt
      simp only [List.length_cons] at hlength
      rw [sepByWithin, bind_of_ok (h.expression (.cons rfl _) rfl), bind_of_ok (hcomma _)]
      simp only [if_true]
      rw [bind_of_ok (ih hrest k (by omega))]
      rfl

/-- No item is a query, under parentheses or without. -/
theorem ReadsItem.fullQuery (h : ReadsItem d ts t us) :
    (ofDepth d).fullQuery ts = .error .grammar := by
  have hword : ∀ {d : Nat} {ts us : List Token} {t : Node}, ReadsItem d ts t us → ∀ k : String,
      k ∈ ["WITH", "SELECT", "FROM", "VALUES", "TABLE"] → eatWord k ts = .ok (false, ts) := by
    intro d ts us t h k hk
    have hne : ∀ k ∈ ["WITH", "SELECT", "FROM", "VALUES", "TABLE"],
        k ≠ "TRUE" ∧ k ≠ "FALSE" := by
      decide
    exact eatIf_of_head (h.head_isKeyword (hne k hk).1 (hne k hk).2)
  have hpart : ∀ {d : Nat} {ts us : List Token} {t : Node}, ReadsItem d ts t us →
      parenthesized (ofDepth d).query ts = .error .grammar →
      (ofDepth d).fullQuery ts = .error .grammar := by
    intro d ts us t h hp
    have hnamed : (ofDepth d).namedQueries ts = .ok ("", ts) := by
      rw [Level.namedQueries, bind_of_ok (hword h "WITH" (by decide))]
      rfl
    have hquery : (ofDepth d).queryPart ts = .error .grammar := by
      rw [Level.queryPart, bind_of_ok (hword h "SELECT" (by decide))]
      simp only [Bool.false_eq_true, if_false]
      rw [bind_of_ok (hword h "FROM" (by decide))]
      simp only [Bool.false_eq_true, if_false]
      rw [bind_of_ok (hword h "VALUES" (by decide))]
      simp only [Bool.false_eq_true, if_false]
      rw [bind_of_ok (hword h "TABLE" (by decide))]
      exact bind_of_error hp
    rw [Level.fullQuery, bind_of_ok hnamed, bind_of_error hquery]
  -- A constant opens no parenthesis. A parenthesized item does, and the query that is
  -- tried inside it fails as the one outside does.
  induction h with
  | constant h =>
    refine hpart (.constant h) (bind_of_error (expect_of_head ?_))
    cases h with
    | signed minus token => cases minus <;> rfl
    | _ => rfl
  | nested h ih =>
    refine hpart (.nested h) ?_
    rw [parenthesized, bind_of_ok (expect_of_symbol _ _)]
    exact bind_of_error ih

theorem ReadsItems.fullQuery {items : List Node} (h : ReadsItems d ts items us) :
    (ofDepth d).fullQuery ts = .error .grammar := by
  cases h with
  | one h => exact h.fullQuery
  | cons h _ => exact h.fullQuery

/-! ### Conditions -/

/-- No expression starts with a word that is never a name, truth values apart. -/
theorem Reads.head_isKeyword (h : Reads d ts t us) {k : String} (hk : k ∈ neverNames)
    (ht : k ≠ "TRUE") (hf : k ≠ "FALSE") : ts.head?.any (Token.isKeyword k) = false := by
  induction h with
  | @name d v q ts hv =>
    cases q with
    | none =>
      rw [List.head?_cons, Option.any_some, Token.isKeyword, beq_eq_false_iff_ne]
      intro h
      subst h
      exact (hv rfl).1 hk
    | some c => rfl
  | constant h => exact h.head_isKeyword ht hf
  | not hv _ _ =>
    rw [List.head?_cons, Option.any_some, Token.isKeyword, hv, beq_eq_false_iff_ne]
    intro h
    subst h
    exact absurd hk (by decide)
  | nested _ _ _ => rfl
  | binary _ _ _ _ ihl _ => exact ihl
  | inList _ _ _ ih => exact ih

/-- A negation is read with the operand that `NOT` takes. -/
theorem fullOperand_not {v : String} (hv : keywordSpelling v = "NOT")
    (hexists : ts.head?.any (Token.isKeyword "EXISTS") = false) (hf : Follows us)
    (h : (ofDepth d).expression Strength.not ts = .ok (t, us)) :
    (ofDepth (d + 1)).fullOperand (.word v none :: ts) = .ok (.unary .not t, us) := by
  have hnegation : (ofDepth (d + 1)).negation ts = .ok (.unary .not t, us) := by
    have hword : eatWord "EXISTS" ts = .ok (false, ts) := eatIf_of_head hexists
    have hoperand : (ofDepth (d + 1)).expr Strength.not ts = .ok (t, us) := h
    rw [Level.negation, bind_of_ok hword]
    simp only [Bool.false_eq_true, if_false]
    rw [bind_of_ok hoperand]
    rfl
  refine hf.fullOperand (fun interval => typedConstant_of_named interval ?_ ?_) fun interval => ?_
  · intro k hk
    cases hk
    rw [hv]
    rfl
  · rw [Token.isKeyword, hv]
    rfl
  · rw [Level.untypedOperand, bind_of_ok (next_cons _ _)]
    have hform : (ofDepth (d + 1)).keywordForm interval ⟨v, none⟩ "NOT" ts =
        .ok (some (.unary .not t), us) := bind_of_ok hnegation
    simp only [Level.wordOperand, Option.isNone_none, if_true, hv]
    refine orInstead_of_ok ?_
    rw [bind_of_ok hform]
    rfl

/-- An operator is read with the operand to its right. -/
theorem extend_binary {l r : Node} {o : Token} {op : BinaryOp} (ho : o.operator? = some op)
    (hq : startsQuantifier us = false) {s : Strength}
    (h : (ofDepth d).expression s us = .ok (r, vs)) :
    (ofDepth (d + 1)).extend l s (o :: us) = .ok (.binary l op r, vs) := by
  have hright : (ofDepth (d + 1)).rightSide l op s us = .ok (.binary l op r, vs) := by
    have hnone := eatOneOf_of_head (startsWithWord_eq_false_iff.1 hq)
    have hr : (ofDepth (d + 1)).expr s us = .ok (r, vs) := h
    rw [Level.rightSide, bind_of_ok hnone]
    simp only
    rw [bind_of_ok hr]
    rfl
  rw [Level.extend, bind_of_ok (next_cons o us)]
  simp only [ho]
  exact hright

/-- A membership test is read with its items. -/
theorem extend_inList {p : Node} {items : List Node} {negated : Bool} (hin : ReadsIn negated us vs)
    (hitems : ReadsItems d vs items (.symbol ")" :: ws)) (s : Strength) :
    (ofDepth (d + 1)).extend p s us = .ok (.inList p items negated, ws) := by
  have hmembership : (ofDepth (d + 1)).membership p negated (.symbol "(" :: vs) =
      .ok (.inList p items negated, ws) := by
    have hunnest : eatWord "UNNEST" (.symbol "(" :: vs) = .ok (false, .symbol "(" :: vs) :=
      eatIf_of_head rfl
    have hquery : attempt (ofDepth (d + 1)).query vs = .ok (none, vs) :=
      attempt_of_grammar hitems.fullQuery
    have hlist : commaList ((ofDepth (d + 1)).expr Strength.none) vs =
        .ok (items, .symbol ")" :: ws) := hitems.commaList
    rw [Level.membership, bind_of_ok hunnest]
    simp only [Bool.false_eq_true, if_false]
    rw [bind_of_ok (expect_of_symbol _ _), bind_of_ok hquery]
    simp only
    rw [bind_of_ok hlist, bind_of_ok (expect_of_symbol _ _)]
    rfl
  -- Plain, the word is looked at as an operator; negated, it is behind `NOT`.
  cases hin with
  | plain hv =>
    rw [Level.extend, bind_of_ok (next_cons _ _)]
    simp only [Token.operator?, Token.keyword?, hv]
    exact hmembership
  | negated hw hv =>
    rw [Level.extend, bind_of_ok (next_cons _ _)]
    simp only [Token.operator?, Token.keyword?, hw]
    show (next >>= fun t => (ofDepth (d + 1)).negatableTest p true t.keyword?) _ = _
    rw [bind_of_ok (next_cons _ _)]
    simp only [Token.keyword?, hv]
    exact hmembership

/-- An expression of the right shape is reached from its first token, before the
operator that follows it is looked at. -/
theorem Reads.expression {e : Expression} (h : Reads d ts t us) (hl : Lowers t e) (ho : e.Ordered)
    (hf : Follows us) (hs : strengthAt us ≤ e.loose) {b : Strength} (hb : b < e.tight) :
    ∃ k, us.length < k ∧
      (ofDepth d).expression b ts = (ofDepth d).extendAll b k t us := by
  induction h generalizing e b with
  | name hv =>
    exact ⟨_, Nat.lt_succ_self _, expression_of_fullOperand (hf.fullOperand_name hv) b⟩
  | constant h =>
    exact ⟨_, Nat.lt_succ_self _, expression_of_fullOperand (h.fullOperand hf) b⟩
  | not hv hr ih =>
    obtain ⟨f, rfl, hf'⟩ := lowers_not_iff.1 hl
    obtain ⟨hof, htight⟩ := Expression.ordered_not_iff.1 ho
    obtain ⟨hnot, hloose⟩ := Nat.le_min.1 hs
    obtain ⟨k, -, hk⟩ := ih hf' hof hf hloose htight
    rw [extendAll_of_le hnot] at hk
    have hexists := hr.head_isKeyword (k := "EXISTS") (by decide) (by decide) (by decide)
    exact ⟨_, Nat.lt_succ_self _, expression_of_fullOperand (fullOperand_not hv hexists hf hk) b⟩
  -- Parentheses start over with no limit on how loosely an operator binds.
  | @nested d ts us t hq hr ih =>
    obtain ⟨f, rfl, hf'⟩ := lowers_nested_iff.1 hl
    have htight : Strength.none < f.tight :=
      Nat.lt_of_lt_of_le (Nat.succ_pos 4) (Nat.le_trans f.or_le_loose f.loose_le_tight)
    obtain ⟨k, -, hk⟩ := ih hf' ho (.cons rfl _) (Nat.zero_le _) htight
    have hend : strengthAt (.symbol ")" :: us) ≤ Strength.none := Nat.zero_le _
    rw [extendAll_of_le hend] at hk
    exact ⟨_, Nat.lt_succ_self _, expression_of_fullOperand (fullOperand_of_parentheses hq hf hk) b⟩
  | @binary d ts us vs l r o op hreads hop hq hr ihl ihr =>
    obtain ⟨x, y, rfl, hfilter, hlx, hly⟩ := lowers_binary_iff.1 hl
    obtain ⟨hstrength, hends⟩ := strengthAt_operator hop hfilter us
    obtain ⟨hx, hy, hloose, htight⟩ := (ordered_join_iff hfilter).1 ho
    rw [loose_join hfilter] at hs
    rw [tight_join hfilter] at hb
    obtain ⟨hstop, hs⟩ := Nat.le_min.1 hs
    have hbx : b < x.tight := Nat.lt_of_lt_of_le hb (Nat.le_trans hloose x.loose_le_tight)
    obtain ⟨k, hlen, hk⟩ := ihl hlx hx (.cons hends us) (by rw [hstrength]; exact hloose) hbx
    -- The right operand ends where the whole expression does.
    obtain ⟨j, -, hj⟩ := ihr hly hy hf hs htight
    rw [extendAll_of_le hstop] at hj
    -- The operator ahead is a token, so the budget that is left is not zero.
    cases k with
    | zero => cases hlen
    | succ k =>
      have hpoint : op.strength ≠ Strength.point :=
        Nat.ne_of_lt (Nat.lt_of_le_of_lt op.strength_le (by decide))
      rw [← hstrength] at hb hpoint hj
      refine ⟨k, ?_, ?_⟩
      · have := hr.length_lt
        simp only [List.length_cons] at hlen
        omega
      · rw [hk, extendAll_of_lt hb hpoint (extend_binary hop hq hj)]
  | @inList d ts us vs ws p items negated hreads hin hitems ih =>
    obtain ⟨q, ls, rfl, hp, hls⟩ := lowers_inList_iff.1 hl
    obtain ⟨hstrength, hfollows⟩ := hin.strengthAt
    obtain ⟨hq, hloose⟩ := Expression.ordered_member_iff.1 ho
    have hbq : b < q.tight := Nat.lt_of_lt_of_le hb (Nat.le_trans hloose q.loose_le_tight)
    obtain ⟨k, hlen, hk⟩ := ih hp hq hfollows (by rw [hstrength]; exact hloose) hbq
    cases k with
    | zero => cases hlen
    | succ k =>
      have hpoint : strengthAt us ≠ Strength.point := by
        rw [hstrength]
        decide
      have hb : b < strengthAt us := by
        rw [hstrength]
        exact hb
      refine ⟨k, ?_, ?_⟩
      · have hin := hin.length_lt
        have hitems := hitems.length_lt
        simp only [List.length_cons] at hitems
        omega
      · rw [hk, extendAll_of_lt hb hpoint (extend_inList hin hitems _)]

/-- An expression of the right shape is read whole, if what follows it ends it. -/
theorem Reads.expression_eq_ok {e : Expression} (h : Reads d ts t us) (hl : Lowers t e)
    (ho : e.Ordered) (hf : Follows us) (hs : strengthAt us = Strength.none) :
    (ofDepth d).expression Strength.none ts = .ok (t, us) := by
  have htight : Strength.none < e.tight :=
    Nat.lt_of_lt_of_le (Nat.succ_pos 4) (Nat.le_trans e.or_le_loose e.loose_le_tight)
  have hloose : strengthAt us ≤ e.loose := by
    rw [hs]
    exact Nat.zero_le _
  obtain ⟨k, -, hk⟩ := h.expression hl ho hf hloose htight
  rw [hk, extendAll_of_le (Nat.le_of_eq hs)]

end Sql
end RecordSieve
