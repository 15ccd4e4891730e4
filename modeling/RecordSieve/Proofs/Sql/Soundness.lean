import RecordSieve.Proofs.Sql.OperandSoundness
import RecordSieve.Proofs.Sql.Strength
/-!
# RecordSieve.Proofs.Sql.Soundness

What the reader finds is what the grammar allows and the precedence of operators asks
for. `ReadAs` collects what is known of an expression that has been read as an operand
of an operator of strength `b`: the grammar reads it so, its shape needs no further
parentheses, it binds more tightly than the operator, and the operator that follows it
is no stronger than that operator or than its own right edge. It holds of operands, the
loop that extends them keeps it, and so it holds of expressions (`readAs_of_expression`).
-/

namespace RecordSieve
namespace Sql

open Reader
open Level (ofDepth)

variable {lv : Level} {ts us vs : List Token} {l t : Node} {s : Strength}

/-! ### Extensions -/

/-- What an expression of a condition is extended by: an operator with its right operand,
or a membership test. -/
inductive IsExtension (lv : Level) (l : Node) (s : Strength) :
    List Token → Node → List Token → Prop
  | binary {o : Token} {op : BinaryOp} {r : Node} {ts us : List Token} :
      o.operator? = some op → startsQuantifier ts = false → lv.expr s ts = .ok (r, us) →
      IsExtension lv l s (o :: ts) (.binary l op r) us
  | inList {negated : Bool} {items : List Node} {ts vs us : List Token} :
      ReadsIn negated ts vs →
      Separated (lv.expr Strength.none) vs items (.symbol ")" :: us) →
      IsExtension lv l s ts (.inList l items negated) us

theorem rightSide_eq_ok {op : BinaryOp} (h : lv.rightSide l op s ts = .ok (t, us))
    (ht : t.IsCondition) :
    ∃ r, t = .binary l op r ∧ startsQuantifier ts = false ∧ lv.expr s ts = .ok (r, us) := by
  obtain ⟨o, vs, ho, hr⟩ := bind_eq_ok_iff.1 h
  cases o with
  | some k =>
    have hquantified : Barren (do
        let right ← lv.quantified s
        if op.isQuantifiable then
          return .other (l.text ++ " " ++ op.symbol ++ " " ++ k ++ right)
        else fail) :=
      .bind fun _ => .ite (.pure (not_isCondition_other _)) .fail
    exact absurd ht (hquantified _ _ _ hr)
  | none =>
    obtain ⟨rfl, hk⟩ := eatOneOf_eq_ok_none ho
    obtain ⟨r, ws, hr, he⟩ := bind_eq_ok_iff.1 hr
    cases he
    exact ⟨r, rfl, startsWithWord_eq_false_iff.2 hk, hr⟩

/-- A membership test that is a condition has a list of items. -/
theorem membership_eq_ok {negated : Bool} (h : lv.membership l negated ts = .ok (t, us))
    (ht : t.IsCondition) :
    ∃ vs items, ts = .symbol "(" :: vs ∧ t = .inList l items negated ∧
      Separated (lv.expr Strength.none) vs items (.symbol ")" :: us) := by
  obtain ⟨b, vs, hb, hr⟩ := bind_eq_ok_iff.1 h
  have htest : ∀ {α : Type} {p : Reader α} {f : α → String},
      Barren (p >>= fun a => pure (.test l (f a))) :=
    .bind fun _ => .pure (not_isCondition_test _ _)
  rcases eatIf_eq_ok hb with ⟨rfl, -⟩ | ⟨rfl, rfl, -⟩
  · exact absurd ht (htest _ _ _ hr)
  · rw [if_neg Bool.false_ne_true] at hr
    obtain ⟨⟨⟩, ws, hopen, hinside⟩ := bind_eq_ok_iff.1 hr
    obtain ⟨o, xs, ho, hlist⟩ := bind_eq_ok_iff.1 hinside
    rcases attempt_eq_ok ho with ⟨q, rfl, -⟩ | ⟨rfl, rfl, -⟩
    · have hquery : Barren (do
          expect ")"
          return .test l ((if negated then "NOT IN " else "IN ") ++ "(" ++ q ++ ")")) :=
        htest
      exact absurd ht (hquery _ _ _ hlist)
    · obtain ⟨items, ys, hitems, hclosed⟩ := bind_eq_ok_iff.1 hlist
      obtain ⟨⟨⟩, zs, hclose, he⟩ := bind_eq_ok_iff.1 hclosed
      cases he
      rw [expect_eq_ok hclose] at hitems
      exact ⟨_, items, expect_eq_ok hopen, rfl, commaList_eq_ok hitems⟩

theorem barren_isTest : Barren (lv.isTest l) := by
  unfold Level.isTest
  repeat' first
    | exact .pure (not_isCondition_test _ _)
    | refine .ite ?_ ?_
    | refine .bind fun _ => ?_

theorem barren_pattern {negated more : Bool} {k : String} :
    Barren (lv.pattern l negated k more) := by
  have hescape : ∀ plain : Node, ¬plain.IsCondition → Barren (do
      if ← eatWord "ESCAPE" then
        return .other (plain.text ++ " ESCAPE " ++ String.ofList (← readValue).render)
      else return plain) :=
    fun plain hplain => .bind fun _ => .ite (barren_other _ _) (.pure hplain)
  unfold Level.pattern
  refine .ite ?_ ?_
  · exact .bind fun _ => .bind fun _ => hescape _ (not_isCondition_like _ _ _ _)
  · exact .bind fun _ => .bind fun _ => hescape _ (not_isCondition_like _ _ _ _)

theorem keyword?_eq_some_iff {k : String} {o : Token} :
    o.keyword? = some k ↔ ∃ v, o = .word v none ∧ keywordSpelling v = k := by
  cases o with
  | word v q =>
    cases q with
    | none => simp [Token.keyword?]
    | some c => simp [Token.keyword?]
  | _ => simp [Token.keyword?]

/-- Of the tests that may stand after `NOT` only membership is a condition. -/
theorem negatableTest_eq_ok {negated : Bool} {k : Option String}
    (h : lv.negatableTest l negated k ts = .ok (t, us)) (ht : t.IsCondition) :
    k = some "IN" ∧ lv.membership l negated ts = .ok (t, us) := by
  have hlike : ∀ {k : String}, Barren (do return .like l negated k (← lv.expr Strength.like)) :=
    .bind fun _ => .pure (not_isCondition_like _ _ _ _)
  have hnull : Barren (if negated then return .test l "IS NOT NULL" else fail) :=
    .ite (.pure (not_isCondition_test _ _)) .fail
  have hbounds : Barren (lv.bounds l negated) :=
    .bind fun _ => .bind fun _ => .bind fun _ => .pure (not_isCondition_between _ _ _ _)
  have hsimilar : Barren (do
      expectWord "TO"
      lv.pattern l negated "SIMILAR TO" false) :=
    .bind fun _ => barren_pattern
  unfold Level.negatableTest at h
  split at h
  case h_4 => exact ⟨rfl, h⟩
  all_goals first
    | exact absurd ht (hlike _ _ _ h)
    | exact absurd ht (hnull _ _ _ h)
    | exact absurd ht (hbounds _ _ _ h)
    | exact absurd ht (barren_pattern _ _ _ h)
    | exact absurd ht (hsimilar _ _ _ h)
    | cases h

/-- An extension that is a condition is one of the two. -/
theorem isExtension_of_extend (h : lv.extend l s ts = .ok (t, us)) (ht : t.IsCondition) :
    IsExtension lv l s ts t us := by
  obtain ⟨o, vs, ho, hr⟩ := bind_eq_ok_iff.1 h
  rw [next_eq_ok_iff] at ho
  subst ho
  cases hop : o.operator? with
  | some op =>
    rw [hop] at hr
    obtain ⟨r, rfl, hq, hr⟩ := rightSide_eq_ok hr ht
    exact .binary hop hq hr
  | none =>
    rw [hop] at hr
    -- The extensions that are no conditions: a path into a document, a time zone, and
    -- a test for an element.
    have hpath : Barren (do
        let key ← readName
        let path ← lv.documentPath ((← get).length + 1)
        return .other (l.text ++ ":" ++ String.ofList key.render ++ path)) :=
      .bind fun _ => .bind fun _ => .bind fun _ => .pure (not_isCondition_other _)
    have hzone : Barren (do
        expectWord "TIME"
        expectWord "ZONE"
        return .other (l.text ++ " AT TIME ZONE " ++ (← lv.expr s).text)) :=
      .bind fun _ => .bind fun _ => barren_other _ _
    have hmember : Barren (do
        expectWord "OF"
        return .other (l.text ++ " MEMBER OF(" ++ (← parenthesized lv.text) ++ ")")) :=
      .bind fun _ => barren_other _ _
    simp only at hr
    split at hr
    · exact absurd ht (barren_other _ _ _ _ _ hr)
    · exact absurd ht (hpath _ _ _ hr)
    · generalize hk : o.keyword? = k at hr
      split at hr
      · exact absurd ht (barren_isTest _ _ _ hr)
      · exact absurd ht (hzone _ _ _ hr)
      · exact absurd ht (hmember _ _ _ hr)
      -- `NOT` stands in front of the word of the test.
      · obtain ⟨w, rfl, hw⟩ := keyword?_eq_some_iff.1 hk
        obtain ⟨u, ws, hu, htest⟩ := bind_eq_ok_iff.1 hr
        rw [next_eq_ok_iff] at hu
        subst hu
        obtain ⟨hin, hmembership⟩ := negatableTest_eq_ok htest ht
        obtain ⟨v, rfl, hv⟩ := keyword?_eq_some_iff.1 hin
        obtain ⟨xs, items, rfl, rfl, hitems⟩ := membership_eq_ok hmembership ht
        exact .inList (.negated hw hv) hitems
      · obtain ⟨rfl, hmembership⟩ := negatableTest_eq_ok hr ht
        obtain ⟨v, rfl, hv⟩ := keyword?_eq_some_iff.1 hk
        obtain ⟨xs, items, rfl, rfl, hitems⟩ := membership_eq_ok hmembership ht
        exact .inList (.plain hv) hitems

theorem pathless_pattern {negated more : Bool} {k : String} :
    Pathless (lv.pattern l negated k more) := by
  have hescape : ∀ plain : Node, plain ≠ .path [] → Pathless (do
      if ← eatWord "ESCAPE" then
        return .other (plain.text ++ " ESCAPE " ++ String.ofList (← readValue).render)
      else return plain) :=
    fun plain hplain => .bind fun _ => .ite (.bind fun _ => .pure nofun) (.pure hplain)
  unfold Level.pattern
  exact .ite (.bind fun _ => .bind fun _ => hescape _ nofun)
    (.bind fun _ => .bind fun _ => hescape _ nofun)

theorem pathless_negatableTest {negated : Bool} {k : Option String} :
    Pathless (lv.negatableTest l negated k) := by
  have hmembership : Pathless (lv.membership l negated) := by
    refine .bind fun _ => .ite (.bind fun _ => .pure nofun) (.bind fun _ => .bind fun o => ?_)
    cases o with
    | none => exact .bind fun _ => .bind fun _ => .pure nofun
    | some q => exact .bind fun _ => .pure nofun
  have hbounds : Pathless (lv.bounds l negated) :=
    .bind fun _ => .bind fun _ => .bind fun _ => .pure nofun
  unfold Level.negatableTest
  split
  · exact .bind fun _ => .pure nofun
  · exact .bind fun _ => .pure nofun
  · exact .ite (.pure nofun) .fail
  · exact hmembership
  · exact hbounds
  · exact pathless_pattern
  · exact pathless_pattern
  · exact .bind fun _ => pathless_pattern
  · exact .fail

theorem pathless_extend : Pathless (lv.extend l s) := by
  refine .bind fun o => ?_
  split
  · refine .bind fun k => ?_
    split
    · exact .bind fun _ => .ite (.pure nofun) .fail
    · exact .bind fun _ => .pure nofun
  · split
    · exact .bind fun _ => .pure nofun
    · exact .bind fun _ => .bind fun _ => .bind fun _ => .pure nofun
    · split
      · unfold Level.isTest
        repeat' first
          | exact .pure nofun
          | refine .ite ?_ ?_
          | refine .bind fun _ => ?_
      · exact .bind fun _ => .bind fun _ => .bind fun _ => .pure nofun
      · exact .bind fun _ => .bind fun _ => .pure nofun
      · exact .bind fun _ => pathless_negatableTest
      · exact pathless_negatableTest

/-- No expression is a path of no names. -/
theorem pathless_expression : Pathless (lv.expression s) := by
  have hextend : ∀ n e, e ≠ .path [] → Pathless (lv.extendAll s n e) := by
    intro n
    induction n with
    | zero => exact fun e he => .pure he
    | succ n ih => exact fun e he => .bind fun _ => .ite (.pure he) (.bind_of pathless_extend ih)
  exact .bind_of pathless_fullOperand fun e he => .bind fun _ => hextend _ e he

theorem pathless_ofDepth (d : Nat) (s : Strength) : Pathless ((ofDepth d).expr s) := by
  cases d with
  | zero => exact fun ts t us h => nomatch h
  | succ d => exact pathless_expression

/-! ### Expressions -/

/-- What is known of an expression that was read up to an operator no stronger than
`b`. -/
structure ReadAs (d : Nat) (b : Strength) (ts : List Token) (t : Node) (us : List Token)
    (e : Expression) : Prop where
  reads : Reads d ts t us
  lowers : Lowers t e
  ordered : e.Ordered
  tighter : b < e.tight
  /-- The operator that follows is no stronger than what the expression ends in. -/
  edge : strengthAt us ≤ Strength.compare → strengthAt us ≤ e.loose

/-- An expression is read as `ReadAs` says, and ends before an operator no stronger
than the bound, or before the point of an access. -/
def ReadsSoundly (d : Nat) : Prop :=
  ∀ {b : Strength} {ts us : List Token} {t : Node} {e : Expression}, b < Strength.point →
    (ofDepth d).expression b ts = .ok (t, us) → Lowers t e →
    ReadAs d b ts t us e ∧ (strengthAt us ≤ b ∨ strengthAt us = Strength.point)

/-- What the reader one level further in does. -/
def ReadsInside (d : Nat) : Prop :=
  ∀ {b : Strength} {ts us : List Token} {t : Node} {e : Expression}, b < Strength.point →
    (ofDepth d).expr b ts = .ok (t, us) → Lowers t e →
    ∃ c, d = c + 1 ∧ ReadAs c b ts t us e ∧ (strengthAt us ≤ b ∨ strengthAt us = Strength.point)

variable {d : Nat} {b : Strength} {e : Expression}

/-- An item that lowers to a literal is a constant under parentheses. -/
theorem Reads.readsItem (h : Reads d ts t us) (hl : Lowers t e) {v : Literal}
    (hv : e.ungrouped = .literal v) : ReadsItem d ts t us := by
  induction h generalizing e with
  | name _ =>
    cases hl
    cases hv
  | constant h => exact .constant h
  | not _ _ _ =>
    obtain ⟨f, rfl, -⟩ := lowers_not_iff.1 hl
    cases hv
  | nested _ _ ih =>
    obtain ⟨f, rfl, hf⟩ := lowers_nested_iff.1 hl
    exact .nested (ih hf hv)
  | binary _ _ _ _ _ _ =>
    cases hl with
    | and _ _ => cases hv
    | or _ _ => cases hv
    | compare _ _ _ => cases hv
  | inList _ _ _ _ =>
    cases hl
    cases hv

theorem readsItems_of_separated (ih : ReadsInside d) {items : List Node} {ls : List Literal}
    (h : Separated ((ofDepth d).expr Strength.none) ts items us) (hl : literals items = .ok ls) :
    ∃ c, d = c + 1 ∧ ReadsItems c ts items us := by
  induction h generalizing ls with
  | one ht =>
    obtain ⟨f, v, ws, hf, hv, -, -⟩ := literals_cons_eq_ok_iff.1 hl
    obtain ⟨c, rfl, hread, -⟩ := ih (by decide) ht hf
    exact ⟨c, rfl, .one (hread.reads.readsItem hf hv)⟩
  | cons ht _ ihs =>
    obtain ⟨f, v, ws, hf, hv, hws, -⟩ := literals_cons_eq_ok_iff.1 hl
    obtain ⟨c, rfl, hread, -⟩ := ih (by decide) ht hf
    obtain ⟨c', hc, hitems⟩ := ihs hws
    cases hc
    exact ⟨c, rfl, .cons (hread.reads.readsItem hf hv) hitems⟩

theorem ReadsConstant.isLiteral (h : ReadsConstant d ts t us) (hl : Lowers t e) :
    ∃ v, e = .literal v := by
  cases h with
  | signed minus token long =>
    obtain ⟨_, _, n, -, -, rfl⟩ := lowers_signed_iff.1 hl
    exact ⟨_, rfl⟩
  | _ =>
    cases hl
    exact ⟨_, rfl⟩

/-- Constants are operands of everything. -/
theorem ReadAs.constant (h : ReadsConstant d ts t us) (hl : Lowers t e)
    (hb : b < Strength.point) : ReadAs d b ts t us e := by
  obtain ⟨v, rfl⟩ := h.isLiteral hl
  exact ⟨.constant h, hl, trivial, hb, fun hs => Nat.le_trans hs (Nat.le_of_ble_eq_true rfl)⟩

/-- Operands are read soundly. -/
theorem ReadAs.operand (ih : ReadsInside d) (h : IsOperand (ofDepth d) ts t us) (hl : Lowers t e)
    (hb : b < Strength.point) : ReadAs d b ts t us e := by
  have hedge : ∀ {s : Strength}, s ≤ Strength.compare → s ≤ Strength.point :=
    fun hs => Nat.le_trans hs (by decide)
  cases h with
  | name hv =>
    cases hl
    exact ⟨.name hv, .name _, trivial, hb, hedge⟩
  | boolean c hv => exact .constant (.boolean c hv) hl hb
  | number token long => exact .constant (.number token long) hl hb
  | text body => exact .constant (.text body) hl hb
  | signed minus hread =>
    obtain ⟨token, long, n, rfl, hn, rfl⟩ := lowers_signed_iff.1 hl
    have hnumber : Lowers (.value (.number token long)) (.literal (.number n)) := by
      refine .value ?_
      rw [Value.toLiteral, hn]
      rfl
    obtain ⟨c, rfl, hr, -⟩ := ih (by decide) hread hnumber
    -- What was read behind the sign is a number alone, so it is one token.
    cases hr.reads with
    | constant hconstant =>
      cases hconstant
      exact .constant (.signed minus token long) hl hb
  | not hv hread =>
    obtain ⟨f, rfl, hf⟩ := lowers_not_iff.1 hl
    obtain ⟨c, rfl, hr, hstop⟩ := ih (by decide) hread hf
    refine ⟨.not hv hr.reads, hl, Expression.ordered_not_iff.2 ⟨hr.ordered, hr.tighter⟩, hb, ?_⟩
    intro hs
    refine Nat.le_min.2 ⟨?_, hr.edge hs⟩
    -- The operand of `NOT` ended at an operator that is no stronger than `NOT`, or at a
    -- point, which is stronger than the operators that are looked at here.
    rcases hstop with hstop | hstop
    · exact hstop
    · rw [hstop] at hs
      exact absurd hs (by decide)
  | nested hq hread =>
    obtain ⟨f, rfl, hf⟩ := lowers_nested_iff.1 hl
    obtain ⟨c, rfl, hr, -⟩ := ih (by decide) hread hf
    exact ⟨.nested hq hr.reads, hl, hr.ordered, hb, hedge⟩

/-- An extension is read soundly if what it extends is. -/
theorem ReadAs.extension (ih : ReadsInside d) {f : Expression} (h : ReadAs d b ts l us f)
    (hs : b < strengthAt us) (hx : IsExtension (ofDepth d) l (strengthAt us) us t vs)
    (hl : Lowers t e) : ReadAs d b ts t vs e ∧ vs.length < us.length := by
  cases hx with
  | @binary o op r us' _ hop hq hread =>
    obtain ⟨x, y, rfl, hfilter, hlx, hly⟩ := lowers_binary_iff.1 hl
    obtain ⟨hstrength, -⟩ := strengthAt_operator hop hfilter us'
    rw [hstrength] at hread hs
    have hcompare := op.strength_le
    obtain ⟨c, rfl, hr, hstop⟩ := ih (Nat.lt_of_le_of_lt hcompare (by decide)) hread hly
    -- A tree lowers to one expression only, so the left operand is the one read so far.
    obtain rfl := hlx.unique h.lowers
    have hloose : op.strength ≤ x.loose := by
      have := h.edge
      rw [hstrength] at this
      exact this hcompare
    refine ⟨⟨.binary h.reads hop hq hr.reads, hl, ?_, ?_, ?_⟩, ?_⟩
    · exact (ordered_join_iff hfilter).2 ⟨h.ordered, hr.ordered, hloose, hr.tighter⟩
    · rw [tight_join hfilter]
      exact hs
    · intro hvs
      rw [loose_join hfilter]
      refine Nat.le_min.2 ⟨?_, hr.edge hvs⟩
      rcases hstop with hstop | hstop
      · exact hstop
      · rw [hstop] at hvs
        exact absurd hvs (by decide)
    · exact Nat.lt_succ_of_lt hr.reads.length_lt
  | @inList negated items us vs' _ hin hitems =>
    obtain ⟨q, ls, rfl, hp, hls⟩ := lowers_inList_iff.1 hl
    obtain ⟨c, rfl, hread⟩ := readsItems_of_separated ih hitems hls
    obtain ⟨hstrength, -⟩ := hin.strengthAt
    obtain rfl := hp.unique h.lowers
    have hloose : Strength.compare ≤ q.loose := by
      have := h.edge
      rw [hstrength] at this
      exact this (Nat.le_refl _)
    rw [hstrength] at hs
    refine ⟨⟨.inList h.reads hin hread, hl, ?_, hs, fun hvs => hvs⟩, ?_⟩
    · exact Expression.ordered_member_iff.2 ⟨h.ordered, hloose⟩
    · have hin := hin.length_lt
      have hread := hread.length_lt
      simp only [List.length_cons] at hread
      omega

/-- An extension that becomes a condition has one to its left. -/
theorem IsExtension.isCondition (h : IsExtension lv l s ts t us) (ht : t.IsCondition) :
    l.IsCondition := by
  obtain ⟨e, hl⟩ := ht
  cases h with
  | binary _ _ _ =>
    obtain ⟨x, y, -, -, hx, -⟩ := lowers_binary_iff.1 hl
    exact ⟨x, hx⟩
  | inList _ _ =>
    obtain ⟨q, vs, -, hq, -⟩ := lowers_inList_iff.1 hl
    exact ⟨q, hq⟩

/-- What is extended to a condition is one. -/
theorem isCondition_of_extendAll {n : Nat} (h : lv.extendAll b n l ts = .ok (t, us))
    (ht : t.IsCondition) : l.IsCondition := by
  induction n generalizing l ts with
  | zero =>
    cases h
    exact ht
  | succ n ih =>
    rw [Level.extendAll, bind_of_ok (nextStrength_apply ts)] at h
    split at h
    · cases h
      exact ht
    · obtain ⟨m, vs, hm, hr⟩ := bind_eq_ok_iff.1 h
      have hcondition := ih hr
      exact (isExtension_of_extend hm hcondition).isCondition hcondition

/-- The loop keeps what is known of the expression it extends, and ends before an
operator no stronger than the bound. -/
theorem ReadAs.extendAll (ih : ReadsInside d) {n : Nat} {f : Expression}
    (h : ReadAs d b ts l us f) (hn : us.length < n)
    (hread : (ofDepth d).extendAll b n l us = .ok (t, vs)) (hl : Lowers t e) :
    ReadAs d b ts t vs e ∧ (strengthAt vs ≤ b ∨ strengthAt vs = Strength.point) := by
  induction n generalizing l us f with
  | zero => cases hn
  | succ n ihn =>
    rw [Level.extendAll, bind_of_ok (nextStrength_apply us)] at hread
    split at hread
    · rename_i hstop
      cases hread
      obtain rfl := h.lowers.unique hl
      exact ⟨h, hstop⟩
    · rename_i hgo
      obtain ⟨m, ws, hm, hr⟩ := bind_eq_ok_iff.1 hread
      -- The rest of the loop ends in a condition, so what this step made is one.
      have hcondition := isCondition_of_extendAll hr ⟨e, hl⟩
      have hx := isExtension_of_extend hm hcondition
      obtain ⟨g, hg⟩ := hcondition
      have hs : b < strengthAt us := Nat.lt_of_not_le fun hle => hgo (.inl hle)
      obtain ⟨hread, hlength⟩ := h.extension ih hs hx hg
      exact ihn hread (Nat.lt_of_lt_of_le hlength (Nat.le_of_lt_succ hn)) hr

theorem readsSoundly_of_inside (ih : ReadsInside d) : ReadsSoundly d := by
  intro b ts us t e hb h hl
  obtain ⟨l, vs, hoperand, hr⟩ := bind_eq_ok_iff.1 h
  rw [bind_of_ok (get_apply vs)] at hr
  obtain ⟨f, hf⟩ := isCondition_of_extendAll hr ⟨e, hl⟩
  have hread := isOperand_of_fullOperand (pathless_ofDepth d) hoperand ⟨f, hf⟩
  exact (ReadAs.operand ih hread hf hb).extendAll ih (Nat.lt_succ_self _) hr hl

/-- An expression that is a condition is read as the grammar and the precedence of
operators say, at whatever depth. -/
theorem readsSoundly (d : Nat) : ReadsSoundly d := by
  induction d with
  | zero =>
    -- At the lowest depth nothing is read inside.
    refine readsSoundly_of_inside ?_
    intro b ts us t e _ h _
    cases h
  | succ d ih => exact readsSoundly_of_inside fun hb h hl => ⟨d, rfl, ih hb h hl⟩

end Sql
end RecordSieve
