import RecordSieve.Proofs.Sql.Grammar
/-!
# RecordSieve.Proofs.Sql.OperandSoundness

What an operand was read from. `IsOperand` has one rule for every operand that a
condition can have, and every operand the reader finds is there by one of them,
unless it is a form that no condition has (`isOperand_of_fullOperand`). The other
forms are told by their node alone, so they are followed with `Gives`.
-/

namespace RecordSieve
namespace Sql

open Reader

/-! ### Forms that no condition has -/

/-- Whether a query expression is a condition. -/
def Node.IsCondition (t : Node) : Prop := ∃ e, Lowers t e

theorem not_isCondition_other (s : String) : ¬(Node.other s).IsCondition := by
  intro h
  obtain ⟨e, h⟩ := h
  cases h

theorem not_isCondition_value_other (s : String) : ¬(Node.value (.other s)).IsCondition := by
  intro h
  obtain ⟨e, h⟩ := h
  cases h with
  | value hv => cases hv

theorem not_isCondition_test (t : Node) (s : String) : ¬(Node.test t s).IsCondition := by
  intro h
  obtain ⟨e, h⟩ := h
  cases h

theorem not_isCondition_between (t low high : Node) (negated : Bool) :
    ¬(Node.between t negated low high).IsCondition := by
  intro h
  obtain ⟨e, h⟩ := h
  cases h

theorem not_isCondition_like (t p : Node) (negated : Bool) (k : String) :
    ¬(Node.like t negated k p).IsCondition := by
  intro h
  obtain ⟨e, h⟩ := h
  cases h

theorem not_isCondition_tuple (ts : List Node) : ¬(Node.tuple ts).IsCondition := by
  intro h
  obtain ⟨e, h⟩ := h
  cases h

theorem not_isCondition_path (parts : List Name) : ¬(Node.path parts).IsCondition := by
  intro h
  obtain ⟨e, h⟩ := h
  cases h

/-- A reader that finds no conditions. -/
def Barren (p : Reader Node) : Prop := Gives p fun t => ¬t.IsCondition

/-- Printed forms are no conditions. -/
theorem barren_other {α : Type} (p : Reader α) (f : α → String) :
    Barren (p >>= fun a => pure (.other (f a))) :=
  .bind fun a => .pure (not_isCondition_other (f a))

/-! ### Operands -/

/-- The operands of conditions, and what they are read from: names and constants from
their tokens, and signed, negated and grouped expressions by the reader one level
further in. -/
inductive IsOperand (lv : Level) : List Token → Node → List Token → Prop
  | name {v : String} {q : Option Char} {us : List Token} : (q = none → lv.TakesAsName v us) →
      IsOperand lv (.word v q :: us) (.name ⟨v, q⟩) us
  | boolean {v : String} (b : Bool) {us : List Token} :
      keywordSpelling v = (if b then "TRUE" else "FALSE") →
      IsOperand lv (.word v none :: us) (.value (.boolean b)) us
  | number (token : String) (long : Bool) {us : List Token} :
      IsOperand lv (.number token long :: us) (.value (.number token long)) us
  | text (body : String) {us : List Token} :
      IsOperand lv (.text .plain body :: us) (.value (.text body)) us
  | signed (minus : Bool) {t : Node} {ts us : List Token} :
      lv.expr Strength.product ts = .ok (t, us) →
      IsOperand lv (.symbol (if minus then "-" else "+") :: ts) (.unary (signOp minus) t) us
  | not {v : String} {t : Node} {ts us : List Token} : keywordSpelling v = "NOT" →
      lv.expr Strength.not ts = .ok (t, us) →
      IsOperand lv (.word v none :: ts) (.unary .not t) us
  | nested {t : Node} {ts us : List Token} : startsQuery ts = false →
      lv.expr Strength.none ts = .ok (t, .symbol ")" :: us) →
      IsOperand lv (.symbol "(" :: ts) (.nested t) us

variable {lv : Level} {interval : Reader String} {ts us : List Token} {t : Node}

/-! ### Words -/

/-- A word that is read as itself is a name with no parenthesis after it. -/
theorem plainWord_eq_ok {name : Name} (h : lv.plainWord name ts = .ok (t, us))
    (ht : t.IsCondition) :
    t = .name name ∧ us = ts ∧ ts.head?.any (Token.isSymbol "(") = false := by
  rw [Level.plainWord, bind_of_ok (peek_apply ts)] at h
  generalize ts.head? = o at *
  have hname : ∀ {o : Option Token}, (pure (.name name) : Reader Node) ts = .ok (t, us) →
      o.any (Token.isSymbol "(") = false →
      t = .name name ∧ us = ts ∧ o.any (Token.isSymbol "(") = false := by
    intro o h ho
    cases h
    exact ⟨rfl, rfl, ho⟩
  split at h
  · exact absurd ht (barren_other _ _ _ _ _ h)
  · split at h
    · exact absurd ht (barren_other _ _ _ _ _ h)
    · exact hname h rfl
  · split at h
    · exact absurd ht (barren_other _ _ _ _ _ h)
    · exact hname h rfl
  · rename_i hparen _ _
    refine hname h ?_
    cases o with
    | none => rfl
    | some u =>
      cases hu : u.isSymbol "(" with
      | false => exact hu
      | true => exact absurd (congrArg some (isSymbol_iff.1 hu)) hparen

/-- The forms of keywords that are conditions are truth values and negations. -/
theorem keywordForm_eq_ok_some {name : Name} {k : String}
    (h : lv.keywordForm interval name k ts = .ok (some t, us)) (ht : t.IsCondition) :
    (∃ b, k = (if b then "TRUE" else "FALSE") ∧ t = .value (.boolean b) ∧ us = ts) ∨
      (k = "NOT" ∧ lv.negation ts = .ok (t, us)) := by
  have hform : ∀ {p : Reader String},
      (p >>= fun s => pure (some (Node.other s))) ts ≠ .ok (some t, us) := by
    intro p hp
    obtain ⟨s, vs, -, hs⟩ := bind_eq_ok_iff.1 hp
    cases hs
    exact not_isCondition_other s ht
  have hother : ∀ s, (pure (some (Node.other s)) : Reader (Option Node)) ts ≠ .ok (some t, us) := by
    intro s hs
    cases hs
    exact not_isCondition_other s ht
  unfold Level.keywordForm at h
  split at h
  case h_1 =>
    cases h
    exact .inl ⟨true, rfl, rfl, rfl⟩
  case h_2 =>
    cases h
    exact .inl ⟨false, rfl, rfl, rfl⟩
  case h_3 =>
    cases h
    obtain ⟨e, hl⟩ := ht
    cases hl with
    | value hv => cases hv
  case h_4 =>
    obtain ⟨u, vs, hu, hr⟩ := bind_eq_ok_iff.1 h
    cases hr
    exact .inr ⟨rfl, hu⟩
  all_goals first
    | exact absurd h hform
    | exact absurd h (hother _)
    | skip
  case h_24 =>
    -- `POSITION` starts its form only in front of a parenthesis.
    rw [bind_of_ok (atSymbol_apply _ ts)] at h
    split at h
    · exact absurd h hform
    · cases h
  case h_30 =>
    -- `ARRAY` starts its form only in front of a bracket or a parenthesis.
    obtain ⟨o, vs, -, hr⟩ := bind_eq_ok_iff.1 h
    cases o with
    | none => cases hr
    | some s =>
      cases hr
      exact absurd ht (not_isCondition_other s)
  case h_33 => cases h

/-- Without a bracket or a parenthesis nothing of an array is consumed. -/
theorem namedArrayForm_eq_ok_none {name : String}
    (h : lv.namedArrayForm name ts = .ok (none, us)) : us = ts := by
  obtain ⟨b, vs, hb, hr⟩ := bind_eq_ok_iff.1 h
  rcases eatIf_eq_ok hb with ⟨rfl, -⟩ | ⟨rfl, rfl, -⟩
  · obtain ⟨s, ws, -, hr⟩ := bind_eq_ok_iff.1 hr
    cases hr
  · rw [if_neg Bool.false_ne_true, bind_of_ok (atSymbol_apply _ _)] at hr
    split at hr
    · obtain ⟨s, ws, -, hr⟩ := bind_eq_ok_iff.1 hr
      cases hr
    · cases hr
      rfl

/-- Where a keyword starts no form, nothing is consumed, and it is none of those that
start one in any case. -/
theorem keywordForm_eq_ok_none {name : Name} {k : String}
    (h : lv.keywordForm interval name k ts = .ok (none, us)) :
    us = ts ∧ k ∉ neverNames ∧ k ≠ "NOT" ∧ k ≠ "CASE" := by
  have hform : ∀ {α : Type} {p : Reader α} {f : α → Node},
      (p >>= fun s => pure (some (f s))) ts ≠ .ok (none, us) := by
    intro α p f hp
    obtain ⟨s, vs, -, hs⟩ := bind_eq_ok_iff.1 hp
    cases hs
  have hsome : ∀ e, (pure (some e) : Reader (Option Node)) ts ≠ .ok (none, us) := by
    intro e he
    cases he
  unfold Level.keywordForm at h
  split at h
  all_goals first
    | exact absurd h hform
    | exact absurd h (hsome _)
    | skip
  case h_24 =>
    -- `POSITION` without a parenthesis.
    rw [bind_of_ok (atSymbol_apply _ ts)] at h
    split at h
    · exact absurd h hform
    · cases h
      exact ⟨rfl, by decide⟩
  case h_30 =>
    -- `ARRAY` without a bracket and without a parenthesis.
    obtain ⟨o, vs, ho, hr⟩ := bind_eq_ok_iff.1 h
    cases o with
    | some s => cases hr
    | none =>
      cases hr
      exact ⟨namedArrayForm_eq_ok_none ho, by decide⟩
  case h_33 =>
    cases h
    -- A keyword without a form: the match has ruled out all others.
    refine ⟨rfl, ?_, ‹_›, ‹_›⟩
    simp only [neverNames, List.mem_cons, List.not_mem_nil, or_false, not_or]
    exact ⟨‹_›, ‹_›, ‹_›, ‹_›, ‹_›, ‹_›, ‹_›, ‹_›, ‹_›, ‹_›, ‹_›, ‹_›, ‹_›, ‹_›, ‹_›, ‹_›⟩

/-- Where the form of a keyword does not fit and no parenthesis is ahead, the keyword is
no reserved one, or one of those that are names otherwise. -/
theorem keywordForm_eq_error {name : Name} {k : String} {e : Failure}
    (h : lv.keywordForm interval name k ts = .error e)
    (hparen : ts.head?.any (Token.isSymbol "(") = false)
    (hk : Level.reservedNames.contains k = false) :
    k ∉ neverNames ∧ (k = "NOT" → (lv.negation ts).isOk = false) ∧
      (k = "CASE" → (lv.caseForm ts).isOk = false) := by
  have hfails : ∀ {α β : Type} {p : Reader α} {f : α → β},
      (p >>= fun a => pure (f a)) ts = .error e → (p ts).isOk = false := by
    intro α β p f hp
    cases hr : p ts with
    | error e => rfl
    | ok r =>
      rw [bind_of_ok hr] at hp
      cases hp
  have hpure : ∀ o, (pure o : Reader (Option Node)) ts ≠ .error e := fun _ => nofun
  -- The names of the present moment take arguments only in parentheses.
  have hmoment : ∀ {s : String},
      ((do if ← eat "(" then return s ++ (← lv.arguments) else return s) >>= fun s =>
        pure (some (Node.other s))) ts ≠ .error e := by
    intro s hs
    have heat : eat "(" ts = .ok (false, ts) := eatIf_of_head hparen
    rw [bind_apply, bind_of_ok heat] at hs
    cases hs
  unfold Level.keywordForm at h
  split at h
  case h_4 => exact ⟨by decide, fun _ => hfails h, nofun⟩
  case h_14 => exact ⟨by decide, nofun, fun _ => hfails h⟩
  all_goals first
    | exact absurd h (hpure _)
    | exact absurd h hmoment
    | exact absurd hk (by decide)
    | exact ⟨by decide, nofun, nofun⟩

/-- A negation that is a condition has an operand that is no `EXISTS`. -/
theorem negation_eq_ok (h : lv.negation ts = .ok (t, us)) (ht : t.IsCondition) :
    ∃ u, t = .unary .not u ∧ lv.expr Strength.not ts = .ok (u, us) := by
  obtain ⟨b, vs, hb, hr⟩ := bind_eq_ok_iff.1 h
  rcases eatIf_eq_ok hb with ⟨rfl, -⟩ | ⟨rfl, rfl, -⟩
  · exact absurd ht (barren_other _ _ _ _ _ hr)
  · obtain ⟨u, ws, hu, hr⟩ := bind_eq_ok_iff.1 hr
    cases hr
    exact ⟨u, rfl, hu⟩

/-- A word that starts a condition is a name, a truth value or a negation. -/
theorem isOperand_of_wordOperand {v : String} {q : Option Char}
    (h : lv.wordOperand interval ⟨v, q⟩ ts = .ok (t, us)) (ht : t.IsCondition) :
    IsOperand lv (.word v q :: ts) t us := by
  cases q with
  | some c =>
    have hform : lv.keywordForm interval ⟨v, some c⟩ "" ts = .ok (none, ts) := rfl
    have hreserved : Level.reservedNames.contains "" = false := by decide
    rw [Level.wordOperand] at h
    simp only [Option.isNone_some, Bool.false_eq_true, if_false, hreserved] at h
    have hplain : lv.plainWord ⟨v, some c⟩ ts = .ok (t, us) := by
      rcases orInstead_eq_ok h with h | ⟨-, h⟩
      · rwa [bind_of_ok hform] at h
      · exact h
    obtain ⟨rfl, rfl, -⟩ := plainWord_eq_ok hplain ht
    exact .name nofun
  | none =>
    rw [Level.wordOperand] at h
    simp only [Option.isNone_none, if_true] at h
    -- What the word's own form gives is a truth value, a negation or a name.
    have hform : ∀ f : Option Node → Reader Node, (∀ e, f (some e) = pure e) →
        f none = lv.plainWord ⟨v, none⟩ →
        (lv.keywordForm interval ⟨v, none⟩ (keywordSpelling v) >>= f) ts = .ok (t, us) →
        IsOperand lv (.word v none :: ts) t us := by
      intro f hsome hnone hf
      obtain ⟨o, vs, ho, hr⟩ := bind_eq_ok_iff.1 hf
      cases o with
      | some u =>
        rw [hsome] at hr
        cases hr
        rcases keywordForm_eq_ok_some ho ht with ⟨b, hk, rfl, rfl⟩ | ⟨hk, hn⟩
        · exact .boolean b hk
        · obtain ⟨u, rfl, hu⟩ := negation_eq_ok hn ht
          exact .not hk hu
      | none =>
        rw [hnone] at hr
        obtain ⟨rfl, hnever, hnot, hcase⟩ := keywordForm_eq_ok_none ho
        obtain ⟨rfl, rfl, -⟩ := plainWord_eq_ok hr ht
        exact .name fun _ => ⟨hnever, fun hk => absurd hk hnot, fun hk => absurd hk hcase⟩
    split at h
    · exact hform _ (fun _ => rfl) rfl h
    · rename_i hreserved
      rcases orInstead_eq_ok h with h | ⟨hfail, h⟩
      · exact hform _ (fun _ => rfl) rfl h
      · obtain ⟨rfl, rfl, hparen⟩ := plainWord_eq_ok h ht
        refine .name fun _ => ?_
        cases hk : lv.keywordForm interval ⟨v, none⟩ (keywordSpelling v) us with
        | error e => exact keywordForm_eq_error hk hparen (Bool.eq_false_iff.2 hreserved)
        | ok r =>
          obtain ⟨o, vs⟩ := r
          rw [bind_of_ok hk] at hfail
          cases o with
          | some u => cases hfail
          | none =>
            obtain ⟨rfl, hnever, hnot, hcase⟩ := keywordForm_eq_ok_none hk
            exact ⟨hnever, fun hk => absurd hk hnot, fun hk => absurd hk hcase⟩

/-! ### Parentheses -/

theorem atQuery_eq_ok_false (h : Level.atQuery ts = .ok (false, us)) :
    us = ts ∧ startsQuery ts = false := by
  rw [Level.atQuery, bind_of_ok (atWord_apply _ ts)] at h
  cases hs : ts.head?.any (Token.isKeyword "SELECT") with
  | true =>
    rw [hs] at h
    cases h
  | false =>
    rw [hs, if_neg Bool.false_ne_true, atWord_apply] at h
    cases hw : ts.head?.any (Token.isKeyword "WITH") with
    | true =>
      rw [hw] at h
      cases h
    | false =>
      rw [hw] at h
      cases h
      refine ⟨rfl, ?_⟩
      cases ts with
      | nil => rfl
      | cons u ts =>
        have hs : u.isKeyword "SELECT" = false := hs
        have hw : u.isKeyword "WITH" = false := hw
        simp [startsQuery, startsWithWord, hs, hw]

/-- Parentheses that are a condition hold one expression. -/
theorem isOperand_of_parentheses (h : lv.parentheses ts = .ok (t, us)) (ht : t.IsCondition) :
    IsOperand lv (.symbol "(" :: ts) t us := by
  obtain ⟨b, vs, hb, hr⟩ := bind_eq_ok_iff.1 h
  cases b with
  | true =>
    have hquery : Barren (do
        let q ← lv.query
        expect ")"
        return .other ("(" ++ q ++ ")")) :=
      .bind fun q => .bind fun _ => .pure (not_isCondition_other _)
    exact absurd ht (hquery _ _ _ hr)
  | false =>
    obtain ⟨rfl, hq⟩ := atQuery_eq_ok_false hb
    rw [if_neg Bool.false_ne_true] at hr
    obtain ⟨es, ws, hes, hclosed⟩ := bind_eq_ok_iff.1 hr
    obtain ⟨⟨⟩, xs, hclose, hone⟩ := bind_eq_ok_iff.1 hclosed
    rw [expect_eq_ok hclose] at hes
    -- One item is a group; more of them are a tuple, which is no condition.
    cases commaList_eq_ok hes with
    | one he =>
      cases hone
      exact .nested hq he
    | cons _ hmore =>
      cases hmore with
      | one _ =>
        cases hone
        exact absurd ht (not_isCondition_tuple _)
      | cons _ _ =>
        cases hone
        exact absurd ht (not_isCondition_tuple _)

/-! ### Operands without a type in front -/

theorem readParameter_eq_ok {mark : String} {v : Value} (h : readParameter mark ts = .ok (v, us)) :
    ∃ s, v = .other s := by
  obtain ⟨u, vs, -, hr⟩ := bind_eq_ok_iff.1 h
  cases u with
  | word v q =>
    cases hr
    exact ⟨_, rfl⟩
  | number token long =>
    cases long with
    | true => cases hr
    | false =>
      cases hr
      exact ⟨_, rfl⟩
  | _ => cases hr

/-- A parameter is no condition. -/
theorem barren_readParameter (mark : String) :
    Barren (do return .value (← readParameter mark)) := by
  intro ts t us h
  obtain ⟨v, vs, hv, hr⟩ := bind_eq_ok_iff.1 h
  cases hr
  obtain ⟨s, rfl⟩ := readParameter_eq_ok hv
  exact not_isCondition_value_other s

theorem isOperand_of_untypedOperand (h : lv.untypedOperand interval ts = .ok (t, us))
    (ht : t.IsCondition) : IsOperand lv ts t us := by
  obtain ⟨u, vs, hu, hr⟩ := bind_eq_ok_iff.1 h
  rw [next_eq_ok_iff] at hu
  subst hu
  cases u with
  | word v q => exact isOperand_of_wordOperand hr ht
  | number token long =>
    cases hr
    exact .number token long
  | symbol s =>
    simp only at hr
    -- A parenthesis, the two signs, and then the symbols that start what is no condition.
    split at hr
    · exact isOperand_of_parentheses hr ht
    · obtain ⟨u, ws, hu, hr⟩ := bind_eq_ok_iff.1 hr
      cases hr
      exact .signed true hu
    · obtain ⟨u, ws, hu, hr⟩ := bind_eq_ok_iff.1 hr
      cases hr
      exact .signed false hu
    · exact absurd ht (barren_other _ _ _ _ _ hr)
    · exact absurd ht (barren_other _ _ _ _ _ hr)
    · exact absurd ht (barren_readParameter _ _ _ _ hr)
    · exact absurd ht (barren_readParameter _ _ _ _ hr)
    · cases hr
  | text kind body =>
    cases kind with
    | plain =>
      cases hr
      exact .text body
    | _ =>
      cases hr
      exact absurd ht (not_isCondition_value_other _)
  | dollarText tag body =>
    cases hr
    exact absurd ht (not_isCondition_value_other _)
  | placeholder name =>
    cases hr
    exact absurd ht (not_isCondition_value_other _)
  | stray c => cases hr

theorem barren_typedConstant : Barren (Level.typedConstant interval) := by
  refine .bind fun type => ?_
  cases type with
  | interval => exact barren_other _ _
  | named _ => exact .fail
  | builtIn _ => exact barren_other _ _

/-- Neither a typed constant nor a collation is a condition. -/
theorem isOperand_of_operandWith (h : lv.operandWith interval ts = .ok (t, us))
    (ht : t.IsCondition) : IsOperand lv ts t us := by
  obtain ⟨o, vs, ho, hr⟩ := bind_eq_ok_iff.1 h
  rcases attempt_eq_ok ho with ⟨u, rfl, hu⟩ | ⟨rfl, rfl, -⟩
  · cases hr
    exact absurd ht (barren_typedConstant _ _ _ hu)
  · obtain ⟨u, ws, hu, hcollated⟩ := bind_eq_ok_iff.1 hr
    obtain ⟨b, xs, hb, hc⟩ := bind_eq_ok_iff.1 hcollated
    rcases eatIf_eq_ok hb with ⟨rfl, -⟩ | ⟨rfl, rfl, -⟩
    · exact absurd ht (barren_other _ _ _ _ _ hc)
    · rw [if_neg Bool.false_ne_true] at hc
      cases hc
      exact isOperand_of_untypedOperand hu ht

/-! ### Accesses -/

/-- A reader finds no path of no names. -/
def Pathless (p : Reader Node) : Prop := Gives p fun t => t ≠ .path []

/-- Whether a query expression is the path of no names. -/
def Node.isEmptyPath : Node → Bool
  | .path [] => true
  | _ => false

theorem Node.ne_path_nil {t : Node} (h : t.isEmptyPath = false) : t ≠ .path [] := by
  intro ht
  subst ht
  cases h

theorem gives_keywordForm (name : Name) (k : String) :
    Gives (lv.keywordForm interval name k) fun o => o ≠ some (.path []) := by
  have hform : ∀ p : Reader String,
      Gives (p >>= fun s => pure (some (Node.other s))) fun o => o ≠ some (.path []) :=
    fun p => .bind fun _ => .pure nofun
  unfold Level.keywordForm
  split
  case h_4 =>
    have hnegation : Pathless lv.negation :=
      .bind fun _ => .ite (.bind fun _ => .pure nofun) (.bind fun _ => .pure nofun)
    refine .bind_of hnegation fun e he => .pure ?_
    intro h
    cases h
    exact he rfl
  case h_24 => exact .bind fun _ => .ite (hform _) (.pure nofun)
  case h_30 =>
    refine .bind fun o => .pure ?_
    cases o with
    | none => nofun
    | some s => nofun
  all_goals first
    | exact hform _
    | exact .pure nofun

theorem pathless_wordOperand (name : Name) : Pathless (lv.wordOperand interval name) := by
  have hplain : Pathless (lv.plainWord name) := by
    refine .bind fun o => ?_
    split
    · exact .bind fun _ => .pure (Node.ne_path_nil rfl)
    · exact .ite (.bind fun _ => .pure (Node.ne_path_nil rfl)) (.pure (Node.ne_path_nil rfl))
    · exact .ite (.bind fun _ => .pure (Node.ne_path_nil rfl)) (.pure (Node.ne_path_nil rfl))
    · exact .pure (Node.ne_path_nil rfl)
  have hform : ∀ (k : String) (f : Option Node → Reader Node), (∀ e, f (some e) = pure e) →
      f none = lv.plainWord name → Pathless (lv.keywordForm interval name k >>= f) := by
    intro k f hsome hnone
    refine .bind_of (gives_keywordForm name k) fun o ho => ?_
    cases o with
    | none =>
      rw [hnone]
      exact hplain
    | some e =>
      rw [hsome]
      exact .pure fun he => ho (congrArg some he)
  rw [Level.wordOperand]
  exact .ite (hform _ _ (fun _ => rfl) rfl) (.orInstead (hform _ _ (fun _ => rfl) rfl) hplain)

theorem pathless_untypedOperand : Pathless (lv.untypedOperand interval) := by
  refine .bind fun u => ?_
  cases u with
  | word v q => exact pathless_wordOperand ⟨v, q⟩
  | symbol s =>
    simp only
    split
    · refine .bind fun b =>
        .ite (.bind fun _ => .bind fun _ => .pure (Node.ne_path_nil rfl)) ?_
      refine .bind fun es => .bind fun _ => ?_
      split
      · exact .pure (Node.ne_path_nil rfl)
      · exact .pure (Node.ne_path_nil rfl)
    all_goals first
      | exact .bind fun _ => .pure (Node.ne_path_nil rfl)
      | exact .fail
  | _ =>
    -- the other tokens are constants or nothing
    simp only
    split
    · exact .pure (Node.ne_path_nil rfl)
    · exact .fail

theorem pathless_operandWith : Pathless (lv.operandWith interval) := by
  have htyped : Pathless (Level.typedConstant interval) := by
    refine .bind fun type => ?_
    cases type with
    | interval => exact .bind fun _ => .pure nofun
    | named _ => exact .fail
    | builtIn _ => exact .bind fun _ => .pure nofun
  have hattempt : Gives (attempt (Level.typedConstant interval)) fun o => o ≠ some (.path []) := by
    intro ts o us h
    rcases attempt_eq_ok h with ⟨e, rfl, he⟩ | ⟨rfl, -⟩
    · exact fun hp => htyped _ _ _ he (Option.some.inj hp)
    · nofun
  refine .bind_of hattempt fun o ho => ?_
  cases o with
  | some e => exact .pure fun he => ho (congrArg some he)
  | none =>
    refine .bind_of pathless_untypedOperand fun e he => .bind fun _ => .ite ?_ (.pure he)
    exact .bind fun _ => .pure nofun

/-- No operand is a path of no names: a path that is read has a name and an access. -/
theorem pathless_fullOperand : Pathless lv.fullOperand := by
  refine .bind_of pathless_operandWith fun root hroot => .bind fun _ => .bind fun parts => .pure ?_
  unfold Level.withAccesses
  split
  · exact hroot
  · split
    · nofun
    · nofun

theorem ofPart_ne_nil (h : t ≠ .path []) : Level.Access.ofPart t ≠ [] := by
  unfold Level.Access.ofPart
  split
  · rename_i parts
    cases parts with
    | nil => exact absurd rfl h
    | cons n ns => nofun
  · nofun

/-- Without an access nothing is consumed after an operand. -/
theorem accesses_eq_ok_nil (hexpr : ∀ b, Pathless (lv.expr b)) {n : Nat}
    (h : lv.accesses n ts = .ok ([], us)) : us = ts := by
  cases n with
  | zero =>
    cases h
    rfl
  | succ n =>
    -- Any access that is read makes the list longer than empty.
    have hmore : ∀ here : List Level.Access, here ≠ [] →
        Gives (do return here ++ (← lv.accesses n)) fun as => as ≠ [] :=
      fun here hne => .bind fun _ => .pure fun he => hne (List.append_eq_nil_iff.1 he).1
    rw [Level.accesses, bind_of_ok (atSymbol_apply _ ts)] at h
    split at h
    · rw [bind_of_ok (peekAt_apply 1 ts)] at h
      split at h
      · cases h
        rfl
      · obtain ⟨u, vs, -, hr⟩ := bind_eq_ok_iff.1 h
        rw [bind_of_ok (peek_apply vs)] at hr
        generalize vs.head? = o at hr
        split at hr
        · have hname : ∀ s, Gives (do
              let _ ← next
              let here ← pure [Level.Access.point (.name ⟨s, some '\''⟩)]
              return here ++ (← lv.accesses n)) fun as => as ≠ [] :=
            fun s => .bind fun _ => .bind_of (.pure (List.cons_ne_nil _ _)) hmore
          exact absurd rfl (hname _ _ _ _ hr)
        · have hpart : Gives (do
              let here ← pure (Level.Access.ofPart (← lv.expr Strength.point))
              return here ++ (← lv.accesses n)) fun as => as ≠ [] :=
            .bind_of (hexpr _) fun e he => .bind_of (.pure (ofPart_ne_nil he)) hmore
          exact absurd rfl (hpart _ _ _ hr)
    · obtain ⟨b, vs, hb, hr⟩ := bind_eq_ok_iff.1 h
      rcases eatIf_eq_ok hb with ⟨rfl, -⟩ | ⟨rfl, rfl, -⟩
      · rw [if_pos rfl] at hr
        obtain ⟨i, ws, -, hi⟩ := bind_eq_ok_iff.1 hr
        obtain ⟨as, xs, -, has⟩ := bind_eq_ok_iff.1 hi
        cases has
      · rw [if_neg Bool.false_ne_true] at hr
        cases hr
        rfl

/-- An operand that is a condition has no accesses. -/
theorem isOperand_of_fullOperand (hexpr : ∀ b, Pathless (lv.expr b))
    (h : lv.fullOperand ts = .ok (t, us)) (ht : t.IsCondition) : IsOperand lv ts t us := by
  obtain ⟨root, vs, hroot, hr⟩ := bind_eq_ok_iff.1 h
  rw [bind_of_ok (get_apply vs)] at hr
  obtain ⟨parts, ws, hparts, hr⟩ := bind_eq_ok_iff.1 hr
  cases hr
  cases parts with
  | nil =>
    rw [accesses_eq_ok_nil hexpr hparts]
    exact isOperand_of_operandWith hroot ht
  | cons part parts =>
    refine absurd ht ?_
    simp only [Level.withAccesses]
    split
    · exact not_isCondition_path _
    · exact not_isCondition_other _

end Sql
end RecordSieve
