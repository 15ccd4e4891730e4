import RecordSieve.Clause.Compile
import RecordSieve.Proofs.Clause.Spelling
import RecordSieve.Proofs.Sql.Completeness
/-!
# RecordSieve.Proofs.Clause.Completeness

Every spelling of a predicate compiles to it. `ExpressionTokens` gives the rows of
tokens that a predicate may be written with, `Written` the texts that such a row may be
spelled with, and `compile_of_tokens` says that all of them mean the predicate, as long
as its shape follows the precedence of the operators and no more expressions are open
at once than the reader allows.
-/

namespace RecordSieve
namespace Sql

open Reader

/-- A condition that takes all tokens is the reading of them, with nothing after it. -/
theorem Reading.ofTokens?_of_expression {ts : List Token} {t : Node}
    (h : (Level.ofDepth 47).expression Strength.none ts = .ok (t, [])) :
    Reading.ofTokens? ts = some ⟨t, "", "", "", 1⟩ := by
  have hcondition : (Level.ofDepth clauseDepth).expr Strength.none ts = .ok (t, []) := h
  have hread : readClause ts = .ok (⟨t, "", "", "", 1⟩, []) := by
    rw [readClause, bind_of_ok hcondition]
    rfl
  rw [Reading.ofTokens?, hread]

end Sql

namespace Clause

open Sql (Token Node Lexes Reads Lowers)

/-- What is cut into tokens that read as a condition of the right shape compiles. -/
theorem compile_of_lexes {clause : String} {normal : List Char} {ts : List Token} {t : Node}
    {e : Expression} (hn : normalizeChars clause.toList = .ok normal) (hlex : Lexes normal ts [])
    (hr : Reads 47 ts t []) (hl : Lowers t e) (ho : e.Ordered) : compile clause = .ok e := by
  have hread := hr.expression_eq_ok hl ho .nil Sql.strengthAt_nil
  have htokens := hlex.tokens
  -- A text of white space has no tokens, and no expression is read from none.
  have hblank : Text.allBlank normal = false := by
    cases hb : Text.allBlank normal with
    | false => rfl
    | true =>
      rw [(Sql.lexes_of_allBlank hb).tokens] at htokens
      cases htokens
      exact absurd hr.length_lt (Nat.lt_irrefl _)
  have hcondition : conditionOfNormal normal = .ok t := by
    rw [conditionOfNormal, hblank, htokens, Option.bind_some,
      Sql.Reading.ofTokens?_of_expression hread]
    rfl
  rw [compile, condition, hn]
  simp only
  rw [hcondition]
  exact Sql.lowers_iff.1 hl

/-! ### The tokens of a predicate -/

open Sql (keywordSpelling signedNumber)

/-- The keywords that are no names without quotes, wherever a name may stand. -/
def reservedNames : List String :=
  Sql.neverNames ++ ["NOT", "CASE", "ANY", "ALL", "SOME", "SELECT", "WITH"]

/-- The tokens of a constant. A sign opens an expression of its own. -/
inductive LiteralTokens : Nat → Literal → List Token → Prop
  | boolean {d : Nat} {v : String} (b : Bool) :
      keywordSpelling v = (if b then "TRUE" else "FALSE") →
      LiteralTokens (d + 1) (.boolean b) [.word v none]
  | text {d : Nat} (s : String) : LiteralTokens (d + 1) (.text s) [.text .plain s]
  | number {d : Nat} {token : String} {n : Binary64} : readNumber token.toList = .ok n →
      LiteralTokens (d + 1) (.number n) [.number token]
  | signed {d : Nat} (minus : Bool) {token : String} {n : Binary64} :
      readNumber token.toList = .ok n →
      LiteralTokens (d + 2) (.number (signedNumber minus n))
        [.symbol (if minus then "-" else "+"), .number token]

/-- The tokens of the constants of a list, one at least. -/
inductive ItemTokens (d : Nat) : List Literal → List Token → Prop
  | one {v : Literal} {ts : List Token} : LiteralTokens d v ts → ItemTokens d [v] ts
  | cons {v : Literal} {vs : List Literal} {ts us : List Token} :
      LiteralTokens d v ts → ItemTokens d vs us →
      ItemTokens d (v :: vs) (ts ++ .symbol "," :: us)

/-- The words of a membership test. -/
inductive InTokens : Bool → List Token → Prop
  | plain {v : String} : keywordSpelling v = "IN" → InTokens false [.word v none]
  | negated {w v : String} : keywordSpelling w = "NOT" → keywordSpelling v = "IN" →
      InTokens true [.word w none, .word v none]

/-- The tokens of a predicate, no more than a number of expressions being open at
once: the operand of `NOT`, the right operand of an operator, the inside of a group and
the items of a list are opened inside the expression around them. -/
inductive ExpressionTokens : Nat → Expression → List Token → Prop
  | literal {d : Nat} {v : Literal} {ts : List Token} :
      LiteralTokens d v ts → ExpressionTokens d (.literal v) ts
  | field {d : Nat} {name : String} {q : Option Char} :
      (q = none → keywordSpelling name ∉ reservedNames) →
      ExpressionTokens (d + 1) (.field name) [.word name q]
  | not {d : Nat} {v : String} {e : Expression} {ts : List Token} :
      keywordSpelling v = "NOT" → ExpressionTokens d e ts →
      ExpressionTokens (d + 1) (.not e) (.word v none :: ts)
  | group {d : Nat} {e : Expression} {ts : List Token} : ExpressionTokens d e ts →
      ExpressionTokens (d + 1) (.group e) (.symbol "(" :: (ts ++ [.symbol ")"]))
  | and {d : Nat} {v : String} {l r : Expression} {ts us : List Token} :
      keywordSpelling v = "AND" → ExpressionTokens (d + 1) l ts → ExpressionTokens d r us →
      ExpressionTokens (d + 1) (.and l r) (ts ++ .word v none :: us)
  | or {d : Nat} {v : String} {l r : Expression} {ts us : List Token} :
      keywordSpelling v = "OR" → ExpressionTokens (d + 1) l ts → ExpressionTokens d r us →
      ExpressionTokens (d + 1) (.or l r) (ts ++ .word v none :: us)
  | compare {d : Nat} (op : Comparison) {l r : Expression} {ts us : List Token} :
      ExpressionTokens (d + 1) l ts → ExpressionTokens d r us →
      ExpressionTokens (d + 1) (.compare op l r)
        (ts ++ .symbol (Sql.BinaryOp.compare op).symbol :: us)
  | member {d : Nat} {negated : Bool} {p : Expression} {vs : List Literal}
      {ts ws us : List Token} :
      ExpressionTokens (d + 1) p ts → InTokens negated ws → ItemTokens d vs us →
      ExpressionTokens (d + 1) (.member p (.ofList vs) negated)
        (ts ++ (ws ++ .symbol "(" :: (us ++ [.symbol ")"])))

/-! ### They read as the predicate -/

open Sql (ReadsConstant ReadsItems ReadsIn)

/-- A constant is read from its tokens, whatever follows. -/
theorem LiteralTokens.reads {n : Nat} {v : Literal} {ts : List Token} (h : LiteralTokens n v ts) :
    ∃ d t, n = d + 1 ∧ Lowers t (.literal v) ∧ ∀ us, ReadsConstant d (ts ++ us) t us := by
  cases h with
  | @boolean d v b hv => exact ⟨d, _, rfl, .value rfl, fun us => .boolean b hv⟩
  | @text d s => exact ⟨d, _, rfl, .value rfl, fun us => .text s⟩
  | @number d token n hn =>
    refine ⟨d, .value (.number token), rfl, .value ?_, fun us => .number token false⟩
    rw [Sql.Value.toLiteral, hn]
    rfl
  | @signed d minus token n hn =>
    exact ⟨d + 1, _, rfl, .signed minus hn, fun us => .signed minus token false⟩

/-- The items of a list are read from their tokens, whatever follows. -/
theorem ItemTokens.reads {n : Nat} {vs : List Literal} {ts : List Token} (h : ItemTokens n vs ts) :
    ∃ d items, n = d + 1 ∧ Sql.literals items = .ok vs ∧
      ∀ us, ReadsItems d (ts ++ us) items us := by
  induction h with
  | one hv =>
    obtain ⟨d, t, hd, hl, hr⟩ := hv.reads
    refine ⟨d, [t], hd, ?_, fun us => .one (.constant (hr us))⟩
    exact Sql.literals_cons_eq_ok_iff.2 ⟨_, _, [], hl, rfl, rfl, rfl⟩
  | @cons v vs ts us hv _ ih =>
    obtain ⟨d, t, hd, hl, hr⟩ := hv.reads
    obtain ⟨c, items, hc, hls, hrs⟩ := ih
    obtain rfl : c = d := by omega
    refine ⟨c, t :: items, hd, ?_, fun ws => ?_⟩
    · exact Sql.literals_cons_eq_ok_iff.2 ⟨_, _, vs, hl, rfl, hls, rfl⟩
    · rw [List.append_assoc]
      exact .cons (.constant (hr _)) (hrs ws)

theorem InTokens.reads {negated : Bool} {ws : List Token} (h : InTokens negated ws)
    (us : List Token) : ReadsIn negated (ws ++ .symbol "(" :: us) us := by
  cases h with
  | plain hv => exact .plain hv
  | negated hw hv => exact .negated hw hv

/-- The keywords that a predicate does not start with where one is looked for: behind an
operator or an opening parenthesis they would start something else. -/
def openingWords : List String := ["ANY", "ALL", "SOME", "SELECT", "WITH"]

/-- Whether some tokens can stand behind an operator or an opening parenthesis. -/
def OpensFreely (ts : List Token) : Prop :=
  ∃ t us, ts = t :: us ∧ ∀ k ∈ openingWords, t.isKeyword k = false

theorem OpensFreely.append {ts : List Token} (h : OpensFreely ts) (us : List Token) :
    OpensFreely (ts ++ us) := by
  obtain ⟨t, vs, rfl, ht⟩ := h
  exact ⟨t, vs ++ us, rfl, ht⟩

theorem OpensFreely.startsWithWord {ts : List Token} (h : OpensFreely ts) (us : List Token)
    {ks : List String} (hks : ∀ k ∈ ks, k ∈ openingWords) :
    Sql.startsWithWord ks (ts ++ us) = false := by
  obtain ⟨t, vs, rfl, ht⟩ := h
  rw [Sql.startsWithWord_eq_false_iff]
  exact fun k hk => ht k (hks k hk)

theorem LiteralTokens.opensFreely {n : Nat} {v : Literal} {ts : List Token}
    (h : LiteralTokens n v ts) : OpensFreely ts := by
  cases h with
  | boolean b hv =>
    refine ⟨_, _, rfl, ?_⟩
    rw [forall_congr fun k => by rw [Token.isKeyword, hv]]
    cases b with
    | true => decide
    | false => decide
  | text s => exact ⟨_, _, rfl, fun _ _ => rfl⟩
  | number _ => exact ⟨_, _, rfl, fun _ _ => rfl⟩
  | signed minus _ => exact ⟨_, _, rfl, fun _ _ => rfl⟩

/-- A predicate starts with a token that is no keyword for something else. -/
theorem ExpressionTokens.opensFreely {n : Nat} {e : Expression} {ts : List Token}
    (h : ExpressionTokens n e ts) : OpensFreely ts := by
  induction h with
  | literal hv => exact hv.opensFreely
  | @field d name q hq =>
    refine ⟨_, _, rfl, fun k hk => ?_⟩
    cases q with
    | some c => rfl
    | none =>
      rw [Token.isKeyword, beq_eq_false_iff_ne]
      intro hname
      have hall : ∀ k ∈ openingWords, k ∈ reservedNames := by decide
      rw [hname] at hq
      exact hq rfl (hall k hk)
  | not hv _ _ =>
    refine ⟨_, _, rfl, ?_⟩
    rw [forall_congr fun k => by rw [Token.isKeyword, hv]]
    decide
  | group _ _ => exact ⟨_, _, rfl, fun _ _ => rfl⟩
  -- The other forms start as their left operand does.
  | and _ _ _ ih _ => exact ih.append _
  | or _ _ _ ih _ => exact ih.append _
  | compare op _ _ ih _ => exact ih.append _
  | member _ _ _ ih => exact ih.append _

/-- An operator between two operands is read from their tokens. -/
theorem reads_binary {d : Nat} {ts us : List Token} {l r : Node} {o : Token}
    {op : Sql.BinaryOp} {e : Expression} (ho : o.operator? = some op)
    (hl : ∀ ws, Reads (d + 1) (ts ++ ws) l ws) (hr : ∀ ws, Reads d (us ++ ws) r ws)
    (hus : ExpressionTokens (d + 1) e us) (ws : List Token) :
    Reads (d + 1) (ts ++ o :: us ++ ws) (.binary l op r) ws := by
  have hq : Sql.startsQuantifier (us ++ ws) = false := hus.opensFreely.startsWithWord ws (by decide)
  rw [List.append_assoc]
  exact .binary (hl _) ho hq (hr ws)

/-- The tokens of a predicate are read as a condition that means it, whatever follows. -/
theorem ExpressionTokens.reads {n : Nat} {e : Expression} {ts : List Token}
    (h : ExpressionTokens n e ts) :
    ∃ d t, n = d + 1 ∧ Lowers t e ∧ ∀ us, Reads d (ts ++ us) t us := by
  induction h with
  | literal hv =>
    obtain ⟨d, t, hd, hl, hr⟩ := hv.reads
    exact ⟨d, t, hd, hl, fun us => .constant (hr us)⟩
  | @field d name q hq =>
    refine ⟨d, _, rfl, .name ⟨name, q⟩, fun us => .name fun hnone => ?_⟩
    -- What a name must not be is listed once, for all places where a name may stand.
    have hne : ∀ k ∈ reservedNames, keywordSpelling name ≠ k := by
      intro k hk h
      subst h
      exact hq hnone hk
    refine ⟨fun hmem => hq hnone (List.mem_append_left _ hmem), fun hnot => ?_, fun hcase => ?_⟩
    · exact absurd hnot (hne "NOT" (by decide))
    · exact absurd hcase (hne "CASE" (by decide))
  | @not d v e ts hv _ ih =>
    obtain ⟨c, t, rfl, hl, hr⟩ := ih
    exact ⟨c + 1, _, rfl, .not hl, fun us => .not hv (hr us)⟩
  | @group d e ts ht ih =>
    obtain ⟨c, t, rfl, hl, hr⟩ := ih
    refine ⟨c + 1, _, rfl, .nested hl, fun us => ?_⟩
    have hq : Sql.startsQuery (ts ++ .symbol ")" :: us) = false :=
      ht.opensFreely.startsWithWord _ (by decide)
    rw [List.cons_append, List.append_assoc]
    exact .nested hq (hr _)
  | @and d v l r ts us hv _ hus ihl ihr =>
    obtain ⟨c, x, hc, hl, hxs⟩ := ihl
    obtain ⟨b, y, rfl, hr, hys⟩ := ihr
    cases hc
    have ho : (Token.word v none).operator? = some .and := by
      simp only [Token.operator?, Token.keyword?, hv]
    exact ⟨b + 1, _, rfl, .and hl hr, reads_binary ho hxs hys hus⟩
  | @or d v l r ts us hv _ hus ihl ihr =>
    obtain ⟨c, x, hc, hl, hxs⟩ := ihl
    obtain ⟨b, y, rfl, hr, hys⟩ := ihr
    cases hc
    have ho : (Token.word v none).operator? = some .or := by
      simp only [Token.operator?, Token.keyword?, hv]
    exact ⟨b + 1, _, rfl, .or hl hr, reads_binary ho hxs hys hus⟩
  | @compare d op l r ts us _ hus ihl ihr =>
    obtain ⟨c, x, hc, hl, hxs⟩ := ihl
    obtain ⟨b, y, rfl, hr, hys⟩ := ihr
    cases hc
    have ho : (Token.symbol (Sql.BinaryOp.compare op).symbol).operator? = some (.compare op) := by
      cases op with
      | _ => rfl
    exact ⟨b + 1, _, rfl, .compare op hl hr, reads_binary ho hxs hys hus⟩
  | @member d negated p vs ts ws us _ hws hus ih =>
    obtain ⟨c, t, hc, hl, hr⟩ := ih
    obtain ⟨b, items, rfl, hls, hrs⟩ := hus.reads
    cases hc
    refine ⟨b + 1, _, rfl, .inList negated hl hls, fun vs => ?_⟩
    simp only [List.append_assoc, List.cons_append]
    exact .inList (hr _) (hws.reads _) (hrs _)

/-- Any spelling of a predicate of the right shape compiles to it. -/
theorem compile_of_tokens {clause : String} {e : Expression} {ts : List Token}
    (ht : ExpressionTokens Sql.clauseDepth e ts) (ho : e.Ordered)
    (hw : Written ts clause.toList) : compile clause = .ok e := by
  obtain ⟨d, t, hd, hl, hr⟩ := ht.reads
  cases hd
  have hr := hr []
  rw [List.append_nil] at hr
  obtain ⟨normal, hn⟩ := hw.normalizes
  exact compile_of_lexes hn.normalizes hn.lexes hr hl ho

/-- `Not a === -.5` is the negation of a comparison with minus one half. -/
theorem compile_of_tokens_not_comparison :
    compile "Not a === -.5" =
      .ok (.not (.compare .eq (.field "a")
        (.literal (.number (.ofBits 0xBFE0000000000000))))) := by
  have hhalf : readNumber ".5".toList = .ok (.ofBits 0x3FE0000000000000) :=
    readNumber_eq_ok_iff.2 ⟨by decide +kernel, by decide +kernel⟩
  have ht : ExpressionTokens Sql.clauseDepth
      (.not (.compare .eq (.field "a") (.literal (.number (.ofBits 0xBFE0000000000000)))))
      [.word "Not" none, .word "a" none, .symbol "=", .symbol "-", .number ".5"] :=
    .not rfl (.compare .eq (.field fun _ => by decide) (.literal (.signed true hhalf)))
  have ho : (Expression.not (.compare .eq (.field "a")
      (.literal (.number (.ofBits 0xBFE0000000000000))))).Ordered := by
    simp [Expression.Ordered, Expression.isTested, Expression.isOperand, Expression.isOr,
      Expression.isAnd]
  have hnumber : Written [.number ".5"] ".5".toList :=
    .spelled (.number ((Option.all_eq_true _ _).1 (by decide)) hhalf) .nil .nil
  have hsign : Written [.symbol "-", .number ".5"] " -.5".toList :=
    .blank rfl (.sign true (.inr rfl) hnumber)
  have hequal : Comparison.ofSymbol? "===" = some .eq := rfl
  have hoperator : Written [.symbol "=", .symbol "-", .number ".5"] " === -.5".toList :=
    .blank rfl (.spelled (.comparison hequal) (.cons rfl _) hsign)
  have hname : Written [.word "a" none, .symbol "=", .symbol "-", .number ".5"]
      " a === -.5".toList :=
    .blank rfl (.spelled (.word (by decide) (List.all_eq_true.1 (by decide))) (.cons rfl _) hoperator)
  have hw : Written [.word "Not" none, .word "a" none, .symbol "=", .symbol "-", .number ".5"]
      "Not a === -.5".toList :=
    .spelled (.word (by decide) (List.all_eq_true.1 (by decide))) (.cons rfl _) hname
  exact compile_of_tokens ht ho hw

end Clause
end RecordSieve
