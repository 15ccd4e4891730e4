import RecordSieve.Proofs.Sql.Lowering
import RecordSieve.Proofs.Sql.Reader
import RecordSieve.Sql.Query
/-!
# RecordSieve.Proofs.Sql.Grammar

The grammar of conditions, as a relation between tokens and query expressions.
`Reads d ts t us` says that `t` is written by the tokens that `ts` has in front of
`us`, in at most `d` levels of nesting. It knows nothing of precedence: an operator
may have any operands. Which of several readings is meant is told by the shape of
the expression.

Words are the one place where the grammar looks ahead. A word without quotes is a
name unless a keyword form starts there, and the forms of `NOT` and `CASE` start
there only if the tokens after the keyword fit (`Level.TakesAsName`).
-/

namespace RecordSieve
namespace Sql

open Reader

/-! ### Names -/

/-- The keywords that are no names without quotes, whatever follows. -/
def neverNames : List String :=
  ["TRUE", "FALSE", "NULL", "CURRENT_CATALOG", "CURRENT_USER", "SESSION_USER", "USER",
   "CURRENT_TIMESTAMP", "CURRENT_TIME", "CURRENT_DATE", "LOCALTIME", "LOCALTIMESTAMP",
   "EXISTS", "INTERVAL", "STRUCT", "TRIM"]

/-- Whether a word without quotes is read as a name in front of some tokens: no form
of its keyword starts there. -/
def Level.TakesAsName (lv : Level) (word : String) (ts : List Token) : Prop :=
  keywordSpelling word ∉ neverNames ∧
    (keywordSpelling word = "NOT" → (lv.negation ts).isOk = false) ∧
    (keywordSpelling word = "CASE" → (lv.caseForm ts).isOk = false)

/-- Whether the token ahead is one of some keywords. -/
def startsWithWord (ks : List String) (ts : List Token) : Bool :=
  ts.head?.any fun t => ks.any fun k => t.isKeyword k

theorem startsWithWord_eq_false_iff {ks : List String} {ts : List Token} :
    startsWithWord ks ts = false ↔ ∀ k ∈ ks, ts.head?.any (Token.isKeyword k) = false := by
  cases ts with
  | nil => simp [startsWithWord]
  | cons t ts => simp [startsWithWord]

/-- Whether a parenthesis holds a query. -/
def startsQuery (ts : List Token) : Bool := startsWithWord ["SELECT", "WITH"] ts

/-- Whether an operator is followed by a quantifier. -/
def startsQuantifier (ts : List Token) : Bool := startsWithWord ["ANY", "ALL", "SOME"] ts

/-! ### Expressions -/

/-- Constants: truth values, numbers with a sign or without, and texts. -/
inductive ReadsConstant : Nat → List Token → Node → List Token → Prop
  | boolean {d : Nat} {v : String} (b : Bool) {ts : List Token} :
      keywordSpelling v = (if b then "TRUE" else "FALSE") →
      ReadsConstant d (.word v none :: ts) (.value (.boolean b)) ts
  | number {d : Nat} (token : String) (long : Bool) {ts : List Token} :
      ReadsConstant d (.number token long :: ts) (.value (.number token long)) ts
  | text {d : Nat} (body : String) {ts : List Token} :
      ReadsConstant d (.text .plain body :: ts) (.value (.text body)) ts
  | signed {d : Nat} (minus : Bool) (token : String) (long : Bool) {ts : List Token} :
      ReadsConstant (d + 1) (.symbol (if minus then "-" else "+") :: .number token long :: ts)
        (.unary (signOp minus) (.value (.number token long))) ts

/-- Items of a membership list: constants under any parentheses. -/
inductive ReadsItem : Nat → List Token → Node → List Token → Prop
  | constant {d : Nat} {ts us : List Token} {t : Node} :
      ReadsConstant d ts t us → ReadsItem d ts t us
  | nested {d : Nat} {ts us : List Token} {t : Node} :
      ReadsItem d ts t (.symbol ")" :: us) → ReadsItem (d + 1) (.symbol "(" :: ts) (.nested t) us

/-- One item or more between commas. -/
inductive ReadsItems (d : Nat) : List Token → List Node → List Token → Prop
  | one {ts us : List Token} {t : Node} : ReadsItem d ts t us → ReadsItems d ts [t] us
  | cons {ts us vs : List Token} {t : Node} {items : List Node} :
      ReadsItem d ts t (.symbol "," :: us) → ReadsItems d us items vs →
      ReadsItems d ts (t :: items) vs

/-- The words `IN` or `NOT IN` and the opening parenthesis. -/
inductive ReadsIn : Bool → List Token → List Token → Prop
  | plain {v : String} {ts : List Token} :
      keywordSpelling v = "IN" → ReadsIn false (.word v none :: .symbol "(" :: ts) ts
  | negated {w v : String} {ts : List Token} :
      keywordSpelling w = "NOT" → keywordSpelling v = "IN" →
      ReadsIn true (.word w none :: .word v none :: .symbol "(" :: ts) ts

/-- Conditions. -/
inductive Reads : Nat → List Token → Node → List Token → Prop
  | name {d : Nat} {v : String} {q : Option Char} {ts : List Token} :
      (q = none → (Level.ofDepth d).TakesAsName v ts) →
      Reads d (.word v q :: ts) (.name ⟨v, q⟩) ts
  | constant {d : Nat} {ts us : List Token} {t : Node} :
      ReadsConstant d ts t us → Reads d ts t us
  | not {d : Nat} {v : String} {ts us : List Token} {t : Node} :
      keywordSpelling v = "NOT" → Reads d ts t us →
      Reads (d + 1) (.word v none :: ts) (.unary .not t) us
  | nested {d : Nat} {ts us : List Token} {t : Node} :
      startsQuery ts = false → Reads d ts t (.symbol ")" :: us) →
      Reads (d + 1) (.symbol "(" :: ts) (.nested t) us
  | binary {d : Nat} {ts us vs : List Token} {l r : Node} {o : Token} {op : BinaryOp} :
      Reads (d + 1) ts l (o :: us) → o.operator? = some op → startsQuantifier us = false →
      Reads d us r vs → Reads (d + 1) ts (.binary l op r) vs
  | inList {d : Nat} {ts us vs ws : List Token} {p : Node} {items : List Node} {negated : Bool} :
      Reads (d + 1) ts p us → ReadsIn negated us vs → ReadsItems d vs items (.symbol ")" :: ws) →
      Reads (d + 1) ts (.inList p items negated) ws

/-! ### Lengths -/

theorem ReadsConstant.length_lt {d : Nat} {ts us : List Token} {t : Node}
    (h : ReadsConstant d ts t us) : us.length < ts.length := by
  cases h with
  | signed minus token => exact Nat.lt_succ_of_lt (Nat.lt_succ_self _)
  | _ => exact Nat.lt_succ_self _

theorem ReadsItem.length_lt {d : Nat} {ts us : List Token} {t : Node} (h : ReadsItem d ts t us) :
    us.length < ts.length := by
  induction h with
  | constant h => exact h.length_lt
  | nested _ ih =>
    simp only [List.length_cons] at ih ⊢
    omega

theorem ReadsItems.length_lt {d : Nat} {ts us : List Token} {items : List Node}
    (h : ReadsItems d ts items us) : us.length < ts.length := by
  induction h with
  | one h => exact h.length_lt
  | cons h _ ih =>
    have := h.length_lt
    simp only [List.length_cons] at this
    omega

theorem ReadsIn.length_lt {negated : Bool} {ts us : List Token} (h : ReadsIn negated ts us) :
    us.length < ts.length := by
  cases h with
  | plain _ => simp only [List.length_cons]; omega
  | negated _ _ => simp only [List.length_cons]; omega

/-- An expression is written by one token at least. -/
theorem Reads.length_lt {d : Nat} {ts us : List Token} {t : Node} (h : Reads d ts t us) :
    us.length < ts.length := by
  induction h with
  | name _ => exact Nat.lt_succ_self _
  | constant h => exact h.length_lt
  | not _ _ ih => exact Nat.lt_succ_of_lt ih
  | nested _ _ ih =>
    simp only [List.length_cons] at ih ⊢
    omega
  | binary _ _ _ _ ihl ihr =>
    simp only [List.length_cons] at ihl
    omega
  | inList _ hin hitems ih =>
    have hin := hin.length_lt
    have hitems := hitems.length_lt
    simp only [List.length_cons] at hitems
    omega

/-! ### The tokens that are left -/

theorem ReadsConstant.suffix {d : Nat} {ts us : List Token} {t : Node}
    (h : ReadsConstant d ts t us) : us <:+ ts := by
  cases h with
  | signed minus token => exact ⟨[_, _], rfl⟩
  | _ => exact ⟨[_], rfl⟩

theorem ReadsItem.suffix {d : Nat} {ts us : List Token} {t : Node} (h : ReadsItem d ts t us) :
    us <:+ ts := by
  induction h with
  | constant h => exact h.suffix
  | nested _ ih => exact (List.suffix_cons _ _).trans (ih.trans (List.suffix_cons _ _))

theorem ReadsItems.suffix {d : Nat} {ts us : List Token} {items : List Node}
    (h : ReadsItems d ts items us) : us <:+ ts := by
  induction h with
  | one h => exact h.suffix
  | cons h _ ih => exact ih.trans ((List.suffix_cons _ _).trans h.suffix)

theorem ReadsIn.suffix {negated : Bool} {ts us : List Token} (h : ReadsIn negated ts us) :
    us <:+ ts := by
  cases h with
  | plain _ => exact ⟨[_, _], rfl⟩
  | negated _ _ => exact ⟨[_, _, _], rfl⟩

theorem Reads.suffix {d : Nat} {ts us : List Token} {t : Node} (h : Reads d ts t us) :
    us <:+ ts := by
  have next : ∀ {t : Token} {us ts : List Token}, t :: us <:+ ts → us <:+ ts :=
    fun h => (List.suffix_cons _ _).trans h
  induction h with
  | name _ => exact List.suffix_cons _ _
  | constant h => exact h.suffix
  | not _ _ ih => exact ih.trans (List.suffix_cons _ _)
  | nested _ _ ih => exact (next ih).trans (List.suffix_cons _ _)
  | binary _ _ _ _ ihl ihr => exact ihr.trans (next ihl)
  | inList _ hin hitems ih => exact (next hitems.suffix).trans (hin.suffix.trans ih)

/-! ### What comes after an operand -/

/-- Whether a token may follow an operand of a condition: an operator, the end of a
parenthesis or a comma. -/
def Token.endsOperand : Token → Bool
  | .symbol s => [")", ",", "=", "==", "<>", "<", "<=", ">", ">="].contains s
  | .word v none => ["AND", "OR", "IN", "NOT"].contains (keywordSpelling v)
  | _ => false

/-- Whether some tokens may follow an operand of a condition. -/
def Follows (ts : List Token) : Prop := ∀ t ∈ ts.head?, t.endsOperand = true

theorem Follows.nil : Follows [] := nofun

theorem Follows.cons {t : Token} (h : t.endsOperand = true) (ts : List Token) :
    Follows (t :: ts) := by
  intro u hu
  cases hu
  exact h

/-- A symbol that ends no operand is not ahead. -/
theorem Follows.head_isSymbol {ts : List Token} (h : Follows ts) {s : String}
    (hs : (Token.symbol s).endsOperand = false) : ts.head?.any (Token.isSymbol s) = false := by
  cases ts with
  | nil => rfl
  | cons t ts =>
    have ht := h t rfl
    cases hb : t.isSymbol s with
    | false => exact hb
    | true =>
      rw [isSymbol_iff.1 hb, hs] at ht
      cases ht

/-- A keyword that ends no operand is not ahead. -/
theorem Follows.head_isKeyword {ts : List Token} (h : Follows ts) {k : String}
    (hk : k ∉ ["AND", "OR", "IN", "NOT"]) : ts.head?.any (Token.isKeyword k) = false := by
  cases ts with
  | nil => rfl
  | cons t ts =>
    have ht := h t rfl
    cases hb : t.isKeyword k with
    | false => exact hb
    | true =>
      cases t with
      | word v q =>
        cases q with
        | none =>
          rw [Token.isKeyword, beq_iff_eq] at hb
          rw [Token.endsOperand, hb, List.contains_iff_mem] at ht
          exact absurd ht hk
        | some c => cases hb
      | _ => cases hb

/-- The token ahead is no constant, and no quoted text. -/
theorem Follows.constant? {t : Token} {ts : List Token} (h : Follows (t :: ts)) :
    t.constant? = none := by
  have ht := h t rfl
  cases t with
  | symbol s => rfl
  | word v q =>
    cases q with
    | none =>
      simp only [Token.endsOperand, List.contains_iff_mem] at ht
      have hne : ∀ k ∈ ["AND", "OR", "IN", "NOT"], k ≠ "TRUE" ∧ k ≠ "FALSE" ∧ k ≠ "NULL" := by
        decide
      obtain ⟨h1, h2, h3⟩ := hne _ ht
      simp only [Token.constant?, if_neg h1, if_neg h2, if_neg h3]
    | some c => cases ht
  | _ => cases ht

end Sql
end RecordSieve
