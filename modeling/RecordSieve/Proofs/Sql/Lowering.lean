import RecordSieve.Clause.Lowering
import RecordSieve.Proofs.Report.Result
/-!
# RecordSieve.Proofs.Sql.Lowering

Lowering as a relation. `Lowers t e` has one rule for every form of query
expression that filters have, and `lowers_iff` says that the rules are the
function: an expression lowers exactly if a rule lets it. Inductions about lowered
expressions go over the rules, so no proof has to rule out the forms that do not
lower.

The second part is about the items of membership lists, which are signed constants
under parentheses. Their numbers are finite, because no other number token is
accepted.
-/

namespace RecordSieve

/-- The numbers of a clause are the numerals of finite doubles. -/
theorem Clause.readNumber_eq_ok_iff {token : List Char} {n : Binary64} :
    Clause.readNumber token = .ok n ↔ Numeral.read? token = some n ∧ n.isFinite = true := by
  unfold Clause.readNumber
  cases h : Numeral.read? token with
  | none => simp
  | some m =>
    by_cases hm : m.isFinite = true
    · simp only [hm, if_true, Except.ok.injEq, Option.some.injEq]
      constructor
      · intro h
        subst h
        exact ⟨rfl, hm⟩
      · exact fun hn => hn.1
    · simp only [hm, Bool.false_eq_true, if_false, Option.some.injEq, reduceCtorEq, false_iff]
      intro h
      obtain ⟨rfl, hn⟩ := h
      exact hm hn

namespace Sql

/-! ### The rules -/

/-- The number that a number token with an optional sign denotes. -/
def signedNumber (minus : Bool) (n : Binary64) : Binary64 := if minus then -n else n

/-- The operator of a sign. -/
def signOp (minus : Bool) : UnaryOp := if minus then .minus else .plus

/-- A query expression and the predicate it lowers to. -/
inductive Lowers : Node → Expression → Prop
  | name (n : Name) : Lowers (.name n) (.field n.value)
  | value {v : Value} {l : Literal} : v.toLiteral = .ok l → Lowers (.value v) (.literal l)
  | signed (minus : Bool) {token : String} {long : Bool} {n : Binary64} :
      Clause.readNumber token.toList = .ok n →
      Lowers (.unary (signOp minus) (.value (.number token long)))
        (.literal (.number (signedNumber minus n)))
  | not {t : Node} {e : Expression} : Lowers t e → Lowers (.unary .not t) (.not e)
  | and {l r : Node} {a b : Expression} :
      Lowers l a → Lowers r b → Lowers (.binary l .and r) (.and a b)
  | or {l r : Node} {a b : Expression} :
      Lowers l a → Lowers r b → Lowers (.binary l .or r) (.or a b)
  | compare (op : Comparison) {l r : Node} {a b : Expression} :
      Lowers l a → Lowers r b → Lowers (.binary l (.compare op) r) (.compare op a b)
  | nested {t : Node} {e : Expression} : Lowers t e → Lowers (.nested t) (.group e)
  | inList {p : Node} {q : Expression} {items : List Node} {vs : List Literal} (negated : Bool) :
      Lowers p q → literals items = .ok vs →
      Lowers (.inList p items negated) (.member q (.ofList vs) negated)

/-- Only a number token takes a sign. -/
theorem signed_eq_ok_iff {minus : Bool} {operand whole : Node} {e : Expression} :
    Sql.signed minus operand whole = .ok e ↔
      ∃ token long n, operand = .value (.number token long) ∧
        Clause.readNumber token.toList = .ok n ∧
        e = .literal (.number (signedNumber minus n)) := by
  unfold Sql.signed
  split
  · rename_i token long
    rw [Except.map_eq_ok_iff]
    constructor
    · intro h
      obtain ⟨n, hn, rfl⟩ := h
      exact ⟨token, long, n, rfl, hn, rfl⟩
    · intro h
      obtain ⟨_, _, n, h, hn, rfl⟩ := h
      cases h
      exact ⟨n, hn, rfl⟩
  · rename_i hne
    refine iff_of_false (by simp) ?_
    intro h
    obtain ⟨token, long, n, h, -⟩ := h
    exact hne token long h

/-- What lowers does so by one of the rules. -/
theorem lowers_of_toExpression : ∀ {t : Node} {e : Expression}, t.toExpression = .ok e → Lowers t e
  | .name n, e, h => by
      simp only [Node.toExpression, Except.ok.injEq] at h
      subst h
      exact .name n
  | .value v, e, h => by
      simp only [Node.toExpression, Except.map_eq_ok_iff] at h
      obtain ⟨l, hl, rfl⟩ := h
      exact .value hl
  | .unary .not t, e, h => by
      simp only [Node.toExpression, Except.map_eq_ok_iff] at h
      obtain ⟨f, hf, rfl⟩ := h
      exact .not (lowers_of_toExpression hf)
  | .unary .minus t, e, h => by
      simp only [Node.toExpression, signed_eq_ok_iff] at h
      obtain ⟨token, long, n, rfl, hn, rfl⟩ := h
      exact .signed true hn
  | .unary .plus t, e, h => by
      simp only [Node.toExpression, signed_eq_ok_iff] at h
      obtain ⟨token, long, n, rfl, hn, rfl⟩ := h
      exact .signed false hn
  | .binary l .and r, e, h => by
      simp only [Node.toExpression, Except.bind_eq_ok_iff, Except.pure_eq_ok_iff] at h
      obtain ⟨a, ha, b, hb, rfl⟩ := h
      exact .and (lowers_of_toExpression ha) (lowers_of_toExpression hb)
  | .binary l .or r, e, h => by
      simp only [Node.toExpression, Except.bind_eq_ok_iff, Except.pure_eq_ok_iff] at h
      obtain ⟨a, ha, b, hb, rfl⟩ := h
      exact .or (lowers_of_toExpression ha) (lowers_of_toExpression hb)
  | .binary l (.compare op) r, e, h => by
      simp only [Node.toExpression, Except.bind_eq_ok_iff, Except.pure_eq_ok_iff] at h
      obtain ⟨a, ha, b, hb, rfl⟩ := h
      exact .compare op (lowers_of_toExpression ha) (lowers_of_toExpression hb)
  | .nested t, e, h => by
      simp only [Node.toExpression, Except.map_eq_ok_iff] at h
      obtain ⟨f, hf, rfl⟩ := h
      exact .nested (lowers_of_toExpression hf)
  | .inList p items negated, e, h => by
      simp only [Node.toExpression, Except.bind_eq_ok_iff, Except.pure_eq_ok_iff] at h
      obtain ⟨q, hq, vs, hvs, rfl⟩ := h
      exact .inList negated (lowers_of_toExpression hq) hvs
  | .binary l (.other s) r, e, h => by simp [Node.toExpression] at h
  | .path _, e, h => by simp [Node.toExpression] at h
  | .tuple _, e, h => by simp [Node.toExpression] at h
  | .test _ _, e, h => by simp [Node.toExpression] at h
  | .between _ _ _ _, e, h => by simp [Node.toExpression] at h
  | .like _ _ _ _, e, h => by simp [Node.toExpression] at h
  | .other _, e, h => by simp [Node.toExpression] at h

/-- Lowering is the relation of the rules. -/
theorem lowers_iff {t : Node} {e : Expression} : Lowers t e ↔ t.toExpression = .ok e := by
  refine ⟨fun h => ?_, lowers_of_toExpression⟩
  induction h with
  | name n => simp [Node.toExpression]
  | value hv => simp [Node.toExpression, hv, Except.map]
  | signed minus hn =>
    cases minus with
    | true => simp [signOp, Node.toExpression, Sql.signed, hn, Except.map, signedNumber]
    | false => simp [signOp, Node.toExpression, Sql.signed, hn, Except.map, signedNumber]
  | not _ ih => simp [Node.toExpression, ih, Except.map]
  | and _ _ ihl ihr => simp only [Node.toExpression, ihl, ihr]; rfl
  | or _ _ ihl ihr => simp only [Node.toExpression, ihl, ihr]; rfl
  | compare op _ _ ihl ihr => simp only [Node.toExpression, ihl, ihr]; rfl
  | nested _ ih => simp [Node.toExpression, ih, Except.map]
  | inList negated _ hvs ih => simp only [Node.toExpression, ih, hvs]; rfl

theorem Lowers.unique {t : Node} {e f : Expression} (he : Lowers t e) (hf : Lowers t f) :
    e = f := by
  rw [lowers_iff] at he hf
  rw [he] at hf
  cases hf
  rfl

/-! ### What a form lowers to -/

theorem lowers_not_iff {t : Node} {e : Expression} :
    Lowers (.unary .not t) e ↔ ∃ f, e = .not f ∧ Lowers t f := by
  simp only [lowers_iff, Node.toExpression, Except.map_eq_ok_iff]
  exact ⟨fun ⟨f, hf, he⟩ => ⟨f, he, hf⟩, fun ⟨f, he, hf⟩ => ⟨f, hf, he⟩⟩

/-- A sign stands in front of a number token. -/
theorem lowers_signed_iff {minus : Bool} {t : Node} {e : Expression} :
    Lowers (.unary (signOp minus) t) e ↔
      ∃ token long n, t = .value (.number token long) ∧
        Clause.readNumber token.toList = .ok n ∧
        e = .literal (.number (signedNumber minus n)) := by
  rw [lowers_iff]
  cases minus with
  | true => exact signed_eq_ok_iff
  | false => exact signed_eq_ok_iff

theorem lowers_nested_iff {t : Node} {e : Expression} :
    Lowers (.nested t) e ↔ ∃ f, e = .group f ∧ Lowers t f := by
  simp only [lowers_iff, Node.toExpression, Except.map_eq_ok_iff]
  exact ⟨fun ⟨f, hf, he⟩ => ⟨f, he, hf⟩, fun ⟨f, he, hf⟩ => ⟨f, hf, he⟩⟩

/-- The predicate of an operator between two operands. -/
def BinaryOp.join : BinaryOp → Expression → Expression → Expression
  | .and, a, b => .and a b
  | .or, a, b => .or a b
  | .compare op, a, b => .compare op a b
  | .other _, a, _ => a

/-- Whether an operator is one of those that filters have. -/
def BinaryOp.isOfFilter : BinaryOp → Bool
  | .other _ => false
  | _ => true

theorem lowers_binary_iff {l r : Node} {op : BinaryOp} {e : Expression} :
    Lowers (.binary l op r) e ↔
      ∃ a b, e = op.join a b ∧ op.isOfFilter = true ∧ Lowers l a ∧ Lowers r b := by
  constructor
  · intro h
    cases h with
    | and hl hr => exact ⟨_, _, rfl, rfl, hl, hr⟩
    | or hl hr => exact ⟨_, _, rfl, rfl, hl, hr⟩
    | compare op hl hr => exact ⟨_, _, rfl, rfl, hl, hr⟩
  · intro h
    obtain ⟨a, b, rfl, hop, hl, hr⟩ := h
    cases op with
    | and => exact .and hl hr
    | or => exact .or hl hr
    | compare op => exact .compare op hl hr
    | other s => cases hop

theorem lowers_inList_iff {p : Node} {items : List Node} {negated : Bool} {e : Expression} :
    Lowers (.inList p items negated) e ↔
      ∃ q vs, e = .member q (.ofList vs) negated ∧ Lowers p q ∧ literals items = .ok vs := by
  constructor
  · intro h
    cases h with
    | inList negated hp hvs => exact ⟨_, _, rfl, hp, hvs⟩
  · intro h
    obtain ⟨q, vs, rfl, hp, hvs⟩ := h
    exact .inList negated hp hvs

/-! ### Items of a membership list -/

theorem literals_nil_eq_ok_iff {vs : List Literal} : literals [] = .ok vs ↔ vs = [] := by
  simp [literals, eq_comm]

/-- A list of items lowers when every item is a literal under any parentheses. -/
theorem literals_cons_eq_ok_iff {item : Node} {items : List Node} {vs : List Literal} :
    literals (item :: items) = .ok vs ↔
      ∃ f v ws, Lowers item f ∧ f.ungrouped = .literal v ∧ literals items = .ok ws ∧
        vs = v :: ws := by
  rw [literals, Except.bind_eq_ok_iff]
  constructor
  · intro h
    obtain ⟨f, hf, h⟩ := h
    split at h
    · rename_i v hv
      obtain ⟨ws, hws, h⟩ := Except.bind_eq_ok_iff.1 h
      cases h
      exact ⟨f, v, ws, lowers_of_toExpression hf, hv, hws, rfl⟩
    · exact absurd h (by simp)
  · intro h
    obtain ⟨f, v, ws, hf, hv, hws, rfl⟩ := h
    refine ⟨f, lowers_iff.1 hf, ?_⟩
    rw [hv]
    exact Except.bind_eq_ok_iff.2 ⟨ws, hws, rfl⟩

@[simp] theorem isFinite_signedNumber (minus : Bool) (n : Binary64) :
    (signedNumber minus n).isFinite = n.isFinite := by
  cases minus <;> rfl

theorem isFinite_of_toLiteral {v : Value} {n : Binary64} (h : v.toLiteral = .ok (.number n)) :
    n.isFinite = true := by
  cases v with
  | number token long =>
    obtain ⟨m, hm, hn⟩ := Except.map_eq_ok_iff.1 h
    cases hn
    exact (Clause.readNumber_eq_ok_iff.1 hm).2
  | _ => simp [Value.toLiteral] at h

/-- An expression that is a number under some parentheses is a finite one. -/
theorem Lowers.isFinite_of_ungrouped {t : Node} {e : Expression} (h : Lowers t e) {n : Binary64}
    (hu : e.ungrouped = .literal (.number n)) : n.isFinite = true := by
  induction h with
  | value hv =>
    cases hu
    exact isFinite_of_toLiteral hv
  | signed minus hm =>
    cases hu
    rw [isFinite_signedNumber]
    exact (Clause.readNumber_eq_ok_iff.1 hm).2
  | nested _ ih => exact ih hu
  | _ => cases hu

/-- The numbers of a membership list are finite. -/
theorem isFinite_of_literals {items : List Node} {vs : List Literal} {n : Binary64}
    (h : literals items = .ok vs) (hn : .number n ∈ vs) : n.isFinite = true := by
  induction items generalizing vs with
  | nil =>
    rw [literals_nil_eq_ok_iff.1 h] at hn
    simp at hn
  | cons item items ih =>
    obtain ⟨f, v, ws, hf, hv, hws, rfl⟩ := literals_cons_eq_ok_iff.1 h
    rcases List.mem_cons.1 hn with rfl | hn
    · exact hf.isFinite_of_ungrouped hv
    · exact ih hws hn

end Sql
end RecordSieve
