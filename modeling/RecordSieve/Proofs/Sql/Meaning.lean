import RecordSieve.Proofs.Query.Lookup
import RecordSieve.Proofs.Sql.Lowering
import RecordSieve.Query.Evaluation
/-!
# RecordSieve.Proofs.Sql.Meaning

What a query expression means for a record, read off the expression as it was
written: operands from left to right, `AND` and `OR` cut short, comparisons by the
values themselves, a membership test by going through the items one after another.
Nothing of the compiled form is used, neither its sets nor its evaluator.

The main result is `holds_eq_admits`: a lowered expression tells of every record
what the written one does, errors included.
-/

namespace RecordSieve
namespace Scalar

/-! ### Values side by side -/

/-- Whether two values are of one kind and equal. A NaN equals nothing. -/
def equals : Scalar → Scalar → Bool
  | number a, number b => !a.isNaN && !b.isNaN && decide (a.key = b.key)
  | text s, text t => decide (s = t)
  | boolean a, boolean b => decide (a = b)
  | _, _ => false

/-- Whether the first value comes before the second one of its kind: numbers by
value, texts by code points, false before true. -/
def precedes : Scalar → Scalar → Bool
  | number a, number b => !a.isNaN && !b.isNaN && decide (a.key < b.key)
  | text s, text t => decide (s < t)
  | boolean a, boolean b => !a && b
  | _, _ => false

/-- The answer of an ordering: none holds of an absent value, and values of
different kinds, or lists, have no order. -/
def ordered (op : Comparison) (l r : Scalar) (answer : Bool) : Except EvalError Bool :=
  if l = absent ∨ r = absent then .ok false
  else if l.kind = r.kind ∧ l.kind ≠ .list then .ok answer
  else .error (.unordered op l.kind r.kind)

/-- Whether two values stand in the relation an operator names. -/
def relates (op : Comparison) (l r : Scalar) : Except EvalError Bool :=
  match op with
  | .eq => .ok (equals l r)
  | .ne => .ok (!equals l r)
  | .lt => ordered .lt l r (precedes l r)
  | .le => ordered .le l r (precedes l r || equals l r)
  | .gt => ordered .gt l r (precedes r l)
  | .ge => ordered .ge l r (precedes r l || equals l r)

/-- A value where a truth value is needed; an absent one counts as false. -/
def asTruth (position : BooleanPosition) : Scalar → Except EvalError Bool
  | boolean b => .ok b
  | absent => .ok false
  | v => .error (.notBoolean position v.kind)

theorem truth_eq_asTruth (position : BooleanPosition) (s : Scalar) :
    s.truth position = s.asTruth position := by
  cases s <;> rfl

theorem same_eq_equals (l r : Scalar) : same l r = equals l r := by
  cases l <;> cases r <;> simp [same, equals, Binary64.numEq, Bool.beq_eq_decide_eq]

/-- The six answers about two values in a known order, from whether one comes before
the other and whether they are equal. -/
theorem holds_eq_answer {o : Ordering} {before equal after : Bool}
    (hb : before = decide (o = .lt)) (he : equal = decide (o = .eq))
    (ha : after = decide (o = .gt)) (op : Comparison) :
    op.holds o =
      match op with
      | .eq => equal
      | .ne => !equal
      | .lt => before
      | .le => before || equal
      | .gt => after
      | .ge => after || equal := by
  subst hb he ha
  cases op <;> cases o <;> rfl

/-- An ordering of two values whose order is known. -/
theorem relates_eq_holds (op : Comparison) {o : Ordering} (l r : Scalar) (hl : l ≠ absent)
    (hr : r ≠ absent) (hk : l.kind = r.kind) (hn : l.kind ≠ .list)
    (hb : precedes l r = decide (o = .lt)) (he : equals l r = decide (o = .eq))
    (ha : precedes r l = decide (o = .gt)) : relates op l r = .ok (op.holds o) := by
  have hordered : ∀ (p : Comparison) (answer : Bool), ordered p l r answer = .ok answer := by
    intro p answer
    rw [ordered, if_neg (by simp [hl, hr]), if_pos ⟨hk, hn⟩]
  rw [holds_eq_answer hb he ha]
  cases op <;> simp only [relates, hordered]

theorem compare_int_iff (a b : Int) :
    (Ord.compare a b = .lt ↔ a < b) ∧ (Ord.compare a b = .eq ↔ a = b) ∧
      (Ord.compare a b = .gt ↔ b < a) := by
  refine ⟨compareOfLessAndEq_eq_lt, compareOfLessAndEq_eq_eq Int.le_refl Int.not_le, ?_⟩
  exact compareOfLessAndEq_eq_gt Int.le_antisymm Int.le_total Int.not_le a b

theorem compare_string_iff (s t : String) :
    (Ord.compare s t = .lt ↔ s < t) ∧ (Ord.compare s t = .eq ↔ s = t) ∧
      (Ord.compare s t = .gt ↔ t < s) := by
  refine ⟨compareOfLessAndEq_eq_lt, compareOfLessAndEq_eq_eq String.le_refl String.not_le, ?_⟩
  exact compareOfLessAndEq_eq_gt String.le_antisymm String.le_total String.not_le s t

/-- The order of two values that have one decides the relations between them. -/
theorem relates_of_order_some {l r : Scalar} {o : Ordering} (h : order l r = .some o)
    (op : Comparison) : relates op l r = .ok (op.holds o) := by
  cases l with
  | absent => simp [order] at h
  | list vs => cases r <;> simp [order] at h
  | number a =>
    cases r with
    | number b =>
      simp only [order, Binary64.compare?] at h
      split at h
      · rename_i o' ho
        cases h
        -- Two numbers have an order exactly if none of them is a NaN.
        by_cases hnan : (a.isNaN || b.isNaN) = true
        · simp [hnan] at ho
        · simp only [hnan, Bool.false_eq_true, if_false, Option.some.injEq] at ho
          simp only [Bool.or_eq_true, not_or, Bool.not_eq_true] at hnan
          obtain ⟨hlt, heq, hgt⟩ := compare_int_iff a.key b.key
          subst ho
          refine relates_eq_holds op (number a) (number b) nofun nofun rfl nofun ?_ ?_ ?_
          · simp [precedes, hnan, hlt]
          · simp [equals, hnan, heq]
          · simp [precedes, hnan, hgt]
      · cases h
    | _ => simp [order] at h
  | text s =>
    cases r with
    | text t =>
      cases h
      obtain ⟨hlt, heq, hgt⟩ := compare_string_iff s t
      refine relates_eq_holds op (text s) (text t) nofun nofun rfl nofun ?_ ?_ ?_
      · simp only [precedes, hlt]
      · simp only [equals, heq]
      · simp only [precedes, hgt]
    | _ => simp [order] at h
  | boolean a =>
    cases r with
    | boolean b =>
      cases h
      refine relates_eq_holds op (boolean a) (boolean b) nofun nofun rfl nofun ?_ ?_ ?_
      all_goals cases a <;> cases b <;> rfl
    | _ => simp [order] at h

/-- Values without an order: one is absent, or they are numbers and one is a NaN. -/
theorem cases_of_order_none {l r : Scalar} (h : order l r = .none) :
    (l = absent ∨ r = absent) ∨
      (l.kind = r.kind ∧ l.kind ≠ .list) ∧
        precedes l r = false ∧ precedes r l = false ∧ equals l r = false := by
  cases l with
  | absent => exact .inl (.inl rfl)
  | number a =>
    cases r with
    | absent => exact .inl (.inr rfl)
    | number b =>
      refine .inr ⟨⟨rfl, nofun⟩, ?_⟩
      cases ha : a.isNaN with
      | true => simp [precedes, equals, ha]
      | false =>
        cases hb : b.isNaN with
        | true => simp [precedes, equals, hb]
        | false => simp [order, Binary64.compare?, ha, hb] at h
    | _ => simp [order] at h
  | _ =>
    cases r with
    | absent => exact .inl (.inr rfl)
    | _ => simp [order] at h

/-- Without an order, no ordering holds. -/
theorem relates_of_order_none {l r : Scalar} (h : order l r = .none) {op : Comparison}
    (hop : op.isOrdering = true) : relates op l r = .ok false := by
  rcases cases_of_order_none h with habsent | ⟨hkind, hlr, hrl, heq⟩
  · cases op with
    | eq => cases hop
    | ne => cases hop
    | _ => simp only [relates, ordered, if_pos habsent]
  · have hordered : ∀ p : Comparison, ordered p l r false = .ok false := by
      intro p
      rw [ordered, if_pos hkind, ite_self]
    cases op with
    | eq => cases hop
    | ne => cases hop
    | _ => simp only [relates, hlr, hrl, heq, Bool.or_false, hordered]

/-- Values that are not of one ordered kind stand in no relation of order. -/
theorem relates_of_order_mismatch {l r : Scalar} (h : order l r = .mismatch) {op : Comparison}
    (hop : op.isOrdering = true) : relates op l r = .error (.unordered op l.kind r.kind) := by
  have habsent : ¬(l = absent ∨ r = absent) := by
    intro h
    rcases h with rfl | rfl
    · simp [order] at h
    · cases l <;> simp [order] at h
  have hkind : ¬(l.kind = r.kind ∧ l.kind ≠ .list) := by
    intro h
    obtain ⟨hk, hn⟩ := h
    cases l <;> cases r <;> simp_all [order, kind]
    split at h <;> cases h
  cases op with
  | eq => cases hop
  | ne => cases hop
  | _ => simp only [relates, ordered, if_neg habsent, if_neg hkind]

/-- Comparing is deciding the relation that the operator names. -/
theorem compare_eq_relates (op : Comparison) (l r : Scalar) : compare op l r = relates op l r := by
  by_cases hop : op.isOrdering = true
  · rw [compare, if_pos hop]
    cases ho : order l r with
    | some o => exact (relates_of_order_some ho op).symm
    | none => exact (relates_of_order_none ho hop).symm
    | mismatch => exact (relates_of_order_mismatch ho hop).symm
  · rw [compare, if_neg hop, same_eq_equals]
    cases op with
    | eq => rfl
    | ne => rfl
    | _ => exact absurd rfl hop

end Scalar

namespace Sql

/-! ### Written expressions -/

/-- The value that a written constant stands for. -/
def Value.meaning : Value → Scalar
  | number token _ =>
    match Numeral.read? token.toList with
    | some n => .number n
    | none => .absent
  | text body => .text body
  | doubleQuoted body => .text body
  | boolean b => .boolean b
  | null => .absent
  | other _ => .absent

mutual

/-- The value of a written expression for the fields of a record. Forms that no
filter has are absent. -/
def Node.meaning (fields : Fields) : Node → Except EvalError Scalar
  | .name n => .ok (fields n.value)
  | .value v => .ok v.meaning
  | .unary .not t => do
    let a ← t.meaning fields
    return .boolean (!(← a.asTruth .negated))
  | .unary .plus t => t.meaning fields
  | .unary .minus t => do
    match ← t.meaning fields with
    | .number n => return .number (-n)
    | _ => return .absent
  | .binary l op r =>
    match op with
    | .and => do
      let a ← l.meaning fields
      if ← a.asTruth .conjunct then
        let b ← r.meaning fields
        return .boolean (← b.asTruth .conjunct)
      else return .boolean false
    | .or => do
      let a ← l.meaning fields
      if ← a.asTruth .disjunct then return .boolean true
      else
        let b ← r.meaning fields
        return .boolean (← b.asTruth .disjunct)
    | .compare op => do
      let a ← l.meaning fields
      let b ← r.meaning fields
      return .boolean (← Scalar.relates op a b)
    | .other _ => return .absent
  | .nested t => t.meaning fields
  | .inList p items negated => do
    let a ← p.meaning fields
    return .boolean ((← anyEquals fields a items) != negated)
  | _ => .ok .absent

/-- Whether one of the items of a list equals a value, going through them in the
order of writing up to the first that does. -/
def anyEquals (fields : Fields) (probe : Scalar) : List Node → Except EvalError Bool
  | [] => .ok false
  | item :: items => do
    if probe.equals (← item.meaning fields) then return true
    else anyEquals fields probe items

end

/-- Whether a record satisfies a written expression. -/
def Node.admits (t : Node) (fields : Fields) : Except EvalError Bool := do
  let v ← t.meaning fields
  v.asTruth .predicate

/-- A constant means the literal it lowers to. -/
theorem Value.meaning_of_toLiteral {v : Value} {l : Literal} (h : v.toLiteral = .ok l) :
    v.meaning = .ofLiteral l := by
  cases v with
  | number token long =>
    obtain ⟨n, hn, rfl⟩ := Except.map_eq_ok_iff.1 h
    simp only [Value.meaning, (Clause.readNumber_eq_ok_iff.1 hn).1, Scalar.ofLiteral]
  | text body => cases h; rfl
  | doubleQuoted body => cases h; rfl
  | boolean b => cases h; rfl
  | null => cases h
  | other t => cases h

theorem meaning_signed (minus : Bool) {token : String} (long : Bool) {n : Binary64}
    (fields : Fields) (h : Clause.readNumber token.toList = .ok n) :
    Node.meaning fields (.unary (signOp minus) (.value (.number token long))) =
      .ok (.number (signedNumber minus n)) := by
  have hv : (Value.number token long).meaning = .number n := by
    simp only [Value.meaning, (Clause.readNumber_eq_ok_iff.1 h).1]
  cases minus with
  | true => simp only [signOp, if_true, Node.meaning, hv]; rfl
  | false => simp only [signOp, Bool.false_eq_true, if_false, Node.meaning, hv]; rfl

/-- What lowers to a literal under any parentheses means this literal, whatever the
record is. -/
theorem Lowers.meaning_of_ungrouped {t : Node} {e : Expression} {v : Literal} (h : Lowers t e)
    (hu : e.ungrouped = .literal v) (fields : Fields) :
    t.meaning fields = .ok (.ofLiteral v) := by
  induction h with
  | value hv =>
    cases hu
    rw [Node.meaning, Value.meaning_of_toLiteral hv]
  | signed minus hn =>
    cases hu
    exact meaning_signed minus _ fields hn
  | nested _ ih => exact ih hu
  | _ => cases hu

/-- Going through the items finds what the set of their literals holds. -/
theorem anyEquals_eq_isIn {items : List Node} {vs : List Literal} (h : literals items = .ok vs)
    (fields : Fields) (probe : Scalar) :
    anyEquals fields probe items = .ok (probe.isIn (.ofList vs)) := by
  have hvs : ∀ n, Literal.number n ∈ vs → n.isNaN = false :=
    fun n hn => Binary64.isNaN_of_isFinite (isFinite_of_literals h hn)
  rw [Scalar.isIn_ofList hvs]
  clear hvs
  -- The search through the index is a search through the literals in order, and one
  -- literal is evaluated after the other.
  induction items generalizing vs with
  | nil =>
    rw [literals_nil_eq_ok_iff.1 h]
    rfl
  | cons item items ih =>
    obtain ⟨e, v, ws, he, hv, hws, rfl⟩ := literals_cons_eq_ok_iff.1 h
    rw [anyEquals, he.meaning_of_ungrouped hv fields, ih hws, List.any_cons, Scalar.same_eq_equals]
    show (if probe.equals (.ofLiteral v) = true then _ else _) = _
    cases probe.equals (.ofLiteral v) with
    | true => rfl
    | false => rfl

/-- The compiled expression has the value of the written one, error for error. -/
theorem Lowers.evaluate_eq_meaning {t : Node} {e : Expression} (h : Lowers t e) (fields : Fields) :
    e.evaluate fields = t.meaning fields := by
  induction h with
  | name n => rfl
  | value hv => rw [Node.meaning, Value.meaning_of_toLiteral hv, Expression.evaluate]
  | signed minus hn => rw [meaning_signed minus _ fields hn]; rfl
  | not _ ih => simp only [Expression.evaluate, Node.meaning, ih, Scalar.truth_eq_asTruth]
  | and _ _ ihl ihr =>
    simp only [Expression.evaluate, Node.meaning, ihl, ihr, Scalar.truth_eq_asTruth]
  | or _ _ ihl ihr =>
    simp only [Expression.evaluate, Node.meaning, ihl, ihr, Scalar.truth_eq_asTruth]
  | compare op _ _ ihl ihr =>
    simp only [Expression.evaluate, Node.meaning, ihl, ihr, Scalar.compare_eq_relates]
  | nested _ ih => rw [Expression.evaluate, Node.meaning, ih]
  | inList negated _ hvs ih =>
    simp only [Expression.evaluate, Node.meaning, ih, anyEquals_eq_isIn hvs]
    rfl

/-- Lowering keeps the meaning: of every record the predicate tells what the written
expression does, be it an answer or an error. -/
theorem holds_eq_admits {t : Node} {e : Expression} (h : t.toExpression = .ok e) (fields : Fields) :
    e.holds fields = t.admits fields := by
  simp only [Expression.holds, Node.admits, (lowers_of_toExpression h).evaluate_eq_meaning,
    Scalar.truth_eq_asTruth]

/-- A NaN is not among the items, which are a negative zero and a text under
parentheses; the second operand has an order to decide that does not exist. -/
theorem holds_eq_admits_nan_probe :
    let t : Node := .binary
      (.inList (.name ⟨"a", none⟩)
        [.unary .minus (.value (.number "0")), .nested (.value (.text "x"))] true)
      .and (.binary (.name ⟨"a", none⟩) (.compare .lt) (.value (.doubleQuoted "x")))
    let fields : Fields := fun _ => .number .nan
    ∃ e, t.toExpression = .ok e ∧ e.holds fields = t.admits fields ∧
      t.admits fields = .error (.unordered .lt .number .string) := by
  intro t fields
  exact ⟨_, rfl, holds_eq_admits rfl fields, rfl⟩

end Sql
end RecordSieve
