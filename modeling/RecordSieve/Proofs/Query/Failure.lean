import RecordSieve.Proofs.Query.Evaluation
import RecordSieve.Proofs.Query.Order
import RecordSieve.Proofs.Report.Result
/-!
# RecordSieve.Proofs.Query.Failure

Where evaluations fail, and a check of the form of an expression that rules failures out.

An evaluation fails in some part of the expression whose operands have values: an ordering
of present values without an order, or a connective with an operand that is no truth value
(`raisesIn_of_evaluate`). An expression is checked (`IsChecked`) if every operand of a
connective is a test, and so is the expression itself. The value of a test is a truth value,
so a checked expression fails in its orderings only (`IsChecked.evaluate_cases`), and not at
all if it has none (`IsChecked.exists_holds`).
-/

namespace RecordSieve
namespace Expression

/-! ### Parts -/

/-- The direct parts of an expression. -/
def operands : Expression → List Expression
  | compare _ l r | and l r | or l r => [l, r]
  | not e | group e | member e _ _ => [e]
  | literal _ | field _ | list _ => []

/-- The operands that are asked for a truth value: those of the connectives. -/
def conditions : Expression → List Expression
  | and l r | or l r => [l, r]
  | not e => [e]
  | literal _ | field _ | list _ | compare _ _ _ | member _ _ _ | group _ => []

/-- All parts of an expression, itself included. -/
def parts : Expression → List Expression
  | literal v => [literal v]
  | field name => [field name]
  | list vs => [list vs]
  | compare op l r => compare op l r :: (l.parts ++ r.parts)
  | and l r => and l r :: (l.parts ++ r.parts)
  | or l r => or l r :: (l.parts ++ r.parts)
  | not e => not e :: e.parts
  | member p s negated => member p s negated :: p.parts
  | group e => group e :: e.parts

variable {fields : Fields} {e t x : Expression} {err : EvalError} {position : BooleanPosition}

theorem mem_parts_self (e : Expression) : e ∈ e.parts := by
  cases e with
  | _ => exact List.mem_cons_self

theorem mem_operands_of_mem_conditions (h : x ∈ e.conditions) : x ∈ e.operands := by
  cases e with
  | and l r | or l r | not e => exact h
  | _ => cases h

/-- The parts of an operand are parts of the whole. -/
theorem parts_subset (h : x ∈ e.operands) : x.parts ⊆ e.parts := by
  cases e with
  | literal v | field name | list vs => cases h
  | compare op l r | and l r | or l r =>
    apply List.subset_cons_of_subset
    rw [operands, List.mem_cons, List.mem_singleton] at h
    rcases h with rfl | rfl
    · exact List.subset_append_left _ _
    · exact List.subset_append_right _ _
  | not e | member e s negated | group e =>
    obtain rfl := List.mem_singleton.1 h
    exact List.subset_cons_self _ _

/-! ### Failing parts -/

/-- An ordering fails by itself: the values of its operands are present, and there is no
order between them. -/
inductive FailsToOrder (fields : Fields) : Expression → EvalError → Prop
  | unordered {op : Comparison} {l r : Expression} {a b : Scalar} (hop : op.isOrdering = true)
      (hl : l.evaluate fields = .ok a) (hr : r.evaluate fields = .ok b) (h : a.Clash b) :
      FailsToOrder fields (compare op l r) (.unordered op a.kind b.kind)

/-- An expression fails by itself: its operands have values that it has no use for. -/
inductive Raises (fields : Fields) : Expression → EvalError → Prop
  | ordering {t : Expression} {err : EvalError} (h : FailsToOrder fields t err) :
      Raises fields t err
  /-- An operand that is neither a truth value nor absent. -/
  | notBoolean {t x : Expression} {v : Scalar} {position : BooleanPosition} {err : EvalError}
      (hx : x ∈ t.conditions) (hv : x.evaluate fields = .ok v)
      (h : v.truth position = .error err) : Raises fields t err

/-- Some part of an expression fails by itself. -/
def RaisesIn (fields : Fields) (e : Expression) (err : EvalError) : Prop :=
  ∃ t ∈ e.parts, Raises fields t err

theorem RaisesIn.of_operand (hx : x ∈ e.operands) (h : RaisesIn fields x err) :
    RaisesIn fields e err := by
  obtain ⟨t, ht, hraises⟩ := h
  exact ⟨t, parts_subset hx ht, hraises⟩

theorem Raises.raisesIn (h : Raises fields e err) : RaisesIn fields e err :=
  ⟨e, e.mem_parts_self, h⟩

/-- A condition without a truth value fails in a part of it, or makes its connective fail. -/
theorem raisesIn_of_truthAt (hx : x ∈ e.conditions)
    (ih : ∀ {err}, x.evaluate fields = .error err → RaisesIn fields x err)
    (h : x.truthAt position fields = .error err) : RaisesIn fields e err := by
  rcases Except.bind_eq_error_iff.1 h with h | ⟨v, hv, h⟩
  · exact (ih h).of_operand (mem_operands_of_mem_conditions hx)
  · exact (Raises.notBoolean hx hv h).raisesIn

/-- An evaluation that fails does so in a part that fails by itself. -/
theorem raisesIn_of_evaluate (h : e.evaluate fields = .error err) : RaisesIn fields e err := by
  induction e generalizing err with
  | literal v => cases h
  | field name => cases h
  | list vs => cases h
  | compare op l r ihl ihr =>
    rw [evaluate_compare] at h
    rcases Except.bind_eq_error_iff.1 h with h | ⟨a, ha, h⟩
    · exact (ihl h).of_operand List.mem_cons_self
    rcases Except.bind_eq_error_iff.1 h with h | ⟨b, hb, h⟩
    · exact (ihr h).of_operand (List.mem_cons_of_mem _ List.mem_cons_self)
    have herror : Scalar.compare op a b = .error err := Except.map_eq_error_iff.1 h
    cases hop : op.isOrdering with
    | true =>
      obtain ⟨hclash, rfl⟩ := (Scalar.compare_eq_error_iff hop).1 herror
      exact (Raises.ordering (.unordered hop ha hb hclash)).raisesIn
    | false =>
      rw [Scalar.compare, hop] at herror
      cases herror
  | and l r ihl ihr =>
    rw [evaluate_and] at h
    rcases Except.bind_eq_error_iff.1 (Except.map_eq_error_iff.1 h) with h | ⟨b, _, h⟩
    · exact raisesIn_of_truthAt List.mem_cons_self ihl h
    cases b with
    | true => exact raisesIn_of_truthAt (List.mem_cons_of_mem _ List.mem_cons_self) ihr h
    | false => cases h
  | or l r ihl ihr =>
    rw [evaluate_or] at h
    rcases Except.bind_eq_error_iff.1 (Except.map_eq_error_iff.1 h) with h | ⟨b, _, h⟩
    · exact raisesIn_of_truthAt List.mem_cons_self ihl h
    cases b with
    | true => cases h
    | false => exact raisesIn_of_truthAt (List.mem_cons_of_mem _ List.mem_cons_self) ihr h
  | not x ih =>
    rw [evaluate_not] at h
    have herror : x.truthAt .negated fields = .error err :=
      Except.map_eq_error_iff.1 (Except.map_eq_error_iff.1 h)
    exact raisesIn_of_truthAt List.mem_cons_self ih herror
  | member p s negated ih =>
    rw [evaluate_member] at h
    exact (ih (Except.map_eq_error_iff.1 h)).of_operand List.mem_cons_self
  | group x ih => exact (ih h).of_operand List.mem_cons_self

/-! ### Tests -/

/-- Whether an expression has a truth value by its form, under any number of groups. -/
def isTest : Expression → Bool
  | literal (.boolean _) | compare _ _ _ | and _ _ | or _ _ | not _ | member _ _ _ => true
  | literal (.number _) | literal (.text _) | field _ | list _ => false
  | group e => e.isTest

theorem eq_boolean_of_map {answer : Except EvalError Bool} {v : Scalar}
    (h : Scalar.boolean <$> answer = .ok v) : ∃ b, v = .boolean b := by
  obtain ⟨b, -, hb⟩ := Except.map_eq_ok_iff.1 h
  exact ⟨b, hb⟩

/-- The value of a test, if it has one, is a truth value. -/
theorem eq_boolean_of_isTest {v : Scalar} (h : e.isTest = true)
    (hv : e.evaluate fields = .ok v) : ∃ b, v = .boolean b := by
  induction e with
  | literal l =>
    cases l with
    | boolean b => exact ⟨b, (Except.ok.inj hv).symm⟩
    | _ => cases h
  | field name => cases h
  | list vs => cases h
  | compare op l r =>
    rw [evaluate_compare] at hv
    obtain ⟨a, -, hv⟩ := Except.bind_eq_ok_iff.1 hv
    obtain ⟨b, -, hv⟩ := Except.bind_eq_ok_iff.1 hv
    exact eq_boolean_of_map hv
  | and l r =>
    rw [evaluate_and] at hv
    exact eq_boolean_of_map hv
  | or l r =>
    rw [evaluate_or] at hv
    exact eq_boolean_of_map hv
  | not x =>
    rw [evaluate_not] at hv
    exact eq_boolean_of_map hv
  | member p s negated =>
    rw [evaluate_member] at hv
    obtain ⟨a, -, ha⟩ := Except.map_eq_ok_iff.1 hv
    exact ⟨_, ha⟩
  | group x ih => exact ih h hv

/-! ### Checked expressions -/

/-- The check: an expression and all operands of its connectives are tests. -/
structure IsChecked (e : Expression) : Prop where
  root : e.isTest = true
  operands : ∀ t ∈ e.parts, ∀ x ∈ t.conditions, x.isTest = true

instance (e : Expression) : Decidable e.IsChecked :=
  decidable_of_iff (e.isTest = true ∧ ∀ t ∈ e.parts, ∀ x ∈ t.conditions, x.isTest = true)
    ⟨fun h => ⟨h.1, h.2⟩, fun h => ⟨h.root, h.operands⟩⟩

/-- A checked expression has a truth value, or an ordering in it fails and so does the whole
expression, with the same error. -/
theorem IsChecked.evaluate_cases (h : e.IsChecked) (fields : Fields) :
    (∃ b, e.evaluate fields = .ok (.boolean b)) ∨
      ∃ t ∈ e.parts, ∃ err, t.FailsToOrder fields err ∧ e.evaluate fields = .error err := by
  cases hvalue : e.evaluate fields with
  | ok v =>
    obtain ⟨b, rfl⟩ := eq_boolean_of_isTest h.root hvalue
    exact .inl ⟨b, rfl⟩
  | error err =>
    obtain ⟨t, ht, hraises⟩ := raisesIn_of_evaluate hvalue
    cases hraises with
    | ordering hfails => exact .inr ⟨t, ht, err, hfails, rfl⟩
    | notBoolean hx hv htruth =>
      -- A condition of a checked expression is a test, whose value is a truth value.
      obtain ⟨b, rfl⟩ := eq_boolean_of_isTest (h.operands t ht _ hx) hv
      cases htruth

/-- A checked expression without orderings holds or does not hold, whatever the fields. -/
theorem IsChecked.exists_holds (h : e.IsChecked)
    (heq : ∀ op l r, compare op l r ∈ e.parts → op = .eq ∨ op = .ne) (fields : Fields) :
    ∃ b, e.holds fields = .ok b := by
  rcases h.evaluate_cases fields with ⟨b, hb⟩ | ⟨t, ht, err, hfails, -⟩
  · refine ⟨b, ?_⟩
    rw [holds_eq_truthAt, truthAt, hb]
    rfl
  · obtain ⟨hop, -, -, -⟩ := hfails
    rcases heq _ _ _ ht with rfl | rfl
    · cases hop
    · cases hop

end Expression
end RecordSieve
