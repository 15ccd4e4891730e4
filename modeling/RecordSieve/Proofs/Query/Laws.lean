import Mathlib.Data.Fintype.Option
import RecordSieve.Proofs.Query.Evaluation
/-!
# RecordSieve.Proofs.Query.Laws

Laws by which predicates can be rewritten, with errors and absent values counted.

Some rewritings change nothing at all, errors included: groups make no difference wherever
they stand, `AND` and `OR` are associative, and a negation goes into an equality or a
membership test. The other laws of logic may exchange one error for another. They are laws
about the answer of a predicate, which is a truth value or none (`Expression.answer`). The
answer of a connective is the connective of the answers, so these laws hold because they
hold of three answers, where the right one is left aside if the left one decides. Only the
order of operands needs that both of them have an answer.
-/

namespace RecordSieve

/-! ### Connectives of steps that can fail -/

section Steps

variable {ε : Type} (x y z : Except ε Bool)

theorem andM_assoc : ((x <&&> y) <&&> z) = (x <&&> (y <&&> z)) := by
  rcases x with e | (_ | _) <;> rfl

theorem orM_assoc : ((x <||> y) <||> z) = (x <||> (y <||> z)) := by
  rcases x with e | (_ | _) <;> rfl

theorem toOption_andM : (x <&&> y).toOption = (x.toOption <&&> y.toOption) := by
  rcases x with e | (_ | _) <;> rfl

theorem toOption_orM : (x <||> y).toOption = (x.toOption <||> y.toOption) := by
  rcases x with e | (_ | _) <;> rfl

theorem toOption_notM : (notM x).toOption = notM x.toOption := by
  rcases x with e | b <;> rfl

end Steps

/-! ### Connectives of answers

Truth tables over the three answers. -/

section Answers

variable (x y z : Option Bool)

theorem notM_notM : notM (notM x) = x := by decide +revert

theorem notM_andM : notM (x <&&> y) = (notM x <||> notM y) := by decide +revert

theorem notM_orM : notM (x <||> y) = (notM x <&&> notM y) := by decide +revert

theorem andM_orM : (x <&&> (y <||> z)) = ((x <&&> y) <||> (x <&&> z)) := by decide +revert

theorem orM_andM : (x <||> (y <&&> z)) = ((x <||> y) <&&> (x <||> z)) := by decide +revert

theorem andM_orM_self : (x <&&> (x <||> y)) = x := by decide +revert

theorem orM_andM_self : (x <||> (x <&&> y)) = x := by decide +revert

variable {x y}

theorem andM_comm (hx : x ≠ none) (hy : y ≠ none) : (x <&&> y) = (y <&&> x) := by
  decide +revert

theorem orM_comm (hx : x ≠ none) (hy : y ≠ none) : (x <||> y) = (y <||> x) := by
  decide +revert

end Answers

namespace Expression

/-! ### Answers -/

/-- The answer of a predicate, or nothing if it fails. -/
def answer (e : Expression) (fields : Fields) : Option Bool := (e.holds fields).toOption

section Connectives

variable (fields : Fields)

/-- Where a truth value is needed makes a difference to the error only. -/
theorem toOption_truthAt (position : BooleanPosition) (e : Expression) :
    (e.truthAt position fields).toOption = e.answer fields := by
  rw [answer, holds_eq_truthAt, truthAt, truthAt]
  cases e.evaluate fields with
  | error err => rfl
  | ok v => cases v with
    | _ => rfl

theorem answer_of_boolean {e : Expression} {x : Except EvalError Bool}
    (h : e.evaluate fields = Scalar.boolean <$> x) : e.answer fields = x.toOption := by
  rw [answer, holds_eq_truthAt, truthAt_of_boolean fields h]

theorem answer_and (l r : Expression) :
    (and l r).answer fields = (l.answer fields <&&> r.answer fields) := by
  rw [answer_of_boolean fields (evaluate_and fields l r), toOption_andM, toOption_truthAt,
    toOption_truthAt]

theorem answer_or (l r : Expression) :
    (or l r).answer fields = (l.answer fields <||> r.answer fields) := by
  rw [answer_of_boolean fields (evaluate_or fields l r), toOption_orM, toOption_truthAt,
    toOption_truthAt]

theorem answer_not (e : Expression) : (not e).answer fields = notM (e.answer fields) := by
  rw [answer_of_boolean fields (evaluate_not fields e), toOption_notM, toOption_truthAt]

/-! ### Laws that keep errors -/

theorem evaluate_and_assoc (a b c : Expression) :
    (and (and a b) c).evaluate fields = (and a (and b c)).evaluate fields := by
  rw [evaluate_and, evaluate_and, truthAt_of_boolean fields (evaluate_and fields a b),
    truthAt_of_boolean fields (evaluate_and fields b c), andM_assoc]

theorem evaluate_or_assoc (a b c : Expression) :
    (or (or a b) c).evaluate fields = (or a (or b c)).evaluate fields := by
  rw [evaluate_or, evaluate_or, truthAt_of_boolean fields (evaluate_or fields a b),
    truthAt_of_boolean fields (evaluate_or fields b c), orM_assoc]

/-- The negation of an equality is the inequality. -/
theorem evaluate_not_eq (a b : Expression) :
    (not (compare .eq a b)).evaluate fields = (compare .ne a b).evaluate fields := by
  rw [evaluate_not, truthAt, evaluate_compare, evaluate_compare]
  cases a.evaluate fields with
  | error e => rfl
  | ok v => cases b.evaluate fields with
    | _ => rfl

/-- The negation of a membership test is the negated test. -/
theorem evaluate_not_member (p : Expression) (s : ValueSet) :
    (not (member p s false)).evaluate fields = (member p s true).evaluate fields := by
  rw [evaluate_not, truthAt, evaluate_member, evaluate_member]
  cases p.evaluate fields with
  | error e => rfl
  | ok v =>
    change Except.ok (Scalar.boolean !(v.isIn s != false)) = .ok (.boolean (v.isIn s != true))
    rw [Bool.bne_false, Bool.bne_true]

end Connectives

/-- The second expression is the first one without some of its groups, of any number and
anywhere in the tree. -/
inductive LosesGroups : Expression → Expression → Prop
  | literal (v : Literal) : LosesGroups (literal v) (literal v)
  | field (name : String) : LosesGroups (field name) (field name)
  | list (vs : List Literal) : LosesGroups (list vs) (list vs)
  | compare (op : Comparison) {l m r s : Expression} (hl : LosesGroups l m)
      (hr : LosesGroups r s) : LosesGroups (compare op l r) (compare op m s)
  | and {l m r s : Expression} (hl : LosesGroups l m) (hr : LosesGroups r s) :
      LosesGroups (and l r) (and m s)
  | or {l m r s : Expression} (hl : LosesGroups l m) (hr : LosesGroups r s) :
      LosesGroups (or l r) (or m s)
  | not {e t : Expression} (h : LosesGroups e t) : LosesGroups (not e) (not t)
  | member {p q : Expression} (h : LosesGroups p q) (s : ValueSet) (negated : Bool) :
      LosesGroups (member p s negated) (member q s negated)
  | group {e t : Expression} (h : LosesGroups e t) : LosesGroups (group e) (group t)
  | ungroup {e t : Expression} (h : LosesGroups e t) : LosesGroups (group e) t

theorem LosesGroups.evaluate_eq {e t : Expression} (h : e.LosesGroups t) (fields : Fields) :
    t.evaluate fields = e.evaluate fields := by
  induction h with
  | literal v => rfl
  | field name => rfl
  | list vs => rfl
  | compare op _ _ ihl ihr => rw [evaluate_compare, ihl, ihr, evaluate_compare]
  | and _ _ ihl ihr => rw [evaluate_and, truthAt_congr ihl, truthAt_congr ihr, evaluate_and]
  | or _ _ ihl ihr => rw [evaluate_or, truthAt_congr ihl, truthAt_congr ihr, evaluate_or]
  | not _ ih => rw [evaluate_not, truthAt_congr ih, evaluate_not]
  | member _ s negated ih => rw [evaluate_member, ih, evaluate_member]
  | group _ ih => exact ih
  | ungroup _ ih => exact ih

/-! ### The laws -/

/-- The laws of logic for the fields of a record. The first five are about values, and keep
errors with their messages; the others are about answers. By the first one, groups may stand
around any operand in the others. -/
structure LawsOfLogic (fields : Fields) : Prop where
  ungrouped {e t : Expression} : e.LosesGroups t → t.evaluate fields = e.evaluate fields
  and_assoc (a b c : Expression) :
    (and (and a b) c).evaluate fields = (and a (and b c)).evaluate fields
  or_assoc (a b c : Expression) :
    (or (or a b) c).evaluate fields = (or a (or b c)).evaluate fields
  not_eq (a b : Expression) :
    (not (compare .eq a b)).evaluate fields = (compare .ne a b).evaluate fields
  not_member (p : Expression) (s : ValueSet) :
    (not (member p s false)).evaluate fields = (member p s true).evaluate fields
  not_and (a b : Expression) :
    (not (and a b)).answer fields = (or (not a) (not b)).answer fields
  not_or (a b : Expression) :
    (not (or a b)).answer fields = (and (not a) (not b)).answer fields
  not_not (a : Expression) : (not (not a)).answer fields = a.answer fields
  and_or (a b c : Expression) :
    (and a (or b c)).answer fields = (or (and a b) (and a c)).answer fields
  or_and (a b c : Expression) :
    (or a (and b c)).answer fields = (and (or a b) (or a c)).answer fields
  and_or_self (a b : Expression) : (and a (or a b)).answer fields = a.answer fields
  or_and_self (a b : Expression) : (or a (and a b)).answer fields = a.answer fields
  /-- Operands that do not fail can change places. -/
  comm {a b : Expression} : a.answer fields ≠ none → b.answer fields ≠ none →
    (and a b).answer fields = (and b a).answer fields ∧
      (or a b).answer fields = (or b a).answer fields

/-- The laws of logic hold for the fields of every record. -/
theorem laws_of_logic (fields : Fields) : LawsOfLogic fields where
  ungrouped h := h.evaluate_eq fields
  and_assoc := evaluate_and_assoc fields
  or_assoc := evaluate_or_assoc fields
  not_eq := evaluate_not_eq fields
  not_member := evaluate_not_member fields
  not_and a b := by rw [answer_not, answer_and, notM_andM, answer_or, answer_not, answer_not]
  not_or a b := by rw [answer_not, answer_or, notM_orM, answer_and, answer_not, answer_not]
  not_not a := by rw [answer_not, answer_not, notM_notM]
  and_or a b c := by
    rw [answer_and, answer_or, andM_orM, answer_or, answer_and, answer_and]
  or_and a b c := by
    rw [answer_or, answer_and, orM_andM, answer_and, answer_or, answer_or]
  and_or_self a b := by rw [answer_and, answer_or, andM_orM_self]
  or_and_self a b := by rw [answer_or, answer_and, orM_andM_self]
  comm ha hb := by
    rw [answer_and, answer_and, answer_or, answer_or]
    exact ⟨andM_comm ha hb, orM_comm ha hb⟩

/-- A record with the number zero under one name, and nothing else. -/
private def zeroField : Fields := fun name => if name = "n" then .number .zero else .absent

/-- A number is ordered before a text, which fails. -/
private def misordered : Expression := compare .lt (field "n") (literal (.text "x"))

/-- Groups are lost around an operand that fails, and the error stays. Operands that are
absent or negated change places. -/
theorem laws_of_logic_failing :
    let e := or (group (field "a")) (group (group misordered))
    let t := or (field "a") (group misordered)
    e.LosesGroups t ∧ t.evaluate zeroField = e.evaluate zeroField ∧
      e.evaluate zeroField = .error (.unordered .lt .number .string) ∧
      (field "a").answer zeroField ≠ none ∧ (not (field "b")).answer zeroField ≠ none ∧
      (and (field "a") (not (field "b"))).answer zeroField =
        (and (not (field "b")) (field "a")).answer zeroField ∧
      (or (field "a") (not (field "b"))).answer zeroField =
        (or (not (field "b")) (field "a")).answer zeroField := by
  intro e t
  have hlost : e.LosesGroups t :=
    .or (.ungroup (.field "a")) (.ungroup (.group (.compare .lt (.field "n") (.literal _))))
  have ha : (field "a").answer zeroField ≠ none := nofun
  have hb : (not (field "b")).answer zeroField ≠ none := nofun
  have laws := laws_of_logic zeroField
  exact ⟨hlost, laws.ungrouped hlost, rfl, ha, hb, laws.comm ha hb⟩

end Expression
end RecordSieve
