import RecordSieve.Query.Expression
import RecordSieve.Query.Scalar
/-!
# RecordSieve.Query.Evaluation

Evaluating an expression against the fields of one record. Operands are
evaluated from left to right; `AND` and `OR` leave their right operand alone when
the left one decides, so an error there stays unseen.
-/

namespace RecordSieve
namespace Expression

/-- The value of an expression for a record's fields. -/
def evaluate (fields : Fields) : Expression → Except EvalError Scalar
  | literal v => .ok (.ofLiteral v)
  | field name => .ok (fields name)
  | list vs => .ok (.list vs)
  | compare op l r => do
    let a ← l.evaluate fields
    let b ← r.evaluate fields
    return .boolean (← Scalar.compare op a b)
  | and l r => do
    let a ← l.evaluate fields
    if ← a.truth .conjunct then
      let b ← r.evaluate fields
      return .boolean (← b.truth .conjunct)
    else return .boolean false
  | or l r => do
    let a ← l.evaluate fields
    if ← a.truth .disjunct then return .boolean true
    else
      let b ← r.evaluate fields
      return .boolean (← b.truth .disjunct)
  | not e => do
    let a ← e.evaluate fields
    return .boolean (!(← a.truth .negated))
  | member p set negated => do
    let a ← p.evaluate fields
    return .boolean (a.isIn set != negated)
  | group e => e.evaluate fields

/-- Whether a record satisfies an expression. -/
def holds (e : Expression) (fields : Fields) : Except EvalError Bool := do
  let v ← e.evaluate fields
  v.truth .predicate

@[simp] theorem evaluate_group (fields : Fields) (e : Expression) :
    (group e).evaluate fields = e.evaluate fields := rfl

@[simp] theorem evaluate_ungrouped (fields : Fields) (e : Expression) :
    e.ungrouped.evaluate fields = e.evaluate fields := by
  induction e with
  | group inner ih => simpa using ih
  | _ => rfl

end Expression
end RecordSieve
