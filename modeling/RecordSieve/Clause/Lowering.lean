import RecordSieve.Clause.Normal
import RecordSieve.Query.Expression
import RecordSieve.Sql.Node
/-!
# RecordSieve.Clause.Lowering

From a query expression to a predicate. Every node of the filter language has one
counterpart; the first node outside it, in the order of writing, decides the
error. An operator is looked at before its operands, the probe of `IN` before its
items, and an item is lowered before it is asked to be a literal.
-/

namespace RecordSieve
namespace Sql

/-- The literal a constant stands for; the suffix of a number says nothing. -/
def Value.toLiteral : Value → Except CompileError Literal
  | number token _ => (Clause.readNumber token.toList).map .number
  | text body => .ok (.text body)
  | doubleQuoted body => .ok (.text body)
  | boolean b => .ok (.boolean b)
  | null => .error (.unsupported (.literal "NULL"))
  | other t => .error (.unsupported (.literal t))

/-- A sign in front of an operand: the signed number if the operand is a number
token, and no filter otherwise. `whole` is the expression with its sign. -/
def signed (minus : Bool) (operand whole : Node) : Except CompileError Expression :=
  match operand with
  | .value (.number token _) =>
    (Clause.readNumber token.toList).map fun n => .literal (.number (if minus then -n else n))
  | _ => .error (.unsupported (.expression whole.text))

mutual

/-- The predicate of a query expression. -/
def Node.toExpression : Node → Except CompileError Expression
  | .name n => .ok (.field n.value)
  | .value v => v.toLiteral.map .literal
  | .unary .not e => e.toExpression.map .not
  | .unary .minus e => signed true e (.unary .minus e)
  | .unary .plus e => signed false e (.unary .plus e)
  | .binary l op r =>
    match op with
    | .and => do return .and (← l.toExpression) (← r.toExpression)
    | .or => do return .or (← l.toExpression) (← r.toExpression)
    | .compare c => do return .compare c (← l.toExpression) (← r.toExpression)
    | .other s => .error (.unsupported (.operator s))
  | .nested e => e.toExpression.map .group
  | .tuple es =>
    .error (.unsupported (.tuple es.length (Node.tuple es).text))
  | .inList probe items negated => do
    let p ← probe.toExpression
    let vs ← literals items
    return .member p (.ofList vs) negated
  | e => .error (.unsupported (.expression e.text))

/-- The literals that the items of a list lower to, under any parentheses. -/
def literals : List Node → Except CompileError (List Literal)
  | [] => .ok []
  | item :: items => do
    let e ← item.toExpression
    match e.ungrouped with
    | .literal v => return v :: (← literals items)
    | _ => .error (.unsupported (.listItem item.text))

end

end Sql
end RecordSieve
