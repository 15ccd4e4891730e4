import RecordSieve.Clause.Lowering
import RecordSieve.Sql.Lexer
import RecordSieve.Sql.Statement
import RecordSieve.Text.Blank
/-!
# RecordSieve.Clause.Compile

From the text of a clause to its predicate: normal form, tokens, the condition of
a query, and the predicate it stands for. A clause that is more than a condition
is refused, whether it goes on with further clauses, with a set operation or with
further statements.
-/

namespace RecordSieve
namespace Clause

/-- The query a condition belongs to, up to the condition. -/
def queryStart : String := "SELECT * FROM features WHERE "

/-- The condition of a reading that is nothing but a condition. -/
def soleCondition (r : Sql.Reading) : Except CompileError Sql.Node :=
  if r.statements ≠ 1 then .error (.unsupported (.statements r.statements))
  else if r.sets ≠ "" then
    .error (.unsupported (.setOperation
      (queryStart ++ r.condition.text ++ r.selectTail ++ r.sets ++ r.queryTail)))
  else if r.selectTail ++ r.queryTail ≠ "" then
    .error (.unsupported (.beyondCondition (r.condition.text ++ r.selectTail ++ r.queryTail)))
  else .ok r.condition

/-- The condition that a clause in normal form is. -/
def conditionOfNormal (normal : List Char) : Except CompileError Sql.Node :=
  if Text.allBlank normal then .error .emptyClause
  else
    match (Sql.tokens normal).bind Sql.Reading.ofTokens? with
    | some r => soleCondition r
    | none => .error .grammar

/-- The condition of a clause, as a query expression. -/
def condition (clause : String) : Except CompileError Sql.Node :=
  match normalizeChars clause.toList with
  | .error e => .error e
  | .ok normal => conditionOfNormal normal

/-- The predicate of a clause. -/
def compile (clause : String) : Except CompileError Expression :=
  match condition clause with
  | .error e => .error e
  | .ok c => c.toExpression

end Clause
end RecordSieve
