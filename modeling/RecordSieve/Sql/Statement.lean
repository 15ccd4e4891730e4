import RecordSieve.Sql.Query
/-!
# RecordSieve.Sql.Statement

Reading a clause as the condition of a query, together with whatever follows it:
further clauses of that query and further statements. Only the condition makes a
filter, so of the rest it is enough to know its printed form, or how many
statements there are.

Fifty expressions, queries and statements may be open at once, one inside the
other; the statement and the query around a clause are two of them.
-/

namespace RecordSieve
namespace Sql

open Reader

/-- How many expressions and queries of a clause may be open at once. -/
def clauseDepth : Nat := 48

/-- A clause read as the condition of a query. -/
structure Reading where
  /-- The condition. -/
  condition : Node
  /-- The printed clauses between the condition and any set operation. -/
  selectTail : String
  /-- The printed set operations. -/
  sets : String
  /-- The printed clauses at the end. -/
  queryTail : String
  /-- The number of statements, the query with the condition included. -/
  statements : Nat

/-! ### Other statements -/

/-- Reads a condition on rows, if there is one. -/
def rowCondition (lv : Level) : Reader Unit := do
  if ← eatWord "WHERE" then let _ ← lv.text

/-- Reads a statement that removes a table or the like, after its keyword. -/
def dropStatement : Reader Unit := do
  match ← eatOneOf ["TABLE", "VIEW", "INDEX", "SCHEMA", "DATABASE", "SEQUENCE", "ROLE", "STAGE"] with
  | none => fail
  | some _ =>
    let _ ← eatWords ["IF", "EXISTS"]
    let _ ← commaList readPath
    let _ ← eatOneOf ["CASCADE", "RESTRICT"]
    let _ ← eatWord "PURGE"

/-- Reads a statement that adds rows, after its keyword. -/
def insertStatement (lv : Level) : Reader Unit := do
  let _ ← eatWord "INTO"
  let _ ← eatWord "TABLE"
  let _ ← readPath
  let _ ← attempt (parenthesized (commaList readName))
  if ← eatWords ["DEFAULT", "VALUES"] then return
  let _ ← lv.query

/-- Reads a statement that changes rows, after its keyword. -/
def updateStatement (lv : Level) : Reader Unit := do
  let _ ← lv.source
  expectWord "SET"
  let _ ← commaList (do
    let _ ← readPath
    expect "="
    lv.text)
  rowCondition lv

/-- Reads a statement that makes a table, after its keywords. -/
def createTableStatement (lv : Level) : Reader Unit := do
  let _ ← eatWords ["IF", "NOT", "EXISTS"]
  let _ ← readPath
  if ← eatWord "AS" then let _ ← lv.query
  else
    let _ ← parenthesized (commaList (do
      let _ ← readName
      let _ ← readDataType
      let _ ← eatWords ["PRIMARY", "KEY"]
      let _ ← eatWords ["NOT", "NULL"]
      eatWord "UNIQUE"))
    if ← eatWord "AS" then let _ ← lv.query

/-- Whether a statement ahead is a query. -/
def atQueryStart : Reader Bool := do
  match ← peek with
  | some (.symbol s) => return s == "("
  | some t => return t.keyword?.any ["SELECT", "WITH", "VALUES", "FROM"].contains
  | none => return false

/-- Reads one statement. -/
def readStatement (lv : Level) : Reader Unit := do
  if ← atQueryStart then let _ ← lv.query
  else if ← eatWord "DROP" then dropStatement
  else if ← eatWord "DELETE" then
    let _ ← eatWord "FROM"
    let _ ← lv.sources
    rowCondition lv
  else if ← eatWord "INSERT" then insertStatement lv
  else if ← eatWord "UPDATE" then updateStatement lv
  else if ← eatWord "TRUNCATE" then
    let _ ← eatWord "TABLE"
    let _ ← commaList readPath
  else if ← eatWords ["CREATE", "TABLE"] then createTableStatement lv
  else if ← eatWord "BEGIN" then let _ ← eatOneOf ["TRANSACTION", "WORK"]
  else if ← eatWords ["START", "TRANSACTION"] then return
  else if (← eatOneOf ["COMMIT", "ROLLBACK", "END"]).isSome then
    let _ ← eatOneOf ["TRANSACTION", "WORK"]
  else fail

/-- Consumes statement separators; whether there was one. -/
def separators : Nat → Reader Bool
  | 0 => return false
  | budget + 1 => do
    if ← eat ";" then
      let _ ← separators budget
      return true
    else return false

/-- Counts the statements after the first, up to the end of the tokens. Between
two statements there must be a separator; the keyword `END` in its place ends
the reading, whatever follows. -/
def moreStatements (lv : Level) : Nat → Reader Nat
  | 0 => fail
  | budget + 1 => do
    let separated ← separators (← get).length
    if (← get).isEmpty then return 0
    else if separated then
      readStatement lv
      return (← moreStatements lv budget) + 1
    else if ← atWord "END" then return 0
    else fail

/-- Reads a clause. -/
def readClause : Reader Reading := do
  let lv := Level.ofDepth clauseDepth
  let condition ← lv.expr Strength.none
  let selectTail ← lv.selectTail
  let sets ← lv.setOperations ((← get).length + 1)
  let queryTail ← lv.queryTail
  let more ← moreStatements (Level.ofDepth (clauseDepth + 1)) ((← get).length + 1)
  return ⟨condition, selectTail, sets, queryTail, more + 1⟩

/-- The reading of a list of tokens, if it has one. -/
def Reading.ofTokens? (ts : List Token) : Option Reading :=
  match readClause ts with
  | .ok (r, _) => some r
  | .error _ => none

end Sql
end RecordSieve
