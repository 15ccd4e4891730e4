import RecordSieve.Sql.DataType
/-!
# RecordSieve.Sql.Form

Expressions that start with a keyword or a function name: `CASE`, `CAST`,
`EXISTS`, `INTERVAL`, calls and their relatives. Filters use none of them, so
each is read only as its printed form.

All readers here take a `Level`, the readers of whole expressions and queries one
nesting step further in.
-/

namespace RecordSieve
namespace Sql

open Reader

/-- How loosely an operator binds; a reader of operands stops before operators
that bind no tighter than its own strength. -/
abbrev Strength := Nat

namespace Strength

/-- Weaker than every operator. -/
def none : Strength := 0
def or : Strength := 5
def and : Strength := 10
def not : Strength := 15
def arrow : Strength := 16
def is : Strength := 17
def like : Strength := 19
/-- Comparisons, `IN` and `BETWEEN` share one level. -/
def compare : Strength := 20
def pipe : Strength := 21
def caret : Strength := 22
def ampersand : Strength := 23
def xor : Strength := 24
def sum : Strength := 30
def product : Strength := 40
def zone : Strength := 41
def cast : Strength := 50
def point : Strength := 100

end Strength

/-- The readers one nesting step further in. -/
structure Level where
  /-- Reads an expression up to an operator no stronger than the given one. -/
  expr : Strength → Reader Node
  /-- Reads a query as its printed form. -/
  query : Reader String

namespace Level

/-- Reads a whole expression as its printed form. -/
def text (lv : Level) : Reader String := do return (← lv.expr Strength.none).text

/-- Whether a query is ahead. -/
def atQuery : Reader Bool := do
  if ← atWord "SELECT" then return true else atWord "WITH"

/-! ### Sort orders and windows -/

/-- Reads one item of a sort order. -/
def sortItem (lv : Level) : Reader String := do
  let e ← lv.text
  let direction ← eatOneOf ["ASC", "DESC"]
  let nulls ←
    if ← eatWords ["NULLS", "FIRST"] then pure (some "NULLS FIRST")
    else if ← eatWords ["NULLS", "LAST"] then pure (some "NULLS LAST")
    else pure none
  return e ++ spaced direction ++ spaced nulls

/-- Reads a sort order after its keywords. -/
def sortItems (lv : Level) : Reader String := do return commaJoined (← commaList lv.sortItem)

/-- Reads whole expressions between commas. -/
def texts (lv : Level) : Reader String := do return commaJoined (← commaList lv.text)

/-- Reads one bound of a window frame. -/
def frameBound (lv : Level) : Reader String := do
  if ← eatWords ["CURRENT", "ROW"] then return "CURRENT ROW"
  let extent ← if ← eatWord "UNBOUNDED" then pure "UNBOUNDED" else lv.text
  match ← eatOneOf ["PRECEDING", "FOLLOWING"] with
  | some side => return extent ++ " " ++ side
  | none => fail

/-- Reads a window between its parentheses, after the opening one. -/
def window (lv : Level) : Reader String := do
  let base ←
    match ← peek with
    | some (.word v none) =>
      if ["PARTITION", "ORDER", "ROWS", "RANGE", "GROUPS"].contains (keywordSpelling v) then
        pure none
      else do let _ ← next; pure (some v)
    | _ => pure none
  let partition ←
    if ← eatWords ["PARTITION", "BY"] then pure (some ("PARTITION BY " ++ (← lv.texts)))
    else pure none
  let order ←
    if ← eatWords ["ORDER", "BY"] then pure (some ("ORDER BY " ++ (← lv.sortItems)))
    else pure none
  let frame ←
    match ← eatOneOf ["ROWS", "RANGE", "GROUPS"] with
    | some units =>
      if ← eatWord "BETWEEN" then
        let start ← lv.frameBound
        expectWord "AND"
        pure (some (units ++ " BETWEEN " ++ start ++ " AND " ++ (← lv.frameBound)))
      else pure (some (units ++ " " ++ (← lv.frameBound)))
    | none => pure none
  expect ")"
  return " ".intercalate ([base, partition, order, frame].filterMap id)

/-! ### Calls -/

/-- Reads one argument of a call. -/
def argument (lv : Level) : Reader String := do
  if ← eat "*" then return "*"
  let named ← attempt (do
    let n ← readName
    match ← next with
    | .symbol s =>
      if s = "=>" ∨ s = ":=" then return String.ofList n.render ++ " " ++ s ++ " " else fail
    | _ => fail)
  match named with
  | some lead => if ← eat "*" then return lead ++ "*" else return lead ++ (← lv.text)
  | none =>
    match ← attempt (do
      let path ← sepBy (do
        if ← atSymbol "." then
          if (← peekAt 1).any (Token.isSymbol "*") then return false else eat "."
        else return false) readName
      expect "."
      expect "*"
      return pathText path ++ ".*") with
    | some all => return all
    | none => lv.text

/-- Reads the arguments of a call after the opening parenthesis, the closing one
included. -/
def arguments (lv : Level) : Reader String := do
  if ← eat ")" then return "()"
  let distinct ← eatOneOf ["ALL", "DISTINCT"]
  let args ← commaList lv.argument
  let nulls ← eatOneOf ["IGNORE", "RESPECT"]
  if nulls.isSome then expectWord "NULLS"
  let order ←
    if ← eatWords ["ORDER", "BY"] then pure (some ("ORDER BY " ++ (← lv.sortItems)))
    else pure none
  let limit ←
    if ← eatWord "LIMIT" then pure (some ("LIMIT " ++ (← lv.text))) else pure none
  let separator ←
    if ← eatWord "SEPARATOR" then
      pure (some ("SEPARATOR " ++ String.ofList (← readValue).render))
    else pure none
  expect ")"
  let lead := match distinct with
    | some d => d ++ " "
    | none => ""
  return "(" ++ lead ++ commaJoined args ++ spaced (nulls.map (· ++ " NULLS")) ++ spaced order ++
    spaced limit ++ spaced separator ++ ")"

/-- Reads what follows a function's name, from the opening parenthesis on. -/
def call (lv : Level) (name : String) : Reader String := do
  expect "("
  let args ← lv.arguments
  let more ← if ← eat "(" then lv.arguments else pure ""
  let within ←
    if ← eatWords ["WITHIN", "GROUP"] then
      let order ← parenthesized (do expectWord "ORDER"; expectWord "BY"; lv.sortItems)
      pure (" WITHIN GROUP (ORDER BY " ++ order ++ ")")
    else pure ""
  let filter ←
    if ← eatWord "FILTER" then
      let condition ← parenthesized (do expectWord "WHERE"; lv.text)
      pure (" FILTER (WHERE " ++ condition ++ ")")
    else pure ""
  let nulls ← eatOneOf ["IGNORE", "RESPECT"]
  if nulls.isSome then expectWord "NULLS"
  let window ←
    if ← eatWord "OVER" then
      if ← eat "(" then pure (" OVER (" ++ (← lv.window) ++ ")")
      else pure (" OVER " ++ String.ofList (← readName).render)
    else pure ""
  return name ++ args ++ more ++ within ++ filter ++ spaced (nulls.map (· ++ " NULLS")) ++ window

/-! ### Keyword forms -/

/-- Reads one branch of `CASE` after its `WHEN`. -/
def caseBranch (lv : Level) : Reader String := do
  let condition ← lv.text
  expectWord "THEN"
  return " WHEN " ++ condition ++ " THEN " ++ (← lv.text)

/-- Reads `CASE` after its keyword. -/
def caseForm (lv : Level) : Reader String := do
  let operand ←
    if ← eatWord "WHEN" then pure ""
    else
      let e ← lv.text
      expectWord "WHEN"
      pure (" " ++ e)
  let branches ← sepBy (eatWord "WHEN") lv.caseBranch
  let other ← if ← eatWord "ELSE" then pure (" ELSE " ++ (← lv.text)) else pure ""
  expectWord "END"
  return "CASE" ++ operand ++ String.join branches ++ other ++ " END"

/-- Reads a cast after its keyword. -/
def castForm (lv : Level) (keyword : String) : Reader String :=
  parenthesized do
    let e ← lv.text
    expectWord "AS"
    return keyword ++ "(" ++ e ++ " AS " ++ (← readDataType).text ++ ")"

/-- Reads `CONVERT` after its keyword. -/
def convertForm (lv : Level) (keyword : String) : Reader String :=
  parenthesized do
    let e ← lv.text
    if ← eatWord "USING" then return keyword ++ "(" ++ e ++ " USING " ++ (← readPathText) ++ ")"
    expect ","
    return keyword ++ "(" ++ e ++ ", " ++ (← readDataType).text ++ ")"

/-- Reads `EXISTS` after its keyword. -/
def existsForm (lv : Level) (keyword : String) : Reader String := do
  let q ← parenthesized lv.query
  return keyword ++ " (" ++ q ++ ")"

/-- The parts of a date that need no quotes, in capitals. -/
def dateParts : List String :=
  ["YEAR", "YEARS", "QUARTER", "MONTH", "MONTHS", "WEEK", "WEEKS", "DAY", "DAYS", "DAYOFWEEK",
   "DAYOFYEAR", "DATE", "DATETIME", "HOUR", "HOURS", "MINUTE", "MINUTES", "SECOND", "SECONDS",
   "CENTURY", "DECADE", "DOW", "DOY", "EPOCH", "ISODOW", "ISOYEAR", "ISOWEEK", "JULIAN",
   "MICROSECOND", "MICROSECONDS", "MILLENIUM", "MILLENNIUM", "MILLISECOND", "MILLISECONDS",
   "NANOSECOND", "NANOSECONDS", "TIME", "TIMEZONE", "TIMEZONE_ABBR", "TIMEZONE_HOUR",
   "TIMEZONE_MINUTE", "TIMEZONE_REGION"]

/-- Reads a part of a date. -/
def datePart : Reader String := do
  match ← next with
  | .word v q =>
    let k := keywordSpelling v
    return if q.isNone && dateParts.contains k then k else String.ofList (Name.render ⟨v, q⟩)
  | .text .plain b => return String.ofList (renderQuoted '\'' b)
  | _ => fail

/-- Reads `EXTRACT` after its keyword. -/
def extractForm (lv : Level) : Reader String :=
  parenthesized do
    let part ← datePart
    if ← eatWord "FROM" then return "EXTRACT(" ++ part ++ " FROM " ++ (← lv.text) ++ ")"
    expect ","
    return "EXTRACT(" ++ part ++ ", " ++ (← lv.text) ++ ")"

/-- Reads `CEIL` or `FLOOR` after its keyword. -/
def roundForm (lv : Level) (keyword : String) : Reader String :=
  parenthesized do
    let e ← lv.text
    if ← eatWord "TO" then return keyword ++ "(" ++ e ++ " TO " ++ (← datePart) ++ ")"
    if ← eat "," then
      return keyword ++ "(" ++ e ++ ", " ++ String.ofList (← readValue).render ++ ")"
    return keyword ++ "(" ++ e ++ ")"

/-- Reads `POSITION` after its keyword; without `IN` it is a call. -/
def positionForm (lv : Level) (name : String) : Reader String := do
  let form ← attempt (parenthesized do
    let e ← lv.expr Strength.compare
    expectWord "IN"
    return "POSITION(" ++ e.text ++ " IN " ++ (← lv.text) ++ ")")
  match form with
  | some t => return t
  | none => lv.call name

/-- Reads `SUBSTRING` after its keyword. -/
def substringForm (lv : Level) (keyword : String) : Reader String :=
  parenthesized do
    let e ← lv.text
    let commas ← eat ","
    let start ←
      if commas then pure (", " ++ (← lv.text))
      else if ← eatWord "FROM" then pure (" FROM " ++ (← lv.text))
      else pure ""
    let length ←
      if ← (do if ← eatWord "FOR" then return true else eat ",") then
        pure ((if commas then ", " else " FOR ") ++ (← lv.text))
      else pure ""
    return keyword ++ "(" ++ e ++ start ++ length ++ ")"

/-- Reads `OVERLAY` after its keyword. -/
def overlayForm (lv : Level) : Reader String :=
  parenthesized do
    let e ← lv.text
    expectWord "PLACING"
    let what ← lv.text
    expectWord "FROM"
    let start ← lv.text
    let length ← if ← eatWord "FOR" then pure (" FOR " ++ (← lv.text)) else pure ""
    return "OVERLAY(" ++ e ++ " PLACING " ++ what ++ " FROM " ++ start ++ length ++ ")"

/-- Reads `TRIM` after its keyword. -/
def trimForm (lv : Level) : Reader String :=
  parenthesized do
    let side ← eatOneOf ["BOTH", "LEADING", "TRAILING"]
    let lead := match side with
      | some s => s ++ " "
      | none => ""
    let e ← lv.text
    if ← eatWord "FROM" then return "TRIM(" ++ lead ++ e ++ " FROM " ++ (← lv.text) ++ ")"
    if ← eat "," then return "TRIM(" ++ lead ++ e ++ ", " ++ (← lv.texts) ++ ")"
    return "TRIM(" ++ lead ++ e ++ ")"

/-- Reads an array after its opening bracket. -/
def arrayForm (lv : Level) : Reader String := do
  return "[" ++ commaJoined (← commaListUpTo "]" lv.text) ++ "]"

/-- Reads `ARRAY` after its keyword: items in brackets or a query. -/
def namedArrayForm (lv : Level) (name : String) : Reader (Option String) := do
  if ← eat "[" then return some ("ARRAY" ++ (← lv.arrayForm))
  else if ← atSymbol "(" then return some (name ++ "(" ++ (← parenthesized lv.query) ++ ")")
  else return none

/-- Reads `STRUCT` after its keyword. -/
def structForm (lv : Level) : Reader String := do
  expect "("
  let fields ← commaListUpTo ")" (do
    let e ← lv.text
    if ← eatWord "AS" then return e ++ " AS " ++ String.ofList (← readName).render
    return e)
  return "STRUCT(" ++ commaJoined fields ++ ")"

/-- Reads a dictionary after its opening brace. -/
def dictionaryForm (lv : Level) : Reader String := do
  let fields ← commaListUpTo "\x7d" (do
    let key ← readName
    expect ":"
    return String.ofList key.render ++ ": " ++ (← lv.text))
  return "\x7b" ++ commaJoined fields ++ "\x7d"

/-- Reads `MATCH` after its keyword. -/
def matchForm : Reader String := do
  let columns ← parenthesized (commaList readPathText)
  expectWord "AGAINST"
  let v ← parenthesized readValue
  return "MATCH (" ++ commaJoined columns ++ ") AGAINST (" ++ String.ofList v.render ++ ")"

/-- Reads an interval after its keyword, its value by `operand`. -/
def intervalForm (operand : Reader Node) : Reader String := do
  let v ← operand
  let atPart := (← peek).bind Token.keyword?
  if atPart.any dateParts.contains then
    let lead ← datePart
    if lead = "SECOND" then return "INTERVAL " ++ v.text ++ " SECOND" ++ (← readPrecision)
    let size ← readSize
    let last ← if ← eatWord "TO" then pure (" TO " ++ (← datePart)) else pure ""
    return "INTERVAL " ++ v.text ++ " " ++ lead ++ (if size = "" then "" else " " ++ size) ++ last
  return "INTERVAL " ++ v.text

end Level
end Sql
end RecordSieve
