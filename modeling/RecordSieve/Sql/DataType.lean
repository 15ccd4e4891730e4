import RecordSieve.Sql.Reader
/-!
# RecordSieve.Sql.DataType

The names of data types, as they stand in casts and in front of typed constants.
A type is known by its printed form; the names built into the query language are
told apart from names of other types because only the former may stand in front
of a constant.
-/

namespace RecordSieve
namespace Sql

open Reader

/-- A data type by its printed form. -/
inductive DataType
  /-- A type of the language. -/
  | builtIn (text : String)
  /-- The type of intervals, which has constants of its own. -/
  | interval
  /-- A type by any other name. -/
  | named (text : String)

/-- The printed form of a type. -/
def DataType.text : DataType → String
  | builtIn t => t
  | interval => "INTERVAL"
  | named t => t

/-- Types that are one word. -/
def plainTypes : List String :=
  ["BOOLEAN", "BOOL", "REAL", "FLOAT4", "FLOAT8", "FLOAT32", "FLOAT64", "INT64", "INT128",
   "INT256", "UINT8", "UINT16", "UINT32", "UINT64", "UINT128", "UINT256", "HUGEINT",
   "UHUGEINT", "UUID", "DATE", "DATE32", "JSON", "JSONB", "REGCLASS", "TEXT", "TINYTEXT",
   "MEDIUMTEXT", "LONGTEXT", "BYTEA", "TINYBLOB", "MEDIUMBLOB", "LONGBLOB", "SIGNED"]

/-- Types that may name a length: `VARCHAR(10)`. -/
def sizedTypes : List String :=
  ["VARCHAR", "NVARCHAR", "CLOB", "BINARY", "VARBINARY", "BLOB", "BYTES", "BIT", "VARBIT",
   "STRING", "DATETIME", "FIXEDSTRING"]

/-- Integer types, which may name a width and be unsigned. -/
def integerTypes : List String :=
  ["TINYINT", "SMALLINT", "MEDIUMINT", "INT", "INTEGER", "BIGINT", "INT2", "INT4", "INT8"]

/-- Types that may name a precision and a scale. -/
def decimalTypes : List String :=
  ["NUMERIC", "DECIMAL", "DEC", "BIGNUMERIC", "BIGDECIMAL"]

/-- Reads one length in parentheses, if there is one. -/
def readSize : Reader String := do
  if ← atSymbol "(" then
    let n ← parenthesized readNatural
    return "(" ++ n ++ ")"
  else return ""

/-- Reads a precision and perhaps a scale in parentheses, if there are any. -/
def readPrecision : Reader String := do
  if ← atSymbol "(" then
    let ns ← parenthesized (commaList readNatural)
    if ns.length ≤ 2 then return "(" ++ String.intercalate "," ns ++ ")" else fail
  else return ""

/-- Reads whether a time type has a zone. -/
def readZone : Reader String := do
  if ← eatWords ["WITH", "TIME", "ZONE"] then return " WITH TIME ZONE"
  else if ← eatWords ["WITHOUT", "TIME", "ZONE"] then return " WITHOUT TIME ZONE"
  else return ""

/-- Reads the rest of a built-in type after its first word; nothing if the word
names none. -/
def readBuiltIn (keyword : String) : Reader (Option String) := do
  if plainTypes.contains keyword then return some keyword
  else if sizedTypes.contains keyword then return some (keyword ++ (← readSize))
  else if integerTypes.contains keyword then
    let width ← readSize
    return some (keyword ++ width ++ (if ← eatWord "UNSIGNED" then " UNSIGNED" else ""))
  else if decimalTypes.contains keyword then return some (keyword ++ (← readPrecision))
  else if keyword = "FLOAT" then return some (keyword ++ (← readPrecision))
  else if keyword = "DOUBLE" then
    if ← eatWord "PRECISION" then return some "DOUBLE PRECISION"
    else return some (keyword ++ (← readPrecision))
  else if keyword = "CHAR" ∨ keyword = "CHARACTER" then
    if ← eatWord "VARYING" then return some (keyword ++ " VARYING" ++ (← readSize))
    else return some (keyword ++ (← readSize))
  else if keyword = "TIMESTAMP" ∨ keyword = "TIME" then
    let size ← readSize
    return some (keyword ++ size ++ (← readZone))
  else if keyword = "TIMESTAMPTZ" ∨ keyword = "TIMETZ" then
    return some (keyword ++ (← readSize))
  else return none

/-- Reads the brackets of an array type. -/
def readBrackets : Nat → Reader String
  | 0 => return ""
  | budget + 1 => do
    if ← eat "[" then
      let size := (← attempt readNatural).getD ""
      expect "]"
      return "[" ++ size ++ "]" ++ (← readBrackets budget)
    else return ""

/-- Reads the modifiers of a named type. -/
def readModifiers : Reader String := do
  if ← eat "(" then
    let ms ← commaListUpTo ")" (do
      match ← next with
      | .word v _ => return v
      | .number t _ => return t
      | .text .plain b => return b
      | _ => fail)
    return if ms.isEmpty then "" else "(" ++ commaJoined ms ++ ")"
  else return ""

/-- Reads a data type. -/
def readDataType : Reader DataType := do
  let start ← get
  let t ← next
  let builtIn ← match t.keyword? with
    | some k => readBuiltIn k
    | none => pure none
  match builtIn with
  | some text => return .builtIn (text ++ (← readBrackets (← get).length))
  | none =>
    if t.isKeyword "INTERVAL" then return .interval
    else
      set start
      let path ← readPathText
      let modifiers ← readModifiers
      return .named (path ++ modifiers ++ (← readBrackets (← get).length))

end Sql
end RecordSieve
