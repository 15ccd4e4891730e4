import RecordSieve.Sql.Form
/-!
# RecordSieve.Sql.Operand

Operands: what an expression starts with, before any operator between operands.
These are names, constants, signed and negated expressions, parentheses, and the
keyword forms.

Keywords are reserved only where they are needed. A keyword that starts a form is
read as one if the tokens after it fit; otherwise it is a name like any other, so
`case = 1` compares a field. `EXISTS`, `INTERVAL`, `STRUCT` and `TRIM` alone are
never names.
-/

namespace RecordSieve
namespace Sql

open Reader

namespace Level

/-- The keywords that are never names. -/
def reservedNames : List String := ["EXISTS", "INTERVAL", "STRUCT", "TRIM"]

/-- Reads `NOT` and its operand after the keyword. -/
def negation (lv : Level) : Reader Node := do
  if ← eatWord "EXISTS" then return .other (← lv.existsForm "NOT EXISTS")
  return .unary .not (← lv.expr Strength.not)

/-- Reads the form that a keyword starts, after the keyword, if it starts one. -/
def keywordForm (lv : Level) (interval : Reader String) (name : Name) (keyword : String) :
    Reader (Option Node) := do
  let form (p : Reader String) : Reader (Option Node) := do return some (.other (← p))
  match keyword with
  | "TRUE" => return some (.value (.boolean true))
  | "FALSE" => return some (.value (.boolean false))
  | "NULL" => return some (.value .null)
  | "NOT" => return some (← lv.negation)
  | "CURRENT_CATALOG" | "CURRENT_USER" | "SESSION_USER" | "USER" =>
    return some (.other name.value)
  | "CURRENT_TIMESTAMP" | "CURRENT_TIME" | "CURRENT_DATE" | "LOCALTIME" | "LOCALTIMESTAMP" =>
    form (do if ← eat "(" then return name.value ++ (← lv.arguments) else return name.value)
  | "CASE" => form lv.caseForm
  | "CONVERT" | "TRY_CONVERT" => form (lv.convertForm keyword)
  | "CAST" | "TRY_CAST" | "SAFE_CAST" => form (lv.castForm keyword)
  | "EXISTS" => form (lv.existsForm keyword)
  | "EXTRACT" => form lv.extractForm
  | "CEIL" | "FLOOR" => form (lv.roundForm keyword)
  | "POSITION" => if ← atSymbol "(" then form (lv.positionForm name.value) else return none
  | "SUBSTR" | "SUBSTRING" => form (lv.substringForm keyword)
  | "OVERLAY" => form lv.overlayForm
  | "TRIM" => form lv.trimForm
  | "INTERVAL" => form interval
  | "ARRAY" => return (← lv.namedArrayForm name.value).map .other
  | "MATCH" => form matchForm
  | "STRUCT" => form lv.structForm
  | _ => return none

/-- Reads a word as what it is without any keyword's form: the name of a called
function, the character set of a text, or a name. -/
def plainWord (lv : Level) (name : Name) : Reader Node := do
  match ← peek with
  | some (.symbol "(") => return .other (← lv.call (String.ofList name.render))
  | some (.text .plain _) | some (.text .hex _) =>
    if name.value.startsWith "_" then
      return .other (String.ofList name.render ++ " " ++ String.ofList (← readValue).render)
    else return .name name
  | _ => return .name name

/-- Reads an operand that starts with a word, after the word. -/
def wordOperand (lv : Level) (interval : Reader String) (name : Name) : Reader Node :=
  let keyword := if name.quote.isNone then keywordSpelling name.value else ""
  let form : Reader Node := do
    match ← lv.keywordForm interval name keyword with
    | some e => return e
    | none => lv.plainWord name
  if reservedNames.contains keyword then form else orInstead form (lv.plainWord name)

/-- Reads what stands in parentheses after the opening one: a query, one
expression, or several. -/
def parentheses (lv : Level) : Reader Node := do
  if ← atQuery then
    let q ← lv.query
    expect ")"
    return .other ("(" ++ q ++ ")")
  let es ← commaList (lv.expr Strength.none)
  expect ")"
  match es with
  | [e] => return .nested e
  | es => return .tuple es

/-- Reads a constant with its type in front. -/
def typedConstant (interval : Reader String) : Reader Node := do
  match ← readDataType with
  | .interval => return .other (← interval)
  | .named _ => fail
  | .builtIn t => return .other (t ++ " " ++ String.ofList (← readValue).render)

/-- Reads an operand that is no typed constant. -/
def untypedOperand (lv : Level) (interval : Reader String) : Reader Node := do
  let t ← next
  match t with
  | .word v q => lv.wordOperand interval ⟨v, q⟩
  | .symbol s =>
    match s with
    | "(" => lv.parentheses
    | "-" => return .unary .minus (← lv.expr Strength.product)
    | "+" => return .unary .plus (← lv.expr Strength.product)
    | "[" => return .other (← lv.arrayForm)
    | "\x7b" => return .other (← lv.dictionaryForm)
    | ":" | "@" => return .value (← readParameter s)
    | _ => fail
  | t =>
    match t.constant? with
    | some v => return .value v
    | none => fail

/-- Reads a collation after an operand, if there is one. -/
def collated (e : Node) : Reader Node := do
  if ← eatWord "COLLATE" then return .other (e.text ++ " COLLATE " ++ (← readPathText))
  else return e

/-- Reads an operand, the value of an interval by `interval`. A type's name
followed by a constant is one operand. -/
def operandWith (lv : Level) (interval : Reader String) : Reader Node := do
  match ← attempt (typedConstant interval) with
  | some e => return e
  | none => collated (← lv.untypedOperand interval)

/-- Reads an operand. The value of an interval is an operand again; an interval as
the value of an interval has a value that is none. -/
def operand (lv : Level) : Reader Node :=
  lv.operandWith (intervalForm (lv.operandWith (intervalForm (lv.operandWith fail))))

/-! ### Parts of an operand -/

/-- An access to a part: by name after a point, or by an index in brackets. -/
inductive Access
  | point (part : Node)
  | index (text : String)

/-- The printed form of an access. -/
def Access.text : Access → String
  | .point part => "." ++ part.text
  | .index t => "[" ++ t ++ "]"

/-- The name an access is by, if it is by a name. -/
def Access.name? : Access → Option Name
  | .point (.name n) => some n
  | _ => none

/-- The accesses that a part after a point stands for: the names of a path are
one access each. -/
def Access.ofPart : Node → List Access
  | .path parts => parts.map fun n => .point (.name n)
  | part => [.point part]

/-- Reads an index between brackets, after the opening one. -/
def index (lv : Level) : Reader String := do
  let low ← if ← atSymbol ":" then pure "" else pure (← lv.expr Strength.pipe).text
  let high ←
    if ← eat ":" then
      if ← atSymbol "]" then pure ":" else pure (":" ++ (← lv.expr Strength.pipe).text)
    else pure ""
  expect "]"
  return low ++ high

/-- Reads the accesses after an operand, on a budget of tokens. -/
def accesses (lv : Level) : Nat → Reader (List Access)
  | 0 => return []
  | budget + 1 => do
    if ← atSymbol "." then
      if (← peekAt 1).any (Token.isSymbol "*") then return []
      let _ ← next
      let here ←
        match ← peek with
        | some (.text .plain s) => do
          let _ ← next
          pure [Access.point (.name ⟨s, some '\''⟩)]
        | _ => pure (Access.ofPart (← lv.expr Strength.point))
      return here ++ (← lv.accesses budget)
    else if ← eat "[" then
      let i ← lv.index
      return .index i :: (← lv.accesses budget)
    else return []

/-- An operand with accesses: a path if all of it is names. -/
def withAccesses (root : Node) (parts : List Access) : Node :=
  match parts with
  | [] => root
  | parts =>
    match root, parts.mapM Access.name? with
    | .name n, some names => .path (n :: names)
    | _, _ => .other (root.text ++ String.join (parts.map Access.text))

/-- Reads an operand and the accesses after it. -/
def fullOperand (lv : Level) : Reader Node := do
  let root ← lv.operand
  return withAccesses root (← lv.accesses ((← get).length + 1))

end Level
end Sql
end RecordSieve
