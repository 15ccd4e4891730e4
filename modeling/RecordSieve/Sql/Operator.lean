import RecordSieve.Sql.Operand
/-!
# RecordSieve.Sql.Operator

Operators between operands. `nextStrength` tells how tightly the operator ahead
binds; `extend` reads the operator and what stands to its right. An expression is
an operand extended as long as the operator ahead binds tighter than the one the
expression is an operand of, so operators of one strength group to the left.
-/

namespace RecordSieve
namespace Sql

open Reader

/-- The strength of a symbol as an operator; zero if it is none. -/
def symbolStrength (s : String) : Strength :=
  if ["=", "==", "<", "<=", "<>", ">", ">=", ":=", "<=>", "~", "~*", "!~", "!~*", "~~", "~~*",
      "!~~", "!~~*"].contains s then .compare
  else if ["->", "->>", "#>", "#>>", "@>", "<@", "#-", "@?", "@@"].contains s then .arrow
  else if ["|", "&&", "@", ":"].contains s then .pipe
  else if ["^", "#", "<<", ">>"].contains s then .caret
  else if s = "&" then .ampersand
  else if ["+", "-"].contains s then .sum
  else if ["*", "/", "//", "%", "||"].contains s then .product
  else if ["::", "!", "[", "^@"].contains s then .cast
  else if s = "." then .point
  else .none

/-- The strength of a keyword as an operator; zero if it is none. -/
def keywordStrength (k : String) : Strength :=
  if k = "OR" then .or
  else if k = "AND" then .and
  else if k = "XOR" then .xor
  else if k = "IS" then .is
  else if ["IN", "BETWEEN", "OVERLAPS", "OPERATOR"].contains k then .compare
  else if ["LIKE", "ILIKE", "SIMILAR", "REGEXP", "RLIKE", "MATCH", "MEMBER"].contains k then .like
  else if k = "DIV" then .product
  else .none

/-- The strength of `NOT` between operands, by the keyword after it. -/
def negatedStrength (k : String) : Strength :=
  if ["IN", "BETWEEN"].contains k then .compare
  else if ["LIKE", "ILIKE", "SIMILAR", "REGEXP", "RLIKE", "MATCH", "MEMBER"].contains k then .like
  else if k = "NULL" then .is
  else .none

/-- The strength of the operator ahead. -/
def nextStrength : Reader Strength := do
  match ← peek with
  | some (.symbol s) => return symbolStrength s
  | some t =>
    match t.keyword? with
    | some "NOT" =>
      return (((← peekAt 1).bind Token.keyword?).map negatedStrength).getD .none
    | some "AT" =>
      return if (← wordAt 1 "TIME") && (← wordAt 2 "ZONE") then .zone else .none
    | some k => return keywordStrength k
    | none => return .none
  | none => return .none

/-- The operator a symbol is between operands. -/
def symbolOperator? (s : String) : Option BinaryOp :=
  if s = "=" ∨ s = "==" then some (.compare .eq)
  else if s = "<>" then some (.compare .ne)
  else if s = "<" then some (.compare .lt)
  else if s = "<=" then some (.compare .le)
  else if s = ">" then some (.compare .gt)
  else if s = ">=" then some (.compare .ge)
  else if ["<=>", ":=", "+", "-", "*", "/", "//", "%", "||", "|", "&", "^", "<<", ">>", "&&", "^@",
      "~", "~*", "!~", "!~*", "~~", "~~*", "!~~", "!~~*", "->", "->>", "#>", "#>>", "@>", "<@",
      "#-", "@?", "@@"].contains s then some (.other s)
  else none

/-- The operator a token is between operands. -/
def Token.operator? (t : Token) : Option BinaryOp :=
  match t with
  | .symbol s => symbolOperator? s
  | t =>
    match t.keyword? with
    | some "AND" => some .and
    | some "OR" => some .or
    | some "XOR" => some (.other "XOR")
    | some "OVERLAPS" => some (.other "OVERLAPS")
    | _ => none

/-- Whether an operator may compare with any or all of several values. -/
def BinaryOp.isQuantifiable : BinaryOp → Bool
  | .compare _ => true
  | .other s => ["~", "~*", "!~", "!~*", "~~", "~~*", "!~~", "!~~*"].contains s
  | _ => false

namespace Level

/-- Reads the values of a quantified comparison. -/
def quantified (lv : Level) (strength : Strength) : Reader String := do
  expect "("
  if ← atQuery then
    let q ← lv.query
    expect ")"
    return "(" ++ q ++ ")"
  let e ← lv.expr strength
  expect ")"
  return "(" ++ e.text ++ ")"

/-- Reads the right side of an operator between two operands. -/
def rightSide (lv : Level) (left : Node) (op : BinaryOp) (strength : Strength) : Reader Node := do
  match ← eatOneOf ["ANY", "ALL", "SOME"] with
  | some quantifier =>
    let right ← lv.quantified strength
    if op.isQuantifiable then
      return .other (left.text ++ " " ++ op.symbol ++ " " ++ quantifier ++ right)
    else fail
  | none => return .binary left op (← lv.expr strength)

/-- Reads what `IS` tests for. -/
def isTest (lv : Level) (left : Node) : Reader Node := do
  if ← eatWord "NULL" then return .test left "IS NULL"
  if ← eatWords ["NOT", "NULL"] then return .test left "IS NOT NULL"
  if ← eatWord "TRUE" then return .test left "IS TRUE"
  if ← eatWords ["NOT", "TRUE"] then return .test left "IS NOT TRUE"
  if ← eatWord "FALSE" then return .test left "IS FALSE"
  if ← eatWords ["NOT", "FALSE"] then return .test left "IS NOT FALSE"
  if ← eatWord "UNKNOWN" then return .test left "IS UNKNOWN"
  if ← eatWords ["NOT", "UNKNOWN"] then return .test left "IS NOT UNKNOWN"
  if ← eatWords ["DISTINCT", "FROM"] then
    return .test left ("IS DISTINCT FROM " ++ (← lv.text))
  if ← eatWords ["NOT", "DISTINCT", "FROM"] then
    return .test left ("IS NOT DISTINCT FROM " ++ (← lv.text))
  let negated ← eatWord "NOT"
  let form ← eatOneOf ["NFC", "NFD", "NFKC", "NFKD"]
  expectWord "NORMALIZED"
  return .test left ((if negated then "IS NOT" else "IS") ++ spaced form ++ " NORMALIZED")

/-- Reads the right side of `IN`. -/
def membership (lv : Level) (left : Node) (negated : Bool) : Reader Node := do
  let keyword := if negated then "NOT IN " else "IN "
  if ← eatWord "UNNEST" then
    let e ← parenthesized lv.text
    return .test left (keyword ++ "UNNEST(" ++ e ++ ")")
  expect "("
  match ← attempt lv.query with
  | some q =>
    expect ")"
    return .test left (keyword ++ "(" ++ q ++ ")")
  | none =>
    let items ← commaList (lv.expr Strength.none)
    expect ")"
    return .inList left items negated

/-- Reads the bounds of `BETWEEN`. -/
def bounds (lv : Level) (left : Node) (negated : Bool) : Reader Node := do
  let low ← lv.expr Strength.compare
  expectWord "AND"
  return .between left negated low (← lv.expr Strength.compare)

/-- Reads the pattern of `LIKE` or one of its relatives. -/
def pattern (lv : Level) (left : Node) (negated : Bool) (keyword : String) (more : Bool) :
    Reader Node := do
  let any ← if more then eatWord "ANY" else pure false
  let p ← lv.expr Strength.like
  let plain := Node.like left negated (if any then keyword ++ " ANY" else keyword) p
  if ← eatWord "ESCAPE" then
    return .other (plain.text ++ " ESCAPE " ++ String.ofList (← readValue).render)
  else return plain

/-- Reads a test that may stand after `NOT`, from its keyword on. -/
def negatableTest (lv : Level) (left : Node) (negated : Bool) (keyword : Option String) :
    Reader Node := do
  match keyword with
  | some "REGEXP" => return .like left negated "REGEXP" (← lv.expr Strength.like)
  | some "RLIKE" => return .like left negated "RLIKE" (← lv.expr Strength.like)
  | some "NULL" => if negated then return .test left "IS NOT NULL" else fail
  | some "IN" => lv.membership left negated
  | some "BETWEEN" => lv.bounds left negated
  | some "LIKE" => lv.pattern left negated "LIKE" true
  | some "ILIKE" => lv.pattern left negated "ILIKE" true
  | some "SIMILAR" => do
    expectWord "TO"
    lv.pattern left negated "SIMILAR TO" false
  | _ => fail

/-- Reads the keys after the colon of an access into a document. -/
def documentPath (lv : Level) : Nat → Reader String
  | 0 => return ""
  | budget + 1 => do
    if ← eat "." then
      let n ← readName
      return "." ++ String.ofList n.render ++ (← lv.documentPath budget)
    else if ← eat "[" then
      let e ← lv.text
      expect "]"
      return "[" ++ e ++ "]" ++ (← lv.documentPath budget)
    else return ""

/-- Reads the operator ahead, of the given strength, and its right side. -/
def extend (lv : Level) (left : Node) (strength : Strength) : Reader Node := do
  let t ← next
  match t.operator? with
  | some op => lv.rightSide left op strength
  | none =>
    match t with
    | .symbol "::" => return .other (left.text ++ "::" ++ (← readDataType).text)
    | .symbol ":" =>
      let key ← readName
      let path ← lv.documentPath ((← get).length + 1)
      return .other (left.text ++ ":" ++ String.ofList key.render ++ path)
    | t =>
      match t.keyword? with
      | some "IS" => lv.isTest left
      | some "AT" =>
        expectWord "TIME"
        expectWord "ZONE"
        return .other (left.text ++ " AT TIME ZONE " ++ (← lv.expr strength).text)
      | some "MEMBER" =>
        expectWord "OF"
        return .other (left.text ++ " MEMBER OF(" ++ (← parenthesized lv.text) ++ ")")
      | some "NOT" => lv.negatableTest left true (← next).keyword?
      | keyword => lv.negatableTest left false keyword

/-- Extends an expression as long as the operator ahead is stronger than `bound`,
on a budget of tokens. -/
def extendAll (lv : Level) (bound : Strength) : Nat → Node → Reader Node
  | 0, e => return e
  | budget + 1, e => do
    let s ← nextStrength
    if s ≤ bound ∨ s = Strength.point then return e
    else lv.extendAll bound budget (← lv.extend e s)

/-- Reads an expression up to an operator no stronger than `bound`. -/
def expression (lv : Level) (bound : Strength) : Reader Node := do
  let e ← lv.fullOperand
  lv.extendAll bound ((← get).length + 1) e

end Level
end Sql
end RecordSieve
