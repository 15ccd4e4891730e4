import RecordSieve.Query.Comparison
import RecordSieve.Sql.Token
import RecordSieve.Text.Quoted
/-!
# RecordSieve.Sql.Node

Query expressions as they were written, and their printed form.

The constructs that filters are made of have nodes of their own, with number
tokens and quote characters kept, so printing gives back the tokens of the text.
Every other expression is known by its printed form alone (`other`): nothing is
done with it but to show it in an error.
-/

namespace RecordSieve
namespace Sql

/-- A name and the quote character it stood in, if any. -/
structure Name where
  value : String
  quote : Option Char := none
deriving DecidableEq, Repr

/-- A constant. -/
inductive Value
  /-- A number by its token, and whether it has the suffix `L`. -/
  | number (token : String) (long : Bool := false)
  /-- A text in single quotes. -/
  | text (body : String)
  /-- A text in double quotes. -/
  | doubleQuoted (body : String)
  | boolean (b : Bool)
  | null
  /-- A constant of another kind, by its printed form. -/
  | other (text : String)
deriving DecidableEq, Repr

/-- An operator before its operand. -/
inductive UnaryOp
  | not
  | minus
  | plus
deriving DecidableEq, Repr

/-- An operator between two operands. -/
inductive BinaryOp
  | and
  | or
  | compare (op : Comparison)
  /-- Any other operator, by its printed form. -/
  | other (symbol : String)
deriving DecidableEq, Repr

/-- A query expression. -/
inductive Node
  | name (n : Name)
  /-- A name with points in it: `a.b`. -/
  | path (parts : List Name)
  | value (v : Value)
  | unary (op : UnaryOp) (operand : Node)
  | binary (left : Node) (op : BinaryOp) (right : Node)
  /-- One expression in parentheses. -/
  | nested (inner : Node)
  /-- Several expressions in parentheses. -/
  | tuple (items : List Node)
  /-- `probe [NOT ]IN (..)` -/
  | inList (probe : Node) (items : List Node) (negated : Bool)
  /-- A test written after its operand: `IS NULL`. -/
  | test (operand : Node) (words : String)
  /-- `operand [NOT ]BETWEEN low AND high` -/
  | between (operand : Node) (negated : Bool) (low high : Node)
  /-- A pattern test, `LIKE` or one of its relatives. -/
  | like (operand : Node) (negated : Bool) (keyword : String) (pattern : Node)
  /-- Any other expression, by its printed form. -/
  | other (text : String)

/-! ### Printing -/

/-- The body of a quoted text or name when printed: a quote character is doubled
unless it stands in a pair already or comes after a backslash, which counts as
escaping it and all quote characters next to it. `escaping` tells whether the
character before is such a backslash. -/
def requote (q : Char) : Bool → List Char → List Char
  | _, [] => []
  | escaping, [c] =>
    if c = q then if escaping then [c] else [q, q] else [c]
  | escaping, c :: d :: cs =>
    if c = q then
      if escaping then c :: requote q true (d :: cs)
      else if d = q then q :: q :: requote q false cs
      else q :: q :: requote q false (d :: cs)
    else c :: requote q (c == '\\') (d :: cs)

/-- A printed body between its quote characters. -/
def renderQuoted (q : Char) (body : String) : List Char :=
  q :: (requote q false body.toList ++ [q])

/-- The printed form of a name. -/
def Name.render (n : Name) : List Char :=
  match n.quote with
  | none => n.value.toList
  | some q => renderQuoted q n.value

/-- Printed parts with a separator between them. -/
def joined (separator : List Char) : List (List Char) → List Char
  | [] => []
  | [p] => p
  | p :: ps => p ++ separator ++ joined separator ps

/-- The printed form of a constant. -/
def Value.render : Value → List Char
  | number token long => token.toList ++ longSuffix long
  | text body => renderQuoted '\'' body
  | doubleQuoted body => renderQuoted '"' body
  | boolean true => "true".toList
  | boolean false => "false".toList
  | null => "NULL".toList
  | other t => t.toList

/-- The printed form of an operator before its operand. -/
def UnaryOp.render : UnaryOp → List Char
  | not => "NOT ".toList
  | minus => ['-']
  | plus => ['+']

/-- The printed form of an operator. Inequality is printed `<>`. -/
def BinaryOp.symbol : BinaryOp → String
  | and => "AND"
  | or => "OR"
  | compare .ne => "<>"
  | compare op => op.symbol
  | other s => s

mutual

/-- The printed form of an expression. -/
def Node.render : Node → List Char
  | .name n => n.render
  | .path parts => joined ['.'] (parts.map Name.render)
  | .value v => v.render
  | .unary op e => op.render ++ e.render
  | .binary l op r => l.render ++ ' ' :: (op.symbol.toList ++ ' ' :: r.render)
  | .nested e => '(' :: (e.render ++ [')'])
  | .tuple es => '(' :: (renderNodes es ++ [')'])
  | .inList e es negated =>
    e.render ++ (if negated then " NOT IN (" else " IN (").toList ++ renderNodes es ++ [')']
  | .test e words => e.render ++ ' ' :: words.toList
  | .between e negated lo hi =>
    e.render ++ (if negated then " NOT BETWEEN " else " BETWEEN ").toList ++ lo.render ++
      " AND ".toList ++ hi.render
  | .like e negated keyword p =>
    e.render ++ (if negated then " NOT " else " ").toList ++ keyword.toList ++ ' ' :: p.render
  | .other t => t.toList

/-- Printed expressions between commas. -/
def renderNodes : List Node → List Char
  | [] => []
  | [e] => e.render
  | e :: es => e.render ++ ',' :: ' ' :: renderNodes es

end

/-- The printed form of an expression. -/
def Node.text (e : Node) : String := String.ofList e.render

end Sql
end RecordSieve
