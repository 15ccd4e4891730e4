import RecordSieve.Query.Comparison
import RecordSieve.Query.ValueSet
import RecordSieve.Text.Numeric
/-!
# RecordSieve.Query.Expression

The predicate tree of a compiled clause, and its printed form.

Parentheses of the clause stay in the tree as `group` nodes, so printing adds
none and a printed tree compiles to itself. A field name is printed bare when it
looks like one word and between backticks otherwise.
-/

namespace RecordSieve

/-- A predicate over the fields of a record. -/
inductive Expression
  /-- A constant. -/
  | literal (value : Literal)
  /-- The value of a field of the record. -/
  | field (name : String)
  /-- A list of constants. Compiled clauses keep their lists in `member` nodes;
  only trees built by hand hold this one. -/
  | list (values : List Literal)
  /-- A comparison of two operands. -/
  | compare (op : Comparison) (left right : Expression)
  | and (left right : Expression)
  | or (left right : Expression)
  | not (operand : Expression)
  /-- `probe IN (..)`, or `probe NOT IN (..)` when `negated`. -/
  | member (probe : Expression) (set : ValueSet) (negated : Bool)
  /-- A parenthesized expression. -/
  | group (inner : Expression)
deriving DecidableEq

namespace Expression

/-- The expression inside any number of groups. -/
def ungrouped : Expression → Expression
  | group inner => inner.ungrouped
  | e => e

/-- Equality of trees with literals compared by value. -/
def same : Expression → Expression → Bool
  | literal v, literal w => v.same w
  | field m, field n => m == n
  | list vs, list ws => vs.length == ws.length && (vs.zip ws).all fun p => p.1.same p.2
  | compare o l r, compare p m s => o == p && l.same m && r.same s
  | and l r, and m s => l.same m && r.same s
  | or l r, or m s => l.same m && r.same s
  | not e, not f => e.same f
  | member p s n, member q t m => p.same q && s.same t && n == m
  | group e, group f => e.same f
  | _, _ => false

/-! ### Printing -/

/-- Whether a name can be printed without quotes: a letter or underscore, then
letters, numerals and underscores. -/
def isPlainName : List Char → Bool
  | [] => false
  | c :: cs => (Text.isAlphabetic c || c == '_') && cs.all fun d => Text.isAlphanumeric d || d == '_'

/-- A field name as a clause writes it. -/
def renderField (name : List Char) : List Char :=
  if isPlainName name then name else Text.Quoted.encode '\x60' name

/-- The printed form of a tree, over characters. -/
def render : Expression → List Char
  | literal v => v.render
  | field name => renderField name.toList
  | list vs => Literal.renderList vs
  | compare op l r => l.render ++ " ".toList ++ op.symbol.toList ++ " ".toList ++ r.render
  | and l r => l.render ++ " AND ".toList ++ r.render
  | or l r => l.render ++ " OR ".toList ++ r.render
  | not e => "NOT ".toList ++ e.render
  | member p s negated =>
    p.render ++ (if negated then " NOT IN " else " IN ").toList ++ Literal.renderList s.values
  | group e => '(' :: (e.render ++ [')'])

/-- The printed form of a tree. -/
def text (e : Expression) : String := String.ofList e.render

@[simp] theorem ungrouped_group (e : Expression) : (group e).ungrouped = e.ungrouped := rfl

end Expression
end RecordSieve
