import RecordSieve.Query.Comparison
import RecordSieve.Query.ValueSet
/-!
# RecordSieve.Query.Scalar

The values that evaluation works on, where a record's fields come from, and the
ways an evaluation can fail. A field that is missing, null or nested reads as
`absent`, which equals nothing, not even itself, and is ordered with nothing.
-/

namespace RecordSieve

/-- What kind of value a scalar is; its name appears in error messages. -/
inductive ScalarKind
  | absent
  | number
  | string
  | boolean
  | list
deriving DecidableEq, Repr

/-- The name of a kind. -/
def ScalarKind.name : ScalarKind → String
  | .absent => "absent"
  | .number => "number"
  | .string => "string"
  | .boolean => "boolean"
  | .list => "list"

/-- A value produced while evaluating an expression against one record. -/
inductive Scalar
  /-- A field that is missing from the record, null or nested. -/
  | absent
  | number (n : Binary64)
  | text (s : String)
  | boolean (b : Bool)
  | list (values : List Literal)
deriving DecidableEq

/-- Where the fields of a record are looked up. -/
abbrev Fields := String → Scalar

/-- A record without readable fields. -/
def Fields.none : Fields := fun _ => .absent

/-- The fields of a table of literals. -/
def Fields.ofLiterals (table : List (String × Literal)) : Fields := fun name =>
  match table.lookup name with
  | .some (.number n) => .number n
  | .some (.text s) => .text s
  | .some (.boolean b) => .boolean b
  | .none => .absent

/-- The places that need a truth value. -/
inductive BooleanPosition
  | conjunct
  | disjunct
  | negated
  | predicate
deriving DecidableEq, Repr

/-- The keyword that introduces a position. -/
def BooleanPosition.keyword : BooleanPosition → String
  | .conjunct => "AND"
  | .disjunct => "OR"
  | .negated => "NOT"
  | .predicate => "WHERE"

/-- Why a record could not be evaluated. -/
inductive EvalError
  /-- A value that is neither boolean nor absent stands where a truth value is
  needed. -/
  | notBoolean (position : BooleanPosition) (found : ScalarKind)
  /-- An order was asked of two present values that have none. -/
  | unordered (op : Comparison) (left right : ScalarKind)
deriving DecidableEq, Repr

namespace EvalError

/-- The message of an error, without its heading. -/
def message : EvalError → String
  | notBoolean position found =>
    position.keyword ++ " expects a boolean operand, found " ++ found.name
  | unordered op left right =>
    "cannot apply '" ++ op.symbol ++ "' to " ++ left.name ++ " and " ++ right.name

/-- The full text of an error. -/
def text (e : EvalError) : String := "type mismatch: " ++ e.message

end EvalError

namespace Scalar

/-- The value of a literal. -/
def ofLiteral : Literal → Scalar
  | .number n => number n
  | .text s => text s
  | .boolean b => boolean b

/-- The kind of a value. -/
def kind : Scalar → ScalarKind
  | absent => .absent
  | number _ => .number
  | text _ => .string
  | boolean _ => .boolean
  | list _ => .list

/-- The truth value of an operand; an absent one reads as false. -/
def truth (position : BooleanPosition) : Scalar → Except EvalError Bool
  | boolean b => .ok b
  | absent => .ok false
  | v => .error (.notBoolean position v.kind)

/-- Exact equality of two values of one kind; anything else is unequal. -/
def same : Scalar → Scalar → Bool
  | number a, number b => a.numEq b
  | text a, text b => a == b
  | boolean a, boolean b => a == b
  | _, _ => false

/-- The order of two values. -/
inductive Order
  /-- One of them is absent or a NaN: no ordering holds. -/
  | none
  /-- Both are numbers, texts or truth values. -/
  | some (o : Ordering)
  /-- Both are present and their kinds do not compare. -/
  | mismatch
deriving DecidableEq, Repr

/-- The order of two values: numbers by value, texts by code points, false
before true. -/
def order : Scalar → Scalar → Order
  | absent, _ | _, absent => .none
  | number a, number b =>
    match a.compare? b with
    | .some o => .some o
    | .none => .none
  | text a, text b => .some (Ord.compare a b)
  | boolean a, boolean b => .some (Ord.compare a b)
  | _, _ => .mismatch

/-- Applies a comparison operator. Equality and inequality never fail; an
ordering fails on present values whose kinds do not compare. -/
def compare (op : Comparison) (l r : Scalar) : Except EvalError Bool :=
  if op.isOrdering then
    match order l r with
    | .none => .ok false
    | .some o => .ok (op.holds o)
    | .mismatch => .error (.unordered op l.kind r.kind)
  else .ok (if op = .eq then same l r else !same l r)

/-- Whether a value is in a set; lists and absent values never are. -/
def isIn (set : ValueSet) : Scalar → Bool
  | number n => set.containsNumber n
  | text s => set.containsText s
  | boolean b => set.containsBoolean b
  | absent | list _ => false

end Scalar
end RecordSieve
