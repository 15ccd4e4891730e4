/-!
# RecordSieve.Query.Comparison

The six comparison operators of a clause, the ten symbols they may be written
with, and the one symbol each is printed as.
-/

namespace RecordSieve

/-- A comparison operator. -/
inductive Comparison
  | eq
  | ne
  | lt
  | le
  | gt
  | ge
deriving DecidableEq, Repr

namespace Comparison

/-- The operator a symbol stands for. Equality and inequality have three
spellings each. -/
def ofSymbol? (symbol : String) : Option Comparison :=
  if symbol = "=" ∨ symbol = "==" ∨ symbol = "===" then some eq
  else if symbol = "!=" ∨ symbol = "!==" ∨ symbol = "<>" then some ne
  else if symbol = ">" then some gt
  else if symbol = ">=" then some ge
  else if symbol = "<" then some lt
  else if symbol = "<=" then some le
  else none

/-- The symbol an operator is printed as. -/
def symbol : Comparison → String
  | eq => "="
  | ne => "!="
  | lt => "<"
  | le => "<="
  | gt => ">"
  | ge => ">="

/-- Whether the operator needs an order and not only equality. -/
def isOrdering : Comparison → Bool
  | eq | ne => false
  | lt | le | gt | ge => true

/-- Whether an operator holds of two values in the given order. -/
def holds : Comparison → Ordering → Bool
  | eq, o => o.isEq
  | ne, o => o.isNe
  | lt, o => o.isLT
  | le, o => o.isLE
  | gt, o => o.isGT
  | ge, o => o.isGE

/-- A printed operator is read back. -/
@[simp] theorem ofSymbol?_symbol (op : Comparison) : ofSymbol? op.symbol = some op := by
  cases op <;> rfl

end Comparison
end RecordSieve
