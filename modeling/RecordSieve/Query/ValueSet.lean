import RecordSieve.Query.KeyIndex
import RecordSieve.Query.Literal
/-!
# RecordSieve.Query.ValueSet

The right-hand side of `IN`: its literals in written order, and one index per
kind to answer lookups. A probe is only ever looked up among the literals of its
own kind, so `1` is not found in `('1')`.
-/

namespace RecordSieve

/-- The values of a membership list, indexed by kind. -/
structure ValueSet where
  /-- The literals as they were written, repetitions included. -/
  values : List Literal
  /-- The numbers, both zeros as one and NaNs quiet, in the order of their encodings. -/
  numbers : KeyIndex Binary64
  texts : KeyIndex String
  hasTrue : Bool
  hasFalse : Bool
deriving DecidableEq

namespace ValueSet

/-- The set of the given literals. -/
def ofList (vs : List Literal) : ValueSet where
  values := vs
  numbers := .ofList Binary64.numEq ((Literal.numbers vs).map Binary64.plusZero)
  texts := .ofList (· == ·) (Literal.texts vs)
  hasTrue := vs.contains (.boolean true)
  hasFalse := vs.contains (.boolean false)

/-- The number of literals as written. -/
def size (s : ValueSet) : Nat := s.values.length

/-- Whether nothing was written. -/
def isEmpty (s : ValueSet) : Bool := s.values.isEmpty

/-- Whether a number is in the set. -/
def containsNumber (s : ValueSet) (n : Binary64) : Bool := s.numbers.contains n.plusZero

/-- Whether a text is in the set. -/
def containsText (s : ValueSet) (t : String) : Bool := s.texts.contains t

/-- Whether a truth value is in the set. -/
def containsBoolean (s : ValueSet) (b : Bool) : Bool := if b then s.hasTrue else s.hasFalse

/-- Whether a literal is in the set, looked up by its kind. -/
def contains (s : ValueSet) : Literal → Bool
  | .number n => s.containsNumber n
  | .text t => s.containsText t
  | .boolean b => s.containsBoolean b

/-- Equality by value: the same literals in the same order. The indexes follow
from the literals. -/
def same (s t : ValueSet) : Bool :=
  s.values.length == t.values.length && (s.values.zip t.values).all fun p => p.1.same p.2

@[simp] theorem values_ofList (vs : List Literal) : (ofList vs).values = vs := rfl

end ValueSet
end RecordSieve
