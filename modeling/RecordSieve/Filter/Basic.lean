import RecordSieve.Clause.Compile
import RecordSieve.Query.Evaluation
import RecordSieve.Record.Access
/-!
# RecordSieve.Filter.Basic

A filter: a compiled clause and the way it reaches the fields of a record.
-/

namespace RecordSieve

/-- The outcome of testing one record. -/
abbrev Verdict := Except EvalError Bool

/-- A compiled clause, bound to a way of reading fields. -/
structure Filter where
  /-- The clause as it was written. -/
  clause : String
  expression : Expression
  access : FieldAccess
deriving DecidableEq

namespace Filter

/-- Compiles a clause. -/
def compile (clause : String) (access : FieldAccess) : Except CompileError Filter :=
  (Clause.compile clause).map fun e => ⟨clause, e, access⟩

/-- The same predicate, reading fields in another way. -/
def withAccess (f : Filter) (access : FieldAccess) : Filter := { f with access }

/-- Tests one record. -/
def evaluate (f : Filter) (record : Json) : Verdict :=
  f.expression.holds (f.access.fields record)

@[simp] theorem clause_withAccess (f : Filter) (a : FieldAccess) :
    (f.withAccess a).clause = f.clause := rfl

@[simp] theorem expression_withAccess (f : Filter) (a : FieldAccess) :
    (f.withAccess a).expression = f.expression := rfl

@[simp] theorem access_withAccess (f : Filter) (a : FieldAccess) :
    (f.withAccess a).access = a := rfl

end Filter
end RecordSieve
