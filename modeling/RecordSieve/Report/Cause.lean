import RecordSieve.Clause.Error
/-!
# RecordSieve.Report.Cause

How a failure is explained: a list of causes from the outermost in. What a format
or the file system found wrong is not worded by this library; such a cause closes
the list.
-/

namespace RecordSieve

/-- One step in the explanation of a failure. -/
inductive Cause
  /-- A message of this library. -/
  | stated (message : String)
  /-- A clause does not compile. -/
  | clause (error : CompileError)
  /-- A fault that is worded elsewhere. -/
  | external
deriving DecidableEq, Repr

/-- The text of a cause, with a given wording for what is worded elsewhere. -/
def Cause.text (elsewhere : String) : Cause → String
  | stated m => m
  | clause e => e.heading ++ ": " ++ e.message?.getD elsewhere
  | external => elsewhere

end RecordSieve
