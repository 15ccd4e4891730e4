import RecordSieve.Query.Expression
import RecordSieve.Record.Format
/-!
# RecordSieve.Report.Event

What the library reports while it works, besides its results. An event keeps what
it is about; `message` holds all the wording.
-/

namespace RecordSieve

/-- How much an event matters. -/
inductive Severity
  | debug
  | info
  | warn
deriving DecidableEq, Repr

/-- The name of a severity. -/
def Severity.name : Severity → String
  | .debug => "DEBUG"
  | .info => "INFO"
  | .warn => "WARN"

/-- Something worth reporting. -/
inductive Event
  /-- A record could not be evaluated and counts as not matching. -/
  | recordSkipped (index : Nat) (error : EvalError)
  /-- Some records of a batch could not be evaluated. -/
  | recordsSkipped (failed total : Nat) (clause : String)
  /-- A record has no object to put its flag into. -/
  | flagNotWritten
  /-- A filters file has been loaded and compiled. -/
  | filtersLoaded (count : Nat) (path : String)
  /-- The filter of a run has been settled. -/
  | filterChosen (expression : Expression) (access : FieldAccess) (strict : Bool)
  /-- The records of a run have been read. -/
  | recordsRead (count : Nat) (path : String) (format : Format)
  /-- The output of a run is about to be opened. -/
  | outputOpened (format : Format) (path : String)
deriving DecidableEq

namespace Event

/-- How much an event matters. -/
def severity : Event → Severity
  | recordSkipped .. | flagNotWritten => .debug
  | recordsSkipped .. => .warn
  | filtersLoaded .. | filterChosen .. | recordsRead .. | outputOpened .. => .info

/-- The text of an event. -/
def message : Event → String
  | recordSkipped i e => "Filter: record " ++ toString i ++ " skipped: " ++ e.text
  | recordsSkipped m n clause =>
    "Filter: " ++ toString m ++ " of " ++ toString n ++
      " records could not be evaluated against '" ++ clause ++ "'"
  | flagNotWritten => "Mark: record has no field object, flag not written"
  | filtersLoaded n path =>
    "Config: " ++ toString n ++ " filters loaded from " ++ Path.quoted path
  | filterChosen e access strict =>
    "Filter: " ++ e.text ++ " (fields: " ++ access.title ++ ", strict: " ++
      (if strict then "true" else "false") ++ ")"
  | recordsRead n path format =>
    "Input: " ++ toString n ++ " records from " ++ Path.quoted path ++ " (" ++ format.label ++ ")"
  | outputOpened format path =>
    "Sink: " ++ format.label ++ " -> " ++
      (if Path.isStandard path then "stdout" else Path.quoted path)

/-- An event as one line: its severity, then its text. -/
def line (e : Event) : String := e.severity.name ++ " " ++ e.message

end Event
end RecordSieve
