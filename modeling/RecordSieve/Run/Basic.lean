import RecordSieve.Filter.Batch
import RecordSieve.Run.Input
import RecordSieve.Run.Output
import RecordSieve.Run.Selection
/-!
# RecordSieve.Run.Basic

A run: records are read, filtered or marked, and written. All that can be found
out without the output is found out in the plan of the run, which touches no file;
only then the output is opened and written.

A run with exactly one thread evaluates the records one after another, any other
run in the order of a schedule.
-/

namespace RecordSieve

/-- Why a run fails. -/
inductive RunError
  /-- The input has no format. -/
  | inputFormat
  /-- The output has no format. -/
  | outputFormat
  | selection (cause : SelectionError)
  | input (cause : InputError)
  /-- A strict run has mismatches. -/
  | mismatches (failed total : Nat) (first : Mismatch)
  | output (cause : OutputError)

/-- The explanation of an error. -/
def RunError.causes : RunError → List Cause
  | inputFormat =>
    [.stated "CLI: Could not detect input format from extension; use --input-format"]
  | outputFormat => [.stated "CLI: Could not detect output format from extension; use --format"]
  | selection e => e.causes
  | input e => e.causes
  | mismatches failed total first =>
    [.stated ("Filter: " ++ toString failed ++ " of " ++ toString total ++
      " records could not be evaluated (first at record " ++ toString first.index ++ ": " ++
      first.error.text ++ ")")]
  | output e => e.causes

/-- What a run did: the numbers of records it read, wrote and could not evaluate. -/
structure Summary where
  read : Nat
  written : Nat
  mismatches : Nat
deriving DecidableEq, Repr

/-- The records a run is going to write, and what led to them. -/
structure Plan where
  format : Format
  records : List Json
  read : Nat
  mismatches : Nat

/-- What is left after a run. -/
structure Outcome where
  result : Except RunError Summary
  files : Files
  stdout : String
  events : List Event

/-- An order of work for every number of records. -/
abbrev Scheduling := (n : Nat) → Schedule n

/-- A record with its flag in the object of its fields; a record without that
object is left as it is, which is reported. -/
def setFlag (access : FieldAccess) (field : String) (record : Json) (visible : Bool) :
    Logged Json :=
  match access.setField? field (.boolean visible) record with
  | some flagged => pure flagged
  | none => do
    Logged.report .flagNotWritten
    return record

/-- Every record with its flag. -/
def setFlags (access : FieldAccess) (field : String) : List (Json × Bool) → Logged (List Json)
  | [] => pure []
  | (record, visible) :: rest => do
    let flagged ← setFlag access field record visible
    let more ← setFlags access field rest
    return flagged :: more

/-- A result that reports nothing, with its error wrapped. -/
def attempt {ε δ α : Type} (wrap : ε → δ) (r : Except ε α) : Attempt δ α :=
  ExceptT.mk (pure (r.mapError wrap))

namespace Options

/-- The format of the input: as the options say, else of its extension; the
standard input has lines. -/
def inputFormat? (o : Options) : Option Format :=
  match o.inputFormat with
  | some f => some f
  | none => if Path.isStandard o.input then some .jsonl else Format.ofPath? o.input

/-- The format of the output: as the options say, else of its extension; the
standard output has lines. -/
def outputFormat? (o : Options) : Option Format :=
  match o.outputFormat with
  | some f => some f
  | none => if Path.isStandard o.output then some .jsonl else Format.ofPath? o.output

/-- Whether records are evaluated in the order of a schedule. -/
def isParallel (o : Options) : Bool := o.threads != some 1

/-- The records to write and the mismatches when records are filtered. -/
def filterRecords (o : Options) (f : Filter) (schedule : Scheduling) (records : List Json) :
    Logged (List Json × List Mismatch) := do
  let filtered ←
    if o.isParallel then f.parApply records (schedule records.length) else f.apply records
  return (filtered.records, filtered.mismatches)

/-- The records to write and the mismatches when records are marked. -/
def markRecords (o : Options) (f : Filter) (schedule : Scheduling) (records : List Json) :
    Logged (List Json × List Mismatch) :=
  if o.isParallel then do
    let marked ← f.parMark records (schedule records.length)
    let flagged ← setFlags f.access o.markField (records.zip marked.flags)
    return (flagged, marked.mismatches)
  else f.markWith (setFlag f.access o.markField) records

/-- The records to write and the mismatches. -/
def process (o : Options) (f : Filter) (schedule : Scheduling) (records : List Json) :
    Logged (List Json × List Mismatch) :=
  if o.mark then o.markRecords f schedule records else o.filterRecords f schedule records

/-- Refuses mismatches in a strict run. -/
def gate (strict : Bool) (total : Nat) (mismatches : List Mismatch) : Except RunError Unit :=
  match strict, mismatches with
  | true, first :: _ => .error (.mismatches mismatches.length total first)
  | _, _ => .ok ()

/-- Finds out what a run is going to write. -/
def plan (o : Options) (w : Surroundings) (schedule : Scheduling) : Attempt RunError Plan := do
  let some input := o.inputFormat? | throw .inputFormat
  let some output := o.outputFormat? | throw .outputFormat
  let selection ← ExceptT.adapt RunError.selection (o.select w.files input)
  let f := selection.filter
  report (.filterChosen f.expression f.access selection.strict)
  let records ← attempt .input (w.load o.input input)
  report (.recordsRead records.length o.input input)
  let (kept, mismatches) ← ExceptT.lift (o.process f schedule records)
  attempt id (gate selection.strict records.length mismatches)
  return ⟨output, kept, records.length, mismatches.length⟩

/-- Writes what a run was going to write. -/
def execute (o : Options) (w : Surroundings) (p : Plan) : Outcome :=
  let written := w.files.write o.output p.format p.records
  { result := (written.result.mapError .output).map fun n => ⟨p.read, n, p.mismatches⟩
    files := written.files
    stdout := written.stdout
    events := [.outputOpened p.format o.output] }

/-- A run. -/
def run (o : Options) (w : Surroundings) (schedule : Scheduling) : Outcome :=
  let planned := (o.plan w schedule).run
  match planned.value with
  | .error e => ⟨.error e, w.files, "", planned.events⟩
  | .ok p =>
    let done := o.execute w p
    { done with events := planned.events ++ done.events }

end Options
end RecordSieve
