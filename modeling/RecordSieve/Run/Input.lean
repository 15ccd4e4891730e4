import RecordSieve.Record.Reading
import RecordSieve.Run.Files
/-!
# RecordSieve.Run.Input

Loading the records of a run, from a file or from the standard input.
-/

namespace RecordSieve

/-- Why the records of a run cannot be loaded. -/
inductive InputError
  /-- No file can be opened under a path. -/
  | missing (path : String)
  /-- A path leads to a directory, which has no bytes to read. -/
  | folder (path : String)
  /-- A file does not hold what its format asks for. -/
  | unreadable (path : String) (cause : ReadError)
  /-- The standard input does not hold what its format asks for. -/
  | unreadableStream (cause : ReadError)

/-- The explanation of an error. -/
def InputError.causes : InputError → List Cause
  | missing path => [.stated ("Input: Failed to open " ++ Path.quoted path), .external]
  | folder path => [.stated ("Input: Failed to read " ++ Path.quoted path), .external]
  | unreadable path e => .stated ("Input: Failed to read " ++ Path.quoted path) :: e.causes
  | unreadableStream e => e.causes

/-- What a run finds: the files, and what its standard input holds. -/
structure Surroundings where
  files : Files
  stdin : List UInt8

/-- Loads the records that a path leads to. -/
def Surroundings.load (w : Surroundings) (path : String) (format : Format) :
    Except InputError (List Json) :=
  if Path.isStandard path then (Record.read format w.stdin).mapError .unreadableStream
  else
    match w.files.read? path with
    | none => .error (if w.files.leadsToFolder path then .folder path else .missing path)
    | some bytes => (Record.read format bytes).mapError (.unreadable path)

end RecordSieve
