import RecordSieve.Record.Writer
import RecordSieve.Run.Files
import RecordSieve.Text.Utf8
/-!
# RecordSieve.Run.Output

Writing the records of a run, to a file or to the standard output. The file is
emptied before the first record; when a record is refused, what was written
before it stays.
-/

namespace RecordSieve

/-- Why the records of a run cannot be written. -/
inductive OutputError
  /-- No file can be created under a path. -/
  | notCreated (path : String)
  /-- A record was refused. -/
  | refused (cause : WriteError)

/-- The explanation of an error. -/
def OutputError.causes : OutputError → List Cause
  | notCreated path => [.stated ("Output: Failed to create " ++ Path.quoted path), .external]
  | refused e => e.causes

/-- What is left after writing: the files, the standard output, and the number of
records written or why writing stopped. -/
structure Written where
  files : Files
  stdout : String
  result : Except OutputError Nat

/-- The text of some records in a format, up to the first that is refused, and
the number of records or why one was refused. -/
def compose (format : Format) (records : List Json) : String × Except OutputError Nat :=
  match (Writer.start format).addAll records with
  | (w, none) => (w.finish, .ok w.accepted)
  | (w, some e) => (w.content, .error (.refused e))

/-- Writes records to where a path leads. -/
def Files.write (files : Files) (path : String) (format : Format) (records : List Json) :
    Written :=
  if Path.isStandard path then
    let (text, result) := compose format records
    ⟨files, text, result⟩
  else
    match files.creatable? path with
    | none => ⟨files, "", .error (.notCreated path)⟩
    | some name =>
      let (text, result) := compose format records
      ⟨files.set name (Text.Utf8.encode text), "", result⟩

end RecordSieve
