import RecordSieve.GeoJson.Feature
import RecordSieve.Json.Parser
import RecordSieve.Json.Printer
import RecordSieve.Record.Format
import RecordSieve.Report.Cause
import RecordSieve.Text.Blank
import RecordSieve.Text.Utf8
/-!
# RecordSieve.Record.Reading

Reading records from the bytes of a file. The lines of a file of lines are counted
from one, blank lines included, and each is read on its own; the first bad line
ends the reading.
-/

namespace RecordSieve

/-- Why records cannot be read. -/
inductive ReadError
  /-- The bytes are no text, no JSON or no GeoJSON. -/
  | malformed
  /-- A JSON text that holds neither an array nor an object. -/
  | notRecords (value : Json)
  /-- A line that is no JSON. -/
  | malformedLine (number : Nat)
  /-- A geometry without a feature around it. -/
  | bareGeometry

/-- The explanation of an error. -/
def ReadError.causes : ReadError → List Cause
  | malformed => [.external]
  | notRecords v => [.stated ("Input: expected a JSON array or object, got " ++ v.text)]
  | malformedLine n => [.stated ("Input: Invalid JSON on line " ++ toString n), .external]
  | bareGeometry => [.stated "Input: a bare GeoJSON geometry has no attributes to filter"]

namespace Record

/-! ### Lines -/

/-- The line feed. -/
def lineFeed : UInt8 := 10

/-- The carriage return. -/
def carriageReturn : UInt8 := 13

/-- Puts a byte in front of the first segment, or starts a new one. -/
def cutAt (b : UInt8) : List (List UInt8) → List (List UInt8)
  | [] => if b = lineFeed then [[], []] else [[b]]
  | s :: ss => if b = lineFeed then [] :: s :: ss else (b :: s) :: ss

/-- The stretches of bytes between line feeds. -/
def segments (bytes : List UInt8) : List (List UInt8) := bytes.foldr cutAt [[]]

/-- A line without the carriage return before its feed. -/
def dropReturn (line : List UInt8) : List UInt8 :=
  if line.getLast? = some carriageReturn then line.dropLast else line

/-- The lines among segments: every segment but the last ends in a feed, and the
last is a line unless it is empty. -/
def linesOf : List (List UInt8) → List (List UInt8)
  | [] => []
  | [s] => if s.isEmpty then [] else [s]
  | s :: t :: ss => dropReturn s :: linesOf (t :: ss)

/-- The lines of some bytes. -/
def lines (bytes : List UInt8) : List (List UInt8) := linesOf (segments bytes)

/-! ### Formats -/

/-- Reads lines, the first of them with a given number. -/
def readLines (number : Nat) : List (List UInt8) → Except ReadError (List Json)
  | [] => .ok []
  | line :: rest =>
    match Text.Utf8.decode? line with
    | none => .error .malformed
    | some text =>
      if Text.allBlank text.toList then readLines (number + 1) rest
      else
        match Json.parse? text with
        | none => .error (.malformedLine number)
        | some v => (readLines (number + 1) rest).map (v :: ·)

/-- The JSON value that some bytes hold. -/
def readJson? (bytes : List UInt8) : Option Json := (Text.Utf8.decode? bytes).bind Json.parse?

/-- The records a JSON value holds: the items of an array, or one object. -/
def ofJson : Json → Except ReadError (List Json)
  | .array vs => .ok vs
  | .object ms => .ok [.object ms]
  | v => .error (.notRecords v)

/-- The records a document holds: its features. -/
def ofDocument : GeoJson.Document → Except ReadError (List Json)
  | .collection fs => .ok (fs.map GeoJson.Feature.toRecord)
  | .feature f => .ok [f.toRecord]
  | .geometry _ => .error .bareGeometry

/-- Reads the records of a file of a given format. -/
def read (format : Format) (bytes : List UInt8) : Except ReadError (List Json) :=
  match format with
  | .jsonl => readLines 1 (lines bytes)
  | .json =>
    match readJson? bytes with
    | some v => ofJson v
    | none => .error .malformed
  | .geojson =>
    match (readJson? bytes).bind GeoJson.Document.ofJson? with
    | some d => ofDocument d
    | none => .error .malformed

@[simp] theorem segments_nil : segments [] = [[]] := rfl

theorem segments_cons (b : UInt8) (bs : List UInt8) :
    segments (b :: bs) = cutAt b (segments bs) := rfl

@[simp] theorem lines_nil : lines [] = [] := rfl

end Record
end RecordSieve
