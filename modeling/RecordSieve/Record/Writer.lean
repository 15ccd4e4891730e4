import RecordSieve.GeoJson.Feature
import RecordSieve.Record.Format
import RecordSieve.Report.Cause
/-!
# RecordSieve.Record.Writer

Writing records one after another in one of the formats. A writer holds the text
written so far; a record that its format cannot hold is refused and leaves no
trace in it.
-/

namespace RecordSieve

/-- Why a record is refused; `position` is the number of records accepted before. -/
inductive WriteError
  /-- A record that says it is a feature and is none. -/
  | invalidFeature (position : Nat)
  /-- A record that is no object. -/
  | notFeature (position : Nat) (record : Json)

/-- The explanation of an error. -/
def WriteError.causes : WriteError → List Cause
  | invalidFeature n =>
    [.stated ("Output: record " ++ toString n ++ " is not a valid GeoJSON feature"), .external]
  | notFeature n record =>
    [.stated ("Output: record " ++ toString n ++ " cannot be written as a GeoJSON feature: " ++
      record.text)]

/-- Records being written. -/
structure Writer where
  format : Format
  /-- The text so far. -/
  content : String
  /-- How many records are in it. -/
  accepted : Nat

namespace Writer

/-- What a file of a format starts with. -/
def opening : Format → String
  | .jsonl => ""
  | .json => "[\n"
  | .geojson => "\x7b\n  \"type\": \"FeatureCollection\",\n  \"features\": [\n"

/-- What stands between two records. -/
def separator : Format → String
  | .jsonl => ""
  | .json | .geojson => ",\n"

/-- What a file of a format ends with after a number of records. -/
def closing (accepted : Nat) : Format → String
  | .jsonl => ""
  | .json => if accepted = 0 then "]\n" else "\n]\n"
  | .geojson => "\n  ]\n\x7d\n"

/-- A writer without records. -/
def start (format : Format) : Writer := ⟨format, opening format, 0⟩

/-- The feature that stands for a record: the record itself if it says it is one,
otherwise a feature without a place that has the record as its properties. -/
def feature (position : Nat) (record : Json) : Except WriteError GeoJson.Feature :=
  if GeoJson.Feature.isClaimedBy record then
    match GeoJson.Feature.ofJson? record with
    | some f => .ok f
    | none => .error (.invalidFeature position)
  else
    match record.members? with
    | some ms => .ok (.ofAttributes ms)
    | none => .error (.notFeature position record)

/-- The text of one record in a format. -/
def item (format : Format) (position : Nat) (record : Json) : Except WriteError String :=
  match format with
  | .jsonl => .ok (record.text ++ "\n")
  | .json => .ok ("  " ++ record.text)
  | .geojson => (feature position record).map GeoJson.Feature.text

/-- Writes one more record. -/
def add (w : Writer) (record : Json) : Except WriteError Writer :=
  (item w.format w.accepted record).map fun text =>
    { w with
      content := w.content ++ (if w.accepted = 0 then "" else separator w.format) ++ text
      accepted := w.accepted + 1 }

/-- The whole text, once no record follows. -/
def finish (w : Writer) : String := w.content ++ closing w.accepted w.format

/-- Writes records until one is refused: the writer as it then stands, and the
error if there was one. -/
def addAll (w : Writer) : List Json → Writer × Option WriteError
  | [] => (w, none)
  | r :: rs =>
    match w.add r with
    | .ok next => next.addAll rs
    | .error e => (w, some e)

end Writer
end RecordSieve
