import RecordSieve.Record.Access
/-!
# RecordSieve.Record.Format

The file formats of records, on both sides: a JSON array, one JSON value per
line, or GeoJSON features.
-/

namespace RecordSieve

/-- A file format of records. -/
inductive Format
  /-- One JSON array; as input also a single object. -/
  | json
  /-- One JSON value per line. -/
  | jsonl
  /-- A collection of features; as input also a single feature. -/
  | geojson
deriving DecidableEq, Repr

namespace Format

/-- The name of a format. -/
def label : Format → String
  | json => "json"
  | jsonl => "jsonl"
  | geojson => "geojson"

/-- The format an option names. Lines of GeoJSON are lines of JSON. -/
def ofOption? (s : String) : Option Format :=
  if s = "json" then some json
  else if s = "jsonl" ∨ s = "geojsonl" then some jsonl
  else if s = "geojson" then some geojson
  else none

/-- The format a file's extension stands for, in any letter case. -/
def ofPath? (path : String) : Option Format :=
  (Path.extension? path).bind fun e =>
    let e := String.ofList (e.map Char.toLower)
    if e = "json" then some json
    else if e = "jsonl" ∨ e = "ndjson" ∨ e = "geojsonl" then some jsonl
    else if e = "geojson" then some geojson
    else none

/-- Where the records of a format usually keep their fields. -/
def defaultAccess : Format → FieldAccess
  | geojson => .properties
  | json | jsonl => .flat

@[simp] theorem ofOption?_label (f : Format) : ofOption? f.label = some f := by
  cases f <;> rfl

end Format
end RecordSieve
