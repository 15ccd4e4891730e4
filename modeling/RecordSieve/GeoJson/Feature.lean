import RecordSieve.GeoJson.Geometry
import RecordSieve.Json.Printer
/-!
# RecordSieve.GeoJson.Feature

Features and the documents that hold them. A feature needs a geometry member,
which may be null, and has an object or null as properties; its identifier is a
text or a number. Members that a feature does not define are kept, those of a
collection are not.
-/

namespace RecordSieve
namespace GeoJson

/-- The identifier of a feature. -/
inductive Identifier
  | text (s : String)
  | number (n : JsonNumber)
deriving DecidableEq

/-- An identifier as a JSON value. -/
def Identifier.toJson : Identifier → Json
  | text s => .string s
  | number n => .number n

/-- A feature: attributes and a place. -/
structure Feature where
  geometry : Option Geometry
  properties : Option Json.Members
  bounds : Option Bounds
  identifier : Option Identifier
  foreign : Json.Members

namespace Feature

/-- Whether a value says that it is a feature. -/
def isClaimedBy (v : Json) : Bool := (v.get? "type").bind Json.string? == some "Feature"

/-- Reads the geometry of a feature: an object or null. -/
def geometry? (ms : Json.Members) : Option (Option Geometry) :=
  match Json.Members.get? "geometry" ms with
  | some .null => some none
  | some v => (Geometry.ofJson? v).map some
  | none => none

/-- Reads the properties of a feature: an object or null, which is also what a
missing member means. -/
def properties? (ms : Json.Members) : Option (Option Json.Members) :=
  match Json.Members.get? "properties" ms with
  | none | some .null => some none
  | some (.object ps) => some (some ps)
  | some _ => none

/-- Reads the identifier of a feature, if it has one. -/
def identifier? (ms : Json.Members) : Option (Option Identifier) :=
  match Json.Members.get? "id" ms with
  | none => some none
  | some (.string s) => some (some (.text s))
  | some (.number n) => some (some (.number n))
  | some _ => none

/-- The feature a JSON object describes. -/
def ofJson? (v : Json) : Option Feature := do
  let ms ← v.members?
  if isClaimedBy v then
    return {
      geometry := ← geometry? ms
      properties := ← properties? ms
      bounds := ← bounds? ms
      identifier := ← identifier? ms
      foreign := GeoJson.foreign ["type", "geometry", "properties", "bbox", "id"] ms }
  else none

/-- A feature without a place, from attributes. -/
def ofAttributes (ms : Json.Members) : Feature := ⟨none, some ms, none, none, []⟩

/-- The members of a feature in the order in which files have them. -/
def pairs (build : List (String × Json) → Json) (f : Feature) : List (String × Json) :=
  [("type", .string "Feature"),
    ("geometry", (f.geometry.map (Geometry.toJson build)).getD .null),
    ("properties", (f.properties.map Json.object).getD .null)] ++
  boundsPairs f.bounds ++ (f.identifier.map fun i => ("id", i.toJson)).toList ++ f.foreign

/-- A feature as a record, with its keys in order. -/
def toRecord (f : Feature) : Json := .ofPairs (f.pairs .ofPairs)

/-- A feature as a file has it. -/
def text (f : Feature) : String := Json.text (.object (f.pairs .object))

end Feature

/-- What a GeoJSON text can hold. -/
inductive Document
  | collection (features : List Feature)
  | feature (f : Feature)
  | geometry (g : Geometry)

namespace Document

/-- Reads a collection: its features, and a bounding box that must be one. -/
def collection? (ms : Json.Members) : Option (List Feature) := do
  let _ ← bounds? ms
  listOf? Feature.ofJson? (← Json.Members.get? "features" ms)

/-- The document a JSON object describes. -/
def ofJson? (v : Json) : Option Document := do
  let ms ← v.members?
  let kind ← (Json.Members.get? "type" ms).bind Json.string?
  if kind = "FeatureCollection" then (collection? ms).map collection
  else if kind = "Feature" then (Feature.ofJson? v).map feature
  else (Geometry.ofJson? v).map geometry

end Document
end GeoJson
end RecordSieve
