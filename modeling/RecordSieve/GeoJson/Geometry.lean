import RecordSieve.Json.Value
/-!
# RecordSieve.GeoJson.Geometry

Geometries, and how they are read from JSON and written to it. Reading checks the
shape of the coordinates and makes every number in them a double; members that a
geometry does not define are kept.

How the members of an object are arranged is left to the caller of `toJson`: a
file has them in the order in which they are listed here, a record in the order
of their keys.
-/

namespace RecordSieve
namespace GeoJson

/-- The number a JSON value is, as a double. -/
def number? : Json → Option Binary64
  | .number n => some n.toBinary64
  | _ => none

/-- Reads every item of an array. -/
def listOf? {α : Type} (item? : Json → Option α) : Json → Option (List α)
  | .array vs => vs.mapM item?
  | _ => none

/-- A list of doubles as a JSON array. -/
def numbersToJson (xs : List Binary64) : Json :=
  .array (xs.map fun x => .number (.double x))

/-- A list as a JSON array. -/
def listToJson {α : Type} (toJson : α → Json) (xs : List α) : Json := .array (xs.map toJson)

/-! ### Positions and coordinates -/

/-- A position: at least two numbers. -/
structure Position where
  first : Binary64
  second : Binary64
  more : List Binary64
deriving DecidableEq

/-- The position that a JSON array of numbers gives. -/
def Position.ofJson? (v : Json) : Option Position :=
  match listOf? number? v with
  | some (x :: y :: more) => some ⟨x, y, more⟩
  | _ => none

/-- A position as a JSON array. -/
def Position.toJson (p : Position) : Json := numbersToJson (p.first :: p.second :: p.more)

/-- The coordinates of a geometry, by its kind. -/
inductive Coordinates
  | point (position : Position)
  | multiPoint (positions : List Position)
  | lineString (positions : List Position)
  | multiLineString (lines : List (List Position))
  | polygon (rings : List (List Position))
  | multiPolygon (polygons : List (List (List Position)))

namespace Coordinates

/-- The name of a kind of geometry. -/
def kind : Coordinates → String
  | point _ => "Point"
  | multiPoint _ => "MultiPoint"
  | lineString _ => "LineString"
  | multiLineString _ => "MultiLineString"
  | polygon _ => "Polygon"
  | multiPolygon _ => "MultiPolygon"

/-- Coordinates as nested JSON arrays. -/
def toJson : Coordinates → Json
  | point p => p.toJson
  | multiPoint ps | lineString ps => listToJson Position.toJson ps
  | multiLineString ls | polygon ls => listToJson (listToJson Position.toJson) ls
  | multiPolygon ps => listToJson (listToJson (listToJson Position.toJson)) ps

/-- Reads coordinates of a given kind. -/
def ofJson? (kind : String) (v : Json) : Option Coordinates :=
  let line? := listOf? Position.ofJson?
  if kind = "Point" then (Position.ofJson? v).map point
  else if kind = "MultiPoint" then (line? v).map multiPoint
  else if kind = "LineString" then (line? v).map lineString
  else if kind = "MultiLineString" then (listOf? line? v).map multiLineString
  else if kind = "Polygon" then (listOf? line? v).map polygon
  else if kind = "MultiPolygon" then (listOf? (listOf? line?) v).map multiPolygon
  else none

end Coordinates

/-! ### Geometries -/

/-- The numbers of a bounding box. -/
abbrev Bounds := List Binary64

/-- Reads the bounding box among some members: an array of numbers, or none when
it is null or missing. Anything else is refused. -/
def bounds? (ms : Json.Members) : Option (Option Bounds) :=
  match Json.Members.get? "bbox" ms with
  | none | some .null => some none
  | some v => (listOf? number? v).map some

/-- A bounding box as a member. -/
def boundsPairs (b : Option Bounds) : List (String × Json) :=
  (b.map fun xs => ("bbox", numbersToJson xs)).toList

/-- The members under none of the given keys. -/
def foreign (keys : List String) (ms : Json.Members) : Json.Members :=
  keys.foldl (fun ms k => Json.Members.erase k ms) ms

/-- A geometry: coordinates, or a collection of further geometries. -/
inductive Geometry
  | single (coordinates : Coordinates) (bounds : Option Bounds) (foreign : Json.Members)
  | collection (geometries : List Geometry) (bounds : Option Bounds) (foreign : Json.Members)

namespace Geometry

/-- The name of a collection of geometries. -/
def collectionKind : String := "GeometryCollection"

/-- A geometry with the given members, which holds `parts` when it is a
collection. -/
def ofMembers? (ms : Json.Members) (parts : Option (List Geometry)) : Option Geometry := do
  let kind ← (Json.Members.get? "type" ms).bind Json.string?
  if kind = collectionKind then
    return .collection (← parts) (← bounds? ms) (foreign ["type", "geometries", "bbox"] ms)
  else
    let coordinates ← Coordinates.ofJson? kind (← Json.Members.get? "coordinates" ms)
    return .single coordinates (← bounds? ms) (foreign ["type", "coordinates", "bbox"] ms)

mutual

/-- The geometry a JSON object describes. -/
def ofJson? : Json → Option Geometry
  | .object ms => ofMembers? ms (partsUnder? ms)
  | _ => none

/-- The geometries under the key of a collection's parts. -/
def partsUnder? : List (String × Json) → Option (List Geometry)
  | [] => none
  | (k, v) :: ms => if k = "geometries" then partsOf? v else partsUnder? ms

/-- The geometries in an array. -/
def partsOf? : Json → Option (List Geometry)
  | .array vs => allOf? vs
  | _ => none

/-- A geometry for each value. -/
def allOf? : List Json → Option (List Geometry)
  | [] => some []
  | v :: vs => do
    let g ← ofJson? v
    let gs ← allOf? vs
    return g :: gs

end

mutual

/-- A geometry as a JSON object, arranged by `build`. -/
def toJson (build : List (String × Json) → Json) : Geometry → Json
  | single c b more =>
    build ([("type", .string c.kind), ("coordinates", c.toJson)] ++ boundsPairs b ++ more)
  | collection gs b more =>
    build ([("type", .string collectionKind), ("geometries", .array (allToJson build gs))] ++
      boundsPairs b ++ more)

/-- Each geometry as a JSON object. -/
def allToJson (build : List (String × Json) → Json) : List Geometry → List Json
  | [] => []
  | g :: gs => g.toJson build :: allToJson build gs

end

end Geometry
end GeoJson
end RecordSieve
