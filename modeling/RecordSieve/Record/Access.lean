import RecordSieve.Json.Value
import RecordSieve.Query.Scalar
import RecordSieve.Record.Path
/-!
# RecordSieve.Record.Access

A record is a JSON value. Its fields are the members of an object: of the record
itself, or of the object it holds under `attributes` or `properties`. A record
that lacks that object has no fields.
-/

namespace RecordSieve

/-- Where a record keeps its fields. -/
inductive FieldAccess
  /-- In the record itself. -/
  | flat
  /-- In the object under `attributes`. -/
  | attributes
  /-- In the object under `properties`, as features do. -/
  | properties
deriving DecidableEq, Repr

/-- The value of a JSON value as a field: null and nested values read as absent. -/
def Scalar.ofJson : Json → Scalar
  | .number n => .number n.toBinary64
  | .string s => .text s
  | .boolean b => .boolean b
  | .null | .array _ | .object _ => .absent

/-- The fields of an object. -/
def Fields.ofMembers (ms : Json.Members) : Fields := fun name =>
  match Json.Members.get? name ms with
  | .some v => .ofJson v
  | .none => .absent

namespace FieldAccess

/-- All ways of access. -/
def all : List FieldAccess := [flat, attributes, properties]

/-- The name of a way of access in options and in files. -/
def name : FieldAccess → String
  | flat => "flat"
  | attributes => "attributes"
  | properties => "properties"

/-- The name of a way of access in messages. -/
def title : FieldAccess → String
  | flat => "Flat"
  | attributes => "Attributes"
  | properties => "Properties"

/-- The way of access with a given name. -/
def ofName? (s : String) : Option FieldAccess := all.find? fun a => a.name == s

/-- The key that holds the fields, if they are nested. -/
def container? : FieldAccess → Option String
  | flat => none
  | attributes => some "attributes"
  | properties => some "properties"

/-- The object that holds a record's fields. -/
def members? (a : FieldAccess) (record : Json) : Option Json.Members :=
  match a.container? with
  | none => record.members?
  | some key => (record.get? key).bind Json.members?

/-- The fields of a record. -/
def fields (a : FieldAccess) (record : Json) : Fields :=
  match a.members? record with
  | some ms => .ofMembers ms
  | none => .none

/-- The record with one field set, or nothing if it has no object for fields. -/
def setField? (a : FieldAccess) (field : String) (value : Json) (record : Json) : Option Json :=
  match record with
  | .object ms =>
    match a.container? with
    | none => some (.object (Json.Members.insert field value ms))
    | some key =>
      ((Json.Members.get? key ms).bind Json.members?).map fun inner =>
        .object (Json.Members.insert key (.object (Json.Members.insert field value inner)) ms)
  | _ => none

@[simp] theorem ofName?_name (a : FieldAccess) : ofName? a.name = some a := by
  cases a <;> rfl

/-- A field can be set exactly in the records that have fields. -/
theorem isSome_setField? (a : FieldAccess) (field : String) (value record : Json) :
    (a.setField? field value record).isSome = (a.members? record).isSome := by
  cases record with
  | object ms =>
    cases a with
    | flat => rfl
    | _ => exact Option.isSome_map
  | _ => cases a <;> rfl

end FieldAccess
end RecordSieve
