import Mathlib.Data.List.Forall2
import RecordSieve.Filter.Basic
import RecordSieve.Proofs.Record.RoundTrip
/-!
# RecordSieve.Proofs.Record.Conversion

Objects that are converted to features keep their verdicts.

An object that does not claim to be a feature becomes the properties of a feature without
a place, whatever its own keys are. They stand one level below the members that the format
defines, so neither the writer nor the reader of features looks at them, and a filter that
reads properties finds there what it found in the object (`fields_toRecord_ofAttributes`).
So a list of such objects comes back from a file of features with the same verdicts under
every clause (`Record.verdicts_of_converted`).
-/

namespace RecordSieve

open GeoJson (Feature)
open Json (Members reread)

namespace GeoJson.Feature

variable {ms : Members}

/-- A feature of attributes has no members of its own that could clash. -/
theorem isProper_ofAttributes (ms : Members) : (ofAttributes ms).IsProper where
  geometry := nofun
  foreign := ⟨Members.ordered_nil, fun _ _ => rfl⟩

theorem ofRecord?_object (h : isClaimedBy (.object ms) = false) :
    ofRecord? (.object ms) = some (ofAttributes ms) := by
  rw [ofRecord?, if_neg (Bool.eq_false_iff.1 h)]
  rfl

/-- Attributes that are read back are read back one level further in. -/
theorem reread_toRecord_ofAttributes {depth : Nat}
    (h : reread depth (.object ms) = some (.object ms)) :
    reread (depth + 1) (ofAttributes ms).toRecord = some (ofAttributes ms).toRecord := by
  rw [toRecord, Json.ofPairs, Json.reread_object_self_iff]
  refine ⟨Members.ordered_ofPairs _, fun m hm => ?_⟩
  have hpairs : (ofAttributes ms).pairs Json.ofPairs =
      [("type", .string "Feature"), ("geometry", .null), ("properties", .object ms)] := rfl
  have hmem := Members.mem_ofPairs hm
  simp only [hpairs, List.mem_cons, List.not_mem_nil, or_false] at hmem
  rcases hmem with rfl | rfl | rfl
  · exact Json.reread_string depth "Feature"
  · exact Json.reread_null depth
  · exact h

/-- The properties of a feature are found whatever members stand beside them. -/
theorem members?_toRecord_ofAttributes (ms : Members) :
    FieldAccess.properties.members? (ofAttributes ms).toRecord = some ms := by
  have hget : Members.get? "properties" (ofAttributes ms).recordMembers = some (.object ms) :=
    get?_recordMembers (isProper_ofAttributes ms) (by decide)
  rw [toRecord_eq]
  exact congrArg (·.bind Json.members?) hget

end GeoJson.Feature

/-- The properties of a feature of attributes are read as the attributes are. -/
theorem fields_toRecord_ofAttributes (ms : Members) :
    FieldAccess.properties.fields (Feature.ofAttributes ms).toRecord =
      FieldAccess.flat.fields (.object ms) := by
  rw [FieldAccess.fields, Feature.members?_toRecord_ofAttributes]
  rfl

/-- A clause says the same of attributes and of the feature that has them as properties. -/
theorem Filter.evaluate_toRecord_ofAttributes (clause : String) (ms : Members) :
    (compile clause .properties).map (fun f => f.evaluate (Feature.ofAttributes ms).toRecord) =
      (compile clause .flat).map fun f => f.evaluate (.object ms) := by
  rw [compile, compile]
  cases Clause.compile clause with
  | error cause => rfl
  | ok e => exact congrArg (Except.ok ∘ e.holds) (fields_toRecord_ofAttributes ms)

namespace Record

/-- Objects that do not claim to be features are all converted, in their order, and every
clause gives the features read back the verdicts of the objects. In the file there are
three containers around an object: its feature, the list of features and the collection. -/
theorem verdicts_of_converted {objects : List Members}
    (hplain : ∀ ms ∈ objects, Feature.isClaimedBy (.object ms) = false)
    (hback : ∀ ms ∈ objects, Json.parse? (Json.object ms).text = some (.object ms))
    (hfits : ∀ ms ∈ objects, (Json.object ms).IsWithin (Json.depthLimit - 3)) :
    ∃ (w : Writer) (back : List Json),
      (Writer.start .geojson).addAll (objects.map Json.object) = (w, none) ∧
      read .geojson (Text.Utf8.encode w.finish) = .ok back ∧
      List.Forall₂ (fun ms record => ∀ clause,
        (Filter.compile clause Format.geojson.defaultAccess).map (·.evaluate record) =
          (Filter.compile clause Format.json.defaultAccess).map (·.evaluate (.object ms)))
        objects back := by
  have hread : read .geojson (Text.Utf8.encode (Writer.holding .geojson
      ((objects.map Feature.ofAttributes).map Feature.text)).finish) =
        .ok ((objects.map Feature.ofAttributes).map Feature.toRecord) := by
    refine read_features (List.forall_mem_map.2 fun ms _ => Feature.isProper_ofAttributes ms)
      (List.forall_mem_map.2 fun ms hms => ?_)
    exact Feature.reread_toRecord_ofAttributes ((hfits ms hms).reread_of_parse? (hback ms hms))
  have htexts : (objects.map Json.object).map (Writer.itemText? .geojson) =
      ((objects.map Feature.ofAttributes).map Feature.text).map some := by
    simp only [List.map_map]
    refine List.map_congr_left fun ms hms => ?_
    exact congrArg (Option.map Feature.text) (Feature.ofRecord?_object (hplain ms hms))
  refine ⟨_, _, Writer.addAll_of_texts htexts, hread, ?_⟩
  rw [List.map_map, List.forall₂_map_right_iff, List.forall₂_same]
  exact fun ms _ clause => Filter.evaluate_toRecord_ofAttributes clause ms

/-- An object with keys that mean something in a feature, and none of their meanings. -/
private def misleading : Members :=
  [("bbox", .string "none"), ("geometry", .array [.null]), ("id", .boolean true),
    ("properties", .object [("type", .string "Feature")]), ("type", .string "FeatureCollection")]

theorem verdicts_of_converted_misleading :
    Feature.isClaimedBy (.object misleading) = false ∧
      ∃ (w : Writer) (record : Json),
        (Writer.start .geojson).addAll [.object misleading] = (w, none) ∧
        read .geojson (Text.Utf8.encode w.finish) = .ok [record] ∧
        ∀ clause, (Filter.compile clause .properties).map (·.evaluate record) =
          (Filter.compile clause .flat).map (·.evaluate (.object misleading)) := by
  have hplain : Feature.isClaimedBy (.object misleading) = false := by decide
  have hback : Json.parse? (Json.object misleading).text = some (.object misleading) := by
    rw [Json.parse?_text]
    simp only [misleading, Json.depthLimit, Json.reread_object_self_iff,
      Json.reread_array_self_iff, List.forall_mem_cons, List.not_mem_nil, false_implies,
      implies_true, Json.reread_string, Json.reread_null, Json.reread_boolean, and_true]
    decide +kernel
  have hfits : (Json.object misleading).IsWithin (Json.depthLimit - 3) := by
    simp [misleading, Json.depthLimit, Json.IsWithin, Json.isContainer]
  obtain ⟨w, back, hadd, hread, hall⟩ := verdicts_of_converted
    (List.forall_mem_singleton.2 hplain) (List.forall_mem_singleton.2 hback)
    (List.forall_mem_singleton.2 hfits)
  obtain ⟨record, rest, hrecord, hrest, rfl⟩ := List.forall₂_cons_left_iff.1 hall
  cases hrest
  exact ⟨hplain, w, record, hadd, hread, hrecord⟩

end Record
end RecordSieve
