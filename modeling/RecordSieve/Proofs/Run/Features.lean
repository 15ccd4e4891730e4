import RecordSieve.Proofs.Record.RoundTrip
import RecordSieve.Proofs.Run.Outline
/-!
# RecordSieve.Proofs.Run.Features

Features from a reader to a writer.

A record that the reader of collections gives stays the record of a feature when a flag is
set under its properties (`Feature.flagged_toRecord`), so a writer of collections takes
what a run keeps, whether it filters or marks (`Options.Intake.isNative_of_kept`). Such a
run does not fail for the sake of a record (`taken_as_read`).
-/

namespace RecordSieve

open Json (Members)

/-! ### Flags among the properties -/

namespace GeoJson.Feature

/-- The feature with a flag among its properties; without properties it stays as it is. -/
def withFlag (f : Feature) (field : String) (visible : Bool) : Feature :=
  { f with properties := f.properties.map (Members.insert field (.boolean visible)) }

theorem IsProper.withFlag {f : Feature} (h : f.IsProper) (field : String) (visible : Bool) :
    (f.withFlag field visible).IsProper := ⟨h.geometry, h.foreign⟩

/-- A flag does not touch a feature beside its properties. -/
theorem get?_recordMembers_withFlag {f : Feature} (h : f.IsProper) {key : String}
    (hkey : key ≠ "properties") (field : String) (visible : Bool) :
    Members.get? key (f.withFlag field visible).recordMembers =
      Members.get? key f.recordMembers := by
  have hget : ∀ g : Feature, g.IsProper → Members.get? key g.recordMembers =
      Members.get? key (g.own Json.ofPairs ++ g.foreign) := fun g hg =>
    Members.get?_ofPairs (nodup_keys (isOwn_own Json.ofPairs g) hg.foreign) key
  rw [hget _ (h.withFlag field visible), hget _ h]
  simp [own, attributes, withFlag, place, Members.get?, hkey.symm]

/-- Flagging the record of a feature is flagging the feature. -/
theorem flagged_toRecord {f : Feature} (h : f.IsProper) (field : String) (visible : Bool) :
    FieldAccess.properties.flagged field f.toRecord visible =
      (f.withFlag field visible).toRecord := by
  obtain ⟨g, _ | ps, b, i, more⟩ := f
  · have hproperties : Members.get? "properties" (recordMembers ⟨g, none, b, i, more⟩) = some .null :=
      get?_recordMembers h (by decide)
    have hnone : FieldAccess.properties.members? (toRecord ⟨g, none, b, i, more⟩) = none := by
      rw [toRecord_eq]
      exact congrArg (Option.bind · Json.members?) hproperties
    exact FieldAccess.properties.flagged_of_members?_eq_none field hnone visible
  · let f : Feature := ⟨g, some ps, b, i, more⟩
    have hproperties : Members.get? "properties" f.recordMembers = some (.object ps) :=
      get?_recordMembers h (by decide)
    have hflagged : FieldAccess.properties.flagged field f.toRecord visible =
        .object (Members.insert "properties"
          (.object (Members.insert field (.boolean visible) ps)) f.recordMembers) := by
      rw [toRecord_eq, FieldAccess.flagged, FieldAccess.setField?]
      simp [FieldAccess.container?, hproperties, Json.members?]
    -- Members in order are known from what is found among them.
    rw [hflagged, toRecord_eq]
    refine congrArg Json.object (Members.Ordered.ext ((Members.ordered_ofPairs _).insert _ _)
      (Members.ordered_ofPairs _) fun key => ?_)
    by_cases hkey : key = "properties"
    · have hset : Members.get? "properties" (f.withFlag field visible).recordMembers =
          some (.object (Members.insert field (.boolean visible) ps)) :=
        get?_recordMembers (h.withFlag field visible) (by decide)
      rw [hkey, Members.get?_insert_self]
      exact hset.symm
    · rw [Members.get?_insert_of_ne hkey]
      exact (get?_recordMembers_withFlag h hkey field visible).symm

end GeoJson.Feature

namespace Record

/-- A flag among the properties keeps a record one that a reader of collections gives. -/
theorem IsNative.flagged {r : Json} (h : IsNative .geojson r) (field : String) (visible : Bool) :
    IsNative .geojson (FieldAccess.properties.flagged field r visible) := by
  obtain ⟨f, hf, rfl⟩ := h
  exact ⟨_, hf.withFlag field visible, GeoJson.Feature.flagged_toRecord hf field visible⟩

/-- A collection takes what a reader of collections gives. -/
theorem IsNative.itemText? {r : Json} (h : IsNative .geojson r) :
    ∃ text, Writer.itemText? .geojson r = some text := by
  obtain ⟨f, hf, rfl⟩ := h
  exact ⟨f.text, congrArg (Option.map GeoJson.Feature.text)
    (GeoJson.Feature.ofRecord?_toRecord hf)⟩

theorem IsNative.exists_add {r : Json} (h : IsNative .geojson r) {w : Writer}
    (hw : w.format = .geojson) : ∃ next, w.add r = .ok next := by
  obtain ⟨text, htext⟩ := h.itemText?
  rw [Writer.add, hw, Writer.item_of_some htext]
  exact ⟨_, rfl⟩

end Record

/-! ### Runs -/

namespace Options

variable {o : Options} {w : Surroundings}

namespace Intake

variable (i : o.Intake w)

/-- What a run loads is what a reader of its format gives. -/
theorem isNative_of_records : ∀ r ∈ i.records, Record.IsNative i.input r := by
  have hload := i.records_eq
  unfold Surroundings.load at hload
  split at hload
  · exact Record.isNative_of_read (Except.mapError_eq_ok_iff.1 hload)
  · split at hload
    · cases hload
    · exact Record.isNative_of_read (Except.mapError_eq_ok_iff.1 hload)

/-- What a run on collections keeps is what a reader of collections gives, too. -/
theorem isNative_of_kept (hinput : i.input = .geojson)
    (haccess : o.mark = true → i.filter.access = .properties) :
    ∀ r ∈ i.kept, Record.IsNative .geojson r := by
  have hrecords : ∀ r ∈ i.records, Record.IsNative .geojson r := hinput ▸ i.isNative_of_records
  intro r hr
  unfold kept Options.kept at hr
  split at hr
  · rename_i hmark
    obtain ⟨s, hs, rfl⟩ := List.mem_map.1 hr
    rw [haccess hmark]
    exact (hrecords s hs).flagged o.markField _
  · exact hrecords r (List.mem_of_mem_filter hr)

end Intake

/-- Writing is not refused if every record has a text. -/
theorem write_ne_refused {format : Format} {records : List Json}
    (h : ∀ r ∈ records, ∃ text, Writer.itemText? format r = some text) (files : Files)
    (path : String) (e : WriteError) :
    (files.write path format records).result ≠ .error (.refused e) := by
  have hcompose : (compose format records).2 ≠ .error (.refused e) := by
    rcases Writer.texts_or_refused format records with ⟨texts, ht⟩ | ⟨before, r, after, _, rfl, hr, -⟩
    · rw [compose_of_texts ht]
      exact nofun
    · obtain ⟨text, htext⟩ := h r (by simp)
      rw [hr] at htext
      cases htext
  unfold Files.write
  split
  · exact hcompose
  · split
    · exact nofun
    · exact hcompose

/-- A run from a collection to a collection is not refused a record, as long as it sets
its flags among the properties. -/
theorem run_ne_refused (hinput : o.inputFormat? = some .geojson)
    (houtput : o.outputFormat? = some .geojson)
    (haccess : ∀ s, o.Selects w.files .geojson s → s.filter.access = .properties)
    (schedule : Scheduling) (e : WriteError) :
    (o.run w schedule).result ≠ .error (.output (.refused e)) := by
  intro h
  rcases o.admitted_or_unplanned w with ⟨i, hadmitted⟩ | ⟨cause, hcause⟩
  · have hinput : i.input = .geojson := Option.some.inj (i.input_eq.symm.trans hinput)
    have houtput : i.output = .geojson := Option.some.inj (i.output_eq.symm.trans houtput)
    have hselects := value_select_eq_ok_iff.1 i.selection_eq
    have hkept := i.isNative_of_kept hinput fun _ => haccess _ (hinput ▸ hselects)
    obtain ⟨hresult, -, -⟩ := i.run_of_admitted hadmitted schedule
    rw [hresult, houtput] at h
    cases hwrite : (w.files.write o.output .geojson i.kept).result with
    | ok n =>
      rw [hwrite] at h
      cases h
    | error cause =>
      rw [hwrite] at h
      cases h
      exact write_ne_refused (fun r hr => (hkept r hr).itemText?) w.files o.output e hwrite
  · -- What keeps a run from writing is not the writing.
    rw [run_of_outline_error hcause.outline] at h
    cases h
    cases hcause

end Options

/-- What the reader of collections gives, a writer of collections takes: every record as
it is, and with a flag of any name among its properties. The records that are written are
read again when their own texts are and nothing nests too deep. And no run from a
collection to a collection that flags properties, if it flags at all, fails because a
record is refused. -/
theorem taken_as_read :
    (∀ bytes records, Record.read .geojson bytes = .ok records →
      (∀ r ∈ records, ∀ w : Writer, w.format = .geojson →
        (∃ next, w.add r = .ok next) ∧
          ∀ field visible, ∃ next,
            w.add (setFlag .properties field r visible).value = .ok next) ∧
      ((∀ r ∈ records, Json.parse? r.text = some r) → Record.Fits .geojson records →
        ∃ w : Writer, (Writer.start .geojson).addAll records = (w, none) ∧
          Record.read .geojson (Text.Utf8.encode w.finish) = .ok records)) ∧
    ∀ (o : Options) (w : Surroundings) (schedule : Scheduling),
      o.inputFormat? = some .geojson → o.outputFormat? = some .geojson →
      (∀ s, o.Selects w.files .geojson s → s.filter.access = .properties) →
      ∀ e, (o.run w schedule).result ≠ .error (.output (.refused e)) := by
  refine ⟨fun bytes records hread => ⟨fun r hr w hw => ⟨?_, fun field visible => ?_⟩, ?_⟩, ?_⟩
  · exact (Record.isNative_of_read hread r hr).exists_add hw
  · rw [value_setFlag]
    exact ((Record.isNative_of_read hread r hr).flagged field visible).exists_add hw
  · intro hback hfits
    exact Record.addAll_native (Record.isNative_of_read hread) hfits hback
  · intro o w schedule hinput houtput haccess e
    exact Options.run_ne_refused hinput houtput haccess schedule e

/-- A feature as a file may have it: its members in any order, whole numbers in its place,
and a member of its own. -/
private def wovenFeature : Json :=
  .object [("type", .string "Feature"), ("title", .string "a\nb"), ("id", .number (.integer 7)),
    ("properties", .object [("name", .string "Oslo")]),
    ("geometry", .object [("type", .string "GeometryCollection"), ("geometries", .array [
      .object [("type", .string "Point"), ("coordinates", .array [
        .number (.integer 1), .number (.integer 2)])]])])]

/-- The record of the feature. -/
private def wovenRecord : Json :=
  .object [("geometry", .object [("geometries", .array [
      .object [("coordinates", .array [
        .number (.double (.ofInt 1)), .number (.double (.ofInt 2))]), ("type", .string "Point")]]),
      ("type", .string "GeometryCollection")]),
    ("id", .number (.integer 7)), ("properties", .object [("name", .string "Oslo")]),
    ("title", .string "a\nb"), ("type", .string "Feature")]

private theorem read_woven :
    Record.read .geojson (Text.Utf8.encode wovenFeature.text) = .ok [wovenRecord] := by
  have hlaid : Json.LaidOut wovenFeature wovenFeature.text.toList := by
    rw [Json.text, String.toList_ofList]
    exact Json.laidOut_render wovenFeature
  rw [Record.read, Record.readJson?_encode hlaid]
  rfl

private theorem parse?_woven : Json.parse? wovenRecord.text = some wovenRecord := by
  have hid := Json.reread_number_self (n := .integer 7) (by decide +kernel)
  have hone := Json.reread_number_self (n := .double (.ofInt 1)) (by decide +kernel)
  have htwo := Json.reread_number_self (n := .double (.ofInt 2)) (by decide +kernel)
  rw [Json.parse?_text]
  simp only [wovenRecord, Json.depthLimit, Json.reread_object_self_iff, Json.reread_array_self_iff,
    List.forall_mem_cons, List.not_mem_nil, false_implies, implies_true, Json.reread_string, hid,
    hone, htwo, and_true, true_and]
  decide +kernel

/-- Marks the features of a file. -/
private def wovenOptions : Options :=
  { Options.between "in.geojson" "out.geojson" with clause := some "name = 'Oslo'", mark := true }

private def wovenSurroundings : Surroundings where
  files := .ofList [("in.geojson", Text.Utf8.encode wovenFeature.text)]
  stdin := []

theorem taken_as_read_woven :
    Record.read .geojson (Text.Utf8.encode wovenFeature.text) = .ok [wovenRecord] ∧
      (∃ next, (Writer.start .geojson).add wovenRecord = .ok next) ∧
      (∃ next, (Writer.start .geojson).add
        (setFlag .properties "visible" wovenRecord true).value = .ok next) ∧
      (∃ w : Writer, (Writer.start .geojson).addAll [wovenRecord] = (w, none) ∧
        Record.read .geojson (Text.Utf8.encode w.finish) = .ok [wovenRecord]) ∧
      ∀ e, (wovenOptions.run wovenSurroundings fun n => .inOrder n).result ≠
        .error (.output (.refused e)) := by
  obtain ⟨hread, hrun⟩ := taken_as_read
  obtain ⟨htaken, hagain⟩ := hread _ _ read_woven
  obtain ⟨hadd, hflagged⟩ := htaken wovenRecord List.mem_cons_self (.start .geojson) rfl
  refine ⟨read_woven, hadd, hflagged "visible" true, ?_, ?_⟩
  · refine hagain (List.forall_mem_singleton.2 parse?_woven) (List.forall_mem_singleton.2 ?_)
    simp [wovenRecord, Json.IsWithin, Json.isContainer, Json.depthLimit, Record.levels]
  · refine hrun _ _ _ (by decide +kernel) (by decide +kernel) fun s hs => ?_
    cases hs with
    | clause hclause hx => rfl
    | named hclause => cases hclause

end RecordSieve
