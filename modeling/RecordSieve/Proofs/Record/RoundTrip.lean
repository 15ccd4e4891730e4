import RecordSieve.Proofs.GeoJson.Rewriting
import RecordSieve.Proofs.Record.Lines
import RecordSieve.Proofs.Record.Writing
/-!
# RecordSieve.Proofs.Record.RoundTrip

Files of records that are written and read again.

What a writer has written when it ends is the text of one JSON value, an array
(`laidOut_array`) or a collection of features (`laidOut_collection`), or lines. Reading
it gives the records back (`read_holding`), as long as their own texts do and nothing
nests too deep.
-/

namespace RecordSieve

open Json (LaidOut reread)

namespace Writer

/-! ### Whole files as JSON texts -/

theorem toList_holding (format : Format) (texts : List String) :
    (holding format texts).finish.toList =
      (opening format).toList ++ (separator format).toList.intercalate (texts.map String.toList) ++
        (closing texts.length format).toList := by
  rw [finish, format_holding, accepted_holding, holding, String.toList_append, String.toList_append,
    String.toList_intercalate]

/-- A file of the JSON format is the text of an array. -/
theorem laidOut_array (records : List Json) :
    LaidOut (.array records)
      (holding .json (records.map fun r => "  " ++ r.text)).finish.toList := by
  have hitems : ∀ p ∈ records.map fun r => (r, ' ' :: ' ' :: r.render), LaidOut p.1 p.2 :=
    List.forall_mem_map.2 fun r _ => .before rfl (.before rfl (Json.laidOut_render r))
  have hfront : ∀ c ∈ ['\n'], Json.isSpace c = true := List.all_eq_true.1 rfl
  have hback : ∀ c ∈ if records.length = 0 then [] else ['\n'], Json.isSpace c = true := by
    split <;> exact List.all_eq_true.1 rfl
  have hlaid := (LaidOut.rows hfront hitems hback).spaceBehind hfront
  rw [List.map_map, List.map_map, Function.comp_def, Function.comp_def, List.map_id'] at hlaid
  have htext : (holding .json (records.map fun r => "  " ++ r.text)).finish.toList =
      '[' :: (['\n'] ++ ([',', '\n'].intercalate (records.map fun r => ' ' :: ' ' :: r.render) ++
        ((if records.length = 0 then [] else ['\n']) ++ [']']))) ++ ['\n'] := by
    rw [toList_holding, List.length_map, List.map_map]
    cases records with
    | _ => simp [opening, separator, closing, Json.text, Function.comp_def]
  rw [htext]
  exact hlaid

/-- A file of the GeoJSON format is the text of a collection. -/
theorem laidOut_collection (fs : List GeoJson.Feature) :
    LaidOut (GeoJson.collectionJson (fs.map GeoJson.Feature.fileJson))
      (holding .geojson (fs.map GeoJson.Feature.text)).finish.toList := by
  have hitems : ∀ p ∈ fs.map fun f => (f.fileJson, f.fileJson.render), LaidOut p.1 p.2 :=
    List.forall_mem_map.2 fun f _ => Json.laidOut_render f.fileJson
  have hfeed : ∀ c ∈ ['\n'], Json.isSpace c = true := List.all_eq_true.1 rfl
  have hblank : ∀ c ∈ [' '], Json.isSpace c = true := List.all_eq_true.1 rfl
  have hmargin : ∀ c ∈ ['\n', ' ', ' '], Json.isSpace c = true := List.all_eq_true.1 rfl
  have hfeatures := ((LaidOut.rows hfeed hitems hmargin).spaceBefore hblank).spaceBehind hfeed
  have hkind := (Json.laidOut_render (.string "FeatureCollection")).spaceBefore hblank
  rw [List.map_map, List.map_map] at hfeatures
  have hlaid := (hkind.pair hmargin hfeatures "type" "features").spaceBehind hfeed
  simp only [Function.comp_def] at hlaid
  have hword : (Json.string "FeatureCollection").render = "\"FeatureCollection\"".toList := by
    decide
  have htype : Json.renderString "type".toList = "\"type\"".toList := by decide
  have hname : Json.renderString "features".toList = "\"features\"".toList := by decide
  rw [hword, Json.memberText, Json.memberText, htype, hname] at hlaid
  have htext : ∀ f : GeoJson.Feature, f.text.toList = f.fileJson.render :=
    fun f => String.toList_ofList
  rw [toList_holding, List.length_map, List.map_map, Function.comp_def, GeoJson.collectionJson]
  simp only [htext]
  simpa [opening, separator, closing] using hlaid

end Writer

/-- The feature that stands for the record of a proper feature is the feature. -/
theorem GeoJson.Feature.ofRecord?_toRecord {f : GeoJson.Feature} (h : f.IsProper) :
    ofRecord? f.toRecord = some f := by
  rw [ofRecord?, if_pos (isClaimedBy_toRecord h), ofJson?_toRecord h]

/-! ### Reading what was written -/

namespace Record

/-- The containers that a file of a format has around each record. -/
def levels : Format → Nat
  | .jsonl => 0
  | .json => 1
  | .geojson => 2

/-- Records that a file of a format can hold without nesting too deep to be read. -/
def Fits (format : Format) (records : List Json) : Prop :=
  ∀ r ∈ records, r.IsWithin (Json.depthLimit - levels format)

/-- The records that the reader of a format gives: any value of lines and arrays, and of
a collection the records of its features. -/
def IsNative : Format → Json → Prop
  | .geojson, r => ∃ f : GeoJson.Feature, f.IsProper ∧ r = f.toRecord
  | .json, _ | .jsonl, _ => True

theorem reread_of_fits {format : Format} {records : List Json} (hfits : Fits format records)
    (hback : ∀ r ∈ records, Json.parse? r.text = some r) :
    ∀ r ∈ records, reread (Json.depthLimit - levels format) r = some r :=
  fun r hr => (hfits r hr).reread_of_parse? (hback r hr)

theorem readJson?_encode {text : String} {v : Json} (h : LaidOut v text.toList) :
    readJson? (Text.Utf8.encode text) = reread Json.depthLimit v := by
  rw [readJson?, Text.Utf8.decode?_encode, Option.bind_some, Json.parse?]
  exact Json.parseChars?_of_laidOut h

/-- The features of native records. -/
theorem exists_features {records : List Json} (h : ∀ r ∈ records, IsNative .geojson r) :
    ∃ fs : List GeoJson.Feature, (∀ f ∈ fs, f.IsProper) ∧ records = fs.map GeoJson.Feature.toRecord := by
  induction records with
  | nil => exact ⟨[], nofun, rfl⟩
  | cons r records ih =>
    obtain ⟨⟨f, hf, rfl⟩, hrecords⟩ := List.forall_mem_cons.1 h
    obtain ⟨fs, hfs, rfl⟩ := ih hrecords
    exact ⟨f :: fs, List.forall_mem_cons.2 ⟨hf, hfs⟩, rfl⟩

/-- A collection of features is read as the records of its features. -/
theorem read_features {fs : List GeoJson.Feature} (hproper : ∀ f ∈ fs, f.IsProper)
    (hself : ∀ f ∈ fs, reread (Json.depthLimit - levels .geojson) f.toRecord = some f.toRecord) :
    read .geojson (Text.Utf8.encode
        (Writer.holding .geojson (fs.map GeoJson.Feature.text)).finish) =
      .ok (fs.map GeoJson.Feature.toRecord) := by
  have hread := GeoJson.reread_collectionJson hproper hself
  have hlimit : Json.depthLimit = Json.depthLimit - levels .geojson + 2 := rfl
  rw [read, readJson?_encode (Writer.laidOut_collection fs), hlimit, hread, Option.bind_some,
    GeoJson.Document.ofJson?_collection hproper]
  rfl

/-- Records that their format's reader gives and whose texts are read back are all
written, and reading the file gives them again. -/
theorem exists_texts {format : Format} {records : List Json}
    (hnative : ∀ r ∈ records, IsNative format r)
    (hself : ∀ r ∈ records, reread (Json.depthLimit - levels format) r = some r) :
    ∃ texts : List String, records.map (Writer.itemText? format) = texts.map some ∧
      read format (Text.Utf8.encode (Writer.holding format texts).finish) = .ok records := by
  cases format with
  | jsonl =>
    refine ⟨records.map fun r => r.text ++ "\n", by simp [Writer.itemText?], ?_⟩
    have hback : ∀ r ∈ records, Json.parse? r.text = some r := fun r hr =>
      (Json.parse?_text r).trans (hself r hr)
    have htext : (Writer.holding .jsonl (records.map fun r => r.text ++ "\n")).finish =
        "".intercalate (records.map fun r => r.text ++ "\n") := by
      simp [Writer.finish, Writer.holding, Writer.opening, Writer.separator, Writer.closing]
    rw [read, htext]
    exact readLines_rows hback 1
  | json =>
    refine ⟨records.map fun r => "  " ++ r.text, by simp [Writer.itemText?], ?_⟩
    have hread : reread Json.depthLimit (.array records) = some (.array records) :=
      Json.reread_array_self_iff.2 hself
    rw [read, readJson?_encode (Writer.laidOut_array records), hread]
    rfl
  | geojson =>
    obtain ⟨fs, hproper, rfl⟩ := exists_features hnative
    have hself := List.forall_mem_map.1 hself
    refine ⟨fs.map GeoJson.Feature.text, ?_, ?_⟩
    · rw [List.map_map, List.map_map]
      refine List.map_congr_left fun f hf => ?_
      exact congrArg (Option.map GeoJson.Feature.text)
        (GeoJson.Feature.ofRecord?_toRecord (hproper f hf))
    · exact read_features hproper hself

/-- The same of a writer that takes the records one after another. -/
theorem addAll_native {format : Format} {records : List Json}
    (hnative : ∀ r ∈ records, IsNative format r) (hfits : Fits format records)
    (hback : ∀ r ∈ records, Json.parse? r.text = some r) :
    ∃ w : Writer, (Writer.start format).addAll records = (w, none) ∧
      read format (Text.Utf8.encode w.finish) = .ok records := by
  obtain ⟨texts, htexts, hread⟩ := exists_texts hnative (reread_of_fits hfits hback)
  exact ⟨_, Writer.addAll_of_texts htexts, hread⟩

/-- A reader of a format gives records that are native to it. -/
theorem isNative_of_read {format : Format} {bytes : List UInt8} {records : List Json}
    (h : read format bytes = .ok records) : ∀ r ∈ records, IsNative format r := by
  cases format with
  | json | jsonl => exact fun _ _ => trivial
  | geojson =>
    rw [read] at h
    split at h
    · rename_i d hd
      obtain ⟨v, hv, hd⟩ := Option.bind_eq_some_iff.1 hd
      obtain ⟨s, -, hv⟩ := Option.bind_eq_some_iff.1 hv
      have hproper := GeoJson.Document.isProper_of_ofJson? (Json.isOrdered_of_parse? hv) hd
      cases d with
      | collection fs =>
        cases h
        exact List.forall_mem_map.2 fun f hf => ⟨f, hproper f hf, rfl⟩
      | feature f =>
        cases h
        exact List.forall_mem_singleton.2 ⟨f, hproper f List.mem_cons_self, rfl⟩
      | geometry => cases h
    · cases h

/-- Arrays and lines are read back: for every list of records whose texts are, the
writer takes them all, and reading what it has written gives the list again. -/
theorem read_written {format : Format} (hformat : format ≠ .geojson) {records : List Json}
    (hback : ∀ r ∈ records, Json.parse? r.text = some r) (hfits : Fits format records) :
    ∃ w : Writer, (Writer.start format).addAll records = (w, none) ∧
      read format (Text.Utf8.encode w.finish) = .ok records := by
  have hnative : ∀ r ∈ records, IsNative format r := by
    intro r _
    cases format with
    | json | jsonl => trivial
    | geojson => exact absurd rfl hformat
  exact addAll_native hnative hfits hback

theorem read_written_line_break :
    Format.json ≠ .geojson ∧
      ∃ w : Writer, (Writer.start .json).addAll
          [.object [("a", .string "x\ny")], .null, .array []] = (w, none) ∧
        read .json (Text.Utf8.encode w.finish) =
          .ok [.object [("a", .string "x\ny")], .null, .array []] := by
  refine ⟨by decide, read_written (by decide) ?_ ?_⟩
  · simp only [List.forall_mem_cons, Json.parse?_text]
    exact ⟨rfl, rfl, rfl, nofun⟩
  · simp only [Fits, List.forall_mem_cons]
    exact ⟨List.forall_mem_singleton.2 rfl, rfl, nofun, nofun⟩

end Record
end RecordSieve
