import RecordSieve.Proofs.Record.Writing
import RecordSieve.Proofs.Run.Outline
/-!
# RecordSieve.Proofs.Run.FailedRun

What a failed run leaves behind. Everything that can go wrong before the output is
opened leaves the files alone, and so does an output that cannot be opened. Opening
empties the output, though, and a collection can still refuse a record after that:
then the output holds the opening of a collection and the features before the
refused record, whatever it held before. `files_of_failed_run` says that nothing
else is ever lost.
-/

namespace RecordSieve

/-- A run that is given up in the middle of a collection: `name` is the file it was
writing and `text` what it had written. -/
def Options.GivenUp (o : Options) (w : Surroundings) (schedule : Scheduling) (name text : String) :
    Prop :=
  ∃ p before record after, ∃ features : List GeoJson.Feature,
    (o.plan w schedule).run.value = .ok p ∧ p.format = .geojson ∧
      Path.isStandard o.output = false ∧ w.files.creatable? o.output = some name ∧
      p.records = before ++ record :: after ∧
      before.map GeoJson.Feature.ofRecord? = features.map some ∧
      GeoJson.Feature.ofRecord? record = none ∧
      text = Writer.opening .geojson ++ ",\n".intercalate (features.map GeoJson.Feature.text)

namespace Writer

/-- In a collection, the records with texts are those that stand for features. -/
theorem features_of_texts {records : List Json} {texts : List String}
    (h : records.map (itemText? .geojson) = texts.map some) :
    ∃ features : List GeoJson.Feature, records.map GeoJson.Feature.ofRecord? = features.map some ∧
      texts = features.map GeoJson.Feature.text := by
  induction records generalizing texts with
  | nil =>
    have htexts : texts = [] := by simpa using h.symm
    exact ⟨[], rfl, by simp [htexts]⟩
  | cons record records ih =>
    cases texts with
    | nil => simp at h
    | cons text texts =>
      simp only [List.map_cons, List.cons.injEq] at h
      obtain ⟨f, hf, rfl⟩ := Option.map_eq_some_iff.1 h.1
      obtain ⟨fs, hfs, rfl⟩ := ih h.2
      exact ⟨f :: fs, by rw [List.map_cons, hf, hfs, List.map_cons], by rw [List.map_cons]⟩

/-- Features have their texts in a collection. -/
theorem texts_of_features {records : List Json} {features : List GeoJson.Feature}
    (h : records.map GeoJson.Feature.ofRecord? = features.map some) :
    records.map (itemText? .geojson) = (features.map GeoJson.Feature.text).map some := by
  have hitem : itemText? .geojson = fun r =>
      (GeoJson.Feature.ofRecord? r).map GeoJson.Feature.text := rfl
  have hmap : records.map (itemText? .geojson) =
      (records.map GeoJson.Feature.ofRecord?).map (Option.map GeoJson.Feature.text) := by
    rw [hitem, List.map_map]; rfl
  rw [hmap, h, List.map_map, List.map_map]
  rfl

end Writer

namespace Options

variable {o : Options} {w : Surroundings} {schedule : Scheduling}

/-- A run without a plan fails and touches no file. -/
theorem run_of_no_plan {e : RunError} (h : (o.plan w schedule).run.value = .error e) :
    (o.run w schedule).files = w.files := by
  rw [value_plan] at h
  rw [run_of_outline_error h]

/-- A run with a plan ends as its writing does. -/
theorem run_of_plan {p : Plan} (h : (o.plan w schedule).run.value = .ok p) :
    (o.run w schedule).files = (w.files.write o.output p.format p.records).files ∧
      (o.run w schedule).result =
        ((w.files.write o.output p.format p.records).result.mapError .output).map
          fun n => ⟨p.read, n, p.mismatches⟩ := by
  rw [value_plan] at h
  rw [run_of_outline_ok h]
  exact ⟨rfl, rfl⟩

/-- A run that is given up fails, and leaves its half of a collection in the file. -/
theorem GivenUp.run {name text : String} (h : o.GivenUp w schedule name text) :
    (o.run w schedule).files = w.files.set name (Text.Utf8.encode text) ∧
      ∃ e, (o.run w schedule).result = .error (.output (.refused e)) := by
  obtain ⟨p, before, record, after, features, hp, hf, hs, hc, hr, hb, hn, rfl⟩ := h
  obtain ⟨hfiles, hresult⟩ := run_of_plan hp
  obtain ⟨hwfiles, hwresult⟩ := Files.write_created hs hc p.format p.records
  rw [hfiles, hwfiles, hresult, hwresult]
  obtain ⟨e, he⟩ := compose_of_refused (Writer.texts_of_features hb)
    (Writer.itemText?_eq_none_iff.2 ⟨rfl, hn⟩) after
  rw [hf, hr, he]
  exact ⟨rfl, e, rfl⟩

/-- A failed run that got as far as opening a file was given up. -/
theorem givenUp_of_created {p : Plan} {name : String} {e : RunError}
    (hp : (o.plan w schedule).run.value = .ok p) (hs : Path.isStandard o.output = false)
    (hc : w.files.creatable? o.output = some name) (h : (o.run w schedule).result = .error e) :
    ∃ text, o.GivenUp w schedule name text := by
  rw [(run_of_plan hp).2, (Files.write_created hs hc p.format p.records).2] at h
  rcases Writer.texts_or_refused p.format p.records with
    ⟨texts, ht⟩ | ⟨before, record, after, texts, hr, hn, ht⟩
  · rw [compose_of_texts ht] at h
    cases h
  · obtain ⟨hf, hn⟩ := Writer.itemText?_eq_none_iff.1 hn
    rw [hf] at ht
    obtain ⟨features, hfs, rfl⟩ := Writer.features_of_texts ht
    exact ⟨_, p, before, record, after, features, hp, hf, hs, hc, hr, hfs, hn, rfl⟩

/-- A failed run leaves every file as it was, unless it is given up in the middle of
a collection; then the file of the collection, and no other, is lost to it. -/
theorem files_of_failed_run {e : RunError} (h : (o.run w schedule).result = .error e) :
    (o.run w schedule).files = w.files ∧ (∀ name text, ¬o.GivenUp w schedule name text) ∨
      ∃ name text, o.GivenUp w schedule name text ∧
        (o.run w schedule).files = w.files.set name (Text.Utf8.encode text) := by
  by_cases hgiven : ∃ name text, o.GivenUp w schedule name text
  · obtain ⟨name, text, hgiven⟩ := hgiven
    exact .inr ⟨name, text, hgiven, hgiven.run.1⟩
  · refine .inl ⟨?_, fun name text hg => hgiven ⟨name, text, hg⟩⟩
    cases hp : (o.plan w schedule).run.value with
    | error e => exact run_of_no_plan hp
    | ok p =>
      rw [(run_of_plan hp).1]
      cases hs : Path.isStandard o.output with
      | true => exact Files.write_standard hs _ _
      | false =>
        cases hc : w.files.creatable? o.output with
        | none => exact Files.write_notCreated hc _ _
        | some name => exact absurd ⟨name, givenUp_of_created hp hs hc h⟩ hgiven

/-- Filters an array into a collection, one record after another. -/
private def sampleOptions : Options where
  input := "in.json"
  inputFormat := none
  output := "out.geojson"
  outputFormat := none
  clause := some "a != 1"
  filters := none
  name := none
  access := none
  mark := false
  markField := "visible"
  strict := false
  threads := some 1
  verbose := false

/-- An object and a number, which is no feature, and an output with content. -/
private def sampleSurroundings : Surroundings where
  files := .ofList [("in.json", Text.Utf8.encode "[\x7b\x7d,7]"), ("out.geojson", [1])]
  stdin := []

/-- The content is lost to the start of a collection with one feature. -/
theorem files_of_failed_run_number :
    ∃ name text, sampleOptions.GivenUp sampleSurroundings (fun n => .inOrder n) name text ∧
      (sampleOptions.run sampleSurroundings fun n => .inOrder n).files =
        sampleSurroundings.files.set name (Text.Utf8.encode text) := by
  have hfails : (sampleOptions.run sampleSurroundings fun n => .inOrder n).result.toOption = none := by
    rw [← Option.isNone_iff_eq_none]
    decide +kernel
  have hfiles : (sampleOptions.run sampleSurroundings fun n => .inOrder n).files ≠
      sampleSurroundings.files := by
    decide +kernel
  cases h : (sampleOptions.run sampleSurroundings fun n => .inOrder n).result with
  | ok summary =>
    rw [h] at hfails
    cases hfails
  | error e => exact (files_of_failed_run h).resolve_left fun hsame => hfiles hsame.1

end Options
end RecordSieve
