import RecordSieve.Proofs.Record.Writing
import RecordSieve.Proofs.Run.Outline
/-!
# RecordSieve.Proofs.Run.Delivery

What a successful run leaves behind, when its output is a file.

Everything that goes into the output is part of an `Intake`, which is about the files as
they were before the run. So it does not matter whether the output is the input, the
file of filters, or another spelling of one of their paths. `run_eq_ok_iff` says that a
run succeeds exactly if it delivers.
-/

namespace RecordSieve.Options

variable {o : Options} {w : Surroundings}

/-- What a successful run delivers: to the file `name` the text `text`, with `after` as
the files that are left and `summary` as its numbers. -/
structure Intake.Delivers (i : o.Intake w) (name text : String) (after : Files)
    (summary : Summary) : Prop where
  admitted : ¬i.IsRefused
  /-- The path of the output leads to the file, as the files were before. -/
  path : w.files.creatable? o.output = some name
  /-- The text is what the writer of the output's format makes of the kept records. -/
  composed : compose i.output i.kept = (text, .ok i.kept.length)
  /-- It is the texts of these records, each once and in their order. -/
  texts : ∃ texts : List String, i.kept.map (Writer.itemText? i.output) = texts.map some ∧
    text = (Writer.holding i.output texts).finish
  files : after = w.files.set name (Text.Utf8.encode text)
  content : after.get? name = some (Text.Utf8.encode text)
  others : ∀ other, other ≠ name → after.get? other = w.files.get? other
  read : summary.read = i.records.length
  written : summary.written = i.kept.length
  mismatches : summary.mismatches = i.failed
  filtered : o.mark = false →
    i.kept = (i.records.filter fun r => (i.filter.evaluate r).accepts) ∧
      summary.written + summary.mismatches ≤ summary.read
  marked : o.mark = true →
    i.kept = (i.records.map fun r =>
      i.filter.access.flagged o.markField r (i.filter.evaluate r).accepts) ∧
      summary.written = summary.read
  /-- A flag is set in the object of the record's fields; a record without that object can
  take no flag and is written as it is. -/
  flags : ∀ r visible,
    i.filter.access.members? (i.filter.access.flagged o.markField r visible) =
      (i.filter.access.members? r).map (Json.Members.insert o.markField (.boolean visible)) ∧
      (i.filter.access.members? r = none → i.filter.access.flagged o.markField r visible = r)

namespace Intake

variable (i : o.Intake w)

theorem kept_of_filter (h : o.mark = false) :
    i.kept = i.records.filter fun r => (i.filter.evaluate r).accepts := by
  rw [kept, Options.kept, h]
  rfl

theorem kept_of_mark (h : o.mark = true) :
    i.kept = i.records.map fun r =>
      i.filter.access.flagged o.markField r (i.filter.evaluate r).accepts := by
  rw [kept, Options.kept, h]
  rfl

/-- A kept record is no mismatch, unless the run marks. -/
theorem length_kept_add_failed_le (h : o.mark = false) :
    i.kept.length + i.failed ≤ i.records.length := by
  rw [i.kept_of_filter h, ← List.countP_eq_length_filter]
  exact i.filter.countP_accepts_add_countP_fails_le i.records

theorem length_kept_of_mark (h : o.mark = true) : i.kept.length = i.records.length := by
  rw [i.kept_of_mark h, List.length_map]

/-- A run that is not refused and creates its file writes all that it keeps, if that has
texts. -/
theorem run_of_texts {name : String} {texts : List String} (hadmitted : ¬i.IsRefused)
    (hout : Path.isStandard o.output = false) (hname : w.files.creatable? o.output = some name)
    (htexts : i.kept.map (Writer.itemText? i.output) = texts.map some) (schedule : Scheduling) :
    (o.run w schedule).result = .ok ⟨i.records.length, i.kept.length, i.failed⟩ ∧
      (o.run w schedule).files =
        w.files.set name (Text.Utf8.encode (Writer.holding i.output texts).finish) := by
  obtain ⟨hresult, hfiles, -⟩ := i.run_of_admitted hadmitted schedule
  obtain ⟨hwritten, hcomposed⟩ := Files.write_created hout hname i.output i.kept
  rw [compose_of_texts htexts] at hwritten hcomposed
  rw [hresult, hcomposed, hfiles]
  exact ⟨rfl, hwritten⟩

/-- Records that all have texts are delivered to a file that can be created. -/
theorem delivers_of_texts {name : String} {texts : List String} (hadmitted : ¬i.IsRefused)
    (hname : w.files.creatable? o.output = some name)
    (htexts : i.kept.map (Writer.itemText? i.output) = texts.map some) :
    i.Delivers name (Writer.holding i.output texts).finish
      (w.files.set name (Text.Utf8.encode (Writer.holding i.output texts).finish))
      ⟨i.records.length, i.kept.length, i.failed⟩ where
  admitted := hadmitted
  path := hname
  composed := compose_of_texts htexts
  texts := ⟨texts, htexts, rfl⟩
  files := rfl
  content := w.files.get?_set_self name _
  others := fun _ hother => Files.get?_set_of_ne hother w.files _
  read := rfl
  written := rfl
  mismatches := rfl
  filtered := fun h => ⟨i.kept_of_filter h, i.length_kept_add_failed_le h⟩
  marked := fun h => ⟨i.kept_of_mark h, i.length_kept_of_mark h⟩
  flags := fun r visible => ⟨i.filter.access.members?_flagged o.markField r visible,
    fun h => i.filter.access.flagged_of_members?_eq_none o.markField h visible⟩

end Intake

variable {schedule : Scheduling} {summary : Summary} {after : Files}

/-- A run that succeeds has found out all that it needs, and was not refused. -/
theorem exists_intake_of_ok (h : (o.run w schedule).result = .ok summary) :
    ∃ i : o.Intake w, ¬i.IsRefused := by
  refine (o.admitted_or_unplanned w).resolve_right ?_
  rintro ⟨e, he⟩
  rw [run_of_outline_error he.outline] at h
  cases h

/-- A run to a file succeeds exactly if it delivers: the records that match, or all
records with their flags, in the order of the input and in the format of the output, to
the one file that the path of the output leads to. No other file changes, and nothing that
is written depends on what the run itself does to the files. -/
theorem run_eq_ok_iff (h : Path.isStandard o.output = false) :
    (o.run w schedule).result = .ok summary ∧ (o.run w schedule).files = after ↔
      ∃ i : o.Intake w, ∃ name text, i.Delivers name text after summary := by
  constructor
  · rintro ⟨hok, rfl⟩
    obtain ⟨i, hadmitted⟩ := exists_intake_of_ok hok
    obtain ⟨hresult, hfiles, -⟩ := i.run_of_admitted hadmitted schedule
    rw [hresult] at hok
    obtain ⟨n, hn, rfl⟩ := Except.map_eq_ok_iff.1 hok
    have hn := Except.mapError_eq_ok_iff.1 hn
    cases hname : w.files.creatable? o.output with
    | none =>
      rw [Files.result_write_notCreated h hname] at hn
      cases hn
    | some name =>
      obtain ⟨hwritten, hcomposed⟩ := Files.write_created h hname i.output i.kept
      rw [hcomposed] at hn
      obtain ⟨texts, htexts, rfl⟩ := compose_eq_ok_iff.1 hn
      refine ⟨i, name, (Writer.holding i.output texts).finish, ?_⟩
      rw [hfiles, hwritten, compose_of_texts htexts]
      exact i.delivers_of_texts hadmitted hname htexts
  · rintro ⟨i, name, text, d⟩
    obtain ⟨hresult, hfiles, -⟩ := i.run_of_admitted d.admitted schedule
    obtain ⟨hwritten, hcomposed⟩ := Files.write_created h d.path i.output i.kept
    rw [d.composed] at hwritten hcomposed
    refine ⟨?_, hfiles.trans (hwritten.trans d.files.symm)⟩
    obtain ⟨read, written, mismatches⟩ := summary
    obtain rfl : read = i.records.length := d.read
    obtain rfl : written = i.kept.length := d.written
    obtain rfl : mismatches = i.failed := d.mismatches
    rw [hresult, hcomposed]
    rfl

/-- Filters lines in place: the output is another spelling of the input's path. -/
private def inPlaceOptions : Options :=
  { between "data.jsonl" "./data.jsonl" with clause := some "name > 'P'" }

/-- A record that does not match, one that cannot be evaluated, and one that matches. -/
private def inPlaceSurroundings : Surroundings where
  files := .ofList [("data.jsonl", Text.Utf8.encode
    "\x7b\"name\":\"Oslo\"\x7d\n\x7b\"name\":5\x7d\n\x7b\"name\":\"Rome\"\x7d\n")]
  stdin := []

/-- The input is replaced by its one line that matches. -/
theorem run_eq_ok_iff_in_place :
    Path.isStandard inPlaceOptions.output = false ∧
      ∃ i : inPlaceOptions.Intake inPlaceSurroundings, ∃ text,
        i.Delivers "data.jsonl" text
          (inPlaceOptions.run inPlaceSurroundings fun n => .inOrder n).files ⟨3, 1, 1⟩ := by
  have hstandard : Path.isStandard inPlaceOptions.output = false := by decide +kernel
  have hname : inPlaceSurroundings.files.creatable? inPlaceOptions.output = some "data.jsonl" := by
    decide +kernel
  have hsummary : (inPlaceOptions.run inPlaceSurroundings fun n => .inOrder n).result.toOption =
      some ⟨3, 1, 1⟩ := by
    decide +kernel
  obtain ⟨i, name, text, d⟩ :=
    (run_eq_ok_iff hstandard).1 ⟨Except.toOption_eq_some_iff.1 hsummary, rfl⟩
  obtain rfl : name = "data.jsonl" := Option.some.inj (d.path.symm.trans hname)
  exact ⟨hstandard, i, text, d⟩

end RecordSieve.Options
