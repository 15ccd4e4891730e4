import RecordSieve.Proofs.Run.Delivery
import RecordSieve.Proofs.Run.Features
import RecordSieve.Proofs.Run.Names
/-!
# RecordSieve.Proofs.Run.Rerun

Runs over what a run has written.

A run that filters writes records that match. Read again they are the same records, and the
same filter keeps all of them, so a second run writes the same bytes (`rerun_unchanged`).
The second run has the same filter if the file of filters holds the same for it. It need
not: the first run may have written over that file (`rerun_over_filters`).
-/

namespace RecordSieve.Options

variable {o again : Options} {w v : Surroundings} {format : Format}

/-- Options that ask for the filter of a run once more, for the records of its output.
Where to write, and how strictly and in which order to work, is left open. -/
structure Repeats (again o : Options) (format : Format) : Prop where
  clause : again.clause = o.clause
  filters : again.filters = o.filters
  name : again.name = o.name
  access : again.access = o.access
  mark : again.mark = false
  input : again.input = o.output
  inputFormat : again.inputFormat? = some format
  outputFormat : again.outputFormat? = some format

/-- The file of filters holds the same before and after, if the filter comes from one. -/
def KeepsBook (o : Options) (before after : Files) : Prop :=
  o.clause = none → ∀ path, o.filters = some path →
    FilterBook.load after path = FilterBook.load before path

/-- The same filter is chosen again. -/
theorem Selects.repeated {before after : Files} {s : Selection} (h : o.Selects before format s)
    (hrepeats : again.Repeats o format) (hbook : o.KeepsBook before after) :
    ∃ t, again.Selects after format t ∧ t.filter = s.filter := by
  cases h with
  | clause hclause hx =>
    refine ⟨_, .clause (hrepeats.clause.trans hclause) hx, ?_⟩
    rw [hrepeats.access]
  | named hclause hfilters hname hload hall he hx =>
    refine ⟨_, .named (hrepeats.clause.trans hclause) (hrepeats.filters.trans hfilters)
      (hrepeats.name.trans hname) ((hbook hclause _ hfilters).trans hload) hall he hx, ?_⟩
    simp only [accessFor, hrepeats.access]

namespace Intake

/-- What a run finds out first is settled by its options and surroundings. -/
instance : Subsingleton (o.Intake w) where
  allEq i j := by
    obtain ⟨input, output, selection, records, hinput, houtput, hselection, hrecords⟩ := i
    obtain ⟨input', output', selection', records', hinput', houtput', hselection', hrecords'⟩ := j
    obtain rfl := Option.some.inj (hinput.symm.trans hinput')
    obtain rfl := Option.some.inj (houtput.symm.trans houtput')
    obtain rfl := Except.ok.inj (hselection.symm.trans hselection')
    obtain rfl := Except.ok.inj (hrecords.symm.trans hrecords')
    rfl

variable (i : o.Intake w)

/-! ### Runs that write all that they keep -/

/-- A record that is kept matches. -/
theorem accepts_of_kept (hmark : o.mark = false) :
    ∀ r ∈ i.kept, (i.filter.evaluate r).accepts = true := by
  rw [i.kept_of_filter hmark]
  exact fun r hr => (List.mem_filter.1 hr).2

/-- Records that all match are all kept, and none of them fails. -/
theorem kept_of_accepts (hmark : o.mark = false)
    (h : ∀ r ∈ i.records, (i.filter.evaluate r).accepts = true) :
    i.kept = i.records ∧ i.failed = 0 := by
  constructor
  · rw [i.kept_of_filter hmark]
    exact List.filter_eq_self.2 h
  · rw [failed, List.countP_eq_zero]
    intro r hr hfails
    rw [Verdict.fails_eq_false_of_accepts (h r hr)] at hfails
    cases hfails

/-- A run over records that all match writes them all, strict or not. -/
theorem run_of_accepts {name : String} {texts : List String} (hmark : o.mark = false)
    (h : ∀ r ∈ i.records, (i.filter.evaluate r).accepts = true)
    (hout : Path.isStandard o.output = false) (hname : w.files.creatable? o.output = some name)
    (htexts : i.records.map (Writer.itemText? i.output) = texts.map some)
    (schedule : Scheduling) :
    (o.run w schedule).result = .ok ⟨i.records.length, i.records.length, 0⟩ ∧
      (o.run w schedule).files =
        w.files.set name (Text.Utf8.encode (Writer.holding i.output texts).finish) := by
  obtain ⟨hkept, hfailed⟩ := i.kept_of_accepts hmark h
  have hadmitted : ¬i.IsRefused := fun hrefused => Nat.ne_of_gt hrefused.2 hfailed
  have hrun := i.run_of_texts hadmitted hout hname (hkept.symm ▸ htexts) schedule
  rwa [hkept, hfailed] at hrun

/-! ### What a run leaves for the next one -/

/-- What a run keeps of a file in the format of its output is read back from its texts. -/
theorem exists_texts (hsame : i.input = i.output) (hmark : o.mark = false)
    (hback : ∀ r ∈ i.kept, Json.parse? r.text = some r) (hfits : Record.Fits i.output i.kept) :
    ∃ texts : List String, i.kept.map (Writer.itemText? i.output) = texts.map some ∧
      Record.read i.output (Text.Utf8.encode (Writer.holding i.output texts).finish) =
        .ok i.kept := by
  refine Record.exists_texts ?_ (Record.reread_of_fits hfits hback)
  rw [i.kept_of_filter hmark, ← hsame]
  exact fun r hr => i.isNative_of_records r (List.mem_of_mem_filter hr)

/-- What the second run finds out first, when the first one's records stand in its output. -/
theorem exists_again {bytes : List UInt8} (hrepeats : again.Repeats o i.output)
    (hsame : i.input = i.output) (hout : Path.isStandard o.output = false)
    (hbytes : v.files.read? o.output = some bytes)
    (hread : Record.read i.output bytes = .ok i.kept) (hbook : o.KeepsBook w.files v.files) :
    ∃ j : again.Intake v, j.output = i.output ∧ j.filter = i.filter ∧ j.records = i.kept := by
  have hselects : o.Selects w.files i.output i.selection :=
    hsame ▸ value_select_eq_ok_iff.1 i.selection_eq
  obtain ⟨t, ht, hfilter⟩ := hselects.repeated hrepeats hbook
  have hload : v.load again.input i.output = .ok i.kept := by
    simp [Surroundings.load, hrepeats.input, hout, hbytes, hread, Except.mapError]
  exact ⟨⟨i.output, i.output, t, i.kept, hrepeats.inputFormat, hrepeats.outputFormat, ht.value,
    hload⟩, rfl, hfilter, rfl⟩

end Intake

variable {schedule order : Scheduling} {summary : Summary}

/-- A run to a file that succeeds has created it. -/
theorem exists_created_of_ok (hout : Path.isStandard o.output = false)
    (hok : (o.run w schedule).result = .ok summary) :
    ∃ name, w.files.creatable? o.output = some name := by
  obtain ⟨i, hadmitted⟩ := exists_intake_of_ok hok
  cases hname : w.files.creatable? o.output with
  | some name => exact ⟨name, rfl⟩
  | none =>
    obtain ⟨hresult, -, -⟩ := i.run_of_admitted hadmitted schedule
    rw [hresult, Files.result_write_notCreated hout hname] at hok
    cases hok

/-- Filtering again changes nothing. When a run from a file to a file of the same format
has succeeded, and the records it kept are read back from their texts and do not nest too
deep, every run that repeats it on its output, strict or not, succeeds without a mismatch,
reads and writes as many records as the first one wrote, and writes the same bytes. If it
writes to where it reads, all files stay as they are. -/
theorem rerun_unchanged (i : o.Intake w) (hsame : i.input = i.output) (hmark : o.mark = false)
    (hout : Path.isStandard o.output = false) (hok : (o.run w schedule).result = .ok summary)
    (hback : ∀ r ∈ i.kept, Json.parse? r.text = some r) (hfits : Record.Fits i.output i.kept)
    (hrepeats : again.Repeats o i.output) (hfiles : v.files = (o.run w schedule).files)
    (hbook : o.KeepsBook w.files v.files)
    (hto : again.output = o.output ∨
      Path.isStandard again.output = false ∧ (v.files.creatable? again.output).isSome = true) :
    (again.run v order).result = .ok ⟨summary.written, summary.written, 0⟩ ∧
      (∃ bytes, v.files.read? o.output = some bytes ∧
        (again.run v order).files.read? again.output = some bytes) ∧
      (again.output = o.output → (again.run v order).files = v.files) := by
  obtain ⟨i', hadmitted⟩ := exists_intake_of_ok hok
  obtain rfl := Subsingleton.elim i i'
  obtain ⟨name, hname⟩ := exists_created_of_ok hout hok
  obtain ⟨texts, htexts, hread⟩ := i.exists_texts hsame hmark hback hfits
  obtain ⟨hresult, hwritten⟩ := i.run_of_texts hadmitted hout hname htexts schedule
  obtain rfl := Except.ok.inj (hok.symm.trans hresult)
  rw [← hfiles] at hwritten
  -- The file that the first run wrote can be read, and can be written again.
  have hbytes := Files.read?_set hname (Text.Utf8.encode (Writer.holding i.output texts).finish)
  have hcreatable :=
    Files.creatable?_set hname (Text.Utf8.encode (Writer.holding i.output texts).finish)
  rw [← hwritten] at hbytes hcreatable
  obtain ⟨j, houtput, hfilter, hrecords⟩ := i.exists_again hrepeats hsame hout hbytes hread hbook
  have haccepts : ∀ r ∈ j.records, (j.filter.evaluate r).accepts = true := by
    rw [hfilter, hrecords]
    exact i.accepts_of_kept hmark
  have hagain : j.records.map (Writer.itemText? j.output) = texts.map some := by
    rw [hrecords, houtput]
    exact htexts
  -- The second run writes there or elsewhere.
  obtain ⟨target, htarget, hto, hstay⟩ : ∃ target,
      v.files.creatable? again.output = some target ∧ Path.isStandard again.output = false ∧
        (again.output = o.output → target = name) := by
    rcases hto with heq | ⟨hto, hsome⟩
    · exact ⟨name, heq ▸ hcreatable, heq ▸ hout, fun _ => rfl⟩
    · obtain ⟨target, htarget⟩ := Option.isSome_iff_exists.1 hsome
      exact ⟨target, htarget, hto, fun heq =>
        Option.some.inj ((heq ▸ htarget).symm.trans hcreatable)⟩
  obtain ⟨hresult, hafter⟩ := j.run_of_accepts hrepeats.mark haccepts hto htarget hagain order
  rw [hrecords] at hresult
  rw [houtput] at hafter
  refine ⟨hresult, ⟨_, hbytes, ?_⟩, fun heq => ?_⟩
  · rw [hafter]
    exact Files.read?_set htarget _
  · rw [hafter, hstay heq, hwritten, Files.set_set]

/-- An object, and a filter that it matches. -/
private def rerunRecord : Json := .object [("name", .string "Oslo")]

private def rerunSelection : Selection :=
  ⟨⟨"name = 'Oslo'", .compare .eq (.field "name") (.literal (.text "Oslo")), .flat⟩, false⟩

private def rerunSurroundings : Surroundings where
  files := .ofList [
    ("filters.yaml", Text.Utf8.encode "filters:\n  north: \"name = 'Oslo'\"\n"),
    ("data.json", Text.Utf8.encode "\x7b\"name\":\"Oslo\"\x7d")]
  stdin := []

/-- Filters the object in place. -/
private def rerunOptions : Options :=
  { between "data.json" "./data.json" with filters := some "filters.yaml", name := some "north" }

private def rerunIntake : rerunOptions.Intake rerunSurroundings where
  input := .json
  output := .json
  selection := rerunSelection
  records := [rerunRecord]
  input_eq := by decide +kernel
  output_eq := by decide +kernel
  selection_eq := Except.toOption_eq_some_iff.1 (by decide +kernel)
  records_eq := rfl

/-- The same options for what the first run has written, but strict. -/
private def rerunAgain : Options := { rerunOptions with input := "./data.json", strict := true }

private theorem parse?_rerunRecord : Json.parse? rerunRecord.text = some rerunRecord :=
  (Json.parse?_text rerunRecord).trans rfl

private theorem isWithin_rerunRecord (format : Format) :
    rerunRecord.IsWithin (Json.depthLimit - Record.levels format) := by
  cases format with
  | _ => exact List.forall_mem_singleton.2 rfl

theorem rerun_unchanged_object :
    ∃ v : Surroundings, v.files = (rerunOptions.run rerunSurroundings fun n => .inOrder n).files ∧
      (rerunOptions.run rerunSurroundings fun n => .inOrder n).result = .ok ⟨1, 1, 0⟩ ∧
      (rerunAgain.run v fun n => .inOrder n).result = .ok ⟨1, 1, 0⟩ ∧
      (rerunAgain.run v fun n => .inOrder n).files = v.files := by
  obtain ⟨v, hfiles⟩ : ∃ v : Surroundings,
      v.files = (rerunOptions.run rerunSurroundings fun n => .inOrder n).files := ⟨⟨_, []⟩, rfl⟩
  have hkept : rerunIntake.kept = [rerunRecord] := rfl
  have hsummary : (rerunOptions.run rerunSurroundings fun n => .inOrder n).result.toOption =
      some ⟨1, 1, 0⟩ := by
    decide +kernel
  have hok := Except.toOption_eq_some_iff.1 hsummary
  have hout : Path.isStandard rerunOptions.output = false := by decide +kernel
  have hback : ∀ r ∈ rerunIntake.kept, Json.parse? r.text = some r :=
    hkept ▸ List.forall_mem_singleton.2 parse?_rerunRecord
  have hfits : Record.Fits .json rerunIntake.kept :=
    hkept ▸ List.forall_mem_singleton.2 (isWithin_rerunRecord .json)
  have hrepeats : rerunAgain.Repeats rerunOptions .json :=
    ⟨rfl, rfl, rfl, rfl, rfl, rfl, by decide +kernel, by decide +kernel⟩
  have hload : FilterBook.load v.files "filters.yaml" =
      FilterBook.load rerunSurroundings.files "filters.yaml" := by
    rw [hfiles]
    decide +kernel
  have hbook : rerunOptions.KeepsBook rerunSurroundings.files v.files := by
    intro _ path hpath
    obtain rfl : "filters.yaml" = path := Option.some.inj hpath
    exact hload
  obtain ⟨hresult, -, hstay⟩ := rerun_unchanged rerunIntake rfl rfl hout hok hback hfits hrepeats
    hfiles hbook (.inl rfl)
  exact ⟨v, hfiles, hok, hresult, hstay rfl⟩

/-- Filters the object and writes it over the file of filters. -/
private def coveringOptions : Options :=
  { between "data.json" "filters.yaml" with
    inputFormat := some .json, outputFormat := some .json
    filters := some "filters.yaml", name := some "north" }

private def coveringIntake : coveringOptions.Intake rerunSurroundings where
  input := .json
  output := .json
  selection := rerunSelection
  records := [rerunRecord]
  input_eq := rfl
  output_eq := rfl
  selection_eq := Except.toOption_eq_some_iff.1 (by decide +kernel)
  records_eq := rfl

/-- A run that has written over its file of filters cannot be repeated on its output,
although the records there are read back. -/
theorem rerun_over_filters :
    ∃ i : coveringOptions.Intake rerunSurroundings, ∃ v : Surroundings, i.input = i.output ∧
      (∀ r ∈ i.kept, Json.parse? r.text = some r) ∧ Record.Fits i.output i.kept ∧
      (coveringOptions.run rerunSurroundings fun n => .inOrder n).result = .ok ⟨1, 1, 0⟩ ∧
      v.files = (coveringOptions.run rerunSurroundings fun n => .inOrder n).files ∧
      ∀ summary, ({ coveringOptions with input := coveringOptions.output }.run v
        fun n => .inOrder n).result ≠ .ok summary := by
  obtain ⟨v, hv⟩ : ∃ v : Surroundings,
      v = ⟨(coveringOptions.run rerunSurroundings fun n => .inOrder n).files, []⟩ := ⟨_, rfl⟩
  have hkept : coveringIntake.kept = [rerunRecord] := rfl
  have hback : ∀ r ∈ coveringIntake.kept, Json.parse? r.text = some r :=
    hkept ▸ List.forall_mem_singleton.2 parse?_rerunRecord
  have hfits : Record.Fits .json coveringIntake.kept :=
    hkept ▸ List.forall_mem_singleton.2 (isWithin_rerunRecord .json)
  have hsummary : (coveringOptions.run rerunSurroundings fun n => .inOrder n).result.toOption =
      some ⟨1, 1, 0⟩ := by
    decide +kernel
  have hfailed : ({ coveringOptions with input := coveringOptions.output }.run v
      fun n => .inOrder n).result.toOption = none := by
    rw [hv]
    decide +kernel
  have hfiles : v.files = (coveringOptions.run rerunSurroundings fun n => .inOrder n).files := by
    rw [hv]
  refine ⟨coveringIntake, v, rfl, hback, hfits, Except.toOption_eq_some_iff.1 hsummary, hfiles, ?_⟩
  intro summary hok
  rw [hok] at hfailed
  cases hfailed

end RecordSieve.Options
