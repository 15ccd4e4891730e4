import RecordSieve.Proofs.Record.Writing
import RecordSieve.Proofs.Run.Outline
/-!
# RecordSieve.Proofs.Run.Strictness

What strictness does to a run that finds out all that it needs.

Strictness comes from the options or from the file of filters (`IsStrict`). It is asked for
at one place only, the gate, and the gate looks at the mismatches, so the comparison of a
strict run with a lenient one comes down to whether there are any. The lenient run may have
its own files here: what makes it lenient can stand in the file of filters, which is then
another one.
-/

namespace RecordSieve

/-- A mismatch is the first one of a batch: its record cannot be evaluated, and all records
before it can. -/
structure Mismatch.IsFirst (m : Mismatch) (f : Filter) (records : List Json) : Prop where
  fails : ∃ r, records[m.index]? = some r ∧ f.evaluate r = .error m.error
  before : ∀ r ∈ records.take m.index, ∃ matched, f.evaluate r = .ok matched

/-- The mismatch that is listed first is the first one. -/
theorem Filter.isFirst_of_mismatches {f : Filter} {records : List Json} {first : Mismatch}
    {rest : List Mismatch} (h : f.mismatches records = first :: rest) :
    first.IsFirst f records where
  fails := by
    rw [← (f.reports records).mem_iff, h]
    exact List.mem_cons_self
  before := by
    intro r hr
    cases hverdict : f.evaluate r with
    | ok matched => exact ⟨matched, rfl⟩
    | error e =>
      obtain ⟨j, hj, rfl⟩ := List.mem_take_iff_getElem.1 hr
      rw [Nat.lt_min] at hj
      have hmem : (⟨j, e⟩ : Mismatch) ∈ first :: rest := by
        rw [← h, (f.reports records).mem_iff]
        exact ⟨_, List.getElem?_eq_getElem hj.2, hverdict⟩
      have hincreasing := (f.reports records).increasing
      rw [h, List.pairwise_cons] at hincreasing
      rcases List.mem_cons.1 hmem with rfl | hlater
      · exact absurd hj.1 (Nat.lt_irrefl _)
      · exact absurd hj.1 (Nat.lt_asymm (hincreasing.1 _ hlater))

namespace Options

variable {o : Options} {w : Surroundings}

/-! ### Where strictness comes from -/

/-- Strictness is asked for: by the options, or by the file of filters of a run without a
clause of its own. -/
def IsStrict (o : Options) (files : Files) : Prop :=
  o.strict = true ∨
    o.clause = none ∧ ∃ path b, o.filters = some path ∧ FilterBook.load files path = .ok b ∧
      b.strict = true

/-- The same options, strict or not. -/
def withStrict (o : Options) (strict : Bool) : Options := { o with strict := strict }

theorem Selects.strict_iff {files : Files} {input : Format} {s : Selection}
    (h : o.Selects files input s) : s.strict = true ↔ o.IsStrict files := by
  unfold IsStrict
  cases h with
  | clause hclause hx => simp [hclause]
  | named hclause hfilters hname hload hall he hx => simp [hclause, hfilters, hload]

/-- The options' own strictness has no say in which filter is chosen. -/
theorem Selects.withStrict {files : Files} {input : Format} {s : Selection}
    (h : o.Selects files input s) (strict : Bool) :
    ∃ t, (o.withStrict strict).Selects files input t ∧ t.filter = s.filter := by
  cases h with
  | clause hclause hx => exact ⟨_, .clause hclause hx, rfl⟩
  | named hclause hfilters hname hload hall he hx =>
    exact ⟨_, .named hclause hfilters hname hload hall he hx, rfl⟩

namespace Intake

variable (i : o.Intake w)

theorem strict_iff : i.selection.strict = true ↔ o.IsStrict w.files :=
  (value_select_eq_ok_iff.1 i.selection_eq).strict_iff

theorem isRefused_iff : i.IsRefused ↔ o.IsStrict w.files ∧ 0 < i.failed := by
  rw [IsRefused, i.strict_iff]

theorem exists_withStrict (strict : Bool) :
    ∃ j : (o.withStrict strict).Intake w, j.filter = i.filter ∧ j.records = i.records := by
  obtain ⟨s, hs, hfilter⟩ := (value_select_eq_ok_iff.1 i.selection_eq).withStrict strict
  exact ⟨⟨i.input, i.output, s, i.records, i.input_eq, i.output_eq, hs.value, i.records_eq⟩,
    hfilter, rfl⟩

/-! ### Runs -/

/-- A refused run is refused with its first mismatch and touches no file. -/
theorem run_of_refused (h : i.IsRefused) (schedule : Scheduling) :
    ∃ first : Mismatch, first.IsFirst i.filter i.records ∧
      (o.run w schedule).result = .error (.mismatches i.failed i.records.length first) ∧
      (o.run w schedule).files = w.files := by
  obtain ⟨first, rest, hms, houtline⟩ := i.outline_of_refused h
  refine ⟨first, Filter.isFirst_of_mismatches hms, ?_⟩
  rw [run_of_outline_error houtline]
  exact ⟨rfl, rfl⟩

/-- Without mismatches, runs that differ in strictness alone end the same way and change
the same file to the same content, if any. -/
theorem run_of_no_failures {strict : Bool} {v : Surroundings} (j : (o.withStrict strict).Intake v)
    (hnames : v.files.SameNames w.files) (hfilter : j.filter = i.filter)
    (hrecords : j.records = i.records) (hfailed : i.failed = 0) (schedule other : Scheduling) :
    ((o.withStrict strict).run v other).result = (o.run w schedule).result ∧
      ((o.withStrict strict).run v other).stdout = (o.run w schedule).stdout ∧
      ∃ change, ((o.withStrict strict).run v other).files = v.files.edit change ∧
        (o.run w schedule).files = w.files.edit change := by
  have hcount : j.failed = i.failed := by rw [failed, failed, hfilter, hrecords]
  have hkept : j.kept = i.kept := by
    rw [kept, kept, hfilter, hrecords]
    rfl
  have houtput : j.output = i.output := Option.some.inj (j.output_eq.symm.trans i.output_eq)
  have hi : ¬i.IsRefused := fun h => Nat.ne_of_gt h.2 hfailed
  have hj : ¬j.IsRefused := fun h => Nat.ne_of_gt h.2 (hcount.trans hfailed)
  obtain ⟨hiresult, hifiles, histdout⟩ := i.run_of_admitted hi schedule
  obtain ⟨hjresult, hjfiles, hjstdout⟩ := j.run_of_admitted hj other
  obtain ⟨hresult, hstdout, change, hv, hw⟩ :=
    Files.write_of_sameNames hnames o.output i.output i.kept
  rw [hjresult, hjfiles, hjstdout, houtput, hkept, hcount, hrecords, hiresult, hifiles, histdout]
  refine ⟨?_, hstdout, change, hv, hw⟩
  rw [withStrict, hresult]

end Intake

/-- What strictness does to a run that finds out all that it needs. With mismatches, a
strict run fails with their number, the number of records and the first mismatch, and
leaves all files as they were. Without mismatches it ends as a lenient one does, with the
same files, whether it is the options or the file of filters that tell the two apart. And
a lenient run ends as the writing of its records does, whatever mismatches it has. -/
theorem strict_gate (i : o.Intake w) (schedule : Scheduling) :
    (i.selection.strict = true ↔ o.IsStrict w.files) ∧
      (o.IsStrict w.files → 0 < i.failed →
        ∃ first : Mismatch, first.IsFirst i.filter i.records ∧
          (o.run w schedule).result = .error (.mismatches i.failed i.records.length first) ∧
          (o.run w schedule).files = w.files) ∧
      (i.failed = 0 → ∀ (strict : Bool) (other : Scheduling),
        ((o.withStrict strict).run w other).result = (o.run w schedule).result ∧
          ((o.withStrict strict).run w other).stdout = (o.run w schedule).stdout ∧
          ((o.withStrict strict).run w other).files = (o.run w schedule).files) ∧
      (i.failed = 0 → ∀ (strict : Bool) (v : Surroundings) (j : (o.withStrict strict).Intake v),
        v.files.SameNames w.files → j.filter = i.filter → j.records = i.records →
        ∀ other : Scheduling,
          ((o.withStrict strict).run v other).result = (o.run w schedule).result ∧
            ((o.withStrict strict).run v other).stdout = (o.run w schedule).stdout ∧
            ∃ change, ((o.withStrict strict).run v other).files = v.files.edit change ∧
              (o.run w schedule).files = w.files.edit change) ∧
      (¬o.IsStrict w.files →
        (o.run w schedule).result =
            ((w.files.write o.output i.output i.kept).result.mapError .output).map
              (fun n => ⟨i.records.length, n, i.failed⟩) ∧
          (o.run w schedule).files = (w.files.write o.output i.output i.kept).files) := by
  refine ⟨i.strict_iff, ?refused, ?options, ?files, ?lenient⟩
  case refused =>
    intro hstrict hfailed
    exact i.run_of_refused (i.isRefused_iff.2 ⟨hstrict, hfailed⟩) schedule
  case options =>
    intro hfailed strict other
    obtain ⟨j, hfilter, hrecords⟩ := i.exists_withStrict strict
    obtain ⟨hresult, hstdout, change, hj, hi⟩ :=
      i.run_of_no_failures j (.refl w.files) hfilter hrecords hfailed schedule other
    exact ⟨hresult, hstdout, hj.trans hi.symm⟩
  case files =>
    intro hfailed strict v j hnames hfilter hrecords other
    exact i.run_of_no_failures j hnames hfilter hrecords hfailed schedule other
  case lenient =>
    intro hlenient
    have hadmitted : ¬i.IsRefused := fun h => hlenient (i.isRefused_iff.1 h).1
    obtain ⟨hresult, hfiles, -⟩ := i.run_of_admitted hadmitted schedule
    exact ⟨hresult, hfiles⟩

/-- Marks lines by a filter from a file. -/
private def strictOptions : Options :=
  { between "data.jsonl" "out.json" with
    filters := some "filters.yaml", name := some "late", mark := true }

/-- A strict file of filters, and a record that its filter cannot evaluate. -/
private def strictSurroundings : Surroundings where
  files := .ofList [
    ("filters.yaml", Text.Utf8.encode "strict: true\nfilters:\n  late: \"name > 'P'\"\n"),
    ("data.jsonl", Text.Utf8.encode "\x7b\"name\":\"Rome\"\x7d\n\x7b\"name\":5\x7d\n")]
  stdin := []

/-- The run is strict by its file of filters, and creates no output. -/
theorem strict_gate_by_book :
    ∃ i : strictOptions.Intake strictSurroundings, strictOptions.IsStrict strictSurroundings.files ∧
      ∃ first : Mismatch, first.IsFirst i.filter i.records ∧
        (strictOptions.run strictSurroundings fun n => .inOrder n).result =
          .error (.mismatches 1 2 first) ∧
        (strictOptions.run strictSurroundings fun n => .inOrder n).files =
          strictSurroundings.files := by
  have hcounts : ((strictOptions.select strictSurroundings.files .jsonl).run.value.toOption.bind
      fun s => (strictSurroundings.load strictOptions.input .jsonl).toOption.map fun records =>
        (s.strict, records.length, records.countP fun r => (s.filter.evaluate r).fails)) =
      some (true, 2, 1) := by
    decide +kernel
  obtain ⟨s, hs, hcounts⟩ := Option.bind_eq_some_iff.1 hcounts
  obtain ⟨records, hrecords, hcounts⟩ := Option.map_eq_some_iff.1 hcounts
  simp only [Prod.mk.injEq] at hcounts
  let i : strictOptions.Intake strictSurroundings :=
    ⟨.jsonl, .json, s, records, by decide +kernel, by decide +kernel,
      Except.toOption_eq_some_iff.1 hs, Except.toOption_eq_some_iff.1 hrecords⟩
  have hlength : i.records.length = 2 := hcounts.2.1
  have hfailed : i.failed = 1 := hcounts.2.2
  obtain ⟨hstrict, hrefused, -⟩ := strict_gate i fun n => .inOrder n
  have hrefused := hrefused (hstrict.1 hcounts.1) (by rw [hfailed]; exact Nat.one_pos)
  rw [hlength, hfailed] at hrefused
  exact ⟨i, hstrict.1 hcounts.1, hrefused⟩

end Options
end RecordSieve
