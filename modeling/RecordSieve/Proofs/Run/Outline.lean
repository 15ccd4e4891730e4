import RecordSieve.Proofs.Filter.Agreement
import RecordSieve.Proofs.Run.Selection
import RecordSieve.Run.Basic
/-!
# RecordSieve.Proofs.Run.Outline

What a run is going to write, without its order of work and its reports.

`outline` says it in terms of the records alone: the records that match, or all records
with their flags, each flag by the verdict on the record as it was read. `value_plan` is
the link to the code, which goes through the records in four different ways. The rest of
a run has to do with the outline only, so neither the threads nor the schedule are seen
again after this module.

An `Intake` is all that a run finds out before it evaluates records. Whether it then goes
on depends on the gate for strict runs and on nothing else (`Intake.outline_eq`). A run that
is not admitted has one of five reasons (`admitted_or_unplanned`).
-/

namespace RecordSieve

/-! ### Flags -/

/-- A record with its flag among its fields; a record without fields is left as it is. -/
def FieldAccess.flagged (a : FieldAccess) (field : String) (record : Json) (visible : Bool) :
    Json :=
  (a.setField? field (.boolean visible) record).getD record

section Flags

variable (a : FieldAccess) (field : String)

/-- The flag stands in the object of the record's fields, if there is one. -/
theorem FieldAccess.members?_flagged (record : Json) (visible : Bool) :
    a.members? (a.flagged field record visible) =
      (a.members? record).map (Json.Members.insert field (.boolean visible)) := by
  cases record with
  | object ms =>
    unfold flagged setField? members?
    cases a.container? with
    | none => rfl
    | some key =>
      cases h : (Json.Members.get? key ms).bind Json.members? with
      | none => simp [Json.get?, Json.members?, h]
      | some inner => simp [Json.get?, Json.members?, h]
  | _ => cases a <;> rfl

/-- A record without an object for its fields takes no flag. -/
theorem FieldAccess.flagged_of_members?_eq_none {record : Json}
    (h : a.members? record = none) (visible : Bool) : a.flagged field record visible = record := by
  have hnone : a.setField? field (.boolean visible) record = none := by
    rw [← Option.isNone_iff_eq_none, ← Option.not_isSome, a.isSome_setField?, h]
    rfl
  rw [flagged, hnone, Option.getD_none]

@[simp] theorem value_setFlag (record : Json) (visible : Bool) :
    (setFlag a field record visible).value = a.flagged field record visible := by
  unfold setFlag FieldAccess.flagged
  cases a.setField? field (.boolean visible) record with
  | _ => rfl

@[simp] theorem value_setFlags (ps : List (Json × Bool)) :
    (setFlags a field ps).value = ps.map fun p => a.flagged field p.1 p.2 := by
  induction ps with
  | nil => rfl
  | cons p ps ih => simp [setFlags, ih]

end Flags

/-! ### Records that cannot be evaluated -/

namespace Filter

theorem length_mismatchesFrom (index : Nat) (vs : List Verdict) :
    (mismatchesFrom index vs).length = vs.countP Verdict.fails := by
  induction vs generalizing index with
  | nil => rfl
  | cons v vs ih =>
    cases v with
    | ok b => simpa [Verdict.mismatches, Verdict.fails] using ih (index + 1)
    | error e => simpa [Verdict.mismatches, List.countP_cons, Verdict.fails] using ih (index + 1)

variable (f : Filter) (records : List Json)

/-- There are as many mismatches as records that cannot be evaluated. -/
theorem length_mismatches :
    (f.mismatches records).length = records.countP fun r => (f.evaluate r).fails := by
  rw [mismatches, length_mismatchesFrom, List.countP_map]
  rfl

/-- A record does not match and fail at once. -/
theorem countP_accepts_add_countP_fails_le :
    (records.countP fun r => (f.evaluate r).accepts) +
      (records.countP fun r => (f.evaluate r).fails) ≤ records.length := by
  rw [List.length_eq_countP_add_countP fun r => (f.evaluate r).accepts]
  apply Nat.add_le_add_left
  apply List.countP_mono_left
  intro r _ hfails
  rw [decide_eq_true_iff]
  intro haccepts
  rw [Verdict.fails_eq_false_of_accepts haccepts] at hfails
  cases hfails

end Filter

namespace Options

/-! ### The records of a run -/

/-- The records that a run writes, in the order of the input: when it marks, every record
with the flag of its verdict, else the records that match. -/
def kept (o : Options) (f : Filter) (records : List Json) : List Json :=
  if o.mark then records.map fun r => f.access.flagged o.markField r (f.evaluate r).accepts
  else records.filter fun r => (f.evaluate r).accepts

section Records

variable (o : Options) (f : Filter) (schedule : Scheduling) (records : List Json)

theorem value_filterRecords :
    (o.filterRecords f schedule records).value =
      (records.filter fun r => (f.evaluate r).accepts, f.mismatches records) := by
  have happly : (f.apply records).value.records =
      records.filter fun r => (f.evaluate r).accepts := by
    rw [Filter.apply_eq]
    exact f.map_snd_matching records
  have hmismatches : (f.apply records).value.mismatches = f.mismatches records := by
    rw [Filter.apply_eq]
  cases h : o.isParallel with
  | _ => simp [filterRecords, h, Filter.parApply_eq, happly, hmismatches]

/-- Flags that are set afterwards, from verdicts on the records as they were read, are the
flags that are set on the way: a record is changed after its own verdict, and no verdict
is about another record. -/
theorem value_markRecords :
    (o.markRecords f schedule records).value =
      (records.map fun r => f.access.flagged o.markField r (f.evaluate r).accepts,
        f.mismatches records) := by
  cases h : o.isParallel with
  | true =>
    have hzip : records.zip (records.map fun r => (f.evaluate r).accepts) =
        records.map fun r => (r, (f.evaluate r).accepts) := by
      rw [List.map_prod_left_eq_zip]
    simp [markRecords, h, Filter.parMark_eq, Filter.mark_eq, hzip, Function.comp_def]
  | false => simp [markRecords, h, Filter.value_markWith]

/-- However a run goes through its records, it keeps the same ones. -/
theorem value_process :
    (o.process f schedule records).value = (o.kept f records, f.mismatches records) := by
  unfold process kept
  cases o.mark with
  | true => exact o.value_markRecords f schedule records
  | false => exact o.value_filterRecords f schedule records

end Records

/-! ### The outline -/

@[simp] theorem value_attempt {ε δ α : Type} (wrap : ε → δ) (r : Except ε α) :
    (attempt wrap r).run.value = r.mapError wrap := rfl

/-- What a run is going to write, or why it writes nothing. -/
def outline (o : Options) (w : Surroundings) : Except RunError Plan := do
  let some input := o.inputFormat? | throw .inputFormat
  let some output := o.outputFormat? | throw .outputFormat
  let selection ← (o.select w.files input).run.value.mapError .selection
  let records ← (w.load o.input input).mapError .input
  let mismatches := selection.filter.mismatches records
  gate selection.strict records.length mismatches
  return ⟨output, o.kept selection.filter records, records.length, mismatches.length⟩

theorem value_plan (o : Options) (w : Surroundings) (schedule : Scheduling) :
    (o.plan w schedule).run.value = o.outline w := by
  unfold plan outline
  cases o.inputFormat? with
  | none => rfl
  | some input =>
    cases o.outputFormat? with
    | none => rfl
    | some output =>
      simp only [Attempt.value_bind, Attempt.value_adapt, Attempt.value_report,
        Attempt.value_lift, Attempt.value_pure, value_attempt, value_process]
      cases (o.select w.files input).run.value with
      | error e => rfl
      | ok selection =>
        cases w.load o.input input with
        | error e => rfl
        | ok records =>
          change (gate selection.strict records.length _).mapError id >>= _ =
            gate selection.strict records.length _ >>= _
          cases gate selection.strict records.length (selection.filter.mismatches records) with
          | _ => rfl

/-! ### Runs by their outlines -/

section Runs

variable {o : Options} {w : Surroundings}

/-- A run without an outline touches nothing. -/
theorem run_of_outline_error {e : RunError} (h : o.outline w = .error e) (schedule : Scheduling) :
    o.run w schedule = ⟨.error e, w.files, "", (o.plan w schedule).run.events⟩ := by
  rw [← value_plan o w schedule] at h
  simp [run, h]

/-- A run with an outline is the writing of it. -/
theorem run_of_outline_ok {p : Plan} (h : o.outline w = .ok p) (schedule : Scheduling) :
    o.run w schedule =
      { o.execute w p with
        events := (o.plan w schedule).run.events ++ (o.execute w p).events } := by
  rw [← value_plan o w schedule] at h
  simp [run, h]

end Runs

/-! ### What a run finds out first -/

/-- All that a run finds out before it evaluates records: formats and a filter that
resolve, and an input that loads. -/
structure Intake (o : Options) (w : Surroundings) where
  input : Format
  output : Format
  selection : Selection
  records : List Json
  input_eq : o.inputFormat? = some input
  output_eq : o.outputFormat? = some output
  selection_eq : (o.select w.files input).run.value = .ok selection
  records_eq : w.load o.input input = .ok records

namespace Intake

variable {o : Options} {w : Surroundings} (i : o.Intake w)

/-- The filter of the run. -/
def filter : Filter := i.selection.filter

/-- The records that the run is going to write. -/
def kept : List Json := o.kept i.filter i.records

/-- The number of records that cannot be evaluated. -/
def failed : Nat := i.records.countP fun r => (i.filter.evaluate r).fails

/-- What the run is going to write, if it goes on. -/
def plan : Plan := ⟨i.output, i.kept, i.records.length, i.failed⟩

/-- Whether the run is strict and cannot evaluate some record. -/
def IsRefused : Prop := i.selection.strict = true ∧ 0 < i.failed

/-- Only the gate stands between what a run finds out first and its outline. -/
theorem outline_eq :
    o.outline w = (gate i.selection.strict i.records.length
      (i.filter.mismatches i.records)).map fun _ => i.plan := by
  unfold outline plan failed
  rw [i.input_eq, i.output_eq, ← Filter.length_mismatches]
  simp only [i.selection_eq, i.records_eq]
  change gate i.selection.strict i.records.length (i.filter.mismatches i.records) >>= _ = _
  cases gate i.selection.strict i.records.length (i.filter.mismatches i.records) with
  | _ => rfl

theorem length_mismatches : (i.filter.mismatches i.records).length = i.failed :=
  i.filter.length_mismatches i.records

/-- A run that is refused is refused with its first mismatch. -/
theorem outline_of_refused (h : i.IsRefused) :
    ∃ first rest, i.filter.mismatches i.records = first :: rest ∧
      o.outline w = .error (.mismatches i.failed i.records.length first) := by
  obtain ⟨hstrict, hfailed⟩ := h
  rw [← i.length_mismatches] at hfailed
  obtain ⟨first, rest, hms⟩ := List.exists_cons_of_length_pos hfailed
  refine ⟨first, rest, hms, ?_⟩
  rw [i.outline_eq, ← i.length_mismatches, hstrict, hms]
  rfl

theorem outline_of_admitted (h : ¬i.IsRefused) : o.outline w = .ok i.plan := by
  rw [i.outline_eq]
  cases hstrict : i.selection.strict with
  | false => rfl
  | true =>
    have hms : i.filter.mismatches i.records = [] := by
      by_contra hne
      rw [← ne_eq, ← List.length_pos_iff, i.length_mismatches] at hne
      exact h ⟨hstrict, hne⟩
    rw [hms]
    rfl

/-- A run that is not refused is the writing of the records that it keeps. -/
theorem run_of_admitted (h : ¬i.IsRefused) (schedule : Scheduling) :
    (o.run w schedule).result =
        ((w.files.write o.output i.output i.kept).result.mapError .output).map
          (fun n => ⟨i.records.length, n, i.failed⟩) ∧
      (o.run w schedule).files = (w.files.write o.output i.output i.kept).files ∧
      (o.run w schedule).stdout = (w.files.write o.output i.output i.kept).stdout := by
  rw [run_of_outline_ok (i.outline_of_admitted h)]
  exact ⟨rfl, rfl, rfl⟩

end Intake

/-! ### Why a run has no outline -/

/-- Why a run writes nothing, in the order in which it finds out. -/
inductive Unplanned (o : Options) (w : Surroundings) : RunError → Prop
  | inputFormat (h : o.inputFormat? = none) : Unplanned o w .inputFormat
  | outputFormat {input : Format} (hinput : o.inputFormat? = some input)
      (h : o.outputFormat? = none) : Unplanned o w .outputFormat
  | selection {input output : Format} {e : SelectionError}
      (hinput : o.inputFormat? = some input) (houtput : o.outputFormat? = some output)
      (h : (o.select w.files input).run.value = .error e) : Unplanned o w (.selection e)
  | input {input output : Format} {s : Selection} {e : InputError}
      (hinput : o.inputFormat? = some input) (houtput : o.outputFormat? = some output)
      (hselection : (o.select w.files input).run.value = .ok s)
      (h : w.load o.input input = .error e) : Unplanned o w (.input e)
  | refused (i : o.Intake w) (h : i.IsRefused) {first : Mismatch} {rest : List Mismatch}
      (hms : i.filter.mismatches i.records = first :: rest) :
      Unplanned o w (.mismatches i.failed i.records.length first)

variable {o : Options} {w : Surroundings}

theorem Unplanned.outline {e : RunError} (h : o.Unplanned w e) : o.outline w = .error e := by
  cases h with
  | inputFormat h =>
    unfold Options.outline
    rw [h]
    rfl
  | outputFormat hinput h =>
    unfold Options.outline
    rw [hinput, h]
    rfl
  | selection hinput houtput h =>
    unfold Options.outline
    rw [hinput, houtput]
    simp only [h]
    rfl
  | input hinput houtput hselection h =>
    unfold Options.outline
    rw [hinput, houtput]
    simp only [hselection, h]
    rfl
  | refused i h hms =>
    obtain ⟨first, rest, hms', houtline⟩ := i.outline_of_refused h
    rw [hms] at hms'
    cases hms'
    exact houtline

/-- A run finds out all that it needs and is not refused, or there is a reason why it
writes nothing. -/
theorem admitted_or_unplanned (o : Options) (w : Surroundings) :
    (∃ i : o.Intake w, ¬i.IsRefused) ∨ ∃ e, o.Unplanned w e := by
  cases hinput : o.inputFormat? with
  | none => exact .inr ⟨_, .inputFormat hinput⟩
  | some input =>
    cases houtput : o.outputFormat? with
    | none => exact .inr ⟨_, .outputFormat hinput houtput⟩
    | some output =>
      cases hselection : (o.select w.files input).run.value with
      | error e => exact .inr ⟨_, .selection hinput houtput hselection⟩
      | ok s =>
        cases hrecords : w.load o.input input with
        | error e => exact .inr ⟨_, .input hinput houtput hselection hrecords⟩
        | ok records =>
          let i : o.Intake w :=
            ⟨input, output, s, records, hinput, houtput, hselection, hrecords⟩
          by_cases h : i.IsRefused
          · obtain ⟨first, rest, hms, -⟩ := i.outline_of_refused h
            exact .inr ⟨_, .refused i h hms⟩
          · exact .inl ⟨i, h⟩

end Options
end RecordSieve
