import RecordSieve.Proofs.Query.Failure
import RecordSieve.Proofs.Run.Outline
/-!
# RecordSieve.Proofs.Run.Certainty

What a filter that can evaluate every record comes to.

If no verdict is an error (`Filter.IsTotal`), there are no mismatches in any batch and
nothing is reported of it, however the batch is gone through (`Filter.IsTotal.batch`). So
the gate has nothing to refuse, and a run with such a filter is never ended by its records,
strict or not (`Filter.IsTotal.run`). Whether a filter is of this kind can be seen from its
expression alone (`Expression.IsChecked.mismatch_free`).
-/

namespace RecordSieve

namespace Filter

/-- Every record can be evaluated. -/
def IsTotal (f : Filter) : Prop := ∀ record, ∃ matched, f.evaluate record = .ok matched

/-- A batch without mismatches, and without a report of any, in each of its operations. -/
structure IsSmooth (f : Filter) (records : List Json) : Prop where
  apply : f.apply records = pure ⟨f.matching records, []⟩
  parApply (s : Schedule records.length) : f.parApply records s = pure ⟨f.matching records, []⟩
  mark : f.mark records = pure ⟨records.map fun r => (f.evaluate r).accepts, []⟩
  parMark (s : Schedule records.length) :
    f.parMark records s = pure ⟨records.map fun r => (f.evaluate r).accepts, []⟩
  markWith {β : Type} (visit : Json → Bool → Logged β) :
    (f.markWith visit records).value =
      (records.map fun r => (visit r (f.evaluate r).accepts).value, [])

variable {f : Filter}

theorem IsTotal.mismatches_eq_nil (h : f.IsTotal) (records : List Json) :
    f.mismatches records = [] := by
  rw [List.eq_nil_iff_forall_not_mem]
  intro m hm
  obtain ⟨r, -, herror⟩ := ((f.reports records).mem_iff m).1 hm
  obtain ⟨matched, hok⟩ := h r
  rw [herror] at hok
  cases hok

theorem IsTotal.events_eq_nil (h : f.IsTotal) (records : List Json) : f.events records = [] := by
  rw [(f.reports records).events_eq, h.mismatches_eq_nil]
  rfl

theorem IsTotal.batch (h : f.IsTotal) (records : List Json) : f.IsSmooth records := by
  have happly : f.apply records = pure ⟨f.matching records, []⟩ := by
    rw [apply_eq, h.mismatches_eq_nil, h.events_eq_nil]
    rfl
  have hmark : f.mark records = pure ⟨records.map fun r => (f.evaluate r).accepts, []⟩ := by
    rw [mark_eq, h.mismatches_eq_nil, h.events_eq_nil]
    rfl
  refine ⟨happly, fun s => ?_, hmark, fun s => ?_, fun visit => ?_⟩
  · rw [parApply_eq, happly]
  · rw [parMark_eq, hmark]
  · rw [value_markWith, h.mismatches_eq_nil]

end Filter

namespace Options

variable {o : Options} {w : Surroundings}

/-- A run that its records do not end: it is not refused, and comes to what the writing of
the records that it keeps comes to. -/
structure Intake.IsSmooth (i : o.Intake w) (out : Outcome) : Prop where
  not_mismatches (failed total : Nat) (first : Mismatch) :
    out.result ≠ .error (.mismatches failed total first)
  result : out.result =
    ((w.files.write o.output i.output i.kept).result.mapError .output).map
      (fun n => ⟨i.records.length, n, 0⟩)
  files : out.files = (w.files.write o.output i.output i.kept).files
  stdout : out.stdout = (w.files.write o.output i.output i.kept).stdout

end Options

/-- A run with a filter that can evaluate every record goes through, be it strict or not. -/
theorem Filter.IsTotal.run {o : Options} {w : Surroundings} {i : o.Intake w}
    (h : i.filter.IsTotal) (schedule : Scheduling) : i.IsSmooth (o.run w schedule) := by
  have hfailed : i.failed = 0 := by
    rw [← i.length_mismatches, h.mismatches_eq_nil]
    rfl
  have hadmitted : ¬i.IsRefused := fun hrefused => Nat.ne_of_gt hrefused.2 hfailed
  obtain ⟨hresult, hfiles, hstdout⟩ := i.run_of_admitted hadmitted schedule
  rw [hfailed] at hresult
  refine ⟨fun failed total first => ?_, hresult, hfiles, hstdout⟩
  rw [hresult]
  cases (w.files.write o.output i.output i.kept).result with
  | error e => exact nofun
  | ok n => exact nofun

namespace Expression

/-- A check of the form of an expression rules mismatches out. A checked expression has a
truth value for all records, save those for which one of its orderings has two present
operands without an order. Without orderings it holds or does not hold for every record;
then no batch with it has mismatches, and no run is ended by them. -/
theorem IsChecked.mismatch_free {e : Expression} (h : e.IsChecked) :
    (∀ fields, (∃ b, e.evaluate fields = .ok (.boolean b)) ∨
      ∃ t ∈ e.parts, ∃ err, t.FailsToOrder fields err ∧ e.evaluate fields = .error err) ∧
    ((∀ op l r, compare op l r ∈ e.parts → op = .eq ∨ op = .ne) →
      (∀ fields, ∃ b, e.holds fields = .ok b) ∧
      ∀ f : Filter, f.expression = e →
        (∀ records, f.IsSmooth records) ∧
        ∀ (o : Options) (w : Surroundings) (i : o.Intake w), i.filter = f →
          ∀ schedule, i.IsSmooth (o.run w schedule)) := by
  refine ⟨h.evaluate_cases, fun heq => ⟨h.exists_holds heq, ?_⟩⟩
  rintro f rfl
  have htotal : f.IsTotal := fun record => h.exists_holds heq (f.access.fields record)
  refine ⟨htotal.batch, ?_⟩
  rintro o w i rfl schedule
  exact htotal.run schedule

/-- Equalities and memberships of any kinds, with no ordering among them. -/
private def equalities : Expression :=
  or (compare .eq (field "a") (literal (.text "x")))
    (not (group (member (field "b") (.ofList [.text "y", .boolean true]) false)))

private def equalitiesOptions : Options :=
  { Options.between "data.jsonl" "out.json" with
    clause := some "a = 'x' OR NOT (b IN ('y', true))", strict := true }

/-- Records with values of other kinds under the names, with none, and without fields. -/
private def equalitiesSurroundings : Surroundings where
  files := .ofList [("data.jsonl", Text.Utf8.encode
    ("\x7b\"a\":\"x\"\x7d\n\x7b\"a\":[],\"b\":5\x7d\n" ++
      "\x7b\"a\":7,\"b\":\"y\"\x7d\n7\n"))]
  stdin := []

/-- A strict run over these records writes those that match. -/
theorem mismatch_free_strict :
    equalities.IsChecked ∧
      (∀ op l r, compare op l r ∈ equalities.parts → op = .eq ∨ op = .ne) ∧
      ∃ i : equalitiesOptions.Intake equalitiesSurroundings,
        i.selection.strict = true ∧ i.filter.expression = equalities ∧
        i.filter.IsSmooth i.records ∧
        i.IsSmooth (equalitiesOptions.run equalitiesSurroundings fun n => .inOrder n) ∧
        (equalitiesOptions.run equalitiesSurroundings fun n => .inOrder n).result =
          .ok ⟨4, 3, 0⟩ := by
  have hchecked : equalities.IsChecked := by decide
  have heq : ∀ op l r, compare op l r ∈ equalities.parts → op = .eq ∨ op = .ne := by
    intro op l r hmem
    simp only [equalities, parts, List.cons_append, List.nil_append, List.mem_cons, reduceCtorEq,
      compare.injEq, List.not_mem_nil, or_false, false_or] at hmem
    exact .inl hmem.1
  have hselected :
      ((equalitiesOptions.select equalitiesSurroundings.files .jsonl).run.value.toOption.map
        fun s => (s.strict, s.filter.expression)) = some (true, equalities) := by
    decide +kernel
  have hresult : (equalitiesOptions.run equalitiesSurroundings
      fun n => .inOrder n).result.toOption = some ⟨4, 3, 0⟩ := by
    decide +kernel
  have hloaded : (equalitiesSurroundings.load equalitiesOptions.input .jsonl).toOption.isSome := by
    decide +kernel
  obtain ⟨s, hs, hselected⟩ := Option.map_eq_some_iff.1 hselected
  obtain ⟨records, hrecords⟩ := Option.isSome_iff_exists.1 hloaded
  obtain ⟨hstrict, hexpression⟩ := Prod.mk.inj hselected
  let i : equalitiesOptions.Intake equalitiesSurroundings :=
    ⟨.jsonl, .json, s, records, by decide +kernel, by decide +kernel,
      Except.toOption_eq_some_iff.1 hs, Except.toOption_eq_some_iff.1 hrecords⟩
  obtain ⟨-, hfree⟩ := hchecked.mismatch_free
  obtain ⟨hbatches, hruns⟩ := (hfree heq).2 i.filter hexpression
  exact ⟨hchecked, heq, i, hstrict, hexpression, hbatches i.records,
    hruns _ _ i rfl fun n => .inOrder n, Except.toOption_eq_some_iff.1 hresult⟩

end Expression
end RecordSieve
