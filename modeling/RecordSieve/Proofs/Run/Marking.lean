import Mathlib.Data.List.Forall2
import RecordSieve.Proofs.Json.Reading
import RecordSieve.Proofs.Record.Writing
import RecordSieve.Proofs.Run.Delivery
import RecordSieve.Proofs.Run.Names
/-!
# RecordSieve.Proofs.Run.Marking

What marking and filtering have to do with each other.

The fields of a record are read in one way and its flag is set in another one.
`FieldAccess.Marks` says what a marked record is without either of them: by the ways that
lead through its objects, of which only the way to the flag leads to something else than
before. Setting the flag is marking in this sense (`FieldAccess.marks_flagged`).

Whether a run marks is asked for after all else is found out, so the run that filters and
the run that marks have the same intake, and are refused alike. They end with the same
error, or they tell the same story of the same records (`Options.filtering_and_marking`).
-/

namespace RecordSieve

open Json (Members IsOrdered)

/-! ### Ways through objects -/

namespace Json

variable {key other : String} {keys : List String} {v w : Json} {ms : Members}

/-- What a row of keys leads to. -/
def at? : List String → Json → Option Json
  | [], v => some v
  | key :: keys, v => (v.get? key).bind (at? keys)

theorem at?_cons_object (key : String) (keys : List String) (ms : Members) :
    at? (key :: keys) (object ms) = (Members.get? key ms).bind (at? keys) := rfl

theorem at?_of_get? (h : Members.get? key ms = some v) (keys : List String) :
    at? (key :: keys) (object ms) = at? keys v := by
  rw [at?_cons_object, h, Option.bind_some]

/-- Setting one key leaves the ways over another key alone. -/
theorem at?_insert_of_ne (h : other ≠ key) (keys : List String) (v : Json) (ms : Members) :
    at? (other :: keys) (object (Members.insert key v ms)) = at? (other :: keys) (object ms) := by
  rw [at?_cons_object, Members.get?_insert_of_ne h, at?_cons_object]

/-- Setting a key changes no way that leads neither to it nor beyond. -/
theorem at?_insert_of_not_prefix (hshort : keys ≠ []) (hlong : ¬[key] <+: keys) (v : Json)
    (ms : Members) : at? keys (object (Members.insert key v ms)) = at? keys (object ms) := by
  cases keys with
  | nil => exact absurd rfl hshort
  | cons k ks =>
    refine at?_insert_of_ne ?_ ks v ms
    rintro rfl
    exact hlong ⟨ks, rfl⟩

theorem IsOrdered.insert (h : IsOrdered (.object ms)) (hv : IsOrdered v) (key : String) :
    IsOrdered (.object (Members.insert key v ms)) := by
  refine .object (h.members.1.insert key v) fun m hm => ?_
  rcases Members.mem_insert hm with rfl | hm
  · exact hv
  · exact h.members.2 m hm

theorem members?_eq_some_iff : v.members? = some ms ↔ v = .object ms := by
  cases v with
  | object ns => simp [members?]
  | _ => simp [members?]

end Json

/-! ### Marked records -/

namespace FieldAccess

variable {a : FieldAccess} {field : String} {verdict : Bool} {r s : Json} {ms : Members}

/-- The keys that lead to a field. -/
def pathTo (a : FieldAccess) (field : String) : List String := a.container?.toList ++ [field]

/-- The record `s` is the record `r` with a verdict set among its fields, and nothing else
about it has changed. -/
structure Marks (a : FieldAccess) (field : String) (verdict : Bool) (r s : Json) : Prop where
  /-- A record without an object for its fields stays as it is. -/
  without : a.members? r = none → s = r
  flag : ∀ ms, a.members? r = some ms → s.at? (a.pathTo field) = some (.boolean verdict)
  /-- All ways that do not share the way to the flag lead where they led, or nowhere if
  they led nowhere. -/
  others : ∀ path, ¬path <+: a.pathTo field → ¬a.pathTo field <+: path → s.at? path = r.at? path
  /-- Each key stands once in its object, and in its place. -/
  ordered : r.IsOrdered → s.IsOrdered

/-- The fields of a record are its members or those of an object among them. -/
theorem members?_eq_some_cases (h : a.members? r = some ms) :
    (a.container? = none ∧ r = .object ms) ∨
      ∃ key outer, a.container? = some key ∧ r = .object outer ∧
        Members.get? key outer = some (.object ms) := by
  unfold members? at h
  split at h
  · rename_i hflat
    exact .inl ⟨hflat, Json.members?_eq_some_iff.1 h⟩
  · rename_i key hkey
    obtain ⟨v, hv, hms⟩ := Option.bind_eq_some_iff.1 h
    obtain ⟨outer, houter, hget⟩ := Option.bind_eq_some_iff.1 hv
    obtain rfl := Json.members?_eq_some_iff.1 hms
    exact .inr ⟨key, outer, hkey, Json.members?_eq_some_iff.1 houter, hget⟩

theorem marks_flagged_flat (hflat : a.container? = none) (field : String) (ms : Members)
    (verdict : Bool) :
    a.Marks field verdict (.object ms) (a.flagged field (.object ms) verdict) := by
  have hpath : a.pathTo field = [field] := by rw [pathTo, hflat]; rfl
  have hflagged : a.flagged field (.object ms) verdict =
      .object (Members.insert field (.boolean verdict) ms) := by
    rw [flagged, setField?, hflat]
    rfl
  rw [hflagged]
  refine ⟨fun hnone => ?_, fun _ _ => ?_, fun path hshort hlong => ?_, fun ho => ?_⟩
  · rw [members?, hflat] at hnone
    cases hnone
  · rw [hpath, Json.at?_of_get? (Members.get?_insert_self field _ ms)]
    rfl
  · rw [hpath] at hshort hlong
    refine Json.at?_insert_of_not_prefix ?_ hlong _ ms
    rintro rfl
    exact hshort List.nil_prefix
  · exact ho.insert (.atom rfl) field

theorem marks_flagged_nested {key : String} (hkey : a.container? = some key) {outer : Members}
    (hget : Members.get? key outer = some (.object ms)) (field : String) (verdict : Bool) :
    a.Marks field verdict (.object outer) (a.flagged field (.object outer) verdict) := by
  have hpath : a.pathTo field = [key, field] := by rw [pathTo, hkey]; rfl
  have hflagged : a.flagged field (.object outer) verdict =
      .object (Members.insert key (.object (Members.insert field (.boolean verdict) ms)) outer) := by
    simp [flagged, setField?, hkey, hget, Json.members?]
  have hinner := Members.get?_insert_self key
    (.object (Members.insert field (.boolean verdict) ms)) outer
  rw [hflagged]
  refine ⟨fun hnone => ?_, fun _ _ => ?_, fun path hshort hlong => ?_, fun ho => ?_⟩
  · simp [members?, hkey, Json.get?, Json.members?, hget] at hnone
  · rw [hpath, Json.at?_of_get? hinner, Json.at?_of_get? (Members.get?_insert_self field _ ms)]
    rfl
  · rw [hpath] at hshort hlong
    cases path with
    | nil => exact absurd List.nil_prefix hshort
    | cons k ks =>
      by_cases hk : k = key
      · subst hk
        rw [Json.at?_of_get? hinner, Json.at?_of_get? hget]
        refine Json.at?_insert_of_not_prefix ?_ ?_ _ ms
        · rintro rfl
          exact hshort ⟨[field], rfl⟩
        · exact fun h => hlong ((List.prefix_cons_inj k).2 h)
      · exact Json.at?_insert_of_ne hk ks _ outer
  · exact ho.insert ((ho.get? hget).insert (.atom rfl) field) key

/-- Setting the flag of a record marks it. -/
theorem marks_flagged (a : FieldAccess) (field : String) (r : Json) (verdict : Bool) :
    a.Marks field verdict r (a.flagged field r verdict) := by
  cases h : a.members? r with
  | none =>
    rw [a.flagged_of_members?_eq_none field h]
    exact ⟨fun _ => rfl, fun ms hms => absurd (h.symm.trans hms) nofun, fun _ _ _ => rfl, id⟩
  | some ms =>
    obtain ⟨hflat, rfl⟩ | ⟨key, outer, hkey, rfl, hget⟩ := members?_eq_some_cases h
    · exact marks_flagged_flat hflat field ms verdict
    · exact marks_flagged_nested hkey hget field verdict

end FieldAccess

/-! ### Outputs of lines and arrays -/

namespace Options

variable {o : Options} {w : Surroundings}

/-- The bytes that a run has left where its output goes. -/
def output? (o : Options) (out : Outcome) : Option (List UInt8) :=
  if Path.isStandard o.output then some (Text.Utf8.encode out.stdout)
  else out.files.read? o.output

/-- The output of a run is some records in a format, and nothing else. -/
def Holds (o : Options) (out : Outcome) (format : Format) (records : List Json) : Prop :=
  ∃ text, compose format records = (text, .ok records.length) ∧
    o.output? out = some (Text.Utf8.encode text)

/-- The output of a run can be opened: it is the standard output or a file that can be
created. -/
def IsOpenable (o : Options) (w : Surroundings) : Prop :=
  Path.isStandard o.output = true ∨ ∃ name, w.files.creatable? o.output = some name

namespace Intake

variable (i : o.Intake w)

theorem run_of_not_openable (hadmitted : ¬i.IsRefused) (h : ¬o.IsOpenable w)
    (schedule : Scheduling) :
    (o.run w schedule).result = .error (.output (.notCreated o.output)) := by
  have hs : Path.isStandard o.output = false := Bool.eq_false_iff.2 fun hs => h (.inl hs)
  have hc : w.files.creatable? o.output = none :=
    Option.eq_none_iff_forall_ne_some.2 fun name hname => h (.inr ⟨name, hname⟩)
  obtain ⟨hresult, -, -⟩ := i.run_of_admitted hadmitted schedule
  rw [hresult, Files.result_write_notCreated hs hc]
  rfl

/-- A run whose output can be opened and holds any records writes all that it keeps. -/
theorem run_of_openable (hadmitted : ¬i.IsRefused) (hplain : i.output ≠ .geojson)
    (h : o.IsOpenable w) (schedule : Scheduling) :
    (o.run w schedule).result = .ok ⟨i.records.length, i.kept.length, i.failed⟩ ∧
      o.Holds (o.run w schedule) i.output i.kept := by
  obtain ⟨texts, htexts⟩ := Writer.exists_texts_of_plain hplain i.kept
  have hcompose := compose_of_texts htexts
  cases hs : Path.isStandard o.output with
  | true =>
    obtain ⟨hresult, -, hstdout⟩ := i.run_of_admitted hadmitted schedule
    rw [Files.write, if_pos hs, hcompose] at hresult hstdout
    refine ⟨hresult, _, hcompose, ?_⟩
    rw [output?, if_pos hs, hstdout]
  | false =>
    obtain ⟨name, hname⟩ := h.resolve_left (Bool.eq_false_iff.1 hs)
    obtain ⟨hresult, hfiles⟩ := i.run_of_texts hadmitted hs hname htexts schedule
    refine ⟨hresult, _, hcompose, ?_⟩
    rw [output?, if_neg (Bool.eq_false_iff.1 hs), hfiles]
    exact Files.read?_set hname _

end Intake

/-! ### Two runs with one intake -/

/-- The same options, marking or not. -/
def withMark (o : Options) (mark : Bool) : Options := { o with mark := mark }

/-- What a run finds out first has nothing to do with marking. -/
def Intake.withMark (i : o.Intake w) (mark : Bool) : (o.withMark mark).Intake w where
  input := i.input
  output := i.output
  selection := i.selection
  records := i.records
  input_eq := i.input_eq
  output_eq := i.output_eq
  selection_eq := i.selection_eq
  records_eq := i.records_eq

/-- No reason to write nothing has to do with marking. -/
theorem Unplanned.withMark {e : RunError} (h : o.Unplanned w e) (mark : Bool) :
    (o.withMark mark).Unplanned w e := by
  cases h with
  | inputFormat h => exact .inputFormat h
  | outputFormat hinput h => exact .outputFormat hinput h
  | selection hinput houtput h => exact .selection hinput houtput h
  | input hinput houtput hselection h => exact .input hinput houtput hselection h
  | refused i h hms => exact .refused (i.withMark mark) h hms

/-- What a run that filters and a run that marks tell of the records that they have read:
the same numbers of records and of mismatches, and by each record whether it matches. -/
structure Intake.ToldBy (i : o.Intake w) (filtering marking : Outcome) : Prop where
  filtered : filtering.result = .ok ⟨i.records.length,
    (i.records.filter fun r => (i.filter.evaluate r).accepts).length, i.failed⟩
  marked : marking.result = .ok ⟨i.records.length, i.records.length, i.failed⟩
  /-- The run that filters leaves the records that match, as they were read. -/
  selection : o.Holds filtering i.output
    (i.records.filter fun r => (i.filter.evaluate r).accepts)
  /-- The run that marks leaves all records, each with whether it matches. -/
  flags : ∃ flagged, o.Holds marking i.output flagged ∧
    List.Forall₂ (fun r => i.filter.access.Marks o.markField (i.filter.evaluate r).accepts r)
      i.records flagged

/-- A run that filters into lines or an array and the same run that marks end with the same
error, or they tell the same story. Their orders of work may differ. -/
theorem filtering_and_marking (o : Options) (hplain : o.outputFormat? ≠ some .geojson)
    (w : Surroundings) (schedule order : Scheduling) :
    (∃ e, ((o.withMark false).run w schedule).result = .error e ∧
        ((o.withMark true).run w order).result = .error e) ∨
      ∃ i : o.Intake w,
        i.ToldBy ((o.withMark false).run w schedule) ((o.withMark true).run w order) := by
  rcases o.admitted_or_unplanned w with ⟨i, hadmitted⟩ | ⟨e, he⟩
  · by_cases hopen : o.IsOpenable w
    · have hformat : i.output ≠ .geojson := fun h => hplain (h ▸ i.output_eq)
      obtain ⟨hfiltered, hselection⟩ :=
        (i.withMark false).run_of_openable hadmitted hformat hopen schedule
      obtain ⟨hmarked, hflags⟩ := (i.withMark true).run_of_openable hadmitted hformat hopen order
      rw [(i.withMark false).kept_of_filter rfl] at hfiltered hselection
      rw [(i.withMark true).length_kept_of_mark rfl] at hmarked
      rw [(i.withMark true).kept_of_mark rfl] at hflags
      refine .inr ⟨i, hfiltered, hmarked, hselection, _, hflags, ?_⟩
      exact List.forall₂_map_right_iff.2 (List.forall₂_same.2 fun r _ =>
        i.filter.access.marks_flagged o.markField r _)
    · exact .inl ⟨_, (i.withMark false).run_of_not_openable hadmitted hopen schedule,
        (i.withMark true).run_of_not_openable hadmitted hopen order⟩
  · refine .inl ⟨e, ?_, ?_⟩
    · rw [run_of_outline_error (he.withMark false).outline]
    · rw [run_of_outline_error (he.withMark true).outline]

/-- Asks for a field that is the flag at the same time, inside of the records. -/
private def nestedOptions : Options :=
  { between "data.jsonl" "out.json" with
    clause := some "visible > 4", access := some .attributes }

/-- A record that matches, one without an object for its fields, one that cannot be
evaluated, and one that is no object. -/
private def nestedSurroundings : Surroundings where
  files := .ofList [("data.jsonl", Text.Utf8.encode
    ("\x7b\"attributes\":\x7b\"visible\":5\x7d,\"visible\":1\x7d\n" ++
      "\x7b\"attributes\":null\x7d\n\x7b\"attributes\":\x7b\"visible\":\"x\"\x7d\x7d\n7\n"))]
  stdin := []

/-- Both runs succeed, and the flag does not show in what it is set from. -/
theorem filtering_and_marking_nested :
    nestedOptions.outputFormat? ≠ some .geojson ∧
      ∃ i : nestedOptions.Intake nestedSurroundings,
        i.ToldBy ((nestedOptions.withMark false).run nestedSurroundings fun n => .inOrder n)
          ((nestedOptions.withMark true).run nestedSurroundings fun n => .inOrder n) ∧
        ((nestedOptions.withMark false).run nestedSurroundings fun n => .inOrder n).result =
          .ok ⟨4, 1, 1⟩ := by
  have hplain : nestedOptions.outputFormat? ≠ some .geojson := by decide +kernel
  have hresult : ((nestedOptions.withMark false).run nestedSurroundings
      fun n => .inOrder n).result.toOption = some ⟨4, 1, 1⟩ := by
    decide +kernel
  have hok := Except.toOption_eq_some_iff.1 hresult
  rcases filtering_and_marking nestedOptions hplain nestedSurroundings (fun n => .inOrder n)
    (fun n => .inOrder n) with ⟨e, he, -⟩ | ⟨i, hi⟩
  · rw [hok] at he
    cases he
  · exact ⟨hplain, i, hi, hok⟩

end Options
end RecordSieve
