import RecordSieve.Proofs.Settings.Compiling
import RecordSieve.Run.Selection
/-!
# RecordSieve.Proofs.Run.Selection

Which filter a run gets, and why it may get none.

`Selects` has a rule for each of the two places a filter comes from, `Unselectable` one
for each way to have none. Every run is in exactly one of these cases
(`selects_or_unselectable`), so the rules are the function (`select_iff`). In the rule for
a named filter the way of access is the first one set in a row of four. The code takes
two steps to it: a compiled book has flat access where nothing is set, and only
`hasExplicitAccess` tells whether that flat access is meant.
-/

namespace RecordSieve

/-! ### Steps of an attempt -/

namespace Attempt

variable {ε δ α β : Type}

theorem value_bind (x : Attempt ε α) (f : α → Attempt ε β) :
    (x >>= f).run.value = x.run.value >>= fun a => (f a).run.value := by
  rw [ExceptT.run_bind, Logged.value_bind]
  cases x.run.value with
  | _ => rfl

@[simp] theorem value_pure (a : α) : (pure a : Attempt ε α).run.value = .ok a := rfl

@[simp] theorem value_report (e : Event) : (report e : Attempt ε Unit).run.value = .ok () := rfl

@[simp] theorem value_lift (x : Logged α) :
    (ExceptT.lift x : Attempt ε α).run.value = .ok x.value := rfl

@[simp] theorem value_adapt (wrap : ε → δ) (x : Attempt ε α) :
    (ExceptT.adapt wrap x : Attempt δ α).run.value = x.run.value.mapError wrap := rfl

end Attempt

namespace Options

variable {o : Options} {files : Files} {input : Format}

/-! ### The rules -/

/-- The way of access for an entry of a book: the options', else the entry's, else the
book's, else the input format's. -/
def accessFor (o : Options) (b : FilterBook) (e : FilterEntry) (input : Format) : FieldAccess :=
  ((o.access.or e.access?).or b.access).getD input.defaultAccess

/-- The filter with a given name in a book that is still to be compiled. -/
def selectFrom (o : Options) (input : Format) (b : FilterBook) (name : String) :
    Except SelectionError Selection :=
  b.compile.mapError .book >>= fun c => o.selectNamed input c name

/-- How a run gets its filter. -/
inductive Selects (o : Options) (files : Files) (input : Format) : Selection → Prop
  /-- The clause in the options. -/
  | clause {clause : String} {x : Expression} (hclause : o.clause = some clause)
      (hx : Clause.compile clause = .ok x) :
      Selects o files input ⟨⟨clause, x, o.access.getD input.defaultAccess⟩, o.strict⟩
  /-- The entry with the given name, in a book in which every entry compiles. -/
  | named {path name : String} {b : FilterBook} {e : FilterEntry} {x : Expression}
      (hclause : o.clause = none) (hfilters : o.filters = some path) (hname : o.name = some name)
      (hload : FilterBook.load files path = .ok b) (hall : ∀ p ∈ b.entries, p.2.Compiles)
      (he : (name, e) ∈ b.entries) (hx : Clause.compile e.clause = .ok x) :
      Selects o files input ⟨⟨e.clause, x, o.accessFor b e input⟩, o.strict || b.strict⟩

/-- Why a run gets no filter. -/
inductive Unselectable (o : Options) (files : Files) : SelectionError → Prop
  | clause {clause : String} {cause : CompileError} (hclause : o.clause = some clause)
      (hcause : Clause.compile clause = .error cause) : Unselectable o files (.clause clause cause)
  | noFilter (hclause : o.clause = none) (hfilters : o.filters = none) :
      Unselectable o files .noFilter
  | noName {path : String} (hclause : o.clause = none) (hfilters : o.filters = some path)
      (hname : o.name = none) : Unselectable o files .noName
  | unloaded {path name : String} {err : BookError} (hclause : o.clause = none)
      (hfilters : o.filters = some path) (hname : o.name = some name)
      (hload : FilterBook.load files path = .error err) : Unselectable o files (.book err)
  /-- The first entry that does not compile is blamed, whatever the name is. -/
  | broken {path name n : String} {b : FilterBook} {before after : List (String × FilterEntry)}
      {e : FilterEntry} {cause : CompileError} (hclause : o.clause = none)
      (hfilters : o.filters = some path) (hname : o.name = some name)
      (hload : FilterBook.load files path = .ok b)
      (hentries : b.entries = before ++ (n, e) :: after)
      (hbefore : ∀ p ∈ before, p.2.Compiles) (hcause : Clause.compile e.clause = .error cause) :
      Unselectable o files (.book (.entry n cause))
  | unknown {path name : String} {b : FilterBook} (hclause : o.clause = none)
      (hfilters : o.filters = some path) (hname : o.name = some name)
      (hload : FilterBook.load files path = .ok b) (hall : ∀ p ∈ b.entries, p.2.Compiles)
      (hnone : name ∉ b.entries.map Prod.fst) :
      Unselectable o files
        (.unknownName name ((b.entries.map Prod.fst).mergeSort fun s t => !decide (t < s)))

/-! ### The rules hold -/

theorem value_select_of_clause {clause : String} (h : o.clause = some clause) :
    (o.select files input).run.value = o.selectClause input clause := by
  rw [select, h]
  rfl

theorem value_select_of_filters {path name : String} (hclause : o.clause = none)
    (hfilters : o.filters = some path) (hname : o.name = some name) :
    (o.select files input).run.value =
      (FilterBook.load files path).mapError .book >>= fun b => o.selectFrom input b name := by
  simp only [select, hclause, hfilters, hname, Attempt.value_bind]
  unfold loadBook selectFrom
  cases FilterBook.load files path with
  | _ => rfl

theorem value_select_of_load {path name : String} {b : FilterBook} (hclause : o.clause = none)
    (hfilters : o.filters = some path) (hname : o.name = some name)
    (hload : FilterBook.load files path = .ok b) :
    (o.select files input).run.value = o.selectFrom input b name := by
  rw [value_select_of_filters hclause hfilters hname, hload]
  rfl

/-- The choice between the flag and what a compiled book says is the choice among the
four ways of access. -/
theorem selectNamed_of_declared {b : FilterBook} {c : CompiledBook} (hc : b.compile = .ok c)
    {name : String} {e : FilterEntry} (he : b.declared? name = some e) {x : Expression}
    (hx : Clause.compile e.clause = .ok x) :
    o.selectNamed input c name =
      .ok ⟨⟨e.clause, x, o.accessFor b e input⟩, o.strict || b.strict⟩ := by
  have haccess : o.access.getD
      (if c.hasExplicitAccess name then b.accessOf e else input.defaultAccess) =
      o.accessFor b e input := by
    rw [FilterBook.hasExplicitAccess_of_declared hc he, FilterBook.accessOf, accessFor,
      Option.or_assoc]
    cases o.access with
    | some a => rfl
    | none =>
      cases e.access?.or b.access with
      | none => rfl
      | some a => rfl
  simp only [selectNamed, FilterBook.get?_of_declared hc he hx, haccess, Filter.withAccess,
    FilterBook.strict_of_compile hc]

theorem selectNamed_of_undeclared {b : FilterBook} {c : CompiledBook} (hc : b.compile = .ok c)
    {name : String} (hname : b.declared? name = none) :
    o.selectNamed input c name =
      .error (.unknownName name
        ((b.entries.map Prod.fst).mergeSort fun s t => !decide (t < s))) := by
  simp only [selectNamed, FilterBook.get?_eq_none_of_undeclared hc hname, CompiledBook.names,
    FilterBook.names_of_compile hc]

/-- A named filter is the filter of its entry, in a book in which every entry compiles. -/
theorem selectFrom_eq_ok_iff {b : FilterBook} {name : String} {s : Selection} :
    o.selectFrom input b name = .ok s ↔
      (∀ p ∈ b.entries, p.2.Compiles) ∧ ∃ e x, (name, e) ∈ b.entries ∧
        Clause.compile e.clause = .ok x ∧
        s = ⟨⟨e.clause, x, o.accessFor b e input⟩, o.strict || b.strict⟩ := by
  constructor
  · intro h
    obtain ⟨c, hc, hs⟩ := Except.bind_eq_ok_iff.1 h
    have hc := Except.mapError_eq_ok_iff.1 hc
    have hall := FilterBook.exists_compile_iff.1 ⟨c, hc⟩
    cases hname : b.declared? name with
    | none =>
      rw [selectNamed_of_undeclared hc hname] at hs
      cases hs
    | some e =>
      have he := FilterBook.declared?_eq_some_iff.1 hname
      obtain ⟨x, hx⟩ := hall _ he
      rw [selectNamed_of_declared hc hname hx] at hs
      cases hs
      exact ⟨hall, e, x, he, hx, rfl⟩
  · rintro ⟨hall, e, x, he, hx, rfl⟩
    obtain ⟨c, hc⟩ := FilterBook.exists_compile_iff.2 hall
    rw [selectFrom, hc]
    exact selectNamed_of_declared hc (FilterBook.declared?_eq_some_iff.2 he) hx

/-- The order in which entries are gone through does not show in a named filter. -/
theorem selectFrom_reordering {b : FilterBook} (r : b.Reordering) {name : String} {s : Selection} :
    o.selectFrom input r.book name = .ok s ↔ o.selectFrom input b name = .ok s := by
  have hmem : ∀ p, p ∈ r.book.entries ↔ p ∈ b.entries := fun p => r.perm.mem_iff
  simp only [selectFrom_eq_ok_iff, hmem]
  rfl

theorem Selects.value {s : Selection} (h : o.Selects files input s) :
    (o.select files input).run.value = .ok s := by
  cases h with
  | clause hclause hx =>
    rw [value_select_of_clause hclause, selectClause, Filter.compile_of_ok hx]
  | named hclause hfilters hname hload hall he hx =>
    rw [value_select_of_load hclause hfilters hname hload]
    exact selectFrom_eq_ok_iff.2 ⟨hall, _, _, he, hx, rfl⟩

theorem Unselectable.value {e : SelectionError} (h : o.Unselectable files e) (input : Format) :
    (o.select files input).run.value = .error e := by
  cases h with
  | clause hclause hcause =>
    rw [value_select_of_clause hclause, selectClause, Filter.compile_of_error hcause]
  | noFilter hclause hfilters =>
    rw [select, hclause, hfilters]
    rfl
  | noName hclause hfilters hname =>
    rw [select, hclause, hfilters, hname]
    rfl
  | unloaded hclause hfilters hname hload =>
    rw [value_select_of_filters hclause hfilters hname, hload]
    rfl
  | broken hclause hfilters hname hload hentries hbefore hcause =>
    have hc := FilterBook.compile_eq_error_iff.2
      ⟨_, _, _, _, _, hentries, hbefore, hcause, rfl⟩
    rw [value_select_of_load hclause hfilters hname hload, selectFrom, hc]
    rfl
  | unknown hclause hfilters hname hload hall hnone =>
    obtain ⟨c, hc⟩ := FilterBook.exists_compile_iff.2 hall
    rw [value_select_of_load hclause hfilters hname hload, selectFrom, hc]
    exact selectNamed_of_undeclared hc (FilterBook.declared?_eq_none_iff.2 hnone)

/-! ### There are no other cases -/

/-- With a book that is loaded, a run gets the filter of an entry or has a reason not to. -/
theorem selects_or_unselectable_of_load {path name : String} {b : FilterBook}
    (hclause : o.clause = none) (hfilters : o.filters = some path) (hname : o.name = some name)
    (hload : FilterBook.load files path = .ok b) :
    (∃ s, o.Selects files input s) ∨ ∃ e, o.Unselectable files e := by
  cases hc : b.compile with
  | error err =>
    obtain ⟨before, n, e, after, cause, hentries, hbefore, hcause, -⟩ :=
      FilterBook.compile_eq_error_iff.1 hc
    exact .inr ⟨_, .broken hclause hfilters hname hload hentries hbefore hcause⟩
  | ok c =>
    have hall := FilterBook.exists_compile_iff.1 ⟨c, hc⟩
    by_cases hmem : name ∈ b.entries.map Prod.fst
    · obtain ⟨⟨n, e⟩, he, rfl⟩ := List.mem_map.1 hmem
      obtain ⟨x, hx⟩ := hall _ he
      exact .inl ⟨_, .named hclause hfilters hname hload hall he hx⟩
    · exact .inr ⟨_, .unknown hclause hfilters hname hload hall hmem⟩

theorem selects_or_unselectable (o : Options) (files : Files) (input : Format) :
    (∃ s, o.Selects files input s) ∨ ∃ e, o.Unselectable files e := by
  cases hclause : o.clause with
  | some clause =>
    cases hx : Clause.compile clause with
    | ok x => exact .inl ⟨_, .clause hclause hx⟩
    | error cause => exact .inr ⟨_, .clause hclause hx⟩
  | none =>
    cases hfilters : o.filters with
    | none => exact .inr ⟨_, .noFilter hclause hfilters⟩
    | some path =>
      cases hname : o.name with
      | none => exact .inr ⟨_, .noName hclause hfilters hname⟩
      | some name =>
        cases hload : FilterBook.load files path with
        | error err => exact .inr ⟨_, .unloaded hclause hfilters hname hload⟩
        | ok b => exact selects_or_unselectable_of_load hclause hfilters hname hload

theorem value_select_eq_ok_iff {s : Selection} :
    (o.select files input).run.value = .ok s ↔ o.Selects files input s := by
  constructor
  · intro h
    rcases selects_or_unselectable o files input with ⟨s', hs⟩ | ⟨e, he⟩
    · rw [hs.value] at h
      cases h
      exact hs
    · rw [he.value] at h
      cases h
  · exact Selects.value

theorem value_select_eq_error_iff {e : SelectionError} :
    (o.select files input).run.value = .error e ↔ o.Unselectable files e := by
  constructor
  · intro h
    rcases selects_or_unselectable o files input with ⟨s, hs⟩ | ⟨e', he⟩
    · rw [hs.value] at h
      cases h
    · rw [he.value] at h
      cases h
      exact he
  · intro h
    exact h.value input

/-- A run gets its filter by the rules and is refused one by the rules. The file of
filters, its name and the name of an entry in it have no say when the options hold a
clause, not even in what is reported; and the order in which the entries of a book are
gone through has none when they do not. -/
theorem select_iff (o : Options) (files : Files) (input : Format) :
    (∀ s, (o.select files input).run.value = .ok s ↔ o.Selects files input s) ∧
      (∀ e, (o.select files input).run.value = .error e ↔ o.Unselectable files e) ∧
      (∀ clause filters name otherFiles,
        { o with clause := some clause, filters := filters, name := name }.select otherFiles input =
          { o with clause := some clause }.select files input) ∧
      ∀ path name b, o.clause = none → o.filters = some path → o.name = some name →
        FilterBook.load files path = .ok b → ∀ (r : b.Reordering) (s : Selection),
          o.selectFrom input r.book name = .ok s ↔ o.Selects files input s := by
  refine ⟨fun s => value_select_eq_ok_iff, fun e => value_select_eq_error_iff, ?_, ?_⟩
  · intro clause filters name otherFiles
    rfl
  · intro path name b hclause hfilters hname hload r s
    rw [selectFrom_reordering, ← value_select_eq_ok_iff,
      value_select_of_load hclause hfilters hname hload]

/-- The options that say where to read and where to write, and nothing else. -/
def between (input output : String) : Options where
  input := input
  inputFormat := none
  output := output
  outputFormat := none
  clause := none
  filters := none
  name := none
  access := none
  mark := false
  markField := "visible"
  strict := false
  threads := none
  verbose := false

/-- Asks for an entry of a file, and says nothing about access. -/
private def namedOptions : Options :=
  { between "in.json" "out.json" with filters := some "filters.yaml", name := some "nested" }

/-- A strict file with an access of its own, and an entry with another one. -/
private def namedFiles : Files := .ofList [("filters.yaml", Text.Utf8.encode
  ("strict: true\nfield_access: properties\nfilters:\n" ++
    "  nested:\n    where: \"b\"\n    field_access: attributes\n"))]

/-- The entry's access stands in front of the file's, and the file is strict for it. -/
theorem select_iff_own_access :
    namedOptions.Selects namedFiles .json ⟨⟨"b", .field "b", .attributes⟩, true⟩ ∧
      ∃ b, FilterBook.load namedFiles "filters.yaml" = .ok b ∧ ∀ r : b.Reordering,
        namedOptions.selectFrom .json r.book "nested" =
          .ok ⟨⟨"b", .field "b", .attributes⟩, true⟩ := by
  have hselect : (namedOptions.select namedFiles .json).run.value =
      .ok ⟨⟨"b", .field "b", .attributes⟩, true⟩ := by
    decide +kernel
  obtain ⟨hiff, -, -, hreordering⟩ := select_iff namedOptions namedFiles .json
  have hselects := (hiff _).1 hselect
  rw [value_select_of_filters rfl rfl rfl] at hselect
  obtain ⟨b, hb, -⟩ := Except.bind_eq_ok_iff.1 hselect
  have hload := Except.mapError_eq_ok_iff.1 hb
  exact ⟨hselects, b, hload, fun r => (hreordering _ _ b rfl rfl rfl hload r _).2 hselects⟩

end Options
end RecordSieve
