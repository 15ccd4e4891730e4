import Mathlib.Data.List.Nodup
import RecordSieve.Proofs.Report.Result
import RecordSieve.Settings.CompiledBook
/-!
# RecordSieve.Proofs.Settings.Compiling

What compiling makes of a book of filters, name by name.

A book compiles exactly if every entry does (`exists_compile_iff`); otherwise the
first entry that does not compile is blamed (`compile_eq_error_iff`). The compiled
book is asked in two ways: `get?` gives the filter of an entry, with flat access if
neither the entry nor the book sets one, and `hasExplicitAccess` tells that flat from
one that is set. Both answer by the entry of the same name, because a book declares
each name once.
-/

namespace RecordSieve

namespace Filter

variable {clause : String} {access : FieldAccess}

theorem compile_of_ok {e : Expression} (h : Clause.compile clause = .ok e) :
    compile clause access = .ok ⟨clause, e, access⟩ := by
  rw [compile, h, Except.map]

theorem compile_of_error {cause : CompileError} (h : Clause.compile clause = .error cause) :
    compile clause access = .error cause := by
  rw [compile, h, Except.map]

end Filter

/-- Whether the clause of an entry compiles. -/
def FilterEntry.Compiles (e : FilterEntry) : Prop := ∃ x, Clause.compile e.clause = .ok x

namespace FilterBook

variable {b : FilterBook} {c : CompiledBook} {name : String} {e : FilterEntry}

/-! ### Entries by name -/

/-- The entry with a given name. -/
def declared? (b : FilterBook) (name : String) : Option FilterEntry := b.entries.lookup name

/-- A book declares each name once, so the entry found under a name is the one that is
declared there. -/
theorem declared?_eq_some_iff : b.declared? name = some e ↔ (name, e) ∈ b.entries := by
  constructor
  · intro h
    obtain ⟨before, after, hentries, -⟩ := List.lookup_eq_some_iff.1 h
    rw [hentries]
    exact List.mem_append_right _ List.mem_cons_self
  · intro h
    cases hlookup : b.declared? name with
    | none =>
      have hne := List.lookup_eq_none_iff.1 hlookup _ h
      simp at hne
    | some e' =>
      obtain ⟨before, after, hentries, -⟩ := List.lookup_eq_some_iff.1 hlookup
      have hmem : (name, e') ∈ b.entries := by
        rw [hentries]
        exact List.mem_append_right _ List.mem_cons_self
      have hsame := List.inj_on_of_nodup_map b.nodup hmem h rfl
      rw [(Prod.mk.inj hsame).2]

theorem declared?_eq_none_iff : b.declared? name = none ↔ name ∉ b.entries.map Prod.fst := by
  rw [declared?, List.lookup_eq_none_iff, List.mem_map]
  constructor
  · rintro h ⟨p, hp, rfl⟩
    simpa using h p hp
  · intro h p hp
    rw [bne_iff_ne]
    rintro rfl
    exact h ⟨p, hp, rfl⟩

/-- The entries of a book in an order to go through them. -/
structure Reordering (b : FilterBook) where
  entries : List (String × FilterEntry)
  perm : entries.Perm b.entries

/-- The book with its entries in another order. -/
def Reordering.book (r : b.Reordering) : FilterBook where
  access := b.access
  strict := b.strict
  entries := r.entries
  nodup := (r.perm.map Prod.fst).nodup_iff.2 b.nodup

/-! ### Compiling in turn -/

theorem compileEntries_cons_of_ok {x : Expression} (h : Clause.compile e.clause = .ok x)
    (rest : List (String × FilterEntry)) :
    b.compileEntries ((name, e) :: rest) =
      (b.compileEntries rest).map ((name, ⟨e.clause, x, b.accessOf e⟩) :: ·) := by
  rw [compileEntries, Filter.compile_of_ok h]

theorem compileEntries_cons_of_error {cause : CompileError}
    (h : Clause.compile e.clause = .error cause) (rest : List (String × FilterEntry)) :
    b.compileEntries ((name, e) :: rest) = .error (.entry name cause) := by
  rw [compileEntries, Filter.compile_of_error h]

/-- Entries compile one after another. -/
theorem compileEntries_cons_eq_ok {rest : List (String × FilterEntry)}
    {fs : List (String × Filter)} (h : b.compileEntries ((name, e) :: rest) = .ok fs) :
    ∃ x fs', Clause.compile e.clause = .ok x ∧ b.compileEntries rest = .ok fs' ∧
      fs = (name, ⟨e.clause, x, b.accessOf e⟩) :: fs' := by
  cases hc : Clause.compile e.clause with
  | error cause =>
    rw [compileEntries_cons_of_error hc] at h
    cases h
  | ok x =>
    rw [compileEntries_cons_of_ok hc] at h
    obtain ⟨fs', hfs, rfl⟩ := Except.map_eq_ok_iff.1 h
    exact ⟨x, fs', rfl, hfs, rfl⟩

/-- Entries fail with the first of them that does not compile. -/
theorem compileEntries_eq_error_iff {es : List (String × FilterEntry)} {err : BookError} :
    b.compileEntries es = .error err ↔
      ∃ before name e after cause, es = before ++ (name, e) :: after ∧
        (∀ p ∈ before, p.2.Compiles) ∧ Clause.compile e.clause = .error cause ∧
        err = .entry name cause := by
  constructor
  · intro h
    induction es with
    | nil => cases h
    | cons p rest ih =>
      obtain ⟨n, e⟩ := p
      cases hc : Clause.compile e.clause with
      | error cause =>
        rw [compileEntries_cons_of_error hc] at h
        cases h
        exact ⟨[], n, e, rest, cause, rfl, by simp, hc, rfl⟩
      | ok x =>
        rw [compileEntries_cons_of_ok hc] at h
        cases hr : b.compileEntries rest with
        | ok fs =>
          rw [hr] at h
          cases h
        | error err' =>
          rw [hr] at h
          cases h
          obtain ⟨before, name, e', after, cause, rfl, hbefore, he, herr⟩ := ih hr
          refine ⟨(n, e) :: before, name, e', after, cause, rfl, ?_, he, herr⟩
          simpa using ⟨⟨x, hc⟩, by simpa using hbefore⟩
  · rintro ⟨before, name, e, after, cause, rfl, hbefore, he, rfl⟩
    induction before with
    | nil => exact compileEntries_cons_of_error he after
    | cons p before ih =>
      obtain ⟨n, e'⟩ := p
      obtain ⟨x, hx⟩ := hbefore (n, e') List.mem_cons_self
      have hrest := ih fun p hp => hbefore p (List.mem_cons_of_mem _ hp)
      rw [List.cons_append, compileEntries_cons_of_ok hx, hrest]
      rfl

theorem compiles_of_compileEntries {es : List (String × FilterEntry)}
    {fs : List (String × Filter)} (h : b.compileEntries es = .ok fs) :
    ∀ p ∈ es, p.2.Compiles := by
  induction es generalizing fs with
  | nil => simp
  | cons p rest ih =>
    obtain ⟨x, fs', hx, hrest, -⟩ := compileEntries_cons_eq_ok h
    intro q hq
    rcases List.mem_cons.1 hq with rfl | hq
    · exact ⟨x, hx⟩
    · exact ih hrest q hq

/-- Compiled entries keep their names, in their order. -/
theorem names_of_compileEntries {es : List (String × FilterEntry)} {fs : List (String × Filter)}
    (h : b.compileEntries es = .ok fs) : fs.map Prod.fst = es.map Prod.fst := by
  induction es generalizing fs with
  | nil =>
    cases h
    rfl
  | cons p rest ih =>
    obtain ⟨x, fs', -, hrest, rfl⟩ := compileEntries_cons_eq_ok h
    rw [List.map_cons, List.map_cons, ih hrest]

/-- Looking up a name in compiled entries and compiling the entry looked up are the same. -/
theorem lookup_of_compileEntries {es : List (String × FilterEntry)} {fs : List (String × Filter)}
    (h : b.compileEntries es = .ok fs) (name : String) :
    fs.lookup name =
      (es.lookup name).bind fun e => (Filter.compile e.clause (b.accessOf e)).toOption := by
  induction es generalizing fs with
  | nil =>
    cases h
    rfl
  | cons p rest ih =>
    obtain ⟨n, e⟩ := p
    obtain ⟨x, fs', hx, hrest, rfl⟩ := compileEntries_cons_eq_ok h
    by_cases hname : name = n
    · subst hname
      simp [Filter.compile_of_ok hx, Except.toOption]
    · simp [List.lookup_cons, beq_eq_false_iff_ne.2 hname, ih hrest]

/-! ### Compiled books -/

theorem compileEntries_of_compile (h : b.compile = .ok c) :
    b.compileEntries b.entries = .ok c.filters := by
  obtain ⟨fs, hfs, rfl⟩ := Except.map_eq_ok_iff.1 h
  exact hfs

theorem strict_of_compile (h : b.compile = .ok c) : c.strict = b.strict := by
  obtain ⟨fs, -, rfl⟩ := Except.map_eq_ok_iff.1 h
  rfl

/-- The compiled book has the names of the book. -/
theorem names_of_compile (h : b.compile = .ok c) :
    c.filters.map Prod.fst = b.entries.map Prod.fst :=
  names_of_compileEntries (compileEntries_of_compile h)

/-- A book fails to compile with the first of its entries that does not compile. -/
theorem compile_eq_error_iff {err : BookError} :
    b.compile = .error err ↔
      ∃ before name e after cause, b.entries = before ++ (name, e) :: after ∧
        (∀ p ∈ before, p.2.Compiles) ∧ Clause.compile e.clause = .error cause ∧
        err = .entry name cause := by
  rw [← compileEntries_eq_error_iff, compile]
  cases b.compileEntries b.entries with
  | error err' => simp [Except.map]
  | ok fs => simp [Except.map]

/-- A book compiles exactly if each of its entries does. -/
theorem exists_compile_iff : (∃ c, b.compile = .ok c) ↔ ∀ p ∈ b.entries, p.2.Compiles := by
  cases h : b.compile with
  | ok c =>
    exact iff_of_true ⟨c, rfl⟩ (compiles_of_compileEntries (compileEntries_of_compile h))
  | error err =>
    refine iff_of_false (by simp) ?_
    intro hall
    obtain ⟨before, name, e, after, cause, hentries, -, he, -⟩ := compile_eq_error_iff.1 h
    obtain ⟨x, hx⟩ := hall (name, e) (by rw [hentries]; simp)
    rw [hx] at he
    cases he

/-- The compiled book answers a name with the filter of the entry of that name. -/
theorem get?_of_compile (h : b.compile = .ok c) (name : String) :
    c.get? name =
      (b.declared? name).bind fun e => (Filter.compile e.clause (b.accessOf e)).toOption :=
  lookup_of_compileEntries (compileEntries_of_compile h) name

theorem get?_of_declared (h : b.compile = .ok c) (hname : b.declared? name = some e)
    {x : Expression} (hx : Clause.compile e.clause = .ok x) :
    c.get? name = some ⟨e.clause, x, b.accessOf e⟩ := by
  rw [get?_of_compile h, hname, Option.bind_some, Filter.compile_of_ok hx]
  rfl

theorem get?_eq_none_of_undeclared (h : b.compile = .ok c) (hname : b.declared? name = none) :
    c.get? name = none := by
  rw [get?_of_compile h, hname]
  rfl

/-- The compiled book tells whether access is set, by the entry or by the book. -/
theorem hasExplicitAccess_of_declared (h : b.compile = .ok c)
    (hname : b.declared? name = some e) :
    c.hasExplicitAccess name = (e.access?.or b.access).isSome := by
  obtain ⟨fs, -, rfl⟩ := Except.map_eq_ok_iff.1 h
  have hmem := declared?_eq_some_iff.1 hname
  rw [CompiledBook.hasExplicitAccess, Bool.eq_iff_iff, List.contains_iff_mem, List.mem_map,
    Option.isSome_or]
  constructor
  · rintro ⟨⟨n, e'⟩, hp, rfl⟩
    rw [List.mem_filter] at hp
    have hsame := List.inj_on_of_nodup_map b.nodup hp.1 hmem rfl
    rw [← (Prod.mk.inj hsame).2]
    exact hp.2
  · intro hset
    exact ⟨(name, e), List.mem_filter.2 ⟨hmem, hset⟩, rfl⟩

end FilterBook
end RecordSieve
