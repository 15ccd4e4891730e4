import RecordSieve.Proofs.Settings.Compiling
/-!
# RecordSieve.Proofs.Settings.Answers

What can be asked of a compiled book of filters, and that the order in which the entries
were gone through cannot be told from the answers.

`Answers` says what a compiled book answers, in terms of the entries alone: by name, and
with nothing left open, so two books with the answers of the same entries are `Alike`
(`Answers.alike`). A book that compiles answers in this way whatever the order was. One
that does not compile blames an entry at which it fails, and each such entry is blamed in
some order (`compile_in_any_order`).
-/

namespace RecordSieve

/-! ### Names in order -/

/-- The names of a compiled book are those of its filters, in ascending order. -/
theorem CompiledBook.names_ascending {c : CompiledBook} (h : (c.filters.map Prod.fst).Nodup) :
    c.names.Pairwise (· < ·) := by
  have hle : ∀ s t : String, (!decide (t < s)) = true ↔ s ≤ t := by
    intro s t
    rw [Bool.not_eq_true', decide_eq_false_iff_not, String.not_lt]
  have hsorted : c.names.Pairwise fun s t => (!decide (t < s)) = true := by
    refine List.pairwise_mergeSort (fun s t u => ?_) (fun s t => ?_) _
    · simpa only [hle] using String.le_trans
    · simpa only [Bool.or_eq_true, hle] using String.le_total s t
  have hnodup : c.names.Nodup := (List.mergeSort_perm _ _).nodup_iff.2 h
  refine (hsorted.and hnodup).imp fun {s t} ⟨hst, hne⟩ => ?_
  exact String.not_le.1 fun hts => hne (String.le_antisymm ((hle s t).1 hst) hts)

/-- Compiled books that give the same answers. -/
structure CompiledBook.Alike (c c' : CompiledBook) : Prop where
  names : c.names = c'.names
  get? : ∀ name, c.get? name = c'.get? name
  hasExplicitAccess : ∀ name, c.hasExplicitAccess name = c'.hasExplicitAccess name
  strict : c.strict = c'.strict
  size : c.size = c'.size

namespace FilterBook

variable {b : FilterBook} {c c' : CompiledBook} {name : String} {e : FilterEntry}

/-- What a compiled book answers, told from the entries of the book. -/
structure Answers (b : FilterBook) (c : CompiledBook) : Prop where
  ascending : c.names.Pairwise (· < ·)
  mem_names_iff : ∀ name, name ∈ c.names ↔ ∃ e, (name, e) ∈ b.entries
  /-- A name stands for the clause of its entry, with the access of the entry, else that
  of the book, else flat. -/
  get? : ∀ name e, (name, e) ∈ b.entries → ∃ x, Clause.compile e.clause = .ok x ∧
    c.get? name = some ⟨e.clause, x, (e.access?.or b.access).getD .flat⟩
  hasExplicitAccess_iff : ∀ name e, (name, e) ∈ b.entries →
    (c.hasExplicitAccess name = true ↔ e.access?.isSome ∨ b.access.isSome)
  undeclared : ∀ name, (∀ e, (name, e) ∉ b.entries) →
    c.get? name = none ∧ c.hasExplicitAccess name = false
  strict : c.strict = b.strict
  size : c.size = b.entries.length

theorem Answers.nodup (h : b.Answers c) : c.names.Nodup := by
  refine h.ascending.imp fun {s t} hst => ?_
  rintro rfl
  exact String.lt_irrefl s hst

/-- The answers to all questions are settled by the entries. -/
theorem Answers.alike (h : b.Answers c) (h' : b.Answers c') : c.Alike c' where
  names := by
    have hmem : ∀ name, name ∈ c.names ↔ name ∈ c'.names := fun name =>
      (h.mem_names_iff name).trans (h'.mem_names_iff name).symm
    have hperm : c.names.Perm c'.names :=
      (List.perm_ext_iff_of_nodup h.nodup h'.nodup).2 hmem
    exact hperm.eq_of_pairwise (fun s t _ _ hst hts => absurd hts (String.lt_asymm hst))
      h.ascending h'.ascending
  get? name := by
    by_cases hname : ∃ e, (name, e) ∈ b.entries
    · obtain ⟨e, he⟩ := hname
      obtain ⟨x, hx, hget⟩ := h.get? name e he
      obtain ⟨x', hx', hget'⟩ := h'.get? name e he
      obtain rfl : x = x' := by rwa [hx, Except.ok.injEq] at hx'
      rw [hget, hget']
    · have hnone : ∀ e, (name, e) ∉ b.entries := fun e he => hname ⟨e, he⟩
      rw [(h.undeclared name hnone).1, (h'.undeclared name hnone).1]
  hasExplicitAccess name := by
    by_cases hname : ∃ e, (name, e) ∈ b.entries
    · obtain ⟨e, he⟩ := hname
      exact Bool.eq_iff_iff.2
        ((h.hasExplicitAccess_iff name e he).trans (h'.hasExplicitAccess_iff name e he).symm)
    · have hnone : ∀ e, (name, e) ∉ b.entries := fun e he => hname ⟨e, he⟩
      rw [(h.undeclared name hnone).2, (h'.undeclared name hnone).2]
  strict := h.strict.trans h'.strict.symm
  size := h.size.trans h'.size.symm

/-! ### Books that compile -/

theorem hasExplicitAccess_of_undeclared (h : b.compile = .ok c)
    (hname : ∀ e, (name, e) ∉ b.entries) : c.hasExplicitAccess name = false := by
  obtain ⟨fs, -, rfl⟩ := Except.map_eq_ok_iff.1 h
  rw [CompiledBook.hasExplicitAccess, Bool.eq_false_iff, Ne, List.contains_iff_mem, List.mem_map]
  rintro ⟨⟨n, e⟩, hp, rfl⟩
  exact hname e (List.mem_filter.1 hp).1

theorem answers_of_compile (h : b.compile = .ok c) : b.Answers c where
  ascending := by
    refine CompiledBook.names_ascending ?_
    rw [names_of_compile h]
    exact b.nodup
  mem_names_iff name := by
    rw [CompiledBook.names, (List.mergeSort_perm _ _).mem_iff, names_of_compile h]
    simp
  get? name e he := by
    obtain ⟨x, hx⟩ := exists_compile_iff.1 ⟨c, h⟩ _ he
    exact ⟨x, hx, get?_of_declared h (declared?_eq_some_iff.2 he) hx⟩
  hasExplicitAccess_iff name e he := by
    rw [hasExplicitAccess_of_declared h (declared?_eq_some_iff.2 he), Option.isSome_or,
      Bool.or_eq_true]
  undeclared name hname := by
    have hnone : b.declared? name = none := by
      refine declared?_eq_none_iff.2 fun hmem => ?_
      obtain ⟨⟨n, e⟩, he, rfl⟩ := List.mem_map.1 hmem
      exact hname e he
    exact ⟨get?_eq_none_of_undeclared h hnone, hasExplicitAccess_of_undeclared h hname⟩
  strict := strict_of_compile h
  size := by
    have hlength := congrArg List.length (names_of_compile h)
    rwa [List.length_map, List.length_map] at hlength

/-! ### Orders -/

theorem Reordering.mem_entries_iff (r : b.Reordering) {p : String × FilterEntry} :
    p ∈ r.book.entries ↔ p ∈ b.entries := r.perm.mem_iff

/-- The answers in any order are those of the book. -/
theorem Reordering.answers {r : b.Reordering} (h : r.book.Answers c) : b.Answers c where
  ascending := h.ascending
  mem_names_iff name := by
    rw [h.mem_names_iff]
    exact exists_congr fun e => r.mem_entries_iff
  get? name e he := h.get? name e (r.mem_entries_iff.2 he)
  hasExplicitAccess_iff name e he := h.hasExplicitAccess_iff name e (r.mem_entries_iff.2 he)
  undeclared name hname := h.undeclared name fun e he => hname e (r.mem_entries_iff.1 he)
  strict := h.strict
  size := h.size.trans r.perm.length_eq

/-- The order with a given entry in front. -/
def Reordering.startingAt (he : (name, e) ∈ b.entries) : b.Reordering where
  entries := (name, e) :: b.entries.erase (name, e)
  perm := (List.perm_cons_erase he).symm

/-- Compiling fails with an entry that is tried first and does not compile. -/
theorem Reordering.compile_startingAt {cause : CompileError} (he : (name, e) ∈ b.entries)
    (h : Clause.compile e.clause = .error cause) :
    (startingAt he).book.compile = .error (.entry name cause) :=
  compile_eq_error_iff.2 ⟨[], name, e, _, cause, rfl, nofun, h, rfl⟩

/-- In every order a book compiles exactly if each of its entries does. Then it answers as
its entries say, and alike for all orders. The errors it can fail with are those of its
entries, each under the name of the entry. -/
theorem compile_in_any_order (b : FilterBook) :
    (∀ r : b.Reordering, (∃ c, r.book.compile = .ok c) ↔ ∀ p ∈ b.entries, p.2.Compiles) ∧
    (∀ (r : b.Reordering) c, r.book.compile = .ok c → b.Answers c) ∧
    (∀ (r r' : b.Reordering) c c', r.book.compile = .ok c → r'.book.compile = .ok c' →
      c.Alike c') ∧
    (∀ err, (∃ r : b.Reordering, r.book.compile = .error err) ↔
      ∃ name e cause, (name, e) ∈ b.entries ∧ Clause.compile e.clause = .error cause ∧
        err = .entry name cause) := by
  have hanswers : ∀ (r : b.Reordering) c, r.book.compile = .ok c → b.Answers c :=
    fun r c h => Reordering.answers (answers_of_compile h)
  refine ⟨fun r => ?_, hanswers, fun r r' c c' h h' => ?_, fun err => ⟨?_, ?_⟩⟩
  · rw [exists_compile_iff]
    exact forall_congr' fun p => imp_congr_left r.mem_entries_iff
  · exact (hanswers r c h).alike (hanswers r' c' h')
  · rintro ⟨r, h⟩
    obtain ⟨before, name, e, after, cause, hentries, -, he, rfl⟩ := compile_eq_error_iff.1 h
    have hmem : (name, e) ∈ r.book.entries := by
      rw [hentries]
      exact List.mem_append_right _ List.mem_cons_self
    exact ⟨name, e, cause, r.mem_entries_iff.1 hmem, he, rfl⟩
  · rintro ⟨name, e, cause, hmem, he, rfl⟩
    exact ⟨.startingAt hmem, Reordering.compile_startingAt hmem he⟩

/-- Entries in no alphabetic order, one of them with an access of its own. -/
private def twoEntries : FilterBook where
  access := none
  strict := true
  entries := [("wide", .detailed "b" (some .properties)), ("narrow", .bare "a")]
  nodup := by decide

/-- The other order of the entries. -/
private def narrowFirst : twoEntries.Reordering where
  entries := [("narrow", .bare "a"), ("wide", .detailed "b" (some .properties))]
  perm := .swap _ _ _

/-- Both orders compile, with the answers of the entries. -/
theorem compile_in_any_order_two :
    ∃ c c', twoEntries.compile = .ok c ∧ narrowFirst.book.compile = .ok c' ∧ c.Alike c' ∧
      twoEntries.Answers c ∧ c.names = ["narrow", "wide"] ∧
      c'.get? "wide" = some ⟨"b", .field "b", .properties⟩ ∧
      c'.hasExplicitAccess "narrow" = false := by
  have ha : Clause.compile "a" = .ok (.field "a") :=
    Except.toOption_eq_some_iff.1 (by decide +kernel)
  have hb : Clause.compile "b" = .ok (.field "b") :=
    Except.toOption_eq_some_iff.1 (by decide +kernel)
  have hall : ∀ p ∈ twoEntries.entries, p.2.Compiles := by
    intro p hp
    rcases List.mem_cons.1 hp with rfl | hp
    · exact ⟨_, hb⟩
    · cases List.mem_singleton.1 hp
      exact ⟨_, ha⟩
  obtain ⟨hok, hanswers, halike, -⟩ := compile_in_any_order twoEntries
  obtain ⟨c, hc⟩ := (hok ⟨twoEntries.entries, .refl _⟩).2 hall
  obtain ⟨c', hc'⟩ := (hok narrowFirst).2 hall
  have hnames : c.names = ["narrow", "wide"] := by
    have hperm : c.names.Perm ["narrow", "wide"] := by
      rw [CompiledBook.names, names_of_compile hc]
      exact (List.mergeSort_perm _ _).trans (.swap _ _ _)
    exact hperm.eq_of_pairwise (fun s t _ _ hst hts => absurd hts (String.lt_asymm hst))
      (hanswers _ c hc).ascending (by decide)
  have hdescribed := hanswers narrowFirst c' hc'
  obtain ⟨x, hx, hwide⟩ := hdescribed.get? "wide" (.detailed "b" (some .properties)) (by decide)
  obtain rfl : .field "b" = x := by
    rw [FilterEntry.clause, hb, Except.ok.injEq] at hx
    exact hx
  have hnarrow := hdescribed.hasExplicitAccess_iff "narrow" (.bare "a") (by decide)
  have hunset : ¬ (FilterEntry.access? (.bare "a")).isSome = true ∧
      ¬ twoEntries.access.isSome = true := ⟨nofun, nofun⟩
  exact ⟨c, c', hc, hc', halike _ _ c c' hc hc', hanswers _ c hc, hnames, hwide,
    Bool.eq_false_iff.2 fun h => (hnarrow.1 h).elim hunset.1 hunset.2⟩

end FilterBook
end RecordSieve
