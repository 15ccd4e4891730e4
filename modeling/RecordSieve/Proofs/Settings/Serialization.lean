import Mathlib.Data.List.Perm.Basic
import RecordSieve.Proofs.Json.Rereading
import RecordSieve.Proofs.Settings.Answers
/-!
# RecordSieve.Proofs.Settings.Serialization

A book of filters that is written as JSON and read again.

Every entry is read back as the entry that it was: a bare clause from a string, a detailed
one from an object, whose access is null or a name. The members of an object are written in
the order of their keys, so the entries come back in another order than they had
(`exists_readEntries?`); but a book is known from its entries by name, and what it compiles
to does not depend on their order (`serialization_keeps_book`).
-/

namespace RecordSieve

open Json (Members reread)

/-! ### Reading the parts again -/

theorem access?_accessToJson (a : Option FieldAccess) :
    Reading.exact.access? (accessToJson a) = some a := by
  cases a with
  | none => rfl
  | some a =>
    have hname := FieldAccess.ofName?_name a
    exact congrArg (Option.map some) hname

theorem reread_accessToJson (depth : Nat) (a : Option FieldAccess) :
    reread depth (accessToJson a) = some (accessToJson a) := by
  cases a with
  | none => exact Json.reread_null depth
  | some a => exact Json.reread_string depth a.name

namespace FilterEntry

/-- An entry is read back from its JSON form, of the kind that it is. -/
theorem ofJson?_toJson (e : FilterEntry) : ofJson? e.toJson = some e := by
  cases e with
  | bare clause => rfl
  | detailed clause access =>
    let ps := [("where", .string clause), ("field_access", accessToJson access)]
    have hkeys : (ps.map Prod.fst).Nodup := by simp [ps]
    have hget := Members.get?_ofPairs hkeys
    have hwhere : Members.get? "where" (Members.ofPairs _) = some (.string clause) := hget "where"
    have haccess : Members.get? "field_access" (Members.ofPairs _) = some (accessToJson access) :=
      hget "field_access"
    rw [toJson, Json.ofPairs, ofJson?, hwhere, haccess, Option.getD_some, access?_accessToJson]
    rfl

theorem reread_toJson (depth : Nat) (e : FilterEntry) :
    reread (depth + 1) e.toJson = some e.toJson := by
  cases e with
  | bare clause => exact Json.reread_string _ clause
  | detailed clause access =>
    refine Json.reread_object_self_iff.2 ⟨Members.ordered_ofPairs _, fun m hm => ?_⟩
    have hm := Members.mem_ofPairs hm
    simp only [List.mem_cons, List.not_mem_nil, or_false] at hm
    rcases hm with rfl | rfl
    · exact Json.reread_string depth clause
    · exact reread_accessToJson depth access

end FilterEntry

/-- The entries of a table are read back in the order of their names. -/
theorem exists_readEntries? {entries : List (String × FilterEntry)}
    (h : (entries.map Prod.fst).Nodup) :
    ∃ es, readEntries? (.ofPairs (entries.map fun e => (e.1, e.2.toJson))) = some es ∧
      es.Perm entries := by
  have hkeys : ((entries.map fun e => (e.1, e.2.toJson)).map Prod.fst).Nodup := by
    rwa [List.map_map]
  obtain ⟨es, hmap, hperm⟩ :=
    (congrFun₂ (List.eq_map_comp_perm _) _ _).mpr (Members.ofPairs_perm hkeys)
  have hread : (es.map fun e => (e.1, e.2.toJson)).mapM
      (fun m => (FilterEntry.ofJson? m.2).map fun e => (m.1, e)) = some (es.map id) := by
    rw [List.mapM_map]
    refine Json.mapM_eq_some_map_iff.2 fun e _ => ?_
    rw [Function.comp, FilterEntry.ofJson?_toJson]
    rfl
  rw [List.map_id] at hread
  exact ⟨es, by rw [Json.ofPairs, readEntries?, hmap, hread], hperm⟩

namespace FilterBook

/-- The text of a book is the text of its JSON form, which does not nest deep. -/
theorem parse?_text_toJson (b : FilterBook) : Json.parse? b.toJson.text = some b.toJson := by
  have hfilters : ∀ depth, reread (depth + 2)
      (.ofPairs (b.entries.map fun e => (e.1, e.2.toJson))) =
        some (.ofPairs (b.entries.map fun e => (e.1, e.2.toJson))) := by
    intro depth
    refine Json.reread_object_self_iff.2 ⟨Members.ordered_ofPairs _, fun m hm => ?_⟩
    obtain ⟨e, -, rfl⟩ := List.mem_map.1 (Members.mem_ofPairs hm)
    exact e.2.reread_toJson depth
  have hlimit : Json.depthLimit = 124 + 2 + 1 := rfl
  rw [Json.parse?_text, hlimit]
  refine Json.reread_object_self_iff.2 ⟨Members.ordered_ofPairs _, fun m hm => ?_⟩
  have hm := Members.mem_ofPairs hm
  simp only [List.mem_cons, List.not_mem_nil, or_false] at hm
  rcases hm with rfl | rfl | rfl
  · exact reread_accessToJson _ b.access
  · exact Json.reread_boolean _ b.strict
  · exact hfilters 124

/-- A book is read back from its JSON form with its entries in another order. -/
theorem exists_ofJson?_toJson (b : FilterBook) :
    ∃ r : b.Reordering, ofJson? b.toJson = some r.book := by
  obtain ⟨es, hread, hperm⟩ := exists_readEntries? b.nodup
  let r : b.Reordering := ⟨es, hperm⟩
  refine ⟨r, ?_⟩
  let ps := [("field_access", accessToJson b.access), ("strict", .boolean b.strict),
    ("filters", .ofPairs (b.entries.map fun e => (e.1, e.2.toJson)))]
  have hkeys : (ps.map Prod.fst).Nodup := by simp [ps]
  have hget := Members.get?_ofPairs hkeys
  have haccess : Members.get? "field_access" (Members.ofPairs _) = some (accessToJson b.access) :=
    hget "field_access"
  have hstrict : Members.get? "strict" (Members.ofPairs _) = some (.boolean b.strict) :=
    hget "strict"
  have hfilters : Members.get? "filters" (Members.ofPairs _) =
      some (.ofPairs (b.entries.map fun e => (e.1, e.2.toJson))) := hget "filters"
  rw [toJson, Json.ofPairs, ofJson?, ofMembers?, haccess, hstrict, hfilters]
  simp only [Option.getD_some, Option.bind_eq_bind, Option.bind_some, ofParts?,
    access?_accessToJson, hread, Reading.flag?]
  exact dif_pos r.book.nodup

variable {b : FilterBook} {c c' : CompiledBook}

/-- A book that is gone through in two orders compiles to the same in both, or in neither. -/
theorem compile_alike (r r' : b.Reordering) :
    (∃ c c', r.book.compile = .ok c ∧ r'.book.compile = .ok c' ∧ c.Alike c') ∨
      ((∃ e, r.book.compile = .error e) ∧ ∃ e, r'.book.compile = .error e) := by
  have hiff : (∃ c, r.book.compile = .ok c) ↔ ∃ c, r'.book.compile = .ok c := by
    rw [exists_compile_iff, exists_compile_iff]
    exact forall_congr' fun p => imp_congr_left (r.mem_entries_iff.trans r'.mem_entries_iff.symm)
  cases h : r.book.compile with
  | ok c =>
    obtain ⟨c', h'⟩ := hiff.1 ⟨c, h⟩
    have halike := (Reordering.answers (answers_of_compile h)).alike
      (Reordering.answers (answers_of_compile h'))
    exact .inl ⟨c, c', rfl, h', halike⟩
  | error e =>
    cases h' : r'.book.compile with
    | ok c' =>
      obtain ⟨c, hc⟩ := hiff.2 ⟨c', h'⟩
      rw [h] at hc
      cases hc
    | error e' => exact .inr ⟨⟨e, rfl⟩, ⟨e', rfl⟩⟩

theorem Reordering.declared?_book (r : b.Reordering) (name : String) :
    r.book.declared? name = b.declared? name := by
  refine Option.ext fun e => ?_
  rw [declared?_eq_some_iff, declared?_eq_some_iff]
  exact r.mem_entries_iff

/-- A book survives its serialization. From its JSON form, and from the text of this form, it
is read back with the same access and strictness and with the same entries under the same
names: bare ones bare, detailed ones with their clause and access. In whatever orders the
entries of the two books are gone through, both compile to books that answer alike, or
neither compiles. -/
theorem serialization_keeps_book (b : FilterBook) :
    ∃ b' : FilterBook, ofJson? b.toJson = some b' ∧
      (Json.parse? b.toJson.text).bind ofJson? = some b' ∧
      b'.access = b.access ∧ b'.strict = b.strict ∧ b'.entries.Perm b.entries ∧
      (∀ name, b'.declared? name = b.declared? name) ∧
      ∀ (r : b.Reordering) (r' : b'.Reordering),
        (∃ c c', r.book.compile = .ok c ∧ r'.book.compile = .ok c' ∧ c.Alike c') ∨
          ((∃ e, r.book.compile = .error e) ∧ ∃ e, r'.book.compile = .error e) := by
  obtain ⟨s, hs⟩ := b.exists_ofJson?_toJson
  refine ⟨s.book, hs, ?_, rfl, rfl, s.perm, s.declared?_book, fun r r' => ?_⟩
  · rw [parse?_text_toJson, Option.bind_some, hs]
  · exact compile_alike r ⟨r'.entries, r'.perm.trans s.perm⟩

end FilterBook
end RecordSieve
