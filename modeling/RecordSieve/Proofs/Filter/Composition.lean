import RecordSieve.Proofs.Filter.Agreement
import RecordSieve.Proofs.Query.Laws
/-!
# RecordSieve.Proofs.Filter.Composition

How batches are put together, one behind the other and one after the other.

A batch that is cut into two is filtered as its parts are, with the positions in the second
part counted from the beginning of the whole. Filtering what another filter has kept is
filtering by the conjunction of the two: the same records come through, and those that
cannot be evaluated are the ones at which one of the two stages fails, at their positions in
the first batch (`batches_compose`).

Both come down to the records that pass a test, taken with their positions (`selected`). The
second stage sees other positions than the first, so `selected_selected` leads each of them
back to where its record stood.
-/

namespace RecordSieve

/-! ### Positions -/

/-- A mismatch in a batch that stands behind a number of records. -/
def Mismatch.behind (n : Nat) (m : Mismatch) : Mismatch := { m with index := n + m.index }

/-- Where a record that was kept stood in its batch, by its position among those kept. -/
def Filtered.origin? (f : Filtered) (position : Nat) : Option Nat :=
  f.kept[position]?.map Prod.fst

/-- The positions of the records that could not be evaluated. -/
def Filtered.failed (f : Filtered) : List Nat := f.mismatches.map Mismatch.index

/-- The records of a batch that pass a test, with their positions. -/
def selected (test : Json → Bool) (records : List Json) : List (Nat × Json) :=
  (records.zipIdx.filter fun p => test p.1).map Prod.swap

section Selected

variable {test : Json → Bool} (xs ys : List Json)

theorem selected_append :
    selected test (xs ++ ys) =
      selected test xs ++ (selected test ys).map fun p => (xs.length + p.1, p.2) := by
  have hbehind : ys.zipIdx xs.length = ys.zipIdx.map fun p => (p.1, xs.length + p.2) :=
    List.zipIdx_eq_map_add
  rw [selected, List.zipIdx_append, Nat.zero_add, hbehind, List.filter_append, List.map_append,
    List.filter_map, List.map_map, selected, selected, List.map_map]
  rfl

/-- The records that pass a second test among those that passed a first one are those that
pass both, and the positions of the first selection lead back to those in the batch. -/
theorem selected_selected (first second : Json → Bool) :
    ((selected second ((selected first xs).map Prod.snd)).map fun p =>
        ((selected first xs)[p.1]?.map Prod.fst, p.2)) =
      (selected (fun r => first r && second r) xs).map fun p => (some p.1, p.2) := by
  have hlead : ∀ ps : List (Nat × Json),
      ((selected second (ps.map Prod.snd)).map fun p => (ps[p.1]?.map Prod.fst, p.2)) =
        (ps.filter fun p => second p.2).map fun p => (some p.1, p.2) := by
    intro ps
    have hnumbered : (ps.zipIdx.filter fun q => second q.1.2).map Prod.fst =
        ps.filter fun p => second p.2 := by
      have hfilter := List.filter_map (f := Prod.fst) (p := fun p => second p.2) (l := ps.zipIdx)
      rw [List.zipIdx_map_fst] at hfilter
      exact hfilter.symm
    rw [selected, List.zipIdx_map, List.filter_map, List.map_map, List.map_map, ← hnumbered,
      List.map_map]
    refine List.map_congr_left fun q hq => ?_
    have hget := List.mem_zipIdx_iff_getElem?.1 (List.mem_filter.1 hq).1
    simp [hget]
  rw [hlead, selected, selected, List.filter_map, List.filter_filter, List.map_map, List.map_map]
  simp only [Function.comp_def, Prod.snd_swap, Prod.fst_swap, Bool.and_comm]

/-- What passes one of two tests that exclude each other is what passes the first and what
passes the second. -/
theorem selected_or_perm {first second : Json → Bool}
    (h : ∀ r, first r = true → second r = false) :
    (selected (fun r => first r || second r) xs).Perm
      (selected first xs ++ selected second xs) := by
  have hsplit := List.filter_append_perm (fun p : Json × Nat => first p.1)
    (xs.zipIdx.filter fun p => first p.1 || second p.1)
  have hfirst : ∀ r, (first r && (first r || second r)) = first r := fun r => by
    cases first r with
    | _ => rfl
  have hsecond : ∀ r, (!first r && (first r || second r)) = second r := fun r => by
    cases hr : first r with
    | false => rfl
    | true => exact (h r hr).symm
  simp only [List.filter_filter, hfirst, hsecond] at hsplit
  have hmap := (hsplit.map Prod.swap).symm
  rwa [List.map_append] at hmap

end Selected

/-! ### Answers of a conjunction -/

namespace Verdict

variable {u v w : Verdict}

theorem accepts_eq_toOption (v : Verdict) : v.accepts = (v.toOption == some true) := by
  rcases v with e | (_ | _) <;> rfl

theorem fails_eq_toOption (v : Verdict) : v.fails = v.toOption.isNone := by
  cases v with
  | _ => rfl

/-- A record with the answer of a conjunction matches if both operands do. It fails with the
first operand, or with the second one where the first matches. -/
theorem accepts_and_fails_of_andM (h : w.toOption = (u.toOption <&&> v.toOption)) :
    w.accepts = (u.accepts && v.accepts) ∧ w.fails = (u.fails || u.accepts && v.fails) := by
  simp only [accepts_eq_toOption, fails_eq_toOption, h]
  generalize u.toOption = x, v.toOption = y
  decide +revert

end Verdict

namespace Expression

theorem answer_ungrouped (e : Expression) (fields : Fields) :
    e.ungrouped.answer fields = e.answer fields := by
  rw [answer, answer, holds, holds, evaluate_ungrouped]

end Expression

namespace Filter

variable {f g h : Filter}

/-- The predicate of `h` is the conjunction of those of `f` and `g`, with any number of
groups around each of the three, and all read the same fields. -/
structure IsConjunction (h f g : Filter) : Prop where
  expression : ∃ l r, h.expression.ungrouped = .and l r ∧
    l.ungrouped = f.expression.ungrouped ∧ r.ungrouped = g.expression.ungrouped
  left : f.access = h.access
  right : g.access = h.access

theorem IsConjunction.toOption_evaluate (hand : h.IsConjunction f g) (record : Json) :
    (h.evaluate record).toOption =
      ((f.evaluate record).toOption <&&> (g.evaluate record).toOption) := by
  obtain ⟨⟨l, r, he, hl, hr⟩, hf, hg⟩ := hand
  change h.expression.answer _ = (f.expression.answer _ <&&> g.expression.answer _)
  rw [← Expression.answer_ungrouped, he, Expression.answer_and, ← Expression.answer_ungrouped l, hl,
    ← Expression.answer_ungrouped r, hr, Expression.answer_ungrouped, Expression.answer_ungrouped,
    hf, hg]

/-! ### Batches -/

theorem matching_eq_selected (f : Filter) (records : List Json) :
    f.matching records = selected (fun r => (f.evaluate r).accepts) records := rfl

theorem mismatchesFrom_append (index : Nat) (us vs : List Verdict) :
    mismatchesFrom index (us ++ vs) =
      mismatchesFrom index us ++ mismatchesFrom (index + us.length) vs := by
  rw [mismatchesFrom, List.zipIdx_append, List.flatMap_append]
  rfl

theorem mismatchesFrom_behind (n index : Nat) (vs : List Verdict) :
    mismatchesFrom (n + index) vs = (mismatchesFrom index vs).map (Mismatch.behind n) := by
  induction vs generalizing index with
  | nil => rfl
  | cons v vs ih =>
    rw [mismatchesFrom_cons, mismatchesFrom_cons, List.map_append, ← ih]
    cases v with
    | _ => rfl

theorem mismatches_append (f : Filter) (xs ys : List Json) :
    f.mismatches (xs ++ ys) = f.mismatches xs ++ (f.mismatches ys).map (.behind xs.length) := by
  rw [mismatches, List.map_append, mismatchesFrom_append, List.length_map, Nat.zero_add,
    ← Nat.add_zero xs.length, mismatchesFrom_behind]
  rfl

/-- The records that cannot be evaluated, by their positions. -/
theorem map_index_mismatches (f : Filter) (records : List Json) :
    (f.mismatches records).map Mismatch.index =
      (selected (fun r => (f.evaluate r).fails) records).map Prod.fst := by
  have hfrom : ∀ (index : Nat) (vs : List Verdict), (mismatchesFrom index vs).map Mismatch.index =
      ((vs.zipIdx index).filter fun p => p.1.fails).map Prod.snd := by
    intro index vs
    induction vs generalizing index with
    | nil => rfl
    | cons v vs ih =>
      rw [mismatchesFrom_cons, List.map_append, ih]
      cases v with
      | _ => rfl
  rw [mismatches, hfrom, selected, List.zipIdx_map, List.filter_map, List.map_map, List.map_map]
  rfl

/-- Of two batches in a row, the second is filtered behind the records of the first. -/
theorem apply_append (f : Filter) (xs ys : List Json) :
    (f.apply (xs ++ ys)).value.kept = (f.apply xs).value.kept ++
        ((f.apply ys).value.kept.map fun p => (xs.length + p.1, p.2)) ∧
      (f.apply (xs ++ ys)).value.mismatches = (f.apply xs).value.mismatches ++
        (f.apply ys).value.mismatches.map (.behind xs.length) := by
  simp only [apply_eq, matching_eq_selected, selected_append, mismatches_append, and_self]

/-- A conjunction keeps what the second filter keeps of what the first one has kept. -/
theorem IsConjunction.kept_apply (hand : h.IsConjunction f g) (xs : List Json) :
    (h.apply xs).value.kept.map (fun p => (some p.1, p.2)) =
      (g.apply (f.apply xs).value.records).value.kept.map
        fun p => ((f.apply xs).value.origin? p.1, p.2) := by
  have haccepts : (fun r => (h.evaluate r).accepts) =
      fun r => (f.evaluate r).accepts && (g.evaluate r).accepts :=
    funext fun r => (Verdict.accepts_and_fails_of_andM (hand.toOption_evaluate r)).1
  simp only [apply_eq, matching_eq_selected, haccepts]
  exact (selected_selected xs _ _).symm

/-- A conjunction fails where the first filter fails and where the second one fails on what
the first one has kept. -/
theorem IsConjunction.failed_apply (hand : h.IsConjunction f g) (xs : List Json) :
    ((h.apply xs).value.failed.map some).Perm ((f.apply xs).value.failed.map some ++
      (g.apply (f.apply xs).value.records).value.failed.map (f.apply xs).value.origin?) := by
  have hfails : (fun r => (h.evaluate r).fails) =
      fun r => (f.evaluate r).fails || (f.evaluate r).accepts && (g.evaluate r).fails :=
    funext fun r => (Verdict.accepts_and_fails_of_andM (hand.toOption_evaluate r)).2
  have hexclude : ∀ r, (f.evaluate r).fails = true →
      ((f.evaluate r).accepts && (g.evaluate r).fails) = false := by
    intro r hr
    cases hv : f.evaluate r with
    | ok b => rw [hv] at hr; cases hr
    | error e => rfl
  have hboth := (selected_or_perm xs hexclude).map fun p => some p.1
  have hsecond := congrArg (List.map Prod.fst) (selected_selected xs
    (fun r => (f.evaluate r).accepts) fun r => (g.evaluate r).fails)
  rw [List.map_map, List.map_map] at hsecond
  rw [List.map_append] at hboth
  simp only [Filtered.failed, apply_eq, map_index_mismatches, hfails, List.map_map]
  refine hboth.trans (.append_left _ (.of_eq ?_))
  exact hsecond.symm

/-- Batches compose. Of two batches in a row, the matches and the mismatches of the first
are followed by those of the second, which stand behind the records of the first. And a
filter by a conjunction keeps what the second filter keeps of what the first one has kept,
and fails where the first one fails and where the second one fails among these. -/
theorem batches_compose (f : Filter) (xs ys : List Json) :
    ((f.apply (xs ++ ys)).value.records =
        (f.apply xs).value.records ++ (f.apply ys).value.records ∧
      (f.apply (xs ++ ys)).value.kept = (f.apply xs).value.kept ++
        ((f.apply ys).value.kept.map fun p => (xs.length + p.1, p.2)) ∧
      (f.apply (xs ++ ys)).value.mismatches = (f.apply xs).value.mismatches ++
        (f.apply ys).value.mismatches.map (.behind xs.length)) ∧
    ∀ g h : Filter, h.IsConjunction f g →
      let first := (f.apply xs).value
      let second := (g.apply first.records).value
      let both := (h.apply xs).value
      both.records = second.records ∧
        both.kept.map (fun p => (some p.1, p.2)) =
          second.kept.map (fun p => (first.origin? p.1, p.2)) ∧
        (both.failed.map some).Perm
          (first.failed.map some ++ second.failed.map first.origin?) := by
  obtain ⟨hkept, hmismatches⟩ := f.apply_append xs ys
  refine ⟨⟨?_, hkept, hmismatches⟩, fun g h hand => ⟨?_, hand.kept_apply xs, hand.failed_apply xs⟩⟩
  · rw [Filtered.records, hkept, List.map_append, List.map_map]
    rfl
  · have hrecords := congrArg (List.map Prod.snd) (hand.kept_apply xs)
    rwa [List.map_map, List.map_map] at hrecords

/-- `a < 'm'`, which fails on a number. -/
private def early : Filter := ⟨"a < 'm'", .compare .lt (.field "a") (.literal (.text "m")), .flat⟩

/-- `b`, which fails on a text. -/
private def marked : Filter := ⟨"b", .field "b", .flat⟩

private def earlyAndMarked : Filter :=
  ⟨"(a < 'm') AND b", .and (.group early.expression) marked.expression, .flat⟩

/-- In turn: a match, a failure of the first filter and one of the second. -/
private def threeRecords : List Json :=
  [.object [("a", .string "k"), ("b", .boolean true)], .object [("a", .boolean true)],
    .object [("a", .string "k"), ("b", .string "x")]]

/-- The second filter fails on the second record that the first one keeps, which is the
third of the batch. -/
theorem batches_compose_failing :
    earlyAndMarked.IsConjunction early marked ∧
      (early.apply (threeRecords ++ threeRecords)).value.failed = [1, 4] ∧
      (early.apply (threeRecords ++ threeRecords)).value.mismatches =
        (early.apply threeRecords).value.mismatches ++
          (early.apply threeRecords).value.mismatches.map (.behind 3) ∧
      (early.apply threeRecords).value.failed = [1] ∧
      (marked.apply (early.apply threeRecords).value.records).value.failed = [1] ∧
      (earlyAndMarked.apply threeRecords).value.failed = [1, 2] ∧
      ([1, 2].map some).Perm ([1].map some ++ [1].map (early.apply threeRecords).value.origin?) ∧
      (earlyAndMarked.apply threeRecords).value.records =
        (marked.apply (early.apply threeRecords).value.records).value.records ∧
      (earlyAndMarked.apply threeRecords).value.records = threeRecords.take 1 := by
  have hand : earlyAndMarked.IsConjunction early marked := ⟨⟨_, _, rfl, rfl, rfl⟩, rfl, rfl⟩
  obtain ⟨⟨-, -, hbehind⟩, hstages⟩ := batches_compose early threeRecords threeRecords
  obtain ⟨hrecords, -, hfailed⟩ := hstages marked earlyAndMarked hand
  exact ⟨hand, by decide, hbehind, by decide, by decide, by decide, hfailed, hrecords, rfl⟩

end Filter
end RecordSieve
