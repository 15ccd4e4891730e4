import RecordSieve.Filter.Batch
/-!
# RecordSieve.Proofs.Filter.Agreement

What a batch has to do with the test of one record. Every operation on a batch goes
through its verdicts in the order of the records and settles each of them at its own
index, so all of them keep and flag the same records, list the same mismatches and
report the same events (`batches_agree`). A schedule does not show, because verdicts
land in the slots of their records before any of them is settled; and what marking does
to a record does not show either, because a record is evaluated before it is visited.
-/

namespace RecordSieve

/-! ### Verdicts -/

namespace Verdict

/-- Whether a record with this verdict matches; one that could not be evaluated does
not. -/
def accepts : Verdict → Bool
  | .ok matched => matched
  | .error _ => false

/-- Whether a record could not be evaluated. -/
def fails : Verdict → Bool
  | .ok _ => false
  | .error _ => true

theorem fails_eq_false_of_accepts {v : Verdict} (h : v.accepts = true) : v.fails = false := by
  cases v with
  | ok b => rfl
  | error e => cases h

/-- The mismatch that a verdict makes at an index, if it makes one. -/
def mismatches (index : Nat) : Verdict → List Mismatch
  | .ok _ => []
  | .error e => [⟨index, e⟩]

@[simp] theorem mem_mismatches_iff {v : Verdict} {index : Nat} {m : Mismatch} :
    m ∈ v.mismatches index ↔ m.index = index ∧ v = .error m.error := by
  cases v with
  | ok b => simp [mismatches]
  | error e =>
    obtain ⟨i, f⟩ := m
    simp [mismatches, eq_comm]

end Verdict

/-- What is reported of a mismatch. -/
def Mismatch.event (m : Mismatch) : Event := .recordSkipped m.index m.error

namespace Filter

/-- A verdict is settled into its flag and its mismatch, which is reported. -/
theorem settle_eq (index : Nat) (v : Verdict) :
    settle index v = ⟨(v.accepts, v.mismatches index), (v.mismatches index).map Mismatch.event⟩ := by
  cases v with
  | _ => rfl

/-- The mismatches of some verdicts, the first of them at a given index. -/
def mismatchesFrom (index : Nat) (vs : List Verdict) : List Mismatch :=
  (vs.zipIdx index).flatMap fun p => p.1.mismatches p.2

@[simp] theorem mismatchesFrom_nil (index : Nat) : mismatchesFrom index [] = [] := rfl

@[simp] theorem mismatchesFrom_cons (index : Nat) (v : Verdict) (vs : List Verdict) :
    mismatchesFrom index (v :: vs) = v.mismatches index ++ mismatchesFrom (index + 1) vs := by
  simp [mismatchesFrom]

theorem mem_mismatchesFrom_zero_iff {vs : List Verdict} {m : Mismatch} :
    m ∈ mismatchesFrom 0 vs ↔ vs[m.index]? = some (.error m.error) := by
  simp only [mismatchesFrom, List.mem_flatMap, List.mem_zipIdx_iff_getElem?, Prod.exists,
    Verdict.mem_mismatches_iff]
  constructor
  · intro h
    obtain ⟨v, i, hv, rfl, rfl⟩ := h
    exact hv
  · intro h
    exact ⟨_, _, h, rfl, rfl⟩

theorem le_index_of_mem_mismatchesFrom {index : Nat} {vs : List Verdict} {m : Mismatch}
    (h : m ∈ mismatchesFrom index vs) : index ≤ m.index := by
  induction vs generalizing index with
  | nil => simp at h
  | cons v vs ih =>
    rw [mismatchesFrom_cons, List.mem_append, Verdict.mem_mismatches_iff] at h
    rcases h with h | h
    · exact Nat.le_of_eq h.1.symm
    · exact Nat.le_of_succ_le (ih h)

/-- Mismatches are listed in the order of their records. -/
theorem pairwise_mismatchesFrom (index : Nat) (vs : List Verdict) :
    (mismatchesFrom index vs).Pairwise fun a b => a.index < b.index := by
  induction vs generalizing index with
  | nil => exact .nil
  | cons v vs ih =>
    rw [mismatchesFrom_cons, List.pairwise_append]
    refine ⟨?_, ih _, fun a ha b hb => ?_⟩
    · cases v with
      | ok b => exact .nil
      | error e => exact List.pairwise_singleton _ _
    · rw [(Verdict.mem_mismatches_iff.1 ha).1]
      exact le_index_of_mem_mismatchesFrom hb

/-! ### The three ways through a batch -/

/-- Keeping goes through the verdicts that stand beside the records. -/
theorem keep_eq (index : Nat) (ps : List (Json × Verdict)) :
    keep index ps =
      ⟨⟨((ps.zipIdx index).filter fun p => p.1.2.accepts).map fun p => (p.2, p.1.1),
          mismatchesFrom index (ps.map Prod.snd)⟩,
        (mismatchesFrom index (ps.map Prod.snd)).map Mismatch.event⟩ := by
  induction ps generalizing index with
  | nil => rfl
  | cons p ps ih =>
    rw [keep, settle_eq, ih]
    ext1
    · cases h : p.2.accepts with
      | _ => simp [h]
    · simp

/-- Settling goes through verdicts that are there already. -/
theorem settleAll_eq (index : Nat) (vs : List Verdict) :
    settleAll index vs =
      ⟨⟨vs.map Verdict.accepts, mismatchesFrom index vs⟩,
        (mismatchesFrom index vs).map Mismatch.event⟩ := by
  induction vs generalizing index with
  | nil => rfl
  | cons v vs ih =>
    rw [settleAll, settle_eq, ih]
    ext1 <;> simp

variable (f : Filter) {β : Type}

/-- Visiting goes through the records. What is reported of a mismatch stands in front of
what the visit of its record reports. -/
theorem visitEach_eq (visit : Json → Bool → Logged β) (index : Nat) (records : List Json) :
    f.visitEach visit index records =
      ⟨(records.map fun r => (visit r (f.evaluate r).accepts).value,
          mismatchesFrom index (records.map f.evaluate)),
        (records.zipIdx index).flatMap fun p =>
          ((f.evaluate p.1).mismatches p.2).map Mismatch.event ++
            (visit p.1 (f.evaluate p.1).accepts).events⟩ := by
  induction records generalizing index with
  | nil => rfl
  | cons r rs ih =>
    rw [visitEach, settle_eq]
    ext1 <;> simp [ih]

section States

variable {σ : Type} (visit : Json → Bool → StateT σ Logged β)

/-- A visit with a state of its own meets the records and their flags in turn, and leaves
the mismatches as they are. -/
theorem value_run_visitEach (index : Nat) (records : List Json) (s : σ) :
    ((f.visitEach visit index records).run s).value =
      let visited := ((records.mapM fun r => visit r (f.evaluate r).accepts).run s).value
      ((visited.1, mismatchesFrom index (records.map f.evaluate)), visited.2) := by
  induction records generalizing index s with
  | nil => rfl
  | cons r rs ih =>
    rw [visitEach, settle_eq]
    simp [ih]

/-- What is reported of the mismatches is all that is reported, if the visits report nothing. -/
theorem events_run_visitEach (hsilent : ∀ r matched s, ((visit r matched).run s).events = [])
    (index : Nat) (records : List Json) (s : σ) :
    ((f.visitEach visit index records).run s).events =
      (mismatchesFrom index (records.map f.evaluate)).map Mismatch.event := by
  induction records generalizing index s with
  | nil => rfl
  | cons r rs ih =>
    rw [visitEach, settle_eq]
    simp [ih, hsilent]

end States

/-! ### Reports -/

/-- The mismatches of a batch. -/
def mismatches (records : List Json) : List Mismatch := mismatchesFrom 0 (records.map f.evaluate)

/-- What is reported of a batch: every mismatch, and then how many there are. -/
def events (records : List Json) : List Event :=
  (f.mismatches records).map Mismatch.event ++
    (f.summarize records.length (f.mismatches records)).events

/-- What the operations on a batch say about the records that cannot be evaluated: one
mismatch for each of them in the order of the records, a debug event for each mismatch,
and behind these one warning with both counts if there is any. -/
structure Reports (records : List Json) (ms : List Mismatch) (es : List Event) : Prop where
  mem_iff (m : Mismatch) :
    m ∈ ms ↔ ∃ r, records[m.index]? = some r ∧ f.evaluate r = .error m.error
  increasing : ms.Pairwise fun a b => a.index < b.index
  events_eq : es = ms.map (fun m => .recordSkipped m.index m.error) ++
    if ms = [] then [] else [.recordsSkipped ms.length records.length f.clause]
  severities : es.map Event.severity =
    List.replicate ms.length .debug ++ if ms = [] then [] else [.warn]

theorem events_summarize (total : Nat) (ms : List Mismatch) :
    (f.summarize total ms).events =
      if ms = [] then [] else [.recordsSkipped ms.length total f.clause] := by
  cases ms with
  | _ => rfl

theorem reports (records : List Json) :
    f.Reports records (f.mismatches records) (f.events records) where
  mem_iff m := by
    rw [mismatches, mem_mismatchesFrom_zero_iff, List.getElem?_map, Option.map_eq_some_iff]
  increasing := pairwise_mismatchesFrom 0 _
  events_eq := by
    rw [events, events_summarize]
    rfl
  severities := by
    have hdebug : ((f.mismatches records).map Mismatch.event).map Event.severity =
        List.replicate (f.mismatches records).length .debug := by
      rw [List.map_map, List.map_eq_replicate_iff]
      exact fun _ _ => rfl
    rw [events, List.map_append, hdebug, events_summarize]
    cases f.mismatches records with
    | _ => rfl

/-! ### The operations -/

/-- The records that match, with their positions. -/
def matching (records : List Json) : List (Nat × Json) :=
  (records.zipIdx.filter fun p => (f.evaluate p.1).accepts).map Prod.swap

theorem map_snd_matching (records : List Json) :
    (f.matching records).map Prod.snd = records.filter fun r => (f.evaluate r).accepts := by
  have hfst : (records.zipIdx.filter fun p => (f.evaluate p.1).accepts).map Prod.fst =
      (records.zipIdx.map Prod.fst).filter fun r => (f.evaluate r).accepts := by
    rw [List.filter_map]
    rfl
  rw [matching, List.map_map]
  exact hfst.trans (by rw [List.zipIdx_map_fst])

theorem apply_eq (records : List Json) :
    f.apply records = ⟨⟨f.matching records, f.mismatches records⟩, f.events records⟩ := by
  have hverdicts : (records.map fun r => (r, f.evaluate r)).map Prod.snd =
      records.map f.evaluate := by
    rw [List.map_map]
    rfl
  rw [apply, keep_eq, hverdicts]
  ext1
  · simp [matching, mismatches, List.zipIdx_map, List.filter_map, Function.comp_def]
  · simp [events, mismatches]

theorem value_markWith (visit : Json → Bool → Logged β) (records : List Json) :
    (f.markWith visit records).value =
      (records.map fun r => (visit r (f.evaluate r).accepts).value, f.mismatches records) := by
  simp [markWith, visitEach_eq, mismatches]

/-- The events of the mismatches of a batch, record by record. -/
theorem flatMap_mismatches (records : List Json) :
    (records.zipIdx.flatMap fun p => ((f.evaluate p.1).mismatches p.2).map Mismatch.event) =
      (f.mismatches records).map Mismatch.event := by
  simp [mismatches, mismatchesFrom, List.map_flatMap, List.zipIdx_map, List.flatMap_map]

/-- Marking reports what keeping does, if nothing is reported of what is done to the
records. -/
theorem events_markWith_pure (rewrite : Json → Bool → β) (records : List Json) :
    (f.markWith (fun r matched => (pure (rewrite r matched) : Logged β)) records).events =
      f.events records := by
  simp only [markWith, visitEach_eq, Logged.events_bind, Logged.events_pure, List.append_nil,
    flatMap_mismatches, monadLift_self]
  rfl

section States

variable {σ : Type}

theorem value_run_markWith (visit : Json → Bool → StateT σ Logged β) (records : List Json)
    (s : σ) :
    ((f.markWith visit records).run s).value =
      let visited := ((records.mapM fun r => visit r (f.evaluate r).accepts).run s).value
      ((visited.1, f.mismatches records), visited.2) := by
  simp [markWith, value_run_visitEach, mismatches]

/-- The same holds of what is done with a state, if nothing is reported of it. -/
theorem events_run_markWith_pure (rewrite : Json → Bool → σ → β × σ) (records : List Json)
    (s : σ) :
    ((f.markWith (fun r matched => StateT.mk fun s => (pure (rewrite r matched s) : Logged (β × σ)))
      records).run s).events = f.events records := by
  have hevents := f.events_run_visitEach
    (fun r matched => StateT.mk fun s => (pure (rewrite r matched s) : Logged (β × σ)))
    (fun _ _ _ => rfl) 0 records s
  simp [markWith, hevents, value_run_visitEach, events, mismatches]

end States

theorem mark_eq (records : List Json) :
    f.mark records =
      ⟨⟨records.map fun r => (f.evaluate r).accepts, f.mismatches records⟩, f.events records⟩ := by
  rw [mark]
  ext1
  · rw [Logged.value_bind, value_markWith]
    rfl
  · rw [Logged.events_bind, events_markWith_pure]
    exact List.append_nil _

/-- The order in which records are evaluated does not show in what is kept. -/
theorem parApply_eq (records : List Json) (s : Schedule records.length) :
    f.parApply records s = f.apply records := by
  have hzip : records.zip (records.map f.evaluate) = records.map fun r => (r, f.evaluate r) := by
    rw [List.map_prod_left_eq_zip]
  rw [parApply, apply, Schedule.map_eq, hzip]

/-- The order in which records are evaluated does not show in the flags. -/
theorem parMark_eq (records : List Json) (s : Schedule records.length) :
    f.parMark records s = f.mark records := by
  rw [parMark, Schedule.map_eq, settleAll_eq, mark_eq]
  ext1
  · simp [mismatches, Function.comp_def]
  · simp [events, mismatches]

/-- Every operation on a batch agrees with the test of one record: the records that are
kept are those that match, the flags tell which records match, whatever is done to the
records on the way and whatever state is kept meanwhile, and all operations list the same
mismatches and report the same events. -/
theorem batches_agree (records : List Json) (s t : Schedule records.length) :
    ∃ ms es, f.Reports records ms es ∧
      f.apply records = ⟨⟨f.matching records, ms⟩, es⟩ ∧
      (f.apply records).value.records = records.filter (fun r => (f.evaluate r).accepts) ∧
      f.parApply records s = f.apply records ∧
      f.mark records = ⟨⟨records.map fun r => (f.evaluate r).accepts, ms⟩, es⟩ ∧
      f.parMark records t = f.mark records ∧
      (∀ visit : Json → Bool → Logged Json, (f.markWith visit records).value =
        (records.map fun r => (visit r (f.evaluate r).accepts).value, ms)) ∧
      (∀ rewrite : Json → Bool → Json,
        (f.markWith (fun r matched => (pure (rewrite r matched) : Logged Json)) records).events =
          es) ∧
      (∀ (σ : Type) (visit : Json → Bool → StateT σ Logged Json) (start : σ),
        ((f.markWith visit records).run start).value =
          let visited := ((records.mapM fun r => visit r (f.evaluate r).accepts).run start).value
          ((visited.1, ms), visited.2)) ∧
      ∀ (σ : Type) (rewrite : Json → Bool → σ → Json × σ) (start : σ),
        ((f.markWith (fun r matched => StateT.mk fun s =>
          (pure (rewrite r matched s) : Logged (Json × σ))) records).run start).events = es := by
  refine ⟨f.mismatches records, f.events records, f.reports records, f.apply_eq records, ?_,
    f.parApply_eq records s, f.mark_eq records, f.parMark_eq records t,
    fun visit => f.value_markWith visit records,
    fun rewrite => f.events_markWith_pure rewrite records,
    fun _ visit start => f.value_run_markWith visit records start,
    fun _ rewrite start => f.events_run_markWith_pure rewrite records start⟩
  rw [apply_eq]
  exact f.map_snd_matching records

end Filter
end RecordSieve
