import RecordSieve.Filter.Basic
import RecordSieve.Filter.Schedule
import RecordSieve.Report.Logged
/-!
# RecordSieve.Filter.Batch

A filter applied to a list of records: keeping the records that match, or marking
every record with its verdict. A record that cannot be evaluated counts as not
matching, is listed as a mismatch and does not stop the batch.

Each operation comes in a serial form, which evaluates a record when it gets to
it, and a parallel form, which evaluates all records in the order of a schedule
before it looks at any verdict.
-/

namespace RecordSieve

/-- A record of a batch that could not be evaluated. -/
structure Mismatch where
  index : Nat
  error : EvalError
deriving DecidableEq, Repr

/-- The records of a batch that match, in their order and with their positions,
and the mismatches. -/
structure Filtered where
  kept : List (Nat × Json)
  mismatches : List Mismatch

/-- The records that match. -/
def Filtered.records (f : Filtered) : List Json := f.kept.map Prod.snd

/-- One flag for each record of a batch, and the mismatches. -/
structure Marked where
  flags : List Bool
  mismatches : List Mismatch

namespace Filter

/-- Turns the verdict on one record into a flag; an error is reported and becomes
a mismatch. -/
def settle (index : Nat) : Verdict → Logged (Bool × List Mismatch)
  | .ok matched => pure (matched, [])
  | .error e => do
    Logged.report (.recordSkipped index e)
    return (false, [⟨index, e⟩])

/-- Reports how many of a batch's records could not be evaluated, if any. -/
def summarize (f : Filter) (total : Nat) (mismatches : List Mismatch) : Logged Unit :=
  if mismatches.isEmpty then pure ()
  else Logged.report (.recordsSkipped mismatches.length total f.clause)

/-! ### Keeping records -/

/-- Settles records with their verdicts, the first of them at a given index, and
keeps the records that match. -/
def keep (index : Nat) : List (Json × Verdict) → Logged Filtered
  | [] => pure ⟨[], []⟩
  | (record, verdict) :: rest => do
    let (matched, mismatch) ← settle index verdict
    let later ← keep (index + 1) rest
    return ⟨if matched then (index, record) :: later.kept else later.kept,
      mismatch ++ later.mismatches⟩

/-- Keeps the records that match. -/
def apply (f : Filter) (records : List Json) : Logged Filtered := do
  let filtered ← keep 0 (records.map fun r => (r, f.evaluate r))
  f.summarize records.length filtered.mismatches
  return filtered

/-- Keeps the records that match, with the records evaluated in the order of a
schedule. -/
def parApply (f : Filter) (records : List Json) (s : Schedule records.length) :
    Logged Filtered := do
  let filtered ← keep 0 (records.zip (s.map f.evaluate records))
  f.summarize records.length filtered.mismatches
  return filtered

/-! ### Marking records -/

section Visits

variable {m : Type → Type} [Monad m] [MonadLiftT Logged m] {β : Type}

/-- Visits records in turn, the first of them at a given index: each is evaluated,
settled and handed to `visit` with its flag. -/
def visitEach (f : Filter) (visit : Json → Bool → m β) (index : Nat) :
    List Json → m (List β × List Mismatch)
  | [] => pure ([], [])
  | record :: rest => do
    let (matched, mismatch) ← settle index (f.evaluate record)
    let b ← visit record matched
    let (bs, mismatches) ← visitEach f visit (index + 1) rest
    return (b :: bs, mismatch ++ mismatches)

/-- Hands every record to `visit` together with its flag, and collects what comes
back. With a `visit` that changes the record this marks the records in place, and one
that keeps a state of its own runs in `StateT`. -/
def markWith (f : Filter) (visit : Json → Bool → m β) (records : List Json) :
    m (List β × List Mismatch) := do
  let (bs, mismatches) ← f.visitEach visit 0 records
  f.summarize records.length mismatches
  return (bs, mismatches)

end Visits

/-- The flag of every record. -/
def mark (f : Filter) (records : List Json) : Logged Marked := do
  let (flags, mismatches) ← f.markWith (fun _ matched => (pure matched : Logged Bool)) records
  return ⟨flags, mismatches⟩

/-- Settles verdicts, the first of them at a given index, into flags. -/
def settleAll (index : Nat) : List Verdict → Logged Marked
  | [] => pure ⟨[], []⟩
  | verdict :: rest => do
    let (matched, mismatch) ← settle index verdict
    let marked ← settleAll (index + 1) rest
    return ⟨matched :: marked.flags, mismatch ++ marked.mismatches⟩

/-- The flag of every record, with the records evaluated in the order of a
schedule. -/
def parMark (f : Filter) (records : List Json) (s : Schedule records.length) :
    Logged Marked := do
  let marked ← settleAll 0 (s.map f.evaluate records)
  f.summarize records.length marked.mismatches
  return marked

end Filter
end RecordSieve
