import RecordSieve.Clause.Compile
import RecordSieve.Proofs.Clause.Printed
import RecordSieve.Proofs.Sql.Leftover
import RecordSieve.Proofs.Sql.Step
import RecordSieve.Proofs.Sql.Soundness
/-!
# RecordSieve.Proofs.Clause.Soundness

What a compiled predicate is like. A clause that compiles was read, by the grammar, from
the tokens of its normal form (`exists_reads_of_compile`). So its predicate follows the
precedence of the operators, its numbers are finite, its lists are not empty, and it nests
no deeper than the reader allows (`fits_of_compile`). A number without a sign is not
negative, because no number token has a sign.
-/

namespace RecordSieve

open Sql (Token Node Level Lowers Reads ReadsConstant ReadsItem ReadsItems)

/-! ### Constants and lists -/

theorem Literal.Fits.succ {d : Nat} {v : Literal} (h : v.Fits d) : v.Fits (d + 1) := by
  cases v with
  | number n => exact ⟨h.1, fun _ => Nat.succ_pos d⟩
  | _ => trivial

namespace Sql

variable {d : Nat} {ts us : List Token} {t : Node}

theorem ReadsConstant.fits {v : Literal} (h : ReadsConstant d ts t us) (hl : Lowers t (.literal v))
    (hts : ∀ u ∈ ts, u.StartsAsNumber) : v.Fits d := by
  cases h with
  | boolean b _ =>
    cases hl with
    | value hv =>
      cases hv
      trivial
  | number token long =>
    cases hl with
    | value hv =>
      obtain ⟨n, hn, rfl⟩ := Except.map_eq_ok_iff.1 hv
      obtain ⟨hread, hfinite⟩ := Clause.readNumber_eq_ok_iff.1 hn
      have hpos := Numeral.negative_of_read? hread (hts _ List.mem_cons_self)
      refine ⟨hfinite, fun hneg => ?_⟩
      rw [hpos] at hneg
      cases hneg
  | text body =>
    cases hl with
    | value hv =>
      cases hv
      trivial
  | signed minus token long =>
    obtain ⟨_, _, n, -, hn, hv⟩ := lowers_signed_iff.1 hl
    cases hv
    refine ⟨?_, fun _ => Nat.succ_pos _⟩
    rw [isFinite_signedNumber]
    exact (Clause.readNumber_eq_ok_iff.1 hn).2

theorem ReadsItem.fits {e : Expression} {v : Literal} (h : ReadsItem d ts t us) (hl : Lowers t e)
    (hv : e.ungrouped = .literal v) (hts : ∀ u ∈ ts, u.StartsAsNumber) : v.Fits d := by
  induction h generalizing e with
  | constant h =>
    obtain ⟨w, rfl⟩ := h.isLiteral hl
    cases hv
    exact h.fits hl hts
  | nested _ ih =>
    obtain ⟨f, rfl, hf⟩ := lowers_nested_iff.1 hl
    exact (ih hf hv fun u hu => hts u (List.mem_cons_of_mem _ hu)).succ

theorem ReadsItems.fits {items : List Node} {vs : List Literal} (h : ReadsItems d ts items us)
    (hl : literals items = .ok vs) (hts : ∀ u ∈ ts, u.StartsAsNumber) :
    vs ≠ [] ∧ ∀ v ∈ vs, v.Fits d := by
  induction h generalizing vs with
  | one h =>
    obtain ⟨f, v, ws, hf, hv, hws, rfl⟩ := literals_cons_eq_ok_iff.1 hl
    rw [literals_nil_eq_ok_iff] at hws
    subst hws
    refine ⟨nofun, fun w hw => ?_⟩
    cases List.mem_singleton.1 hw
    exact h.fits hf hv hts
  | cons h _ ih =>
    obtain ⟨f, v, ws, hf, hv, hws, rfl⟩ := literals_cons_eq_ok_iff.1 hl
    have hrest := ih hws fun u hu => hts u (h.suffix.subset (List.mem_cons_of_mem _ hu))
    refine ⟨nofun, fun w hw => ?_⟩
    rcases List.mem_cons.1 hw with rfl | hw
    · exact h.fits hf hv hts
    · exact hrest.2 w hw

/-- A condition that was read from number tokens without signs fits the levels it was
read with, and those of the tokens after it have no signs either. -/
theorem Reads.fits {e : Expression} (h : Reads d ts t us) (hl : Lowers t e)
    (hts : ∀ u ∈ ts, u.StartsAsNumber) : e.Fits d ∧ ∀ u ∈ us, u.StartsAsNumber := by
  induction h generalizing e with
  | name _ =>
    cases hl
    exact ⟨trivial, fun u hu => hts u (List.mem_cons_of_mem _ hu)⟩
  | constant h =>
    obtain ⟨v, rfl⟩ := h.isLiteral hl
    exact ⟨h.fits hl hts, fun u hu => hts u (h.suffix.subset hu)⟩
  | not _ _ ih =>
    obtain ⟨f, rfl, hf⟩ := lowers_not_iff.1 hl
    obtain ⟨hfits, hus⟩ := ih hf fun u hu => hts u (List.mem_cons_of_mem _ hu)
    exact ⟨⟨Nat.succ_pos _, hfits⟩, hus⟩
  | nested _ _ ih =>
    obtain ⟨f, rfl, hf⟩ := lowers_nested_iff.1 hl
    obtain ⟨hfits, hus⟩ := ih hf fun u hu => hts u (List.mem_cons_of_mem _ hu)
    exact ⟨⟨Nat.succ_pos _, hfits⟩, fun u hu => hus u (List.mem_cons_of_mem _ hu)⟩
  | binary _ _ _ _ ihl ihr =>
    obtain ⟨a, b, rfl, hfilter, ha, hb⟩ := lowers_binary_iff.1 hl
    obtain ⟨hleft, hus⟩ := ihl ha hts
    obtain ⟨hright, hvs⟩ := ihr hb fun u hu => hus u (List.mem_cons_of_mem _ hu)
    exact ⟨(Expression.fits_join hfilter _).2 ⟨Nat.succ_pos _, hleft, hright⟩, hvs⟩
  | @inList d ts us xs ws p items negated _ hin hitems ih =>
    obtain ⟨q, vs, rfl, hq, hvs⟩ := lowers_inList_iff.1 hl
    obtain ⟨hprobe, hus⟩ := ih hq hts
    have hxs : ∀ u ∈ xs, u.StartsAsNumber := fun u hu => hus u (hin.suffix.subset hu)
    obtain ⟨hne, hall⟩ := hitems.fits hvs hxs
    refine ⟨⟨Nat.succ_pos _, hprobe, rfl, hne, hall⟩, fun u hu => ?_⟩
    exact hxs u (hitems.suffix.subset (List.mem_cons_of_mem _ hu))

end Sql

/-- A sole condition is the reading's condition, and nothing else of the reading is shown. -/
theorem Clause.soleCondition_eq_ok {r : Sql.Reading} {t : Node} (h : soleCondition r = .ok t) :
    r.condition = t ∧ r.statements = 1 ∧ r.sets = "" ∧ r.selectTail = "" ∧ r.queryTail = "" := by
  unfold soleCondition at h
  split at h
  · cases h
  · rename_i hone
    split at h
    · cases h
    · rename_i hsets
      split at h
      · cases h
      · rename_i htails
        obtain ⟨hselect, hquery⟩ := String.append_eq_empty_iff.1 (Decidable.not_not.1 htails)
        exact ⟨Except.ok.inj h, Decidable.not_not.1 hone, Decidable.not_not.1 hsets, hselect,
          hquery⟩

/-- The condition of a text in normal form is read from its tokens, and the tokens behind
it are of those that nobody notices. -/
theorem Clause.exists_tokens_of_condition {normal : List Char} {t : Node}
    (h : conditionOfNormal normal = .ok t) :
    ∃ ts us, Sql.tokens normal = some ts ∧
      (Level.ofDepth 47).expression Sql.Strength.none ts = .ok (t, us) ∧ Sql.Unnoticed us := by
  unfold conditionOfNormal at h
  split at h
  · cases h
  · split at h
    · rename_i r hr
      obtain ⟨ts, hts, hreading⟩ := Option.bind_eq_some_iff.1 hr
      unfold Sql.Reading.ofTokens? at hreading
      split at hreading
      · rename_i _ rest hclause
        cases hreading
        obtain ⟨rfl, hone, hsets, hselect, hquery⟩ := soleCondition_eq_ok h
        obtain ⟨us, hread, hus⟩ :=
          Sql.unnoticed_of_readClause hclause hselect hsets hquery hone
        exact ⟨ts, us, hts, hread, hus⟩
      · cases hreading
    · cases h

/-- A clause compiles if evaluation says so. -/
theorem Clause.compile_of_toOption {clause : String} {e : Expression}
    (h : (compile clause).toOption = some e) : compile clause = .ok e :=
  Except.toOption_eq_some_iff.1 h

/-- How a clause was read: its normal form, the tokens of that, the condition that was read
from them, and the tokens behind the condition. -/
structure Clause.IsReadAs (clause : String) (e : Expression) (normal : List Char)
    (ts : List Token) (t : Node) (us : List Token) : Prop where
  normalizes : normalizeChars clause.toList = .ok normal
  tokens : Sql.tokens normal = some ts
  condition : condition clause = .ok t
  expression : (Level.ofDepth 47).expression Sql.Strength.none ts = .ok (t, us)
  unnoticed : Sql.Unnoticed us
  reads : Reads 47 ts t us
  lowers : Lowers t e
  ordered : e.Ordered

/-- What compiles was read as a condition. -/
theorem Clause.exists_isReadAs_of_compile {clause : String} {e : Expression}
    (h : compile clause = .ok e) : ∃ normal ts t us, IsReadAs clause e normal ts t us := by
  unfold compile at h
  cases hcondition : condition clause with
  | error err =>
    rw [hcondition] at h
    cases h
  | ok t =>
    rw [hcondition] at h
    have hl := Sql.lowers_iff.2 h
    have hread := hcondition
    unfold condition at hread
    cases hnormal : normalizeChars clause.toList with
    | error err =>
      rw [hnormal] at hread
      cases hread
    | ok normal =>
      rw [hnormal] at hread
      obtain ⟨ts, us, htokens, hexpression, hus⟩ := exists_tokens_of_condition hread
      have hsound := (Sql.readsSoundly 47 (by decide) hexpression hl).1
      exact ⟨normal, ts, t, us, hnormal, htokens, hcondition, hexpression, hus, hsound.reads, hl,
        hsound.ordered⟩

/-- What compiles was read as a condition of the right shape from the tokens of its normal
form. -/
theorem Clause.exists_reads_of_compile {clause : String} {e : Expression}
    (h : compile clause = .ok e) :
    ∃ normal ts t us, normalizeChars clause.toList = .ok normal ∧ Sql.tokens normal = some ts ∧
      Reads 47 ts t us ∧ Lowers t e ∧ e.Ordered := by
  obtain ⟨normal, ts, t, us, hread⟩ := exists_isReadAs_of_compile h
  exact ⟨normal, ts, t, us, hread.normalizes, hread.tokens, hread.reads, hread.lowers,
    hread.ordered⟩

/-- A compiled predicate fits the levels that a clause is read with. -/
theorem Clause.fits_of_compile {clause : String} {e : Expression} (h : compile clause = .ok e) :
    e.Fits 47 ∧ e.Ordered := by
  obtain ⟨normal, ts, t, us, -, htokens, hread, hl, ho⟩ := exists_reads_of_compile h
  exact ⟨(hread.fits hl (Sql.startsAsNumber_of_mem_tokens htokens)).1, ho⟩

end RecordSieve
