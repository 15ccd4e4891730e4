import RecordSieve.Proofs.Sql.Grammar
import RecordSieve.Proofs.Sql.Precedence
/-!
# RecordSieve.Proofs.Sql.Strength

The strength of the operator ahead, as a function of the tokens (`strengthAt`), and
the operators of filters: their strength is that of their symbol or keyword at
whatever place, and nothing that may follow an operand is stronger than they are.
-/

namespace RecordSieve
namespace Sql

open Reader

/-- The strength of the operator ahead. -/
def strengthAt (ts : List Token) : Strength :=
  match nextStrength ts with
  | .ok (s, _) => s
  | .error _ => Strength.none

theorem nextStrength_apply (ts : List Token) : nextStrength ts = .ok (strengthAt ts, ts) := by
  suffices h : ∃ s, nextStrength ts = .ok (s, ts) by
    obtain ⟨s, hs⟩ := h
    rw [strengthAt, hs]
  rw [nextStrength, bind_of_ok (peek_apply ts)]
  cases ts with
  | nil => exact ⟨_, rfl⟩
  | cons t ts =>
    cases t with
    | word v q =>
      cases q with
      | none =>
        simp only [List.head?_cons, Token.keyword?]
        by_cases hn : keywordSpelling v = "NOT"
        · rw [hn]
          exact ⟨_, rfl⟩
        by_cases ha : keywordSpelling v = "AT"
        · rw [ha]
          exact ⟨_, rfl⟩
        · exact ⟨keywordStrength (keywordSpelling v), by simp [pure_apply]⟩
      | some c => exact ⟨_, rfl⟩
    | _ => exact ⟨_, rfl⟩

theorem strengthAt_nil : strengthAt [] = Strength.none := rfl

theorem strengthAt_word {v k : String} (hv : keywordSpelling v = k) (hn : k ≠ "NOT")
    (ha : k ≠ "AT") (ts : List Token) :
    strengthAt (.word v none :: ts) = keywordStrength k := by
  have h : nextStrength (.word v none :: ts) = .ok (keywordStrength k, .word v none :: ts) := by
    rw [nextStrength, bind_of_ok (peek_apply _)]
    simp only [List.head?_cons, Token.keyword?, hv]
    rfl
  rw [strengthAt, h]

theorem strengthAt_not {w : String} (hw : keywordSpelling w = "NOT") (ts : List Token) :
    strengthAt (.word w none :: ts) =
      ((ts.head?.bind Token.keyword?).map negatedStrength).getD Strength.none := by
  have h : nextStrength (.word w none :: ts) =
      .ok (((ts.head?.bind Token.keyword?).map negatedStrength).getD Strength.none,
        .word w none :: ts) := by
    rw [nextStrength, bind_of_ok (peek_apply _)]
    simp only [List.head?_cons, Token.keyword?, hw]
    cases ts <;> rfl
  rw [strengthAt, h]

/-- The symbols of comparisons are comparisons in every respect. -/
theorem symbolOperator?_of_filter {s : String} {op : BinaryOp} (h : symbolOperator? s = some op)
    (hop : op.isOfFilter = true) :
    symbolStrength s = op.strength ∧ (Token.symbol s).endsOperand = true := by
  have hs : s ∈ ["=", "==", "<>", "<", "<=", ">", ">="] ∧ op.strength = Strength.compare := by
    unfold symbolOperator? at h
    repeat' split at h
    case isTrue hs =>
      cases h
      exact ⟨by rcases hs with rfl | rfl <;> decide, rfl⟩
    all_goals first
      | (rename_i hs; cases h; cases hs; exact ⟨by decide, rfl⟩)
      | (cases h; cases hop)
      | cases h
  have hall : ∀ s ∈ ["=", "==", "<>", "<", "<=", ">", ">="],
      symbolStrength s = Strength.compare ∧ (Token.symbol s).endsOperand = true := by
    decide
  rw [hs.2]
  exact hall s hs.1

/-- An operator of a filter has its strength wherever it stands, and may follow an
operand. -/
theorem strengthAt_operator {o : Token} {op : BinaryOp} (h : o.operator? = some op)
    (hop : op.isOfFilter = true) (ts : List Token) :
    strengthAt (o :: ts) = op.strength ∧ o.endsOperand = true := by
  cases o with
  | symbol s => exact symbolOperator?_of_filter h hop
  | word v q =>
    cases q with
    | some c => cases h
    | none =>
      simp only [Token.operator?, Token.keyword?] at h
      split at h
      · rename_i hk
        cases h
        have hv := Option.some.inj hk
        rw [strengthAt_word hv (by decide) (by decide), Token.endsOperand, hv]
        exact ⟨rfl, rfl⟩
      · rename_i hk
        cases h
        have hv := Option.some.inj hk
        rw [strengthAt_word hv (by decide) (by decide), Token.endsOperand, hv]
        exact ⟨rfl, rfl⟩
      · cases h
        cases hop
      · cases h
        cases hop
      · cases h
  | _ => cases h

theorem ReadsIn.strengthAt {negated : Bool} {ts us : List Token} (h : ReadsIn negated ts us) :
    strengthAt ts = Strength.compare ∧ Follows ts := by
  cases h with
  | plain hv =>
    rw [strengthAt_word hv (by decide) (by decide)]
    exact ⟨rfl, .cons (by rw [Token.endsOperand, hv]; rfl) _⟩
  | negated hw hv =>
    rw [strengthAt_not hw]
    simp only [List.head?_cons, Option.bind_some, Token.keyword?, hv]
    exact ⟨rfl, .cons (by rw [Token.endsOperand, hw]; rfl) _⟩

/-- Nothing that may follow an operand is stronger than a comparison. -/
theorem Follows.strengthAt_le {ts : List Token} (h : Follows ts) :
    strengthAt ts ≤ Strength.compare := by
  cases ts with
  | nil => exact Nat.zero_le _
  | cons t ts =>
    have ht := h t rfl
    cases t with
    | symbol s =>
      rw [Token.endsOperand, List.contains_iff_mem] at ht
      have hall : ∀ s ∈ [")", ",", "=", "==", "<>", "<", "<=", ">", ">="],
          symbolStrength s ≤ Strength.compare := by
        decide
      exact hall s ht
    | word v q =>
      cases q with
      | some c => cases ht
      | none =>
        rw [Token.endsOperand, List.contains_iff_mem] at ht
        by_cases hn : keywordSpelling v = "NOT"
        · rw [strengthAt_not hn]
          cases hk : ts.head?.bind Token.keyword? with
          | none => exact Nat.zero_le _
          | some k =>
            simp only [Option.map_some, Option.getD_some, negatedStrength]
            repeat' split
            all_goals decide
        · have hall : ∀ k ∈ ["AND", "OR", "IN", "NOT"],
              k ≠ "AT" ∧ keywordStrength k ≤ Strength.compare := by
            decide
          obtain ⟨ha, hk⟩ := hall _ ht
          rw [strengthAt_word rfl hn ha]
          exact hk
    | _ => cases ht

end Sql
end RecordSieve
