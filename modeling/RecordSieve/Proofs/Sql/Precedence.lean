import RecordSieve.Proofs.Sql.Lowering
import RecordSieve.Sql.Form
/-!
# RecordSieve.Proofs.Sql.Precedence

The shape of predicates that need no further parentheses. `Expression.Ordered` says
it operator by operator; `tight` and `loose` say it in strengths, which is how the
reader decides: an operator takes as its left operand what is at least as strong
along its right edge, and as its right operand what is stronger at its top.
-/

namespace RecordSieve
namespace Expression

open Sql (Strength)

/-! ### Operator by operator -/

/-- Whether the top of an expression is `OR`. -/
def isOr : Expression → Bool
  | or _ _ => true
  | _ => false

/-- Whether the top of an expression is `AND`. -/
def isAnd : Expression → Bool
  | and _ _ => true
  | _ => false

/-- Whether an expression ends in a `NOT` that no parentheses close. -/
def endsInNot : Expression → Bool
  | not _ => true
  | compare _ _ r => r.endsInNot
  | and _ r => r.endsInNot
  | or _ r => r.endsInNot
  | _ => false

/-- What stands to the left of a comparison or of `IN`: a constant, a field, a group
or a test that does not end in an open `NOT`. -/
def isTested : Expression → Bool
  | literal _ | field _ | list _ | group _ | member _ _ _ => true
  | compare _ _ r => !r.endsInNot
  | _ => false

/-- What stands to the right of a comparison: a constant, a field, a group or a
negation. -/
def isOperand : Expression → Bool
  | literal _ | field _ | list _ | group _ | not _ => true
  | _ => false

/-- The expressions whose printed form groups as they do: `OR` and `AND` group to
the left, `AND` inside `OR`, `NOT` inside both, comparisons and `IN` inside `NOT`. -/
def Ordered : Expression → Prop
  | literal _ | field _ | list _ => True
  | group e => e.Ordered
  | or l r => l.Ordered ∧ r.Ordered ∧ r.isOr = false
  | and l r => l.Ordered ∧ r.Ordered ∧ l.isOr = false ∧ r.isOr = false ∧ r.isAnd = false
  | not e => e.Ordered ∧ e.isOr = false ∧ e.isAnd = false
  | compare _ l r => l.Ordered ∧ r.Ordered ∧ l.isTested = true ∧ r.isOperand = true
  | member p _ _ => p.Ordered ∧ p.isTested = true

/-! ### In strengths -/

/-- The strength of the operator at the top of an expression. -/
def tight : Expression → Strength
  | or _ _ => Strength.or
  | and _ _ => Strength.and
  | compare _ _ _ | member _ _ _ => Strength.compare
  | _ => Strength.point

/-- The least strength along the right edge of an expression: an operator after it
that is no stronger takes the whole of it. -/
def loose : Expression → Strength
  | or _ r => min Strength.or r.loose
  | and _ r => min Strength.and r.loose
  | compare _ _ r => min Strength.compare r.loose
  | member _ _ _ => Strength.compare
  | not e => min Strength.not e.loose
  | _ => Strength.point

theorem loose_le_tight (e : Expression) : e.loose ≤ e.tight := by
  cases e with
  | or l r => exact Nat.min_le_left _ _
  | and l r => exact Nat.min_le_left _ _
  | compare op l r => exact Nat.min_le_left _ _
  | member p s n => exact Nat.le_refl _
  | not e => exact Nat.le_trans (Nat.min_le_left _ _) (Nat.le_of_ble_eq_true rfl)
  | _ => exact Nat.le_refl _

theorem or_le_loose (e : Expression) : Strength.or ≤ e.loose := by
  induction e with
  | or l r _ ihr => exact Nat.le_min.2 ⟨Nat.le_refl _, ihr⟩
  | and l r _ ihr => exact Nat.le_min.2 ⟨by decide, ihr⟩
  | compare op l r _ ihr => exact Nat.le_min.2 ⟨by decide, ihr⟩
  | not e ih => exact Nat.le_min.2 ⟨by decide, ih⟩
  | _ => exact Nat.le_of_ble_eq_true rfl

theorem or_lt_tight_iff (e : Expression) : Strength.or < e.tight ↔ e.isOr = false := by
  cases e with
  | _ => simp [tight, isOr, Strength.or, Strength.and, Strength.compare, Strength.point]

theorem and_lt_tight_iff (e : Expression) :
    Strength.and < e.tight ↔ e.isOr = false ∧ e.isAnd = false := by
  cases e with
  | _ => simp [tight, isOr, isAnd, Strength.or, Strength.and, Strength.compare, Strength.point]

theorem not_lt_tight_iff (e : Expression) :
    Strength.not < e.tight ↔ e.isOr = false ∧ e.isAnd = false := by
  cases e with
  | _ =>
    simp [tight, isOr, isAnd, Strength.or, Strength.and, Strength.not, Strength.compare,
      Strength.point]

theorem compare_lt_tight_iff (e : Expression) :
    Strength.compare < e.tight ↔ e.isOperand = true := by
  cases e with
  | _ => simp [tight, isOperand, Strength.or, Strength.and, Strength.compare, Strength.point]

/-- `AND` takes everything to its left but an `OR`. -/
theorem Ordered.and_le_loose_iff {e : Expression} (h : e.Ordered) :
    Strength.and ≤ e.loose ↔ e.isOr = false := by
  induction e with
  | or l r _ _ =>
    refine iff_of_false (fun hle => ?_) (by simp [isOr])
    exact absurd (Nat.le_trans hle (Nat.min_le_left _ _)) (by decide)
  | and l r _ ihr => exact iff_of_true (Nat.le_min.2 ⟨Nat.le_refl _, (ihr h.2.1).2 h.2.2.2.1⟩) rfl
  | compare op l r _ ihr =>
    have hr : r.isOr = false := by
      have := h.2.2.2
      cases r <;> simp_all [isOperand, isOr]
    exact iff_of_true (Nat.le_min.2 ⟨by decide, (ihr h.2.1).2 hr⟩) rfl
  | not e ih => exact iff_of_true (Nat.le_min.2 ⟨by decide, (ih h.1).2 h.2.1⟩) rfl
  | _ => exact iff_of_true (Nat.le_of_ble_eq_true rfl) rfl

theorem loose_le_not_of_endsInNot {e : Expression} (h : e.endsInNot = true) :
    e.loose ≤ Strength.not := by
  induction e with
  | not e _ => exact Nat.min_le_left _ _
  | compare op l r _ ihr => exact Nat.le_trans (Nat.min_le_right _ _) (ihr h)
  | and l r _ ihr => exact Nat.le_trans (Nat.min_le_right _ _) (ihr h)
  | or l r _ ihr => exact Nat.le_trans (Nat.min_le_right _ _) (ihr h)
  | _ => cases h

/-- A comparison takes to its left what ends in no open `NOT`. -/
theorem Ordered.compare_le_loose_iff {e : Expression} (h : e.Ordered) :
    Strength.compare ≤ e.loose ↔ e.isTested = true := by
  cases e with
  | compare op l r =>
    constructor
    · intro hle
      cases hr : r.endsInNot with
      | false => simp [isTested, hr]
      | true =>
        have hlr := Nat.le_trans (Nat.le_trans hle (Nat.min_le_right _ _))
          (loose_le_not_of_endsInNot hr)
        exact absurd hlr (by decide)
    · intro ht
      have hop := h.2.2.2
      refine Nat.le_min.2 ⟨Nat.le_refl _, ?_⟩
      -- The right operand of a comparison is an operand or a negation, and of these only
      -- the negation is open to the right.
      cases r with
      | not e => simp [isTested, endsInNot] at ht
      | literal v => exact Nat.le_of_ble_eq_true rfl
      | field n => exact Nat.le_of_ble_eq_true rfl
      | list vs => exact Nat.le_of_ble_eq_true rfl
      | group e => exact Nat.le_of_ble_eq_true rfl
      | _ => cases hop
  | or l r =>
    refine iff_of_false (fun hle => ?_) (by simp [isTested])
    exact absurd (Nat.le_trans hle (Nat.min_le_left _ _)) (by decide)
  | and l r =>
    refine iff_of_false (fun hle => ?_) (by simp [isTested])
    exact absurd (Nat.le_trans hle (Nat.min_le_left _ _)) (by decide)
  | not e =>
    refine iff_of_false (fun hle => ?_) (by simp [isTested])
    exact absurd (Nat.le_trans hle (Nat.min_le_left _ _)) (by decide)
  | _ => exact iff_of_true (Nat.le_of_ble_eq_true rfl) rfl

theorem ordered_not_iff {e : Expression} :
    (not e).Ordered ↔ e.Ordered ∧ Strength.not < e.tight := by
  rw [not_lt_tight_iff]
  rfl

theorem ordered_member_iff {p : Expression} {s : ValueSet} {negated : Bool} :
    (member p s negated).Ordered ↔ p.Ordered ∧ Strength.compare ≤ p.loose := by
  constructor
  · intro h
    exact ⟨h.1, h.1.compare_le_loose_iff.2 h.2⟩
  · intro h
    exact ⟨h.1, h.1.compare_le_loose_iff.1 h.2⟩

end Expression

namespace Sql

open Expression (or_le_loose or_lt_tight_iff and_lt_tight_iff compare_lt_tight_iff)

/-- The strength of an operator between operands of a condition. -/
def BinaryOp.strength : BinaryOp → Strength
  | .and => Strength.and
  | .or => Strength.or
  | .compare _ => Strength.compare
  | .other _ => Strength.none

theorem BinaryOp.strength_le (op : BinaryOp) : op.strength ≤ Strength.compare := by
  cases op with
  | _ => exact Nat.le_of_ble_eq_true rfl

variable {op : BinaryOp} {a b : Expression}

theorem tight_join (hop : op.isOfFilter = true) : (op.join a b).tight = op.strength := by
  cases op with
  | other s => cases hop
  | _ => rfl

theorem loose_join (hop : op.isOfFilter = true) :
    (op.join a b).loose = min op.strength b.loose := by
  cases op with
  | other s => cases hop
  | _ => rfl

/-- An operator stands between what binds at least as tightly to its left and what
binds more tightly to its right. -/
theorem ordered_join_iff (hop : op.isOfFilter = true) :
    (op.join a b).Ordered ↔
      a.Ordered ∧ b.Ordered ∧ op.strength ≤ a.loose ∧ op.strength < b.tight := by
  cases op with
  | or =>
    show a.Ordered ∧ b.Ordered ∧ b.isOr = false ↔ _
    rw [← or_lt_tight_iff]
    exact ⟨fun ⟨ha, hb, h⟩ => ⟨ha, hb, or_le_loose a, h⟩, fun ⟨ha, hb, _, h⟩ => ⟨ha, hb, h⟩⟩
  | and =>
    show a.Ordered ∧ b.Ordered ∧ a.isOr = false ∧ b.isOr = false ∧ b.isAnd = false ↔ _
    rw [← and_lt_tight_iff]
    constructor
    · intro h
      obtain ⟨ha, hb, hor, h⟩ := h
      exact ⟨ha, hb, ha.and_le_loose_iff.2 hor, h⟩
    · intro h
      obtain ⟨ha, hb, hle, h⟩ := h
      exact ⟨ha, hb, ha.and_le_loose_iff.1 hle, h⟩
  | compare c =>
    show a.Ordered ∧ b.Ordered ∧ a.isTested = true ∧ b.isOperand = true ↔ _
    rw [← compare_lt_tight_iff]
    constructor
    · intro h
      obtain ⟨ha, hb, ht, h⟩ := h
      exact ⟨ha, hb, ha.compare_le_loose_iff.2 ht, h⟩
    · intro h
      obtain ⟨ha, hb, hle, h⟩ := h
      exact ⟨ha, hb, ha.compare_le_loose_iff.1 hle, h⟩
  | other s => cases hop

end Sql
end RecordSieve
