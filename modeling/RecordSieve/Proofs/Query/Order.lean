import RecordSieve.Query.Scalar
/-!
# RecordSieve.Proofs.Query.Order

How the six comparison operators go together.

All of them look at the order of two values. `InOrder` says when two values have one: they
are numbers and none of them is a NaN, or texts, or truth values. An operator other than
inequality is then answered by this order, and is false if there is none (`stands_iff`). So
what the operators have to do with each other follows from what is known of the orders of
integers, texts and truth values, and orderings fail on what has no order and is present
(`order_eq_mismatch_iff`).
-/

namespace RecordSieve

/-- The operator for the same relation with its operands in the other order. -/
def Comparison.reversed : Comparison → Comparison
  | eq => eq
  | ne => ne
  | lt => gt
  | le => ge
  | gt => lt
  | ge => le

theorem Comparison.holds_reversed (op : Comparison) (o : Ordering) :
    op.reversed.holds o.swap = op.holds o := by
  cases op <;> cases o <;> rfl

namespace Scalar

variable {l r m : Scalar} {o p : Ordering} {op : Comparison}

/-! ### Values in order -/

/-- Two values stand in an order: numbers by value, texts by code points, false before true.
A NaN stands in no order. -/
inductive InOrder (o : Ordering) : Scalar → Scalar → Prop
  | numbers {a b : Binary64} (ha : a.isNaN = false) (hb : b.isNaN = false)
      (h : Ord.compare a.key b.key = o) : InOrder o (number a) (number b)
  | texts {s t : String} (h : Ord.compare s t = o) : InOrder o (text s) (text t)
  | booleans {a b : Bool} (h : Ord.compare a b = o) : InOrder o (boolean a) (boolean b)

theorem compare?_eq_some_iff {a b : Binary64} :
    a.compare? b = some o ↔ a.isNaN = false ∧ b.isNaN = false ∧ Ord.compare a.key b.key = o := by
  unfold Binary64.compare?
  cases a.isNaN <;> cases b.isNaN <;> simp

theorem order_eq_some_iff : order l r = .some o ↔ InOrder o l r := by
  constructor
  · intro h
    cases l with
    | absent => cases h
    | list vs => cases r <;> cases h
    | number a =>
      cases r with
      | number b =>
        simp only [order] at h
        split at h
        · rename_i q hq
          cases h
          obtain ⟨ha, hb, ho⟩ := compare?_eq_some_iff.1 hq
          exact .numbers ha hb ho
        · cases h
      | _ => cases h
    | text s =>
      cases r with
      | text t => exact .texts (Order.some.inj h)
      | _ => cases h
    | boolean a =>
      cases r with
      | boolean b => exact .booleans (Order.some.inj h)
      | _ => cases h
  · intro h
    cases h with
    | numbers ha hb h => simp only [order, compare?_eq_some_iff.2 ⟨ha, hb, h⟩]
    | texts h => exact congrArg Order.some h
    | booleans h => exact congrArg Order.some h

/-- Two values stand in one order at most. -/
theorem InOrder.unique (ho : InOrder o l r) (hp : InOrder p l r) : o = p := by
  have h := order_eq_some_iff.2 ho
  rw [order_eq_some_iff.2 hp] at h
  exact (Order.some.inj h).symm

theorem InOrder.swap (h : InOrder o l r) : InOrder o.swap r l := by
  cases h with
  | numbers ha hb h => exact .numbers hb ha (by rw [Std.OrientedOrd.eq_swap, h])
  | texts h => exact .texts (by rw [Std.OrientedOrd.eq_swap, h])
  | booleans h => exact .booleans (by rw [Std.OrientedOrd.eq_swap, h])

theorem InOrder.trans (hl : InOrder .lt l m) (hr : InOrder .lt m r) : InOrder .lt l r := by
  cases hl with
  | numbers ha _ h =>
    cases hr with
    | numbers _ hb h' => exact .numbers ha hb (Std.TransCmp.lt_trans h h')
  | texts h =>
    cases hr with
    | texts h' => exact .texts (Std.TransCmp.lt_trans h h')
  | booleans h =>
    cases hr with
    | booleans h' => exact .booleans (Std.TransCmp.lt_trans h h')

/-- Values are the same if they stand in the order of equals. -/
theorem same_iff : same l r = true ↔ InOrder .eq l r := by
  constructor
  · intro h
    cases l <;> cases r <;> simp only [same, Bool.false_eq_true] at h
    · simp only [Binary64.numEq, Bool.and_eq_true, Bool.not_eq_true', decide_eq_true_eq] at h
      exact .numbers h.1.1 h.1.2 (Std.compare_eq_iff_eq.2 h.2)
    · exact .texts (Std.compare_eq_iff_eq.2 (eq_of_beq h))
    · exact .booleans (Std.compare_eq_iff_eq.2 (eq_of_beq h))
  · intro h
    cases h with
    | numbers ha hb h => simp [same, Binary64.numEq, ha, hb, Std.compare_eq_iff_eq.1 h]
    | texts h => simp [same, Std.compare_eq_iff_eq.1 h]
    | booleans h => simp [same, Std.compare_eq_iff_eq.1 h]

/-! ### Values without an order -/

/-- Two values are present and have no order: their kinds are different, or both are
lists. -/
def Clash (l r : Scalar) : Prop :=
  l ≠ absent ∧ r ≠ absent ∧ (l.kind ≠ r.kind ∨ l.kind = .list ∧ r.kind = .list)

theorem order_eq_mismatch_iff : order l r = .mismatch ↔ Clash l r := by
  cases l <;> cases r <;> simp [order, Clash, kind]
  -- Two numbers are left, which have an order or none but never clash.
  split <;> simp

theorem order_of_absent (h : l = absent ∨ r = absent) : order l r = .none := by
  rcases h with rfl | rfl
  · rfl
  · cases l with
    | _ => rfl

/-! ### Comparisons -/

/-- A comparison of two values is true. -/
def Stands (op : Comparison) (l r : Scalar) : Prop := compare op l r = .ok true

theorem compare_eq (l r : Scalar) : compare .eq l r = .ok (same l r) := rfl

theorem compare_ne (l r : Scalar) : compare .ne l r = .ok !same l r := rfl

/-- An ordering fails on present values without an order, and on no others. -/
theorem compare_eq_error_iff (hop : op.isOrdering = true) {e : EvalError} :
    compare op l r = .error e ↔ Clash l r ∧ e = .unordered op l.kind r.kind := by
  rw [compare, if_pos hop, ← order_eq_mismatch_iff]
  cases order l r with
  | none => simp
  | some o => simp
  | mismatch => simp [eq_comm]

/-- An operator other than inequality is answered by the order of its operands, and is
false if they have none. -/
theorem stands_iff (hop : op ≠ .ne) :
    Stands op l r ↔ ∃ o, InOrder o l r ∧ op.holds o = true := by
  cases hordering : op.isOrdering with
  | true =>
    simp only [Stands, compare, hordering, if_true, ← order_eq_some_iff]
    cases order l r with
    | none => simp
    | some o => simp
    | mismatch => simp
  | false =>
    obtain rfl : op = .eq := by cases op <;> first | rfl | contradiction
    rw [Stands, compare_eq, Except.ok.injEq, same_iff]
    constructor
    · intro h
      exact ⟨_, h, rfl⟩
    · intro h
      obtain ⟨o, ho, heq⟩ := h
      obtain rfl := Ordering.isEq_iff_eq_eq.1 heq
      exact ho

theorem compare_of_absent (h : l = absent ∨ r = absent) (hop : op ≠ .ne) :
    compare op l r = .ok false := by
  have horder : order l r = .none := order_of_absent h
  cases hordering : op.isOrdering with
  | true => rw [compare, if_pos hordering, horder]
  | false =>
    have hsame : same l r = false := by
      rw [← Bool.not_eq_true, same_iff, ← order_eq_some_iff, horder]
      nofun
    cases op with
    | eq => rw [compare_eq, hsame]
    | ne => exact absurd rfl hop
    | _ => cases hordering

/-- An operator that holds of one order only is the operator of this order. -/
theorem stands_iff_inOrder (hop : op ≠ .ne) (h : ∀ p, op.holds p = true ↔ p = o) :
    Stands op l r ↔ InOrder o l r := by
  simp only [stands_iff hop, h, exists_eq_right]

theorem stands_lt_iff : Stands .lt l r ↔ InOrder .lt l r :=
  stands_iff_inOrder (by decide) fun _ => Ordering.isLT_iff_eq_lt

theorem stands_eq_iff : Stands .eq l r ↔ InOrder .eq l r :=
  stands_iff_inOrder (by decide) fun _ => Ordering.isEq_iff_eq_eq

theorem stands_gt_iff : Stands .gt l r ↔ InOrder .gt l r :=
  stands_iff_inOrder (by decide) fun _ => Ordering.isGT_iff_eq_gt

theorem stands_le_iff : Stands .le l r ↔ Stands .lt l r ∨ Stands .eq l r := by
  rw [stands_iff (by decide), stands_lt_iff, stands_eq_iff]
  constructor
  · intro h
    obtain ⟨o, ho, hle⟩ := h
    rcases Ordering.isLE_iff_eq_lt_or_eq_eq.1 hle with rfl | rfl
    · exact .inl ho
    · exact .inr ho
  · intro h
    rcases h with h | h
    · exact ⟨_, h, rfl⟩
    · exact ⟨_, h, rfl⟩

/-- Reversed operands stand to each other as the reversed operator says. -/
theorem stands_reversed (hop : op ≠ .ne) (h : Stands op l r) : Stands op.reversed r l := by
  obtain ⟨o, ho, hholds⟩ := (stands_iff hop).1 h
  refine (stands_iff ?_).2 ⟨o.swap, ho.swap, ?_⟩
  · cases op <;> first | exact absurd rfl hop | nofun
  · rw [Comparison.holds_reversed, hholds]

theorem stands_lt_iff_gt : Stands .lt l r ↔ Stands .gt r l :=
  ⟨stands_reversed (by decide), stands_reversed (by decide)⟩

theorem stands_ge_iff : Stands .ge l r ↔ Stands .gt l r ∨ Stands .eq l r := by
  have hle : Stands .ge l r ↔ Stands .le r l :=
    ⟨stands_reversed (by decide), stands_reversed (by decide)⟩
  have heq : Stands .eq r l ↔ Stands .eq l r :=
    ⟨stands_reversed (by decide), stands_reversed (by decide)⟩
  rw [hle, stands_le_iff, stands_lt_iff_gt, heq]

theorem stands_lt_trans (hl : Stands .lt l m) (hr : Stands .lt m r) : Stands .lt l r :=
  stands_lt_iff.2 ((stands_lt_iff.1 hl).trans (stands_lt_iff.1 hr))

/-- Rows of code points are in order as the characters are. -/
theorem map_toNat_lt_iff (cs ds : List Char) :
    cs.map Char.toNat < ds.map Char.toNat ↔ cs < ds := by
  induction cs generalizing ds with
  | nil => cases ds with
    | _ => simp
  | cons c cs ih =>
    cases ds with
    | nil => simp
    | cons d ds =>
      rw [List.map_cons, List.map_cons, List.cons_lt_cons_iff, List.cons_lt_cons_iff, ih,
        Char.toNat_inj]
      rfl

theorem stands_lt_text_iff (s t : String) :
    Stands .lt (text s) (text t) ↔ s.toList.map Char.toNat < t.toList.map Char.toNat := by
  rw [stands_lt_iff, map_toNat_lt_iff, ← String.lt_iff]
  constructor
  · intro h
    cases h with
    | texts h => exact compareOfLessAndEq_eq_lt.1 h
  · intro h
    exact .texts (compareOfLessAndEq_eq_lt.2 h)

theorem stands_lt_number_iff (a b : Binary64) :
    Stands .lt (number a) (number b) ↔ a.isNaN = false ∧ b.isNaN = false ∧ a.key < b.key := by
  rw [stands_lt_iff]
  constructor
  · intro h
    cases h with
    | numbers ha hb h => exact ⟨ha, hb, compareOfLessAndEq_eq_lt.1 h⟩
  · intro h
    exact .numbers h.1 h.2.1 (compareOfLessAndEq_eq_lt.2 h.2.2)

theorem stands_lt_boolean_iff (a b : Bool) :
    Stands .lt (boolean a) (boolean b) ↔ a = false ∧ b = true := by
  rw [stands_lt_iff, ← order_eq_some_iff]
  cases a <;> cases b <;> decide

/-! ### Coherence -/

/-- Both values are numbers other than NaN, or texts, or truth values. -/
def Comparable : Scalar → Scalar → Prop
  | number a, number b => a.isNaN = false ∧ b.isNaN = false
  | text _, text _ | boolean _, boolean _ => True
  | _, _ => False

theorem exists_inOrder (h : Comparable l r) : ∃ o, InOrder o l r := by
  cases l with
  | number a =>
    cases r with
    | number b => exact ⟨_, .numbers h.1 h.2 rfl⟩
    | _ => cases h
  | text s =>
    cases r with
    | text t => exact ⟨_, .texts rfl⟩
    | _ => cases h
  | boolean a =>
    cases r with
    | boolean b => exact ⟨_, .booleans rfl⟩
    | _ => cases h
  | _ => cases h

/-- What the six comparisons of two values say goes together. -/
structure Coherent (l r : Scalar) : Prop where
  /-- Equality and inequality do not fail, and one is the negation of the other. -/
  equality : ∃ equal, compare .eq l r = .ok equal ∧ compare .ne l r = .ok !equal
  /-- All orderings fail on the same values. -/
  fails_iff : ∀ op : Comparison, op.isOrdering = true →
    ((∃ e, compare op l r = .error e) ↔ Clash l r)
  le_iff : Stands .le l r ↔ Stands .lt l r ∨ Stands .eq l r
  ge_iff : Stands .ge l r ↔ Stands .gt l r ∨ Stands .eq l r
  lt_iff_gt : Stands .lt l r ↔ Stands .gt r l
  not_lt_and_eq : ¬(Stands .lt l r ∧ Stands .eq l r)
  not_lt_and_gt : ¬(Stands .lt l r ∧ Stands .gt l r)
  not_eq_and_gt : ¬(Stands .eq l r ∧ Stands .gt l r)
  trichotomy : Comparable l r → Stands .lt l r ∨ Stands .eq l r ∨ Stands .gt l r
  absent : l = absent ∨ r = absent → ∀ op : Comparison, op ≠ .ne → compare op l r = .ok false

theorem coherent (l r : Scalar) : Coherent l r where
  equality := ⟨same l r, compare_eq l r, compare_ne l r⟩
  fails_iff op hop := by simp only [compare_eq_error_iff hop, exists_and_left, exists_eq, and_true]
  le_iff := stands_le_iff
  ge_iff := stands_ge_iff
  lt_iff_gt := stands_lt_iff_gt
  not_lt_and_eq h := absurd ((stands_lt_iff.1 h.1).unique (stands_eq_iff.1 h.2)) (by decide)
  not_lt_and_gt h := absurd ((stands_lt_iff.1 h.1).unique (stands_gt_iff.1 h.2)) (by decide)
  not_eq_and_gt h := absurd ((stands_eq_iff.1 h.1).unique (stands_gt_iff.1 h.2)) (by decide)
  trichotomy h := by
    obtain ⟨o, ho⟩ := exists_inOrder h
    cases o with
    | lt => exact .inl (stands_lt_iff.2 ho)
    | eq => exact .inr (.inl (stands_eq_iff.2 ho))
    | gt => exact .inr (.inr (stands_gt_iff.2 ho))
  absent h _ hop := compare_of_absent h hop

/-- The comparison operators are coherent on all values, and less-than is transitive, with
numbers in the order of their values, texts in the order of their code points and false
before true. -/
theorem comparisons_coherent :
    (∀ l r : Scalar, Coherent l r) ∧
      (∀ l m r : Scalar, Stands .lt l m → Stands .lt m r → Stands .lt l r) ∧
      (∀ a b : Binary64, Stands .lt (number a) (number b) ↔
        a.isNaN = false ∧ b.isNaN = false ∧ a.key < b.key) ∧
      (∀ s t : String, Stands .lt (text s) (text t) ↔
        s.toList.map Char.toNat < t.toList.map Char.toNat) ∧
      ∀ a b : Bool, Stands .lt (boolean a) (boolean b) ↔ a = false ∧ b = true :=
  ⟨coherent, fun _ _ _ => stands_lt_trans, stands_lt_number_iff, stands_lt_text_iff,
    stands_lt_boolean_iff⟩

/-- The two zeros are comparable and equal, texts are compared beyond a third one, lists
have no order, and an absent value stands in none. -/
theorem comparisons_coherent_zeros :
    Comparable (number (-.zero)) (number .zero) ∧
      (Stands .lt (number (-.zero)) (number .zero) ∨ Stands .eq (number (-.zero)) (number .zero) ∨
        Stands .gt (number (-.zero)) (number .zero)) ∧
      Stands .lt (text "Z") (text "a") ∧ Stands .lt (text "a") (text "é") ∧
      Stands .lt (text "Z") (text "é") ∧
      Comparison.isOrdering .le = true ∧ (∃ e, compare .le (list []) (list []) = .error e) ∧
      compare .ge absent (number .nan) = .ok false := by
  obtain ⟨hcoherent, htrans, -⟩ := comparisons_coherent
  have hzeros : Comparable (number (-.zero)) (number .zero) := ⟨by decide, by decide⟩
  have hclash : Clash (list []) (list []) := ⟨nofun, nofun, .inr ⟨rfl, rfl⟩⟩
  have hza : Stands .lt (text "Z") (text "a") := rfl
  have hae : Stands .lt (text "a") (text "é") := rfl
  exact ⟨hzeros, (hcoherent _ _).trichotomy hzeros, hza, hae, htrans _ _ _ hza hae, rfl,
    ((hcoherent _ _).fails_iff .le rfl).2 hclash,
    (hcoherent _ _).absent (.inl rfl) .ge (by decide)⟩

end Scalar
end RecordSieve
