import RecordSieve.Query.Evaluation
/-!
# RecordSieve.Proofs.Query.Evaluation

The value of an expression from the values of its operands.

An operand of `AND`, `OR` or `NOT` matters through its truth value only, and so does a
predicate as a whole (`Expression.truthAt`). So the three connectives are those of steps
that can fail, one after the other: the right operand is asked for its truth value if the
left one leaves the answer open. Beside them an expression looks at the values of its
operands and at the fields that it names, and at nothing else (`evaluate_congr`).
-/

namespace RecordSieve

/-- Two sources of fields read the same under some names. -/
def Fields.AgreeOn (names : List String) (f g : Fields) : Prop := ∀ name ∈ names, f name = g name

namespace Expression

/-- The field names of a predicate, in the order of writing. -/
def fields : Expression → List String
  | literal _ | list _ => []
  | field name => [name]
  | compare _ l r | and l r | or l r => l.fields ++ r.fields
  | not e | group e => e.fields
  | member p _ _ => p.fields

/-- The truth value of an expression at a position that needs one. -/
def truthAt (position : BooleanPosition) (e : Expression) (fields : Fields) :
    Except EvalError Bool :=
  e.evaluate fields >>= Scalar.truth position

/-! ### Operands -/

section Operands

variable (fields : Fields)

theorem holds_eq_truthAt (e : Expression) : e.holds fields = e.truthAt .predicate fields := rfl

theorem evaluate_compare (op : Comparison) (l r : Expression) :
    (compare op l r).evaluate fields = (do
      let a ← l.evaluate fields
      let b ← r.evaluate fields
      Scalar.boolean <$> Scalar.compare op a b) := by
  rw [evaluate]
  simp only [map_eq_pure_bind]

theorem evaluate_and (l r : Expression) :
    (and l r).evaluate fields =
      Scalar.boolean <$> (l.truthAt .conjunct fields <&&> r.truthAt .conjunct fields) := by
  rw [evaluate]
  simp only [truthAt, andM, map_eq_pure_bind, bind_assoc]
  congr 2
  funext a
  congr 2
  funext b
  cases b with
  | true => exact (bind_assoc _ _ _).symm
  | false => rfl

theorem evaluate_or (l r : Expression) :
    (or l r).evaluate fields =
      Scalar.boolean <$> (l.truthAt .disjunct fields <||> r.truthAt .disjunct fields) := by
  rw [evaluate]
  simp only [truthAt, orM, map_eq_pure_bind, bind_assoc]
  congr 2
  funext a
  congr 2
  funext b
  cases b with
  | true => rfl
  | false => exact (bind_assoc _ _ _).symm

theorem evaluate_not (e : Expression) :
    (not e).evaluate fields = Scalar.boolean <$> notM (e.truthAt .negated fields) := by
  rw [evaluate]
  simp only [truthAt, notM, map_eq_pure_bind, bind_assoc, pure_bind]

theorem evaluate_member (p : Expression) (s : ValueSet) (negated : Bool) :
    (member p s negated).evaluate fields =
      (fun a => Scalar.boolean (a.isIn s != negated)) <$> p.evaluate fields := by
  rw [evaluate, map_eq_pure_bind]

/-- What evaluates to a truth value, or to an error on the way, is this truth value at every
position. -/
theorem truthAt_of_boolean {e : Expression} {x : Except EvalError Bool}
    (h : e.evaluate fields = Scalar.boolean <$> x) (position : BooleanPosition) :
    e.truthAt position fields = x := by
  rw [truthAt, h]
  cases x with
  | _ => rfl

end Operands

theorem truthAt_congr {e t : Expression} {f g : Fields} (h : e.evaluate f = t.evaluate g)
    (position : BooleanPosition) : e.truthAt position f = t.truthAt position g := by
  rw [truthAt, h, truthAt]

/-! ### Fields that are read -/

theorem agreeOn_append {ms ns : List String} {f g : Fields} :
    f.AgreeOn (ms ++ ns) g ↔ f.AgreeOn ms g ∧ f.AgreeOn ns g := List.forall_mem_append

/-- Sources that read the same under the names of an expression give it the same value, or
the same error. -/
theorem evaluate_congr {e : Expression} {f g : Fields} (h : f.AgreeOn e.fields g) :
    e.evaluate f = e.evaluate g := by
  induction e with
  | literal v => rfl
  | field name => exact congrArg Except.ok (h name List.mem_cons_self)
  | list vs => rfl
  | compare op l r ihl ihr =>
    obtain ⟨hl, hr⟩ := agreeOn_append.1 h
    rw [evaluate_compare, ihl hl, ihr hr, evaluate_compare]
  | and l r ihl ihr =>
    obtain ⟨hl, hr⟩ := agreeOn_append.1 h
    rw [evaluate_and, truthAt_congr (ihl hl), truthAt_congr (ihr hr), evaluate_and]
  | or l r ihl ihr =>
    obtain ⟨hl, hr⟩ := agreeOn_append.1 h
    rw [evaluate_or, truthAt_congr (ihl hl), truthAt_congr (ihr hr), evaluate_or]
  | not e ih => rw [evaluate_not, truthAt_congr (ih h), evaluate_not]
  | member p s negated ih => rw [evaluate_member, ih h, evaluate_member]
  | group e ih => exact ih h

theorem holds_congr {e : Expression} {f g : Fields} (h : f.AgreeOn e.fields g) :
    e.holds f = e.holds g := truthAt_congr (evaluate_congr h) .predicate

end Expression
end RecordSieve
