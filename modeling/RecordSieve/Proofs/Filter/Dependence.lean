import Mathlib.Logic.Relation
import RecordSieve.Filter.Basic
import RecordSieve.Proofs.Json.Members
import RecordSieve.Proofs.Query.Evaluation
/-!
# RecordSieve.Proofs.Filter.Dependence

What the verdict on a record depends on: what the fields that the predicate names read as,
and nothing else.

A record is read through the object of its fields (`FieldAccess.holder`), wherever this
object stands. An `Edit` changes one member of it in a way that is not seen: the predicate
does not name the key, or nothing is read under it, before and after. So any number of
edits and a move of the object to another place leave the verdict as it is
(`Filter.evaluate_of_edits`).
-/

namespace RecordSieve

open Json (Members)

/-! ### Values that are not read -/

/-- Whether a value reads as an absent field: it is null or has parts of its own. -/
def Json.isUnread : Json → Bool
  | null | array _ | object _ => true
  | boolean _ | number _ | string _ => false

theorem Scalar.ofJson_eq_absent_iff {v : Json} : ofJson v = .absent ↔ v.isUnread = true := by
  cases v with
  | _ => simp [ofJson, Json.isUnread]

namespace Json.Members

variable {names : List String} {key other : String} {v : Json} {ms ns : Members}

/-- Nothing is read under a key: there is no such member, or its value is not read. -/
def IsUnread (ms : Members) (key : String) : Prop := ∀ v, get? key ms = some v → v.isUnread = true

/-- One change of an object that a predicate with some field names does not see. -/
inductive Edit (names : List String) : Members → Members → Prop
  /-- A member that is not named is added, or takes another value. -/
  | set {key : String} (h : key ∉ names) (v : Json) (ms : Members) :
      Edit names ms (insert key v ms)
  /-- A member that is not named is removed. -/
  | erase {key : String} (h : key ∉ names) (ms : Members) : Edit names ms (erase key ms)
  /-- A missing, null or nested member becomes a null or nested one. -/
  | fill {key : String} {v : Json} {ms : Members} (h : ms.IsUnread key) (hv : v.isUnread = true) :
      Edit names ms (insert key v ms)
  /-- A null or nested member becomes a missing one. -/
  | clear {key : String} {ms : Members} (h : ms.IsUnread key) : Edit names ms (erase key ms)

end Json.Members

namespace Fields

variable {names : List String} {key other : String} {v : Json} {ms ns : Members}

theorem ofMembers_eq_absent_iff : ofMembers ms key = .absent ↔ ms.IsUnread key := by
  unfold ofMembers Members.IsUnread
  cases Members.get? key ms with
  | none => simp
  | some w => simp [Scalar.ofJson_eq_absent_iff]

@[simp] theorem ofMembers_insert_self (key : String) (v : Json) (ms : Members) :
    ofMembers (Members.insert key v ms) key = .ofJson v := by
  rw [ofMembers, Members.get?_insert_self]

theorem ofMembers_insert_of_ne (h : other ≠ key) (v : Json) (ms : Members) :
    ofMembers (Members.insert key v ms) other = ofMembers ms other := by
  rw [ofMembers, Members.get?_insert_of_ne h, ofMembers]

@[simp] theorem ofMembers_erase_self (key : String) (ms : Members) :
    ofMembers (Members.erase key ms) key = .absent := by
  rw [ofMembers, Members.get?_erase, if_pos rfl]

theorem ofMembers_erase_of_ne (h : other ≠ key) (ms : Members) :
    ofMembers (Members.erase key ms) other = ofMembers ms other := by
  rw [ofMembers, Members.get?_erase, if_neg h, ofMembers]

/-- One edit is not seen under the names. -/
theorem agreeOn_of_edit (h : Members.Edit names ms ns) :
    (ofMembers ms).AgreeOn names (ofMembers ns) := by
  intro name hname
  cases h with
  | set h v => rw [ofMembers_insert_of_ne (by rintro rfl; exact h hname)]
  | erase h => rw [ofMembers_erase_of_ne (by rintro rfl; exact h hname)]
  | @fill key v _ h hv =>
    by_cases hkey : name = key
    · subst hkey
      rw [ofMembers_eq_absent_iff.2 h, ofMembers_insert_self, Scalar.ofJson_eq_absent_iff.2 hv]
    · rw [ofMembers_insert_of_ne hkey]
  | @clear key _ h =>
    by_cases hkey : name = key
    · subst hkey
      rw [ofMembers_eq_absent_iff.2 h, ofMembers_erase_self]
    · rw [ofMembers_erase_of_ne hkey]

/-- No number of edits is seen under the names. -/
theorem agreeOn_of_edits (h : Relation.ReflTransGen (Members.Edit names) ms ns) :
    (ofMembers ms).AgreeOn names (ofMembers ns) := by
  induction h with
  | refl => exact fun _ _ => rfl
  | tail _ hedit ih => exact fun name hname => (ih name hname).trans (agreeOn_of_edit hedit name hname)

end Fields

namespace FieldAccess

/-- The object of a record's fields; a record without one is as good as one with an empty
object. -/
def holder (a : FieldAccess) (record : Json) : Members := (a.members? record).getD []

theorem fields_eq_ofMembers (a : FieldAccess) (record : Json) :
    a.fields record = .ofMembers (a.holder record) := by
  unfold fields holder
  cases a.members? record with
  | _ => rfl

end FieldAccess

namespace Filter

/-- The verdict on a record is the answer of the predicate for the object of its fields. -/
theorem evaluate_withAccess (f : Filter) (a : FieldAccess) (record : Json) :
    (f.withAccess a).evaluate record = f.expression.holds (.ofMembers (a.holder record)) := by
  rw [evaluate, expression_withAccess, access_withAccess, FieldAccess.fields_eq_ofMembers]

/-- Edits of the object of the fields that are not seen, and its move to another place
together with the way of access, leave the verdict as it is. -/
theorem evaluate_of_edits {f : Filter} {a b : FieldAccess} {r s : Json}
    (h : Relation.ReflTransGen (Members.Edit f.expression.fields) (a.holder r) (b.holder s)) :
    (f.withAccess a).evaluate r = (f.withAccess b).evaluate s := by
  rw [evaluate_withAccess, evaluate_withAccess, Expression.holds_congr (Fields.agreeOn_of_edits h)]

/-- A verdict depends on nothing but what the fields that the predicate names read as. Any
two sources in which they read the same give the same value, or the same error, and the
same answer. Hence the rest of the object of a record's fields can change, members that are
not read can be missing, null or nested, and the object can stand in another place together
with the way of access. A record without the object is as good as one with an empty
object. -/
theorem verdict_of_named_fields (f : Filter) :
    (∀ g h : Fields, g.AgreeOn f.expression.fields h →
      f.expression.evaluate g = f.expression.evaluate h ∧
        f.expression.holds g = f.expression.holds h) ∧
    (∀ (a b : FieldAccess) (r s : Json),
      Relation.ReflTransGen (Members.Edit f.expression.fields) (a.holder r) (b.holder s) →
        (f.withAccess a).evaluate r = (f.withAccess b).evaluate s) ∧
    ∀ (a b : FieldAccess) (r s : Json), a.members? r = none → b.members? s = some [] →
      (f.withAccess a).evaluate r = (f.withAccess b).evaluate s := by
  refine ⟨fun g h hagree => ?sources, fun a b r s hedits => evaluate_of_edits hedits,
    fun a b r s hnone hempty => ?empty⟩
  case sources =>
    exact ⟨Expression.evaluate_congr hagree, Expression.holds_congr hagree⟩
  case empty =>
    have hholder : a.holder r = b.holder s := by
      rw [FieldAccess.holder, FieldAccess.holder, hnone, hempty]
      rfl
    exact evaluate_of_edits (hholder ▸ .refl)

/-- A predicate that cannot be evaluated for a number under `a`. -/
private def orderingFilter : Filter where
  clause := "b != 'x' AND a < 'y'"
  expression := .and (.compare .ne (.field "b") (.literal (.text "x")))
    (.compare .lt (.field "a") (.literal (.text "y")))
  access := .flat

private def orderingMembers : Members :=
  [("a", .number (.integer 1)), ("b", .array [.string "x"]), ("z", .boolean true)]

/-- A field that is not named is removed, a list becomes null, and the object moves from the
record itself under its properties. The error stays, and a table of literals without the
list gives it too. -/
theorem verdict_of_named_fields_moved :
    let r := Json.object orderingMembers
    let s := Json.object [("properties", .object
      (Members.insert "b" .null (Members.erase "z" orderingMembers)))]
    (Fields.ofMembers orderingMembers).AgreeOn orderingFilter.expression.fields
        (.ofLiterals [("a", .number (.ofInt 1))]) ∧
      orderingFilter.expression.evaluate (.ofMembers orderingMembers) =
        orderingFilter.expression.evaluate (.ofLiterals [("a", .number (.ofInt 1))]) ∧
      Relation.ReflTransGen (Members.Edit orderingFilter.expression.fields)
        (FieldAccess.flat.holder r) (FieldAccess.properties.holder s) ∧
      (orderingFilter.withAccess .flat).evaluate r =
        (orderingFilter.withAccess .properties).evaluate s ∧
      (orderingFilter.withAccess .flat).evaluate r = .error (.unordered .lt .number .string) ∧
      FieldAccess.attributes.members? r = none ∧
      FieldAccess.flat.members? (.object []) = some [] ∧
      (orderingFilter.withAccess .attributes).evaluate r =
        (orderingFilter.withAccess .flat).evaluate (.object []) := by
  intro r s
  obtain ⟨hsources, hedits, hempty⟩ := verdict_of_named_fields orderingFilter
  have hagree : (Fields.ofMembers orderingMembers).AgreeOn orderingFilter.expression.fields
      (.ofLiterals [("a", .number (.ofInt 1))]) := by
    intro name hname
    have hcases : name = "b" ∨ name = "a" := by
      simpa [orderingFilter, Expression.fields] using hname
    rcases hcases with rfl | rfl
    · rfl
    · rfl
  have hrun : Relation.ReflTransGen (Members.Edit orderingFilter.expression.fields)
      (FieldAccess.flat.holder r) (FieldAccess.properties.holder s) :=
    .head (.erase (by decide) orderingMembers)
      (.single (.fill (Fields.ofMembers_eq_absent_iff.1 rfl) rfl))
  exact ⟨hagree, (hsources _ _ hagree).1, hrun, hedits _ _ r s hrun, rfl, rfl, rfl,
    hempty _ _ r _ rfl rfl⟩

end Filter
end RecordSieve
