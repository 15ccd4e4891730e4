import RecordSieve.Proofs.Sql.Soundness
import RecordSieve.Proofs.Sql.Step
/-!
# RecordSieve.Proofs.Sql.Literals

The text literals of an expression and the text tokens it was read from: they are the same,
in the same order (`Reads.spends`), because every rule of the grammar spends its tokens from
left to right and lowers each text token to the literal with its body.
-/

namespace RecordSieve

/-! ### The texts of an expression -/

/-- The text literals of an expression from left to right, those of a list as written. -/
def Expression.texts : Expression → List String
  | literal v => Literal.texts [v]
  | field _ => []
  | list vs => Literal.texts vs
  | compare _ l r | and l r | or l r => l.texts ++ r.texts
  | not e | group e => e.texts
  | member p s _ => p.texts ++ Literal.texts s.values

theorem Literal.texts_cons (v : Literal) (vs : List Literal) :
    Literal.texts (v :: vs) = Literal.texts [v] ++ Literal.texts vs :=
  List.filterMap_append (l := [v])

namespace Sql

theorem BinaryOp.texts_join {op : BinaryOp} (h : op.isOfFilter = true) (a b : Expression) :
    (op.join a b).texts = a.texts ++ b.texts := by
  cases op with
  | other s => cases h
  | _ => rfl

/-! ### The tokens of an expression -/

/-- The text of a plain text token. -/
def Token.text? : Token → Option String
  | text .plain body => some body
  | _ => none

/-- What some tokens have in front of others is ordinary, and its texts are the given ones. -/
def Spends (ts us : List Token) (ss : List String) : Prop :=
  ∃ vs, ts = vs ++ us ∧ (∀ v ∈ vs, v.isOrdinary = true) ∧ vs.filterMap Token.text? = ss

namespace Spends

variable {ts us vs : List Token} {rs ss : List String}

theorem append (h : Spends ts us rs) (h' : Spends us vs ss) : Spends ts vs (rs ++ ss) := by
  obtain ⟨xs, rfl, hxs, rfl⟩ := h
  obtain ⟨ys, rfl, hys, rfl⟩ := h'
  exact ⟨xs ++ ys, (List.append_assoc ..).symm, List.forall_mem_append.2 ⟨hxs, hys⟩,
    List.filterMap_append⟩

theorem nil (ts : List Token) : Spends ts ts [] := ⟨[], rfl, nofun, rfl⟩

/-- A token that is no text in front. -/
theorem cons {t : Token} (ht : t.isOrdinary = true) (hnone : t.text? = none) (h : Spends ts us ss) :
    Spends (t :: ts) us ss := by
  obtain ⟨xs, rfl, hxs, rfl⟩ := h
  exact ⟨t :: xs, rfl, List.forall_mem_cons.2 ⟨ht, hxs⟩, List.filterMap_cons_none hnone⟩

end Spends

variable {d : Nat} {ts us : List Token} {t : Node}

theorem ReadsConstant.spends {v : Literal} (h : ReadsConstant d ts t us)
    (hl : Lowers t (.literal v)) : Spends ts us (Literal.texts [v]) := by
  cases h with
  | boolean b _ =>
    cases hl with
    | value hv =>
      cases hv
      exact .cons rfl rfl (.nil us)
  | number token long =>
    cases hl with
    | value hv =>
      obtain ⟨n, -, rfl⟩ := Except.map_eq_ok_iff.1 hv
      exact .cons rfl rfl (.nil us)
  | text body =>
    cases hl with
    | value hv =>
      cases hv
      exact ⟨[.text .plain body], rfl, by simp [Token.isOrdinary], rfl⟩
  | signed minus token long =>
    obtain ⟨_, _, n, -, -, hv⟩ := lowers_signed_iff.1 hl
    cases hv
    exact .cons rfl rfl (.cons rfl rfl (.nil us))

theorem ReadsItem.spends {e : Expression} {v : Literal} (h : ReadsItem d ts t us)
    (hl : Lowers t e) (hv : e.ungrouped = .literal v) : Spends ts us (Literal.texts [v]) := by
  induction h generalizing e with
  | constant h =>
    obtain ⟨w, rfl⟩ := h.isLiteral hl
    cases hv
    exact h.spends hl
  | nested _ ih =>
    obtain ⟨f, rfl, hf⟩ := lowers_nested_iff.1 hl
    have hclose := (ih hf hv).append (.cons rfl rfl (.nil _))
    rw [List.append_nil] at hclose
    exact .cons rfl rfl hclose

theorem ReadsItems.spends {items : List Node} {vs : List Literal} (h : ReadsItems d ts items us)
    (hl : literals items = .ok vs) : Spends ts us (Literal.texts vs) := by
  induction h generalizing vs with
  | one h =>
    obtain ⟨f, v, ws, hf, hv, hws, rfl⟩ := literals_cons_eq_ok_iff.1 hl
    rw [literals_nil_eq_ok_iff] at hws
    subst hws
    exact h.spends hf hv
  | cons h _ ih =>
    obtain ⟨f, v, ws, hf, hv, hws, rfl⟩ := literals_cons_eq_ok_iff.1 hl
    rw [Literal.texts_cons]
    exact (h.spends hf hv).append (.cons rfl rfl (ih hws))

theorem ReadsIn.spends {negated : Bool} (h : ReadsIn negated ts us) : Spends ts us [] := by
  cases h with
  | plain _ => exact .cons rfl rfl (.cons rfl rfl (.nil us))
  | negated _ _ => exact .cons rfl rfl (.cons rfl rfl (.cons rfl rfl (.nil us)))

theorem isOrdinary_of_operator? {o : Token} {op : BinaryOp} (h : o.operator? = some op) :
    o.isOrdinary = true ∧ o.text? = none := by
  cases o with
  | symbol s => exact ⟨rfl, rfl⟩
  | word v q => exact ⟨rfl, rfl⟩
  | _ => cases h

/-- The text literals of an expression are the texts among the tokens it was read from. -/
theorem Reads.spends {e : Expression} (h : Reads d ts t us) (hl : Lowers t e) :
    Spends ts us e.texts := by
  induction h generalizing e with
  | name _ =>
    cases hl
    exact .cons rfl rfl (.nil _)
  | constant h =>
    obtain ⟨v, rfl⟩ := h.isLiteral hl
    exact h.spends hl
  | not _ _ ih =>
    obtain ⟨f, rfl, hf⟩ := lowers_not_iff.1 hl
    exact .cons rfl rfl (ih (e := f) hf)
  | nested _ _ ih =>
    obtain ⟨f, rfl, hf⟩ := lowers_nested_iff.1 hl
    have hclose := (ih hf).append (.cons rfl rfl (.nil _))
    rw [List.append_nil] at hclose
    exact .cons rfl rfl hclose
  | binary _ hop _ _ ihl ihr =>
    obtain ⟨a, b, rfl, hfilter, ha, hb⟩ := lowers_binary_iff.1 hl
    obtain ⟨ho, hnone⟩ := isOrdinary_of_operator? hop
    rw [BinaryOp.texts_join hfilter]
    exact (ihl ha).append (.cons ho hnone (ihr hb))
  | inList _ hin hitems ih =>
    obtain ⟨q, vs, rfl, hq, hvs⟩ := lowers_inList_iff.1 hl
    have hlist := (hitems.spends hvs).append (.cons rfl rfl (.nil _))
    rw [List.append_nil] at hlist
    exact (ih hq).append (hin.spends.append hlist)

end Sql

end RecordSieve
