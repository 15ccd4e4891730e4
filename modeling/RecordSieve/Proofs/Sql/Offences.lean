import RecordSieve.Proofs.Sql.Lowering
/-!
# RecordSieve.Proofs.Sql.Offences

Which query expressions are predicates, and why the others are not. `IsSupported` has one
rule for every form that filters have. What is wrong with any other expression is found by
checks, each of which looks at one node by itself (`Check.offence?`); `Node.checks` has them in
the order of writing, a node in front of its parts and an item of a list in front of the
question whether it is a constant.

Lowering succeeds exactly for the supported expressions, and otherwise the first check that
finds something decides the error (`lowering_by_checks`). The membership sets of the predicate
are built from the items of the lists, one value for each item.
-/

namespace RecordSieve

/-- The sets of the membership tests in an expression, in the order of writing. -/
def Expression.sets : Expression → List ValueSet
  | literal _ | field _ | list _ => []
  | compare _ l r | and l r | or l r => l.sets ++ r.sets
  | not e | group e => e.sets
  | member p s _ => p.sets ++ [s]

namespace Sql

/-! ### Supported expressions -/

/-- The literal that an item of a list is: a constant or a signed number, under any parentheses. -/
def Node.constant? : Node → Option Literal
  | .value (.number token _) => (Numeral.read? token.toList).map .number
  | .value (.text body) | .value (.doubleQuoted body) => some (.text body)
  | .value (.boolean b) => some (.boolean b)
  | .unary .minus (.value (.number token _)) =>
    (Numeral.read? token.toList).map fun n => .number (-n)
  | .unary .plus (.value (.number token _)) => (Numeral.read? token.toList).map .number
  | .nested e => e.constant?
  | _ => none

/-- The expressions that filters have. -/
inductive IsSupported : Node → Prop
  | name (n : Name) : IsSupported (.name n)
  | number {token : String} {long : Bool} {n : Binary64} : Numeral.read? token.toList = some n →
      n.isFinite = true → IsSupported (.value (.number token long))
  | text (body : String) : IsSupported (.value (.text body))
  | doubleQuoted (body : String) : IsSupported (.value (.doubleQuoted body))
  | boolean (b : Bool) : IsSupported (.value (.boolean b))
  | minus {token : String} {long : Bool} : IsSupported (.value (.number token long)) →
      IsSupported (.unary .minus (.value (.number token long)))
  | plus {token : String} {long : Bool} : IsSupported (.value (.number token long)) →
      IsSupported (.unary .plus (.value (.number token long)))
  | not {e : Node} : IsSupported e → IsSupported (.unary .not e)
  | and {l r : Node} : IsSupported l → IsSupported r → IsSupported (.binary l .and r)
  | or {l r : Node} : IsSupported l → IsSupported r → IsSupported (.binary l .or r)
  | compare (op : Comparison) {l r : Node} : IsSupported l → IsSupported r →
      IsSupported (.binary l (.compare op) r)
  | nested {e : Node} : IsSupported e → IsSupported (.nested e)
  | inList {p : Node} {items : List Node} (negated : Bool) : IsSupported p →
      (∀ item ∈ items, IsSupported item) → (∀ item ∈ items, item.constant? ≠ none) →
      IsSupported (.inList p items negated)

/-- The lists of the membership tests in an expression of a supported form, in the order of
writing. -/
def Node.lists : Node → List (List Node)
  | .unary _ e | .nested e => e.lists
  | .binary l _ r => l.lists ++ r.lists
  | .inList p items _ => p.lists ++ [items]
  | _ => []

/-! ### Checks -/

/-- A question about an expression: whether filters have a node like its first one, or whether
it may be an item of a list. -/
inductive Check
  | node (e : Node)
  | item (e : Node)

/-- What is wrong with a constant. -/
def Value.offence? : Value → Option CompileError
  | number token _ =>
    match Numeral.read? token.toList with
    | none => some (.malformed (.invalidNumber token))
    | some n => if n.isFinite then none else some (.malformed (.numberOutOfRange token))
  | text _ | doubleQuoted _ | boolean _ => none
  | null => some (.unsupported (.literal "NULL"))
  | other t => some (.unsupported (.literal t))

/-- What is wrong with an expression, whatever its parts are. A sign needs a number token. -/
def Node.offence? : Node → Option CompileError
  | .name _ | .nested _ | .inList _ _ _ | .unary .not _ => none
  | .value v => v.offence?
  | .unary .minus (.value (.number _ _)) | .unary .plus (.value (.number _ _)) => none
  | .binary _ (.other s) _ => some (.unsupported (.operator s))
  | .binary _ _ _ => none
  | .tuple es => some (.unsupported (.tuple es.length (Node.tuple es).text))
  | e => some (.unsupported (.expression e.text))

/-- What a check finds wrong. -/
def Check.offence? : Check → Option CompileError
  | node e => e.offence?
  | item e => if e.constant? = none then some (.unsupported (.listItem e.text)) else none

mutual

/-- The checks of an expression from left to right, each node in front of its parts. -/
def Node.checks : Node → List Check
  | .unary op e => .node (.unary op e) :: e.checks
  | .binary l op r => .node (.binary l op r) :: (l.checks ++ r.checks)
  | .nested e => .node (.nested e) :: e.checks
  | .tuple es => .node (.tuple es) :: partChecks es
  | .inList p items negated => .node (.inList p items negated) :: (p.checks ++ itemChecks items)
  | .test e words => .node (.test e words) :: e.checks
  | .between e negated lo hi =>
    .node (.between e negated lo hi) :: (e.checks ++ (lo.checks ++ hi.checks))
  | .like e negated keyword p => .node (.like e negated keyword p) :: (e.checks ++ p.checks)
  | e => [.node e]

/-- The checks of several expressions. -/
def partChecks : List Node → List Check
  | [] => []
  | e :: es => e.checks ++ partChecks es

/-- The checks of the items of a list. An item is looked at before it is asked to be a
constant. -/
def itemChecks : List Node → List Check
  | [] => []
  | e :: es => e.checks ++ .item e :: itemChecks es

end

theorem Value.offence?_cases {v : Value} {x : CompileError} (h : v.offence? = some x) :
    (∃ token long m, v = .number token long ∧ x = .malformed m) ∨
      (∀ token long, v ≠ .number token long) ∧ ∃ u, x = .unsupported u := by
  cases v with
  | number token long =>
    simp only [offence?] at h
    split at h
    · cases h
      exact .inl ⟨_, _, _, rfl, rfl⟩
    · split at h
      · cases h
      · cases h
        exact .inl ⟨_, _, _, rfl, rfl⟩
  | null =>
    cases h
    exact .inr ⟨nofun, _, rfl⟩
  | other t =>
    cases h
    exact .inr ⟨nofun, _, rfl⟩
  | text body => cases h
  | doubleQuoted body => cases h
  | boolean b => cases h

/-- What offends is a malformed number token, or unsupported. -/
theorem Check.offence?_cases {c : Check} {x : CompileError} (h : c.offence? = some x) :
    (∃ token long m, c = .node (.value (.number token long)) ∧ x = .malformed m) ∨
      (∀ token long, c ≠ .node (.value (.number token long))) ∧ ∃ u, x = .unsupported u := by
  cases c with
  | item e =>
    simp only [offence?] at h
    split at h
    · cases h
      exact .inr ⟨nofun, _, rfl⟩
    · cases h
  | node e =>
    cases e with
    | value v =>
      rcases v.offence?_cases h with ⟨token, long, m, rfl, rfl⟩ | ⟨hv, u, rfl⟩
      · exact .inl ⟨token, long, m, rfl, rfl⟩
      · exact .inr ⟨fun token long ht => hv token long (by cases ht; rfl), u, rfl⟩
    | _ =>
      refine .inr ⟨nofun, ?_⟩
      simp only [offence?, Node.offence?] at h
      grind

/-! ### The first offence -/

/-- The first of some checks that finds something decides the error of a result. -/
def Decides {α : Type} (cs : List Check) (r : Except CompileError α) : Prop :=
  ∀ x, r = .error x ↔ cs.findSome? Check.offence? = some x

namespace Decides

variable {α β : Type} {c : Check} {cs ds : List Check} {r : Except CompileError α}

theorem findSome?_eq_none {a : α} (h : Decides cs (.ok a)) :
    cs.findSome? Check.offence? = none := by
  cases hx : cs.findSome? Check.offence? with
  | none => rfl
  | some x => cases (h x).2 hx

/-- Without an offence there is a result. -/
theorem pass (a : α) (h : cs.findSome? Check.offence? = none) : Decides cs (.ok a) := by
  intro x
  rw [h]
  exact ⟨nofun, nofun⟩

theorem offends {x : CompileError} (h : c.offence? = some x) (cs : List Check) :
    Decides (c :: cs) (.error x : Except CompileError α) := by
  intro y
  rw [List.findSome?_cons, h]
  simp

/-- A check that finds nothing goes in front. -/
theorem cons (hc : c.offence? = none) (h : Decides cs r) : Decides (c :: cs) r := by
  intro x
  rw [List.findSome?_cons, hc]
  exact h x

theorem map (h : Decides cs r) (f : α → β) : Decides cs (r.map f) := by
  cases r with
  | error y =>
    intro x
    rw [← h x]
    simp [Except.map]
  | ok a => exact .pass _ h.findSome?_eq_none

/-- Steps in a row make their checks in a row. -/
theorem bind {f : α → Except CompileError β} (h : Decides cs r)
    (hf : ∀ a, r = .ok a → Decides ds (f a)) : Decides (cs ++ ds) (r >>= f) := by
  intro x
  rw [List.findSome?_append]
  cases r with
  | error y =>
    have hy := (h y).1 rfl
    rw [hy]
    simp [Bind.bind, Except.bind]
  | ok a =>
    rw [h.findSome?_eq_none]
    exact hf a rfl x

/-- A last step that cannot fail makes no check. -/
theorem bind_pure (h : Decides cs r) (f : α → β) : Decides cs (r >>= fun a => pure (f a)) := by
  rw [← List.append_nil cs]
  exact h.bind fun a _ => .pass _ rfl

end Decides

/-- The literal of an item is what it lowers to under all groups. -/
theorem Lowers.constant?_eq_some_iff {t : Node} {e : Expression} (h : Lowers t e) {v : Literal} :
    t.constant? = some v ↔ e.ungrouped = .literal v := by
  induction h with
  | name n => simp [Node.constant?, Expression.ungrouped]
  | @value w l hw =>
    cases w with
    | number token long =>
      obtain ⟨n, hn, rfl⟩ := Except.map_eq_ok_iff.1 hw
      simp [Node.constant?, Expression.ungrouped, (Clause.readNumber_eq_ok_iff.1 hn).1]
    | text body =>
      cases hw
      simp [Node.constant?, Expression.ungrouped]
    | doubleQuoted body =>
      cases hw
      simp [Node.constant?, Expression.ungrouped]
    | boolean b =>
      cases hw
      simp [Node.constant?, Expression.ungrouped]
    | null => cases hw
    | other t => cases hw
  | signed minus hn =>
    have hread := (Clause.readNumber_eq_ok_iff.1 hn).1
    cases minus with
    | true => simp [signOp, signedNumber, Node.constant?, Expression.ungrouped, hread]
    | false => simp [signOp, signedNumber, Node.constant?, Expression.ungrouped, hread]
  | nested _ ih =>
    rw [Node.constant?, Expression.ungrouped_group]
    exact ih
  | _ => simp [Node.constant?, Expression.ungrouped]

theorem decides_readNumber (token : String) (long : Bool) :
    Decides [.node (.value (.number token long))] (Clause.readNumber token.toList) := by
  have hoffence : Check.offence? (.node (.value (.number token long))) =
      (Value.number token long).offence? := rfl
  rw [Value.offence?] at hoffence
  unfold Clause.readNumber
  rw [String.ofList_toList]
  cases hn : Numeral.read? token.toList with
  | none =>
    rw [hn] at hoffence
    exact .offends hoffence []
  | some n =>
    rw [hn] at hoffence
    by_cases hfinite : n.isFinite = true
    · simp only [hfinite, if_true] at hoffence ⊢
      exact .cons hoffence (.pass n rfl)
    · simp only [hfinite, Bool.false_eq_true, if_false] at hoffence ⊢
      exact .offends hoffence []

theorem decides_toLiteral (v : Value) : Decides [.node (.value v)] v.toLiteral := by
  cases v with
  | number token long => exact (decides_readNumber token long).map _
  | text body => exact .pass _ rfl
  | doubleQuoted body => exact .pass _ rfl
  | boolean b => exact .pass _ rfl
  | null => exact .offends rfl []
  | other t => exact .offends rfl []

/-- A sign looks at its operand first, which has to be a number token. -/
theorem decides_signed (minus : Bool) (e : Node) :
    Decides (.node (.unary (signOp minus) e) :: e.checks)
      (signed minus e (.unary (signOp minus) e)) := by
  unfold signed
  split
  · rename_i token long
    refine .cons ?_ ((decides_readNumber token long).map _)
    cases minus <;> rfl
  · rename_i hne
    refine .offends ?_ _
    have hnumber : ∀ token long, e ≠ .value (.number token long) :=
      fun token long he => hne token long he
    cases minus with
    | true => simp [signOp, Check.offence?, Node.offence?, hnumber]
    | false => simp [signOp, Check.offence?, Node.offence?, hnumber]

mutual

/-- The checks of an expression decide whether and how its lowering fails. -/
theorem decides_toExpression : ∀ t : Node, Decides t.checks t.toExpression
  | .name n => by
      rw [Node.toExpression]
      exact .pass _ rfl
  | .value v => by
      rw [Node.toExpression]
      exact (decides_toLiteral v).map _
  | .unary .not e => by
      rw [Node.toExpression, Node.checks]
      exact .cons rfl ((decides_toExpression e).map _)
  | .unary .minus e => by
      rw [Node.toExpression]
      exact decides_signed true e
  | .unary .plus e => by
      rw [Node.toExpression]
      exact decides_signed false e
  | .binary l op r => by
      have hl := decides_toExpression l
      have hr := decides_toExpression r
      rw [Node.checks]
      cases op with
      | and =>
        rw [Node.toExpression]
        exact .cons rfl (hl.bind fun a _ => hr.bind_pure _)
      | or =>
        rw [Node.toExpression]
        exact .cons rfl (hl.bind fun a _ => hr.bind_pure _)
      | compare op =>
        rw [Node.toExpression]
        exact .cons rfl (hl.bind fun a _ => hr.bind_pure _)
      | other s =>
        rw [Node.toExpression]
        exact .offends rfl _
  | .nested e => by
      rw [Node.toExpression, Node.checks]
      exact .cons rfl ((decides_toExpression e).map _)
  | .tuple es => by
      rw [Node.toExpression, Node.checks]
      exact .offends rfl _
  | .inList p items negated => by
      have hp := decides_toExpression p
      have hitems := decides_literals items
      rw [Node.toExpression, Node.checks]
      exact .cons rfl (hp.bind fun q _ => hitems.bind_pure _)
  | .path parts => by
      rw [Node.toExpression]
      exact .offends rfl _
      all_goals nofun
  | .test e words => by
      rw [Node.toExpression, Node.checks]
      exact .offends rfl _
      all_goals nofun
  | .between e negated lo hi => by
      rw [Node.toExpression, Node.checks]
      exact .offends rfl _
      all_goals nofun
  | .like e negated keyword q => by
      rw [Node.toExpression, Node.checks]
      exact .offends rfl _
      all_goals nofun
  | .other text => by
      rw [Node.toExpression]
      exact .offends rfl _
      all_goals nofun

theorem decides_literals : ∀ items : List Node, Decides (itemChecks items) (literals items)
  | [] => by
      rw [literals, itemChecks]
      exact .pass _ rfl
  | item :: items => by
      have hitem := decides_toExpression item
      have hitems := decides_literals items
      rw [literals, itemChecks]
      refine hitem.bind fun e he => ?_
      have hconstant := fun v => (lowers_of_toExpression he).constant?_eq_some_iff (v := v)
      split
      · rename_i v hv
        have hclean : Check.offence? (.item item) = none := by
          simp [Check.offence?, (hconstant v).2 hv]
        exact .cons hclean (hitems.bind_pure _)
      · rename_i hne
        have hnone : item.constant? = none := by
          cases hc : item.constant? with
          | none => rfl
          | some v => exact absurd ((hconstant v).1 hc) (hne v)
        have hoffence : Check.offence? (.item item) =
            some (.unsupported (.listItem item.text)) := if_pos hnone
        exact .offends hoffence _

end

/-! ### Supported expressions are those that lower -/

theorem isSupported_of_toLiteral {v : Value} {l : Literal} (h : v.toLiteral = .ok l) :
    IsSupported (.value v) := by
  cases v with
  | number token long =>
    obtain ⟨n, hn, -⟩ := Except.map_eq_ok_iff.1 h
    obtain ⟨hread, hfinite⟩ := Clause.readNumber_eq_ok_iff.1 hn
    exact .number hread hfinite
  | text body => exact .text body
  | doubleQuoted body => exact .doubleQuoted body
  | boolean b => exact .boolean b
  | null => cases h
  | other t => cases h

theorem isSupported_of_readNumber {token : String} {long : Bool} {n : Binary64}
    (h : Clause.readNumber token.toList = .ok n) : IsSupported (.value (.number token long)) :=
  isSupported_of_toLiteral (l := .number n) (by rw [Value.toLiteral, h]; rfl)

mutual

theorem Lowers.isSupported : ∀ {t : Node} {e : Expression}, Lowers t e → IsSupported t
  | .name n, _, _ => .name n
  | .value v, _, h => by
      cases h with
      | value hv => exact isSupported_of_toLiteral hv
  | .unary .not t, _, h => by
      obtain ⟨f, -, hf⟩ := lowers_not_iff.1 h
      exact .not hf.isSupported
  | .unary .minus t, _, h => by
      obtain ⟨token, long, n, rfl, hn, -⟩ := (@lowers_signed_iff true t _).1 h
      exact .minus (isSupported_of_readNumber hn)
  | .unary .plus t, _, h => by
      obtain ⟨token, long, n, rfl, hn, -⟩ := (@lowers_signed_iff false t _).1 h
      exact .plus (isSupported_of_readNumber hn)
  | .binary l op r, _, h => by
      obtain ⟨a, b, -, hop, hl, hr⟩ := lowers_binary_iff.1 h
      cases op with
      | and => exact .and hl.isSupported hr.isSupported
      | or => exact .or hl.isSupported hr.isSupported
      | compare op => exact .compare op hl.isSupported hr.isSupported
      | other s => cases hop
  | .nested t, _, h => by
      obtain ⟨f, -, hf⟩ := lowers_nested_iff.1 h
      exact .nested hf.isSupported
  | .inList p items negated, _, h => by
      obtain ⟨q, vs, -, hp, hvs⟩ := lowers_inList_iff.1 h
      have hitems := isSupported_of_literals hvs
      exact .inList negated hp.isSupported (fun i hi => (hitems i hi).1) fun i hi => (hitems i hi).2

/-- The items of a list that lowers are supported constants. -/
theorem isSupported_of_literals : ∀ {items : List Node} {vs : List Literal},
    literals items = .ok vs → ∀ item ∈ items, IsSupported item ∧ item.constant? ≠ none
  | [], _, _ => nofun
  | item :: items, vs, h => by
      obtain ⟨f, v, ws, hf, hv, hws, rfl⟩ := literals_cons_eq_ok_iff.1 h
      have hconstant : item.constant? ≠ none := by
        rw [hf.constant?_eq_some_iff.2 hv]
        exact nofun
      exact List.forall_mem_cons.2 ⟨⟨hf.isSupported, hconstant⟩, isSupported_of_literals hws⟩

end

/-- Items that each lower to a literal lower together. -/
theorem exists_literals {items : List Node} (h : ∀ item ∈ items, ∃ e, Lowers item e)
    (hconstant : ∀ item ∈ items, item.constant? ≠ none) : ∃ vs, literals items = .ok vs := by
  induction items with
  | nil => exact ⟨[], rfl⟩
  | cons item items ih =>
    obtain ⟨⟨f, hf⟩, hrest⟩ := List.forall_mem_cons.1 h
    obtain ⟨hitem, hitems⟩ := List.forall_mem_cons.1 hconstant
    obtain ⟨v, hv⟩ := Option.ne_none_iff_exists'.1 hitem
    obtain ⟨ws, hws⟩ := ih hrest hitems
    exact ⟨v :: ws, literals_cons_eq_ok_iff.2
      ⟨f, v, ws, hf, hf.constant?_eq_some_iff.1 hv, hws, rfl⟩⟩

theorem IsSupported.exists_readNumber {token : String} {long : Bool}
    (h : IsSupported (.value (.number token long))) :
    ∃ n, Clause.readNumber token.toList = .ok n := by
  cases h with
  | number hread hfinite => exact ⟨_, Clause.readNumber_eq_ok_iff.2 ⟨hread, hfinite⟩⟩

theorem IsSupported.exists_lowers {t : Node} (h : IsSupported t) : ∃ e, Lowers t e := by
  induction h with
  | name n => exact ⟨_, .name n⟩
  | @number token long n hread hfinite =>
    have hliteral : (Value.number token long).toLiteral = .ok (.number n) := by
      rw [Value.toLiteral, Clause.readNumber_eq_ok_iff.2 ⟨hread, hfinite⟩]
      rfl
    exact ⟨_, .value hliteral⟩
  | text body => exact ⟨.literal (.text body), .value rfl⟩
  | doubleQuoted body => exact ⟨.literal (.text body), .value rfl⟩
  | boolean b => exact ⟨.literal (.boolean b), .value rfl⟩
  | minus h _ =>
    obtain ⟨n, hn⟩ := h.exists_readNumber
    exact ⟨_, .signed true hn⟩
  | plus h _ =>
    obtain ⟨n, hn⟩ := h.exists_readNumber
    exact ⟨_, .signed false hn⟩
  | not _ ih =>
    obtain ⟨e, he⟩ := ih
    exact ⟨_, .not he⟩
  | and _ _ ihl ihr =>
    obtain ⟨⟨a, ha⟩, b, hb⟩ := And.intro ihl ihr
    exact ⟨_, .and ha hb⟩
  | or _ _ ihl ihr =>
    obtain ⟨⟨a, ha⟩, b, hb⟩ := And.intro ihl ihr
    exact ⟨_, .or ha hb⟩
  | compare op _ _ ihl ihr =>
    obtain ⟨⟨a, ha⟩, b, hb⟩ := And.intro ihl ihr
    exact ⟨_, .compare op ha hb⟩
  | nested _ ih =>
    obtain ⟨e, he⟩ := ih
    exact ⟨_, .nested he⟩
  | inList negated _ _ hconstant ihp ihitems =>
    obtain ⟨q, hq⟩ := ihp
    obtain ⟨vs, hvs⟩ := exists_literals ihitems hconstant
    exact ⟨_, .inList negated hq hvs⟩

/-! ### Lists -/

/-- Every item of a list gives one literal, in the order of the items. -/
theorem constants_of_literals {items : List Node} {vs : List Literal}
    (h : literals items = .ok vs) : items.map Node.constant? = vs.map some := by
  induction items generalizing vs with
  | nil =>
    rw [literals_nil_eq_ok_iff.1 h]
    rfl
  | cons item items ih =>
    obtain ⟨f, v, ws, hf, hv, hws, rfl⟩ := literals_cons_eq_ok_iff.1 h
    rw [List.map_cons, List.map_cons, hf.constant?_eq_some_iff.2 hv, ih hws]

/-- Membership sets and the lists that they are built from: each set is that of the literals of
its list, one for every item, in the order of writing. -/
def BuiltFrom (lists : List (List Node)) (sets : List ValueSet) : Prop :=
  sets.map (fun s => s.values.map some) = lists.map (fun items => items.map Node.constant?) ∧
    ∀ s ∈ sets, s = .ofList s.values

theorem BuiltFrom.nil : BuiltFrom [] [] := ⟨rfl, nofun⟩

theorem BuiltFrom.singleton {items : List Node} {vs : List Literal}
    (h : literals items = .ok vs) : BuiltFrom [items] [.ofList vs] := by
  refine ⟨?_, List.forall_mem_singleton.2 rfl⟩
  rw [List.map_singleton, List.map_singleton, ValueSet.values_ofList, constants_of_literals h]

theorem BuiltFrom.append {ls ms : List (List Node)} {ss us : List ValueSet}
    (h : BuiltFrom ls ss) (h' : BuiltFrom ms us) : BuiltFrom (ls ++ ms) (ss ++ us) := by
  refine ⟨?_, List.forall_mem_append.2 ⟨h.2, h'.2⟩⟩
  rw [List.map_append, List.map_append, h.1, h'.1]

/-- The sets of a predicate are built from the lists of its expression. -/
theorem Lowers.builtFrom {t : Node} {e : Expression} (h : Lowers t e) :
    BuiltFrom t.lists e.sets := by
  induction h with
  | name _ | value _ | signed _ _ => exact .nil
  | not _ ih | nested _ ih => exact ih
  | and _ _ ihl ihr | or _ _ ihl ihr | compare _ _ _ ihl ihr => exact ihl.append ihr
  | inList _ _ hvs ih => exact ih.append (.singleton hvs)

/-! ### The verdict -/

/-- Lowering accepts exactly the supported expressions. The error of any other one is what the
first check from the left finds wrong: a malformed number token, or something unsupported.
Every membership set of a predicate is built from all items of its list. -/
theorem lowering_by_checks (t : Node) :
    ((∃ e, t.toExpression = .ok e) ↔ IsSupported t) ∧
    (∀ x, t.toExpression = .error x ↔
      ∃ before c after, t.checks = before ++ c :: after ∧ c.offence? = some x ∧
        ∀ b ∈ before, b.offence? = none) ∧
    (∀ c ∈ t.checks, ∀ x, c.offence? = some x →
      (∃ token long m, c = .node (.value (.number token long)) ∧ x = .malformed m) ∨
        (∀ token long, c ≠ .node (.value (.number token long))) ∧ ∃ u, x = .unsupported u) ∧
    (∀ e, t.toExpression = .ok e → BuiltFrom t.lists e.sets) := by
  refine ⟨⟨?_, ?_⟩, ?_, fun c _ x hx => Check.offence?_cases hx, ?_⟩
  · intro h
    obtain ⟨e, he⟩ := h
    exact (lowers_of_toExpression he).isSupported
  · intro h
    obtain ⟨e, he⟩ := h.exists_lowers
    exact ⟨e, lowers_iff.1 he⟩
  · intro x
    rw [decides_toExpression t x, List.findSome?_eq_some_iff]
  · intro e he
    exact (lowers_of_toExpression he).builtFrom

/-- A list of two items under a negation, and a list whose second item decides the error: its
first item is fine, and the last one is not looked at. -/
theorem lowering_by_checks_items :
    (∃ e, (Node.inList (.name ⟨"a", none⟩)
        [.nested (.value (.text "x")), .value (.boolean true)] true).toExpression = .ok e ∧
      BuiltFrom [[.nested (.value (.text "x")), .value (.boolean true)]] e.sets) ∧
    (Node.inList (.name ⟨"a", none⟩) [.nested (.value (.text "x")),
        .nested (.binary (.name ⟨"b", none⟩) (.other "+") (.value (.number "1.2.3"))),
        .value .null] false).toExpression =
      .error (.unsupported (.operator "+")) := by
  constructor
  · obtain ⟨hok, -, -, hsets⟩ := lowering_by_checks
      (.inList (.name ⟨"a", none⟩) [.nested (.value (.text "x")), .value (.boolean true)] true)
    obtain ⟨e, he⟩ := hok.2 (by
      refine .inList true (.name _) ?_ ?_
      · simpa using ⟨IsSupported.nested (.text "x"), IsSupported.boolean true⟩
      · simp [Node.constant?])
    exact ⟨e, he, hsets e he⟩
  · refine ((lowering_by_checks _).2.1 _).2 ⟨[_, _, _, _, _, _], _, _, rfl, rfl, ?_⟩
    simp [Check.offence?, Node.offence?, Value.offence?, Node.constant?]

end Sql
end RecordSieve
