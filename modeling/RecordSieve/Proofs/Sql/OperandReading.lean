import RecordSieve.Proofs.Sql.Grammar
/-!
# RecordSieve.Proofs.Sql.OperandReading

What is read of an operand whose tokens end where an operator, a closing
parenthesis or a comma follows, or nothing (`Follows`). None of the forms that a
word can start is read there, because each of them goes on with something else: a
typed constant with its constant, a call with a parenthesis, a path with a point.
What is left are names and constants.
-/

namespace RecordSieve
namespace Sql

open Reader

/-! ### Data types -/

theorem Follows.eat {us : List Token} (h : Follows us) {s : String}
    (hs : (Token.symbol s).endsOperand = false) : Reader.eat s us = .ok (false, us) :=
  eatIf_of_head (h.head_isSymbol hs)

theorem Follows.eatWord {us : List Token} (h : Follows us) {k : String}
    (hk : k ∉ ["AND", "OR", "IN", "NOT"]) : Reader.eatWord k us = .ok (false, us) :=
  eatIf_of_head (h.head_isKeyword hk)

theorem Follows.readSize {us : List Token} (h : Follows us) : readSize us = .ok ("", us) := by
  rw [Sql.readSize, bind_of_ok (atSymbol_apply _ us), h.head_isSymbol (by decide)]
  rfl

theorem Follows.readPrecision {us : List Token} (h : Follows us) :
    readPrecision us = .ok ("", us) := by
  rw [Sql.readPrecision, bind_of_ok (atSymbol_apply _ us), h.head_isSymbol (by decide)]
  rfl

theorem Follows.readZone {us : List Token} (h : Follows us) : readZone us = .ok ("", us) := by
  rw [Sql.readZone, bind_of_ok (eatWords_of_head (h.head_isKeyword (by decide)))]
  show (eatWords _ >>= _) us = _
  rw [bind_of_ok (eatWords_of_head (h.head_isKeyword (by decide)))]
  rfl

theorem Follows.readBrackets {us : List Token} (h : Follows us) (n : Nat) :
    readBrackets n us = .ok ("", us) := by
  cases n with
  | zero => rfl
  | succ n =>
    rw [Sql.readBrackets, bind_of_ok (h.eat (by decide))]
    rfl

/-- A built-in type that goes on goes on with a parenthesis or with a word of its own. -/
theorem Follows.readBuiltIn {us : List Token} (h : Follows us) (k : String) :
    StandsStill us (readBuiltIn k) := by
  unfold Sql.readBuiltIn
  -- One step for each family of types, in the order in which the names are compared.
  refine .ite (.pure _) ?_
  refine .ite (.bind h.readSize (.pure _)) ?_
  refine .ite (.bind h.readSize (.bind (h.eatWord (by decide)) (.pure _))) ?_
  refine .ite (.bind h.readPrecision (.pure _)) ?_
  refine .ite (.bind h.readPrecision (.pure _)) ?_
  refine .ite (.bind (h.eatWord (by decide)) (.ite (.pure _) ?_)) ?_
  · exact .bind h.readPrecision (.pure _)
  refine .ite (.bind (h.eatWord (by decide)) (.ite ?_ ?_)) ?_
  · exact .bind h.readSize (.pure _)
  · exact .bind h.readSize (.pure _)
  refine .ite (.bind h.readSize (.bind h.readZone (.pure _))) ?_
  exact .ite (.bind h.readSize (.pure _)) (.pure _)

/-! ### Typed constants -/

theorem Reader.Shallow.readName : Shallow readName := by
  refine .bind .next fun t => ?_
  cases t with
  | word v q => exact .pure _
  | text kind s =>
    cases kind with
    | plain => exact .pure _
    | _ => exact .fail
  | _ => exact .fail

theorem Reader.Shallow.readPathText : Shallow readPathText :=
  .bind (.sepBy (.eat ".") .readName) fun _ => .pure _

theorem Reader.Shallow.readNatural : Shallow readNatural := by
  refine .bind .next fun t => ?_
  cases t with
  | number t long => exact .ite (.pure _) .fail
  | _ => exact .fail

theorem Reader.Shallow.readModifiers : Shallow readModifiers := by
  refine .bind (.eat "(") fun b => ?_
  refine .ite (.bind (.commaListUpTo ")" (.bind .next fun t => ?_)) fun ms => ?_) (.pure _)
  · cases t with
    | word v q => exact .pure _
    | number t long => exact .pure _
    | text kind s =>
      cases kind with
      | plain => exact .pure _
      | _ => exact .fail
    | _ => exact .fail
  · exact .pure _

theorem Reader.Shallow.readBrackets (n : Nat) : Shallow (readBrackets n) := by
  induction n with
  | zero => exact .pure _
  | succ n ih =>
    refine .bind (.eat "[") fun b => .ite ?_ (.pure _)
    exact .bind (.attempt .readNatural) fun _ => .bind (.expect "]") fun _ =>
      .bind ih fun _ => .pure _

/-- Reads a data type by a name that is no keyword. -/
def readNamedType : Reader DataType := do
  let path ← readPathText
  let modifiers ← readModifiers
  return .named (path ++ modifiers ++ (← readBrackets (← get).length))

/-- A token that names no built-in type starts no typed constant. -/
theorem typedConstant_of_named {t : Token} {ts : List Token} (interval : Reader String)
    (hb : ∀ k, t.keyword? = some k → readBuiltIn k ts = .ok (none, ts))
    (hi : t.isKeyword "INTERVAL" = false) :
    Level.typedConstant interval (t :: ts) = .error .grammar := by
  have hread : readDataType (t :: ts) = readNamedType (t :: ts) := by
    rw [readDataType, bind_of_ok (get_apply _), bind_of_ok (next_cons t ts)]
    cases hk : t.keyword? with
    | none =>
      simp only [hi, Bool.false_eq_true, if_false]
      rfl
    | some k =>
      simp only [hi, Bool.false_eq_true, if_false]
      rw [bind_of_ok (hb k hk)]
      rfl
  have hshallow : Shallow readNamedType :=
    .bind .readPathText fun _ => .bind .readModifiers fun _ => .bind .get fun _ =>
      .bind (.readBrackets _) fun _ => .pure _
  have hnamed : Gives readNamedType fun dt => ∃ s, dt = .named s :=
    .bind fun _ => .bind fun _ => .bind fun _ => .bind fun _ => .pure ⟨_, rfl⟩
  rw [Level.typedConstant]
  cases hr : readNamedType (t :: ts) with
  | error e => exact bind_of_error (hread.trans (hshallow.eq_grammar hr))
  | ok r =>
    rw [bind_of_ok (hread.trans hr)]
    obtain ⟨s, hs⟩ := hnamed _ _ _ hr
    rw [hs]
    rfl

/-- A token that is no keyword starts no typed constant. -/
theorem typedConstant_of_noKeyword {t : Token} {ts : List Token} (interval : Reader String)
    (hk : t.keyword? = none) (hi : t.isKeyword "INTERVAL" = false) :
    Level.typedConstant interval (t :: ts) = .error .grammar := by
  refine typedConstant_of_named interval (fun k h => ?_) hi
  rw [hk] at h
  cases h

theorem Follows.readValue {us : List Token} (h : Follows us) : readValue us = .error .grammar := by
  cases us with
  | nil => rfl
  | cons t us =>
    have hc := h.head_isSymbol (s := ":") (by decide)
    have ha := h.head_isSymbol (s := "@") (by decide)
    simp only [List.head?_cons, Option.any_some] at hc ha
    rw [Sql.readValue, bind_of_ok (next_cons t us)]
    simp only [h.constant?, hc, ha, Bool.false_eq_true, if_false]
    rfl

/-- In front of what may follow an operand no word starts a typed constant. -/
theorem Follows.typedConstant {us : List Token} (h : Follows us) {v : String}
    (hv : keywordSpelling v ≠ "INTERVAL") (interval : Reader String) :
    Level.typedConstant interval (.word v none :: us) = .error .grammar := by
  have hi : (Token.word v none).isKeyword "INTERVAL" = false := by
    rw [Token.isKeyword, beq_eq_false_iff_ne]
    exact hv
  obtain ⟨o, ho⟩ := h.readBuiltIn (keywordSpelling v)
  cases o with
  | none =>
    refine typedConstant_of_named interval (fun k hk => ?_) hi
    cases hk
    exact ho
  | some text =>
    have hread : readDataType (.word v none :: us) = .ok (.builtIn (text ++ ""), us) := by
      rw [readDataType, bind_of_ok (get_apply _), bind_of_ok (next_cons _ us)]
      simp only [Token.keyword?]
      rw [bind_of_ok ho]
      show ((get : Reader (List Token)) >>= _) us = _
      rw [bind_of_ok (get_apply us), bind_of_ok (h.readBrackets _)]
      rfl
    rw [Level.typedConstant, bind_of_ok hread]
    exact bind_of_error h.readValue

/-! ### Words -/

theorem Follows.parenthesized {α : Type} {us : List Token} (h : Follows us) (p : Reader α) :
    Reader.parenthesized p us = .error .grammar :=
  bind_of_error (expect_of_head (h.head_isSymbol (by decide)))

theorem Follows.plainWord {us : List Token} (h : Follows us) (lv : Level) (name : Name) :
    lv.plainWord name us = .ok (.name name, us) := by
  rw [Level.plainWord, bind_of_ok (peek_apply us)]
  cases us with
  | nil => rfl
  | cons t us =>
    have ht := h t rfl
    cases t with
    | symbol s =>
      have hs : s ≠ "(" := by
        intro h
        subst h
        cases ht
      simp [hs, pure_apply]
    | word v q => rfl
    | _ => cases ht

/-- In front of what may follow an operand, keywords start no form but those that
are never names and those of `NOT` and `CASE`. -/
theorem Follows.keywordForm {us : List Token} (h : Follows us) {lv : Level} (name : Name)
    {k : String} (interval : Reader String) (hk : k ∉ neverNames)
    (hnot : k = "NOT" → (lv.negation us).isOk = false)
    (hcase : k = "CASE" → (lv.caseForm us).isOk = false) :
    lv.keywordForm interval name k us = .ok (none, us) ∨
      ∃ e, lv.keywordForm interval name k us = .error e := by
  have herror : ∀ {α β : Type} {p : Reader α} {f : α → Reader β}, (p us).isOk = false →
      ∃ e, (p >>= f) us = .error e := by
    intro α β p f hp
    cases hr : p us with
    | ok r =>
      rw [hr] at hp
      cases hp
    | error e => exact ⟨e, bind_of_error hr⟩
  have hgroup : ∀ {α β : Type} (p : Reader α) (f : α → Reader β),
      ∃ e, (Reader.parenthesized p >>= f) us = .error e :=
    fun p f => ⟨.grammar, bind_of_error (h.parenthesized p)⟩
  unfold Level.keywordForm
  split
  case h_4 => exact .inr (herror (hnot rfl))
  case h_14 => exact .inr (herror (hcase rfl))
  all_goals first
    | exact absurd (by decide) hk
    | exact .inr (hgroup _ _)
    | skip
  case h_24 =>
    -- `POSITION` looks for a parenthesis before it starts its form.
    rw [bind_of_ok (atSymbol_apply _ us), h.head_isSymbol (by decide)]
    exact .inl rfl
  case h_30 =>
    -- `ARRAY` looks for a bracket, and then for a parenthesis.
    have harray : lv.namedArrayForm name.value us = .ok (none, us) := by
      rw [Level.namedArrayForm, bind_of_ok (h.eat (by decide))]
      show ((atSymbol "(") >>= _) us = _
      rw [bind_of_ok (atSymbol_apply _ us), h.head_isSymbol (by decide)]
      rfl
    rw [bind_of_ok harray]
    exact .inl rfl
  case h_31 =>
    have hmatch : Level.matchForm us = .error .grammar := bind_of_error (h.parenthesized _)
    exact .inr ⟨.grammar, bind_of_error hmatch⟩
  case h_33 => exact .inl rfl

theorem Follows.wordOperand {us : List Token} (h : Follows us) {lv : Level} {v : String}
    (hv : lv.TakesAsName v us) (interval : Reader String) :
    lv.wordOperand interval ⟨v, none⟩ us = .ok (.name ⟨v, none⟩, us) := by
  obtain ⟨hnever, hnot, hcase⟩ := hv
  have hreserved : Level.reservedNames.contains (keywordSpelling v) = false := by
    rw [← Bool.not_eq_true, List.contains_iff_mem]
    intro hmem
    have hsub : ∀ k ∈ Level.reservedNames, k ∈ neverNames := by decide
    exact hnever (hsub _ hmem)
  rw [Level.wordOperand]
  simp only [Option.isNone_none, if_true, hreserved, Bool.false_eq_true, if_false]
  rcases h.keywordForm ⟨v, none⟩ interval hnever hnot hcase with hform | ⟨e, hform⟩
  · refine orInstead_of_ok ?_
    rw [bind_of_ok hform]
    exact h.plainWord lv _
  · exact orInstead_of_error (bind_of_error hform) (h.plainWord lv _)

theorem Follows.quotedOperand {us : List Token} (h : Follows us) (lv : Level) (v : String)
    (q : Char) (interval : Reader String) :
    lv.wordOperand interval ⟨v, some q⟩ us = .ok (.name ⟨v, some q⟩, us) := by
  have hreserved : Level.reservedNames.contains "" = false := by decide
  rw [Level.wordOperand]
  simp only [Option.isNone_some, Bool.false_eq_true, if_false, hreserved]
  refine orInstead_of_ok ?_
  have hform : lv.keywordForm interval ⟨v, some q⟩ "" us = .ok (none, us) := rfl
  rw [bind_of_ok hform]
  exact h.plainWord lv _

/-! ### Whole operands -/

/-- An operand that is no typed constant is read as it is, when something follows
that may follow an operand. -/
theorem Follows.fullOperand {ts us : List Token} (h : Follows us) {lv : Level} {e : Node}
    (htyped : ∀ interval, Level.typedConstant interval ts = .error .grammar)
    (hread : ∀ interval, lv.untypedOperand interval ts = .ok (e, us)) :
    lv.fullOperand ts = .ok (e, us) := by
  have hcollated : Level.collated e us = .ok (e, us) := by
    rw [Level.collated, bind_of_ok (h.eatWord (by decide))]
    rfl
  have hoperand : lv.operand ts = .ok (e, us) := by
    rw [Level.operand, Level.operandWith, bind_of_ok (attempt_of_grammar (htyped _))]
    simp only
    rw [bind_of_ok (hread _), hcollated]
  have haccesses : lv.accesses (us.length + 1) us = .ok ([], us) := by
    rw [Level.accesses, bind_of_ok (atSymbol_apply _ us), h.head_isSymbol (by decide)]
    simp only [Bool.false_eq_true, if_false]
    rw [bind_of_ok (h.eat (by decide))]
    rfl
  rw [Level.fullOperand, bind_of_ok hoperand, bind_of_ok (get_apply us), bind_of_ok haccesses]
  rfl

/-- A name is read as one. -/
theorem Follows.fullOperand_name {us : List Token} (h : Follows us) {lv : Level} {v : String}
    {q : Option Char} (hv : q = none → lv.TakesAsName v us) :
    lv.fullOperand (.word v q :: us) = .ok (.name ⟨v, q⟩, us) := by
  cases q with
  | none =>
    have hword := hv rfl
    refine h.fullOperand (fun interval => h.typedConstant ?_ interval) fun interval => ?_
    · intro hi
      exact hword.1 (by rw [hi]; decide)
    · rw [Level.untypedOperand, bind_of_ok (next_cons _ us)]
      exact h.wordOperand hword interval
  | some c =>
    refine h.fullOperand (fun interval => ?_) fun interval => ?_
    · exact typedConstant_of_noKeyword interval rfl rfl
    · rw [Level.untypedOperand, bind_of_ok (next_cons _ us)]
      exact h.quotedOperand lv v c interval

/-- A number is read as one. -/
theorem Follows.fullOperand_number {us : List Token} (h : Follows us) (lv : Level)
    (token : String) (long : Bool) :
    lv.fullOperand (.number token long :: us) = .ok (.value (.number token long), us) :=
  h.fullOperand (fun interval => typedConstant_of_noKeyword interval rfl rfl) fun _ => rfl

/-- A text is read as one. -/
theorem Follows.fullOperand_text {us : List Token} (h : Follows us) (lv : Level) (body : String) :
    lv.fullOperand (.text .plain body :: us) = .ok (.value (.text body), us) :=
  h.fullOperand (fun interval => typedConstant_of_noKeyword interval rfl rfl) fun _ => rfl

/-- A truth value is read as one, in any letter case. -/
theorem Follows.fullOperand_boolean {us : List Token} (h : Follows us) {lv : Level} {v : String}
    (b : Bool) (hv : keywordSpelling v = if b then "TRUE" else "FALSE") :
    lv.fullOperand (.word v none :: us) = .ok (.value (.boolean b), us) := by
  refine h.fullOperand (fun interval => h.typedConstant ?_ interval) fun interval => ?_
  · rw [hv]
    cases b <;> decide
  · rw [Level.untypedOperand, bind_of_ok (next_cons _ us)]
    simp only [Level.wordOperand, Option.isNone_none, if_true, hv]
    cases b with
    | true => rfl
    | false => rfl
end Sql
end RecordSieve
