import RecordSieve.Proofs.Sql.Reader
import RecordSieve.Sql.Statement
/-!
# RecordSieve.Proofs.Sql.Leftover

What a clause may go on with, unnoticed, behind its condition. What is read there is known
by its printed form only, so a reader that prints nothing should have taken nothing; such
readers are `Visible`. All of them are but one: `LIMIT ALL` is taken and prints as nothing.
The statements after the first are only counted, and the count stops at the keyword `END`,
whatever stands behind it. So a clause that is read as nothing but a condition may hold
tokens that nobody looks at, and `Unnoticed` says which (`unnoticed_of_readClause`).
-/

namespace RecordSieve
namespace Sql

open Reader

variable {α : Type} {ts us : List Token}

/-! ### Readers that show what they take -/

/-- A reader of a printed text that takes nothing where it gives no text. -/
def Visible (p : Reader String) : Prop := ∀ ts us, p ts = .ok ("", us) → us = ts

namespace Visible

variable {p : Reader String}

theorem pure (s : String) : Visible (pure s) := by
  intro ts us h
  cases h
  rfl

/-- What is taken only where a token is ahead. -/
theorem eatIf {q : Token → Bool} {p r : Reader String} (hp : Gives p (· ≠ ""))
    (hr : Visible r) : Visible (do if ← Reader.eatIf q then p else r) := by
  intro ts us h
  obtain ⟨b, vs, hb, hrest⟩ := bind_eq_ok_iff.1 h
  rcases eatIf_eq_ok hb with ⟨rfl, -⟩ | ⟨rfl, rfl, -⟩
  · exact absurd rfl (hp _ _ _ hrest)
  · exact hr _ _ hrest

/-- What is taken only where some words are ahead. -/
theorem eatWords {ks : List String} {p r : Reader String} (hp : Gives p (· ≠ ""))
    (hr : Visible r) : Visible (do if ← Reader.eatWords ks then p else r) := by
  intro ts us h
  obtain ⟨b, vs, hb, hrest⟩ := bind_eq_ok_iff.1 h
  cases b with
  | true => exact absurd rfl (hp _ _ _ hrest)
  | false =>
    rw [eatWords_eq_ok_false hb] at hrest
    exact hr _ _ hrest

/-- What is taken only where one of some words is ahead. -/
theorem eatOneOf {ks : List String} {f : Option String → Reader String}
    (hf : ∀ k, Gives (f (some k)) (· ≠ "")) (hr : Visible (f none)) :
    Visible (Reader.eatOneOf ks >>= f) := by
  intro ts us h
  obtain ⟨o, vs, ho, hrest⟩ := bind_eq_ok_iff.1 h
  cases o with
  | some k => exact absurd rfl (hf k _ _ _ hrest)
  | none =>
    rw [(eatOneOf_eq_ok_none ho).1] at hrest
    exact hr _ _ hrest

theorem optional (ks : List String) (p : Reader String) : Visible (Level.optional ks p) :=
  .eatWords (.bind fun _ => .pure (by simp)) (.pure _)

end Visible

/-! ### The clauses behind a condition -/

variable {lv : Level}

theorem visible_grouping : Visible lv.grouping := by
  refine .eatWords (.bind fun all => ?_) (.pure _)
  have hrest : ∀ items, Gives (do
      let modifiers ← Level.groupModifiers (← get).length
      return " GROUP BY " ++ items ++ modifiers) (· ≠ "") :=
    fun items => .bind fun _ => .bind fun _ => .pure (by simp)
  exact .ite (.bind fun _ => hrest _) (.bind fun _ => .bind fun _ => hrest _)

theorem visible_windows : Visible lv.windows := by
  intro ts us h
  rw [Level.windows, bind_of_ok (atWord_apply _ ts)] at h
  split at h
  · obtain ⟨w, vs, hw, hrest⟩ := bind_eq_ok_iff.1 h
    obtain ⟨q, ws, hq, hr⟩ := bind_eq_ok_iff.1 hrest
    obtain ⟨hempty, rfl⟩ := Prod.mk.inj (pure_eq_ok_iff.1 hr)
    obtain ⟨rfl, rfl⟩ := String.append_eq_empty_iff.1 hempty.symm
    rw [Visible.optional _ _ _ _ hw] at hq
    exact Visible.optional _ _ _ _ hq
  · obtain ⟨q, vs, hq, hrest⟩ := bind_eq_ok_iff.1 h
    by_cases hempty : q = ""
    · subst hempty
      cases hrest
      exact Visible.optional _ _ _ _ hq
    · rw [if_neg (by simpa using hempty)] at hrest
      obtain ⟨w, ws, -, hr⟩ := bind_eq_ok_iff.1 hrest
      have hjoined := (Prod.mk.inj (pure_eq_ok_iff.1 hr)).1
      exact absurd (String.append_eq_empty_iff.1 hjoined.symm).1 hempty

theorem visible_hierarchy : Visible lv.hierarchy := by
  intro ts us h
  rw [Level.hierarchy, bind_of_ok (atWord_apply _ ts)] at h
  split at h
  · obtain ⟨c, vs, -, hrest⟩ := bind_eq_ok_iff.1 h
    have hstart : Gives (do
        if ← eatWords ["START", "WITH"] then
          return " START WITH " ++ (← lv.text) ++ c
        else fail) (· ≠ "") :=
      .bind fun _ => .ite (.bind fun _ => .pure (by simp)) .fail
    exact absurd rfl (Gives.ite .fail hstart _ _ _ hrest)
  · rw [bind_of_ok (atWord_apply _ ts)] at h
    split at h
    · obtain ⟨s, vs, -, hrest⟩ := bind_eq_ok_iff.1 h
      by_cases hempty : s = ""
      · subst hempty
        cases hrest
      · rw [if_neg (by simpa using hempty)] at hrest
        have hconnect : ∀ c : String, Gives (pure (s ++ c)) (· ≠ "") :=
          fun c => .pure fun hjoined => hempty (String.append_eq_empty_iff.1 hjoined).1
        exact absurd rfl (Gives.bind (fun c => .ite .fail (hconnect c)) _ _ _ hrest)
    · cases h
      rfl

theorem visible_fetch : Visible Level.fetch := by
  refine .eatIf (.bind fun o => ?_) (.pure _)
  cases o with
  | none => exact .fail
  | some k =>
    have hending : ∀ count percent : String, Gives (do
        let ending ←
          if ← eatWord "ONLY" then pure "ONLY"
          else if ← eatWords ["WITH", "TIES"] then pure "WITH TIES"
          else fail
        return " FETCH FIRST" ++ count ++ percent ++ " ROWS " ++ ending) (· ≠ "") := by
      intro count percent
      repeat' first
        | exact .pure (by simp)
        | exact .bind fun _ => .pure (by simp)
        | refine .ite ?_ ?_
        | refine .bind fun _ => ?_
    refine .bind fun row => .ite (.bind fun _ => hending _ _) ?_
    refine .bind fun v => .bind fun percent => .bind fun rows => ?_
    cases rows with
    | none => exact .bind fun _ => hending _ _
    | some _ => exact .bind fun _ => hending _ _

theorem visible_locks (budget : Nat) : Visible (Level.locks budget) := by
  cases budget with
  | zero => exact .pure _
  | succ budget =>
    refine .eatIf (.bind fun o => ?_) (.pure _)
    cases o with
    | none => exact .fail
    | some k =>
      repeat' first
        | exact .pure (by simp)
        | refine .ite ?_ ?_
        | refine .bind fun _ => ?_

theorem visible_setOperations (budget : Nat) : Visible (lv.setOperations budget) := by
  cases budget with
  | zero => exact .pure _
  | succ budget =>
    refine .eatOneOf (fun k => ?_) (.pure _)
    have hoperand : Gives (lv.setOperand k) (· ≠ "") := by
      have hlead : ∀ how : Option String, Gives (do
          return " " ++ k ++ spaced how ++ " " ++ (← lv.queryPart)) (· ≠ "") :=
        fun _ => .bind fun _ => .pure (by simp)
      unfold Level.setOperand
      repeat' first
        | exact .bind fun _ => hlead _
        | refine .ite ?_ ?_
        | refine .bind fun _ => ?_
    exact .bind_of hoperand fun s hs => .bind fun _ => .pure (by simp [hs])

/-- The clauses of the condition's own query show what they take. -/
theorem visible_selectTail : Visible lv.selectTail := by
  intro ts us h
  obtain ⟨grouping, _, h1, h⟩ := bind_eq_ok_iff.1 h
  obtain ⟨cluster, _, h2, h⟩ := bind_eq_ok_iff.1 h
  obtain ⟨distribute, _, h3, h⟩ := bind_eq_ok_iff.1 h
  obtain ⟨sort, _, h4, h⟩ := bind_eq_ok_iff.1 h
  obtain ⟨having, _, h5, h⟩ := bind_eq_ok_iff.1 h
  obtain ⟨windows, _, h6, h⟩ := bind_eq_ok_iff.1 h
  obtain ⟨hierarchy, _, h7, h⟩ := bind_eq_ok_iff.1 h
  obtain ⟨hempty, rfl⟩ := Prod.mk.inj (pure_eq_ok_iff.1 h)
  have hparts := hempty.symm
  simp only [String.append_eq_empty_iff] at hparts
  obtain ⟨⟨⟨⟨⟨⟨rfl, rfl⟩, rfl⟩, rfl⟩, rfl⟩, rfl⟩, rfl⟩ := hparts
  rw [visible_hierarchy _ _ h7, visible_windows _ _ h6, Visible.optional _ _ _ _ h5,
    Visible.optional _ _ _ _ h4, Visible.optional _ _ _ _ h3, Visible.optional _ _ _ _ h2,
    visible_grouping _ _ h1]

/-! ### What is taken and not shown -/

/-- The words `LIMIT ALL` in front of some tokens, or nothing. -/
inductive LimitAll : List Token → List Token → Prop
  | absent (ts : List Token) : LimitAll ts ts
  | present {v w : String} (ts : List Token) :
      keywordSpelling v = "LIMIT" → keywordSpelling w = "ALL" →
      LimitAll (.word v none :: .word w none :: ts) ts

theorem isKeyword_iff {k : String} {t : Token} :
    t.isKeyword k = true ↔ ∃ v, t = .word v none ∧ keywordSpelling v = k := by
  cases t with
  | word v q =>
    cases q with
    | none => simp [Token.isKeyword]
    | some c => simp [Token.isKeyword]
  | _ => simp [Token.isKeyword]

theorem gives_offset : Gives lv.offset (· ≠ "") :=
  .bind fun _ => .bind fun _ => .pure (by simp)

/-- Reads what may stand behind the count of a limit, which is shown as the given text. -/
def Level.limitEnd (lv : Level) (shown : String) (early : Option String) : Reader String := do
  let by_ ← if ← eatWord "BY" then pure (" BY " ++ (← lv.texts)) else pure ""
  let late ←
    match early with
    | some o => pure o
    | none => if ← eatWord "OFFSET" then lv.offset else pure ""
  return shown ++ late ++ by_

/-- Reads what may stand behind a limit: another number after a comma, or the end. -/
def Level.limitRest (lv : Level) (all : Bool) (early : Option String) (count : String) :
    Reader String := do
  if !all && early.isNone && (← atSymbol ",") then
    expect ","
    return " LIMIT " ++ count ++ ", " ++ (← lv.text)
  lv.limitEnd (if all then "" else " LIMIT " ++ count) early

/-- Reads limits behind an early `OFFSET`, or without one. -/
def Level.limitsAfter (lv : Level) (early : Option String) : Reader String := do
  if ← eatWord "LIMIT" then
    let all ← eatWord "ALL"
    let count ← if all then pure "" else lv.text
    lv.limitRest all early count
  else return early.getD ""

theorem limits_eq : lv.limits = (do
    let early ← if ← eatWord "OFFSET" then pure (some (← lv.offset)) else pure none
    lv.limitsAfter early) := rfl

theorem gives_limitEnd {shown : String} {early : Option String}
    (h : shown ≠ "" ∨ ∃ o ∈ early, o ≠ "") : Gives (lv.limitEnd shown early) (· ≠ "") := by
  unfold Level.limitEnd
  have hend : ∀ late by_ : String, shown ≠ "" ∨ late ≠ "" →
      Gives (pure (shown ++ late ++ by_)) (· ≠ "") := by
    intro late by_ hor
    refine .pure fun hempty => ?_
    obtain ⟨hfront, -⟩ := String.append_eq_empty_iff.1 hempty
    obtain ⟨hshown, hlate⟩ := String.append_eq_empty_iff.1 hfront
    exact hor.elim (· hshown) (· hlate)
  cases early with
  | some o =>
    have hor : shown ≠ "" ∨ o ≠ "" := by simpa using h
    repeat' first
      | exact hend _ _ hor
      | refine .ite ?_ ?_
      | refine .bind fun _ => ?_
  | none =>
    have hor : shown ≠ "" := by simpa using h
    repeat' first
      | exact hend _ _ (.inl hor)
      | refine .ite ?_ ?_
      | refine .bind fun _ => ?_

/-- Without a count nothing is shown only where nothing is taken. -/
theorem visible_limitEnd : Visible (lv.limitEnd "" none) := by
  unfold Level.limitEnd
  refine .eatIf ?_ ?_
  · refine .bind fun columns => .bind_of (R := (· ≠ "")) (.pure (by simp)) fun by_ hby => ?_
    have hend : ∀ late : String, Gives (pure ("" ++ late ++ by_)) (· ≠ "") :=
      fun late => .pure fun hempty => hby (String.append_eq_empty_iff.1 hempty).2
    exact .bind fun _ => .ite (.bind fun _ => hend _) (.bind fun _ => hend _)
  · intro ts us h
    rw [bind_of_ok (pure_apply "" ts)] at h
    refine Visible.eatIf ?_ (.pure _) _ _ h
    exact .bind_of gives_offset fun o ho => .pure (by simpa using ho)

/-- A count is shown, and so is an early `OFFSET`. -/
theorem gives_limitRest {all : Bool} {early : Option String}
    (h : all = false ∨ ∃ o ∈ early, o ≠ "") (count : String) :
    Gives (lv.limitRest all early count) (· ≠ "") := by
  refine .bind fun _ => .ite ?_ (gives_limitEnd ?_)
  · exact .bind fun _ => .bind fun _ => .pure (by simp)
  · rcases h with rfl | h
    · exact .inl (by simp)
    · exact .inr h

theorem gives_limitsAfter {o : String} (ho : o ≠ "") :
    Gives (lv.limitsAfter (some o)) (· ≠ "") := by
  have hrest : ∀ all count, Gives (lv.limitRest all (some o) count) (· ≠ "") :=
    fun all count => gives_limitRest (.inr ⟨o, rfl, ho⟩) count
  refine .bind fun limit => .ite (.bind fun all => ?_) (.pure ho)
  exact .ite (.bind fun _ => hrest _ _) (.bind fun _ => hrest _ _)

theorem limitAll_of_limitsAfter (h : lv.limitsAfter none ts = .ok ("", us)) : LimitAll ts us := by
  unfold Level.limitsAfter at h
  obtain ⟨limit, vs, hlimit, hrest⟩ := bind_eq_ok_iff.1 h
  rcases eatIf_eq_ok hlimit with ⟨rfl, t, rfl, ht⟩ | ⟨rfl, rfl, -⟩
  · rw [if_pos rfl] at hrest
    obtain ⟨all, ws, hall, hcount⟩ := bind_eq_ok_iff.1 hrest
    rcases eatIf_eq_ok hall with ⟨rfl, u, rfl, hu⟩ | ⟨rfl, rfl, -⟩
    · obtain ⟨v, rfl, hv⟩ := isKeyword_iff.1 ht
      obtain ⟨w, rfl, hw⟩ := isKeyword_iff.1 hu
      rw [visible_limitEnd _ _ hcount]
      exact .present ws hv hw
    · rw [if_neg Bool.false_ne_true] at hcount
      obtain ⟨count, xs, -, hlimit⟩ := bind_eq_ok_iff.1 hcount
      exact absurd rfl (gives_limitRest (.inl rfl) count _ _ _ hlimit)
  · cases hrest
    exact .absent _

/-- Limits that print as nothing are `LIMIT ALL`, or there are none. -/
theorem limitAll_of_limits (h : lv.limits ts = .ok ("", us)) : LimitAll ts us := by
  rw [limits_eq] at h
  obtain ⟨offset, vs, ho, hrest⟩ := bind_eq_ok_iff.1 h
  rcases eatIf_eq_ok ho with ⟨rfl, -⟩ | ⟨rfl, rfl, -⟩
  · rw [if_pos rfl] at hrest
    obtain ⟨o, ws, ho, hlimits⟩ := bind_eq_ok_iff.1 hrest
    exact absurd rfl (gives_limitsAfter (gives_offset _ _ _ ho) _ _ _ hlimits)
  · exact limitAll_of_limitsAfter hrest

theorem limitAll_of_queryTail (h : lv.queryTail ts = .ok ("", us)) : LimitAll ts us := by
  obtain ⟨order, _, h1, h⟩ := bind_eq_ok_iff.1 h
  obtain ⟨limits, vs, h2, h⟩ := bind_eq_ok_iff.1 h
  obtain ⟨settings, ws, h3, h⟩ := bind_eq_ok_iff.1 h
  obtain ⟨fetch, xs, h4, h⟩ := bind_eq_ok_iff.1 h
  obtain ⟨_, _, hget, h⟩ := bind_eq_ok_iff.1 h
  cases hget
  obtain ⟨locks, _, h5, h⟩ := bind_eq_ok_iff.1 h
  obtain ⟨format, _, h6, h⟩ := bind_eq_ok_iff.1 h
  obtain ⟨hempty, rfl⟩ := Prod.mk.inj (pure_eq_ok_iff.1 h)
  have hparts := hempty.symm
  simp only [String.append_eq_empty_iff] at hparts
  obtain ⟨⟨⟨⟨⟨rfl, rfl⟩, rfl⟩, rfl⟩, rfl⟩, rfl⟩ := hparts
  have hlimits := limitAll_of_limits h2
  rw [Visible.optional _ _ _ _ h1] at hlimits
  rwa [Visible.optional _ _ _ _ h6, visible_locks _ _ _ h5, visible_fetch _ _ h4,
    Visible.optional _ _ _ _ h3]

/-- Tokens at which the statements of a clause end: separators and nothing else, or the
keyword `END` with whatever stands behind it. -/
inductive EndsStatements : List Token → Prop
  | separators {ts : List Token} : (∀ t ∈ ts, t = .symbol ";") → EndsStatements ts
  | ending {v : String} (ts : List Token) :
      keywordSpelling v = "END" → EndsStatements (.word v none :: ts)

theorem separators_eq_ok {n : Nat} {b : Bool} (h : separators n ts = .ok (b, us)) :
    ∃ vs, ts = vs ++ us ∧ (∀ t ∈ vs, t = .symbol ";") ∧ (b = false → vs = []) := by
  induction n generalizing ts us b with
  | zero =>
    cases h
    exact ⟨[], rfl, nofun, fun _ => rfl⟩
  | succ n ih =>
    obtain ⟨e, vs, he, hrest⟩ := bind_eq_ok_iff.1 h
    rcases eatIf_eq_ok he with ⟨rfl, t, rfl, ht⟩ | ⟨rfl, rfl, -⟩
    · rw [if_pos rfl] at hrest
      obtain ⟨e, ws, he, hr⟩ := bind_eq_ok_iff.1 hrest
      cases hr
      obtain ⟨xs, rfl, hxs, -⟩ := ih he
      exact ⟨t :: xs, rfl, List.forall_mem_cons.2 ⟨isSymbol_iff.1 ht, hxs⟩, nofun⟩
    · cases hrest
      exact ⟨[], rfl, nofun, fun _ => rfl⟩

/-- No further statement is counted only where the statements end. -/
theorem endsStatements_of_moreStatements {n : Nat} (h : moreStatements lv n ts = .ok (0, us)) :
    EndsStatements ts := by
  cases n with
  | zero => cases h
  | succ n =>
    rw [moreStatements, bind_of_ok (get_apply ts)] at h
    obtain ⟨separated, vs, hs, hrest⟩ := bind_eq_ok_iff.1 h
    obtain ⟨ws, rfl, hws, hnone⟩ := separators_eq_ok hs
    rw [bind_of_ok (get_apply vs)] at hrest
    split at hrest
    · rename_i hempty
      rw [List.isEmpty_iff.1 hempty, List.append_nil]
      exact .separators hws
    · split at hrest
      · obtain ⟨_, _, -, hrest⟩ := bind_eq_ok_iff.1 hrest
        obtain ⟨more, _, -, hr⟩ := bind_eq_ok_iff.1 hrest
        cases hr
      · rename_i hseparated
        obtain rfl := hnone (Bool.eq_false_iff.2 hseparated)
        rw [bind_of_ok (atWord_apply _ _)] at hrest
        split at hrest
        · rename_i hend
          cases vs with
          | nil => cases hend
          | cons t vs =>
            obtain ⟨v, rfl, hv⟩ := isKeyword_iff.1 hend
            exact .ending vs hv
        · cases hrest

/-- Tokens that may stand behind a condition without being noticed. -/
def Unnoticed (ts : List Token) : Prop := ∃ us, LimitAll ts us ∧ EndsStatements us

/-- What follows the condition of a clause that has nothing else to show. -/
theorem unnoticed_of_readClause {vs : List Token} {r : Reading} (h : readClause ts = .ok (r, vs))
    (htail : r.selectTail = "") (hsets : r.sets = "") (hquery : r.queryTail = "")
    (hone : r.statements = 1) :
    ∃ us, (Level.ofDepth 47).expression Strength.none ts = .ok (r.condition, us) ∧
      Unnoticed us := by
  obtain ⟨t, us, ht, h⟩ := bind_eq_ok_iff.1 h
  obtain ⟨selectTail, ws, hws, h⟩ := bind_eq_ok_iff.1 h
  obtain ⟨_, _, hget, h⟩ := bind_eq_ok_iff.1 h
  cases hget
  obtain ⟨sets, xs, hxs, h⟩ := bind_eq_ok_iff.1 h
  obtain ⟨queryTail, ys, hys, h⟩ := bind_eq_ok_iff.1 h
  obtain ⟨_, _, hget, h⟩ := bind_eq_ok_iff.1 h
  cases hget
  obtain ⟨more, _, hmore, h⟩ := bind_eq_ok_iff.1 h
  cases h
  subst htail hsets hquery
  obtain rfl : more = 0 := Nat.succ.inj hone
  refine ⟨us, ht, ys, ?_, endsStatements_of_moreStatements hmore⟩
  have hlimit := limitAll_of_queryTail hys
  rwa [visible_setOperations _ _ _ hxs, visible_selectTail _ _ hws] at hlimit

end Sql
end RecordSieve
