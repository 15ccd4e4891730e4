import RecordSieve.Proofs.Clause.Legible
import RecordSieve.Proofs.Clause.Soundness
/-!
# RecordSieve.Proofs.Clause.Shape

What the predicates of clauses look like.

`Reaches` leads down into a predicate and counts the steps for which the reader of clauses
opens a level: into a group, behind `NOT` and to the right of an operator. `IsShaped` says
what may stand at the end of such a way, and `levels` how many more levels the constants
that stand there take. A predicate is compiled from some clause exactly if each way down
ends at something of the right shape and within 47 levels (`exists_clause_iff`).

So nothing else is special about compiled predicates. One direction is what the reader of
clauses guarantees. For the other one a predicate is written with its names in quotes and
white space around its tokens (`Expression.hasTokens`), which compiles to it.
-/

namespace RecordSieve

open Sql (Token BinaryOp)
open Text (Delimited)

/-- Whether a constant is no number, or a finite one. -/
def Literal.isFinite : Literal → Bool
  | number n => n.isFinite
  | text _ | boolean _ => true

/-- How many levels the reader opens for a constant: one for a sign. -/
def Literal.levels : Literal → Nat
  | number n => if n.negative then 1 else 0
  | text _ | boolean _ => 0

theorem Literal.levels_le_one (v : Literal) : v.levels ≤ 1 := by
  cases v with
  | number n => cases hneg : n.negative <;> simp [levels, hneg]
  | _ => exact Nat.zero_le 1

theorem Literal.fits_iff {d : Nat} {v : Literal} :
    v.Fits d ↔ v.isFinite = true ∧ v.levels ≤ d := by
  cases v with
  | number n => cases hneg : n.negative <;> simp [Fits, isFinite, levels, hneg, Nat.lt_iff_add_one_le]
  | _ => simp [Fits, isFinite, levels]

namespace Expression

/-! ### Ways down -/

/-- A step to a direct part of a predicate, and how many levels the reader opens for it. -/
inductive Part : Expression → Nat → Expression → Prop
  | group (e : Expression) : Part (group e) 1 e
  | negated (e : Expression) : Part (not e) 1 e
  | probe (p : Expression) (s : ValueSet) (negated : Bool) : Part (member p s negated) 0 p
  | left {op : BinaryOp} (hop : op.isOfFilter = true) (l r : Expression) : Part (op.join l r) 0 l
  | right {op : BinaryOp} (hop : op.isOfFilter = true) (l r : Expression) : Part (op.join l r) 1 r

/-- What is reached in a predicate, and how many levels the reader opens on the way. -/
inductive Reaches : Expression → Nat → Expression → Prop
  | here (e : Expression) : Reaches e 0 e
  | down {e f x : Expression} {m n : Nat} : Part e m f → Reaches f n x → Reaches e (m + n) x

variable {e x : Expression} {d m n : Nat}

theorem Part.ordered (h : e.Part m x) (he : e.Ordered) : x.Ordered := by
  cases h with
  | group e => exact he
  | negated e => exact he.1
  | probe p s negated => exact he.1
  | left hop l r => exact ((Sql.ordered_join_iff hop).1 he).1
  | right hop l r => exact ((Sql.ordered_join_iff hop).1 he).2.1

/-- A part has the levels that the step to it leaves. -/
theorem Part.fits (h : e.Part m x) (he : e.Fits d) : m ≤ d ∧ x.Fits (d - m) := by
  cases h with
  | group e => exact he
  | negated e => exact he
  | probe p s negated => exact ⟨Nat.zero_le d, he.2.1⟩
  | left hop l r => exact ⟨Nat.zero_le d, ((fits_join hop d).1 he).2.1⟩
  | right hop l r =>
    obtain ⟨hpos, -, hr⟩ := (fits_join hop d).1 he
    exact ⟨hpos, hr⟩

theorem Reaches.ordered (h : e.Reaches n x) (he : e.Ordered) : x.Ordered := by
  induction h with
  | here e => exact he
  | down hpart _ ih => exact ih (hpart.ordered he)

/-- No way down opens more levels than there are, and what it leads to has those that are
left. -/
theorem Reaches.fits (h : e.Reaches n x) (he : e.Fits d) : n ≤ d ∧ x.Fits (d - n) := by
  induction h generalizing d with
  | here e => exact ⟨Nat.zero_le d, he⟩
  | down hpart _ ih =>
    obtain ⟨hm, hf⟩ := hpart.fits he
    obtain ⟨hn, hx⟩ := ih hf
    rw [Nat.sub_sub] at hx
    exact ⟨by omega, hx⟩

/-! ### What stands there -/

/-- What the top of a compiled predicate is like: its numbers are finite, its lists are
sets of the constants that they were written with, one at least, and its operands are of
the kinds that the precedence of its operator admits. -/
def IsShaped : Expression → Prop
  | literal v => v.isFinite = true
  | field _ | group _ => True
  | list _ => False
  | or _ r => r.isOr = false
  | and l r => l.isOr = false ∧ r.isOr = false ∧ r.isAnd = false
  | not e => e.isOr = false ∧ e.isAnd = false
  | compare _ l r => l.isTested = true ∧ r.isOperand = true
  | member p s _ =>
    p.isTested = true ∧ s.values ≠ [] ∧ s = .ofList s.values ∧ ∀ v ∈ s.values, v.isFinite = true

/-- How many levels the reader opens for the constants at the top of a predicate: one for
a sign, and one for the items of a list. -/
def levels : Expression → Nat
  | literal v => v.levels
  | member _ s _ => if s.values.any (0 < ·.levels) then 2 else 1
  | _ => 0

/-- A list takes a level for its items, and the items theirs inside of it. -/
theorem levels_member_le_iff {p : Expression} {s : ValueSet} {negated : Bool} :
    (member p s negated).levels ≤ d ↔ 0 < d ∧ ∀ v ∈ s.values, v.levels ≤ d - 1 := by
  cases hany : s.values.any (0 < ·.levels) with
  | true =>
    have htwo : (member p s negated).levels = 2 := if_pos hany
    obtain ⟨v, hv, hlevels⟩ := List.any_eq_true.1 hany
    have hpos := of_decide_eq_true hlevels
    rw [htwo]
    refine ⟨fun hd => ⟨by omega, fun w _ => ?_⟩, fun ⟨_, hall⟩ => ?_⟩
    · have hone := w.levels_le_one
      omega
    · have hle := hall v hv
      omega
  | false =>
    have hone : (member p s negated).levels = 1 := if_neg (by simp [hany])
    rw [hone]
    refine ⟨fun hd => ⟨hd, fun v hv => ?_⟩, fun h => h.1⟩
    have hnone := List.any_eq_false.1 hany v hv
    simp only [decide_eq_true_eq] at hnone
    omega

theorem levels_le_of_fits (h : e.Fits d) : e.levels ≤ d := by
  cases e with
  | literal v => exact (Literal.fits_iff.1 h).2
  | member p s negated =>
    obtain ⟨hpos, -, -, -, hvalues⟩ := h
    exact levels_member_le_iff.2 ⟨hpos, fun v hv => (Literal.fits_iff.1 (hvalues v hv)).2⟩
  | _ => exact Nat.zero_le d

theorem isShaped_of_fits (hfits : e.Fits d) (ho : e.Ordered) : e.IsShaped := by
  cases e with
  | literal v => exact (Literal.fits_iff.1 hfits).1
  | field name => trivial
  | list vs => exact hfits
  | compare op l r => exact ho.2.2
  | and l r => exact ho.2.2
  | or l r => exact ho.2.2
  | not e => exact ho.2
  | member p s negated =>
    obtain ⟨-, -, hset, hne, hvalues⟩ := hfits
    exact ⟨ho.2, hne, hset, fun v hv => (Literal.fits_iff.1 (hvalues v hv)).1⟩
  | group e => trivial

/-- Whether each way down ends at something of the right shape, and within some levels. -/
def IsShapedWithin (d : Nat) (e : Expression) : Prop :=
  ∀ n x, e.Reaches n x → x.IsShaped ∧ n + x.levels ≤ d

theorem IsShapedWithin.here (h : e.IsShapedWithin d) : e.IsShaped ∧ e.levels ≤ d := by
  obtain ⟨hshape, hle⟩ := h 0 e (.here e)
  exact ⟨hshape, by omega⟩

theorem IsShapedWithin.part (h : e.IsShapedWithin d) (hpart : e.Part m x) :
    m ≤ d ∧ x.IsShapedWithin (d - m) := by
  obtain ⟨-, hm⟩ := h _ x (.down hpart (.here x))
  refine ⟨by omega, fun n y hy => ?_⟩
  obtain ⟨hshape, hle⟩ := h _ y (.down hpart hy)
  exact ⟨hshape, by omega⟩

/-- Operands whose shapes are what the reader asks for fit an operator between them. -/
theorem IsShapedWithin.join (op : BinaryOp) (hop : op.isOfFilter = true) {l r : Expression}
    (ihl : ∀ {d}, l.IsShapedWithin d → l.Fits d ∧ l.Ordered)
    (ihr : ∀ {d}, r.IsShapedWithin d → r.Fits d ∧ r.Ordered)
    (h : (op.join l r).IsShapedWithin d) :
    (op.join l r).Fits d ∧ l.Ordered ∧ r.Ordered := by
  obtain ⟨-, hl⟩ := h.part (.left hop l r)
  obtain ⟨hpos, hr⟩ := h.part (.right hop l r)
  obtain ⟨hfl, hol⟩ := ihl hl
  obtain ⟨hfr, hor⟩ := ihr hr
  exact ⟨(fits_join hop d).2 ⟨hpos, hfl, hfr⟩, hol, hor⟩

/-- Shapes all the way down are what the levels of the reader and its precedence ask for. -/
theorem isShapedWithin_iff : e.IsShapedWithin d ↔ e.Fits d ∧ e.Ordered := by
  constructor
  · intro h
    induction e generalizing d with
    | literal v =>
      obtain ⟨hshape, hle⟩ := h.here
      exact ⟨Literal.fits_iff.2 ⟨hshape, hle⟩, trivial⟩
    | field name => exact ⟨trivial, trivial⟩
    | list vs => exact h.here.1.elim
    | compare op l r ihl ihr =>
      obtain ⟨hfits, hol, hor⟩ := IsShapedWithin.join (.compare op) rfl ihl ihr h
      exact ⟨hfits, hol, hor, h.here.1⟩
    | and l r ihl ihr =>
      obtain ⟨hfits, hol, hor⟩ := IsShapedWithin.join .and rfl ihl ihr h
      exact ⟨hfits, hol, hor, h.here.1⟩
    | or l r ihl ihr =>
      obtain ⟨hfits, hol, hor⟩ := IsShapedWithin.join .or rfl ihl ihr h
      exact ⟨hfits, hol, hor, h.here.1⟩
    | not e ih =>
      obtain ⟨hpos, he⟩ := h.part (.negated e)
      obtain ⟨hfits, ho⟩ := ih he
      exact ⟨⟨hpos, hfits⟩, ho, h.here.1⟩
    | member p s negated ih =>
      obtain ⟨-, hp⟩ := h.part (.probe p s negated)
      obtain ⟨hfits, ho⟩ := ih hp
      obtain ⟨⟨htested, hne, hset, hfinite⟩, hle⟩ := h.here
      obtain ⟨hpos, hlevels⟩ := levels_member_le_iff.1 hle
      have hvalues : ∀ v ∈ s.values, v.Fits (d - 1) := fun v hv =>
        Literal.fits_iff.2 ⟨hfinite v hv, hlevels v hv⟩
      exact ⟨⟨hpos, hfits, hset, hne, hvalues⟩, ho, htested⟩
    | group e ih =>
      obtain ⟨hpos, he⟩ := h.part (.group e)
      obtain ⟨hfits, ho⟩ := ih he
      exact ⟨⟨hpos, hfits⟩, ho⟩
  · intro ⟨hfits, ho⟩ n x hx
    obtain ⟨hn, hx'⟩ := hx.fits hfits
    have hle := levels_le_of_fits hx'
    exact ⟨isShaped_of_fits hx' (hx.ordered ho), by omega⟩

end Expression

/-! ### Writing a predicate -/

namespace Clause

/-- Tokens that can be written in front of any row that starts with a delimiter. -/
def IsWritable (ts : List Token) : Prop :=
  ∀ us cs, Delimited cs → Written us cs → ∃ ds, Delimited ds ∧ Written (ts ++ us) ds

namespace IsWritable

variable {ts us : List Token}

theorem nil : IsWritable [] := fun _ cs hcs h => ⟨cs, hcs, h⟩

theorem append (h : IsWritable ts) (k : IsWritable us) : IsWritable (ts ++ us) := by
  intro vs cs hcs hvs
  obtain ⟨ds, hds, hwritten⟩ := k vs cs hcs hvs
  rw [List.append_assoc]
  exact h _ ds hds hwritten

theorem cons {t : Token} (h : IsWritable [t]) (k : IsWritable us) : IsWritable (t :: us) :=
  h.append k

theorem spelled {raw normal : List Char} {t : Token} (h : Spells raw normal t) :
    IsWritable [t] := fun _ _ hcs hus => ⟨_, delimited_space _, .blank rfl (.spelled h hcs hus)⟩

theorem mark {c : Char} (hc : c ∈ ['(', ')', ',']) :
    IsWritable [.symbol (String.ofList [c])] :=
  fun _ _ _ hus => ⟨_, delimited_space _, .blank rfl (.mark hc hus)⟩

theorem sign (minus : Bool) : IsWritable [.symbol (if minus then "-" else "+")] := by
  intro us cs _ hus
  have hspace : Text.isBlank ' ' = true := rfl
  exact ⟨_, delimited_space _, .blank hspace (.sign minus (.inl hspace) (.blank hspace hus))⟩

theorem parenthesized (h : IsWritable ts) :
    IsWritable (.symbol "(" :: (ts ++ [.symbol ")"])) :=
  (mark (c := '(') (by decide)).cons (h.append (mark (c := ')') (by decide)))

theorem exists_written (h : IsWritable ts) : ∃ cs, Written ts cs := by
  obtain ⟨cs, -, hcs⟩ := h [] [] .nil .nil
  rw [List.append_nil] at hcs
  exact ⟨cs, hcs⟩

end IsWritable

end Clause

open Clause (IsWritable ExpressionTokens)

theorem Literal.Fits.isWritable {d : Nat} {v : Literal} (h : v.Fits d) : IsWritable v.tokens := by
  cases v with
  | text s => exact .spelled (.text s (.inl rfl))
  | boolean b => exact .spelled (Literal.spells_boolean b)
  | number n =>
    have hn := IsWritable.spelled (Literal.spells_renderCode h.1)
    rw [Literal.tokens]
    cases n.negative with
    | true => exact (IsWritable.sign true).append hn
    | false => exact hn

theorem Literal.isWritable_itemTokens {d : Nat} {vs : List Literal} (h : ∀ v ∈ vs, v.Fits d) :
    IsWritable (itemTokens vs) := by
  fun_induction Literal.itemTokens vs with
  | case1 => exact .nil
  | case2 v => exact (h v List.mem_cons_self).isWritable
  | case3 v vs _ ih =>
    have hvs := ih fun w hw => h w (List.mem_cons_of_mem _ hw)
    exact (h v List.mem_cons_self).isWritable.append
      ((IsWritable.mark (c := ',') (by decide)).cons hvs)

namespace Expression

theorem isWritable_operator {op : BinaryOp} (hop : op.isOfFilter = true) :
    IsWritable [op.token] := .spelled (spells_operator hop)

theorem isWritable_not : IsWritable [.word "NOT" none] := .spelled (spells_printedWord (by decide))

theorem isWritable_inTokens (negated : Bool) : IsWritable (inTokens negated) := by
  have hin : IsWritable [.word "IN" none] := .spelled (spells_printedWord (by decide))
  cases negated with
  | true => exact isWritable_not.cons hin
  | false => exact hin

theorem inTokens_isIn (negated : Bool) : Clause.InTokens negated (inTokens negated) := by
  cases negated with
  | true => exact .negated rfl rfl
  | false => exact .plain rfl

/-- A predicate can be written with no more expressions open at once than there are levels
that it fits. -/
def HasTokens (e : Expression) : Prop :=
  ∀ {d : Nat}, e.Fits d → ∃ ts, ExpressionTokens (d + 1) e ts ∧ IsWritable ts

theorem HasTokens.join (op : BinaryOp) (hop : op.isOfFilter = true) {l r : Expression}
    (ihl : l.HasTokens) (ihr : r.HasTokens) : (op.join l r).HasTokens := by
  intro d hfits
  obtain ⟨hpos, hl, hr⟩ := (fits_join hop d).1 hfits
  obtain ⟨c, rfl⟩ := Nat.exists_eq_succ_of_ne_zero (Nat.ne_of_gt hpos)
  obtain ⟨ts, hts, hwl⟩ := ihl hl
  obtain ⟨us, hus, hwr⟩ := ihr hr
  have hwritable := hwl.append ((isWritable_operator hop).cons hwr)
  cases op with
  | and => exact ⟨_, .and rfl hts hus, hwritable⟩
  | or => exact ⟨_, .or rfl hts hus, hwritable⟩
  | compare op => exact ⟨_, .compare op hts hus, hwritable⟩
  | other s => cases hop

/-- Every predicate can be written so, with its names in quotes. -/
theorem hasTokens (e : Expression) : e.HasTokens := by
  induction e with
  | literal v =>
    intro d hfits
    exact ⟨_, .literal (Literal.Fits.tokens hfits), Literal.Fits.isWritable hfits⟩
  | field name =>
    intro d _
    exact ⟨_, .field (q := some '\x60') nofun, .spelled (.name name)⟩
  | list vs =>
    intro d hfits
    cases hfits
  | compare op l r ihl ihr => exact HasTokens.join (.compare op) rfl ihl ihr
  | and l r ihl ihr => exact HasTokens.join .and rfl ihl ihr
  | or l r ihl ihr => exact HasTokens.join .or rfl ihl ihr
  | not e ih =>
    intro d hfits
    obtain ⟨hpos, he⟩ := hfits
    obtain ⟨c, rfl⟩ := Nat.exists_eq_succ_of_ne_zero (Nat.ne_of_gt hpos)
    obtain ⟨ts, hts, hw⟩ := ih he
    exact ⟨_, .not rfl hts, isWritable_not.cons hw⟩
  | member p s negated ih =>
    intro d hfits
    obtain ⟨hpos, hp, hset, hne, hvalues⟩ := hfits
    obtain ⟨c, rfl⟩ := Nat.exists_eq_succ_of_ne_zero (Nat.ne_of_gt hpos)
    obtain ⟨ts, hts, hw⟩ := ih hp
    have hitems := Literal.itemTokens_of_fits hne hvalues
    have hlist := (Literal.isWritable_itemTokens hvalues).parenthesized
    rw [hset]
    exact ⟨_, .member hts (inTokens_isIn negated) hitems,
      hw.append ((isWritable_inTokens negated).append hlist)⟩
  | group e ih =>
    intro d hfits
    obtain ⟨hpos, he⟩ := hfits
    obtain ⟨c, rfl⟩ := Nat.exists_eq_succ_of_ne_zero (Nat.ne_of_gt hpos)
    obtain ⟨ts, hts, hw⟩ := ih he
    exact ⟨_, .group hts, hw.parenthesized⟩

end Expression

/-! ### Compiled predicates -/

namespace Clause

/-- A predicate is compiled from some clause exactly if, wherever one gets to in it, the
shape is right and no more than 47 levels are open. -/
theorem exists_clause_iff (e : Expression) :
    (∃ clause, compile clause = .ok e) ↔
      ∀ n x, e.Reaches n x → x.IsShaped ∧ n + x.levels ≤ 47 := by
  have hshape : e.IsShapedWithin 47 ↔ e.Fits 47 ∧ e.Ordered := Expression.isShapedWithin_iff
  rw [← Expression.IsShapedWithin, hshape]
  constructor
  · rintro ⟨clause, h⟩
    exact fits_of_compile h
  · rintro ⟨hfits, ho⟩
    obtain ⟨ts, hts, hw⟩ := e.hasTokens hfits
    obtain ⟨cs, hcs⟩ := hw.exists_written
    refine ⟨String.ofList cs, compile_of_tokens hts ho ?_⟩
    rwa [String.toList_ofList]

end Clause
end RecordSieve
