import RecordSieve.Proofs.Clause.Spelling
import RecordSieve.Proofs.Number.Printing
import RecordSieve.Sql.Operator
/-!
# RecordSieve.Proofs.Clause.Printed

The printed form of a predicate, seen by the two readers of a clause. The first reader
leaves it as it is (`Expression.isNormal_render`), for every printed number is a numeral
and every operator is in its printed spelling. The second reader cuts it into the tokens
of the predicate (`Expression.tokens`), except for names: a name without quotes is cut off
where the second reader sees its end, and its letters are not those that printing goes by.

`Fits d` says what is known of a predicate that was compiled with `d` levels left:
its numbers are finite, its lists are not empty, and it nests no deeper.
-/

namespace RecordSieve

open Sql (Token BinaryOp Lexes CutsTo)
open Text (Delimited isDelimiter)
open Clause (normalizeChars normalizeChars_of_cut)

/-! ### Texts of both readers -/

/-- A text that is its own normal form in front of a delimiter. -/
def IsNormal (cs : List Char) : Prop :=
  ∀ rest normal, Delimited rest → normalizeChars rest = .ok normal →
    normalizeChars (cs ++ rest) = .ok (cs ++ normal)

/-- A text that is cut into some tokens in front of a delimiter. -/
def IsCutInto (cs : List Char) (ts : List Token) : Prop :=
  ∀ rest, Delimited rest → Lexes (cs ++ rest) ts rest

theorem delimited_space (cs : List Char) : Delimited (' ' :: cs) := .cons (by decide) cs

theorem delimited_close (cs : List Char) : Delimited (')' :: cs) := .cons (by decide) cs

theorem Text.Delimited.append {xs ys : List Char} (hx : Delimited xs) (hy : Delimited ys) :
    Delimited (xs ++ ys) := by
  cases xs with
  | nil => exact hy
  | cons x xs => exact .cons (hx x rfl) _

theorem IsNormal.append {xs ys : List Char} (hx : IsNormal xs) (hy : IsNormal ys)
    (hd : Delimited ys) : IsNormal (xs ++ ys) := by
  intro rest normal hrest hnormal
  rw [List.append_assoc, List.append_assoc]
  exact hx _ _ (hd.append hrest) (hy _ _ hrest hnormal)

/-- A character that the first reader takes by itself is kept. -/
theorem normalizeChars_cons {c : Char} {cs normal : List Char}
    (hcut : Clause.cut c cs = (.other c, cs)) (h : normalizeChars cs = .ok normal) :
    normalizeChars (c :: cs) = .ok (c :: normal) :=
  normalizeChars_of_cut hcut rfl h

theorem IsNormal.cons {c : Char} {cs : List Char} (hc : isDelimiter c = true) (h : IsNormal cs) :
    IsNormal (c :: cs) := by
  intro rest normal hrest hnormal
  exact normalizeChars_cons (Clause.cut_delimiter hc _) (h _ _ hrest hnormal)

theorem IsNormal.nil : IsNormal [] := fun _ _ _ h => h

/-- White space around an operator is kept. -/
theorem IsNormal.spaced {xs ys zs : List Char} (hx : IsNormal xs) (hy : IsNormal ys)
    (hz : IsNormal zs) : IsNormal (xs ++ ' ' :: (ys ++ ' ' :: zs)) := by
  have hright := (hy.append (hz.cons (c := ' ') (by decide)) (delimited_space _)).cons (c := ' ')
    (by decide)
  exact hx.append hright (delimited_space _)

theorem IsNormal.parenthesized {cs : List Char} (h : IsNormal cs) :
    IsNormal ('(' :: (cs ++ [')'])) := by
  have hclose : IsNormal [')'] := .cons (by decide) .nil
  exact .cons (by decide) (h.append hclose (delimited_close _))

theorem IsCutInto.append {xs ys : List Char} {ts us : List Token} (hx : IsCutInto xs ts)
    (hy : IsCutInto ys us) (hd : Delimited ys) : IsCutInto (xs ++ ys) (ts ++ us) := by
  intro rest hrest
  rw [List.append_assoc]
  exact (hx _ (hd.append hrest)).append (hy _ hrest)

theorem IsCutInto.mark {c : Char} (hc : c ∈ ['(', ')', ',']) {cs : List Char} {ts : List Token}
    (h : IsCutInto cs ts) : IsCutInto (c :: cs) (.symbol (String.ofList [c]) :: ts) :=
  fun rest hrest => (Sql.lexes_mark (List.mem_append_left ['+'] hc) _).append (h rest hrest)

theorem IsCutInto.blank {c : Char} (hc : Text.isBlank c = true) {cs : List Char} {ts : List Token}
    (h : IsCutInto cs ts) : IsCutInto (c :: cs) ts :=
  fun rest hrest => (Sql.lexes_blank hc _).append (h rest hrest)

theorem IsCutInto.nil : IsCutInto [] [] := fun rest _ => .done rest

/-- White space around an operator holds no tokens. -/
theorem IsCutInto.spaced {xs ys zs : List Char} {ts us vs : List Token} (hx : IsCutInto xs ts)
    (hy : IsCutInto ys us) (hz : IsCutInto zs vs) :
    IsCutInto (xs ++ ' ' :: (ys ++ ' ' :: zs)) (ts ++ (us ++ vs)) := by
  have hright := IsCutInto.blank (c := ' ') (by decide)
    (hy.append (IsCutInto.blank (c := ' ') (by decide) hz) (delimited_space _))
  exact hx.append hright (delimited_space _)

/-- What stands in front of a space, alone. -/
theorem IsCutInto.lexes_space {ys : List Char} {us : List Token} (h : IsCutInto ys us)
    (zs : List Char) : Lexes (ys ++ ' ' :: zs) us zs := by
  have hlex := (h _ (delimited_space zs)).append (Sql.lexes_blank (by decide) zs)
  rwa [List.append_nil] at hlex

/-- What stands between two spaces, alone. -/
theorem IsCutInto.lexes_spaced {ys : List Char} {us : List Token} (h : IsCutInto ys us)
    (zs : List Char) : Lexes (' ' :: (ys ++ ' ' :: zs)) us zs :=
  (Sql.lexes_blank (by decide) _).append (h.lexes_space zs)

theorem IsCutInto.parenthesized {cs : List Char} {ts : List Token} (h : IsCutInto cs ts) :
    IsCutInto ('(' :: (cs ++ [')'])) (.symbol "(" :: (ts ++ [.symbol ")"])) := by
  have hclose : IsCutInto [')'] [.symbol ")"] := IsCutInto.mark (by decide) IsCutInto.nil
  exact IsCutInto.mark (by decide) (h.append hclose (delimited_close _))

/-- What is spelled in its normal form. -/
theorem Clause.Spells.isNormal {cs : List Char} {t : Token} (h : Spells cs cs t) : IsNormal cs :=
  fun _ _ hrest hnormal => h.normalizes hrest hnormal

theorem Clause.Spells.isCutInto {raw cs : List Char} {t : Token} (h : Spells raw cs t) :
    IsCutInto cs [t] :=
  fun _ hrest => h.lexes hrest

/-! ### Keywords -/

/-- The words that predicates are printed with. -/
def printedWords : List String := ["TRUE", "FALSE", "AND", "OR", "NOT", "IN"]

/-- The words of a printed predicate are their own spellings. -/
theorem spells_printedWord {s : String} (h : s ∈ printedWords) :
    Clause.Spells s.toList s.toList (.word s none) := by
  have hall : ∀ s ∈ printedWords, Expression.isPlainName s.toList = true ∧
      s.toList.all Sql.isNamePart = true := by
    decide +kernel
  exact .word (hall s h).1 (List.all_eq_true.1 (hall s h).2)

/-! ### Constants -/

namespace Literal

/-- The tokens of a printed constant. -/
def tokens : Literal → List Token
  | number n =>
    (if n.negative then [.symbol "-"] else []) ++
      [.number (String.ofList (NumberForm.clause.renderCode n.magnitude))]
  | text s => [.text .plain s]
  | boolean b => [.word (if b then "TRUE" else "FALSE") none]

/-- Whether a constant can be read with some levels left: numbers are finite, and a sign
opens a level. -/
def Fits (d : Nat) : Literal → Prop
  | number n => n.isFinite = true ∧ (n.negative = true → 0 < d)
  | _ => True

/-- The tokens of the constants of a list. -/
def itemTokens : List Literal → List Token
  | [] => []
  | [v] => v.tokens
  | v :: vs => v.tokens ++ .symbol "," :: itemTokens vs

/-- The tokens of a printed list. -/
def listTokens (vs : List Literal) : List Token := .symbol "(" :: (itemTokens vs ++ [.symbol ")"])

theorem spells_boolean (b : Bool) :
    Clause.Spells (boolean b).render (boolean b).render
      (.word (if b then "TRUE" else "FALSE") none) := by
  cases b with
  | true => exact spells_printedWord (s := "TRUE") (by decide)
  | false => exact spells_printedWord (s := "FALSE") (by decide)

/-- The unsigned text of a finite number is read as its magnitude. -/
theorem readNumber_renderCode {n : Binary64} (h : n.isFinite = true) :
    Clause.readNumber (NumberForm.clause.renderCode n.magnitude) =
      .ok (Binary64.ofCode false n.magnitude) := by
  refine Clause.readNumber_eq_ok_iff.2 ⟨NumberForm.read?_renderCode _, ?_⟩
  have hlt : n.magnitude < Binary64.infinityCode := of_decide_eq_true h
  exact decide_eq_true (Nat.lt_of_le_of_lt (Nat.min_le_left _ _) hlt)

/-- A finite number is its magnitude with its sign. -/
theorem signedNumber_ofCode {n : Binary64} (h : n.isFinite = true) :
    Sql.signedNumber n.negative (Binary64.ofCode false n.magnitude) = n := by
  obtain ⟨negative, magnitude, hlt⟩ := n
  simp only [Binary64.isFinite, decide_eq_true_eq] at h
  have hmin : min magnitude Binary64.infinityCode = magnitude := by omega
  cases negative with
  | true =>
    show (⟨true, min magnitude Binary64.infinityCode, _⟩ : Binary64) = _
    congr
  | false =>
    show (⟨false, min magnitude Binary64.infinityCode, _⟩ : Binary64) = _
    congr

/-- The unsigned text of a finite number is its own spelling. -/
theorem spells_renderCode {n : Binary64} (h : n.isFinite = true) :
    Clause.Spells (NumberForm.clause.renderCode n.magnitude)
      (NumberForm.clause.renderCode n.magnitude)
      (.number (String.ofList (NumberForm.clause.renderCode n.magnitude))) := by
  have hread := readNumber_renderCode h
  have hdecimal := NumberForm.isDecimal_renderCode n.magnitude
  generalize NumberForm.clause.renderCode n.magnitude = cs at *
  have hcs := String.toList_ofList (l := cs)
  have hspells : Clause.Spells (String.ofList cs).toList (String.ofList cs).toList
      (.number (String.ofList cs)) := by
    refine .number ?_ (by rw [hcs]; exact hread)
    rw [hcs]
    intro c hc
    cases cs with
    | nil => cases hc
    | cons d ds =>
      cases hc
      exact hdecimal.isNumberStart
  rwa [hcs] at hspells

theorem render_number {n : Binary64} (h : n.isFinite = true) :
    (number n).render = (if n.negative then ['-'] else []) ++
      NumberForm.clause.renderCode n.magnitude := by
  have hnan : n.isNaN = false := by
    simp only [Binary64.isFinite, Binary64.isNaN, decide_eq_true_eq, decide_eq_false_iff_not] at *
    omega
  show NumberForm.clause.render n = _
  rw [NumberForm.render, hnan, if_neg Bool.false_ne_true, if_pos h]
  cases n.negative with
  | true => rfl
  | false => rfl

theorem isNormal_render {d : Nat} {v : Literal} (h : v.Fits d) : IsNormal v.render := by
  cases v with
  | text s => exact (Clause.Spells.text s (.inl rfl)).isNormal
  | boolean b => exact (spells_boolean b).isNormal
  | number n =>
    rw [render_number h.1]
    have hn := (spells_renderCode h.1).isNormal
    cases n.negative with
    | false => exact hn
    | true =>
      intro rest normal hrest hnormal
      exact normalizeChars_cons (c := '-') rfl (hn _ _ hrest hnormal)

/-- A printed constant is cut into its tokens. -/
theorem isCutInto_render {d : Nat} {v : Literal} (h : v.Fits d) : IsCutInto v.render v.tokens := by
  cases v with
  | text s => exact (Clause.Spells.text s (.inl rfl)).isCutInto
  | boolean b => exact (spells_boolean b).isCutInto
  | number n =>
    rw [render_number h.1, tokens]
    have hn := (spells_renderCode h.1).isCutInto
    have hdecimal := NumberForm.isDecimal_renderCode n.magnitude
    generalize NumberForm.clause.renderCode n.magnitude = cs at *
    cases n.negative with
    | false => exact hn
    | true =>
      intro rest hrest
      have hne : ∀ c : Char, Clause.isNumberStart c = false → (cs ++ rest).head? ≠ some c := by
        intro c hc he
        cases cs with
        | nil => exact absurd rfl hdecimal.ne_nil
        | cons d ds =>
          cases he
          rw [hdecimal.isNumberStart] at hc
          cases hc
      exact (Sql.lexes_minus (hne '-' rfl) (hne '>' rfl)).append (hn rest hrest)

/-! ### Lists of constants -/

theorem isNormal_renderItems {d : Nat} {vs : List Literal} (h : ∀ v ∈ vs, v.Fits d) :
    IsNormal (renderItems vs) := by
  fun_induction renderItems vs with
  | case1 => exact .nil
  | case2 v => exact isNormal_render (h v List.mem_cons_self)
  | case3 v vs _ ih =>
    have hvs := ih fun w hw => h w (List.mem_cons_of_mem _ hw)
    have htail := (hvs.cons (c := ' ') (by decide)).cons (c := ',') (by decide)
    exact (isNormal_render (h v List.mem_cons_self)).append htail (.cons (by decide) _)

theorem isNormal_renderList {d : Nat} {vs : List Literal} (h : ∀ v ∈ vs, v.Fits d) :
    IsNormal (renderList vs) := by
  exact (isNormal_renderItems h).parenthesized

theorem itemTokens_cons {vs : List Literal} (h : vs ≠ []) (v : Literal) :
    itemTokens (v :: vs) = v.tokens ++ .symbol "," :: itemTokens vs := by
  cases vs with
  | nil => exact absurd rfl h
  | cons w ws => rfl

theorem isCutInto_renderItems {d : Nat} {vs : List Literal} (h : ∀ v ∈ vs, v.Fits d) :
    IsCutInto (renderItems vs) (itemTokens vs) := by
  fun_induction renderItems vs with
  | case1 => exact IsCutInto.nil
  | case2 v => exact isCutInto_render (h v List.mem_cons_self)
  | case3 v vs hne ih =>
    have hvs := ih fun w hw => h w (List.mem_cons_of_mem _ hw)
    have htail := IsCutInto.mark (c := ',') (by decide) (IsCutInto.blank (c := ' ') (by decide) hvs)
    rw [itemTokens_cons hne]
    exact (isCutInto_render (h v List.mem_cons_self)).append htail (.cons (by decide) _)

/-- A printed list is cut into its tokens. -/
theorem isCutInto_renderList {d : Nat} {vs : List Literal} (h : ∀ v ∈ vs, v.Fits d) :
    IsCutInto (renderList vs) (listTokens vs) := by
  exact (isCutInto_renderItems h).parenthesized

end Literal

/-! ### Predicates -/

/-- The printed form of an operator. -/
def Sql.BinaryOp.printed : BinaryOp → List Char
  | .and => "AND".toList
  | .or => "OR".toList
  | .compare op => op.symbol.toList
  | .other s => s.toList

/-- The token of a printed operator. -/
def Sql.BinaryOp.token : BinaryOp → Token
  | .and => .word "AND" none
  | .or => .word "OR" none
  | .compare op => .symbol (BinaryOp.compare op).symbol
  | .other s => .symbol s

theorem spells_operator {op : BinaryOp} (hop : op.isOfFilter = true) :
    Clause.Spells op.printed op.printed op.token := by
  cases op with
  | and => exact spells_printedWord (s := "AND") (by decide)
  | or => exact spells_printedWord (s := "OR") (by decide)
  | compare op => exact .comparison (Comparison.ofSymbol?_symbol op)
  | other s => cases hop

theorem operator?_token {op : BinaryOp} (hop : op.isOfFilter = true) :
    op.token.operator? = some op := by
  cases op with
  | compare op => cases op <;> rfl
  | other s => cases hop
  | _ => rfl

namespace Expression

/-- The token of a printed field name. -/
def fieldToken (name : String) : Token :=
  .word name (if isPlainName name.toList then none else some '\x60')

/-- The tokens of the words of a membership test. -/
def inTokens (negated : Bool) : List Token :=
  if negated then [.word "NOT" none, .word "IN" none] else [.word "IN" none]

/-- The tokens of a printed predicate. -/
def tokens : Expression → List Token
  | literal v => v.tokens
  | field name => [fieldToken name]
  | list vs => Literal.listTokens vs
  | compare op l r => l.tokens ++ (BinaryOp.compare op).token :: r.tokens
  | and l r => l.tokens ++ BinaryOp.and.token :: r.tokens
  | or l r => l.tokens ++ BinaryOp.or.token :: r.tokens
  | not e => .word "NOT" none :: e.tokens
  | member p s negated => p.tokens ++ (inTokens negated ++ Literal.listTokens s.values)
  | group e => .symbol "(" :: (e.tokens ++ [.symbol ")"])

/-- Whether a predicate can be read with some levels left. -/
def Fits : Nat → Expression → Prop
  | d, literal v => v.Fits d
  | _, field _ => True
  | _, list _ => False
  | d, compare _ l r | d, and l r | d, or l r => 0 < d ∧ l.Fits d ∧ r.Fits (d - 1)
  | d, not e | d, group e => 0 < d ∧ e.Fits (d - 1)
  | d, member p s _ =>
    0 < d ∧ p.Fits d ∧ s = .ofList s.values ∧ s.values ≠ [] ∧ ∀ v ∈ s.values, v.Fits (d - 1)

variable {op : BinaryOp} {l r : Expression}

theorem render_join (hop : op.isOfFilter = true) :
    (op.join l r).render = l.render ++ ' ' :: (op.printed ++ ' ' :: r.render) := by
  cases op with
  | and => simp [BinaryOp.join, render, BinaryOp.printed]
  | or => simp [BinaryOp.join, render, BinaryOp.printed]
  | compare op => simp [BinaryOp.join, render, BinaryOp.printed]
  | other s => cases hop

theorem tokens_join (hop : op.isOfFilter = true) :
    (op.join l r).tokens = l.tokens ++ op.token :: r.tokens := by
  cases op with
  | other s => cases hop
  | _ => rfl

theorem fits_join (hop : op.isOfFilter = true) (d : Nat) :
    (op.join l r).Fits d ↔ 0 < d ∧ l.Fits d ∧ r.Fits (d - 1) := by
  cases op with
  | other s => cases hop
  | _ => exact Iff.rfl

theorem render_member (p : Expression) (s : ValueSet) (negated : Bool) :
    (member p s negated).render = p.render ++ ' ' ::
      ((if negated then "NOT IN".toList else "IN".toList) ++ ' ' :: Literal.renderList s.values) := by
  cases negated with
  | true => simp [render]
  | false => simp [render]

/-! ### The first reader keeps what was printed -/

theorem isNormal_word {s : String} (h : isPlainName s.toList = true) : IsNormal s.toList := by
  intro rest normal hrest hnormal
  generalize s.toList = cs at *
  cases cs with
  | nil => cases h
  | cons c cs => exact normalizeChars_of_cut (Clause.cut_word h hrest) rfl hnormal

theorem isNormal_renderField (name : String) : IsNormal (renderField name.toList) := by
  unfold renderField
  by_cases h : isPlainName name.toList = true
  · rw [if_pos h]
    exact isNormal_word h
  · rw [if_neg h]
    exact (Clause.Spells.name name).isNormal

/-- The first reader leaves a printed predicate as it is. -/
theorem isNormal_render {d : Nat} {e : Expression} (h : e.Fits d) : IsNormal e.render := by
  have hjoin : ∀ (op : BinaryOp) (l r : Expression), op.isOfFilter = true → IsNormal l.render →
      IsNormal r.render → IsNormal (op.join l r).render := by
    intro op l r hop hl hr
    rw [render_join hop]
    exact hl.spaced (spells_operator hop).isNormal hr
  induction e generalizing d with
  | literal v => exact Literal.isNormal_render h
  | field name => exact isNormal_renderField name
  | list vs => cases h
  | compare op l r ihl ihr => exact hjoin (.compare op) l r rfl (ihl h.2.1) (ihr h.2.2)
  | and l r ihl ihr => exact hjoin .and l r rfl (ihl h.2.1) (ihr h.2.2)
  | or l r ihl ihr => exact hjoin .or l r rfl (ihl h.2.1) (ihr h.2.2)
  | not e ih =>
    have hnot : IsNormal "NOT".toList := (spells_printedWord (by decide)).isNormal
    exact hnot.append ((ih h.2).cons (c := ' ') (by decide)) (delimited_space _)
  | member p s negated ih =>
    have hin : IsNormal "IN".toList := (spells_printedWord (by decide)).isNormal
    have hnot : IsNormal "NOT".toList := (spells_printedWord (by decide)).isNormal
    have hnotIn := hnot.append (hin.cons (c := ' ') (by decide)) (delimited_space _)
    have hlist := Literal.isNormal_renderList h.2.2.2.2
    rw [render_member]
    cases negated with
    | true => exact (ih h.2.1).spaced hnotIn hlist
    | false => exact (ih h.2.1).spaced hin hlist
  | group e ih =>
    exact (ih h.2).parenthesized

theorem normalizeChars_render {d : Nat} {e : Expression} (h : e.Fits d) :
    normalizeChars e.render = .ok e.render := by
  have hnil : normalizeChars [] = .ok [] := by
    rw [normalizeChars, Clause.pieces_nil]
    rfl
  have hnormal := isNormal_render h [] [] .nil hnil
  rwa [List.append_nil] at hnormal

end Expression
end RecordSieve
