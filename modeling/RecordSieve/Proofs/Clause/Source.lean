import Mathlib.Data.List.DropRight
import Mathlib.Data.List.Forall2
import RecordSieve.Proofs.Clause.Soundness
/-!
# RecordSieve.Proofs.Clause.Source

The source form of a condition: the expression that was read, written out again with its
own names, number tokens and quotes. It is the printed form but for quoted texts, where
printing leaves pairs of quote characters and those after a backslash as they are, so that
a text with such a pair does not come back; the source form doubles every quote character.

The source form of what was read is cut into the tokens that it was read from
(`Sql.Reads.rewrites`), except that keywords are spelled in one way (`Token.Alike`).
-/

namespace RecordSieve

open Sql (Token BinaryOp Node Name Value Lowers Reads ReadsConstant ReadsItem ReadsItems ReadsIn)
open Text (Delimited isDelimiter)

/-! ### The source form -/

namespace Sql

/-- The source form of a name. -/
def Name.source (n : Name) : List Char :=
  match n.quote with
  | none => n.value.toList
  | some q => Text.Quoted.encode q n.value.toList

/-- The source form of a constant. -/
def Value.source : Value → List Char
  | text body => Text.Quoted.encode '\'' body.toList
  | doubleQuoted body => Text.Quoted.encode '"' body.toList
  | v => v.render

mutual

/-- The source form of an expression. What is known by its printed form only stays so. -/
def Node.source : Node → List Char
  | .name n => n.source
  | .path parts => joined ['.'] (parts.map Name.source)
  | .value v => v.source
  | .unary op e => op.render ++ e.source
  | .binary l op r => l.source ++ ' ' :: (op.symbol.toList ++ ' ' :: r.source)
  | .nested e => '(' :: (e.source ++ [')'])
  | .tuple es => '(' :: (sources es ++ [')'])
  | .inList e es negated =>
    e.source ++ (if negated then " NOT IN (" else " IN (").toList ++ sources es ++ [')']
  | e => e.render

/-- Source forms between commas. -/
def sources : List Node → List Char
  | [] => []
  | [e] => e.source
  | e :: es => e.source ++ ',' :: ' ' :: sources es

end

section

variable (e l r : Node) (v : Value) (op : BinaryOp)

theorem source_name (n : Name) : (Node.name n).source = n.source := by rw [Node.source]

theorem source_value : (Node.value v).source = v.source := by rw [Node.source]

theorem source_unary (op : UnaryOp) : (Node.unary op e).source = op.render ++ e.source := by
  rw [Node.source]

theorem source_binary :
    (Node.binary l op r).source = l.source ++ ' ' :: (op.symbol.toList ++ ' ' :: r.source) := by
  rw [Node.source]

theorem source_nested : (Node.nested e).source = '(' :: (e.source ++ [')']) := by rw [Node.source]

end

/-- The keywords of conditions. -/
def conditionWords : List String := ["AND", "OR", "NOT", "IN", "TRUE", "FALSE"]

/-- Tokens that are the same in a condition: equal ones, spellings of one keyword, and the
two spellings of equality. -/
inductive Token.Alike : Token → Token → Prop
  | refl (t : Token) : Alike t t
  | keyword {v w : String} : keywordSpelling v = keywordSpelling w →
      keywordSpelling w ∈ conditionWords → Alike (.word v none) (.word w none)
  | equality : Alike (.symbol "==") (.symbol "=")

/-! ### Words come back -/

theorem lexes_startedName {start parts rest : List Char} (hstart : StartsName start)
    (hparts : ∀ c ∈ parts, isNamePart c = true) (hrest : Delimited rest) :
    Lexes (start ++ parts ++ rest) [.word (String.ofList (start ++ parts)) none] rest := by
  have hend : ∀ d ∈ rest.head?, isNamePart d = false :=
    fun d hd => Text.isNamePart_of_isDelimiter (hrest d hd)
  have hname : lexName start (parts ++ rest) =
      .token (.word (String.ofList (start ++ parts)) none) rest := by
    rw [lexName, Text.takeWhile_append hparts hend, Text.dropWhile_append hparts hend]
  have hle : rest.length ≤ (parts ++ rest).length := by
    rw [List.length_append]
    exact Nat.le_add_left _ _
  cases hstart with
  | @letter c hc => exact lexes_word hc hparts hrest
  | @hash c h1 h2 h3 =>
    have hstep : ∀ w, step w '#' (c :: (parts ++ rest)) =
        some (.token (.word (String.ofList (['#', c] ++ parts)) none), rest) := by
      intro w
      show lexHash (c :: (parts ++ rest)) = _
      unfold lexHash
      simp only [if_neg h1, if_neg h2, if_neg h3, hname]
      rfl
    exact .token hstep (Nat.le_succ_of_le hle)
  | @single c hc =>
    simp only [List.mem_cons, List.not_mem_nil, or_false, not_or] at hc
    obtain ⟨h1, h2, h3, h4⟩ := hc
    have h5 : ¬(c = ' ' ∨ c = '\'' ∨ c = '"' ∨ c = '\x60') := by simpa using h4
    have hstep : ∀ w, step w '@' (c :: (parts ++ rest)) =
        some (.token (.word (String.ofList (['@', c] ++ parts)) none), rest) := by
      intro w
      show lexAt (c :: (parts ++ rest)) = _
      unfold lexAt
      simp only [if_neg h1, if_neg h2, if_neg h3, if_neg h5, hname]
      rfl
    exact .token hstep (Nat.le_succ_of_le hle)
  | @double c hc =>
    have hstep : ∀ w, step w '@' ('@' :: c :: (parts ++ rest)) =
        some (.token (.word (String.ofList (['@', '@', c] ++ parts)) none), rest) := by
      intro w
      show (if c = ' ' then _ else lexName ['@', '@', c] (parts ++ rest)) = _
      rw [if_neg hc, hname]
      rfl
    exact .token hstep (Nat.le_succ_of_le (Nat.le_succ_of_le hle))

/-- A token that is cut off its source form again, if it is a word. -/
def Token.Recurs : Token → Prop
  | .word v q => IsCutInto (Name.source ⟨v, q⟩) [.word v q]
  | _ => True

/-- The words of a text are cut off their source forms. -/
theorem recurs_of_mem_tokens {cs : List Char} {ts : List Token} (h : tokens cs = some ts) :
    ∀ t ∈ ts, t.Recurs := by
  refine forall_mem_tokens (fun us t rest htakes => ?_) h
  cases htakes with
  | @name start vs hstart =>
    intro rest hrest
    have hparts : ∀ c ∈ vs.takeWhile isNamePart, isNamePart c = true :=
      fun c hc => List.all_eq_true.1 List.all_takeWhile c hc
    have hlexes := lexes_startedName hstart hparts hrest
    rwa [Name.source, String.toList_ofList]
  | @quotedName q vs body _ hq _ =>
    intro rest hrest
    have hlexes := lexes_quotedName hq body hrest
    rwa [Name.source, String.toList_ofList]
  | other ht =>
    cases t with
    | word v q => cases ht
    | _ => trivial
  | _ => trivial

/-! ### Expressions come back -/

/-- A text is cut into tokens like those that some tokens have in front of others, and
there is no separator of statements among them. -/
def Rewrites (cs : List Char) (ts us : List Token) : Prop :=
  ∃ vs ws, ts = vs ++ us ∧ (∀ v ∈ vs, v ≠ .symbol ";") ∧ IsCutInto cs ws ∧
    List.Forall₂ Token.Alike vs ws

namespace Rewrites

variable {cs xs ys : List Char} {ts us vs : List Token}

theorem append (hx : Rewrites xs ts us) (hy : Rewrites ys us vs) (hd : Delimited ys) :
    Rewrites (xs ++ ys) ts vs := by
  obtain ⟨as, bs, rfl, hsep, hcut, halike⟩ := hx
  obtain ⟨cs, ds, rfl, hsep', hcut', halike'⟩ := hy
  refine ⟨as ++ cs, bs ++ ds, (List.append_assoc ..).symm, ?_, hcut.append hcut' hd, ?_⟩
  · exact List.forall_mem_append.2 ⟨hsep, hsep'⟩
  · exact List.rel_append halike halike'

/-- One token. -/
theorem token {t w : Token} (h : t.Alike w) (ht : t ≠ .symbol ";") (hcut : IsCutInto cs [w])
    (ts : List Token) : Rewrites cs (t :: ts) ts :=
  ⟨[t], [w], rfl, by simpa using ht, hcut, .cons h .nil⟩

theorem space (h : Rewrites cs ts us) : Rewrites (' ' :: cs) ts us := by
  obtain ⟨as, bs, rfl, hsep, hcut, halike⟩ := h
  exact ⟨as, bs, rfl, hsep, hcut.blank (by decide), halike⟩

theorem mark {c : Char} (hc : c ∈ ['(', ')', ',']) (h : Rewrites cs ts us) :
    Rewrites (c :: cs) (.symbol (String.ofList [c]) :: ts) us := by
  obtain ⟨as, bs, rfl, hsep, hcut, halike⟩ := h
  refine ⟨_ :: as, _ :: bs, rfl, List.forall_mem_cons.2 ⟨?_, hsep⟩, hcut.mark hc,
    .cons (.refl _) halike⟩
  simp only [List.mem_cons, List.not_mem_nil, or_false] at hc
  rcases hc with rfl | rfl | rfl <;> decide

theorem nil (ts : List Token) : Rewrites [] ts ts := ⟨[], [], rfl, nofun, .nil, .nil⟩

theorem spaced (hx : Rewrites xs ts us) (hy : Rewrites ys us vs) :
    Rewrites (xs ++ ' ' :: ys) ts vs :=
  hx.append hy.space (delimited_space _)

end Rewrites

variable {d : Nat} {cs : List Char} {ts us : List Token} {t : Node}

/-- A keyword of a condition, in one of its spellings. -/
theorem Rewrites.word {k v : String} (w : String)
    (hw : Clause.Spells w.toList w.toList (.word w none)) (hk : keywordSpelling w = k)
    (hv : keywordSpelling v = k) (hword : k ∈ conditionWords) (ts : List Token) :
    Rewrites w.toList (.word v none :: ts) ts :=
  .token (.keyword (hv.trans hk.symm) (hk.symm ▸ hword)) nofun hw.isCutInto ts

/-- A number token that denotes a number, as it stands. -/
theorem isCutInto_number {token : String} {long : Bool} {n : Binary64}
    (h : (Token.number token long).StartsAsNumber) (hn : Clause.readNumber token.toList = .ok n) :
    IsCutInto (Value.number token long).source [.number token long] := by
  intro rest hrest
  have hlexes := Clause.lexes_numberToken h hn long hrest
  rwa [← List.append_assoc] at hlexes

theorem isCutInto_signed (minus : Bool) {token : String} {long : Bool} {n : Binary64}
    (h : (Token.number token long).StartsAsNumber) (hn : Clause.readNumber token.toList = .ok n) :
    IsCutInto ((if minus then '-' else '+') :: (Value.number token long).source)
      [.symbol (if minus then "-" else "+"), .number token long] := by
  intro rest hrest
  have hnumber := isCutInto_number h hn rest hrest
  have hne : ∀ c : Char, Clause.isNumberStart c = false →
      ((Value.number token long).source ++ rest).head? ≠ some c := by
    intro c hc he
    simp only [Value.source, Value.render] at he
    generalize htoken : token.toList = cs at *
    cases cs with
    | nil => cases hn
    | cons d ds =>
      cases he
      rw [h c (by rw [htoken]; rfl)] at hc
      cases hc
  cases minus with
  | true => exact (lexes_minus (hne '-' rfl) (hne '>' rfl)).append hnumber
  | false => exact (lexes_mark (by decide) _).append hnumber

theorem ReadsConstant.rewrites {v : Literal} (h : ReadsConstant d ts t us)
    (hl : Lowers t (.literal v)) (hts : ∀ u ∈ ts, u.StartsAsNumber) : Rewrites t.source ts us := by
  cases h with
  | boolean b hv =>
    rw [source_value]
    cases b with
    | true =>
      exact .word "true" (.word (by decide) (List.all_eq_true.1 (by decide))) (by decide) hv
        (by decide) us
    | false =>
      exact .word "false" (.word (by decide) (List.all_eq_true.1 (by decide))) (by decide) hv
        (by decide) us
  | number token long =>
    cases hl with
    | value hv =>
      obtain ⟨n, hn, -⟩ := Except.map_eq_ok_iff.1 hv
      have hcut := isCutInto_number (hts _ List.mem_cons_self) hn
      rw [source_value]
      exact .token (.refl (.number token long)) nofun hcut us
  | text body =>
    have hcut := (Clause.Spells.text body (.inl rfl)).isCutInto
    rw [source_value]
    exact .token (.refl (.text .plain body)) nofun hcut us
  | signed minus token long =>
    obtain ⟨_, _, n, ht, hn, -⟩ := lowers_signed_iff.1 hl
    cases ht
    have hcut := isCutInto_signed minus (hts _ (List.mem_cons_of_mem _ List.mem_cons_self)) hn
    have hsource : (Node.unary (signOp minus) (.value (.number token long))).source =
        (if minus then '-' else '+') :: (Value.number token long).source := by
      rw [source_unary, source_value]
      cases minus <;> rfl
    rw [hsource]
    refine ⟨[_, _], _, rfl, ?_, hcut, .cons (.refl _) (.cons (.refl _) .nil)⟩
    cases minus <;> simp

theorem ReadsItem.rewrites {e : Expression} {v : Literal} (h : ReadsItem d ts t us)
    (hl : Lowers t e) (hv : e.ungrouped = .literal v) (hts : ∀ u ∈ ts, u.StartsAsNumber) :
    Rewrites t.source ts us := by
  induction h generalizing e with
  | constant h =>
    obtain ⟨w, rfl⟩ := h.isLiteral hl
    exact h.rewrites hl hts
  | nested _ ih =>
    obtain ⟨f, rfl, hf⟩ := lowers_nested_iff.1 hl
    have hinner := ih hf hv fun u hu => hts u (List.mem_cons_of_mem _ hu)
    rw [source_nested]
    exact .mark (by decide) (hinner.append (.mark (by decide) (.nil _)) (delimited_close _))

theorem sources_cons {items : List Node} (h : items ≠ []) (t : Node) :
    sources (t :: items) = t.source ++ ',' :: ' ' :: sources items := by
  cases items with
  | nil => exact absurd rfl h
  | cons u us => simp [sources]

theorem ReadsItems.ne_nil {items : List Node} (h : ReadsItems d ts items us) : items ≠ [] := by
  cases h with
  | one _ => exact List.cons_ne_nil _ _
  | cons _ _ => exact List.cons_ne_nil _ _

theorem ReadsItems.rewrites {items : List Node} {vs : List Literal} (h : ReadsItems d ts items us)
    (hl : literals items = .ok vs) (hts : ∀ u ∈ ts, u.StartsAsNumber) :
    Rewrites (sources items) ts us := by
  induction h generalizing vs with
  | one h =>
    obtain ⟨f, v, ws, hf, hv, -, -⟩ := literals_cons_eq_ok_iff.1 hl
    exact h.rewrites hf hv hts
  | cons h hitems ih =>
    obtain ⟨f, v, ws, hf, hv, hws, -⟩ := literals_cons_eq_ok_iff.1 hl
    have hrest := ih hws fun u hu => hts u (h.suffix.subset (List.mem_cons_of_mem _ hu))
    rw [sources_cons hitems.ne_nil]
    exact (h.rewrites hf hv hts).append (.mark (by decide) hrest.space) (.cons (by decide) _)

/-- The words of a membership test. -/
def inSource (negated : Bool) : List Char := (if negated then "NOT IN" else "IN").toList

theorem ReadsIn.rewrites {negated : Bool} (h : ReadsIn negated ts us) :
    Rewrites (inSource negated) ts (.symbol "(" :: us) := by
  cases h with
  | plain hv => exact .word "IN" (spells_printedWord (by decide)) (by decide) hv (by decide) _
  | @negated w v _ hw hv =>
    have hnot : Rewrites "NOT".toList (.word w none :: .word v none :: .symbol "(" :: us) _ :=
      .word "NOT" (spells_printedWord (by decide)) (by decide) hw (by decide) _
    have hin : Rewrites "IN".toList (.word v none :: .symbol "(" :: us) _ :=
      .word "IN" (spells_printedWord (by decide)) (by decide) hv (by decide) _
    exact hnot.spaced hin

/-- Inequality in the spelling of the query language. -/
theorem isCutInto_inequality : IsCutInto "<>".toList [.symbol "<>"] := by
  intro rest _
  refine .token (fun w => ?_) (Nat.le_succ _)
  show lexSymbol '<' ('>' :: rest) = _
  simp [lexSymbol, longSymbols]
  rfl

theorem isCutInto_comparison (op : Comparison) :
    IsCutInto (BinaryOp.compare op).symbol.toList [.symbol (BinaryOp.compare op).symbol] := by
  intro rest hrest
  cases op with
  | ne => exact isCutInto_inequality rest hrest
  | _ => exact lexes_comparison _ hrest

/-- A symbol of a filter is a comparison, and written as it stands but for one spelling of
equality. -/
theorem alike_of_symbolOperator? {s : String} {op : BinaryOp} (h : symbolOperator? s = some op)
    (hop : op.isOfFilter = true) :
    ∃ c, op = .compare c ∧ Token.Alike (.symbol s) (.symbol op.symbol) ∧ s ≠ ";" := by
  unfold symbolOperator? at h
  repeat' split at h
  case isTrue hs =>
    cases h
    rcases hs with rfl | rfl
    · exact ⟨_, rfl, .refl _, by decide⟩
    · exact ⟨_, rfl, .equality, by decide⟩
  all_goals first
    | (rename_i hs; cases h; cases hs; exact ⟨_, rfl, .refl _, by decide⟩)
    | (cases h; cases hop)
    | cases h

/-- The token of an operator, and how the operator is written. -/
theorem rewrites_operator {o : Token} {op : BinaryOp} (ho : o.operator? = some op)
    (hop : op.isOfFilter = true) (ts : List Token) :
    Rewrites op.symbol.toList (o :: ts) ts := by
  cases o with
  | symbol s =>
    obtain ⟨c, rfl, halike, hs⟩ := alike_of_symbolOperator? ho hop
    exact .token halike (by simpa using hs) (isCutInto_comparison c) ts
  | word v q =>
    cases q with
    | some c => cases ho
    | none =>
      simp only [Token.operator?, Token.keyword?] at ho
      split at ho
      · rename_i hk
        cases ho
        exact .word "AND" (spells_printedWord (by decide)) (by decide) (Option.some.inj hk)
          (by decide) ts
      · rename_i hk
        cases ho
        exact .word "OR" (spells_printedWord (by decide)) (by decide) (Option.some.inj hk)
          (by decide) ts
      · cases ho
        cases hop
      · cases ho
        cases hop
      · cases ho
  | _ => cases ho

theorem source_inList (p : Node) (items : List Node) (negated : Bool) :
    (Node.inList p items negated).source =
      p.source ++ ' ' :: (inSource negated ++ ' ' :: '(' :: (sources items ++ [')'])) := by
  cases negated <;> simp [Node.source, inSource]

/-- The source form of what lowers is cut into the tokens it was read from. -/
theorem Reads.rewrites {e : Expression} (h : Reads d ts t us) (hl : Lowers t e)
    (hts : ∀ u ∈ ts, u.StartsAsNumber ∧ u.Recurs) : Rewrites t.source ts us := by
  induction h generalizing e with
  | @name d v q ts _ =>
    rw [source_name]
    exact .token (.refl (.word v q)) nofun (hts _ List.mem_cons_self).2 ts
  | constant h =>
    obtain ⟨v, rfl⟩ := h.isLiteral hl
    exact h.rewrites hl fun u hu => (hts u hu).1
  | @not d v ts us t hv _ ih =>
    obtain ⟨f, rfl, hf⟩ := lowers_not_iff.1 hl
    have hrest := ih hf fun u hu => hts u (List.mem_cons_of_mem _ hu)
    have hnot : Rewrites "NOT".toList (.word v none :: ts) ts :=
      .word "NOT" (spells_printedWord (by decide)) (by decide) hv (by decide) ts
    rw [source_unary]
    exact hnot.spaced hrest
  | nested _ _ ih =>
    obtain ⟨f, rfl, hf⟩ := lowers_nested_iff.1 hl
    have hinner := ih hf fun u hu => hts u (List.mem_cons_of_mem _ hu)
    rw [source_nested]
    exact .mark (by decide) (hinner.append (.mark (by decide) (.nil _)) (delimited_close _))
  | binary hleft hop _ _ ihl ihr =>
    obtain ⟨a, b, -, hfilter, ha, hb⟩ := lowers_binary_iff.1 hl
    have hl := ihl ha hts
    have hr := ihr hb fun u hu => hts u (hleft.suffix.subset (List.mem_cons_of_mem _ hu))
    rw [source_binary]
    exact hl.spaced ((rewrites_operator hop hfilter _).spaced hr)
  | @inList d ts us vs ws p items negated hprobe hin hitems ih =>
    obtain ⟨q, ls, -, hq, hls⟩ := lowers_inList_iff.1 hl
    have hlist := hitems.rewrites hls fun u hu =>
      (hts u (hprobe.suffix.subset (hin.suffix.subset hu))).1
    have hclosed := hlist.append (.mark (by decide) (.nil ws)) (delimited_close _)
    rw [source_inList]
    exact (ih hq hts).spaced (hin.rewrites.spaced (.mark (by decide) hclosed))

end Sql

/-! ### Clauses -/

namespace Clause

theorem rdropWhile_append {α : Type} {p : α → Bool} {xs ys : List α}
    (hx : ∀ x ∈ xs, p x = false) (hy : ∀ y ∈ ys, p y = true) :
    (xs ++ ys).rdropWhile p = xs := by
  rw [List.rdropWhile, List.reverse_append, List.dropWhile_append_of_pos (by simpa using hy)]
  cases hr : xs.reverse with
  | nil => simpa using hr
  | cons x rs =>
    have hmem : x ∈ xs := List.mem_reverse.1 (hr ▸ List.mem_cons_self)
    rw [List.dropWhile_cons_of_neg (by simp [hx x hmem]), ← hr, List.reverse_reverse]

/-- The tokens of a text are those of an expression and nothing else, but for separators of
statements at the end. -/
def IsOnly (normal : List Char) (t : Node) : Prop :=
  ∃ ts us, Sql.tokens normal = some ts ∧ Sql.tokens t.source = some us ∧
    List.Forall₂ Token.Alike (ts.rdropWhile (Token.isSymbol ";")) us

/-- What stands behind a condition is all that keeps a text from being only the condition. -/
theorem isOnly_iff {normal : List Char} {t : Node} {ts us vs : List Token}
    (hts : Sql.tokens normal = some (ts ++ vs)) (hus : Sql.tokens t.source = some us)
    (halike : List.Forall₂ Token.Alike ts us) (hsep : ∀ u ∈ ts, u ≠ .symbol ";") :
    IsOnly normal t ↔ ∀ v ∈ vs, v = .symbol ";" := by
  constructor
  · intro h
    obtain ⟨xs, ys, hxs, hys, hsame⟩ := h
    rw [hts] at hxs
    rw [hus] at hys
    cases hxs
    cases hys
    have hjoined : (ts ++ vs).rdropWhile (Token.isSymbol ";") ++
        (ts ++ vs).rtakeWhile (Token.isSymbol ";") = ts ++ vs := List.rdropWhile_append_rtakeWhile
    have hlength := hsame.length_eq.trans halike.length_eq.symm
    obtain ⟨-, hright⟩ := List.append_inj hjoined hlength
    intro v hv
    rw [← hright] at hv
    exact Sql.Reader.isSymbol_iff.1 (List.mem_rtakeWhile_imp hv)
  · intro h
    refine ⟨_, us, hts, hus, ?_⟩
    have hkept : ∀ u ∈ ts, Token.isSymbol ";" u = false := by
      intro u hu
      rw [Bool.eq_false_iff]
      exact fun hs => hsep u hu (Sql.Reader.isSymbol_iff.1 hs)
    rwa [rdropWhile_append hkept fun v hv => Sql.Reader.isSymbol_iff.2 (h v hv)]

/-- The tokens of a compiled clause are those of its condition in source form, followed by
tokens that nobody notices; so the clause is nothing but its condition exactly if those are
separators. -/
theorem tokens_of_compile {clause : String} {e : Expression} (h : compile clause = .ok e) :
    ∃ normal t ts us vs, normalizeChars clause.toList = .ok normal ∧ condition clause = .ok t ∧
      Sql.tokens normal = some (ts ++ vs) ∧ Sql.tokens t.source = some us ∧
      List.Forall₂ Token.Alike ts us ∧ Sql.Unnoticed vs ∧
      (IsOnly normal t ↔ ∀ v ∈ vs, v = .symbol ";") := by
  obtain ⟨normal, all, t, vs, hread⟩ := exists_isReadAs_of_compile h
  have htokens := hread.tokens
  have hfacts : ∀ u ∈ all, u.StartsAsNumber ∧ u.Recurs := fun u hu =>
    ⟨Sql.startsAsNumber_of_mem_tokens htokens u hu, Sql.recurs_of_mem_tokens htokens u hu⟩
  obtain ⟨ts, us, rfl, hsep, hcut, halike⟩ := hread.reads.rewrites hread.lowers hfacts
  have hsource : Sql.tokens t.source = some us := by
    have hlexes := hcut [] .nil
    rw [List.append_nil] at hlexes
    exact hlexes.tokens
  exact ⟨normal, t, ts, us, vs, hread.normalizes, hread.condition, htokens, hsource, halike,
    hread.unnoticed, isOnly_iff htokens hsource halike hsep⟩

/-- `a = 1 LIMIT ALL` is accepted as `a = 1`, although the words behind the condition are no
part of it. -/
theorem tokens_of_compile_limit_all :
    compile "a = 1 LIMIT ALL" =
        .ok (.compare .eq (.field "a") (.literal (.number (.ofBits 0x3FF0000000000000)))) ∧
      ¬∃ normal t, normalizeChars "a = 1 LIMIT ALL".toList = .ok normal ∧
        condition "a = 1 LIMIT ALL" = .ok t ∧ IsOnly normal t := by
  have hcompile : compile "a = 1 LIMIT ALL" =
      .ok (.compare .eq (.field "a") (.literal (.number (.ofBits 0x3FF0000000000000)))) :=
    compile_of_toOption (by decide +kernel)
  refine ⟨hcompile, fun h => ?_⟩
  obtain ⟨normal, t, hnormal, hcondition, honly⟩ := h
  obtain ⟨normal', t', ts, us, vs, hnormal', hcondition', hts, hus, halike, -, hiff⟩ :=
    tokens_of_compile hcompile
  have htokens : (normalizeChars "a = 1 LIMIT ALL".toList).toOption.bind Sql.tokens =
      some [.word "a" none, .symbol "=", .number "1", .word "LIMIT" none, .word "ALL" none] := by
    decide +kernel
  have hsource : (condition "a = 1 LIMIT ALL").toOption.bind (Sql.tokens ·.source) =
      some [.word "a" none, .symbol "=", .number "1"] := by
    decide +kernel
  rw [hnormal'] at htokens
  rw [hcondition'] at hsource
  obtain rfl : us = [.word "a" none, .symbol "=", .number "1"] :=
    Option.some.inj (hus.symm.trans hsource)
  have hall := Option.some.inj (hts.symm.trans htokens)
  cases hnormal.symm.trans hnormal'
  cases hcondition.symm.trans hcondition'
  -- Three of the five tokens belong to the condition, so one of the others is no separator.
  obtain ⟨rfl, rfl⟩ := List.append_inj hall halike.length_eq
  exact absurd (hiff.1 honly _ List.mem_cons_self) nofun

end Clause
end RecordSieve
