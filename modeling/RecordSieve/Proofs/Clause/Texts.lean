import RecordSieve.Proofs.Clause.Soundness
import RecordSieve.Proofs.Clause.Unified
import RecordSieve.Proofs.Sql.Literals
/-!
# RecordSieve.Proofs.Clause.Texts

What becomes of the quoted texts of a clause. The text literals of an expression are the text
tokens that it was read from (`Sql.Reads.spends`), and these are the quoted atoms of the normal
form as far as the reading went (`Sql.Scans.passesTexts`), if no comment and no name mark gets
in between. The atoms of the normal form are the quoted texts of the clause, except that a text
in single quotes and one in double quotes that touch are one text there
(`texts_joinQuoted_iff`). So the literals are the quoted texts of the clause exactly if no two
of them touch, unless there are tokens behind the condition (`texts_of_compile`).
-/

namespace RecordSieve

open Sql (Token Level)

/-! ### The texts of atoms -/

namespace Clause

open Text.Quoted (scan)

/-- The text of a piece, if it is quoted and no name. -/
def Piece.text? : Piece → Option String
  | quoted q body => if q = '\x60' then none else some (String.ofList body)
  | _ => none

/-- The texts of some pieces. -/
def texts (ps : List Piece) : List String := ps.filterMap Piece.text?

theorem texts_append (ps qs : List Piece) : texts (ps ++ qs) = texts ps ++ texts qs :=
  List.filterMap_append

theorem texts_cons_none {p : Piece} (h : p.text? = none) (ps : List Piece) :
    texts (p :: ps) = texts ps :=
  List.filterMap_cons_none h

theorem texts_others (cs : List Char) : texts (cs.map .other) = [] := by
  induction cs with
  | nil => rfl
  | cons c cs ih => exact ih

theorem Piece.text?_unified (p : Piece) : p.unified.text? = p.text? := by
  cases p with
  | quoted q body =>
    unfold unified
    by_cases hq : q = '"'
    · subst hq
      rfl
    · simp only [if_neg hq]
  | operator cs =>
    unfold unified
    simp only
    split <;> rfl
  | _ => rfl

theorem texts_unified (ps : List Piece) : texts (ps.map Piece.unified) = texts ps := by
  rw [texts, List.filterMap_map]
  exact List.filterMap_congr fun p _ => p.text?_unified

theorem texts_atoms (ps : List Piece) : texts (ps.flatMap Piece.atoms) = texts ps := by
  induction ps with
  | nil => rfl
  | cons p ps ih =>
    rw [List.flatMap_cons, texts_append, ih]
    cases p with
    | quoted q body => exact (texts_append [_] ps).symm
    | unterminated cs => rfl
    | operator cs => exact congrArg (· ++ texts ps) (texts_others cs)
    | number cs => exact congrArg (· ++ texts ps) (texts_others cs)
    | word cs => exact congrArg (· ++ texts ps) (texts_others cs)
    | other c => rfl

/-! ### Texts that touch -/

/-- Joining keeps the quote in front. -/
theorem head?_joinQuoted (ps : List Piece) :
    (joinQuoted ps).head?.bind Piece.quote? = ps.head?.bind Piece.quote? := by
  cases ps with
  | nil => rfl
  | cons p ps =>
    rw [joinQuoted_cons]
    rcases Piece.joinTo_cases p (joinQuoted ps) with hj | ⟨q, body, more, rest, rfl, -, hj⟩
    · rw [hj]
      rfl
    · rw [hj]
      rfl

theorem texts_cons (p : Piece) (ps : List Piece) : texts (p :: ps) = texts [p] ++ texts ps :=
  texts_append [p] ps

theorem texts_quotedText (body : List Char) (ps : List Piece) :
    texts (.quoted '\'' body :: ps) = String.ofList body :: texts ps := rfl

/-- Joining makes no texts. -/
theorem length_texts_joinQuoted_le (ps : List Piece) :
    (texts (joinQuoted ps)).length ≤ (texts ps).length := by
  induction ps with
  | nil => exact Nat.le_refl 0
  | cons p ps ih =>
    rw [joinQuoted_cons]
    rcases Piece.joinTo_cases p (joinQuoted ps) with hj | ⟨q, body, more, rest, rfl, hr, hj⟩
    · rw [hj, texts_cons p, texts_cons p ps, List.length_append, List.length_append]
      exact Nat.add_le_add_left ih _
    · have hlength : (texts (.quoted q (body ++ q :: more) :: rest)).length =
          (texts (.quoted q more :: rest)).length := by
        rw [texts_cons, texts_cons (.quoted q more), List.length_append, List.length_append]
        by_cases hq : q = '\x60'
        · simp [texts, Piece.text?, hq]
        · simp [texts, Piece.text?, hq]
      rw [hj, hlength, ← hr, texts_cons (.quoted q body), List.length_append]
      exact Nat.le_add_left_of_le ih

/-- Two pieces that are not both texts. -/
def Piece.NotBothTexts (p q : Piece) : Prop := p.text? = none ∨ q.text? = none

instance (p q : Piece) : Decidable (p.NotBothTexts q) :=
  inferInstanceAs (Decidable (p.text? = none ∨ q.text? = none))

/-- Only texts that touch are joined. -/
theorem texts_joinQuoted_iff {ps : List Piece}
    (h : ∀ p ∈ ps, ∀ q, p.quote? = some q → q = '\'' ∨ q = '\x60') :
    texts (joinQuoted ps) = texts ps ↔ ps.IsChain Piece.NotBothTexts := by
  have hnone : ∀ p ∈ ps, p.quote? ≠ some '\'' → p.text? = none := by
    intro p hp hne
    cases p with
    | quoted q body =>
      rcases h _ hp q rfl with rfl | rfl
      · exact absurd rfl hne
      · rfl
    | _ => rfl
  clear h
  induction ps with
  | nil => simp [joinQuoted]
  | cons p ps ih =>
    obtain ⟨hp, hps⟩ := List.forall_mem_cons.1 hnone
    have hrest : texts (joinQuoted ps) = texts ps ↔ ps.IsChain Piece.NotBothTexts := ih hps
    have hhead := head?_joinQuoted ps
    rw [joinQuoted_cons, List.isChain_cons]
    rcases Piece.joinTo_cases p (joinQuoted ps) with hj | ⟨q, body, more, rest, rfl, hr, hj⟩
    · rw [hj, texts_cons p, texts_cons p ps, List.append_cancel_left_eq, hrest, iff_and_self]
      intro _ y hy
      by_cases hboth : p.quote? = some '\'' ∧ y.quote? = some '\''
      · -- Two texts in single quotes would have been joined.
        obtain ⟨body, rfl⟩ := eq_quoted_of_quote? hboth.1
        rw [Option.mem_def.1 hy, Option.bind_some, hboth.2] at hhead
        obtain ⟨z, hz, hquote⟩ := Option.bind_eq_some_iff.1 hhead
        obtain ⟨more, rfl⟩ := eq_quoted_of_quote? hquote
        obtain ⟨rest, hjoined⟩ := List.head?_eq_some_iff.1 hz
        rw [hjoined, Piece.joinTo_of_same] at hj
        exact absurd (congrArg List.length hj) (by simp)
      · rw [not_and_or] at hboth
        exact hboth.imp hp (hps y (List.mem_of_mem_head? hy))
    · rw [hr, List.head?_cons, Option.bind_some] at hhead
      obtain ⟨y, hy, hquote⟩ := Option.bind_eq_some_iff.1 hhead.symm
      obtain ⟨body', rfl⟩ := eq_quoted_of_quote? hquote
      by_cases hq : q = '\''
      · subst hq
        refine iff_of_false (fun he => ?_) fun hchain => ?_
        · have hle := length_texts_joinQuoted_le ps
          rw [hr] at hle
          rw [hj, texts_quotedText, texts_quotedText] at he
          have hlength := congrArg List.length he
          simp only [texts_quotedText, List.length_cons] at hle hlength
          omega
        · rcases hchain.1 _ hy with he | he
          · cases he
          · cases he
      · have hname := hp (by simpa [Piece.quote?] using hq)
        have hname' : (Piece.quoted q more).text? = none := by
          simpa [Piece.text?] using hname
        have hname'' : (Piece.quoted q (body ++ q :: more)).text? = none := by
          simpa [Piece.text?] using hname
        rw [hj, texts_cons_none hname'', texts_cons_none hname, ← texts_cons_none hname', ← hr, hrest]
        exact ⟨fun hchain => ⟨fun _ _ => .inl hname, hchain⟩, fun hchain => hchain.2⟩

/-! ### Reading atoms -/

/-- Atoms that the second reader takes one by one, and that are spelled as in its language. -/
structure Settled (as : List Piece) : Prop where
  isChain : as.IsChain Piece.Apart
  quote : ∀ p ∈ as, p.quote? ≠ some '"'

theorem Settled.of_append {as bs : List Piece} (h : Settled (as ++ bs)) : Settled bs :=
  ⟨h.isChain.right_of_append, fun p hp => h.quote p (List.mem_append_right as hp)⟩

/-- A quote is the first character of quoted text, closed or not. -/
theorem atoms_quote {q : Char} (hq : isQuote q = true) (cs : List Char) :
    ∃ p ps, atoms (q :: cs) = p :: ps ∧ p.isQuoted = true := by
  cases hscan : scan q cs with
  | some r => exact ⟨_, _, atoms_quoted hq hscan, rfl⟩
  | none => exact ⟨_, _, atoms_unterminated hq hscan, rfl⟩

/-- No quote stands behind a name mark. -/
theorem isQuote_of_mark {m c : Char} {cs : List Char} (hm : m = '#' ∨ m = '@')
    (h : Settled (atoms (m :: c :: cs))) : isQuote c = false := by
  cases hc : isQuote c with
  | false => rfl
  | true =>
    obtain ⟨p, ps, hatoms, hp⟩ := atoms_quote hc cs
    have hmark : isQuote m = false := by rcases hm with rfl | rfl <;> rfl
    have hchain := h.isChain
    rw [atoms_other hmark, hatoms] at hchain
    have htakes : (Piece.other m).TakesQuote p :=
      ⟨by rcases hm with rfl | rfl <;> simp, hp⟩
    exact absurd htakes (hchain.rel_head? rfl).2

theorem isQuote_of_isNamePart {c : Char} (h : Sql.isNamePart c = true) : isQuote c = false :=
  Sql.isQuote_eq_false h (by decide)

/-- The start of a name holds no quotes. -/
theorem isQuote_of_startsName {start cs : List Char} (hstart : Sql.StartsName start)
    (h : Settled (atoms (start ++ cs))) : ∀ c ∈ start, isQuote c = false := by
  cases hstart with
  | letter hc => simpa using (classes_of_isNameStart hc).1
  | hash =>
    have hc := isQuote_of_mark (.inl rfl) h
    simpa [hc] using (by decide : isQuote '#' = false)
  | single =>
    have hc := isQuote_of_mark (.inr rfl) h
    simpa [hc] using (by decide : isQuote '@' = false)
  | double =>
    have h' : Settled ([.other '@'] ++ atoms _) := atoms_other (c := '@') rfl _ ▸ h
    have hc := isQuote_of_mark (.inr rfl) h'.of_append
    simpa [hc] using (by decide : isQuote '@' = false)

end Clause

namespace Sql

open Clause (atoms atoms_append texts Settled Piece)

variable {cs rest us : List Char} {l : Lexeme} {ts : List Token} {w w' : Bool}

/-- The texts that stand in front of a rest of some atoms. -/
def PassesTexts (cs rest : List Char) (ss : List String) : Prop :=
  ∃ as, atoms cs = as ++ atoms rest ∧ texts as = ss

theorem PassesTexts.others {cs : List Char} (h : ∀ c ∈ cs, Clause.isQuote c = false)
    (rest : List Char) : PassesTexts (cs ++ rest) rest [] :=
  ⟨_, atoms_append h rest, Clause.texts_others cs⟩

/-- A step takes off some atoms, and its token is their text. -/
theorem Takes.passesTexts (h : Takes cs l rest) (hl : ∀ t ∈ l.toList, t.isOrdinary = true)
    (hs : Settled (atoms cs)) : PassesTexts cs rest (l.toList.filterMap Token.text?) := by
  cases h with
  | @blank c _ hc =>
    have hquote : ∀ d ∈ [c], Clause.isQuote d = false := by
      simpa using Text.isQuote_of_isDelimiter (Text.isDelimiter_of_isBlank hc)
    exact .others hquote rest
  | line =>
    have hchain := hs.isChain
    rw [Clause.atoms_other rfl, Clause.atoms_other rfl] at hchain
    exact absurd (.inl ⟨rfl, rfl⟩) (hchain.rel_head? rfl).1
  | block =>
    have hchain := hs.isChain
    rw [Clause.atoms_other rfl, Clause.atoms_other rfl] at hchain
    exact absurd (.inr ⟨rfl, rfl⟩) (hchain.rel_head? rfl).1
  | @name start us hstart =>
    have hquote : ∀ c ∈ start ++ us.takeWhile isNamePart, Clause.isQuote c = false :=
      List.forall_mem_append.2 ⟨Clause.isQuote_of_startsName hstart hs, fun c hc =>
        Clause.isQuote_of_isNamePart (List.all_eq_true.1 List.all_takeWhile c hc)⟩
    have hpasses := PassesTexts.others hquote (us.dropWhile isNamePart)
    rwa [List.append_assoc, List.takeWhile_append_dropWhile] at hpasses
  | @quotedName q us body _ hq hscan =>
    have hquote : Clause.isQuote q = true := by rcases hq with rfl | rfl <;> rfl
    have hatoms := Clause.atoms_quoted hquote hscan
    refine ⟨[.quoted q body], hatoms, ?_⟩
    rcases hq with rfl | rfl
    · rfl
    · exact absurd rfl (hs.quote _ (hatoms ▸ List.mem_cons_self))
  | @text us body _ hscan => exact ⟨[.quoted '\'' body], Clause.atoms_quoted rfl hscan, rfl⟩
  | @number c us _ long _ hquote =>
    have hsuffix : ∀ d ∈ longSuffix long, Clause.isQuote d = false := by
      cases long with
      | true => exact List.forall_mem_singleton.2 rfl
      | false => exact List.forall_mem_nil _
    rw [← List.append_assoc]
    exact .others (List.forall_mem_append.2 ⟨hquote, hsuffix⟩) rest
  | symbol _ hquote => exact .others hquote rest
  | other ht =>
    rw [hl _ List.mem_cons_self] at ht
    cases ht

/-- A run of steps takes off some atoms, and its tokens are their texts. -/
theorem Scans.passesTexts (h : Scans w cs ts w' us) (hts : ∀ t ∈ ts, t.isOrdinary = true)
    (hs : Settled (atoms cs)) : PassesTexts cs us (ts.filterMap Token.text?) := by
  induction h with
  | done w cs => exact ⟨[], rfl, rfl⟩
  | step hstep _ ih =>
    obtain ⟨hl, hts⟩ := List.forall_mem_append.1 hts
    obtain ⟨as, has, hfirst⟩ := (takes_of_step hstep).passesTexts hl hs
    rw [has] at hs
    obtain ⟨bs, hbs, hrest⟩ := ih hts hs.of_append
    refine ⟨as ++ bs, ?_, ?_⟩
    · rw [has, hbs, List.append_assoc]
    · rw [Clause.texts_append, hfirst, hrest, List.filterMap_append]

/-- A run that gives some tokens and then others goes through a text between them. -/
theorem Scans.split {xs ys : List Token} (h : Scans w cs (xs ++ ys) w' us) :
    ∃ v mid, Scans w cs xs v mid ∧ Scans v mid ys w' us := by
  generalize hall : xs ++ ys = all at h
  induction h generalizing xs with
  | done w cs =>
    obtain ⟨rfl, rfl⟩ := List.append_eq_nil_iff.1 hall
    exact ⟨w, cs, .done w cs, .done w cs⟩
  | @step w w' c cs rest us l ts hstep htail ih =>
    cases l with
    | blank =>
      obtain ⟨v, mid, hx, hy⟩ := ih hall
      exact ⟨v, mid, .step hstep hx, hy⟩
    | token t =>
      cases xs with
      | nil =>
        cases hall
        exact ⟨w, c :: cs, .done w _, .step hstep htail⟩
      | cons x xs =>
        obtain ⟨rfl, hrest⟩ := List.cons.inj hall
        obtain ⟨v, mid, hx, hy⟩ := ih hrest
        exact ⟨v, mid, .step hstep hx, hy⟩

end Sql

/-! ### Clauses -/

namespace Clause

/-- The tokens behind the condition of a clause. -/
def leftover? (clause : String) : Option (List Token) :=
  match normalizeChars clause.toList with
  | .error _ => none
  | .ok normal =>
    (Sql.tokens normal).bind fun ts =>
      match (Level.ofDepth 47).expression Sql.Strength.none ts with
      | .error _ => none
      | .ok r => some r.2

theorem leftover?_of_isReadAs {clause : String} {e : Expression} {normal : List Char}
    {ts us : List Token} {t : Sql.Node} (h : IsReadAs clause e normal ts t us) :
    leftover? clause = some us := by
  simp only [leftover?, h.normalizes, h.tokens, Option.bind_some, h.expression]

/-- What nobody notices behind a condition holds no texts, unless there is an `END`. -/
theorem filterMap_text?_of_unnoticed {us : List Token} (h : Sql.Unnoticed us)
    (hend : ∀ u ∈ us, u.isKeyword "END" = false) :
    (∀ u ∈ us, u.isOrdinary = true) ∧ us.filterMap Token.text? = [] := by
  obtain ⟨vs, hlimit, hvs⟩ := h
  have hrest : vs ⊆ us → (∀ v ∈ vs, v.isOrdinary = true) ∧ vs.filterMap Token.text? = [] := by
    intro hsub
    cases hvs with
    | separators hvs =>
      refine ⟨fun v hv => ?_, List.filterMap_eq_nil_iff.2 fun v hv => ?_⟩
      · rw [hvs v hv]
        rfl
      · rw [hvs v hv]
        rfl
    | ending ws hv =>
      have hkeyword := hend _ (hsub List.mem_cons_self)
      rw [Token.isKeyword, hv] at hkeyword
      cases hkeyword
  cases hlimit with
  | absent => exact hrest fun v hv => hv
  | present vs _ _ =>
    obtain ⟨hordinary, htexts⟩ := hrest fun v hv => List.mem_cons_of_mem _ (List.mem_cons_of_mem _ hv)
    exact ⟨List.forall_mem_cons.2 ⟨rfl, List.forall_mem_cons.2 ⟨rfl, hordinary⟩⟩, htexts⟩

/-- The text literals of a compiled clause without comments, in which no name mark takes a
quote. They are the quoted texts of the clause, those that touch joined, up to the condition's
end; behind it there is something to lose only if an `END` stands there. So they are exactly the
quoted texts if and only if no two of these touch. -/
theorem texts_of_compile {clause : String} {e : Expression} (h : compile clause = .ok e)
    (hcomment : (atoms clause.toList).IsChain fun p q => ¬p.OpensComment q)
    (hmark : (atoms clause.toList).IsChain fun p q => ¬p.TakesQuote q) :
    ∃ us lost, leftover? clause = some us ∧
      texts (joinQuoted ((pieces clause.toList).map Piece.unified)) = e.texts ++ lost ∧
      ((∀ u ∈ us, u.isKeyword "END" = false) → lost = [] ∧
        (e.texts = texts (pieces clause.toList) ↔
          (pieces clause.toList).IsChain Piece.NotBothTexts)) := by
  obtain ⟨normal, ts, t, us, hread⟩ := exists_isReadAs_of_compile h
  obtain ⟨hatoms, hapart⟩ := atoms_of_normalizeChars hread.normalizes
  obtain ⟨-, hnormal⟩ := eq_of_normalizePieces hread.normalizes
  have hproper := isProper_of_mem_pieces hnormal
  have hquote : ∀ p ∈ (pieces clause.toList).map Piece.unified, ∀ q, p.quote? = some q →
      q = '\'' ∨ q = '\x60' := by
    simpa using fun p hp q => quote?_unified (hproper p hp)
  have hsettled : Settled (atoms normal) := by
    refine ⟨hapart (isChain_apart hcomment hmark), fun a ha => ?_⟩
    rw [hatoms] at ha
    obtain ⟨p, hp, ha⟩ := List.mem_flatMap.1 ha
    refine quote?_atoms _ (quote?_joinQuoted (fun p hp he => ?_) p hp) a ha
    rcases hquote p hp _ he with hq | hq
    · cases hq
    · cases hq
  -- The condition takes its tokens off the front of the atoms, and the rest is lost.
  obtain ⟨vs, rfl, hvs, htexts⟩ := hread.reads.spends hread.lowers
  obtain ⟨w, hscans⟩ := Sql.scans_of_tokens hread.tokens
  obtain ⟨v, mid, hcondition, hbehind⟩ := hscans.split
  obtain ⟨as, has, hpassed⟩ := hcondition.passesTexts hvs hsettled
  have hall : texts (joinQuoted ((pieces clause.toList).map Piece.unified)) =
      e.texts ++ texts (atoms mid) := by
    rw [← texts_atoms, ← hatoms, has, texts_append, hpassed, htexts]
  refine ⟨us, texts (atoms mid), leftover?_of_isReadAs hread, hall, fun hend => ?_⟩
  obtain ⟨hordinary, hnone⟩ := filterMap_text?_of_unnoticed hread.unnoticed hend
  rw [has] at hsettled
  obtain ⟨bs, hbs, hlost⟩ := hbehind.passesTexts hordinary hsettled.of_append
  have hempty : texts (atoms mid) = [] := by
    rw [hbs, atoms_nil, List.append_nil, hlost, hnone]
  rw [hempty, List.append_nil] at hall
  refine ⟨hempty, ?_⟩
  rw [← hall, ← texts_unified (pieces clause.toList), texts_joinQuoted_iff hquote, List.isChain_map]
  exact List.IsChain.iff fun p q => by simp only [Piece.NotBothTexts, Piece.text?_unified]

/-- A text in single quotes and one in double quotes that touch are one text of the filter. -/
theorem texts_of_compile_touching :
    compile "a = 'x'\"y\"" = .ok (.compare .eq (.field "a") (.literal (.text "x'y"))) ∧
      Expression.texts (.compare .eq (.field "a") (.literal (.text "x'y"))) ≠
        texts (pieces "a = 'x'\"y\"".toList) := by
  have hcompile : compile "a = 'x'\"y\"" =
      .ok (.compare .eq (.field "a") (.literal (.text "x'y"))) :=
    compile_of_toOption (by decide +kernel)
  obtain ⟨us, lost, hus, -, hexact⟩ :=
    texts_of_compile hcompile (by decide +kernel) (by decide +kernel)
  have hnone : leftover? "a = 'x'\"y\"" = some [] := by decide +kernel
  obtain rfl : [] = us := Option.some.inj (hnone.symm.trans hus)
  refine ⟨hcompile, fun he => ?_⟩
  exact absurd ((hexact nofun).2.1 he) (by decide +kernel)

end Clause
end RecordSieve
