import RecordSieve.Proofs.Sql.Lookahead
/-!
# RecordSieve.Proofs.Sql.Locality

The lexer looks ahead up to the next white space only: each of its readers is made of
combinations that keep `IsLocal`, and all of its steps together are local behind their first
character (`isLocal_step`).

So a run of steps that ends in front of white space is a run on every text that goes on
differently behind it (`Scans.isLocal`).
-/

namespace RecordSieve
namespace Sql

open Text (isBlank)
open Text.Quoted (scan escape)

/-! ### Texts -/

/-- A quoted text ends at its closing quote. -/
theorem head?_of_scan {q : Char} {cs body rest : List Char} (h : scan q cs = some (body, rest)) :
    rest.head? ≠ some q := by
  fun_induction scan q cs generalizing body rest with
  | case1 => cases h
  | case2 =>
    cases h
    exact (Option.some_ne_none _).symm
  | case3 => cases h
  | case4 cs ih =>
    obtain ⟨r, hr, he⟩ := Option.map_eq_some_iff.1 h
    cases he
    exact ih hr
  | case5 d cs hd =>
    cases h
    simpa using hd
  | case6 c d cs hc ih =>
    obtain ⟨r, hr, he⟩ := Option.map_eq_some_iff.1 h
    cases he
    exact ih hr

theorem isLocal_scan (q : Char) : IsLocal (scan q) := by
  intro cs body rest h
  have hcs : escape q body ++ q :: rest = cs := by
    have hencode := Clause.encode_of_scan h
    rw [Text.Quoted.encode, List.cons_append, List.append_assoc] at hencode
    exact (List.cons.inj hencode).2
  refine ⟨escape q body ++ [q], ?_, fun rest' hagree => ?_⟩
  · rw [← hcs, List.append_assoc, List.singleton_append]
  · rw [List.append_assoc, List.singleton_append]
    exact Text.Quoted.scan_escape q body rest' (hagree.head? ▸ head?_of_scan h)

theorem isLocal_lexText (kind : TextKind) : IsLocal (lexText kind) := by
  refine ((isLocal_scan '\'').map fun body => .token (.text kind (String.ofList body))).congr ?_
  intro cs
  unfold lexText
  cases scan '\'' cs with
  | none => rfl
  | some r => rfl

/-- A name in quotes. -/
theorem isLocal_quotedName (q : Char) : IsLocal fun cs => match scan q cs with
    | some (body, rest) => Lex.token (.word (String.ofList body) (some q)) rest
    | none => none := by
  refine ((isLocal_scan q).map fun body =>
    Lexeme.token (.word (String.ofList body) (some q))).congr fun cs => ?_
  cases scan q cs with
  | none => rfl
  | some r => rfl

theorem isLocal_hexEscape (count : Nat) : IsLocal (hexEscape count) := by
  intro cs c rest h
  simp only [hexEscape] at h
  split at h
  · rename_i hds
    obtain ⟨d, hd, he⟩ := Option.map_eq_some_iff.1 h
    cases he
    refine ⟨cs.take count, (List.take_append_drop ..).symm, fun rest' _ => ?_⟩
    have htake : (cs.take count ++ rest').take count = cs.take count := List.take_left' hds.1
    have hdrop : (cs.take count ++ rest').drop count = rest' := List.drop_left' hds.1
    simp only [hexEscape, htake, hdrop, hds, hd, Option.map_some, and_self, if_true]
  · cases h

theorem isLocal_backslashEscape : IsLocal backslashEscape := by
  refine .cons (fun c => ?_) nofun fun _ _ => rfl
  have hhex : IsLocal fun cs =>
      let ds := takeUpTo 2 (fun d => (hexValue? d).isSome) cs
      if ds.isEmpty then some ('x', cs)
      else
        let n := digitsIn 16 ds
        if n < 128 then (charOfCode n).map fun d => (d, cs.drop ds.length) else none := by
    refine ((IsLocal.takeUpTo 2 fun d => (hexValue? d).isSome).bind fun ds =>
      .ite (p := ds.isEmpty = true) (.pure 'x') (.ite (p := digitsIn 16 ds < 128)
        (.ofOption (charOfCode (digitsIn 16 ds))) .none)).congr fun cs => ?_
    simp only [Option.bind_some]
    split
    · rename_i hempty
      rw [List.isEmpty_iff.1 hempty]
      rfl
    · rfl
  have hoctal : IsLocal fun cs =>
      let ds := c :: takeUpTo 2 (fun d => '0' ≤ d ∧ d ≤ '7') cs
      let n := digitsIn 8 ds % 256
      if n < 128 then (charOfCode n).map fun d => (d, cs.drop (ds.length - 1)) else none := by
    refine ((IsLocal.takeUpTo 2 fun d => '0' ≤ d ∧ d ≤ '7').bind fun ds =>
      .ite (p := digitsIn 8 (c :: ds) % 256 < 128)
        (.ofOption (charOfCode (digitsIn 8 (c :: ds) % 256))) .none).congr fun cs => ?_
    rfl
  exact .ite (.pure _) (.ite (.pure _) (.ite (.pure _) (.ite (.pure _) (.ite (.pure _)
    (.ite (isLocal_hexEscape 4) (.ite (isLocal_hexEscape 8) (.ite hhex (.ite hoctal
      (.pure _)))))))))

theorem isLocal_codePointEscape : IsLocal codePointEscape := by
  refine (IsLocal.behind ['\\'] (by decide) (.pure '\\')
    (.behind ['+'] (by decide) (isLocal_hexEscape 6) (isLocal_hexEscape 4))).congr ?_
  intro cs
  unfold codePointEscape
  split
  · rfl
  · rfl
  · rename_i h1 h2
    rw [if_neg (not_startsWith h1), if_neg (not_startsWith h2)]

/-- A reader of a body with escapes, on a budget of characters: `escape` reads what stands
behind a backslash. -/
structure ReadsBody (body : Nat → List Char → Option (List Char × List Char))
    (escape : List Char → Option (Char × List Char)) : Prop where
  zero : ∀ cs, body 0 cs = none
  nil : ∀ n, body (n + 1) [] = none
  cons : ∀ n c cs, body (n + 1) (c :: cs) =
    if c = '\'' then
      if startsWith ['\''] cs then (body n (cs.drop 1)).map fun r => ('\'' :: r.1, r.2)
      else some ([], cs)
    else if c = '\\' then
      (escape cs).bind fun e => (body n e.2).map fun r => (e.1 :: r.1, r.2)
    else (body n cs).map fun r => (c :: r.1, r.2)

namespace ReadsBody

variable {body : Nat → List Char → Option (List Char × List Char)}
  {escape : List Char → Option (Char × List Char)}

theorem isLocal (h : ReadsBody body escape) (hescape : IsLocal escape) (n : Nat) :
    IsLocal (body n) := by
  induction n with
  | zero => exact IsLocal.none.congr h.zero
  | succ n ih =>
    refine .cons (fun c => ?_) (fun r hr => by cases (h.nil n).symm.trans hr) (h.cons n)
    exact .ite (.behind ['\''] (by decide) (ih.map _) (.pure []))
      (.ite (hescape.bind fun d => ih.map _) (ih.map _))

/-- The length of a text is budget enough. -/
theorem of_length_lt (h : ReadsBody body escape) (hescape : IsLocal escape) {n m : Nat}
    {cs : List Char} {r : List Char × List Char} (hbody : body n cs = some r)
    (hm : cs.length < m) : body m cs = some r := by
  induction n generalizing cs m r with
  | zero => cases (h.zero cs).symm.trans hbody
  | succ n ih =>
    cases cs with
    | nil => cases (h.nil n).symm.trans hbody
    | cons c cs =>
      obtain ⟨m, rfl⟩ : ∃ k, m = k + 1 := ⟨m - 1, by omega⟩
      have hm : cs.length < m := Nat.lt_of_succ_lt_succ hm
      have hmap : ∀ {ds : List Char} {k : List Char × List Char → List Char × List Char},
          ds.length ≤ cs.length → (body n ds).map k = some r → (body m ds).map k = some r := by
        intro ds k hds hr
        obtain ⟨s, hs, rfl⟩ := Option.map_eq_some_iff.1 hr
        rw [ih hs (Nat.lt_of_le_of_lt hds hm), Option.map_some]
      rw [h.cons] at hbody ⊢
      by_cases hquote : c = '\''
      · rw [if_pos hquote] at hbody ⊢
        split at hbody
        · rename_i hstart
          rw [if_pos hstart]
          exact hmap (by simp) hbody
        · rename_i hstart
          rw [if_neg hstart]
          exact hbody
      · rw [if_neg hquote] at hbody ⊢
        split at hbody
        · rename_i hslash
          obtain ⟨e, he, hr⟩ := Option.bind_eq_some_iff.1 hbody
          rw [if_pos hslash, he]
          exact hmap (hescape.length_le he) hr
        · rename_i hslash
          rw [if_neg hslash]
          exact hmap (Nat.le_refl _) hbody

theorem isLocal_lexTextBy (h : ReadsBody body escape) (hescape : IsLocal escape)
    (kind : TextKind) : IsLocal (lexTextBy kind body) := by
  intro cs l rest hlex
  unfold lexTextBy at hlex
  split at hlex
  · rename_i xs _ hbody
    cases hlex
    obtain ⟨ys, rfl, hys⟩ := h.isLocal hescape _ _ _ _ hbody
    refine ⟨ys, rfl, fun rest' hagree => ?_⟩
    rw [lexTextBy, h.of_length_lt hescape (hys rest' hagree) (Nat.lt_succ_self _)]
    rfl
  · cases hlex

end ReadsBody

/-- The text behind a quote in a body: another quote, or the end of the body. -/
theorem match_quote (k : List Char → Option (List Char × List Char)) (cs : List Char) :
    (match cs with
      | '\'' :: ds => k ds
      | ds => some ([], ds)) =
      if startsWith ['\''] cs then k (cs.drop 1) else some ([], cs) := by
  split
  · rfl
  · rename_i hne
    exact (if_neg (not_startsWith hne)).symm

theorem match_escape (o : Option (Char × List Char))
    (k : List Char → Option (List Char × List Char)) :
    (match o with
      | some (d, cs) => (k cs).map fun r => (d :: r.1, r.2)
      | none => none) = o.bind fun e => (k e.2).map fun r => (e.1 :: r.1, r.2) := by
  cases o with
  | none => rfl
  | some e => rfl

theorem readsBody_escapedBody : ReadsBody escapedBody backslashEscape where
  zero _ := rfl
  nil _ := rfl
  cons n c cs := by
    rw [← match_quote fun ds => (escapedBody n ds).map fun r => ('\'' :: r.1, r.2),
      ← match_escape (backslashEscape cs) (escapedBody n)]
    rfl

theorem readsBody_unicodeBody : ReadsBody unicodeBody codePointEscape where
  zero _ := rfl
  nil _ := rfl
  cons n c cs := by
    rw [← match_quote fun ds => (unicodeBody n ds).map fun r => ('\'' :: r.1, r.2),
      ← match_escape (codePointEscape cs) (unicodeBody n)]
    rfl

/-! ### Names -/

theorem isLocal_lexName (start : List Char) : IsLocal (lexName start) := by
  refine ((IsLocal.span isNamePart).map fun parts =>
    Lexeme.token (.word (String.ofList (start ++ parts)) none)).congr fun cs => ?_
  rfl

theorem lexWord_eq (c : Char) (cs : List Char) : lexWord c cs =
    if startsWith ['\''] cs then
      match markedKind? c with
      | some kind => lexText kind (cs.drop 1)
      | none =>
        if c = 'e' ∨ c = 'E' then lexTextBy .escaped escapedBody (cs.drop 1) else lexName [c] cs
    else if startsWith ['&', '\''] cs then
      if c = 'u' ∨ c = 'U' then lexTextBy .unicode unicodeBody (cs.drop 2) else lexName [c] cs
    else lexName [c] cs := by
  unfold lexWord
  split
  · rfl
  · rfl
  · rename_i h1 h2
    rw [if_neg (not_startsWith h1), if_neg (not_startsWith h2)]

theorem isLocal_lexWord (c : Char) : IsLocal (lexWord c) := by
  have hname := isLocal_lexName [c]
  have hescaped := readsBody_escapedBody.isLocal_lexTextBy isLocal_backslashEscape .escaped
  have hunicode := readsBody_unicodeBody.isLocal_lexTextBy isLocal_codePointEscape .unicode
  have hrest : IsLocal fun cs => if startsWith ['&', '\''] cs then
      if c = 'u' ∨ c = 'U' then lexTextBy .unicode unicodeBody (cs.drop 2) else lexName [c] cs
      else lexName [c] cs := by
    by_cases hu : c = 'u' ∨ c = 'U'
    · simp only [if_pos hu]
      exact .behind ['&', '\''] (by decide) hunicode hname
    · simp only [if_neg hu]
      exact .iteStartsWith (by decide) hname hname
  refine IsLocal.congr ?_ (lexWord_eq c)
  cases markedKind? c with
  | some kind => exact .behind ['\''] (by decide) (isLocal_lexText kind) hrest
  | none =>
    by_cases he : c = 'e' ∨ c = 'E'
    · simp only [if_pos he]
      exact .behind ['\''] (by decide) hescaped hrest
    · simp only [if_neg he]
      exact .iteStartsWith (by decide) hname hrest

/-! ### Numbers -/

theorem isLocal_decimalPart : IsLocal fun cs => some (decimalPart cs) := by
  refine ((IsLocal.span Char.isDigit).bind fun whole =>
    .behind ['.'] (by decide)
      ((IsLocal.span Char.isDigit).map fun fraction => whole ++ '.' :: fraction)
      (.pure whole)).congr fun cs => ?_
  simp only [decimalPart, Option.bind_some]
  split
  · rename_i r hr
    rw [hr]
    rfl
  · rename_i hne
    exact (if_neg (not_startsWith hne)).symm

/-- Whether a character is the mark of an exponent. -/
def isExponentMark (c : Char) : Bool := c = 'e' ∨ c = 'E'

/-- Whether a character is a sign. -/
def isSign (c : Char) : Bool := c = '+' ∨ c = '-'

theorem exponentPart_eq (cs : List Char) : some (exponentPart cs) =
    if passes [isExponentMark, Char.isDigit] cs then
      some (cs.take 1 ++ (cs.drop 1).takeWhile Char.isDigit, (cs.drop 1).dropWhile Char.isDigit)
    else if passes [isExponentMark, isSign, Char.isDigit] cs then
      some (cs.take 2 ++ (cs.drop 2).takeWhile Char.isDigit, (cs.drop 2).dropWhile Char.isDigit)
    else some ([], cs) := by
  match cs with
  | [] => rfl
  | [c] => simp [exponentPart, passes]
  | [c, s] =>
    by_cases hmark : c = 'e' ∨ c = 'E'
    · by_cases hs : s.isDigit = true
      · simp [exponentPart, passes, isExponentMark, hmark, hs]
      · simp [exponentPart, passes, isExponentMark, hmark, hs]
    · simp [exponentPart, passes, isExponentMark, hmark]
  | c :: s :: d :: r =>
    by_cases hmark : c = 'e' ∨ c = 'E'
    · by_cases hs : s.isDigit = true
      · simp [exponentPart, passes, isExponentMark, hmark, hs]
      · by_cases hsign : (s = '+' ∨ s = '-') ∧ d.isDigit = true
        · simp [exponentPart, passes, isExponentMark, isSign, hmark, hs, hsign]
        · simp [exponentPart, passes, isExponentMark, isSign, hmark, hs, hsign]
    · simp [exponentPart, passes, isExponentMark, hmark]

theorem isLocal_exponentPart : IsLocal fun cs => some (exponentPart cs) := by
  have hmark : ∀ b, isBlank b = true → isExponentMark b = false :=
    fun b hb => Text.eq_false_of_isDelimiter (Text.isDelimiter_of_isBlank hb) (by decide)
  have hsign : ∀ b, isBlank b = true → isSign b = false :=
    fun b hb => Text.eq_false_of_isDelimiter (Text.isDelimiter_of_isBlank hb) (by decide)
  have hdigits : ∀ n, IsLocal fun cs =>
      some (cs.take n ++ (cs.drop n).takeWhile Char.isDigit, (cs.drop n).dropWhile Char.isDigit) :=
    fun n => (IsLocal.take n).bind fun start => (IsLocal.span Char.isDigit).map (start ++ ·)
  refine IsLocal.congr ?_ exponentPart_eq
  refine .iteAhead (fun us vs hagree => hagree.passes ?_) (hdigits 1)
    (.iteAhead (fun us vs hagree => hagree.passes ?_) (hdigits 2) (.pure []))
  · simpa using hmark
  · simpa using ⟨hmark, hsign⟩

/-- What follows the decimal part of a number. -/
def numberEnd (decimal cs : List Char) : Lex :=
  let token := decimal ++ (exponentPart cs).1
  if startsWith ['L'] (exponentPart cs).2 then
    .token (.number (String.ofList token) true) ((exponentPart cs).2.drop 1)
  else .token (.number (String.ofList token)) (exponentPart cs).2

theorem isLocal_numberEnd (decimal : List Char) : IsLocal (numberEnd decimal) := by
  refine (isLocal_exponentPart.bind fun exponent => .behind ['L'] (by decide)
    (.pure (Lexeme.token (.number (String.ofList (decimal ++ exponent)) true)))
    (.pure (Lexeme.token (.number (String.ofList (decimal ++ exponent)))))).congr fun cs => ?_
  rfl

/-- What follows the decimal part of a text that starts like a number. -/
def behindDecimal (decimal cs : List Char) : Lex :=
  if decimal = ['.'] then Lex.symbol "." cs
  else if decimal = ['0'] then
    if startsWith ['x'] cs then
      Lex.token (.text .hex (String.ofList ((cs.drop 1).takeWhile fun d => (hexValue? d).isSome)))
        ((cs.drop 1).dropWhile fun d => (hexValue? d).isSome)
    else numberEnd decimal cs
  else numberEnd decimal cs

theorem isLocal_behindDecimal (decimal : List Char) : IsLocal (behindDecimal decimal) := by
  have hhex : IsLocal fun cs => Lex.token
      (.text .hex (String.ofList (cs.takeWhile fun d => (hexValue? d).isSome)))
      (cs.dropWhile fun d => (hexValue? d).isSome) :=
    ((IsLocal.span fun d => (hexValue? d).isSome).map fun ds =>
      Lexeme.token (.text .hex (String.ofList ds))).congr fun _ => rfl
  have hend := isLocal_numberEnd decimal
  exact .ite (.pure _) (.ite (.behind ['x'] (by decide) hhex hend) hend)

theorem match_suffix (token : List Char) (cs : List Char) :
    (match cs with
      | 'L' :: r => Lex.token (.number (String.ofList token) true) r
      | r => Lex.token (.number (String.ofList token)) r) =
      if startsWith ['L'] cs then Lex.token (.number (String.ofList token) true) (cs.drop 1)
      else Lex.token (.number (String.ofList token)) cs := by
  split
  · rfl
  · rename_i hne
    exact (if_neg (not_startsWith hne)).symm

theorem lexNumber_eq (afterWord : Bool) (cs : List Char) : lexNumber afterWord cs =
    if startsWith ['.', '_'] cs then
      if afterWord then Lex.symbol "." (cs.drop 1) else none
    else (some (decimalPart cs)).bind fun r => behindDecimal r.1 r.2 := by
  have hend : ∀ decimal rest, (match (exponentPart rest).2 with
      | 'L' :: r => Lex.token (.number (String.ofList (decimal ++ (exponentPart rest).1)) true) r
      | r => Lex.token (.number (String.ofList (decimal ++ (exponentPart rest).1))) r) =
      numberEnd decimal rest :=
    fun decimal rest => match_suffix (decimal ++ (exponentPart rest).1) (exponentPart rest).2
  unfold lexNumber
  split
  · rfl
  · rename_i hne
    rw [if_neg (not_startsWith hne), Option.bind_some, behindDecimal]
    simp only
    split
    · rfl
    · split
      · rename_i hdecimal _ hzero hx
        rw [hzero, hx, if_pos rfl]
        rfl
      · rename_i hx
        refine (hend _ _).trans ?_
        split
        · rename_i hzero
          exact (if_neg (not_startsWith fun ds => hx ds hzero)).symm
        · rfl

theorem isLocal_lexNumber (afterWord : Bool) : IsLocal (lexNumber afterWord) := by
  have hpoint : IsLocal fun cs => if afterWord then Lex.symbol "." (cs.drop 1) else none :=
    .ite (((IsLocal.take 1).map fun _ => Lexeme.token (.symbol ".")).congr fun _ => rfl) .none
  refine IsLocal.congr ?_ (lexNumber_eq afterWord)
  exact .iteStartsWith (by decide) hpoint (isLocal_decimalPart.bind isLocal_behindDecimal)

/-! ### Symbols and marks -/

theorem isLocal_symbol (s : String) : IsLocal (Lex.symbol s) := .pure _

/-- The first of some symbols that fits. -/
theorem isLocal_symbols (symbols : List (String × String))
    (h : ∀ s ∈ symbols, ∀ c ∈ s.1.toList, isBlank c = false) {f : List Char → Lex} (hf : IsLocal f) :
    IsLocal fun cs => match symbols.find? fun s => startsWith s.1.toList cs with
      | some (written, printed) => Lex.symbol printed (cs.drop written.length)
      | none => f cs := by
  induction symbols with
  | nil => exact hf
  | cons s symbols ih =>
    obtain ⟨hs, hsymbols⟩ := List.forall_mem_cons.1 h
    refine (IsLocal.behind s.1.toList (any_isBlank_dropLast hs)
      (isLocal_symbol s.2) (ih hsymbols)).congr fun cs => ?_
    rw [List.find?_cons]
    cases startsWith s.1.toList cs with
    | true => exact congrArg (fun n => Lex.symbol s.2 (cs.drop n)) String.length_toList.symm
    | false => rfl

theorem isLocal_lexSymbol (c : Char) : IsLocal (lexSymbol c) := by
  have hfirst : IsLocal fun cs => Lex.symbol (String.ofList [c]) (cs.drop 1) :=
    ((IsLocal.take 1).map fun _ => Lexeme.token (.symbol (String.ofList [c]))).congr fun _ => rfl
  have hlong := isLocal_symbols (longSymbols c)
    (fun s hs d hd => ((mem_longSymbols hs).2 d hd).2) hfirst
  refine (hlong.tail (c := c) ?_).congr ?_
  · intro cs l rest h
    split at h
    · rename_i written printed hfind
      cases h
      have hne : written.length ≠ 0 := by
        simpa using (mem_longSymbols (List.mem_of_find?_eq_some hfind)).1
      simp only [List.length_drop, List.length_cons]
      omega
    · cases h
      exact Nat.le_refl _
  · intro cs
    rfl

theorem lexHash_eq (cs : List Char) : lexHash cs =
    if startsWith ['-'] cs then Lex.symbol "#-" (cs.drop 1)
    else if startsWith ['>', '>'] cs then Lex.symbol "#>>" (cs.drop 2)
    else if startsWith ['>'] cs then Lex.symbol "#>" (cs.drop 1)
    else if startsWith [' '] cs then Lex.symbol "#" cs
    else
      match cs with
      | [] => Lex.symbol "#" []
      | d :: ds => lexName ['#', d] ds := by
  cases cs with
  | nil => rfl
  | cons d ds =>
    by_cases hminus : d = '-'
    · subst hminus
      rfl
    by_cases harrow : d = '>'
    · subst harrow
      cases ds with
      | nil => rfl
      | cons e es =>
        by_cases he : e = '>'
        · subst he
          rfl
        · simp [lexHash, he]
    · simp [lexHash, hminus, harrow]

theorem isLocal_named (s : String) (start : List Char) :
    IsLocal fun cs => match cs with
      | [] => Lex.symbol s []
      | d :: ds => lexName (start ++ [d]) ds := by
  refine .cons (fun d => isLocal_lexName (start ++ [d])) (fun r hr => ?_) fun _ _ => rfl
  cases hr
  rfl

theorem isLocal_lexHash : IsLocal lexHash := by
  refine IsLocal.congr ?_ lexHash_eq
  exact .behind ['-'] (by decide) (isLocal_symbol "#-")
    (.behind ['>', '>'] (by decide) (isLocal_symbol "#>>")
      (.behind ['>'] (by decide) (isLocal_symbol "#>")
        (.iteStartsWith (by decide) (isLocal_symbol "#") (isLocal_named "#" ['#']))))

theorem lexAt_eq (cs : List Char) : lexAt cs =
    if startsWith ['>'] cs then Lex.symbol "@>" (cs.drop 1)
    else if startsWith ['?'] cs then Lex.symbol "@?" (cs.drop 1)
    else if startsWith ['@'] cs then
      if startsWith [' '] (cs.drop 1) then Lex.symbol "@@" (cs.drop 1)
      else
        match cs.drop 1 with
        | [] => Lex.symbol "@@" []
        | d :: ds => lexName ['@', '@', d] ds
    else if passes [fun c => c == ' ' || Clause.isQuote c] cs then Lex.symbol "@" cs
    else
      match cs with
      | [] => Lex.symbol "@" []
      | d :: ds => lexName ['@', d] ds := by
  cases cs with
  | nil => rfl
  | cons d ds =>
    by_cases hgreater : d = '>'
    · subst hgreater
      rfl
    by_cases hquestion : d = '?'
    · subst hquestion
      rfl
    by_cases hat : d = '@'
    · subst hat
      cases ds with
      | nil => rfl
      | cons e es => simp [lexAt]
    · simp [lexAt, hgreater, hquestion, hat, passes, Clause.isQuote, or_assoc]

theorem isLocal_lexAt : IsLocal lexAt := by
  have hdouble : IsLocal fun cs => if startsWith [' '] cs then Lex.symbol "@@" cs
      else match cs with
        | [] => Lex.symbol "@@" []
        | d :: ds => lexName ['@', '@', d] ds :=
    .iteStartsWith (by decide) (isLocal_symbol "@@") (isLocal_named "@@" ['@', '@'])
  refine IsLocal.congr ?_ lexAt_eq
  exact .behind ['>'] (by decide) (isLocal_symbol "@>")
    (.behind ['?'] (by decide) (isLocal_symbol "@?")
      (.behind ['@'] (by decide) hdouble
        (.iteAhead (fun _ _ hagree => hagree.passes (by simp)) (isLocal_symbol "@")
          (isLocal_named "@" ['@']))))

theorem isLocal_untilMark {mark : List Char} (hne : mark ≠ [])
    (hmark : ∀ c ∈ mark, isBlank c = false) : IsLocal (untilMark mark) := by
  intro cs a rest h
  induction cs generalizing a with
  | nil =>
    rw [untilMark, if_neg hne] at h
    cases h
  | cons c cs ih =>
    have hstep : ∀ d ds, untilMark mark (d :: ds) =
        if startsWith mark (d :: ds) then some ([], (d :: ds).drop mark.length)
        else (untilMark mark ds).map fun r => (d :: r.1, r.2) := fun d ds => by rw [untilMark]
    rw [hstep] at h
    split at h
    · rename_i hstart
      cases h
      obtain ⟨ds, hds⟩ := startsWith_iff.1 hstart
      rw [← hds, List.drop_left]
      refine ⟨mark, rfl, fun rest' _ => ?_⟩
      obtain ⟨m, ms, rfl⟩ := List.exists_cons_of_ne_nil hne
      rw [List.cons_append, hstep, ← List.cons_append,
        if_pos (startsWith_iff.2 (List.prefix_append _ _)), List.drop_left]
    · rename_i hstart
      obtain ⟨r, hr, he⟩ := Option.map_eq_some_iff.1 h
      cases he
      obtain ⟨xs, hcs, hxs⟩ := ih r.1 hr
      refine ⟨c :: xs, congrArg (c :: ·) hcs, fun rest' hagree => ?_⟩
      have hahead := (hagree.append (c :: xs)).startsWith (any_isBlank_dropLast hmark)
      rw [hcs] at hstart
      rw [List.cons_append, hstep, if_neg (by rw [← List.cons_append, hahead]; exact hstart),
        hxs rest' hagree]
      rfl

/-- The characters of the tags of dollar texts. -/
def isTagPart (c : Char) : Bool := Text.isAlphanumeric c || c == '_'

/-- What follows a dollar sign and a tag. -/
def behindTag (tag cs : List Char) : Lex :=
  if startsWith ['$'] cs then
    (untilMark ('$' :: (tag ++ ['$'])) (cs.drop 1)).map fun r =>
      (Lexeme.token (.dollarText (String.ofList tag) (String.ofList r.1)), r.2)
  else Lex.token (.placeholder (String.ofList ('$' :: tag))) cs

/-- What follows the opening mark of a dollar text, as far as its closing mark is found. -/
theorem match_dollarBody (tag : String) (o : Option (List Char × List Char)) :
    (match o with
      | some (body, rest) => Lex.token (.dollarText tag (String.ofList body)) rest
      | none => none) = o.map fun r => (Lexeme.token (.dollarText tag (String.ofList r.1)), r.2) := by
  cases o with
  | none => rfl
  | some r => rfl

theorem lexDollar_eq (cs : List Char) : lexDollar cs =
    (some (cs.takeWhile isTagPart, cs.dropWhile isTagPart)).bind fun r => behindTag r.1 r.2 := by
  rw [Option.bind_some, behindTag]
  unfold lexDollar
  simp only
  split
  · rename_i rest hrest
    rw [show cs.dropWhile isTagPart = '$' :: rest from hrest,
      if_pos (show startsWith ['$'] ('$' :: rest) = true from rfl), List.drop_one, List.tail_cons]
    exact match_dollarBody _ _
  · rename_i hne
    exact (if_neg (not_startsWith hne)).symm

/-- A tag holds no white space. -/
theorem isBlank_of_isTagPart {c : Char} (h : isTagPart c = true) : isBlank c = false := by
  cases hb : isBlank c with
  | false => rfl
  | true =>
    have hd := Text.isDelimiter_of_isBlank hb
    rw [isTagPart, Text.isAlphanumeric, Text.isAlphabetic_of_isDelimiter hd,
      Text.isNumeric_of_isDelimiter hd, Bool.false_or, Bool.false_or, beq_iff_eq] at h
    subst h
    cases hb

theorem isLocal_lexDollar : IsLocal lexDollar := by
  refine IsLocal.congr ?_ lexDollar_eq
  refine (IsLocal.span isTagPart).bindOf (k := behindTag)
    (p := fun tag => ∀ c ∈ tag, isTagPart c = true) (fun cs r hr => ?_) fun tag htag => ?_
  · cases hr
    exact List.all_eq_true.1 List.all_takeWhile
  · have hmark : ∀ c ∈ '$' :: (tag ++ ['$']), isBlank c = false := by
      have hdollar : isBlank '$' = false := rfl
      refine List.forall_mem_cons.2 ⟨hdollar, List.forall_mem_append.2 ⟨fun c hc => ?_, ?_⟩⟩
      · exact isBlank_of_isTagPart (htag c hc)
      · simpa using hdollar
    refine (IsLocal.behind ['$'] (by decide)
      ((isLocal_untilMark (List.cons_ne_nil _ _) hmark).map fun body =>
        Lexeme.token (.dollarText (String.ofList tag) (String.ofList body)))
      (.pure (.token (.placeholder (String.ofList ('$' :: tag)))))).congr fun cs => ?_
    rfl

/-! ### Comments -/

theorem isLocal_afterComment (depth : Nat) :
    IsLocal fun cs => (afterComment depth cs).map fun rest => (Lexeme.blank, rest) := by
  intro cs l rest h
  obtain ⟨us, hus, he⟩ := Option.map_eq_some_iff.1 h
  cases he
  suffices hxs : ∃ xs, cs = xs ++ rest ∧ ∀ rest', afterComment depth (xs ++ rest') = some rest' by
    obtain ⟨xs, hcs, hxs⟩ := hxs
    exact ⟨xs, hcs, fun rest' _ => by simp only [hxs rest', Option.map_some]⟩
  clear h
  fun_induction afterComment depth cs with
  | case1 => cases hus
  | case2 => cases hus
  | case3 c d cs hmark =>
    cases hus
    obtain ⟨rfl, rfl⟩ := hmark
    exact ⟨['*', '/'], rfl, fun _ => rfl⟩
  | case4 c d cs hmark depth ih =>
    obtain ⟨rfl, rfl⟩ := hmark
    obtain ⟨xs, rfl, hxs⟩ := ih hus
    exact ⟨'*' :: '/' :: xs, rfl, hxs⟩
  | case5 depth c d cs hclose hopen ih =>
    obtain ⟨rfl, rfl⟩ := hopen
    obtain ⟨xs, rfl, hxs⟩ := ih hus
    exact ⟨'/' :: '*' :: xs, rfl, hxs⟩
  | case6 depth c d cs hclose hopen ih =>
    obtain ⟨xs, hcs, hxs⟩ := ih hus
    cases xs with
    | nil => cases depth <;> cases hxs []
    | cons x xs =>
      obtain ⟨rfl, rfl⟩ := List.cons.inj hcs
      refine ⟨c :: d :: xs, rfl, fun rest' => ?_⟩
      rw [List.cons_append, List.cons_append, afterComment.eq_def]
      simp only [if_neg hclose, if_neg hopen]
      exact hxs rest'

theorem isLocal_line : IsLocal fun cs =>
    some (Lexeme.blank, (cs.dropWhile (· != '\n')).drop 1) := by
  refine ((IsLocal.span (· != '\n')).bind fun _ => (IsLocal.take 1).map fun _ =>
    Lexeme.blank).congr fun cs => ?_
  rfl

/-! ### All of them -/

/-- A text that starts like a number loses its first character. -/
theorem length_le_of_lexNumber {c : Char} (hc : Clause.isNumberStart c = true) {afterWord : Bool}
    {cs rest : List Char} {l : Lexeme} (h : lexNumber afterWord (c :: cs) = some (l, rest)) :
    rest.length ≤ cs.length := by
  rw [lexNumber_eq] at h
  split at h
  · split at h
    · cases h
      exact Nat.le_refl _
    · cases h
  · rw [Option.bind_some] at h
    have hrest := (isLocal_behindDecimal _).length_le h
    have hjoined := congrArg List.length (splitsNumber_decimalPart (c :: cs)).joined
    have hne := List.length_pos_iff.2 (decimalPart_ne_nil hc cs)
    simp only [List.length_append, List.length_cons] at hjoined
    omega

/-- A step takes its first character and is local behind it. -/
theorem isLocal_step (afterWord : Bool) (c : Char) : IsLocal (step afterWord c) := by
  have hline : ∀ {g : List Char → Lex}, IsLocal g → IsLocal fun cs =>
      if c = '-' && startsWith ['-'] cs then some (.blank, (cs.dropWhile (· != '\n')).drop 1)
      else g cs := by
    intro g hg
    exact .iteAhead (fun us vs hagree => by rw [hagree.startsWith (by decide)]) isLocal_line hg
  have hblock : ∀ {g : List Char → Lex}, IsLocal g → IsLocal fun cs =>
      if c = '/' && startsWith ['*'] cs then
        (afterComment 0 (cs.drop 1)).map fun rest => (.blank, rest)
      else g cs := by
    intro g hg
    by_cases hc : c = '/'
    · simp only [hc, decide_true, Bool.true_and]
      exact .behind ['*'] (by decide) (isLocal_afterComment 0) hg
    · refine hg.congr fun cs => ?_
      simp only [hc, decide_false, Bool.false_and, Bool.false_eq_true, if_false]
  have hnumber : (c.isDigit || c == '.') = true → IsLocal fun cs => lexNumber afterWord (c :: cs) :=
    fun hc => (isLocal_lexNumber afterWord).tail fun _ _ _ => length_le_of_lexNumber hc
  have hquestion : IsLocal fun cs => Lex.token
      (.placeholder (String.ofList ('?' :: cs.takeWhile Text.isNumeric)))
      (cs.dropWhile Text.isNumeric) := by
    refine ((IsLocal.span Text.isNumeric).map fun ds =>
      Lexeme.token (.placeholder (String.ofList ('?' :: ds)))).congr fun cs => ?_
    rfl
  refine .ite (.pure _) (.ite (isLocal_lexWord c) (.iteOf hnumber (.ite (isLocal_lexText .plain)
    (.ite (isLocal_quotedName c) (hline (hblock (.ite isLocal_lexHash (.ite isLocal_lexAt (.ite hquestion
      (.ite isLocal_lexDollar (.ite (isLocal_lexSymbol c) (.pure _))))))))))))

theorem length_le_of_step {afterWord : Bool} {c : Char} {cs rest : List Char} {l : Lexeme}
    (h : step afterWord c cs = some (l, rest)) : rest.length ≤ cs.length :=
  (isLocal_step afterWord c).length_le h

/-! ### Runs -/

/-- A run of steps is a run on every text that goes on differently behind white space. -/
theorem Scans.isLocal {w w' : Bool} {cs rest : List Char} {ts : List Token}
    (h : Scans w cs ts w' rest) :
    ∃ xs, cs = xs ++ rest ∧ ∀ rest', Agree rest rest' → Scans w (xs ++ rest') ts w' rest' := by
  induction h with
  | done w cs => exact ⟨[], rfl, fun rest' _ => .done w rest'⟩
  | @step w w' c cs _ us l ts hstep _ ih =>
    obtain ⟨xs, rfl, hxs⟩ := isLocal_step w c cs l _ hstep
    obtain ⟨ys, rfl, hys⟩ := ih
    refine ⟨c :: (xs ++ ys), by simp, fun rest' hagree => ?_⟩
    have hfirst := hxs (ys ++ rest') (hagree.append ys)
    rw [← List.append_assoc] at hfirst
    exact .step hfirst (hys rest' hagree)

/-- The length of a text is budget enough. -/
theorem tokensWithin_of_length_le {n m : Nat} {cs : List Char} (hn : cs.length ≤ n)
    (hm : cs.length ≤ m) (w : Bool) : tokensWithin n w cs = tokensWithin m w cs := by
  induction n generalizing m w cs with
  | zero =>
    obtain rfl : cs = [] := List.eq_nil_of_length_eq_zero (Nat.le_zero.1 hn)
    rw [tokensWithin_nil, tokensWithin_nil]
  | succ n ih =>
    cases cs with
    | nil => rw [tokensWithin_nil, tokensWithin_nil]
    | cons c cs =>
      cases m with
      | zero => cases hm
      | succ m =>
        rw [tokensWithin, tokensWithin]
        cases hstep : step w c cs with
        | none => rfl
        | some r =>
          have hle := length_le_of_step hstep
          have hrest := ih (Nat.le_trans hle (Nat.le_of_succ_le_succ hn))
            (Nat.le_trans hle (Nat.le_of_succ_le_succ hm)) r.1.isWord
          rw [Option.bind_some, Option.bind_some, hrest]

/-- What a run of steps takes off comes first, and the rest is read from where it ends. -/
theorem Scans.tokensWithin {w w' : Bool} {cs us : List Char} {ts : List Token}
    (h : Scans w cs ts w' us) :
    tokensWithin cs.length w cs = (tokensWithin us.length w' us).map (ts ++ ·) := by
  induction h with
  | done w cs =>
    cases Sql.tokensWithin cs.length w cs with
    | none => rfl
    | some ts => rfl
  | @step w w' c cs rest us l ts hstep _ ih =>
    have hrest := tokensWithin_of_length_le (length_le_of_step hstep) (Nat.le_refl _) l.isWord
    rw [List.length_cons, Sql.tokensWithin, hstep, Option.bind_some, hrest, ih, Option.map_map]
    simp only [Function.comp_def, List.append_assoc]

/-- Texts from which the same tokens are cut off up to the same rest have the same tokens. -/
theorem tokens_eq_of_scans {w : Bool} {cs ds us : List Char} {ts : List Token}
    (hc : Scans false cs ts w us) (hd : Scans false ds ts w us) : tokens cs = tokens ds :=
  hc.tokensWithin.trans hd.tokensWithin.symm

theorem Scans.append {w v w' : Bool} {cs mid us : List Char} {ts vs : List Token}
    (h : Scans w cs ts v mid) (h' : Scans v mid vs w' us) : Scans w cs (ts ++ vs) w' us := by
  induction h with
  | done => exact h'
  | step hstep _ ih =>
    rw [List.append_assoc]
    exact .step hstep (ih h')

end Sql
end RecordSieve
