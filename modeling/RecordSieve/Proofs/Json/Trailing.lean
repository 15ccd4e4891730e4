import RecordSieve.Proofs.Json.Rereading
/-!
# RecordSieve.Proofs.Json.Trailing

Space behind a text makes no difference to the value that the text holds.

No token of a JSON text ends in space, and what the space could go on with, the rest of a
string or of an escape, cannot be completed by it. So every reader makes the same of a text
with one more character of space behind it, which it leaves over (`Leaves`), and a longer
text has a larger budget, which is of no use to a reader that consumes at least one
character in every round (`parseChars?_concat`).
-/

namespace RecordSieve.Json

/-! ### One more character -/

/-- What a reader makes of a text, and of this text with `c` behind it: it fails on both, or
reads the same from both and leaves `c`. What it leaves is not longer than the text, which
has at most `n` characters. -/
inductive LeftBehind (c : Char) (n : Nat) {α : Type} :
    Option (α × List Char) → Option (α × List Char) → Prop
  | fails : LeftBehind c n none none
  | reads {x : α} {rest : List Char} (h : rest.length ≤ n) :
      LeftBehind c n (some (x, rest)) (some (x, rest ++ [c]))

/-- The second reader makes of a text with `c` behind it what the first one makes of the
text, for all texts of at most `n` characters. -/
def Leaves (c : Char) (n : Nat) {α : Type} (read read' : Reader α) : Prop :=
  ∀ cs : List Char, cs.length ≤ n → LeftBehind c cs.length (read cs) (read' (cs ++ [c]))

variable {c : Char} {m n : Nat} {α β : Type} {r r' : Option (α × List Char)}

namespace LeftBehind

theorem mono (h : LeftBehind c m r r') (hle : m ≤ n) : LeftBehind c n r r' := by
  cases h with
  | fails => exact .fails
  | reads hrest => exact .reads (Nat.le_trans hrest hle)

/-- What is read next is read from what was left. -/
theorem bind (h : LeftBehind c n r r') {f g : α × List Char → Option (β × List Char)}
    (hnext : ∀ x rest, rest.length ≤ n → LeftBehind c n (f (x, rest)) (g (x, rest ++ [c]))) :
    LeftBehind c n (r.bind f) (r'.bind g) := by
  cases h with
  | fails => exact .fails
  | reads hrest => exact hnext _ _ hrest

theorem map (h : LeftBehind c n r r') (f : α → β) :
    LeftBehind c n (r.map fun p => (f p.1, p.2)) (r'.map fun p => (f p.1, p.2)) := by
  cases h with
  | fails => exact .fails
  | reads hrest => exact .reads hrest

/-- Both take the same branch. -/
theorem branch {p : Prop} [Decidable p] {s s' : Option (α × List Char)} (h : LeftBehind c n r r')
    (h' : LeftBehind c n s s') :
    LeftBehind c n (if p then r else s) (if p then r' else s') := by
  split
  · exact h
  · exact h'

/-- What does not come from the text is the same for both. -/
theorem bind_value {o : Option α} {f g : α → Option (β × List Char)}
    (h : ∀ x, LeftBehind c n (f x) (g x)) : LeftBehind c n (o.bind f) (o.bind g) := by
  cases o with
  | none => exact .fails
  | some x => exact h x

end LeftBehind

variable (hc : isSpace c = true)

include hc

/-- There are four characters of space. -/
theorem eq_of_isSpace : c = ' ' ∨ c = '\t' ∨ c = '\n' ∨ c = '\r' := by
  simpa only [isSpace, Bool.or_eq_true, beq_iff_eq, or_assoc] using hc

/-- Space is none of the characters that a token can go on with. -/
theorem ne_of_isSpace {d : Char} (hd : isSpace d = false) : c ≠ d := by
  rintro rfl
  rw [hc] at hd
  cases hd

/-- The space is not what a text starts with that goes on with another character. -/
theorem exists_of_concat_eq_cons {d : Char} (hd : isSpace d = false) {cs t : List Char}
    (h : cs ++ [c] = d :: t) : ∃ s, cs = d :: s ∧ t = s ++ [c] := by
  cases cs with
  | nil => exact absurd (List.cons.inj h).1 (ne_of_isSpace hc hd)
  | cons e s =>
    obtain ⟨rfl, rfl⟩ := List.cons.inj h
    exact ⟨s, rfl, rfl⟩

/-- A text with space behind it starts as the text does, or both hold nothing but space. -/
theorem skipSpace_concat (cs : List Char) :
    (skipSpace cs = [] ∧ skipSpace (cs ++ [c]) = []) ∨
      ∃ d t, skipSpace cs = d :: t ∧ skipSpace (cs ++ [c]) = d :: (t ++ [c]) ∧
        t.length < cs.length := by
  have happend : skipSpace (cs ++ [c]) =
      if (skipSpace cs).isEmpty then skipSpace [c] else skipSpace cs ++ [c] :=
    List.dropWhile_append
  have hspace : skipSpace [c] = [] := List.dropWhile_cons_of_pos hc
  have hlength : (skipSpace cs).length ≤ cs.length := (List.dropWhile_sublist _).length_le
  cases h : skipSpace cs with
  | nil => exact .inl ⟨rfl, by rw [happend, h, hspace]; rfl⟩
  | cons d t =>
    rw [h, List.length_cons] at hlength
    exact .inr ⟨d, t, rfl, by rw [happend, h]; rfl, hlength⟩

/-! ### Strings -/

theorem hexValue?_of_isSpace : hexValue? c = none := by
  rcases eq_of_isSpace hc with rfl | rfl | rfl | rfl <;> rfl

theorem leaves_readHex4 (n : Nat) : Leaves c n readHex4 readHex4 := by
  intro cs _
  have hhex := hexValue?_of_isSpace hc
  match cs with
  | [] | [_] | [_, _] => exact .fails
  | [a, b, d] =>
    have hfails : readHex4 [a, b, d, c] = none := by
      simp [readHex4, hhex]
    rw [List.cons_append, List.cons_append, List.cons_append, List.nil_append, hfails]
    exact .fails
  | a :: b :: d :: e :: t =>
    refine .bind_value fun a => .bind_value fun b => .bind_value fun d => .bind_value fun e => ?_
    exact .reads (by simp only [List.length_cons]; omega)

theorem leaves_readUnicodeEscape (n : Nat) : Leaves c n readUnicodeEscape readUnicodeEscape := by
  intro cs hn
  refine (leaves_readHex4 hc n cs hn).bind fun x rest hrest => ?_
  simp only
  split
  · split
    · rename_i t
      rw [List.length_cons, List.length_cons] at hrest
      refine ((leaves_readHex4 hc n t (by omega)).mono (by omega)).bind fun y rest hrest => ?_
      simp only
      split
      · exact .reads hrest
      · exact .fails
    · rename_i hescape
      split
      · rename_i h
        obtain ⟨s, rfl, hs⟩ := exists_of_concat_eq_cons hc (by decide) h
        obtain ⟨t, rfl, -⟩ := exists_of_concat_eq_cons hc (by decide) hs.symm
        exact absurd rfl (hescape t)
      · exact .fails
  · split
    · exact .fails
    · exact .reads hrest

theorem leaves_readEscape (n : Nat) : Leaves c n readEscape readEscape := by
  intro cs hn
  cases cs with
  | nil =>
    have hfails : readEscape [c] = none := by
      rcases eq_of_isSpace hc with rfl | rfl | rfl | rfl <;> rfl
    rw [List.nil_append, hfails]
    exact .fails
  | cons d cs =>
    have hreads : ∀ x : Char, LeftBehind c (d :: cs).length (some (x, cs)) (some (x, cs ++ [c])) :=
      fun x => .reads (Nat.le_succ _)
    have hunicode := leaves_readUnicodeEscape hc n cs (Nat.le_of_succ_le hn)
    rw [List.cons_append, readEscape, readEscape]
    refine .branch (hreads _) (.branch (hreads _) (.branch (hreads _) (.branch (hreads _) ?_)))
    refine .branch (hreads _) (.branch (hreads _) (.branch (hreads _) (.branch (hreads _) ?_)))
    exact .branch (hunicode.mono (Nat.le_succ _)) .fails

theorem leaves_readStringBody {fuel fuel' : Nat} (hfuel : n < fuel) (hfuel' : n < fuel') :
    Leaves c n (readStringBody fuel) (readStringBody fuel') := by
  induction fuel generalizing n fuel' with
  | zero => exact absurd hfuel (Nat.not_lt_zero n)
  | succ fuel ih =>
    obtain ⟨fuel', rfl⟩ := Nat.exists_eq_succ_of_ne_zero (Nat.ne_zero_of_lt hfuel')
    intro cs hn
    cases cs with
    | nil =>
      have hquote : c ≠ '"' := ne_of_isSpace hc (by decide)
      have hback : c ≠ '\\' := ne_of_isSpace hc (by decide)
      have hfails : readStringBody (fuel' + 1) [c] = none := by
        rw [readStringBody, if_neg hquote, if_neg hback]
        cases fuel' with
        | _ => simp [readStringBody]
      rw [List.nil_append, hfails]
      exact .fails
    | cons d cs =>
      rw [List.length_cons] at hn
      have hrest : ∀ t : List Char, t.length ≤ cs.length →
          LeftBehind c t.length (readStringBody fuel t) (readStringBody fuel' (t ++ [c])) :=
        fun t ht => ih (n := cs.length) (by omega) (by omega) t ht
      rw [List.cons_append, readStringBody, readStringBody]
      refine .branch (.reads (Nat.le_succ _)) (.branch ?_ (.branch .fails ?_))
      · have hescape := leaves_readEscape hc n cs (by omega)
        refine (hescape.bind fun x rest hx => ?_).mono (Nat.le_succ _)
        exact ((hrest rest hx).mono hx).bind fun y rest hy => .reads hy
      · refine ((hrest cs (Nat.le_refl _)).bind fun y rest hy => ?_).mono (Nat.le_succ _)
        exact .reads hy

theorem leaves_readString {budget budget' : Nat} (h : n < budget) (h' : n < budget') :
    Leaves c n (readString budget) (readString budget') :=
  fun cs hn => (leaves_readStringBody hc h h' cs hn).map String.ofList

/-! ### Numbers -/

theorem isDigit_of_isSpace : c.isDigit = false := by
  rcases eq_of_isSpace hc with rfl | rfl | rfl | rfl <;> rfl

theorem takeWhile_isDigit_concat (cs : List Char) :
    (cs ++ [c]).takeWhile Char.isDigit = cs.takeWhile Char.isDigit := by
  have hnone : [c].takeWhile Char.isDigit = [] :=
    List.takeWhile_cons_of_neg (by simp [isDigit_of_isSpace hc])
  rw [List.takeWhile_append, hnone, List.append_nil]
  split
  · rename_i h
    exact (List.takeWhile_prefix _).eq_of_length h |>.symm
  · rfl

theorem dropWhile_isDigit_concat (cs : List Char) :
    (cs ++ [c]).dropWhile Char.isDigit = cs.dropWhile Char.isDigit ++ [c] := by
  have hall : [c].dropWhile Char.isDigit = [c] :=
    List.dropWhile_cons_of_neg (by simp [isDigit_of_isSpace hc])
  rw [List.dropWhile_append, hall]
  split
  · rename_i h
    rw [List.isEmpty_iff.1 h, List.nil_append]
  · rfl

theorem leaves_readFraction (n : Nat) : Leaves c n readFraction readFraction := by
  intro cs _
  have hlength : ∀ t : List Char, (t.dropWhile Char.isDigit).length ≤ t.length :=
    fun t => (List.dropWhile_sublist _).length_le
  by_cases hpoint : ∃ t, cs = '.' :: t
  · obtain ⟨t, rfl⟩ := hpoint
    rw [List.cons_append, readFraction, readFraction, takeWhile_isDigit_concat hc,
      dropWhile_isDigit_concat hc]
    split
    · exact .fails
    · exact .reads (Nat.le_succ_of_le (hlength t))
  · have hnone : ∀ ds : List Char, (∀ t, ds ≠ '.' :: t) → readFraction ds = some ([], ds) := by
      intro ds hds
      rw [readFraction]
      exact hds
    rw [hnone cs fun t ht => hpoint ⟨t, ht⟩, hnone (cs ++ [c]) fun t ht => ?_]
    · exact .reads (Nat.le_refl _)
    · obtain ⟨s, hs, -⟩ := exists_of_concat_eq_cons hc (by decide) ht
      exact hpoint ⟨s, hs⟩

theorem readSign_concat (cs : List Char) :
    Numeral.readSign (cs ++ [c]) = ((Numeral.readSign cs).1, (Numeral.readSign cs).2 ++ [c]) ∧
      (Numeral.readSign cs).2.length ≤ cs.length := by
  cases cs with
  | nil =>
    rcases eq_of_isSpace hc with rfl | rfl | rfl | rfl <;> exact ⟨rfl, Nat.le_refl _⟩
  | cons d cs =>
    by_cases hplus : d = '+'
    · subst hplus
      exact ⟨rfl, Nat.le_succ _⟩
    by_cases hminus : d = '-'
    · subst hminus
      exact ⟨rfl, Nat.le_succ _⟩
    have hunsigned : ∀ t, Numeral.readSign (d :: t) = (false, d :: t) := by
      intro t
      unfold Numeral.readSign
      split
      · rename_i h
        exact absurd (List.cons.inj h).1 hplus
      · rename_i h
        exact absurd (List.cons.inj h).1 hminus
      · rfl
    rw [List.cons_append, hunsigned, hunsigned]
    exact ⟨rfl, Nat.le_refl _⟩

theorem leaves_readExponent (n : Nat) : Leaves c n readExponent readExponent := by
  intro cs _
  cases cs with
  | nil =>
    have hmark : ¬(c = 'e' ∨ c = 'E') := fun h =>
      h.elim (ne_of_isSpace hc (by decide)) (ne_of_isSpace hc (by decide))
    rw [List.nil_append, readExponent, readExponent, if_neg hmark]
    have hrest : ([] : List Char).length ≤ 0 := Nat.le_refl 0
    exact .reads hrest
  | cons d cs =>
    obtain ⟨hsign, hlength⟩ := readSign_concat hc cs
    have hdigits := (List.dropWhile_sublist Char.isDigit (l := (Numeral.readSign cs).2)).length_le
    rw [List.cons_append, readExponent, readExponent]
    split
    · simp only [hsign, takeWhile_isDigit_concat hc, dropWhile_isDigit_concat hc]
      split
      · exact .fails
      · exact .reads (by rw [List.length_cons]; omega)
    · have hrest : (d :: cs).length ≤ (d :: cs).length := Nat.le_refl _
      exact .reads hrest

theorem leaves_readUnsigned (negative : Bool) (n : Nat) :
    Leaves c n (readUnsigned negative) (readUnsigned negative) := by
  intro cs _
  have hlength := (List.dropWhile_sublist Char.isDigit (l := cs)).length_le
  rw [readUnsigned, readUnsigned, takeWhile_isDigit_concat hc, dropWhile_isDigit_concat hc]
  simp only
  split
  · exact .fails
  · refine ((leaves_readFraction hc _ _ hlength).mono hlength).bind fun fraction rest hrest => ?_
    refine ((leaves_readExponent hc _ rest hrest).mono hrest).bind fun exponent rest hrest => ?_
    refine .bind_value fun x => ?_
    exact .reads hrest

theorem leaves_readNumber (n : Nat) : Leaves c n readNumber readNumber := by
  intro cs hn
  cases cs with
  | nil =>
    have hfails : readNumber [c] = none := by
      rw [readNumber_of_ne (ne_of_isSpace hc (by decide)), readUnsigned,
        List.takeWhile_cons_of_neg (by simp [isDigit_of_isSpace hc])]
      rfl
    rw [List.nil_append, hfails]
    exact .fails
  | cons d cs =>
    rw [List.cons_append]
    by_cases hd : d = '-'
    · subst hd
      rw [readNumber_minus, readNumber_minus]
      exact (leaves_readUnsigned hc true n cs (Nat.le_of_succ_le hn)).mono (Nat.le_succ _)
    · rw [readNumber_of_ne hd, readNumber_of_ne hd]
      exact leaves_readUnsigned hc false n (d :: cs) hn

/-! ### Atoms -/

theorem leftBehind_afterWord {word : List Char} (hword : word.any isSpace = false) (v : Json)
    (cs : List Char) :
    LeftBehind c cs.length ((afterWord word cs).map fun r => (v, r))
      ((afterWord word (cs ++ [c])).map fun r => (v, r)) := by
  by_cases hlength : word.length ≤ cs.length
  · rw [afterWord, afterWord, List.take_append_of_le_length hlength,
      List.drop_append_of_le_length hlength]
    split
    · exact .reads (List.drop_sublist _ _).length_le
    · exact .fails
  · have hshort : cs.take word.length ≠ word := by
      intro h
      have := congrArg List.length h
      rw [List.length_take] at this
      omega
    have hspace : (cs ++ [c]).take word.length ≠ word := by
      intro h
      have hmem : c ∈ word := by
        rw [← h, List.take_of_length_le (by simp; omega)]
        exact List.mem_append_right _ (List.mem_singleton_self c)
      exact List.any_eq_false.1 hword c hmem hc
    rw [afterWord, afterWord, if_neg hshort, if_neg hspace]
    exact .fails

theorem leaves_readAtom {budget budget' : Nat} (h : n < budget) (h' : n < budget') :
    Leaves c n (readAtom budget) (readAtom budget') := by
  intro cs hn
  cases cs with
  | nil =>
    have hfails : readAtom budget' [c] = none := by
      rcases eq_of_isSpace hc with rfl | rfl | rfl | rfl <;> rfl
    rw [List.nil_append, hfails]
    exact .fails
  | cons d cs =>
    have hstring := (leaves_readString hc h h' cs (Nat.le_of_succ_le hn)).map Json.string
    have hnumber := (leaves_readNumber hc n (d :: cs) hn).map Json.number
    rw [List.cons_append, readAtom, readAtom]
    refine .branch (hstring.mono (Nat.le_succ _)) (.branch ?_ (.branch ?_ (.branch ?_ hnumber)))
    · exact leftBehind_afterWord hc rfl .null (d :: cs)
    · exact leftBehind_afterWord hc rfl (.boolean true) (d :: cs)
    · exact leftBehind_afterWord hc rfl (.boolean false) (d :: cs)

/-! ### Containers -/

section Containers

variable {item item' : Reader α}

theorem leaves_readList (hitem : Leaves c n item item') {close : Char} {fuel fuel' : Nat}
    (hfuel : n < fuel) (hfuel' : n < fuel') :
    Leaves c n (readList item close fuel) (readList item' close fuel') := by
  induction fuel generalizing n fuel' with
  | zero => exact absurd hfuel (Nat.not_lt_zero n)
  | succ fuel ih =>
    obtain ⟨fuel', rfl⟩ := Nat.exists_eq_succ_of_ne_zero (Nat.ne_zero_of_lt hfuel')
    intro cs hn
    rw [readList, readList]
    refine (hitem cs hn).bind fun x rest hrest => ?_
    simp only
    rcases skipSpace_concat hc rest with ⟨hskip, hskip'⟩ | ⟨d, t, hskip, hskip', ht⟩
    · rw [hskip, hskip']
      exact .fails
    · rw [hskip, hskip']
      simp only
      split
      · have hshort : Leaves c t.length item item' := fun ds hds => hitem ds (by omega)
        have hfuel'' : t.length < fuel' := by omega
        have hmore := ih hshort (by omega) hfuel'' t (Nat.le_refl _)
        exact (hmore.mono (by omega)).bind fun xs rest hrest => .reads hrest
      · split
        · exact .reads (by omega)
        · exact .fails

variable {value value' : Reader Json} {budget budget' : Nat}

theorem leaves_readMember (hvalue : Leaves c n value value') (h : n < budget) (h' : n < budget') :
    Leaves c n (readMember value budget) (readMember value' budget') := by
  intro cs hn
  rw [readMember, readMember]
  rcases skipSpace_concat hc cs with ⟨hskip, hskip'⟩ | ⟨d, t, hskip, hskip', ht⟩
  · rw [hskip, hskip']
    exact .fails
  rw [hskip, hskip']
  by_cases hquote : d = '"'
  · subst hquote
    refine ((leaves_readString hc h h' t (by omega)).mono (by omega)).bind fun key rest hrest => ?_
    simp only
    rcases skipSpace_concat hc rest with ⟨hskip, hskip'⟩ | ⟨d, t, hskip, hskip', ht⟩
    · rw [hskip, hskip']
      exact .fails
    rw [hskip, hskip']
    by_cases hcolon : d = ':'
    · subst hcolon
      exact ((hvalue t (by omega)).mono (by omega)).bind fun v rest hrest => .reads hrest
    · split
      · rename_i he
        exact absurd (List.cons.inj he).1 hcolon
      · split
        · rename_i he
          exact absurd (List.cons.inj he).1 hcolon
        · exact .fails
  · split
    · rename_i he
      exact absurd (List.cons.inj he).1 hquote
    · split
      · rename_i he
        exact absurd (List.cons.inj he).1 hquote
      · exact .fails

end Containers

omit hc in
theorem readValue_nil (budget depth : Nat) : readValue budget depth [] = none := by
  cases depth with
  | _ => rfl

theorem leaves_readArray {depth budget budget' : Nat} (h : n < budget) (h' : n < budget')
    (hvalue : Leaves c n (readValue budget depth) (readValue budget' depth)) :
    Leaves c n (readArray (readValue budget depth) budget)
      (readArray (readValue budget' depth) budget') := by
  intro cs hn
  have hnil : ∀ b ds, skipSpace ds = [] → readArray (readValue b depth) b ds = none := by
    intro b ds hds
    rw [readArray, hds]
    cases b with
    | zero => rfl
    | succ b =>
      simp only
      rw [readItems, readValue_nil]
      rfl
  rcases skipSpace_concat hc cs with ⟨hskip, hskip'⟩ | ⟨d, t, hskip, hskip', ht⟩
  · rw [hnil _ _ hskip, hnil _ _ hskip']
    exact .fails
  by_cases hclose : d = ']'
  · subst hclose
    rw [readArray, readArray, hskip, hskip']
    exact .reads (Nat.le_of_lt ht)
  · rw [readArray_of_head (readValue_skipSpace _ _) hclose hskip,
      readArray_of_head (readValue_skipSpace _ _) hclose hskip']
    exact (leaves_readList hc hvalue h h' cs hn).map Json.array

theorem leaves_readObject {value value' : Reader Json} {budget budget' : Nat} (h : n < budget)
    (h' : n < budget') (hvalue : Leaves c n value value') :
    Leaves c n (readObject value budget) (readObject value' budget') := by
  intro cs hn
  have hnil : ∀ (value : Reader Json) b ds, skipSpace ds = [] → readObject value b ds = none := by
    intro value b ds hds
    rw [readObject, hds]
    cases b with
    | _ => rfl
  rcases skipSpace_concat hc cs with ⟨hskip, hskip'⟩ | ⟨d, t, hskip, hskip', ht⟩
  · rw [hnil _ _ _ hskip, hnil _ _ _ hskip']
    exact .fails
  by_cases hclose : d = '\x7d'
  · subst hclose
    rw [readObject, readObject, hskip, hskip']
    exact .reads (Nat.le_of_lt ht)
  · rw [readObject_of_head hclose hskip, readObject_of_head hclose hskip']
    exact (leaves_readList hc (leaves_readMember hc hvalue h h') h h' cs hn).map Json.ofPairs

theorem leaves_readValue (depth : Nat) {budget budget' : Nat} (h : n < budget) (h' : n < budget') :
    Leaves c n (readValue budget depth) (readValue budget' depth) := by
  induction depth with
  | zero =>
    intro cs hn
    rw [readValue, readValue]
    rcases skipSpace_concat hc cs with ⟨hskip, hskip'⟩ | ⟨d, t, hskip, hskip', ht⟩
    · rw [hskip, hskip']
      exact .fails
    · rw [hskip, hskip']
      exact (leaves_readAtom hc h h' (d :: t) (Nat.le_trans ht hn)).mono ht
  | succ depth ih =>
    intro cs hn
    rw [readValue, readValue]
    rcases skipSpace_concat hc cs with ⟨hskip, hskip'⟩ | ⟨d, t, hskip, hskip', ht⟩
    · rw [hskip, hskip']
      exact .fails
    rw [hskip, hskip']
    by_cases hbracket : d = '['
    · subst hbracket
      exact (leaves_readArray hc h h' ih t (by omega)).mono (by omega)
    by_cases hbrace : d = '\x7b'
    · subst hbrace
      exact (leaves_readObject hc h h' ih t (by omega)).mono (by omega)
    · have hatom := leaves_readAtom hc h h' (d :: t) (Nat.le_trans ht hn)
      split
      · rename_i he
        exact absurd (List.cons.inj he).1 hbracket
      · rename_i he
        exact absurd (List.cons.inj he).1 hbrace
      · split
        · rename_i he
          exact absurd (List.cons.inj he).1 hbracket
        · rename_i he
          exact absurd (List.cons.inj he).1 hbrace
        · exact hatom.mono ht

/-! ### Whole texts -/

/-- A text with space behind it holds the value that the text holds. -/
theorem parseChars?_concat (cs : List Char) : parseChars? (cs ++ [c]) = parseChars? cs := by
  have hlonger : cs.length < (cs ++ [c]).length + 1 := by
    rw [List.length_append]
    omega
  have hread := leaves_readValue hc depthLimit (Nat.lt_succ_self cs.length) hlonger cs
    (Nat.le_refl _)
  rw [parseChars?, parseChars?]
  generalize readValue (cs.length + 1) depthLimit cs = r at hread
  generalize readValue ((cs ++ [c]).length + 1) depthLimit (cs ++ [c]) = r' at hread
  cases hread with
  | fails => rfl
  | @reads v rest _ =>
    rcases skipSpace_concat hc rest with ⟨hskip, hskip'⟩ | ⟨d, t, hskip, hskip', -⟩
    · simp only [hskip, hskip']
    · simp only [hskip, hskip']
      rfl

end RecordSieve.Json
