import Mathlib.Data.List.DropRight
import RecordSieve.Proofs.Json.Numeral
import RecordSieve.Proofs.Json.Reading
/-!
# RecordSieve.Proofs.Json.Rereading

What becomes of a value that is written and read again.

`reread depth v` is that value, computed from `v` alone: numbers are what their texts
are read as, members are put in order, and what nests too deep is not read. It is what
every text of `v` is read as, however it is laid out (`parseChars?_of_laidOut`), so a value
whose compact text parses back does so within every text it is laid out in.
-/

namespace RecordSieve.Json

/-! ### Values read again -/

/-- What the text of a value is read as with containers that nest `depth` deep. -/
def reread : Nat → Json → Option Json
  | depth + 1, array vs => (vs.mapM (reread depth)).map array
  | depth + 1, object ms =>
    (ms.mapM fun m => (reread depth m.2).map fun w => (m.1, w)).map Json.ofPairs
  | 0, array _ | 0, object _ => none
  | _, number n => (readAtom 0 (renderNumber n)).map Prod.fst
  | _, v => some v

/-- A value whose containers nest at most that deep. -/
def IsWithin : Nat → Json → Prop
  | depth + 1, array vs => ∀ v ∈ vs, IsWithin depth v
  | depth + 1, object ms => ∀ m ∈ ms, IsWithin depth m.2
  | _, v => v.isContainer = false

theorem reread_array (depth : Nat) (vs : List Json) :
    reread (depth + 1) (array vs) = (vs.mapM (reread depth)).map array := rfl

/-- What the values of members are read as. -/
def rereadMembers (depth : Nat) (ms : Members) : Option Members :=
  ms.mapM fun m => (reread depth m.2).map fun w => (m.1, w)

theorem reread_object (depth : Nat) (ms : Members) :
    reread (depth + 1) (object ms) = (rereadMembers depth ms).map Json.ofPairs := rfl

@[simp] theorem reread_null (depth : Nat) : reread depth null = some null := by
  cases depth with
  | _ => rfl

@[simp] theorem reread_boolean (depth : Nat) (b : Bool) :
    reread depth (boolean b) = some (boolean b) := by
  cases depth with
  | _ => rfl

@[simp] theorem reread_string (depth : Nat) (s : String) :
    reread depth (string s) = some (string s) := by
  cases depth with
  | _ => rfl

/-- The depth does not matter for a value without parts. -/
theorem reread_of_not_isContainer {v : Json} (h : v.isContainer = false) (depth : Nat) :
    reread depth v = reread 0 v := by
  cases v with
  | array | object => cases h
  | _ => cases depth <;> rfl

/-- Reading each item of a list gives the list of what the items are read as. -/
theorem mapM_eq_some_map_iff {α β : Type} {f : α → Option β} {g : α → β} {xs : List α} :
    xs.mapM f = some (xs.map g) ↔ ∀ x ∈ xs, f x = some (g x) := by
  induction xs with
  | nil => simp
  | cons x xs ih =>
    cases hx : f x with
    | none => simp [hx]
    | some y =>
      cases hxs : xs.mapM f with
      | none => simpa [hx, hxs] using fun _ => ih.not.1 (by simp [hxs])
      | some ys =>
        rw [hxs] at ih
        simp [hx, hxs, ← ih, Option.some.injEq]

/-- Every item of a list that was read comes from an item that it was read of. -/
theorem exists_of_mem_mapM {α β : Type} {f : α → Option β} {xs : List α} {ys : List β}
    (h : xs.mapM f = some ys) {y : β} (hy : y ∈ ys) : ∃ x ∈ xs, f x = some y := by
  induction xs generalizing ys with
  | nil =>
    cases h
    cases hy
  | cons x xs ih =>
    rw [List.mapM_cons] at h
    obtain ⟨z, hz, h⟩ := Option.bind_eq_some_iff.1 h
    obtain ⟨zs, hzs, h⟩ := Option.bind_eq_some_iff.1 h
    cases h
    rcases List.mem_cons.1 hy with rfl | hy
    · exact ⟨x, List.mem_cons_self, hz⟩
    · obtain ⟨w, hw, hwy⟩ := ih hzs hy
      exact ⟨w, List.mem_cons_of_mem _ hw, hwy⟩

/-! ### Reading what is laid out -/

/-- A result with the space behind what was read skipped. -/
def skipBehind {α : Type} (r : Option (α × List Char)) : Option (α × List Char) :=
  r.map fun p => (p.1, skipSpace p.2)

theorem skipBehind_eq_map_iff {α : Type} {r : Option (α × List Char)} {y : Option α}
    {rest : List Char} :
    (skipBehind r = y.map fun x => (x, skipSpace rest)) ↔
      (r = none ∧ y = none) ∨
        ∃ x behind, r = some (x, behind) ∧ y = some x ∧ skipSpace behind = skipSpace rest := by
  cases r with
  | none => cases y <;> simp [skipBehind]
  | some p =>
    obtain ⟨x, behind⟩ := p
    cases y with
    | none => simp [skipBehind]
    | some z => simp [skipBehind, eq_comm]

section Space

variable {c : Char} (h : isSpace c = true)

include h

theorem skipSpace_cons (cs : List Char) : skipSpace (c :: cs) = skipSpace cs :=
  List.dropWhile_cons_of_pos h

theorem endsNumeral_space (cs : List Char) : EndsNumeral (c :: cs) := by
  simp only [isSpace, Bool.or_eq_true, beq_iff_eq] at h
  rcases h with ((rfl | rfl) | rfl) | rfl <;> exact endsNumeral_cons rfl cs

end Space

theorem skipSpace_of_not {c : Char} (h : isSpace c = false) (cs : List Char) :
    skipSpace (c :: cs) = c :: cs :=
  List.dropWhile_cons_of_neg (by simp [h])

theorem skipSpace_append {space : List Char} (h : ∀ c ∈ space, isSpace c = true)
    (cs : List Char) : skipSpace (space ++ cs) = skipSpace cs := by
  induction space with
  | nil => rfl
  | cons c space ih =>
    rw [List.cons_append, skipSpace_cons (h c List.mem_cons_self),
      ih fun d hd => h d (List.mem_cons_of_mem _ hd)]

theorem skipSpace_skipSpace (cs : List Char) : skipSpace (skipSpace cs) = skipSpace cs :=
  List.dropWhile_idempotent ..

/-- Space in front of a value is skipped. -/
theorem readValue_skipSpace (budget depth : Nat) (cs : List Char) :
    readValue budget depth (skipSpace cs) = readValue budget depth cs := by
  cases depth with
  | _ => simp only [readValue, skipSpace_skipSpace]

/-! ### Atoms -/

theorem IsNumeral.exists_head {cs : List Char} (h : IsNumeral cs) :
    ∃ c t, cs = c :: t ∧ (c = '-' ∨ c.isDigit = true) := by
  obtain ⟨hsign, hwhole, -, -, -⟩ := h
  rcases hsign with rfl | rfl
  · obtain ⟨c, t, hct⟩ := List.exists_cons_of_ne_nil hwhole.ne_nil
    have hc := hwhole.digits c (hct ▸ List.mem_cons_self)
    exact ⟨c, _, by rw [List.nil_append, hct, List.cons_append], .inr hc⟩
  · exact ⟨'-', _, rfl, .inl rfl⟩

/-- A number is written as a numeral or, when it is no number at all, as null. -/
theorem renderNumber_cases (n : JsonNumber) :
    IsNumeral (renderNumber n) ∨ renderNumber n = "null".toList ∨
      renderNumber n = '-' :: "null".toList := by
  cases n with
  | integer n => exact .inl (isNumeral_renderInt n)
  | double x =>
    by_cases hfinite : x.isFinite = true
    · exact .inl (isNumeral_renderNumber fun y hy => by cases hy; exact hfinite)
    · refine .inr ?_
      rw [renderNumber, NumberForm.render]
      simp only [hfinite, Bool.false_eq_true, if_false]
      split
      · exact .inl rfl
      · split
        · exact .inr rfl
        · exact .inl rfl

theorem readAtom_of_number {c : Char} (h : c = '-' ∨ c.isDigit = true) (budget : Nat)
    (cs : List Char) :
    readAtom budget (c :: cs) = (readNumber (c :: cs)).map fun p => (.number p.1, p.2) := by
  have hne : c ≠ '"' ∧ c ≠ 'n' ∧ c ≠ 't' ∧ c ≠ 'f' := by
    rcases h with rfl | h
    · decide
    · refine ⟨?_, ?_, ?_, ?_⟩ <;> (rintro rfl; cases h)
  rw [readAtom, if_neg hne.1, if_neg hne.2.1, if_neg hne.2.2.1, if_neg hne.2.2.2]

/-- What the text of a number is read as does not depend on what follows it. -/
theorem readAtom_renderNumber {rest : List Char} (n : JsonNumber) (hrest : EndsNumeral rest)
    (budget : Nat) :
    readAtom budget (renderNumber n ++ rest) =
      (readAtom 0 (renderNumber n)).map fun p => (p.1, rest) := by
  rcases renderNumber_cases n with h | h | h
  · obtain ⟨p, hp⟩ := h.exists_parts
    obtain ⟨c, t, hct, hc⟩ := h.exists_head
    have hbehind := hp rest hrest
    have halone := hp [] endsNumeral_nil
    rw [List.append_nil] at halone
    rw [hct, List.cons_append] at hbehind
    rw [hct] at halone ⊢
    rw [List.cons_append, readAtom_of_number hc, readAtom_of_number hc, hbehind, halone]
    simp only [Option.map_map, Function.comp_def]
  · rw [h]
    rfl
  · rw [h]
    rfl

/-- What the text of a value without parts starts with. -/
def isAtomStart (c : Char) : Bool :=
  c == '"' || c == '-' || c == 'n' || c == 't' || c == 'f' || c.isDigit

theorem exists_head_render {v : Json} (h : v.isContainer = false) :
    ∃ c t, v.render = c :: t ∧ isAtomStart c = true := by
  cases v with
  | array | object => cases h
  | null => exact ⟨'n', _, rfl, rfl⟩
  | boolean b =>
    cases b with
    | true => exact ⟨'t', _, rfl, rfl⟩
    | false => exact ⟨'f', _, rfl, rfl⟩
  | string s => exact ⟨'"', _, rfl, rfl⟩
  | number n =>
    rw [render]
    rcases renderNumber_cases n with h | h | h
    · obtain ⟨c, t, hct, hc⟩ := h.exists_head
      refine ⟨c, t, hct, ?_⟩
      rcases hc with rfl | hc
      · rfl
      · simp [isAtomStart, hc]
    · exact ⟨'n', _, h, rfl⟩
    · exact ⟨'-', _, h, rfl⟩

theorem ne_of_isAtomStart {c d : Char} (h : isAtomStart c = true) (hd : isAtomStart d = false) :
    c ≠ d := by
  rintro rfl
  rw [h] at hd
  cases hd

theorem isSpace_of_isAtomStart {c : Char} (h : isAtomStart c = true) : isSpace c = false := by
  simp only [isSpace, Bool.or_eq_false_iff, beq_eq_false_iff_ne]
  exact ⟨⟨⟨ne_of_isAtomStart h rfl, ne_of_isAtomStart h rfl⟩, ne_of_isAtomStart h rfl⟩,
    ne_of_isAtomStart h rfl⟩

theorem readAtom_render {v : Json} {budget : Nat} {rest : List Char} (h : v.isContainer = false)
    (hbudget : v.render.length ≤ budget) (hrest : EndsNumeral rest) (depth : Nat) :
    readAtom budget (v.render ++ rest) = (reread depth v).map fun w => (w, rest) := by
  rw [reread_of_not_isContainer h]
  cases v with
  | array | object => cases h
  | null => rfl
  | boolean b =>
    cases b with
    | _ => rfl
  | number n =>
    rw [render, readAtom_renderNumber n hrest, reread, Option.map_map]
    rfl
  | string s =>
    have hread := readString_renderString hbudget rest
    rw [render, renderString, List.cons_append, List.append_assoc, readAtom, if_pos rfl]
    rw [List.singleton_append, hread]
    rfl

/-- A laid out value starts, after space, with a character that ends no array. -/
theorem LaidOut.exists_head {v : Json} {cs : List Char} (h : LaidOut v cs) :
    ∃ c t, c ≠ ']' ∧ ∀ rest, skipSpace (cs ++ rest) = c :: (t ++ rest) := by
  induction h with
  | atom h =>
    obtain ⟨c, t, hct, hc⟩ := exists_head_render h
    refine ⟨c, t, ne_of_isAtomStart hc rfl, fun rest => ?_⟩
    rw [hct, List.cons_append, skipSpace_of_not (isSpace_of_isAtomStart hc)]
  | array _ _ _ _ => exact ⟨'[', _, by decide, fun rest => skipSpace_of_not rfl _⟩
  | object _ _ _ => exact ⟨'\x7b', _, by decide, fun rest => skipSpace_of_not rfl _⟩
  | before hc _ ih =>
    obtain ⟨c, t, hne, ih⟩ := ih
    exact ⟨c, t, hne, fun rest => (skipSpace_cons hc _).trans (ih rest)⟩
  | @behind _ _ d _ _ ih =>
    obtain ⟨c, t, hne, ih⟩ := ih
    refine ⟨c, t ++ [d], hne, fun rest => ?_⟩
    rw [List.append_assoc, ih, List.append_assoc]

/-! ### Lists -/

theorem length_le_commas (ts : List (List Char)) : ts.length ≤ (commas ts).length + 1 := by
  induction ts with
  | nil => exact Nat.zero_le _
  | cons t ts ih =>
    cases ts with
    | nil => simp
    | cons u ts =>
      rw [commas_cons_cons, List.length_append, List.length_cons]
      exact Nat.succ_le_succ (Nat.le_trans ih (Nat.le_add_left _ _))

theorem length_le_of_mem_commas {t : List Char} {ts : List (List Char)} (h : t ∈ ts) :
    t.length ≤ (commas ts).length := by
  induction ts with
  | nil => cases h
  | cons u ts ih =>
    cases ts with
    | nil => rw [List.mem_singleton.1 h, commas]
    | cons w ts =>
      rw [commas_cons_cons, List.length_append, List.length_cons]
      rcases List.mem_cons.1 h with rfl | h
      · omega
      · have := ih h
        omega

/-- Reading a list whose first item is read: what stands behind the item decides. -/
theorem readList_succ {α : Type} {item : Reader α} {close : Char} {fuel : Nat}
    {cs rest : List Char} {y : Option α}
    (h : skipBehind (item cs) = y.map fun x => (x, skipSpace rest)) :
    readList item close (fuel + 1) cs = y.bind fun x =>
      match skipSpace rest with
      | [] => none
      | c :: cs =>
        if c = ',' then (readList item close fuel cs).map fun p => (x :: p.1, p.2)
        else if c = close then some ([x], cs)
        else none := by
  rw [readList]
  rcases skipBehind_eq_map_iff.1 h with ⟨hitem, rfl⟩ | ⟨x, behind, hitem, rfl, hbehind⟩
  · rw [hitem]
    rfl
  · simp only [hitem, Option.bind_eq_bind, Option.bind_some, hbehind]
    cases skipSpace rest with
    | nil => rfl
    | cons c cs =>
      simp only
      split
      · cases readList item close fuel cs with
        | _ => rfl
      · rfl

/-- What can close a list: no comma, no space and no part of a number. -/
structure IsClosing (c : Char) : Prop where
  ne_comma : c ≠ ','
  not_space : isSpace c = false
  not_numeral : isNumeralPart c = false

theorem isClosing_bracket : IsClosing ']' := ⟨by decide, rfl, rfl⟩

theorem isClosing_brace : IsClosing '\x7d' := ⟨by decide, rfl, rfl⟩

/-- A list is read when each of its items is, whatever follows it. -/
theorem readList_commas {α β : Type} {item : Reader α} (f : β → Option α)
    (text : β → List Char) {close : Char} {xs : List β} {back : List Char} {fuel : Nat}
    (hclose : IsClosing close)
    (hback : ∀ c ∈ back, isSpace c = true) (hne : xs ≠ []) (hfuel : xs.length ≤ fuel)
    (h : ∀ x ∈ xs, ∀ rest, EndsNumeral rest →
      skipBehind (item (text x ++ rest)) = (f x).map fun y => (y, skipSpace rest))
    (rest : List Char) :
    readList item close fuel (commas (xs.map text) ++ (back ++ close :: rest)) =
      (xs.mapM f).map fun ys => (ys, rest) := by
  induction xs generalizing fuel with
  | nil => exact absurd rfl hne
  | cons x xs ih =>
    obtain ⟨fuel, rfl⟩ := Nat.exists_eq_succ_of_ne_zero (Nat.ne_of_gt (Nat.zero_lt_of_lt hfuel))
    have hx := h x List.mem_cons_self
    cases xs with
    | nil =>
      have hends : EndsNumeral (back ++ close :: rest) := by
        cases back with
        | nil => exact endsNumeral_cons hclose.not_numeral rest
        | cons c back => exact endsNumeral_space (hback c List.mem_cons_self) _
      have hskip : skipSpace (back ++ close :: rest) = close :: rest := by
        rw [skipSpace_append hback, skipSpace_of_not hclose.not_space]
      rw [List.map_singleton, commas, readList_succ (hx _ hends), hskip]
      simp only [if_neg hclose.ne_comma, if_true, List.mapM_cons, List.mapM_nil]
      cases f x with
      | _ => rfl
    | cons z xs =>
      have hrest := ih (by simp) (Nat.le_of_succ_le_succ hfuel) fun w hw =>
        h w (List.mem_cons_of_mem _ hw)
      rw [List.map_cons] at hrest
      rw [List.map_cons, List.map_cons, commas_cons_cons, List.append_assoc, List.cons_append,
        readList_succ (hx _ (endsNumeral_cons rfl _)), skipSpace_of_not rfl]
      simp only [if_true, hrest, List.mapM_cons (l := z :: xs)]
      cases f x with
      | none => rfl
      | some y =>
        cases (z :: xs).mapM f with
        | _ => rfl

/-! ### Containers -/

/-- A member is read when its value is. -/
theorem readMember_laid {value : Reader Json} {f : Json → Option Json} {budget : Nat}
    {m : LaidMember} {rest : List Char} (hspace : ∀ c ∈ m.space, isSpace c = true)
    (hbudget : m.laid.length ≤ budget)
    (h : skipBehind (value (m.text ++ rest)) = (f m.value).map fun w => (w, skipSpace rest)) :
    skipBehind (readMember value budget (m.laid ++ rest)) =
      ((f m.value).map fun w => (m.key, w)).map fun n => (n, skipSpace rest) := by
  rw [LaidMember.laid, memberText, List.length_append, List.length_append] at hbudget
  have hkey : readString budget (m.key.toList.flatMap renderChar ++ '"' :: ':' :: (m.text ++ rest)) =
      some (m.key, ':' :: (m.text ++ rest)) := readString_renderString (by omega) _
  have hskip : skipSpace (m.laid ++ rest) =
      '"' :: (m.key.toList.flatMap renderChar ++ '"' :: ':' :: (m.text ++ rest)) := by
    rw [LaidMember.laid, List.append_assoc, skipSpace_append hspace, memberText, renderString,
      List.cons_append, List.cons_append, skipSpace_of_not rfl]
    simp
  rw [readMember, hskip]
  simp only [hkey, Option.bind_eq_bind, Option.bind_some, skipSpace_of_not (c := ':') rfl]
  rcases skipBehind_eq_map_iff.1 h with ⟨hread, hf⟩ | ⟨w, behind, hread, hf, hbehind⟩
  · rw [hread, hf]
    rfl
  · simp [hread, hf, skipBehind, hbehind]

section Containers

variable {value : Reader Json} {f : Json → Option Json} {budget : Nat}
  (hvalue : ∀ cs, value (skipSpace cs) = value cs)

/-- Items are read whatever space stands in front of them. -/
theorem readList_skipSpace {α : Type} {item : Reader α}
    (hitem : ∀ cs, item (skipSpace cs) = item cs) (close : Char) (fuel : Nat) (cs : List Char) :
    readList item close fuel (skipSpace cs) = readList item close fuel cs := by
  cases fuel with
  | zero => rfl
  | succ fuel => rw [readList, readList, hitem]

theorem exists_commas_cons (t : List Char) (ts : List (List Char)) :
    ∃ more, commas (t :: ts) = t ++ more := by
  cases ts with
  | nil => exact ⟨[], (List.append_nil t).symm⟩
  | cons u ts => exact ⟨_, commas_cons_cons t u ts⟩

include hvalue in
/-- Only the closing bracket ends an array without items. -/
theorem readArray_of_head {c : Char} {cs t : List Char} (hc : c ≠ ']') (h : skipSpace cs = c :: t) :
    readArray value budget cs =
      (readList value ']' budget cs).map fun p => (array p.1, p.2) := by
  rw [readArray]
  split
  · rename_i hclose
    rw [h] at hclose
    exact absurd (List.cons.inj hclose).1 hc
  · rw [readItems_eq_readList, readList_skipSpace hvalue]

include hvalue in
theorem readArray_laid {items : List (Json × List Char)} {front back : List Char}
    (hfront : ∀ c ∈ front, isSpace c = true) (hback : ∀ c ∈ back, isSpace c = true)
    (hlaid : ∀ p ∈ items, LaidOut p.1 p.2) (hbudget : items.length ≤ budget)
    (h : ∀ p ∈ items, ∀ rest, EndsNumeral rest →
      skipBehind (value (p.2 ++ rest)) = (f p.1).map fun w => (w, skipSpace rest))
    (rest : List Char) :
    readArray value budget (front ++ (commas (items.map Prod.snd) ++ (back ++ ']' :: rest))) =
      (((items.map Prod.fst).mapM f).map array).map fun w => (w, rest) := by
  cases items with
  | nil =>
    have hclose : skipSpace (']' :: rest) = ']' :: rest := skipSpace_of_not rfl rest
    rw [readArray, List.map_nil, commas, List.nil_append, skipSpace_append hfront,
      skipSpace_append hback, hclose]
    rfl
  | cons p items =>
    obtain ⟨c, t, hc, hhead⟩ := (hlaid p List.mem_cons_self).exists_head
    obtain ⟨more, hmore⟩ := exists_commas_cons p.2 (items.map Prod.snd)
    have hlist := readList_commas (fun p => f p.1) Prod.snd isClosing_bracket hback
      (List.cons_ne_nil p items) hbudget h rest
    have hstart : skipSpace (front ++ (commas ((p :: items).map Prod.snd) ++ (back ++ ']' :: rest))) =
        c :: (t ++ (more ++ (back ++ ']' :: rest))) := by
      rw [skipSpace_append hfront, List.map_cons, hmore, List.append_assoc, hhead]
    rw [readArray_of_head hvalue hc hstart, ← readList_skipSpace hvalue, skipSpace_append hfront,
      readList_skipSpace hvalue, hlist, List.mapM_map]
    simp only [Option.map_map, Function.comp_def]

/-- Only the closing brace ends an object without members. -/
theorem readObject_of_head {c : Char} {cs t : List Char} (hc : c ≠ '\x7d')
    (h : skipSpace cs = c :: t) :
    readObject value budget cs =
      (readList (readMember value budget) '\x7d' budget cs).map fun p => (Json.ofPairs p.1, p.2) := by
  have hmember : ∀ cs, readMember value budget (skipSpace cs) = readMember value budget cs := by
    intro cs
    rw [readMember, readMember, skipSpace_skipSpace]
  rw [readObject]
  split
  · rename_i hclose
    rw [h] at hclose
    exact absurd (List.cons.inj hclose).1 hc
  · rw [readMembers_eq_readList, readList_skipSpace hmember]
    rfl

theorem readObject_laid {members : List LaidMember}
    (hspace : ∀ m ∈ members, ∀ c ∈ m.space, isSpace c = true)
    (hlength : ∀ m ∈ members, m.laid.length ≤ budget) (hbudget : members.length ≤ budget)
    (h : ∀ m ∈ members, ∀ rest, EndsNumeral rest →
      skipBehind (value (m.text ++ rest)) = (f m.value).map fun w => (w, skipSpace rest))
    (rest : List Char) :
    readObject value budget (commas (members.map LaidMember.laid) ++ '\x7d' :: rest) =
      (((members.map LaidMember.member).mapM fun m => (f m.2).map fun w => (m.1, w)).map
        Json.ofPairs).map fun w => (w, rest) := by
  cases members with
  | nil =>
    have hclose : skipSpace ('\x7d' :: rest) = '\x7d' :: rest := skipSpace_of_not rfl rest
    rw [readObject, List.map_nil, commas, List.nil_append, hclose]
    rfl
  | cons m members =>
    have hmember : ∀ m' ∈ m :: members, ∀ rest, EndsNumeral rest →
        skipBehind (readMember value budget (m'.laid ++ rest)) =
          ((f m'.value).map fun w => (m'.key, w)).map fun n => (n, skipSpace rest) :=
      fun m' hm' rest hrest =>
        readMember_laid (hspace m' hm') (hlength m' hm') (h m' hm' rest hrest)
    obtain ⟨more, hmore⟩ := exists_commas_cons m.laid (members.map LaidMember.laid)
    have hback : ∀ c ∈ ([] : List Char), isSpace c = true := List.forall_mem_nil _
    have hlist := readList_commas _ LaidMember.laid isClosing_brace hback
      (List.cons_ne_nil m members) hbudget hmember rest
    rw [List.nil_append] at hlist
    have hstart : ∃ t, skipSpace (commas ((m :: members).map LaidMember.laid) ++ '\x7d' :: rest) =
        '"' :: t := by
      rw [List.map_cons, hmore, LaidMember.laid, List.append_assoc, List.append_assoc,
        skipSpace_append (hspace m List.mem_cons_self)]
      exact ⟨_, skipSpace_of_not rfl _⟩
    obtain ⟨t, hstart⟩ := hstart
    rw [readObject_of_head (by decide) hstart, hlist, List.mapM_map]
    simp only [Option.map_map, Function.comp_def]
    rfl

end Containers

theorem readValue_array (budget depth : Nat) (cs : List Char) :
    readValue budget (depth + 1) ('[' :: cs) = readArray (readValue budget depth) budget cs := by
  rw [readValue, skipSpace_of_not rfl]
  rfl

theorem readValue_object (budget depth : Nat) (cs : List Char) :
    readValue budget (depth + 1) ('\x7b' :: cs) = readObject (readValue budget depth) budget cs := by
  rw [readValue, skipSpace_of_not rfl]
  rfl

/-- What starts as an atom is read as one at any depth. -/
theorem readValue_atom {c : Char} (h : isAtomStart c = true) (budget depth : Nat) (cs : List Char) :
    readValue budget depth (c :: cs) = readAtom budget (c :: cs) := by
  have hskip := skipSpace_of_not (isSpace_of_isAtomStart h) cs
  cases depth with
  | zero => rw [readValue, hskip]
  | succ depth =>
    rw [readValue, hskip]
    split
    · rename_i he
      exact absurd (List.cons.inj he).1 (ne_of_isAtomStart h rfl)
    · rename_i he
      exact absurd (List.cons.inj he).1 (ne_of_isAtomStart h rfl)
    · rfl

/-- Every text of a value is read as `reread` says, whatever stands behind it. -/
theorem skipBehind_readValue {v : Json} {cs : List Char} (h : LaidOut v cs) {budget : Nat}
    (hbudget : cs.length ≤ budget) (depth : Nat) {rest : List Char} (hrest : EndsNumeral rest) :
    skipBehind (readValue budget depth (cs ++ rest)) =
      (reread depth v).map fun w => (w, skipSpace rest) := by
  induction h generalizing depth rest with
  | @atom v h =>
    have hread := readAtom_render h hbudget hrest depth
    obtain ⟨c, t, hct, hc⟩ := exists_head_render h
    rw [hct, List.cons_append] at hread ⊢
    rw [readValue_atom hc, hread, skipBehind, Option.map_map]
    rfl
  | @array items front back hfront h hback ih =>
    cases depth with
    | zero => rfl
    | succ depth =>
      rw [List.length_cons, List.length_append, List.length_append, List.length_append] at hbudget
      have hitem : ∀ p ∈ items, ∀ rest, EndsNumeral rest →
          skipBehind (readValue budget depth (p.2 ++ rest)) =
            (reread depth p.1).map fun w => (w, skipSpace rest) := by
        intro p hp rest hrest
        have hlength := length_le_of_mem_commas (List.mem_map_of_mem (f := Prod.snd) hp)
        exact ih p hp (by omega) depth hrest
      have hitems : items.length ≤ budget := by
        have := length_le_commas (items.map Prod.snd)
        rw [List.length_map] at this
        omega
      rw [List.cons_append, List.append_assoc, List.append_assoc, List.append_assoc,
        List.singleton_append, readValue_array,
        readArray_laid (readValue_skipSpace budget depth) hfront hback h hitems hitem,
        reread_array, skipBehind, Option.map_map]
      rfl
  | @object members hspace h ih =>
    cases depth with
    | zero => rfl
    | succ depth =>
      rw [List.length_cons, List.length_append] at hbudget
      have hlength : ∀ m ∈ members, m.laid.length ≤ budget := by
        intro m hm
        have := length_le_of_mem_commas (List.mem_map_of_mem (f := LaidMember.laid) hm)
        omega
      have hvalue : ∀ m ∈ members, ∀ rest, EndsNumeral rest →
          skipBehind (readValue budget depth (m.text ++ rest)) =
            (reread depth m.value).map fun w => (w, skipSpace rest) := by
        intro m hm rest hrest
        have hm' := hlength m hm
        rw [LaidMember.laid, memberText, List.length_append, List.length_append,
          List.length_cons] at hm'
        exact ih m hm (by omega) depth hrest
      have hmembers : members.length ≤ budget := by
        have := length_le_commas (members.map LaidMember.laid)
        rw [List.length_map] at this
        omega
      rw [List.cons_append, List.append_assoc, List.singleton_append, readValue_object,
        readObject_laid hspace hlength hmembers hvalue, reread_object, skipBehind, Option.map_map]
      rfl
  | before hc _ ih =>
    rw [List.cons_append, ← readValue_skipSpace, skipSpace_cons hc, readValue_skipSpace]
    exact ih (Nat.le_of_succ_le hbudget) depth hrest
  | behind hc _ ih =>
    rw [List.length_append] at hbudget
    rw [List.append_assoc, List.singleton_append,
      ih (Nat.le_of_add_right_le hbudget) depth (endsNumeral_space hc rest), skipSpace_cons hc]

/-! ### Whole texts -/

/-- A laid out value is read as `reread` says. -/
theorem parseChars?_of_laidOut {v : Json} {cs : List Char} (h : LaidOut v cs) :
    parseChars? cs = reread depthLimit v := by
  have hread := skipBehind_readValue h (Nat.le_succ cs.length) depthLimit endsNumeral_nil
  rw [List.append_nil] at hread
  rw [Json.parseChars?]
  rcases skipBehind_eq_map_iff.1 hread with ⟨hread, hv⟩ | ⟨w, behind, hread, hv, hbehind⟩
  · rw [hread, hv]
  · rw [hread, hv]
    simp only [hbehind]
    rfl

/-- What the compact text of a value is read as. -/
theorem parse?_text (v : Json) : parse? v.text = reread depthLimit v := by
  rw [parse?, text, String.toList_ofList]
  exact parseChars?_of_laidOut (laidOut_render v)

/-! ### Values that are read back as they are -/

/-- A number that is read from its text is read back at any depth. -/
theorem reread_number_self {n : JsonNumber} (h : readNumber (renderNumber n) = some (n, []))
    (depth : Nat) : reread depth (.number n) = some (.number n) := by
  rw [reread_of_not_isContainer rfl, reread]
  rcases renderNumber_cases n with hn | hn | hn
  · obtain ⟨c, t, hct, hc⟩ := hn.exists_head
    rw [hct] at h ⊢
    rw [readAtom_of_number hc, h]
    rfl
  · rw [hn] at h
    cases h
  · rw [hn] at h
    cases h

/-- An array is read as the array of what its items are read as. -/
theorem reread_array_map_iff {α : Type} {depth : Nat} {f g : α → Json} {xs : List α} :
    reread (depth + 1) (array (xs.map f)) = some (array (xs.map g)) ↔
      ∀ x ∈ xs, reread depth (f x) = some (g x) := by
  rw [reread_array, List.mapM_map, Option.map_eq_some_iff]
  simp [mapM_eq_some_map_iff]

theorem reread_array_self_iff {depth : Nat} {vs : List Json} :
    reread (depth + 1) (array vs) = some (array vs) ↔ ∀ v ∈ vs, reread depth v = some v := by
  simpa using @reread_array_map_iff _ depth id id vs

theorem rereadMembers_cons_iff {depth : Nat} {key : String} {v w : Json} {ms ns : Members} :
    rereadMembers depth ((key, v) :: ms) = some ((key, w) :: ns) ↔
      reread depth v = some w ∧ rereadMembers depth ms = some ns := by
  rw [rereadMembers, rereadMembers, List.mapM_cons]
  cases reread depth v with
  | none => simp
  | some z => simp [Option.bind_eq_some_iff, and_comm]

/-- Reading the values of members keeps their keys. -/
theorem keys_of_rereadMembers {depth : Nat} {ms ps : Members}
    (h : rereadMembers depth ms = some ps) : ps.map Prod.fst = ms.map Prod.fst := by
  induction ms generalizing ps with
  | nil =>
    cases h
    rfl
  | cons m ms ih =>
    rw [rereadMembers, List.mapM_cons] at h
    obtain ⟨n, hn, h⟩ := Option.bind_eq_some_iff.1 h
    obtain ⟨ns, hns, h⟩ := Option.bind_eq_some_iff.1 h
    obtain ⟨w, -, rfl⟩ := Option.map_eq_some_iff.1 hn
    cases h
    rw [List.map_cons, List.map_cons, ih hns]

theorem rereadMembers_self_iff {depth : Nat} {ms : Members} :
    rereadMembers depth ms = some ms ↔ ∀ m ∈ ms, reread depth m.2 = some m.2 := by
  have hmap := @mapM_eq_some_map_iff _ _ (fun m : String × Json =>
    (reread depth m.2).map fun w => (m.1, w)) id ms
  rw [List.map_id] at hmap
  rw [rereadMembers, hmap]
  refine forall₂_congr fun m _ => ?_
  obtain ⟨k, v⟩ := m
  simp

/-- An object is read back if its members are in order and are read back. -/
theorem reread_object_self_iff {depth : Nat} {ms : Members} :
    reread (depth + 1) (object ms) = some (object ms) ↔
      ms.Ordered ∧ ∀ m ∈ ms, reread depth m.2 = some m.2 := by
  rw [reread_object, ← rereadMembers_self_iff]
  constructor
  · intro h
    obtain ⟨ps, hps, h⟩ := Option.map_eq_some_iff.1 h
    obtain rfl : Members.ofPairs ps = ms := Json.object.inj h
    -- The pairs have the keys of the members, so they stood in order already.
    have hordered := Members.ordered_ofPairs ps
    have hkeys := keys_of_rereadMembers hps
    have hps' : Members.Ordered ps := by
      rw [Members.Ordered, ← List.pairwise_map (f := Prod.fst) (R := (· < ·))] at hordered ⊢
      rwa [hkeys]
    rw [hps'.ofPairs_eq] at hps ⊢
    exact ⟨hps', hps⟩
  · rintro ⟨hms, h⟩
    rw [h, Option.map_some, Json.ofPairs, hms.ofPairs_eq]

/-- Pairs in any order are read back when the object that they give is. -/
theorem rereadMembers_of_ofPairs {depth : Nat} {ps : List (String × Json)}
    (hps : (ps.map Prod.fst).Nodup)
    (h : reread (depth + 1) (Json.ofPairs ps) = some (Json.ofPairs ps)) :
    rereadMembers depth ps = some ps := by
  rw [Json.ofPairs, reread_object_self_iff] at h
  exact rereadMembers_self_iff.2 fun m hm => h.2 m ((Members.mem_ofPairs_iff hps).2 hm)

/-- What is read back is read back at any depth that it fits in. -/
theorem IsWithin.reread_self {v : Json} {depth larger : Nat} (h : v.IsWithin depth)
    (hv : reread larger v = some v) : reread depth v = some v := by
  induction v using ind generalizing depth larger with
  | atom v hatom => rwa [reread_of_not_isContainer hatom] at hv ⊢
  | array vs ih =>
    obtain _ | depth := depth
    · cases h
    obtain _ | larger := larger
    · cases hv
    rw [reread_array_self_iff] at hv ⊢
    exact fun v hmem => ih v hmem (h v hmem) (hv v hmem)
  | object ms ih =>
    obtain _ | depth := depth
    · cases h
    obtain _ | larger := larger
    · cases hv
    rw [reread_object_self_iff] at hv ⊢
    exact ⟨hv.1, fun m hmem => ih m hmem (h m hmem) (hv.2 m hmem)⟩

/-- The same of a value that is read back from its text. -/
theorem IsWithin.reread_of_parse? {v : Json} {depth : Nat} (h : v.IsWithin depth)
    (hback : parse? v.text = some v) : reread depth v = some v := by
  rw [parse?_text] at hback
  exact h.reread_self hback

end RecordSieve.Json
