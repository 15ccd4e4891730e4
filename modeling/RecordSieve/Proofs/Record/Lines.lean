import RecordSieve.Proofs.Json.Rereading
import RecordSieve.Proofs.Text.Delimiter
import RecordSieve.Record.Reading
/-!
# RecordSieve.Proofs.Record.Lines

Records on lines of their own.

The compact text of a value holds no control character (`not_control_of_mem_render`)
and is not blank, so its bytes hold neither a line feed nor a carriage return, and a
file of such lines is cut into just these texts (`readLines_rows`).
-/

namespace RecordSieve

/-! ### Bytes -/

namespace Text.Utf8

theorem encode_eq_flatMap (s : String) : encode s = s.toList.flatMap String.utf8EncodeChar := by
  rw [encode, ← String.utf8Encode_toList, List.utf8Encode]
  simp

theorem encode_append (s t : String) : encode (s ++ t) = encode s ++ encode t := by
  rw [encode_eq_flatMap, encode_eq_flatMap, encode_eq_flatMap, String.toList_append,
    List.flatMap_append]

/-- A byte below 128 stands for itself. -/
theorem toNat_eq_of_mem_utf8EncodeChar {c : Char} {b : UInt8} (h : b ∈ String.utf8EncodeChar c)
    (hb : b.toNat < 128) : c.toNat = b.toNat := by
  have hlarge : ∀ n, 128 ≤ n → n < 256 → b = UInt8.ofNat n → c.toNat = b.toNat := by
    rintro n hlow hhigh rfl
    rw [UInt8.toNat_ofNat', Nat.mod_eq_of_lt hhigh] at hb
    omega
  revert h
  fun_cases String.utf8EncodeChar c with
  | case1 v hv =>
    intro h
    rw [List.mem_singleton.1 h, UInt8.toNat_ofNat', Nat.mod_eq_of_lt (by omega)]
    rfl
  | case2 v _ hv =>
    intro h
    simp only [List.mem_cons, List.not_mem_nil, or_false] at h
    rcases h with h | h <;> exact hlarge _ (by omega) (by omega) h
  | case3 v _ _ hv =>
    intro h
    simp only [List.mem_cons, List.not_mem_nil, or_false] at h
    rcases h with h | h | h <;> exact hlarge _ (by omega) (by omega) h
  | case4 v _ _ hv =>
    intro h
    simp only [List.mem_cons, List.not_mem_nil, or_false] at h
    rcases h with h | h | h | h <;> exact hlarge _ (by omega) (by omega) h

/-- A text without controls has no control among its bytes. -/
theorem le_toNat_of_mem_encode {s : String} (h : ∀ c ∈ s.toList, 32 ≤ c.toNat) :
    ∀ b ∈ encode s, 32 ≤ b.toNat := by
  intro b hb
  rw [encode_eq_flatMap] at hb
  obtain ⟨c, hc, hbc⟩ := List.mem_flatMap.1 hb
  by_cases hsmall : b.toNat < 128
  · rw [← toNat_eq_of_mem_utf8EncodeChar hbc hsmall]
    exact h c hc
  · omega

end Text.Utf8

/-! ### The compact text of a value -/

namespace Json

/-- A text without control characters. -/
def IsVisible (cs : List Char) : Prop := ∀ c ∈ cs, 32 ≤ c.toNat

instance : DecidablePred IsVisible := fun cs => List.decidableBAll (fun c : Char => 32 ≤ c.toNat) cs

section Visible

variable {cs ds : List Char} {c : Char}

theorem IsVisible.append (hcs : IsVisible cs) (hds : IsVisible ds) : IsVisible (cs ++ ds) :=
  List.forall_mem_append.2 ⟨hcs, hds⟩

theorem IsVisible.cons (hc : 32 ≤ c.toNat) (hcs : IsVisible cs) : IsVisible (c :: cs) :=
  List.forall_mem_cons.2 ⟨hc, hcs⟩

theorem isVisible_nil : IsVisible [] := nofun

theorem isVisible_commas {ts : List (List Char)} (h : ∀ t ∈ ts, IsVisible t) :
    IsVisible (commas ts) := by
  induction ts with
  | nil => exact isVisible_nil
  | cons t ts ih =>
    obtain ⟨ht, hts⟩ := List.forall_mem_cons.1 h
    cases ts with
    | nil => exact ht
    | cons u ts => exact ht.append ((ih hts).cons (by decide))

end Visible

theorem isVisible_renderChar (c : Char) : IsVisible (renderChar c) := by
  have hhex : ∀ n < 16, 32 ≤ (hexDigit n).toNat := by decide
  unfold renderChar
  repeat' split
  all_goals try decide
  · rename_i h
    have hhigh := hhex (c.toNat / 16) (by omega)
    have hlow := hhex (c.toNat % 16) (by omega)
    refine .cons (by decide) (.cons (by decide) (.cons (by decide) (.cons (by decide) ?_)))
    exact .cons hhigh (.cons hlow isVisible_nil)
  · rename_i h
    exact .cons (Nat.le_of_not_lt h) isVisible_nil

theorem isVisible_renderString (s : List Char) : IsVisible (renderString s) := by
  refine .cons (by decide) (.append ?_ (.cons (by decide) isVisible_nil))
  intro c hc
  obtain ⟨d, -, hcd⟩ := List.mem_flatMap.1 hc
  exact isVisible_renderChar d c hcd

theorem isVisible_of_isDigits {ds : List Char} (h : Numeral.IsDigits ds) : IsVisible ds := by
  intro c hc
  have hdigit := h c hc
  simp only [Char.isDigit, Bool.and_eq_true, decide_eq_true_eq] at hdigit
  have hzero : '0'.val.toNat ≤ c.val.toNat := UInt32.le_iff_toNat_le.1 hdigit.1
  exact Nat.le_trans (by decide) hzero

theorem IsNumeral.isVisible {cs : List Char} (h : IsNumeral cs) : IsVisible cs := by
  obtain ⟨hsign, hwhole, hfraction, -, hexponent⟩ := h
  refine .append ?_ (.append (isVisible_of_isDigits hwhole.digits) (.append ?_ ?_))
  · rcases hsign with rfl | rfl
    · exact isVisible_nil
    · exact .cons (by decide) isVisible_nil
  · cases hfraction with
    | absent => exact isVisible_nil
    | point h => exact .cons (by decide) (isVisible_of_isDigits h)
  · cases hexponent with
    | absent => exact isVisible_nil
    | plain hm h =>
      refine .cons ?_ (isVisible_of_isDigits h)
      rcases hm with rfl | rfl <;> decide
    | signed hm hs h =>
      refine .cons ?_ (.cons ?_ (isVisible_of_isDigits h))
      · rcases hm with rfl | rfl <;> decide
      · rcases hs with rfl | rfl <;> decide

/-- The compact text of a value holds no control character. -/
theorem isVisible_render (v : Json) : IsVisible v.render := by
  have hword : IsVisible "null".toList := by decide
  induction v using ind with
  | atom v h =>
    cases v with
    | array | object => cases h
    | null => exact hword
    | boolean b => cases b <;> decide
    | string s => exact isVisible_renderString s.toList
    | number n =>
      rw [render]
      rcases renderNumber_cases n with h | h | h
      · exact h.isVisible
      · rw [h]
        exact hword
      · rw [h]
        exact hword.cons (by decide)
  | array vs ih =>
    rw [render, renderItems_eq_commas]
    have hitems := isVisible_commas (List.forall_mem_map.2 ih)
    exact (hitems.append (isVisible_nil.cons (by decide))).cons (by decide)
  | object ms ih =>
    rw [render, renderMembers_eq_commas]
    have hmembers : IsVisible (commas (ms.map fun m => memberText m.1 m.2.render)) :=
      isVisible_commas (List.forall_mem_map.2 fun m hm =>
        (isVisible_renderString m.1.toList).append ((ih m hm).cons (by decide)))
    exact (hmembers.append (isVisible_nil.cons (by decide))).cons (by decide)

/-- The compact text of a value is not blank. -/
theorem allBlank_render (v : Json) : Text.allBlank v.render = false := by
  have hhead : ∀ {c : Char} {t : List Char}, v.render = c :: t → Text.isBlank c = false →
      Text.allBlank v.render = false := by
    intro c t h hc
    rw [h, Text.allBlank_cons, hc, Bool.false_and]
  by_cases h : v.isContainer = true
  · cases v with
    | array => exact hhead rfl rfl
    | object => exact hhead rfl rfl
    | _ => cases h
  · obtain ⟨c, t, hct, hc⟩ := exists_head_render (Bool.eq_false_iff.2 h)
    refine hhead hct (Bool.eq_false_iff.2 fun hblank => ?_)
    have hdigit := Text.isDigit_of_isDelimiter (Text.isDelimiter_of_isBlank hblank)
    simp only [isAtomStart, hdigit, Bool.or_false, Bool.or_eq_true, beq_iff_eq] at hc
    rcases hc with (((rfl | rfl) | rfl) | rfl) | rfl <;> cases hblank

end Json

/-! ### Lines -/

namespace Record

variable {line rest : List UInt8}

theorem segments_ne_nil (bytes : List UInt8) : segments bytes ≠ [] := by
  cases bytes with
  | nil => exact List.cons_ne_nil _ _
  | cons b bytes =>
    rw [segments_cons]
    unfold cutAt
    repeat' split
    all_goals exact List.cons_ne_nil _ _

/-- A line feed ends the first segment. -/
theorem segments_append (h : lineFeed ∉ line) (rest : List UInt8) :
    segments (line ++ lineFeed :: rest) = line :: segments rest := by
  induction line with
  | nil =>
    obtain ⟨s, ss, hs⟩ := List.exists_cons_of_ne_nil (segments_ne_nil rest)
    rw [List.nil_append, segments_cons, hs, cutAt, if_pos rfl]
  | cons b line ih =>
    rw [List.mem_cons, not_or] at h
    rw [List.cons_append, segments_cons, ih h.2, cutAt, if_neg (Ne.symm h.1)]

/-- A line feed ends the first line, which loses the carriage return before it. -/
theorem lines_append (h : lineFeed ∉ line) (rest : List UInt8) :
    lines (line ++ lineFeed :: rest) = dropReturn line :: lines rest := by
  obtain ⟨s, ss, hs⟩ := List.exists_cons_of_ne_nil (segments_ne_nil rest)
  rw [lines, lines, segments_append h, hs, linesOf]

theorem dropReturn_of_notMem (h : carriageReturn ∉ line) : dropReturn line = line := by
  rw [dropReturn, if_neg]
  exact fun he => h (List.mem_of_getLast? he)

/-- The text of a record is a line of its own. -/
theorem lines_row (record : Json) (rest : String) :
    lines (Text.Utf8.encode (record.text ++ "\n" ++ rest)) =
      Text.Utf8.encode record.text :: lines (Text.Utf8.encode rest) := by
  have hvisible : ∀ b ∈ Text.Utf8.encode record.text, 32 ≤ b.toNat := by
    refine Text.Utf8.le_toNat_of_mem_encode ?_
    rw [Json.text, String.toList_ofList]
    exact Json.isVisible_render record
  have hfeed : lineFeed ∉ Text.Utf8.encode record.text := fun h => by
    have := hvisible _ h
    revert this
    decide
  have hreturn : carriageReturn ∉ Text.Utf8.encode record.text := fun h => by
    have := hvisible _ h
    revert this
    decide
  have hend : Text.Utf8.encode "\n" = [lineFeed] := by decide
  rw [Text.Utf8.encode_append, Text.Utf8.encode_append, hend, List.append_assoc,
    List.singleton_append, lines_append hfeed, dropReturn_of_notMem hreturn]

/-- Lines that are texts of records are read as these records. -/
theorem readLines_rows {records : List Json} (h : ∀ r ∈ records, Json.parse? r.text = some r)
    (number : Nat) :
    readLines number
      (lines (Text.Utf8.encode ("".intercalate (records.map fun r => r.text ++ "\n")))) =
        .ok records := by
  induction records generalizing number with
  | nil => rfl
  | cons r records ih =>
    obtain ⟨hr, hrecords⟩ := List.forall_mem_cons.1 h
    have hjoin : "".intercalate ((r :: records).map fun r => r.text ++ "\n") =
        r.text ++ "\n" ++ "".intercalate (records.map fun r => r.text ++ "\n") := by
      cases records with
      | nil => simp
      | cons s records => simp [String.intercalate_cons_cons]
    have hblank : Text.allBlank r.text.toList = false := by
      rw [Json.text, String.toList_ofList]
      exact Json.allBlank_render r
    rw [hjoin, lines_row, readLines, Text.Utf8.decode?_encode]
    simp only [hblank, Bool.false_eq_true, if_false, hr, ih hrecords]
    rfl

end Record
end RecordSieve
