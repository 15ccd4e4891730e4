import RecordSieve.Proofs.Json.Trailing
import RecordSieve.Proofs.Record.Lines
import RecordSieve.Proofs.Report.Result
/-!
# RecordSieve.Proofs.Record.LineByLine

What a file of lines is read as.

There is one way to cut bytes into lines (`cutIntoLines_iff`). Each line is read on its own,
whatever stands around it (`readLines_append`): a blank one holds nothing, any other one its
value, and the first one that cannot be read ends the reading with its number
(`readLines_eq_ok_iff`, `readLines_eq_error_iff`). A carriage return behind a line makes no
difference to what it holds (`readLines_dropReturn`), so a file may be taken apart behind any of
its line feeds (`read_append_feed`).
-/

namespace RecordSieve

/-! ### A return behind a text -/

namespace Text.Utf8

/-- A carriage return behind some bytes is a character behind their text. -/
theorem decode?_return (bytes : List UInt8) :
    decode? (bytes ++ [Record.carriageReturn]) = (decode? bytes).map (· ++ "\r") := by
  have hreturn : encode "\r" = [Record.carriageReturn] := by decide
  ext s
  rw [decode?_eq_some_iff, Option.map_eq_some_iff]
  constructor
  · intro h
    rcases List.eq_nil_or_concat s.toList with hnil | ⟨front, last, hs⟩
    · rw [encode_eq_flatMap, hnil] at h
      exact absurd h (List.append_ne_nil_of_right_ne_nil _ (List.cons_ne_nil _ _))
    · rw [List.concat_eq_append] at hs
      have hjoin : s = String.ofList front ++ String.ofList [last] := by
        rw [← String.ofList_append, ← hs, String.ofList_toList]
      have hne : String.utf8EncodeChar last ≠ [] :=
        List.ne_nil_of_length_pos (String.length_utf8EncodeChar last ▸ last.utf8Size_pos)
      have hlast : Record.carriageReturn ∈ String.utf8EncodeChar last := by
        have hbytes := congrArg List.getLast? h
        rw [encode_eq_flatMap, hs, List.flatMap_append, List.flatMap_singleton,
          List.getLast?_concat, List.getLast?_append_of_ne_nil _ hne] at hbytes
        exact List.mem_of_getLast? hbytes.symm
      obtain rfl : last = '\r' := Char.ext (UInt32.toNat_inj.1
        (toNat_eq_of_mem_utf8EncodeChar hlast (by decide)))
      have hone : String.ofList ['\r'] = "\r" := rfl
      rw [hjoin, encode_append, hone, hreturn] at h
      exact ⟨_, decode?_eq_some_iff.2 (List.append_cancel_right h), hjoin.symm⟩
  · rintro ⟨t, ht, rfl⟩
    rw [encode_append, hreturn, eq_encode_of_decode? ht]

end Text.Utf8

namespace Record

variable {line : List UInt8} {number : Nat}

/-! ### Cutting bytes into lines -/

/-- Some bytes cut into lines: at every line feed, which takes one carriage return before it
along, and what stands behind the last feed is a line if there is anything. -/
inductive CutIntoLines : List UInt8 → List (List UInt8) → Prop
  | none : CutIntoLines [] []
  | last {line : List UInt8} (hfeed : lineFeed ∉ line) (hline : line ≠ []) :
      CutIntoLines line [line]
  | feed {line rest : List UInt8} {ls} (hfeed : lineFeed ∉ line)
      (hreturn : line.getLast? ≠ some carriageReturn) (hrest : CutIntoLines rest ls) :
      CutIntoLines (line ++ lineFeed :: rest) (line :: ls)
  | returnFeed {line rest : List UInt8} {ls} (hfeed : lineFeed ∉ line)
      (hrest : CutIntoLines rest ls) :
      CutIntoLines (line ++ carriageReturn :: lineFeed :: rest) (line :: ls)

theorem segments_of_notMem (h : lineFeed ∉ line) : segments line = [line] := by
  induction line with
  | nil => rfl
  | cons b line ih =>
    rw [List.mem_cons, not_or] at h
    rw [segments_cons, ih h.2, cutAt, if_neg (Ne.symm h.1)]

theorem lines_of_notMem (h : lineFeed ∉ line) : lines line = if line = [] then [] else [line] := by
  rw [lines, segments_of_notMem h, linesOf]
  simp only [List.isEmpty_iff]

theorem dropReturn_return (line : List UInt8) : dropReturn (line ++ [carriageReturn]) = line := by
  rw [dropReturn, if_pos List.getLast?_concat, List.dropLast_concat]

/-- The return that a line loses stands at its end. -/
theorem eq_dropReturn_or (line : List UInt8) :
    dropReturn line = line ∧ line.getLast? ≠ some carriageReturn ∨
      line = dropReturn line ++ [carriageReturn] := by
  by_cases h : line.getLast? = some carriageReturn
  · rw [dropReturn, if_pos h]
    exact .inr (List.dropLast_append_getLast? _ h).symm
  · exact .inl ⟨by rw [dropReturn, if_neg h], h⟩

/-- Every text is a last line without a feed, or a line with a feed behind it and a rest. -/
theorem feed_induction {P : List UInt8 → Prop} (last : ∀ line, lineFeed ∉ line → P line)
    (feed : ∀ line rest, lineFeed ∉ line → P rest → P (line ++ lineFeed :: rest))
    (bytes : List UInt8) : P bytes := by
  induction h : bytes.length using Nat.strong_induction_on generalizing bytes with
  | _ n ih =>
    by_cases hmem : lineFeed ∈ bytes
    · obtain ⟨line, rest, hbytes, hline⟩ := List.eq_append_cons_of_mem hmem
      subst hbytes
      refine feed line rest hline (ih rest.length ?_ rest rfl)
      rw [← h, List.length_append, List.length_cons]
      omega
    · exact last bytes hmem

/-- The lines of some bytes are the only ones that they can be cut into. -/
theorem cutIntoLines_iff {bytes : List UInt8} {ls : List (List UInt8)} :
    CutIntoLines bytes ls ↔ ls = lines bytes := by
  constructor
  · intro h
    induction h with
    | none => rfl
    | last hfeed hline => rw [lines_of_notMem hfeed, if_neg hline]
    | @feed line rest ls hfeed hreturn _ ih =>
      rw [lines_append hfeed, dropReturn, if_neg hreturn, ih]
    | @returnFeed line rest ls hfeed _ ih =>
      have hfeed' : lineFeed ∉ line ++ [carriageReturn] := by
        simpa [hfeed] using (by decide : lineFeed ≠ carriageReturn)
      rw [List.append_cons, lines_append hfeed', dropReturn_return, ih]
  · rintro rfl
    induction bytes using feed_induction with
    | last line hfeed =>
      rw [lines_of_notMem hfeed]
      split
      · rename_i h
        rw [h]
        exact .none
      · rename_i h
        exact .last hfeed h
    | feed line rest hfeed ih =>
      rw [lines_append hfeed]
      rcases eq_dropReturn_or line with ⟨hdrop, hreturn⟩ | hline
      · rw [hdrop]
        exact .feed hfeed hreturn ih
      · have hdropped : lineFeed ∉ dropReturn line := fun hmem =>
          hfeed (hline ▸ List.mem_append_left _ hmem)
        have hcut := CutIntoLines.returnFeed hdropped ih
        rwa [List.append_cons, ← hline] at hcut

/-! ### Lines on their own -/

/-- Whether a line holds nothing but white space. -/
def isBlankLine (line : List UInt8) : Bool :=
  (Text.Utf8.decode? line).any fun text => Text.allBlank text.toList

/-- A line that is blank or holds a JSON value. -/
def IsReadable (line : List UInt8) : Prop :=
  isBlankLine line = true ∨ (readJson? line).isSome = true

theorem not_isReadable_iff :
    ¬IsReadable line ↔ isBlankLine line = false ∧ readJson? line = none := by
  rw [IsReadable, not_or, Bool.not_eq_true, Bool.not_eq_true, Option.isSome_eq_false_iff,
    Option.isNone_iff_eq_none]

/-- The first of some lines that cannot be read stands behind the lines `before`. -/
structure FailsAt (ls before : List (List UInt8)) (line : List UInt8) : Prop where
  stands : before ++ [line] <+: ls
  readable : ∀ l ∈ before, IsReadable l
  unreadable : ¬IsReadable line

/-- The error for a line that cannot be read. -/
def lineError (number : Nat) (line : List UInt8) : ReadError :=
  if (Text.Utf8.decode? line).isSome then .malformedLine number else .malformed

section Step

variable {rest : List (List UInt8)}

/-- A blank line is passed over, and counted. -/
theorem readLines_blank (h : isBlankLine line = true) :
    readLines number (line :: rest) = readLines (number + 1) rest := by
  rw [isBlankLine, Option.any_eq_true] at h
  obtain ⟨text, htext, hblank⟩ := h
  rw [readLines, htext]
  exact if_pos hblank

/-- The value of a line comes before those of the lines behind it. -/
theorem readLines_value {v : Json} (hblank : isBlankLine line = false)
    (h : readJson? line = some v) :
    readLines number (line :: rest) = (readLines (number + 1) rest).map (v :: ·) := by
  rw [readJson?, Option.bind_eq_some_iff] at h
  obtain ⟨text, htext, hvalue⟩ := h
  rw [isBlankLine, htext, Option.any_some] at hblank
  simp only [readLines, htext, hblank, hvalue, Bool.false_eq_true, if_false]

/-- A line that cannot be read is the end, whatever stands behind it. -/
theorem readLines_unreadable (h : ¬IsReadable line) :
    readLines number (line :: rest) = .error (lineError number line) := by
  rw [not_isReadable_iff, isBlankLine, readJson?] at h
  rw [readLines, lineError]
  cases htext : Text.Utf8.decode? line with
  | none => rfl
  | some text =>
    rw [htext, Option.any_some, Option.bind_some] at h
    simp [h.1, h.2]

/-- A line is blank, holds a value or cannot be read. -/
theorem line_cases (line : List UInt8) :
    isBlankLine line = true ∨ (isBlankLine line = false ∧ ∃ v, readJson? line = some v) ∨
      ¬IsReadable line := by
  cases hblank : isBlankLine line with
  | true => exact .inl rfl
  | false =>
    cases hvalue : readJson? line with
    | some v => exact .inr (.inl ⟨rfl, v, rfl⟩)
    | none => exact .inr (.inr (not_isReadable_iff.2 ⟨hblank, hvalue⟩))

end Step

/-! ### All lines -/

section Lines

variable {ls before rest : List (List UInt8)} {values : List Json} {e : ReadError}

/-- Lines are read if each of them holds a value or is blank, and the values are what is read. -/
theorem readLines_eq_ok_iff :
    readLines number ls = .ok values ↔
      (ls.filter fun line => !isBlankLine line).map readJson? = values.map some := by
  induction ls generalizing number values with
  | nil =>
    cases values with
    | nil => exact ⟨fun _ => rfl, fun _ => rfl⟩
    | cons v vs => exact ⟨nofun, nofun⟩
  | cons line rest ih =>
    rcases line_cases line with hblank | ⟨hblank, v, hvalue⟩ | hbad
    · rw [readLines_blank hblank, List.filter_cons_of_neg (by simp [hblank]), ih]
    · rw [readLines_value hblank hvalue, List.filter_cons_of_pos (by simp [hblank]),
        List.map_cons, hvalue, Except.map_eq_ok_iff]
      cases values with
      | nil => simp
      | cons w ws => simp [ih, eq_comm, and_comm]
    · rw [readLines_unreadable hbad]
      obtain ⟨hblank, hvalue⟩ := not_isReadable_iff.1 hbad
      rw [List.filter_cons_of_pos (by simp [hblank]), List.map_cons, hvalue]
      cases values with
      | _ => exact ⟨nofun, nofun⟩

theorem failsAt_cons_of_unreadable {first : List UInt8} (h : ¬IsReadable first) :
    FailsAt (first :: rest) before line ↔ before = [] ∧ line = first := by
  constructor
  · intro hfails
    cases before with
    | nil => exact ⟨rfl, (List.cons_prefix_cons.1 hfails.stands).1⟩
    | cons l before =>
      obtain rfl := (List.cons_prefix_cons.1 hfails.stands).1
      exact absurd (hfails.readable l List.mem_cons_self) h
  · rintro ⟨rfl, rfl⟩
    exact ⟨List.cons_prefix_cons.2 ⟨rfl, List.nil_prefix⟩, nofun, h⟩

theorem failsAt_cons_of_readable {first : List UInt8} (h : IsReadable first) :
    FailsAt (first :: rest) before line ↔
      ∃ behind, before = first :: behind ∧ FailsAt rest behind line := by
  constructor
  · intro hfails
    cases before with
    | nil =>
      obtain rfl := (List.cons_prefix_cons.1 hfails.stands).1
      exact absurd h hfails.unreadable
    | cons l before =>
      obtain ⟨rfl, hstands⟩ := List.cons_prefix_cons.1 hfails.stands
      exact ⟨before, rfl, hstands, fun l hl => hfails.readable l (List.mem_cons_of_mem _ hl),
        hfails.unreadable⟩
  · rintro ⟨behind, rfl, hfails⟩
    exact ⟨List.cons_prefix_cons.2 ⟨rfl, hfails.stands⟩,
      List.forall_mem_cons.2 ⟨h, hfails.readable⟩, hfails.unreadable⟩

theorem readLines_cons_eq_error_iff (h : IsReadable line) :
    readLines number (line :: rest) = .error e ↔ readLines (number + 1) rest = .error e := by
  rcases line_cases line with hblank | ⟨hblank, v, hvalue⟩ | hbad
  · rw [readLines_blank hblank]
  · rw [readLines_value hblank hvalue, Except.map_eq_error_iff]
  · exact absurd h hbad

/-- Lines are not read if one of them cannot be, and the first of these is to blame. -/
theorem readLines_eq_error_iff :
    readLines number ls = .error e ↔
      ∃ before line, FailsAt ls before line ∧ e = lineError (number + before.length) line := by
  induction ls generalizing number with
  | nil =>
    constructor
    · exact nofun
    · rintro ⟨before, line, hfails, -⟩
      exact absurd (List.prefix_nil.1 hfails.stands) (by simp)
  | cons first rest ih =>
    by_cases h : IsReadable first
    · rw [readLines_cons_eq_error_iff h, ih]
      constructor
      · rintro ⟨behind, line, hfails, he⟩
        refine ⟨first :: behind, line, (failsAt_cons_of_readable h).2 ⟨behind, rfl, hfails⟩, ?_⟩
        rw [he, List.length_cons, Nat.add_assoc, Nat.add_comm 1]
      · rintro ⟨before, line, hfails, he⟩
        obtain ⟨behind, rfl, hbehind⟩ := (failsAt_cons_of_readable h).1 hfails
        refine ⟨behind, line, hbehind, ?_⟩
        rw [he, List.length_cons, Nat.add_assoc, Nat.add_comm 1]
    · rw [readLines_unreadable h, Except.error.injEq, eq_comm]
      constructor
      · intro he
        exact ⟨[], first, (failsAt_cons_of_unreadable h).2 ⟨rfl, rfl⟩, he⟩
      · rintro ⟨before, line, hfails, he⟩
        obtain ⟨rfl, rfl⟩ := (failsAt_cons_of_unreadable h).1 hfails
        exact he

/-- Lines in a row are read in a row, and counted on. -/
theorem readLines_append (number : Nat) (ls rest : List (List UInt8)) :
    readLines number (ls ++ rest) =
      readLines number ls >>= fun values =>
        (readLines (number + ls.length) rest).map (values ++ ·) := by
  induction ls generalizing number with
  | nil =>
    rw [List.nil_append, readLines]
    cases h : readLines number rest with
    | _ => simp [bind, Except.bind, Except.map]
  | cons line ls ih =>
    have hcount : number + 1 + ls.length = number + (line :: ls).length := by
      rw [List.length_cons, Nat.add_assoc, Nat.add_comm 1]
    rw [List.cons_append]
    rcases line_cases line with hblank | ⟨hblank, v, hvalue⟩ | hbad
    · rw [readLines_blank hblank, readLines_blank hblank, ih, hcount]
    · rw [readLines_value hblank hvalue, readLines_value hblank hvalue, ih, hcount]
      cases readLines (number + 1) ls with
      | error e => rfl
      | ok values =>
        cases readLines (number + (line :: ls).length) rest with
        | _ => rfl
    · rw [readLines_unreadable hbad, readLines_unreadable hbad]
      rfl

end Lines

/-! ### Files taken apart -/

/-- A line holds what it holds with a carriage return behind it. -/
theorem readLines_return (number : Nat) (line : List UInt8) (rest : List (List UInt8)) :
    readLines number ((line ++ [carriageReturn]) :: rest) = readLines number (line :: rest) := by
  rw [readLines, readLines, Text.Utf8.decode?_return]
  cases Text.Utf8.decode? line with
  | none => rfl
  | some text =>
    have hblank : Text.allBlank (text ++ "\r").toList = Text.allBlank text.toList := by
      rw [String.toList_append, Text.allBlank_append]
      exact Bool.and_true _
    have hvalue : Json.parse? (text ++ "\r") = Json.parse? text := by
      rw [Json.parse?, Json.parse?, String.toList_append]
      exact Json.parseChars?_concat rfl text.toList
    simp only [Option.map_some, hblank, hvalue]

theorem readLines_dropReturn (number : Nat) (line : List UInt8) (rest : List (List UInt8)) :
    readLines number (dropReturn line :: rest) = readLines number (line :: rest) := by
  rcases eq_dropReturn_or line with ⟨hdrop, -⟩ | hline
  · rw [hdrop]
  · rw [← readLines_return number (dropReturn line), ← hline]

theorem lines_append_feed (bytes more : List UInt8) :
    lines (bytes ++ lineFeed :: more) = lines (bytes ++ [lineFeed]) ++ lines more := by
  induction bytes using feed_induction with
  | last line hfeed =>
    rw [lines_append hfeed, lines_append hfeed]
    rfl
  | feed line rest hfeed ih =>
    rw [List.append_assoc, List.append_assoc, List.cons_append, List.cons_append,
      lines_append hfeed, lines_append hfeed, ih, List.cons_append]

/-- A file needs no line feed at its end: one more may add a blank line, and takes a carriage
return off the last one. -/
theorem readLines_feed (number : Nat) (bytes : List UInt8) :
    readLines number (lines (bytes ++ [lineFeed])) = readLines number (lines bytes) := by
  induction bytes using feed_induction generalizing number with
  | last line hfeed =>
    rw [lines_append hfeed, readLines_dropReturn, lines_nil, lines_of_notMem hfeed]
    split
    · rename_i h
      have hblank : isBlankLine [] = true := by decide
      rw [h, readLines_blank hblank]
      rfl
    · rfl
  | feed line rest hfeed ih =>
    rw [List.append_assoc, List.cons_append, lines_append hfeed, lines_append hfeed]
    simp only [readLines, ih]

/-- A file is read as its part before a line feed, and then its part behind it, whose lines are
counted on. -/
theorem read_append_feed (bytes more : List UInt8) :
    read .jsonl (bytes ++ lineFeed :: more) =
      read .jsonl bytes >>= fun values =>
        (readLines (1 + (lines (bytes ++ [lineFeed])).length) (lines more)).map (values ++ ·) := by
  rw [read, read, lines_append_feed, readLines_append, readLines_feed]

/-- A file of lines is read line by line. It is cut into lines in the only way there is; it holds
the values of the lines that are not blank, in order, when each of these is a JSON text; if not,
the first line that is none is to blame, by its number among all lines when it is a text, whatever
stands behind it; and two files with a line feed between them hold what each of them holds. -/
theorem read_line_by_line (bytes : List UInt8) :
    (∀ ls, CutIntoLines bytes ls ↔ ls = lines bytes) ∧
      (∀ values, read .jsonl bytes = .ok values ↔
        ((lines bytes).filter fun line => !isBlankLine line).map readJson? = values.map some) ∧
      (∀ e, read .jsonl bytes = .error e ↔
        ∃ before line, FailsAt (lines bytes) before line ∧
          e = lineError (before.length + 1) line) ∧
      (∀ number line, (lineError number line).causes =
        if (Text.Utf8.decode? line).isSome then
          [.stated ("Input: Invalid JSON on line " ++ toString number), .external]
        else [.external]) ∧
      ∀ more values, read .jsonl (bytes ++ lineFeed :: more) = .ok values ↔
        ∃ front back, read .jsonl bytes = .ok front ∧ read .jsonl more = .ok back ∧
          values = front ++ back := by
  refine ⟨fun ls => cutIntoLines_iff, fun values => readLines_eq_ok_iff, fun e => ?_,
    fun number line => ?_, fun more values => ?_⟩
  · rw [read, readLines_eq_error_iff]
    simp only [Nat.add_comm 1]
  · rw [lineError, apply_ite ReadError.causes, ReadError.causes, ReadError.causes]
  · have hcount : ∀ number back, readLines number (lines more) = .ok back ↔
        read .jsonl more = .ok back := fun number back => by
      rw [read, readLines_eq_ok_iff, readLines_eq_ok_iff]
    simp only [read_append_feed, Except.bind_eq_ok_iff, Except.map_eq_ok_iff, hcount,
      exists_and_left]

end Record
end RecordSieve
