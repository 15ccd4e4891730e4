import RecordSieve.Run.Output
/-!
# RecordSieve.Proofs.Record.Writing

What a writer has written at any time, as a function of the records it took.

A writer without an error is the state `Writer.holding` of the texts of its records:
the opening of the format and the texts with separators between them. A record
without a text in the format ends the writing there (`compose_of_refused`), and
only a GeoJSON collection has records without a text (`itemText?_eq_none_iff`).

The text goes to at most one file, and which one that is depends on the names of the
files and not on what they hold (`write_of_sameNames`).
-/

namespace RecordSieve

/-- The feature that stands for a record, if it has one. -/
def GeoJson.Feature.ofRecord? (record : Json) : Option GeoJson.Feature :=
  if isClaimedBy record then ofJson? record else record.members?.map ofAttributes

namespace Writer

/-! ### Texts of records -/

/-- The text of a record in a format, wherever it stands. -/
def itemText? (format : Format) (record : Json) : Option String :=
  match format with
  | .jsonl => some (record.text ++ "\n")
  | .json => some ("  " ++ record.text)
  | .geojson => (GeoJson.Feature.ofRecord? record).map GeoJson.Feature.text

/-- Lines and arrays hold every record, collections only what stands for a feature. -/
theorem itemText?_eq_none_iff {format : Format} {record : Json} :
    itemText? format record = none ↔
      format = .geojson ∧ GeoJson.Feature.ofRecord? record = none := by
  cases format <;> simp [itemText?]

theorem feature_of_some {record : Json} {f : GeoJson.Feature}
    (h : GeoJson.Feature.ofRecord? record = some f) (position : Nat) :
    feature position record = .ok f := by
  unfold GeoJson.Feature.ofRecord? at h
  unfold feature
  by_cases hc : GeoJson.Feature.isClaimedBy record = true
  · rw [if_pos hc] at h ⊢
    rw [h]
  · rw [if_neg hc] at h ⊢
    obtain ⟨ms, hms, rfl⟩ := Option.map_eq_some_iff.1 h
    rw [hms]

theorem feature_of_none {record : Json} (h : GeoJson.Feature.ofRecord? record = none)
    (position : Nat) : ∃ e, feature position record = .error e := by
  unfold GeoJson.Feature.ofRecord? at h
  unfold feature
  by_cases hc : GeoJson.Feature.isClaimedBy record = true
  · rw [if_pos hc] at h ⊢
    rw [h]
    exact ⟨_, rfl⟩
  · rw [if_neg hc] at h ⊢
    rw [Option.map_eq_none_iff.1 h]
    exact ⟨_, rfl⟩

theorem item_of_some {format : Format} {record : Json} {text : String}
    (h : itemText? format record = some text) (position : Nat) :
    item format position record = .ok text := by
  cases format with
  | json => cases h; rfl
  | jsonl => cases h; rfl
  | geojson =>
    obtain ⟨f, hf, rfl⟩ := Option.map_eq_some_iff.1 h
    rw [item, feature_of_some hf, Except.map]

theorem item_of_none {format : Format} {record : Json} (h : itemText? format record = none)
    (position : Nat) : ∃ e, item format position record = .error e := by
  obtain ⟨rfl, hr⟩ := itemText?_eq_none_iff.1 h
  obtain ⟨e, he⟩ := feature_of_none hr position
  exact ⟨e, by rw [item, he, Except.map]⟩

/-! ### States of a writer -/

/-- The writer that has taken records with the given texts. -/
def holding (format : Format) (texts : List String) : Writer :=
  ⟨format, opening format ++ (separator format).intercalate texts, texts.length⟩

@[simp] theorem format_holding (format : Format) (texts : List String) :
    (holding format texts).format = format := rfl

@[simp] theorem accepted_holding (format : Format) (texts : List String) :
    (holding format texts).accepted = texts.length := rfl

theorem start_eq_holding (format : Format) : start format = holding format [] := by
  simp [start, holding]

/-- One more record adds its text. -/
theorem add_holding {format : Format} {record : Json} {text : String}
    (h : itemText? format record = some text) (texts : List String) :
    (holding format texts).add record = .ok (holding format (texts ++ [text])) := by
  rw [add, format_holding, accepted_holding, item_of_some h, Except.map]
  cases texts with
  | nil => simp [holding]
  | cons t ts =>
    have hjoin : (separator format).intercalate (t :: ts ++ [text]) =
        (separator format).intercalate (t :: ts) ++ separator format ++ text := by
      rw [String.intercalate_append_of_ne_nil (by simp) (by simp), String.intercalate_singleton]
    simp only [holding, hjoin, List.length_append, List.length_cons, List.length_nil,
      Nat.succ_ne_zero, if_false, String.append_assoc]

/-- Records that all have texts are all taken. -/
theorem addAll_holding {format : Format} {records : List Json} {more : List String}
    (h : records.map (itemText? format) = more.map some) (texts : List String)
    (rest : List Json) :
    (holding format texts).addAll (records ++ rest) =
      (holding format (texts ++ more)).addAll rest := by
  induction records generalizing texts more with
  | nil =>
    have hmore : more = [] := by simpa using h.symm
    rw [hmore, List.append_nil, List.nil_append]
  | cons record records ih =>
    cases more with
    | nil => simp at h
    | cons text more =>
      simp only [List.map_cons, List.cons.injEq] at h
      rw [List.cons_append, addAll, add_holding h.1]
      simp only
      rw [ih h.2, List.append_assoc, List.singleton_append]

/-- A new writer takes all records of a list in which all have texts. -/
theorem addAll_of_texts {format : Format} {records : List Json} {texts : List String}
    (h : records.map (itemText? format) = texts.map some) :
    (start format).addAll records = (holding format texts, none) := by
  have hall := addAll_holding h [] []
  rwa [List.append_nil, List.nil_append, ← start_eq_holding] at hall

theorem length_of_texts {format : Format} {records : List Json} {texts : List String}
    (h : records.map (itemText? format) = texts.map some) : texts.length = records.length := by
  simpa using (congrArg List.length h).symm

/-- A record without a text ends the writing. -/
theorem addAll_of_none {format : Format} {record : Json} (h : itemText? format record = none)
    (texts : List String) (rest : List Json) :
    ∃ e, (holding format texts).addAll (record :: rest) = (holding format texts, some e) := by
  obtain ⟨e, he⟩ := item_of_none h texts.length
  refine ⟨e, ?_⟩
  have hadd : (holding format texts).add record = .error e := by
    rw [add, format_holding, accepted_holding, he, Except.map]
  rw [addAll, hadd]

/-- Either all records of a list have texts, or there is a first one that has none. -/
theorem texts_or_refused (format : Format) (records : List Json) :
    (∃ texts : List String, records.map (itemText? format) = texts.map some) ∨
      ∃ before record after, ∃ texts : List String,
        records = before ++ record :: after ∧ itemText? format record = none ∧
          before.map (itemText? format) = texts.map some := by
  induction records with
  | nil => exact .inl ⟨[], rfl⟩
  | cons record records ih =>
    cases h : itemText? format record with
    | none => exact .inr ⟨[], record, records, [], rfl, h, rfl⟩
    | some text =>
      rcases ih with ⟨texts, ht⟩ | ⟨before, r, after, texts, rfl, hr, ht⟩
      · exact .inl ⟨text :: texts, by rw [List.map_cons, h, ht, List.map_cons]⟩
      · refine .inr ⟨record :: before, r, after, text :: texts, rfl, hr, ?_⟩
        rw [List.map_cons, h, ht, List.map_cons]

/-- Lines and arrays have texts for all records. -/
theorem exists_texts_of_plain {format : Format} (h : format ≠ .geojson) (records : List Json) :
    ∃ texts : List String, records.map (itemText? format) = texts.map some := by
  rcases texts_or_refused format records with ⟨texts, ht⟩ | ⟨before, r, after, texts, -, hr, -⟩
  · exact ⟨texts, ht⟩
  · exact absurd (itemText?_eq_none_iff.1 hr).1 h

end Writer

/-! ### Whole texts -/

/-- Records that all have texts are all written. -/
theorem compose_of_texts {format : Format} {records : List Json} {texts : List String}
    (h : records.map (Writer.itemText? format) = texts.map some) :
    compose format records = ((Writer.holding format texts).finish, .ok records.length) := by
  rw [compose, Writer.addAll_of_texts h, ← Writer.length_of_texts h]
  rfl

/-- A record without a text leaves the texts of the records before it, and no end. -/
theorem compose_of_refused {format : Format} {before : List Json} {record : Json}
    {texts : List String} (hb : before.map (Writer.itemText? format) = texts.map some)
    (hr : Writer.itemText? format record = none) (after : List Json) :
    ∃ e, compose format (before ++ record :: after) =
      ((Writer.holding format texts).content, .error (.refused e)) := by
  obtain ⟨e, he⟩ := Writer.addAll_of_none hr texts after
  refine ⟨e, ?_⟩
  have hall := Writer.addAll_holding hb [] (record :: after)
  rw [List.nil_append, he, ← Writer.start_eq_holding] at hall
  rw [compose, hall]

/-- Writing goes through exactly if every record has a text, and then writes them all. -/
theorem compose_eq_ok_iff {format : Format} {records : List Json} {n : Nat} :
    (compose format records).2 = .ok n ↔
      ∃ texts : List String, records.map (Writer.itemText? format) = texts.map some ∧
        n = records.length := by
  constructor
  · intro h
    rcases Writer.texts_or_refused format records with
      ⟨texts, ht⟩ | ⟨before, record, after, texts, rfl, hr, hb⟩
    · rw [compose_of_texts ht] at h
      cases h
      exact ⟨texts, ht, rfl⟩
    · obtain ⟨e, he⟩ := compose_of_refused hb hr after
      rw [he] at h
      cases h
  · rintro ⟨texts, ht, rfl⟩
    rw [compose_of_texts ht]

/-! ### Where texts go -/

namespace Files

/-- Writing to the standard output touches no file. -/
theorem write_standard {files : Files} {path : String} (h : Path.isStandard path = true)
    (format : Format) (records : List Json) : (files.write path format records).files = files := by
  rw [Files.write, if_pos h]

/-- Writing to a path under which nothing can be created touches no file. -/
theorem write_notCreated {files : Files} {path : String} (h : files.creatable? path = none)
    (format : Format) (records : List Json) : (files.write path format records).files = files := by
  unfold Files.write
  split
  · rfl
  · rw [h]

theorem result_write_notCreated {files : Files} {path : String}
    (hs : Path.isStandard path = false) (hc : files.creatable? path = none)
    (format : Format) (records : List Json) :
    (files.write path format records).result = .error (.notCreated path) := by
  unfold Files.write
  rw [hs, hc]
  rfl

/-- Writing to a file leaves there what was composed. -/
theorem write_created {files : Files} {path name : String}
    (hs : Path.isStandard path = false) (hc : files.creatable? path = some name)
    (format : Format) (records : List Json) :
    (files.write path format records).files =
        files.set name (Text.Utf8.encode (compose format records).1) ∧
      (files.write path format records).result = (compose format records).2 := by
  unfold Files.write
  rw [hs, hc]
  exact ⟨rfl, rfl⟩

/-- The same names and directories, whatever the files hold. -/
structure SameNames (a b : Files) : Prop where
  names : a.contents.map Prod.fst = b.contents.map Prod.fst
  folders : a.folders = b.folders

theorem SameNames.refl (files : Files) : files.SameNames files := ⟨rfl, rfl⟩

theorem SameNames.hasFolder {a b : Files} (h : a.SameNames b) (parts : List (List Char)) :
    a.hasFolder parts = b.hasFolder parts := by
  have hlies (files : Files) : (files.contents.any fun f =>
      parts.isPrefixOf (nameParts f.1) && (nameParts f.1).length != parts.length) =
      (files.contents.map Prod.fst).any fun name =>
        parts.isPrefixOf (nameParts name) && (nameParts name).length != parts.length := by
    rw [List.any_map]
    rfl
  rw [Files.hasFolder, Files.hasFolder, hlies, hlies, h.names, h.folders]

/-- What can be created does not depend on what files hold. -/
theorem SameNames.creatable? {a b : Files} (h : a.SameNames b) (path : String) :
    a.creatable? path = b.creatable? path := by
  have hfolder : a.hasFolder = b.hasFolder := funext h.hasFolder
  rw [Files.creatable?, Files.creatable?, isPassable, isPassable, hfolder]

/-- A change of at most one file. -/
def edit (files : Files) : Option (String × List UInt8) → Files
  | none => files
  | some (name, content) => files.set name content

/-- Writing depends on the names of files only, and changes at most one of them. -/
theorem write_of_sameNames {a b : Files} (h : a.SameNames b) (path : String) (format : Format)
    (records : List Json) :
    (a.write path format records).result = (b.write path format records).result ∧
      (a.write path format records).stdout = (b.write path format records).stdout ∧
      ∃ change, (a.write path format records).files = a.edit change ∧
        (b.write path format records).files = b.edit change := by
  unfold Files.write
  rw [h.creatable? path]
  cases Path.isStandard path with
  | true => exact ⟨rfl, rfl, none, rfl, rfl⟩
  | false =>
    cases b.creatable? path with
    | none => exact ⟨rfl, rfl, none, rfl, rfl⟩
    | some name => exact ⟨rfl, rfl, some (name, _), rfl, rfl⟩

end Files
end RecordSieve
