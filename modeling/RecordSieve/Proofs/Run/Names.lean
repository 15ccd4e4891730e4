import RecordSieve.Run.Files
/-!
# RecordSieve.Proofs.Run.Names

Names of files as paths.

The name of a file is a path to the file (`nameParts_name`): what a path leads to is not
led anywhere else by its own name. So a file that was created under a path is there to be
read under it, and can be created there again (`read?_set`, `creatable?_set`).
-/

namespace RecordSieve.Files

/-! ### Pieces and parts -/

/-- A part of a path that names a step: not empty, and without a slash. -/
structure IsPlain (p : List Char) : Prop where
  ne_nil : p ≠ []
  slash : '/' ∉ p

theorem pieces_append {p : List Char} (h : '/' ∉ p) (cs : List Char) :
    Path.pieces (p ++ '/' :: cs) = p :: Path.pieces cs := by
  induction p with
  | nil => simp [Path.pieces]
  | cons c p ih =>
    rw [List.mem_cons, not_or] at h
    simp [Path.pieces, Ne.symm h.1, ih h.2]

theorem slash_notMem_pieces {cs p : List Char} (h : p ∈ Path.pieces cs) : '/' ∉ p := by
  induction cs generalizing p with
  | nil =>
    rw [List.mem_singleton.1 h]
    exact List.not_mem_nil
  | cons c cs ih =>
    unfold Path.pieces at h
    split at h
    · rcases List.mem_cons.1 h with rfl | h
      · exact List.not_mem_nil
      · exact ih h
    · rename_i hc
      split at h
      · rename_i q qs hq
        rcases List.mem_cons.1 h with rfl | h
        · rw [List.mem_cons, not_or]
          exact ⟨Ne.symm hc, ih (hq ▸ List.mem_cons_self)⟩
        · exact ih (hq ▸ List.mem_cons_of_mem _ h)
      · rw [List.mem_singleton.1 h, List.mem_singleton]
        exact Ne.symm hc

/-- A path starts at the root or not, and goes on in plain steps. -/
theorem parts_cases (path : String) :
    (∀ p ∈ Path.parts path, IsPlain p) ∨
      ∃ rest, Path.parts path = ['/'] :: rest ∧ ∀ p ∈ rest, IsPlain p := by
  have hslash : ∀ p ∈ Path.pieces path.toList, '/' ∉ p := fun p => slash_notMem_pieces
  unfold Path.parts
  split
  · exact .inl nofun
  · rename_i p ps hpieces
    rw [hpieces] at hslash
    obtain ⟨hp, hps⟩ := List.forall_mem_cons.1 hslash
    have hrest : ∀ q ∈ ps.filter fun q => !q.isEmpty && q != ['.'], IsPlain q := by
      intro q hq
      obtain ⟨hmem, hkeep⟩ := List.mem_filter.1 hq
      refine ⟨?_, hps q hmem⟩
      rintro rfl
      simp at hkeep
    simp only
    split
    · split
      · exact .inl nofun
      · exact .inr ⟨_, rfl, hrest⟩
    · rename_i hne
      exact .inl (List.forall_mem_cons.2 ⟨⟨fun h => hne (h ▸ rfl), hp⟩, hrest⟩)

/-! ### Names -/

/-- The parts of a name: steps back stand at its start only, and no part is redundant. -/
inductive IsName : List (List Char) → Prop
  | nil : IsName []
  | root : IsName [['/']]
  | step {here : List (List Char)} {p : List Char} (h : IsName here) (hplain : IsPlain p)
      (hdot : p ≠ ['.']) (hback : p = stepBack → here.getLast?.any (· != stepBack) = false) :
      IsName (here ++ [p])

theorem IsName.dropLast {here : List (List Char)} (h : IsName here) : IsName here.dropLast := by
  cases h with
  | nil => exact .nil
  | root => exact .nil
  | step h _ _ _ => rwa [List.dropLast_concat]

theorem isName_walk {here ps : List (List Char)} (h : IsName here) (hps : ∀ p ∈ ps, IsPlain p) :
    IsName (walk here ps) := by
  induction ps generalizing here with
  | nil => exact h
  | cons p ps ih =>
    obtain ⟨hp, hps⟩ := List.forall_mem_cons.1 hps
    unfold walk
    split
    · exact ih h hps
    · rename_i hdot
      split
      · exact ih h.dropLast hps
      · rename_i hback
        refine ih (h.step hp hdot fun he => ?_) hps
        exact Bool.eq_false_iff.2 fun hany => hback ⟨he, hany⟩

/-- Walking along a path ends at a name. -/
theorem isName_nameParts (path : String) : IsName (nameParts path) := by
  rw [nameParts]
  rcases parts_cases path with h | ⟨rest, hparts, hrest⟩
  · exact isName_walk .nil h
  · have hroot : walk [] (['/'] :: rest) = walk [['/']] rest := rfl
    rw [hparts, hroot]
    exact isName_walk .root hrest

theorem walk_append (here ps qs : List (List Char)) :
    walk here (ps ++ qs) = walk (walk here ps) qs := by
  induction ps generalizing here with
  | nil => rfl
  | cons p ps ih =>
    rw [List.cons_append, walk, walk]
    split
    · exact ih here
    · split
      · exact ih here.dropLast
      · exact ih (here ++ [p])

/-- A name leads to itself. -/
theorem IsName.walk_eq {ns : List (List Char)} (h : IsName ns) : walk [] ns = ns := by
  induction h with
  | nil => rfl
  | root => rfl
  | @step here p _ _ hdot hback ih =>
    have hnot : ¬(p = stepBack ∧ here.getLast?.any (· != stepBack) = true) := by
      rintro ⟨he, hany⟩
      rw [hback he] at hany
      cases hany
    rw [walk_append, ih, walk, if_neg hdot, if_neg hnot, walk]

/-- A name starts at the root or not, and goes on in plain steps. -/
theorem IsName.cases {ns : List (List Char)} (h : IsName ns) :
    (∀ p ∈ ns, IsPlain p ∧ p ≠ ['.']) ∨
      ∃ rest, ns = ['/'] :: rest ∧ ∀ p ∈ rest, IsPlain p ∧ p ≠ ['.'] := by
  induction h with
  | nil => exact .inl nofun
  | root => exact .inr ⟨[], rfl, nofun⟩
  | @step _ p _ hplain hdot _ ih =>
    have hone : ∀ q ∈ [p], IsPlain q ∧ q ≠ ['.'] := List.forall_mem_singleton.2 ⟨hplain, hdot⟩
    rcases ih with ih | ⟨rest, rfl, ih⟩
    · exact .inl (List.forall_mem_append.2 ⟨ih, hone⟩)
    · exact .inr ⟨_, rfl, List.forall_mem_append.2 ⟨ih, hone⟩⟩

theorem pieces_join {ns : List (List Char)} (hne : ns ≠ []) (h : ∀ p ∈ ns, '/' ∉ p) :
    Path.pieces (join ns) = ns := by
  induction ns with
  | nil => exact absurd rfl hne
  | cons p ns ih =>
    obtain ⟨hp, hns⟩ := List.forall_mem_cons.1 h
    cases ns with
    | nil => exact Path.pieces_of_notMem hp
    | cons q ns =>
      have hroot : p ≠ ['/'] := by
        rintro rfl
        exact hp List.mem_cons_self
      rw [join, if_neg hroot, pieces_append hp, ih (List.cons_ne_nil q ns) hns]
      exact List.cons_ne_nil q ns

/-- The parts of a name, put together, are parted in the same way again. -/
theorem IsName.parts_join {ns : List (List Char)} (h : IsName ns) :
    Path.parts (String.ofList (join ns)) = ns := by
  have hkeep : ∀ {ps : List (List Char)}, (∀ p ∈ ps, IsPlain p ∧ p ≠ ['.']) →
      (ps.filter fun q => !q.isEmpty && q != ['.']) = ps := by
    intro ps hps
    refine List.filter_eq_self.2 fun p hp => ?_
    obtain ⟨hplain, hdot⟩ := hps p hp
    simp [hplain.ne_nil, hdot]
  rw [Path.parts, String.toList_ofList]
  rcases h.cases with h | ⟨rest, rfl, hrest⟩
  · cases ns with
    | nil => rfl
    | cons p ns =>
      have hp := (h p List.mem_cons_self).1.ne_nil
      have hns := hkeep fun q hq => h q (List.mem_cons_of_mem p hq)
      rw [pieces_join (List.cons_ne_nil p ns) fun q hq => (h q hq).1.slash]
      simp only [hns]
      rw [if_neg (by simpa using hp)]
  · cases rest with
    | nil => rfl
    | cons q rest =>
      have hpieces := pieces_join (List.cons_ne_nil q rest) fun p hp => (hrest p hp).1.slash
      have hjoin : Path.pieces (join (['/'] :: q :: rest)) = [] :: q :: rest := by
        rw [join, if_pos rfl, ← List.nil_append ('/' :: _), pieces_append List.not_mem_nil, hpieces]
        exact List.cons_ne_nil q rest
      rw [hjoin]
      simp only [hkeep hrest]
      rfl

/-- The name of what a path leads to is a path to it. -/
theorem nameParts_name (path : String) :
    nameParts (String.ofList (join (nameParts path))) = nameParts path := by
  have h := isName_nameParts path
  rw [nameParts, h.parts_join, h.walk_eq]

/-! ### Files that were created -/

/-- Putting a file down keeps the names of the others. -/
theorem mem_names_replace_iff {name other : String} {content : List UInt8}
    {cs : List (String × List UInt8)} :
    other ∈ (replace name content cs).map Prod.fst ↔ other ∈ cs.map Prod.fst ∨ other = name := by
  induction cs with
  | nil => simp [replace]
  | cons f cs ih =>
    obtain ⟨n, c⟩ := f
    unfold replace
    split
    · rename_i hn
      rw [List.map_cons, List.map_cons, List.mem_cons, List.mem_cons, hn]
      constructor
      · rintro (rfl | h)
        · exact .inr rfl
        · exact .inl (.inr h)
      · rintro ((rfl | h) | rfl)
        · exact .inl rfl
        · exact .inr h
        · exact .inl rfl
    · rw [List.map_cons, List.map_cons, List.mem_cons, List.mem_cons, ih, or_assoc]

theorem replace_replace (name : String) (content other : List UInt8)
    (cs : List (String × List UInt8)) :
    replace name content (replace name other cs) = replace name content cs := by
  induction cs with
  | nil => simp [replace]
  | cons f cs ih =>
    obtain ⟨n, c⟩ := f
    by_cases hn : n = name
    · simp [replace, hn]
    · simp [replace, hn, ih]

/-- Of what is put into a file, the last content stays. -/
@[simp] theorem set_set (files : Files) (name : String) (content other : List UInt8) :
    (files.set name other).set name content = files.set name content := by
  simp [set, replace_replace]

section Created

variable {files : Files} {path name : String}

/-- A file lies in a directory. -/
def liesIn (parts : List (List Char)) (name : String) : Bool :=
  parts.isPrefixOf (nameParts name) && (nameParts name).length != parts.length

theorem hasFolder_eq (files : Files) (parts : List (List Char)) :
    files.hasFolder parts = (parts.isEmpty || files.folders.any (fun f => nameParts f == parts) ||
      (files.contents.map Prod.fst).any (liesIn parts)) := by
  rw [hasFolder, List.any_map]
  rfl

/-- A file that is put down brings the directories it lies in, and no other. -/
theorem hasFolder_set (files : Files) (name : String) (content : List UInt8)
    (parts : List (List Char)) :
    (files.set name content).hasFolder parts = (files.hasFolder parts || liesIn parts name) := by
  have hany : ((replace name content files.contents).map Prod.fst).any (liesIn parts) =
      ((files.contents.map Prod.fst).any (liesIn parts) || liesIn parts name) := by
    rw [Bool.eq_iff_iff, Bool.or_eq_true, List.any_eq_true, List.any_eq_true]
    simp only [mem_names_replace_iff]
    constructor
    · rintro ⟨other, hother | rfl, hlies⟩
      · exact .inl ⟨other, hother, hlies⟩
      · exact .inr hlies
    · rintro (⟨other, hother, hlies⟩ | hlies)
      · exact ⟨other, .inl hother, hlies⟩
      · exact ⟨name, .inr rfl, hlies⟩
  rw [hasFolder_eq, hasFolder_eq, set, hany, Bool.or_assoc, Bool.or_assoc, Bool.or_assoc]

theorem isPassable_set (h : files.isPassable path = true) (content : List UInt8) :
    (files.set name content).isPassable path = true := by
  unfold isPassable at h ⊢
  rw [List.all_eq_true] at h ⊢
  intro i hi
  have hi := h i hi
  rw [Bool.or_eq_true] at hi ⊢
  rw [hasFolder_set, Bool.or_eq_true]
  exact hi.imp_right .inl

/-- What is asked of a path under which a file can be created. -/
theorem creatable?_eq_some_iff :
    files.creatable? path = some name ↔
      name? path = some name ∧ files.isPassable path = true ∧
        files.hasFolder (nameParts path).dropLast = true ∧
        files.hasFolder (nameParts path) = false := by
  rw [creatable?, Option.bind_eq_some_iff]
  constructor
  · rintro ⟨n, hname, h⟩
    simp only at h
    split at h
    · rename_i hcond
      cases h
      simpa [hname, and_assoc] using hcond
    · cases h
  · rintro ⟨hname, hpass, hfolder, hfree⟩
    exact ⟨name, hname, by simp [hpass, hfolder, hfree]⟩

/-- A file that was created under a path is read under it. -/
theorem read?_set (h : files.creatable? path = some name) (content : List UInt8) :
    (files.set name content).read? path = some content := by
  obtain ⟨hname, hpass, -, -⟩ := creatable?_eq_some_iff.1 h
  rw [read?, if_pos (isPassable_set hpass content), hname, Option.bind_some, get?_set_self]

/-- A file that was created under a path can be created there again. -/
theorem creatable?_set (h : files.creatable? path = some name) (content : List UInt8) :
    (files.set name content).creatable? path = some name := by
  obtain ⟨hname, hpass, hfolder, hfree⟩ := creatable?_eq_some_iff.1 h
  have hparts : nameParts name = nameParts path := by
    unfold name? at hname
    split at hname
    · cases hname
    · rw [← Option.some.inj hname, nameParts_name]
  refine creatable?_eq_some_iff.2 ⟨hname, isPassable_set hpass content, ?_, ?_⟩
  · rw [hasFolder_set, hfolder, Bool.true_or]
  · rw [hasFolder_set, hfree, liesIn, hparts]
    simp

end Created

end RecordSieve.Files
