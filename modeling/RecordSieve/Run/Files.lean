import RecordSieve.Record.Path
/-!
# RecordSieve.Run.Files

The files that a run can see, by name. A name is a path with its redundant parts
left out and its steps back taken, so all spellings of a path lead to the same
file. A directory is there when it is listed or when some file lies in it, and a
path may step back only out of a directory that is there.
-/

namespace RecordSieve

/-- The files that a run can see. -/
structure Files where
  /-- Contents by name, each name once. -/
  contents : List (String × List UInt8)
  /-- Directories that are there, whether they hold files or not. -/
  folders : List String
deriving DecidableEq

namespace Files

/-- Files by name, with no directories but theirs. -/
def ofList (contents : List (String × List UInt8)) : Files := ⟨contents, []⟩

/-- Replaces the content under a name, or adds it. -/
def replace (name : String) (content : List UInt8) :
    List (String × List UInt8) → List (String × List UInt8)
  | [] => [(name, content)]
  | (n, c) :: files =>
    if n = name then (name, content) :: files else (n, c) :: replace name content files

/-- The content of the file with a given name. -/
def get? (files : Files) (name : String) : Option (List UInt8) := files.contents.lookup name

/-- Replaces a file's content, or adds the file. -/
def set (files : Files) (name : String) (content : List UInt8) : Files :=
  { files with contents := replace name content files.contents }

/-! ### Paths -/

/-- Parts of a path with slashes between them. -/
def join : List (List Char) → List Char
  | [] => []
  | [p] => p
  | p :: ps => if p = ['/'] then '/' :: join ps else p ++ '/' :: join ps

/-- The step out of a directory. -/
def stepBack : List Char := ['.', '.']

/-- Where parts lead from the place that `here` leads to. -/
def walk (here : List (List Char)) : List (List Char) → List (List Char)
  | [] => here
  | p :: ps =>
    if p = ['.'] then walk here ps
    else if p = stepBack ∧ here.getLast?.any (· != stepBack) then walk here.dropLast ps
    else walk (here ++ [p]) ps

/-- The parts of the name of what a path leads to. -/
def nameParts (path : String) : List (List Char) := walk [] (Path.parts path)

/-- Whether a path can only lead to a directory. -/
def endsAsDirectory (path : String) : Bool :=
  match (Path.pieces path.toList).getLast? with
  | some p => p.isEmpty || p == ['.'] || p == ['.', '.']
  | none => true

/-- The name of the file a path leads to. -/
def name? (path : String) : Option String :=
  if endsAsDirectory path then none else some (String.ofList (join (nameParts path)))

/-- Whether a directory is there. -/
def hasFolder (files : Files) (parts : List (List Char)) : Bool :=
  parts.isEmpty || files.folders.any (fun f => nameParts f == parts) ||
    files.contents.any fun f =>
      parts.isPrefixOf (nameParts f.1) && (nameParts f.1).length != parts.length

/-- Whether every step back in a path leaves a directory that is there. -/
def isPassable (files : Files) (path : String) : Bool :=
  let parts := Path.parts path
  (List.range parts.length).all fun i =>
    parts[i]? != some stepBack || files.hasFolder (walk [] (parts.take i))

/-- Whether a path leads to a directory. -/
def leadsToFolder (files : Files) (path : String) : Bool :=
  !path.isEmpty && files.isPassable path && files.hasFolder (nameParts path)

/-- The content of the file a path leads to. -/
def read? (files : Files) (path : String) : Option (List UInt8) :=
  if files.isPassable path then (name? path).bind files.get? else none

/-- The name of the file that can be created, or emptied, under a path. -/
def creatable? (files : Files) (path : String) : Option String :=
  (name? path).bind fun name =>
    let parts := nameParts path
    if files.isPassable path && files.hasFolder parts.dropLast && !files.hasFolder parts then
      some name
    else none

theorem lookup_replace_self (name : String) (content : List UInt8)
    (cs : List (String × List UInt8)) : (replace name content cs).lookup name = some content := by
  induction cs with
  | nil => simp [replace]
  | cons f cs ih =>
    obtain ⟨n, c⟩ := f
    by_cases h : n = name
    · simp [replace, h]
    · simpa [replace, h, List.lookup_cons, beq_eq_false_iff_ne.2 (Ne.symm h)] using ih

theorem lookup_replace_of_ne {name other : String} (h : other ≠ name) (content : List UInt8)
    (cs : List (String × List UInt8)) :
    (replace name content cs).lookup other = cs.lookup other := by
  induction cs with
  | nil => simp [replace, List.lookup_cons, beq_eq_false_iff_ne.2 h]
  | cons f cs ih =>
    obtain ⟨n, c⟩ := f
    by_cases hn : n = name
    · subst hn; simp [replace, List.lookup_cons, beq_eq_false_iff_ne.2 h]
    · simp [replace, hn, List.lookup_cons, ih]

/-- What was put into a file is found there. -/
@[simp] theorem get?_set_self (files : Files) (name : String) (content : List UInt8) :
    (files.set name content).get? name = some content :=
  lookup_replace_self name content files.contents

/-- Setting one file leaves every other file alone. -/
theorem get?_set_of_ne {name other : String} (h : other ≠ name) (files : Files)
    (content : List UInt8) : (files.set name content).get? other = files.get? other :=
  lookup_replace_of_ne h content files.contents

end Files
end RecordSieve
