import RecordSieve.Text.Invisible
/-!
# RecordSieve.Record.Path

File paths with `/` between their parts: the parts themselves, the extension that
tells a file's format, and the form in which messages show a path.
-/

namespace RecordSieve
namespace Path

/-- The pieces of a text between slashes. -/
def pieces : List Char → List (List Char)
  | [] => [[]]
  | c :: cs =>
    if c = '/' then [] :: pieces cs
    else
      match pieces cs with
      | p :: ps => (c :: p) :: ps
      | [] => [[c]]

/-- The parts of a path. Slashes that follow one another or end the path count
once, and a dot is dropped unless the path starts with it. A path from the root
has a slash as its first part. -/
def parts (path : String) : List (List Char) :=
  match pieces path.toList with
  | [] => []
  | p :: ps =>
    let rest := ps.filter fun q => !q.isEmpty && q != ['.']
    if p.isEmpty then if ps.isEmpty then [] else ['/'] :: rest
    else p :: rest

/-- The name of the file a path leads to: its last part, unless that is the root
or one of the two dot names. -/
def fileName? (path : String) : Option (List Char) :=
  match (parts path).getLast? with
  | some p => if p = ['/'] ∨ p = ['.'] ∨ p = ['.', '.'] then none else some p
  | none => none

/-- What follows the last dot of a file name. A name without a dot, or with no
dot but its first character, has no extension. -/
def extension? (path : String) : Option (List Char) :=
  (fileName? path).bind fun name =>
    let after := name.reverse.takeWhile fun c => c != '.'
    let before := (name.reverse.drop after.length).drop 1
    if before.isEmpty then none else some after.reverse

/-- Whether a path names the standard stream rather than a file. -/
def isStandard (path : String) : Bool := parts path == [['-']]

/-- A character of a path in a message: quotes, backslashes and invisible
characters are escaped. -/
def showChar (c : Char) : List Char :=
  if c = '"' then ['\\', '"']
  else if c = '\\' then ['\\', '\\']
  else if c = '\n' then ['\\', 'n']
  else if c = '\r' then ['\\', 'r']
  else if c = '\t' then ['\\', 't']
  else if c.toNat = 0 then ['\\', '0']
  else if Text.isInvisible c then
    ['\\', 'u', '\x7b'] ++ (Nat.toDigits 16 c.toNat) ++ ['\x7d']
  else [c]

/-- A path as messages show it, between double quotes. -/
def quoted (path : String) : String :=
  String.ofList ('"' :: (path.toList.flatMap showChar ++ ['"']))

/-- A text without slashes is one piece. -/
theorem pieces_of_notMem {cs : List Char} (h : '/' ∉ cs) : pieces cs = [cs] := by
  induction cs with
  | nil => rfl
  | cons c cs ih =>
    simp only [List.mem_cons, not_or] at h
    simp [pieces, Ne.symm h.1, ih h.2]

end Path
end RecordSieve
