/-!
# RecordSieve.Yaml.Cursor

A place in a YAML text. Lines end in line feeds only; a text with other line ends
is brought into that form first.
-/

namespace RecordSieve
namespace Yaml

/-- A place in a text. -/
structure Cursor where
  /-- What is left of the text. -/
  rest : List Char
  line : Nat
  column : Nat
  /-- How many characters come before. -/
  index : Nat
  /-- Whether only spaces and tabs come before on the line. -/
  leading : Bool

/-- Line ends in their one form: a carriage return, with or without a line feed
after it, ends a line like a line feed. -/
def unifyBreaks : List Char → List Char
  | [] => []
  | '\r' :: '\n' :: cs => '\n' :: unifyBreaks cs
  | c :: cs => (if c = '\r' then '\n' else c) :: unifyBreaks cs

/-- Space or tab. -/
def isBlank (c : Char) : Bool := c == ' ' || c == '\t'

/-- A character that is structure inside brackets. -/
def isFlowMark (c : Char) : Bool :=
  c == ',' || c == '[' || c == ']' || c == '\x7b' || c == '\x7d'

/-- A character inside brackets that is structure, if there is one. -/
def isFlowMark? (c : Option Char) : Bool := c.any isFlowMark

/-- Whether a line ends here. -/
def endsLine (c : Option Char) : Bool := c.all fun c => c == '\n'

/-- Whether a word ends here. -/
def endsWord (c : Option Char) : Bool := c.all fun c => isBlank c || c == '\n'

namespace Cursor

/-- The start of a text. -/
def start (cs : List Char) : Cursor := ⟨cs, 0, 0, 0, true⟩

/-- The character here. -/
def peek (c : Cursor) : Option Char := c.rest.head?

/-- The character after this one. -/
def peekNext (c : Cursor) : Option Char := (c.rest.drop 1).head?

/-- The place after a line end. -/
def pastBreak (c : Cursor) : Cursor := ⟨c.rest.drop 1, c.line + 1, 0, c.index + 1, true⟩

/-- The place after a space or tab. -/
def pastBlank (c : Cursor) : Cursor := ⟨c.rest.drop 1, c.line, c.column + 1, c.index + 1, c.leading⟩

/-- The place after any other characters. -/
def past (c : Cursor) (n : Nat) : Cursor :=
  ⟨c.rest.drop n, c.line, c.column + n, c.index + n, false⟩

/-- Whether three given characters stand at the start of a line here as a word. -/
def atMarker (c : Cursor) (mark : Char) : Bool :=
  c.column == 0 && c.rest.take 3 == [mark, mark, mark] && endsWord (c.rest.drop 3).head?

/-- Whether a document starts or ends here. -/
def atDocumentMark (c : Cursor) : Bool := c.atMarker '-' || c.atMarker '.'

/-- The rest of the line is passed over. -/
def pastLine (c : Cursor) : Cursor := c.past (c.rest.takeWhile fun d => d != '\n').length

/-- Spaces, and tabs if allowed, are passed over: the place after them, and
whether there were spaces and whether there were tabs. -/
def pastBlanks (c : Cursor) (tabs : Bool) : Cursor × Bool × Bool :=
  let skipped := c.rest.takeWhile fun d => d == ' ' || (tabs && d == '\t')
  (⟨c.rest.drop skipped.length, c.line, c.column + skipped.length, c.index + skipped.length,
      c.leading⟩,
    skipped.contains ' ', skipped.contains '\t')

/-- Passes over blanks and a comment up to the end of the line. A comment needs
a blank before it. -/
def toLineEnd? (c : Cursor) (tabs : Bool) : Option (Cursor × Bool × Bool) :=
  let (d, spaced, tabbed) := c.pastBlanks tabs
  if d.peek = some '#' then if spaced || tabbed then some (d.pastLine, spaced, tabbed) else none
  else some (d, spaced, tabbed)

end Cursor
end Yaml
end RecordSieve
