import RecordSieve.Json.Parser
import RecordSieve.Yaml.Cursor
/-!
# RecordSieve.Yaml.Scalar

Reading scalars: plain, between quotes, and as indented blocks. Lines are folded:
a single line end becomes a space, and each further one a line feed. All loops run
on a budget of the characters that are left.
-/

namespace RecordSieve
namespace Yaml

/-- What stands between two stretches of content: blanks on one line, or line
ends. -/
inductive Gap
  /-- Blanks on one line, last first. -/
  | blanks (reversed : List Char)
  /-- Line ends, the first of which folds into a space. -/
  | breaks (further : Nat)
  /-- Line ends after an escaped one, which all count. -/
  | escaped (count : Nat)

namespace Gap

/-- No gap. -/
def empty : Gap := blanks []

/-- What a gap leaves in the text, last first. -/
def reversed : Gap → List Char
  | blanks cs => cs
  | breaks 0 => [' ']
  | breaks n => List.replicate n '\n'
  | escaped n => List.replicate n '\n'

/-- A gap with one more line end. -/
def addBreak : Gap → Gap
  | blanks _ => breaks 0
  | breaks n => breaks (n + 1)
  | escaped n => escaped (n + 1)

/-- A gap with one more blank; blanks at the start of a line do not count. -/
def addBlank (c : Char) : Gap → Gap
  | blanks cs => blanks (c :: cs)
  | g => g

/-- Whether the gap is on one line. -/
def onLine : Gap → Bool
  | blanks _ => true
  | _ => false

end Gap

/-! ### Plain scalars -/

/-- Whether the character here can be part of a plain scalar. -/
def continuesPlain (flow : Bool) (c : Cursor) : Bool :=
  match c.peek with
  | none => false
  | some ':' => !(endsWord c.peekNext || (flow && isFlowMark? c.peekNext))
  | some d => !(flow && isFlowMark d)

/-- Reads on in a plain scalar. `body` is the text so far, last first, and `inside`
tells whether the character before belongs to it. -/
def plainLoop (flow : Bool) (indent : Int) :
    Nat → Cursor → List Char → Gap → Bool → Option (List Char × Cursor)
  | 0, _, _, _, _ => none
  | fuel + 1, c, body, gap, inside =>
    match c.peek with
    | none => some (body.reverse, c)
    | some '\n' => plainLoop flow indent fuel c.pastBreak body gap.addBreak false
    | some d =>
      if isBlank d then
        if !gap.onLine && d == '\t' && decide ((c.column : Int) < indent) then
          let (e, _) := c.pastBlanks true
          if endsLine e.peek then plainLoop flow indent fuel e body gap false else none
        else plainLoop flow indent fuel c.pastBlank body (gap.addBlank d) false
      else if inside then
        if continuesPlain flow c then plainLoop flow indent fuel (c.past 1) (d :: body) gap true
        else some (body.reverse, c)
      else if !gap.onLine && !flow && decide ((c.column : Int) < indent) then some (body.reverse, c)
      else if d == '#' || (c.leading && c.atDocumentMark) then some (body.reverse, c)
      else if flow && d == '-' && isFlowMark? c.peekNext then none
      else if continuesPlain flow c then
        plainLoop flow indent fuel (c.past 1) (d :: (gap.reversed ++ body)) .empty true
      else some (body.reverse, c)

/-- Reads a plain scalar; further lines of it are indented by `indent` at least. -/
def readPlain (flow : Bool) (indent : Int) (c : Cursor) : Option (List Char × Cursor) :=
  if flow && decide ((c.column : Int) < indent) then none
  else plainLoop flow indent (c.rest.length + 1) c [] .empty false

/-! ### Quoted scalars -/

/-- The character a one-letter escape stands for. -/
def escapedChar? (c : Char) : Option Char :=
  if c = '0' then some (Char.ofNat 0)
  else if c = 'a' then some (Char.ofNat 7)
  else if c = 'b' then some (Char.ofNat 8)
  else if c = 't' ∨ c = '\t' then some '\t'
  else if c = 'n' then some '\n'
  else if c = 'v' then some (Char.ofNat 11)
  else if c = 'f' then some (Char.ofNat 12)
  else if c = 'r' then some '\r'
  else if c = 'e' then some (Char.ofNat 27)
  else if c = ' ' ∨ c = '"' ∨ c = '/' ∨ c = '\\' then some c
  else if c = 'N' then some (Char.ofNat 0x85)
  else if c = '_' then some (Char.ofNat 0xA0)
  else if c = 'L' then some (Char.ofNat 0x2028)
  else if c = 'P' then some (Char.ofNat 0x2029)
  else none

/-- How many digits follow the letter of an escape by code. -/
def escapeWidth? (c : Char) : Option Nat :=
  if c = 'x' then some 2 else if c = 'u' then some 4 else if c = 'U' then some 8 else none

/-- The character with a code given by hexadecimal digits. -/
def charOfCode? (ds : List Char) : Option Char :=
  (ds.foldlM (fun n d => (Json.hexValue? d).map fun v => n * 16 + v) 0).bind fun (n : Nat) =>
    if n.isValidChar then some (Char.ofNat n) else none

/-- Reads an escape: the character, and the length of the escape. -/
def readEscape? : List Char → Option (Char × Nat)
  | '\\' :: k :: cs =>
    match escapeWidth? k with
    | some n =>
      if (cs.take n).length = n then (charOfCode? (cs.take n)).map fun d => (d, n + 2) else none
    | none => (escapedChar? k).map fun d => (d, 2)
  | _ => none

/-- Reads on between quotes up to the closing one. -/
def quotedLoop (single : Bool) (indent : Int) :
    Nat → Cursor → List Char → Gap → Bool → Option (List Char × Cursor)
  | 0, _, _, _, _ => none
  | fuel + 1, c, body, gap, inside =>
    match c.peek with
    | none => none
    | some '\n' => quotedLoop single indent fuel c.pastBreak body gap.addBreak false
    | some d =>
      if isBlank d then
        if !gap.onLine && d == '\t' && decide ((c.column : Int) < indent) then none
        else quotedLoop single indent fuel c.pastBlank body (gap.addBlank d) false
      else if !inside && (c.atDocumentMark || decide ((c.column : Int) < indent)) then none
      else
        let body := gap.reversed ++ body
        if d = (if single then '\'' else '"') then
          if single && c.peekNext == some '\'' then
            quotedLoop single indent fuel (c.past 2) (d :: body) .empty true
          else some (body.reverse, c.past 1)
        else if d = '\\' ∧ single = false then
          if c.peekNext = some '\n' then
            quotedLoop single indent fuel (c.past 1).pastBreak body (.escaped 0) false
          else
            match readEscape? c.rest with
            | some (e, n) => quotedLoop single indent fuel (c.past n) (e :: body) .empty true
            | none => none
        else quotedLoop single indent fuel (c.past 1) (d :: body) .empty true

/-- Reads a quoted scalar with its quotes. What follows it on the line can only be
a comment, structure of brackets around it, or the colon of a key on one line. -/
def readQuoted (single flow : Bool) (indent : Int) (c : Cursor) :
    Option (List Char × Cursor) := do
  let (body, e) ← quotedLoop single indent (c.rest.length + 1) (c.past 1) [] .empty false
  let (e, _) ← e.toLineEnd? true
  let fine := match e.peek with
    | none | some '\n' => true
    | some ':' => flow || c.line == e.line
    | some d => flow && (d == ',' || d == ']' || d == '\x7d')
  if fine then return (body, e) else none

/-! ### Block scalars -/

/-- What happens to the line ends after the last line of a block. -/
inductive Chomp
  | strip
  | clip
  | keep
deriving DecidableEq, Repr

/-- The header of a block after its first mark: how to end it, and how far it is
indented if that is said. -/
def readHeader (c : Cursor) : Option (Chomp × Nat × Cursor) :=
  let chomp? (c : Cursor) : Option Chomp :=
    if c.peek = some '+' then some .keep else if c.peek = some '-' then some .strip else none
  let width? (c : Cursor) : Option Nat :=
    c.peek.bind fun d => if d.isDigit then some (d.toNat - 48) else none
  match chomp? c with
  | some k =>
    match width? (c.past 1) with
    | some 0 => none
    | some n => some (k, n, c.past 2)
    | none => some (k, 0, c.past 1)
  | none =>
    match width? c with
    | some 0 => none
    | some n =>
      match chomp? (c.past 1) with
      | some k => some (k, n, c.past 2)
      | none => some (.clip, n, c.past 1)
    | none => some (.clip, 0, c)

/-- Passes over empty lines and up to `indent` spaces of the next line: the place,
and how many lines were empty. -/
def pastIndent (indent : Nat) : Nat → Cursor → Nat → Cursor × Nat
  | 0, c, empty => (c, empty)
  | fuel + 1, c, empty =>
    let spaces := ((c.rest.takeWhile fun d => d == ' ').take (indent - c.column)).length
    let c := ⟨c.rest.drop spaces, c.line, c.column + spaces, c.index + spaces, c.leading⟩
    if c.peek = some '\n' then pastIndent indent fuel c.pastBreak (empty + 1) else (c, empty)

/-- Passes over empty lines and all spaces of the next line: the place, how many
lines were empty, and the widest of these indentations. -/
def pastFirstIndent : Nat → Cursor → Nat → Nat → Cursor × Nat × Nat
  | 0, c, empty, widest => (c, empty, widest)
  | fuel + 1, c, empty, widest =>
    let (c, _) := c.pastBlanks false
    let widest := max widest c.column
    if c.peek = some '\n' then pastFirstIndent fuel c.pastBreak (empty + 1) widest
    else (c, empty, widest)

/-- Reads the lines of a block that is indented by `indent`. `ended` tells whether
a line end is still to be placed, `empty` counts the empty lines after it, and
`wasBlank` tells whether the line before started with a blank. -/
def blockLoop (literal : Bool) (indent : Nat) :
    Nat → Cursor → List Char → Bool → Nat → Bool → List Char × Bool × Nat × Cursor
  | 0, c, body, ended, empty, _ => (body, ended, empty, c)
  | fuel + 1, c, body, ended, empty, wasBlank =>
    if c.column != indent || c.rest.isEmpty || (indent == 0 && c.atMarker '.') then
      (body, ended, empty, c)
    else
      let blank := c.peek.any isBlank
      let joint :=
        if !literal && ended && !wasBlank && !blank then
          if empty = 0 then [' '] else List.replicate empty '\n'
        else (if ended then ['\n'] else []) ++ List.replicate empty '\n'
      let content := c.rest.takeWhile fun d => d != '\n'
      let body := content.reverse ++ joint ++ body
      let c := c.past content.length
      if c.rest.isEmpty then (body, false, 0, c)
      else
        let (c, empty) := pastIndent indent (c.rest.length + 1) c.pastBreak 0
        blockLoop literal indent fuel c body true empty blank

/-- Reads a block scalar from its mark on; `outer` is the indentation around it. -/
def readBlock (literal : Bool) (outer : Int) (c : Cursor) : Option (List Char × Cursor) := do
  let (chomp, width, d) ← readHeader (c.past 1)
  let (d, _) ← d.toLineEnd? true
  if !endsLine d.peek then none
  else
    let broken := d.peek.isSome
    let d := if broken then d.pastBreak else d
    if d.peek = some '\t' then none
    else
      let fuel := d.rest.length + 1
      let (d, empty, indent) :=
        if width = 0 then
          let (d, empty, widest) := pastFirstIndent fuel d 0 0
          let indent := max widest (outer + 1).toNat
          (d, empty, if 0 < outer then max indent 1 else indent)
        else
          let indent := if 0 ≤ outer then (outer + width).toNat else width
          let (d, empty) := pastIndent indent fuel d 0
          (d, empty, indent)
      if d.rest.isEmpty then
        let body := match chomp with
          | .strip => []
          | .clip => if broken then ['\n'] else []
          | .keep => if broken then List.replicate (max empty 1) '\n' else []
        return (body, d)
      else if d.column < indent ∧ outer < d.column then none
      else
        let (body, ended, empty, d) := blockLoop literal indent fuel d [] false empty false
        let tail :=
          (if chomp = .strip then []
            else
              (if ended then ['\n'] else []) ++
              (if d.rest.isEmpty && max indent 1 ≤ d.column then ['\n'] else [])) ++
          (if chomp = .keep then List.replicate empty '\n' else [])
        return (body.reverse ++ tail, d)

end Yaml
end RecordSieve
