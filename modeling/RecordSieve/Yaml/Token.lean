import RecordSieve.Yaml.Scalar
/-!
# RecordSieve.Yaml.Token

The tokens of a YAML text. Indentation becomes tokens that start and end blocks.
Whether a word is a key shows only at the colon after it, so the place of a word
that may be one is remembered, and the tokens of a key are put there afterwards.
-/

namespace RecordSieve
namespace Yaml

/-- A token. -/
inductive Token
  | directive
  | documentStart
  | documentEnd
  | blockSequence
  | blockMapping
  | blockEnd
  | openSequence
  | closeSequence
  | openMapping
  | closeMapping
  | blockEntry
  | flowEntry
  | key
  | value
  | alias (name : String)
  | anchor (name : String)
  /-- A tag; of the core tags what follows their common part. -/
  | tag (core : Option String)
  | scalar (plain : Bool) (text : List Char)
deriving DecidableEq, Repr

/-- An indentation to go back to. A block ends there unless the indentation only
stands for a column that values have to keep. -/
structure Level where
  outer : Int
  block : Bool

/-- A place where a key may have started. -/
structure KeyPlace where
  possible : Bool
  required : Bool
  /-- The number of the token at that place. -/
  token : Nat
  line : Nat
  column : Nat
  index : Nat

/-- No key can have started. -/
def KeyPlace.nowhere : KeyPlace := ⟨false, false, 0, 0, 0, 0⟩

/-- The state of a reading of tokens. -/
structure Scan where
  here : Cursor
  tokens : Array Token
  indent : Int
  levels : List Level
  /-- The place of a possible key for every open bracket, innermost first, and for
  the text outside brackets. -/
  keys : List KeyPlace
  keyAllowed : Bool
  /-- Where a colon is a colon without a blank after it. -/
  adjacent : Nat

/-- A step of the reading. -/
abbrev Scanner := StateT Scan Option

namespace Scanner

/-- The text is no YAML. -/
def refuse {α : Type} : Scanner α := fun _ => none

/-- The result of a part that can fail. -/
def lift? {α : Type} (a : Option α) : Scanner α := fun s => a.map fun a => (a, s)

/-- The number of open brackets. -/
def depth : Scanner Nat := do return (← get).keys.length - 1

/-- Whether a bracket is open. -/
def inFlow : Scanner Bool := do return (← depth) != 0

/-- Goes to a place. -/
def goTo (c : Cursor) : Scanner Unit := modify fun s => { s with here := c }

/-- Adds a token. -/
def emit (t : Token) : Scanner Unit := modify fun s => { s with tokens := s.tokens.push t }

/-- Puts a token before the one with a given number. -/
def emitAt (n : Nat) (t : Token) : Scanner Unit :=
  modify fun s =>
    { s with tokens := (s.tokens.extract 0 n).push t ++ s.tokens.extract n s.tokens.size }

/-- Says whether a key may start from here on. -/
def allowKey (allowed : Bool) : Scanner Unit := modify fun s => { s with keyAllowed := allowed }

/-- Passes over blanks and a comment: whether there were spaces and tabs. -/
def toLineEnd (tabs : Bool) : Scanner (Bool × Bool) := do
  let (c, seen) ← lift? ((← get).here.toLineEnd? tabs)
  goTo c
  return seen

/-! ### Possible keys -/

/-- Remembers this place if a key may start here. -/
def saveKey : Scanner Unit := do
  let s ← get
  if s.keyAllowed then
    let required := s.keys.length == 1 && s.indent == (s.here.column : Int) &&
      s.levels.head?.any Level.block
    let place := ⟨true, required, s.tokens.size, s.here.line, s.here.column, s.here.index⟩
    set { s with keys := place :: s.keys.drop 1 }

/-- Gives up the innermost possible key; one that had to be a key is an error. -/
def dropKey : Scanner Unit := do
  let s ← get
  if s.keys.head?.any fun k => k.possible && k.required then refuse
  else set { s with keys := s.keys.modifyHead fun k => { k with possible := false } }

/-- Whether a key at a place cannot reach to `c`: it ends on its line and within
1024 characters. -/
def isStale (c : Cursor) (k : KeyPlace) : Bool :=
  k.possible && (decide (k.line < c.line) || decide (k.index + 1024 < c.index))

/-- Gives up the possible keys that are too far back. -/
def dropStaleKeys : Scanner Unit := do
  let s ← get
  if !(← inFlow) then
    if s.keys.any fun k => isStale s.here k && k.required then refuse
    else
      set { s with
        keys := s.keys.map fun k => if isStale s.here k then { k with possible := false } else k }

/-! ### Indentation -/

/-- Closes the levels that are indented by more than a column. -/
def unroll (column : Int) : Scanner Unit := do
  let rec go (s : Scan) : List Level → Scan
    | [] => { s with levels := [] }
    | l :: ls =>
      if column < s.indent then
        go { s with
          indent := l.outer
          tokens := if l.block then s.tokens.push .blockEnd else s.tokens } ls
      else { s with levels := l :: ls }
  if !(← inFlow) then modify fun s => go s s.levels

/-- Takes back the levels that are no blocks. -/
def unrollColumns : Scanner Unit := do
  let rec go (s : Scan) : List Level → Scan
    | [] => { s with levels := [] }
    | l :: ls => if l.block then { s with levels := l :: ls } else go { s with indent := l.outer } ls
  modify fun s => go s s.levels

/-- Opens a block at a column if it is indented by more than what is open; its
token goes before the one with the number `n`, or to the end. -/
def roll (column : Nat) (n : Option Nat) (t : Token) : Scanner Unit := do
  if !(← inFlow) then
    modify fun s =>
      match s.levels with
      | l :: ls =>
        if s.indent ≤ column && !l.block then { s with indent := l.outer, levels := ls } else s
      | [] => s
    let s ← get
    if s.indent < column then
      set { s with levels := ⟨s.indent, true⟩ :: s.levels, indent := (column : Int) }
      match n with
      | some n => emitAt n t
      | none => emit t

/-- Asks for one column more than the open block has. -/
def rollColumn : Scanner Unit := do
  let s ← get
  if !(← inFlow) && s.levels.head?.any Level.block then
    set { s with levels := ⟨s.indent, false⟩ :: s.levels, indent := s.indent + 1 }

/-! ### Tokens -/

/-- Passes over blanks, line ends and comments. Tabs do not indent. -/
def toNextToken : Nat → Scanner Unit
  | 0 => pure ()
  | fuel + 1 => do
    let s ← get
    let c := s.here
    match c.peek with
    | some '\n' =>
      goTo c.pastBreak
      if !(← inFlow) then allowKey true
      toNextToken fuel
    | some '#' => goTo c.pastLine; toNextToken fuel
    | some '\t' =>
      if !s.levels.isEmpty && c.leading && decide ((c.column : Int) < s.indent) then
        let _ ← toLineEnd true
        if !endsLine (← get).here.peek then refuse
      else goTo c.pastBlank
      toNextToken fuel
    | some ' ' => goTo c.pastBlank; toNextToken fuel
    | _ => return

/-- Passes over blanks, line ends and comments. -/
def skipSpace : Scanner Unit := do toNextToken ((← get).here.rest.length + 1)

/-- An opening bracket. -/
def openFlow (t : Token) : Scanner Unit := do
  saveKey
  rollColumn
  modify fun s => { s with keys := .nowhere :: s.keys, keyAllowed := true, here := s.here.past 1 }
  let _ ← toLineEnd true
  emit t

/-- A closing bracket. -/
def closeFlow (t : Token) : Scanner Unit := do
  dropKey
  modify fun s =>
    { s with
      keys := if s.keys.length = 1 then s.keys else s.keys.drop 1
      keyAllowed := false
      here := s.here.past 1 }
  let _ ← toLineEnd true
  if ← inFlow then modify fun s => { s with adjacent := s.here.index }
  emit t

/-- A comma between brackets. -/
def flowEntry : Scanner Unit := do
  dropKey
  allowKey true
  modify fun s => { s with here := s.here.past 1 }
  let _ ← toLineEnd true
  emit .flowEntry

/-- A dash in front of an item. -/
def blockEntry : Scanner Unit := do
  let s ← get
  if (← inFlow) || !s.keyAllowed then refuse
  else
    goTo (s.here.past 1)
    roll s.here.column none .blockSequence
    let (_, tabbed) ← toLineEnd true
    let c := (← get).here
    if tabbed && c.peek == some '-' && endsWord c.peekNext then refuse
    else
      if c.peek.any fun d => d == '\n' || isFlowMark d then rollColumn
      dropKey
      allowKey true
      emit .blockEntry

/-- A question mark in front of a key. -/
def explicitKey : Scanner Unit := do
  let s ← get
  if !(← inFlow) then
    if !s.keyAllowed then refuse
    roll s.here.column none .blockMapping
  dropKey
  allowKey (!(← inFlow))
  modify fun s => { s with here := s.here.past 1 }
  let (c, _) := (← get).here.pastBlanks false
  goTo c
  if c.peek = some '\t' then refuse
  emit .key

/-- A colon in front of a value. -/
def valueMark : Scanner Unit := do
  let s ← get
  let place := s.keys.headD .nowhere
  goTo (s.here.past 1)
  if (← get).here.peek = some '\t' then
    let (spaced, _) ← toLineEnd true
    let c := (← get).here
    if !spaced && (c.peek.any fun d => d == '-' || d.isAlphanum || d == '_') then refuse
  if place.possible then
    emitAt place.token .key
    roll place.column (some place.token) .blockMapping
    rollColumn
    modify fun s => { s with keys := s.keys.modifyHead fun k => { k with possible := false } }
    allowKey false
  else
    if !(← inFlow) then
      if !s.keyAllowed then refuse
      roll s.here.column none .blockMapping
    rollColumn
    allowKey (!(← inFlow))
  emit .value

/-- Whether a character belongs to the name of an anchor. -/
def isNameChar (c : Char) : Bool := !(isBlank c || c == '\n' || isFlowMark c)

/-- An anchor or an alias. -/
def name (make : String → Token) : Scanner Unit := do
  saveKey
  allowKey false
  let c := (← get).here
  let word := (c.rest.drop 1).takeWhile isNameChar
  if word.isEmpty then refuse
  goTo (c.past (word.length + 1))
  emit (make (String.ofList word))

/-- A tag. -/
def tag : Scanner Unit := do
  saveKey
  allowKey false
  let c := (← get).here
  let word :=
    if c.peekNext = some '<' then
      let inner := c.rest.takeWhile fun d => !(d == '>' || isBlank d || d == '\n')
      inner ++ (c.rest.drop inner.length).take 1
    else c.rest.takeWhile isNameChar
  let d := c.past word.length
  if !(endsWord d.peek || ((← inFlow) && isFlowMark? d.peek)) then refuse
  goTo d
  match word with
  | '!' :: '!' :: core => emit (.tag (some (String.ofList core)))
  | _ => emit (.tag none)

/-- A block scalar. -/
def blockScalar (literal : Bool) : Scanner Unit := do
  saveKey
  allowKey true
  unrollColumns
  let s ← get
  let (text, c) ← lift? (readBlock literal s.indent s.here)
  goTo c
  emit (.scalar false text)

/-- A quoted scalar. -/
def quotedScalar (single : Bool) : Scanner Unit := do
  saveKey
  allowKey false
  let s ← get
  let (text, c) ← lift? (readQuoted single (← inFlow) s.indent s.here)
  goTo c
  skipSpace
  modify fun s => { s with adjacent := s.here.index }
  emit (.scalar false text)

/-- A plain scalar. -/
def plainScalar : Scanner Unit := do
  saveKey
  allowKey false
  unrollColumns
  let s ← get
  let (text, c) ← lift? (readPlain (← inFlow) (s.indent + 1) s.here)
  goTo c
  if c.leading then allowKey true
  emit (.scalar true text)

/-- A mark that starts or ends a document. -/
def documentMark (t : Token) : Scanner Unit := do
  unroll (-1)
  dropKey
  allowKey false
  modify fun s => { s with here := s.here.past 3 }
  emit t
  if t = .documentEnd then
    let _ ← toLineEnd true
    if !endsLine (← get).here.peek then refuse

/-- A directive: its line says nothing that matters here. -/
def directive : Scanner Unit := do
  unroll (-1)
  dropKey
  allowKey false
  modify fun s => { s with here := s.here.pastLine }
  emit .directive

/-- The token at a character that is no mark of a document. -/
def tokenAt (d : Char) : Scanner Unit := do
  let s ← get
  let next := s.here.peekNext
  let flow ← inFlow
  if d = '[' then openFlow .openSequence
  else if d = '\x7b' then openFlow .openMapping
  else if d = ']' then closeFlow .closeSequence
  else if d = '\x7d' then closeFlow .closeMapping
  else if d = ',' then flowEntry
  else if d = '-' ∧ endsWord next then blockEntry
  else if d = '?' ∧ endsWord next then explicitKey
  else if d = ':' ∧ (endsWord next ∨ (flow ∧ (isFlowMark? next ∨ s.here.index = s.adjacent))) then
    valueMark
  else if d = '*' then name .alias
  else if d = '&' then name .anchor
  else if d = '!' then tag
  else if d = '|' ∧ !flow then blockScalar true
  else if d = '>' ∧ !flow then blockScalar false
  else if d = '\'' then quotedScalar true
  else if d = '"' then quotedScalar false
  else if d = '%' ∨ d = '@' ∨ d = '\x60' then refuse
  else plainScalar

/-- The end of the text. -/
def finish : Scanner Unit := do
  if (← get).keys.any fun k => k.possible && k.required then refuse
  unroll (-1)

/-- The tokens up to the end of the text. -/
def allTokens : Nat → Scanner Unit
  | 0 => refuse
  | fuel + 1 => do
    skipSpace
    dropStaleKeys
    let s ← get
    unroll s.here.column
    let s ← get
    match s.here.peek with
    | none => finish
    | some d =>
      if s.here.column = 0 ∧ d = '%' then directive
      else if s.here.atMarker '-' then documentMark .documentStart
      else if s.here.atMarker '.' then documentMark .documentEnd
      else if (s.here.column : Int) < s.indent then refuse
      else tokenAt d
      allTokens fuel

end Scanner

/-- The tokens of a text, or nothing when it is no YAML. -/
def tokens? (text : List Char) : Option (List Token) :=
  let cs := unifyBreaks text
  ((Scanner.allTokens (2 * cs.length + 2)).run
    ⟨.start cs, #[], -1, [], [.nowhere], true, 0⟩).map fun r => r.2.tokens.toList

end Yaml
end RecordSieve
