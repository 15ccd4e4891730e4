import RecordSieve.Number.Numeral
import RecordSieve.Sql.Node
import RecordSieve.Sql.Token
/-!
# RecordSieve.Sql.Reader

Readers of token lists. A reader fails because the tokens do not fit (`grammar`)
or because expressions nest too deeply (`depth`). The difference matters when a
reading is only tried: a misfit is taken back and another reading is tried, but
too deep nesting is final.

A list of things is read on a budget of its tokens, since every item consumes
one at least.
-/

namespace RecordSieve
namespace Sql

/-- Why a reading fails. -/
inductive Failure
  /-- The tokens do not fit. -/
  | grammar
  /-- Expressions nest too deeply. -/
  | depth
deriving DecidableEq, Repr

/-- A reader of a leading part of a token list. -/
abbrev Reader (α : Type) := StateT (List Token) (Except Failure) α

namespace Reader

/-- The tokens do not fit. -/
def fail {α : Type} : Reader α := throw .grammar

/-- Nesting is too deep. -/
def tooDeep {α : Type} : Reader α := throw .depth

/-- The token ahead, `n` places on, without consuming it. -/
def peekAt (n : Nat) : Reader (Option Token) := do return (← get)[n]?

/-- The token ahead. -/
def peek : Reader (Option Token) := peekAt 0

/-- Consumes one token. -/
def next : Reader Token := do
  match ← get with
  | [] => fail
  | t :: ts => set ts; return t

/-- Consumes the token ahead if it has a property. -/
def eatIf (p : Token → Bool) : Reader Bool := do
  match ← get with
  | [] => return false
  | t :: ts => if p t then set ts; return true else return false

/-- Consumes a symbol if it is ahead. -/
def eat (symbol : String) : Reader Bool := eatIf (Token.isSymbol symbol)

/-- Consumes a symbol that must be ahead. -/
def expect (symbol : String) : Reader Unit := do
  if !(← eat symbol) then fail

/-- Consumes a keyword if it is ahead. -/
def eatWord (keyword : String) : Reader Bool := eatIf (Token.isKeyword keyword)

/-- Consumes a keyword that must be ahead. -/
def expectWord (keyword : String) : Reader Unit := do
  if !(← eatWord keyword) then fail

/-- Consumes the first of some keywords that is ahead. -/
def eatOneOf : List String → Reader (Option String)
  | [] => return none
  | k :: ks => do if ← eatWord k then return some k else eatOneOf ks

/-- Whether a keyword is ahead, `n` places on. -/
def wordAt (n : Nat) (keyword : String) : Reader Bool := do
  return (← peekAt n).any (Token.isKeyword keyword)

/-- Whether a keyword is ahead. -/
def atWord (keyword : String) : Reader Bool := wordAt 0 keyword

/-- Whether a symbol is ahead. -/
def atSymbol (symbol : String) : Reader Bool := do
  return (← peek).any (Token.isSymbol symbol)

/-- Whether some tokens start with the given keywords. -/
def startWith : List String → List Token → Bool
  | [], _ => true
  | _ :: _, [] => false
  | k :: ks, t :: ts => t.isKeyword k && startWith ks ts

/-- Consumes all of some keywords if they are ahead in this order, or none. -/
def eatWords (keywords : List String) : Reader Bool := do
  let ts ← get
  if startWith keywords ts then set (ts.drop keywords.length); return true
  else return false

/-- Reads `p` if the tokens fit it; otherwise consumes nothing. -/
def attempt {α : Type} (p : Reader α) : Reader (Option α) := fun ts =>
  match p ts with
  | .ok (a, rest) => .ok (some a, rest)
  | .error .grammar => .ok (none, ts)
  | .error .depth => .error .depth

/-- Reads `p`, or `q` from the same place if `p` fails for any reason; if `q` does
not fit either, `p`'s failure stands. -/
def orInstead {α : Type} (p q : Reader α) : Reader α := fun ts =>
  match p ts with
  | .ok r => .ok r
  | .error e =>
    match q ts with
    | .ok r => .ok r
    | .error _ => .error e

/-- Reads `p` as long as `more` consumes a separator, on a budget of items. -/
def sepByWithin {α : Type} (more : Reader Bool) (p : Reader α) : Nat → Reader (List α)
  | 0 => fail
  | budget + 1 => do
    let a ← p
    if ← more then return a :: (← sepByWithin more p budget)
    else return [a]

/-- Reads one item or more with a separator between them. -/
def sepBy {α : Type} (more : Reader Bool) (p : Reader α) : Reader (List α) := do
  sepByWithin more p ((← get).length + 1)

/-- Reads one item or more between commas. -/
def commaList {α : Type} (p : Reader α) : Reader (List α) := sepBy (eat ",") p

/-- Reads items between commas up to a closing symbol, which is consumed. -/
def commaListUpTo {α : Type} (close : String) (p : Reader α) : Reader (List α) := do
  if ← eat close then return []
  let items ← commaList p
  expect close
  return items

/-- Reads `p` between parentheses. -/
def parenthesized {α : Type} (p : Reader α) : Reader α := do
  expect "("
  let a ← p
  expect ")"
  return a

end Reader

open Reader

/-! ### Printed forms -/

/-- Texts between commas. -/
def commaJoined (parts : List String) : String := ", ".intercalate parts

/-- A text after a space, or nothing. -/
def spaced (t : Option String) : String :=
  match t with
  | some s => " " ++ s
  | none => ""

/-- A character inside an `E'..'` text when printed. -/
def renderEscaped (c : Char) : List Char :=
  if c = '\'' then ['\\', '\'']
  else if c = '\\' then ['\\', '\\']
  else if c = '\n' then ['\\', 'n']
  else if c = '\t' then ['\\', 't']
  else if c = '\r' then ['\\', 'r']
  else [c]

/-- A number in hexadecimal capitals, with zeros up to a width. -/
def hexPadded (width n : Nat) : List Char :=
  let ds := (Nat.toDigits 16 n).map Char.toUpper
  List.replicate (width - ds.length) '0' ++ ds

/-- A character inside a `U&'..'` text when printed. -/
def renderCodePoint (c : Char) : List Char :=
  if c = '\'' then ['\'', '\'']
  else if c = '\\' then ['\\', '\\']
  else if c.toNat < 128 then [c]
  else if c.toNat < 0x10000 then '\\' :: hexPadded 4 c.toNat
  else '\\' :: '+' :: hexPadded 6 c.toNat

/-- The printed form of a quoted text that is no plain one. -/
def renderMarked (kind : TextKind) (body : String) : String :=
  match kind with
  | .plain => String.ofList (renderQuoted '\'' body)
  | .national => "N'" ++ body ++ "'"
  | .hex => "X'" ++ body ++ "'"
  | .byte => "B'" ++ body ++ "'"
  | .raw => "R'" ++ body ++ "'"
  | .escaped => "E'" ++ String.ofList (body.toList.flatMap renderEscaped) ++ "'"
  | .unicode => "U&'" ++ String.ofList (body.toList.flatMap renderCodePoint) ++ "'"

/-! ### Names and constants -/

/-- Reads a name: a word, or a text in single quotes. -/
def readName : Reader Name := do
  match ← next with
  | .word v q => return ⟨v, q⟩
  | .text .plain v => return ⟨v, some '\''⟩
  | _ => fail

/-- Reads names with points between them. -/
def readPath : Reader (List Name) := sepBy (eat ".") readName

/-- The printed form of a path. -/
def pathText (parts : List Name) : String :=
  String.ofList (joined ['.'] (parts.map Name.render))

/-- Reads a path as its printed form. -/
def readPathText : Reader String := do return pathText (← readPath)

/-- The constant a token is, if it is one by itself. -/
def Token.constant? : Token → Option Value
  | .word n none =>
    let k := keywordSpelling n
    if k = "TRUE" then some (.boolean true)
    else if k = "FALSE" then some (.boolean false)
    else if k = "NULL" then some .null
    else none
  | .number t long => some (.number t long)
  | .text .plain b => some (.text b)
  | .text kind b => some (.other (renderMarked kind b))
  | .dollarText tag b => some (.other ("$" ++ tag ++ "$" ++ b ++ "$" ++ tag ++ "$"))
  | .placeholder n => some (.other n)
  | _ => none

/-- Reads the name of a parameter after its colon or at sign. -/
def readParameter (mark : String) : Reader Value := do
  match ← next with
  | .word v _ => return .other (mark ++ v)
  | .number t false => return .other (mark ++ t)
  | _ => fail

/-- Reads a constant. -/
def readValue : Reader Value := do
  let t ← next
  match t.constant? with
  | some v => return v
  | none =>
    if t.isSymbol ":" then readParameter ":"
    else if t.isSymbol "@" then readParameter "@"
    else fail

/-- Reads an unsigned whole number of 64 bits. -/
def readNatural : Reader String := do
  match ← next with
  | .number t _ =>
    let n := Numeral.digitsValue t.toList
    if t.toList.all Char.isDigit && n < 0x10000000000000000 then return toString n else fail
  | _ => fail

end Sql
end RecordSieve
