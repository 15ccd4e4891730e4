import RecordSieve.Json.Numeral
/-!
# RecordSieve.Json.Parser

Reading one JSON value from a text. Arrays and objects nest at most `depthLimit`
deep; the limit is also what the recursion runs on: each container hands its
parts to the parser of the next lower depth. The loops over characters, items and
members run on one budget, the length of the whole text, since every round
consumes something.
-/

namespace RecordSieve
namespace Json

/-- A parser of a part of a text: a value and the text after it. -/
abbrev Reader (α : Type) := List Char → Option (α × List Char)

/-- How deep containers may nest. -/
def depthLimit : Nat := 127

/-- The characters between tokens. -/
def isSpace (c : Char) : Bool := c == ' ' || c == '\t' || c == '\n' || c == '\r'

/-- The text without leading space. -/
def skipSpace (cs : List Char) : List Char := cs.dropWhile isSpace

/-- The value of a hexadecimal digit. -/
def hexValue? (c : Char) : Option Nat :=
  if '0' ≤ c ∧ c ≤ '9' then some (c.toNat - 48)
  else if 'a' ≤ c ∧ c ≤ 'f' then some (c.toNat - 87)
  else if 'A' ≤ c ∧ c ≤ 'F' then some (c.toNat - 55)
  else none

/-- Reads four hexadecimal digits. -/
def readHex4 : Reader Nat
  | a :: b :: c :: d :: cs => do
    let a ← hexValue? a
    let b ← hexValue? b
    let c ← hexValue? c
    let d ← hexValue? d
    return (((a * 16 + b) * 16 + c) * 16 + d, cs)
  | _ => none

/-- Reads a `\u` escape after its `u`. A high surrogate must be followed by the
escape of a low one; a surrogate on its own is an error. -/
def readUnicodeEscape (cs : List Char) : Option (Char × List Char) := do
  let (n, cs) ← readHex4 cs
  if 0xD800 ≤ n ∧ n ≤ 0xDBFF then
    match cs with
    | '\\' :: 'u' :: cs =>
      let (m, cs) ← readHex4 cs
      if 0xDC00 ≤ m ∧ m ≤ 0xDFFF then
        return (Char.ofNat (0x10000 + (n - 0xD800) * 0x400 + (m - 0xDC00)), cs)
      else none
    | _ => none
  else if 0xDC00 ≤ n ∧ n ≤ 0xDFFF then none
  else return (Char.ofNat n, cs)

/-- Reads an escape after its backslash. -/
def readEscape : Reader Char
  | [] => none
  | c :: cs =>
    if c = '"' then some ('"', cs)
    else if c = '\\' then some ('\\', cs)
    else if c = '/' then some ('/', cs)
    else if c = 'b' then some (Char.ofNat 8, cs)
    else if c = 'f' then some (Char.ofNat 12, cs)
    else if c = 'n' then some ('\n', cs)
    else if c = 'r' then some ('\r', cs)
    else if c = 't' then some ('\t', cs)
    else if c = 'u' then readUnicodeEscape cs
    else none

/-- Reads the rest of a string after its opening quote, on a budget of
characters. -/
def readStringBody : Nat → Reader (List Char)
  | 0, _ => none
  | _ + 1, [] => none
  | fuel + 1, c :: cs =>
    if c = '"' then some ([], cs)
    else if c = '\\' then do
      let (d, cs) ← readEscape cs
      let (ds, cs) ← readStringBody fuel cs
      return (d :: ds, cs)
    else if c.toNat < 32 then none
    else do
      let (ds, cs) ← readStringBody fuel cs
      return (c :: ds, cs)

/-- Reads the rest of a string after its opening quote. -/
def readString (budget : Nat) (cs : List Char) : Option (String × List Char) :=
  (readStringBody budget cs).map fun r => (String.ofList r.1, r.2)

/-- Reads the rest of an array after its opening bracket or a comma. -/
def readItems (value : Reader Json) : Nat → Reader (List Json)
  | 0, _ => none
  | fuel + 1, cs => do
    let (v, cs) ← value cs
    match skipSpace cs with
    | ',' :: cs =>
      let (vs, cs) ← readItems value fuel cs
      return (v :: vs, cs)
    | ']' :: cs => return ([v], cs)
    | _ => none

/-- Reads one member of an object: a key, a colon and a value. -/
def readMember (value : Reader Json) (budget : Nat) : Reader (String × Json) := fun cs =>
  match skipSpace cs with
  | '"' :: cs => do
    let (key, cs) ← readString budget cs
    match skipSpace cs with
    | ':' :: cs =>
      let (v, cs) ← value cs
      return ((key, v), cs)
    | _ => none
  | _ => none

/-- Reads the rest of an object after its opening brace or a comma. -/
def readMembers (value : Reader Json) (budget : Nat) : Nat → Reader (List (String × Json))
  | 0, _ => none
  | fuel + 1, cs => do
    let (m, cs) ← readMember value budget cs
    match skipSpace cs with
    | ',' :: cs =>
      let (ms, cs) ← readMembers value budget fuel cs
      return (m :: ms, cs)
    | '\x7d' :: cs => return ([m], cs)
    | _ => none

/-- Reads an array after its opening bracket, its items by `value`. -/
def readArray (value : Reader Json) (budget : Nat) : Reader Json := fun cs =>
  match skipSpace cs with
  | ']' :: cs => some (.array [], cs)
  | cs => (readItems value budget cs).map fun r => (.array r.1, r.2)

/-- Reads an object after its opening brace, its values by `value`. -/
def readObject (value : Reader Json) (budget : Nat) : Reader Json := fun cs =>
  match skipSpace cs with
  | '\x7d' :: cs => some (.object [], cs)
  | cs =>
    (readMembers value budget budget cs).map fun r => (.object (Members.ofPairs r.1), r.2)

/-- The text after a given word at its start. -/
def afterWord (word : List Char) (cs : List Char) : Option (List Char) :=
  if cs.take word.length = word then some (cs.drop word.length) else none

/-- Reads a value that is no container. -/
def readAtom (budget : Nat) (cs : List Char) : Option (Json × List Char) :=
  match cs with
  | [] => none
  | c :: r =>
    if c = '"' then (readString budget r).map fun p => (.string p.1, p.2)
    else if c = 'n' then (afterWord "null".toList cs).map fun r => (.null, r)
    else if c = 't' then (afterWord "true".toList cs).map fun r => (.boolean true, r)
    else if c = 'f' then (afterWord "false".toList cs).map fun r => (.boolean false, r)
    else (readNumber cs).map fun p => (.number p.1, p.2)

/-- Reads a value whose containers nest at most `depth` deep. -/
def readValue (budget : Nat) : Nat → Reader Json
  | 0, cs => readAtom budget (skipSpace cs)
  | depth + 1, cs =>
    match skipSpace cs with
    | '[' :: cs => readArray (readValue budget depth) budget cs
    | '\x7b' :: cs => readObject (readValue budget depth) budget cs
    | cs => readAtom budget cs

/-- The value a whole text holds, with nothing but space around it. -/
def parseChars? (cs : List Char) : Option Json :=
  match readValue (cs.length + 1) depthLimit cs with
  | some (v, rest) => if (skipSpace rest).isEmpty then some v else none
  | none => none

/-- The value a whole text holds. -/
def parse? (s : String) : Option Json := parseChars? s.toList

end Json
end RecordSieve
