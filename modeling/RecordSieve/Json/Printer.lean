import RecordSieve.Json.Value
import RecordSieve.Number.Form
/-!
# RecordSieve.Json.Printer

The compact text of a JSON value: no spaces, members in the order they are
stored, non-ASCII characters as they are.
-/

namespace RecordSieve
namespace Json

/-- A hexadecimal digit below 16, in lower case. -/
def hexDigit (n : Nat) : Char :=
  if n < 10 then Char.ofNat (48 + n) else Char.ofNat (87 + n)

/-- A character inside a string: the quote, the backslash and the controls below
U+0020 are escaped, five controls by a letter and the others by their code. -/
def renderChar (c : Char) : List Char :=
  if c = '"' then ['\\', '"']
  else if c = '\\' then ['\\', '\\']
  else if c = '\n' then ['\\', 'n']
  else if c = '\r' then ['\\', 'r']
  else if c = '\t' then ['\\', 't']
  else if c.toNat = 8 then ['\\', 'b']
  else if c.toNat = 12 then ['\\', 'f']
  else if c.toNat < 32 then
    ['\\', 'u', '0', '0', hexDigit (c.toNat / 16), hexDigit (c.toNat % 16)]
  else [c]

/-- A string with its quotes. -/
def renderString (s : List Char) : List Char :=
  '"' :: (s.flatMap renderChar ++ ['"'])

/-- An integer in decimal. -/
def renderInt (n : Int) : List Char :=
  if n < 0 then '-' :: Nat.toDigits 10 n.natAbs else Nat.toDigits 10 n.natAbs

/-- A number: integers in decimal, doubles in the form of records. -/
def renderNumber : JsonNumber → List Char
  | .integer n => renderInt n
  | .double x => NumberForm.json.render x

mutual

/-- The compact text of a value, over characters. -/
def render : Json → List Char
  | null => "null".toList
  | boolean true => "true".toList
  | boolean false => "false".toList
  | number n => renderNumber n
  | string s => renderString s.toList
  | array vs => '[' :: (renderItems vs ++ [']'])
  | object ms => '\x7b' :: (renderMembers ms ++ ['\x7d'])

/-- Items between commas. -/
def renderItems : List Json → List Char
  | [] => []
  | [v] => v.render
  | v :: vs => v.render ++ ',' :: renderItems vs

/-- Members between commas. -/
def renderMembers : List (String × Json) → List Char
  | [] => []
  | [(k, v)] => renderString k.toList ++ ':' :: v.render
  | (k, v) :: ms => renderString k.toList ++ ':' :: (v.render ++ ',' :: renderMembers ms)

end

/-- The compact text of a value. -/
def text (v : Json) : String := String.ofList v.render

end Json
end RecordSieve
