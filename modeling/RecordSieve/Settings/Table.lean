import RecordSieve.Json.Value
/-!
# RecordSieve.Settings.Table

A table of settings, from the pairs at the top of a settings file. A key of words
with dots between them leads into nested tables, so `a.b: 1` sets `b` in the table
`a`. Tables set twice are merged; of any other setting the last one stays.
-/

namespace RecordSieve
namespace Settings

/-- The words of a key between dots. -/
def words : List Char → List (List Char)
  | [] => [[]]
  | c :: cs =>
    if c = '.' then [] :: words cs
    else
      match words cs with
      | w :: ws => (c :: w) :: ws
      | [] => [[c]]

/-- Whether a character can be in a word of a key with dots. -/
def isWordChar (c : Char) : Bool := c.isAlphanum || c == '_' || c == '-'

/-- The way a key leads: one step for each word of a key with dots, a single step
for any other key. -/
def steps (key : String) : List String :=
  let ws := words key.toList
  if ws.all fun w => !w.isEmpty && w.all isWordChar then ws.map String.ofList else [key]

mutual

/-- A setting put on top of another: tables are merged, all else is replaced. -/
def overlay (old : Option Json) : Json → Json
  | .object ms => .object (overlayAll ((old.bind Json.members?).getD []) ms)
  | v => v

/-- Members put on top of others. -/
def overlayAll (old : Json.Members) : List (String × Json) → Json.Members
  | [] => old
  | (k, v) :: ms =>
    overlayAll (Json.Members.insert k (overlay (Json.Members.get? k old) v) old) ms

end

/-- Sets what a way leads to. -/
def setAt (value : Json) : List String → Json.Members → Json.Members
  | [], ms => ms
  | [k], ms => Json.Members.insert k (overlay (Json.Members.get? k ms) value) ms
  | k :: ks, ms =>
    let inner := ((Json.Members.get? k ms).bind Json.members?).getD []
    Json.Members.insert k (.object (setAt value ks inner)) ms

/-- The table that some pairs make up. -/
def ofPairs (pairs : List (String × Json)) : Json.Members :=
  pairs.foldl (fun ms p => setAt p.2 (steps p.1) ms) []

end Settings
end RecordSieve
