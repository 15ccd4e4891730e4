import RecordSieve.Yaml.Token
import RecordSieve.Yaml.Value
/-!
# RecordSieve.Yaml.Document

The value of a YAML document, from its tokens. An alias stands for the value that
the anchor of its name was given to. All functions run on a budget of the tokens,
one of which every step consumes.
-/

namespace RecordSieve
namespace Yaml

/-- What is left of the tokens, and the values that anchors name. -/
structure Stream where
  rest : List Token
  named : List (String × Node)

/-- A reader of values. -/
abbrev Composer := StateT Stream Option

namespace Composer

/-- The tokens do not fit. -/
def refuse {α : Type} : Composer α := fun _ => none

/-- The token ahead. -/
def peek : Composer (Option Token) := do return (← get).rest.head?

/-- Passes over the token ahead. -/
def skip : Composer Unit := modify fun s => { s with rest := s.rest.drop 1 }

/-- Passes over a token if it is ahead. -/
def eat (t : Token) : Composer Bool := do
  if (← peek) = some t then skip; return true else return false

/-- Passes over a token that must be ahead. -/
def expect (t : Token) : Composer Unit := do if !(← eat t) then refuse

/-- What stands where no value is written. -/
def missing : Node := .atom .null

/-- The value of a scalar. A plain one is resolved by its form unless a tag says
what it is. -/
def scalarValue (plain : Bool) (tag : Option (Option String)) (cs : List Char) : Node :=
  let text := Atom.text (String.ofList cs)
  .atom <|
    if !plain then text
    else
      match tag with
      | none => .ofPlain cs
      | some (some "bool") =>
        if cs = "true".toList then .boolean true
        else if cs = "false".toList then .boolean false
        else .null
      | some (some "int") => ((readInteger? cs).map Atom.integer).getD .null
      | some (some "float") =>
        if isReal cs || (readInteger? cs).isSome then .real (String.ofList cs) else .null
      | some (some "null") => .null
      | some _ => text

/-- A mapping of pairs whose keys are scalars, each once. -/
def mapping? (pairs : List (Node × Node)) : Option Node := do
  let pairs ← pairs.mapM fun p =>
    match p.1 with
    | .atom a => some (a, p.2)
    | _ => none
  if (pairs.map Prod.fst).Nodup then return .mapping pairs else none

/-- A mapping of pairs, or a refusal. -/
def mapping (pairs : List (Node × Node)) : Composer Node := fun s =>
  (mapping? pairs).map fun n => (n, s)

/-- Reads the anchor and the tag of a value, in either order. -/
def properties : Composer (Option String × Option (Option String)) := do
  match ← peek with
  | some (.anchor a) =>
    skip
    match ← peek with
    | some (.tag t) => skip; return (some a, some t)
    | _ => return (some a, none)
  | some (.tag t) =>
    skip
    match ← peek with
    | some (.anchor a) => skip; return (some a, some t)
    | _ => return (none, some t)
  | _ => return (none, none)

/-- Gives an anchor's name to a value. -/
def nameAs (anchor : Option String) (n : Node) : Composer Node := do
  if let some a := anchor then modify fun s => { s with named := (a, n) :: s.named }
  return n

mutual

/-- Reads a value. `block` tells whether blocks can start here, and `indentless`
whether a sequence can that is not indented. -/
def node : Nat → Bool → Bool → Composer Node
  | 0, _, _ => refuse
  | fuel + 1, block, indentless => do
    if let some (.alias a) ← peek then
      skip
      match (← get).named.lookup a with
      | some n => return n
      | none => refuse
    else
      let (anchor, tag) ← properties
      match ← peek with
      | some (.scalar plain cs) => skip; nameAs anchor (scalarValue plain tag cs)
      | some .openSequence => skip; nameAs anchor (.sequence (← flowItems fuel))
      | some .openMapping => skip; nameAs anchor (← mapping (← flowPairs fuel))
      | some .blockEntry =>
        if indentless then nameAs anchor (.sequence (← looseItems fuel))
        else emptyNode anchor tag
      | some .blockSequence =>
        if block then skip; nameAs anchor (.sequence (← blockItems fuel))
        else emptyNode anchor tag
      | some .blockMapping =>
        if block then skip; nameAs anchor (← mapping (← blockPairs fuel))
        else emptyNode anchor tag
      | _ => emptyNode anchor tag

/-- A value of which only an anchor or a tag is written. -/
def emptyNode (anchor : Option String) (tag : Option (Option String)) : Composer Node :=
  if anchor.isNone && tag.isNone then refuse else nameAs anchor (scalarValue true tag [])

/-- Reads a value unless one of some tokens is ahead. -/
def nodeUnless : Nat → List Token → Composer Node
  | 0, _ => refuse
  | fuel + 1, ends => do
    match ← peek with
    | none => return missing
    | some t => if ends.contains t then return missing else node fuel true true

/-- Reads the items of a block sequence and its end. -/
def blockItems : Nat → Composer (List Node)
  | 0 => refuse
  | fuel + 1 => do
    if ← eat .blockEntry then
      let item ← itemUnless fuel [.blockEntry, .blockEnd]
      return item :: (← blockItems fuel)
    else do
      expect .blockEnd
      return []

/-- Reads the items of a sequence that is not indented. -/
def looseItems : Nat → Composer (List Node)
  | 0 => refuse
  | fuel + 1 => do
    if ← eat .blockEntry then
      let item ← itemUnless fuel [.blockEntry, .key, .value, .blockEnd]
      return item :: (← looseItems fuel)
    else return []

/-- Reads an item of a sequence unless one of some tokens is ahead. -/
def itemUnless : Nat → List Token → Composer Node
  | 0, _ => refuse
  | fuel + 1, ends => do
    match ← peek with
    | none => return missing
    | some t => if ends.contains t then return missing else node fuel true false

/-- Reads the pairs of a block mapping and its end. -/
def blockPairs : Nat → Composer (List (Node × Node))
  | 0 => refuse
  | fuel + 1 => do
    if ← eat .key then
      let k ← nodeUnless fuel [.key, .value, .blockEnd]
      let v ← blockValue fuel
      return (k, v) :: (← blockPairs fuel)
    else if (← peek) = some .value then
      let v ← blockValue fuel
      return (missing, v) :: (← blockPairs fuel)
    else
      expect .blockEnd
      return []

/-- Reads the value of a pair in a block mapping. -/
def blockValue : Nat → Composer Node
  | 0 => refuse
  | fuel + 1 => do
    if ← eat .value then nodeUnless fuel [.key, .value, .blockEnd] else return missing

/-- Reads the items between brackets and the closing one. -/
def flowItems : Nat → Composer (List Node)
  | 0 => refuse
  | fuel + 1 => do
    if ← eat .closeSequence then return []
    else
      let item ← flowItem fuel
      if ← eat .flowEntry then return item :: (← flowItems fuel)
      else
        expect .closeSequence
        return [item]

/-- Reads an item between brackets: a value, or a pair as a mapping of its own. -/
def flowItem : Nat → Composer Node
  | 0 => refuse
  | fuel + 1 => do
    let ends := [.value, .flowEntry, .closeSequence]
    if ← eat .key then
      let k ← flowNodeUnless fuel ends
      let v ← if ← eat .value then flowNodeUnless fuel ends else pure missing
      mapping [(k, v)]
    else if ← eat .value then
      let v ← flowNodeUnless fuel ends
      mapping [(missing, v)]
    else node fuel false false

/-- Reads the pairs between braces and the closing one. -/
def flowPairs : Nat → Composer (List (Node × Node))
  | 0 => refuse
  | fuel + 1 => do
    if ← eat .closeMapping then return []
    else
      let ends := [.value, .flowEntry, .closeMapping]
      let k ← if ← eat .key then flowNodeUnless fuel ends
        else if (← peek) = some .value then pure missing
        else node fuel false false
      let v ← if ← eat .value then flowNodeUnless fuel ends else pure missing
      if ← eat .flowEntry then return (k, v) :: (← flowPairs fuel)
      else
        expect .closeMapping
        return [(k, v)]

/-- Reads a value between brackets unless one of some tokens is ahead. -/
def flowNodeUnless : Nat → List Token → Composer Node
  | 0, _ => refuse
  | fuel + 1, ends => do
    match ← peek with
    | none => return missing
    | some t => if ends.contains t then return missing else node fuel false false

end

/-- Passes over marks of document ends. -/
def skipEnds : Nat → Composer Unit
  | 0 => pure ()
  | fuel + 1 => do if ← eat .documentEnd then skipEnds fuel

/-- Passes over directives, and tells whether there were any. -/
def skipDirectives : Nat → Composer Bool
  | 0 => return false
  | fuel + 1 => do
    if ← eat .directive then
      let _ ← skipDirectives fuel
      return true
    else return false

/-- Reads the one document of a text, if there is one; nothing may follow it. -/
def document (fuel : Nat) : Composer (Option Node) := do
  skipEnds fuel
  if (← peek).isNone then return none
  else
    let directed ← skipDirectives fuel
    let started ← eat .documentStart
    if directed && !started then refuse
    else
      let root ← match ← peek with
        | none | some .documentEnd => pure missing
        | some _ => node fuel true false
      skipEnds fuel
      if (← peek).isSome then refuse else return some root

end Composer

/-- The value of a text with at most one document; the outer result tells whether
the text is YAML, the inner one whether it holds a document. -/
def document? (text : List Char) : Option (Option Node) := do
  let tokens ← tokens? text
  ((Composer.document (3 * tokens.length + 3)).run ⟨tokens, []⟩).map Prod.fst

end Yaml
end RecordSieve
