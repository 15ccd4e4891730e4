import RecordSieve.Json.Value
import RecordSieve.Number.Numeral
/-!
# RecordSieve.Yaml.Value

YAML values, the meaning of plain scalars, and the table of settings a document
stands for: a JSON value in which every key is a text.
-/

namespace RecordSieve
namespace Yaml

/-- A scalar value. -/
inductive Atom
  | null
  | boolean (b : Bool)
  | integer (n : Int)
  /-- A number with a point or an exponent, or a named one, as it is written. -/
  | real (written : String)
  | text (s : String)
deriving DecidableEq, Repr

/-- A value: keys of mappings are scalars. -/
inductive Node
  | atom (a : Atom)
  | sequence (items : List Node)
  | mapping (pairs : List (Atom × Node))
deriving Inhabited

/-! ### Plain scalars -/

/-- Whether a number fits 64 bits with a sign. -/
def fitsInteger (n : Int) : Bool := decide (-0x8000000000000000 ≤ n) && decide (n < 0x8000000000000000)

/-- An integer in decimal with an optional sign. -/
def readInteger? (cs : List Char) : Option Int :=
  let (negative, ds) := Numeral.readSign cs
  if ds.isEmpty || !ds.all Char.isDigit then none
  else
    let n : Int := Numeral.digitsValue ds
    let n := if negative then -n else n
    if fitsInteger n then some n else none

/-- The value of a digit in a base of at most sixteen. -/
def digit? (base : Nat) (c : Char) : Option Nat :=
  let v :=
    if '0' ≤ c ∧ c ≤ '9' then c.toNat - 48
    else if 'a' ≤ c ∧ c ≤ 'f' then c.toNat - 87
    else if 'A' ≤ c ∧ c ≤ 'F' then c.toNat - 55
    else base
  if v < base then some v else none

/-- A natural number in a base, within 64 bits with a sign. -/
def readBased? (base : Nat) (cs : List Char) : Option Int :=
  if cs.isEmpty then none
  else
    (cs.foldlM (fun n c => (digit? base c).map fun d => n * base + d) 0).bind fun (n : Nat) =>
      if fitsInteger n then some (n : Int) else none

/-- The integer a plain scalar is: in decimal, or in base sixteen or eight after
`0x` or `0o`. -/
def plainInteger? : List Char → Option Int
  | '0' :: 'x' :: cs => readBased? 16 cs
  | '0' :: 'o' :: cs => readBased? 8 cs
  | cs => readInteger? cs

/-- The names of the values that no numeral writes. -/
def namedReals : List String :=
  [".inf", ".Inf", ".INF", "+.inf", "+.Inf", "+.INF", "-.inf", "-.Inf", "-.INF", ".nan", ".NaN",
    ".NAN"]

/-- Whether a plain scalar is a number that is no integer. -/
def isReal (cs : List Char) : Bool :=
  namedReals.contains (String.ofList cs) || (cs.any Char.isDigit && (Numeral.read? cs).isSome)

/-- What a plain scalar means. -/
def Atom.ofPlain (cs : List Char) : Atom :=
  let s := String.ofList cs
  if s = "~" ∨ s = "null" then .null
  else if s = "true" then .boolean true
  else if s = "false" then .boolean false
  else
    match plainInteger? cs with
    | some n => .integer n
    | none => if isReal cs then .real s else .text s

/-! ### Settings -/

/-- A scalar as a key: null is none. -/
def Atom.key? : Atom → Option String
  | null => none
  | boolean true => some "true"
  | boolean false => some "false"
  | integer n => some (toString n)
  | real s | text s => some s

/-- A scalar as a setting; the named reals have no place among settings. -/
def Atom.toSetting? : Atom → Option Json
  | null => some .null
  | boolean b => some (.boolean b)
  | integer n => some (.number (.integer n))
  | real s => (Numeral.read? s.toList).map fun x => .number (.double x)
  | text s => some (.string s)

mutual

/-- A value as a setting. -/
def Node.toSetting? : Node → Option Json
  | .atom a => a.toSetting?
  | .sequence items => (allToSettings? items).map Json.array
  | .mapping pairs => (pairsToSettings? pairs).map Json.ofPairs

/-- Each value as a setting. -/
def allToSettings? : List Node → Option (List Json)
  | [] => some []
  | n :: ns => do
    let v ← n.toSetting?
    let vs ← allToSettings? ns
    return v :: vs

/-- Each pair as a key and a setting. -/
def pairsToSettings? : List (Atom × Node) → Option (List (String × Json))
  | [] => some []
  | (k, n) :: ps => do
    let key ← k.key?
    let v ← n.toSetting?
    let vs ← pairsToSettings? ps
    return (key, v) :: vs

end

end Yaml
end RecordSieve
