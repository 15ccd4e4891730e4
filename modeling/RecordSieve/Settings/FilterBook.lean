import RecordSieve.Record.Access
/-!
# RecordSieve.Settings.FilterBook

Named filters as a file declares them, and their form as JSON. An entry is a bare
clause, or a clause with a way of access of its own; the file can set a way of
access for all entries and ask for strictness.

A book is read back from its own JSON form exactly. Books in settings files are
read with more freedom, in the two places where such files vary: the flag for
strictness and the way of access at the top.
-/

namespace RecordSieve

/-- A named filter as it is declared. -/
inductive FilterEntry
  | bare (clause : String)
  | detailed (clause : String) (access : Option FieldAccess)
deriving DecidableEq, Repr

namespace FilterEntry

/-- The clause of an entry. -/
def clause : FilterEntry → String
  | bare c | detailed c _ => c

/-- The way of access an entry sets. -/
def access? : FilterEntry → Option FieldAccess
  | bare _ => none
  | detailed _ a => a

end FilterEntry

/-- Named filters in the order in which they are gone through. -/
structure FilterBook where
  access : Option FieldAccess
  strict : Bool
  entries : List (String × FilterEntry)
  /-- Each name is declared once. -/
  nodup : (entries.map Prod.fst).Nodup
deriving DecidableEq

/-! ### As JSON -/

/-- A way of access as JSON; null stands for none. -/
def accessToJson (a : Option FieldAccess) : Json :=
  (a.map fun a => Json.string a.name).getD .null

/-- An entry as JSON. -/
def FilterEntry.toJson : FilterEntry → Json
  | bare c => .string c
  | detailed c a => .ofPairs [("where", .string c), ("field_access", accessToJson a)]

/-- A book as JSON. -/
def FilterBook.toJson (b : FilterBook) : Json :=
  .ofPairs [("field_access", accessToJson b.access), ("strict", .boolean b.strict),
    ("filters", .ofPairs (b.entries.map fun e => (e.1, e.2.toJson)))]

/-! ### From JSON -/

/-- How exactly the flag and the way of access at the top are read. -/
inductive Reading
  /-- Only what `FilterBook.toJson` writes, or means the same as JSON. -/
  | exact
  /-- Names in any letter case, and words and numbers as flags. -/
  | free
deriving DecidableEq, Repr

/-- The way of access with a given name. -/
def Reading.accessName? (r : Reading) (s : String) : Option FieldAccess :=
  match r with
  | .exact => FieldAccess.ofName? s
  | .free => FieldAccess.ofName? (String.ofList (s.toList.map Char.toLower))

/-- Reads a way of access: null for none, a name, or a table with a name as its
only key. -/
def Reading.access? (r : Reading) : Json → Option (Option FieldAccess)
  | .null => some none
  | .string s => (r.accessName? s).map some
  | .object [(k, v)] =>
    match r, v with
    | .free, _ | .exact, .null => (r.accessName? k).map some
    | .exact, _ => none
  | _ => none

/-- The words that stand for a flag. -/
def flagWord? (s : String) : Option Bool :=
  let w := String.ofList (s.toList.map Char.toLower)
  if w = "1" ∨ w = "true" ∨ w = "on" ∨ w = "yes" then some true
  else if w = "0" ∨ w = "false" ∨ w = "off" ∨ w = "no" then some false
  else none

/-- Reads a flag. -/
def Reading.flag? : Reading → Json → Option Bool
  | _, .boolean b => some b
  | .free, .number n => some (!n.toBinary64.numEq .zero)
  | .free, .string s => flagWord? s
  | _, _ => none

/-- Reads an entry. Members it does not know are passed over. -/
def FilterEntry.ofJson? : Json → Option FilterEntry
  | .string c => some (.bare c)
  | .object ms => do
    let clause ← (Json.Members.get? "where" ms).bind Json.string?
    let access ← Reading.exact.access? ((Json.Members.get? "field_access" ms).getD .null)
    return .detailed clause access
  | _ => none

/-- Reads the entries of a table. -/
def readEntries? : Json → Option (List (String × FilterEntry))
  | .object ms => ms.mapM fun m => (FilterEntry.ofJson? m.2).map fun e => (m.1, e)
  | _ => none

namespace FilterBook

/-- Reads a book from its parts. -/
def ofParts? (r : Reading) (access strict filters : Json) : Option FilterBook := do
  let access ← r.access? access
  let strict ← r.flag? strict
  let entries ← readEntries? filters
  if h : (entries.map Prod.fst).Nodup then some ⟨access, strict, entries, h⟩ else none

/-- Reads a book from the members of a table. The filters are required; members it
does not know are passed over. -/
def ofMembers? (r : Reading) (ms : Json.Members) : Option FilterBook := do
  ofParts? r ((Json.Members.get? "field_access" ms).getD .null)
    ((Json.Members.get? "strict" ms).getD (.boolean false))
    (← Json.Members.get? "filters" ms)

/-- Reads a book from JSON: a table, or an array of the three parts in order. -/
def ofJson? : Json → Option FilterBook
  | .object ms => ofMembers? .exact ms
  | .array [access, strict, filters] => ofParts? .exact access strict filters
  | _ => none

end FilterBook
end RecordSieve
