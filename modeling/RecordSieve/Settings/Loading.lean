import RecordSieve.Run.Files
import RecordSieve.Settings.CompiledBook
import RecordSieve.Settings.Table
import RecordSieve.Text.Utf8
import RecordSieve.Yaml.Document
/-!
# RecordSieve.Settings.Loading

Loading a book of filters from a YAML file. The file has one of two extensions;
where no file has the given name, the extensions are tried behind it.
-/

namespace RecordSieve
namespace FilterBook

/-- The extensions of settings files. -/
def extensions : List String := ["yaml", "yml"]

/-- The bytes of the settings file a path leads to. -/
def find? (files : Files) (path : String) : Option (List UInt8) :=
  match files.read? path with
  | some bytes =>
    (Path.extension? path).bind fun e =>
      if extensions.contains (String.ofList e) then some bytes else none
  | none => extensions.findSome? fun e => files.read? (path ++ "." ++ e)

/-- A text without the mark that some files start with. -/
def dropMark (cs : List Char) : List Char :=
  if cs.head? = some (Char.ofNat 0xFEFF) then cs.drop 1 else cs

/-- The table of settings in some bytes. A file without a document is an empty
table. -/
def table? (bytes : List UInt8) : Option Json.Members := do
  let text ← Text.Utf8.decode? bytes
  match ← Yaml.document? (dropMark text.toList) with
  | none => return []
  | some (.mapping pairs) => return Settings.ofPairs (← Yaml.pairsToSettings? pairs)
  | some _ => none

/-- Loads a book of filters. -/
def load (files : Files) (path : String) : Except BookError FilterBook :=
  match (find? files path).bind table? with
  | none => .error (.unreadable path)
  | some ms =>
    match ofMembers? .free ms with
    | some b => .ok b
    | none => .error .malformed

end FilterBook
end RecordSieve
