import RecordSieve.CommandLine.Options
/-!
# RecordSieve.CommandLine.Parsing

Reading a command line. An option's value follows as an argument of its own, or in
the same argument after an equals sign, or after the option's letter. A separate
value is only looked at when the next option starts or the line ends, so a fault
in an argument that belongs to no option shows before a fault in the value before
it.
-/

namespace RecordSieve
namespace CommandLine

/-- How far a command line has been read. -/
structure Progress where
  given : Given
  /-- The option whose value is being awaited, or was just found. -/
  pending : Option (Key × Option String)

namespace Progress

/-- Gives the pending option its value. -/
def settle (p : Progress) : Except UsageError Given :=
  match p.pending with
  | none => .ok p.given
  | some (_, none) => .error .invalidValue
  | some (k, some v) => p.given.setValue k v

/-- An option that takes a value, with the value if it is in the same argument. -/
def option (p : Progress) (k : Key) (attached : Option String) : Except UsageError Progress := do
  let g ← p.settle
  match attached with
  | some v => return ⟨← g.setValue k v, none⟩
  | none => return ⟨g, some (k, none)⟩

/-- An option that takes no value. -/
def flag (p : Progress) (k : Key) : Except UsageError Progress := do
  let g ← p.settle
  return ⟨← g.setFlag k, none⟩

/-- An argument after two dashes. -/
def long (p : Progress) (body : List Char) : Except UsageError Progress :=
  let name := body.takeWhile fun c => c != '='
  let attached := match body.drop name.length with
    | [] => none
    | _ :: v => some (String.ofList v)
  match Key.ofLong? (String.ofList name) with
  | none => .error .unknownArgument
  | some k =>
    if k.takesValue then p.option k attached
    else if attached.isSome then .error .unexpectedValue
    else p.flag k

/-- The letters after one dash. The first one that takes a value takes what
follows it. -/
def short (p : Progress) : List Char → Except UsageError Progress
  | [] => .ok p
  | c :: cs =>
    match Key.ofShort? c with
    | none => .error .unknownArgument
    | some k =>
      if k.takesValue then
        p.option k <|
          match cs with
          | [] => none
          | '=' :: v => some (String.ofList v)
          | v => some (String.ofList v)
      else
        match p.flag k with
        | .ok q => q.short cs
        | .error e => .error e

/-- An argument that is no option: the value that is awaited. -/
def plain (p : Progress) (arg : String) : Except UsageError Progress :=
  match p.pending with
  | some (k, none) => .ok { p with pending := some (k, some arg) }
  | _ => .error .unknownArgument

/-- One argument before a double dash. -/
def argument (p : Progress) (arg : String) : Except UsageError Progress :=
  match arg.toList with
  | '-' :: '-' :: body => p.long body
  | '-' :: c :: cs => p.short (c :: cs)
  | _ => p.plain arg

/-- The arguments of a line. Nothing may follow a double dash. -/
def arguments (p : Progress) : List String → Except UsageError Progress
  | [] => .ok p
  | arg :: rest =>
    if arg = "--" then if rest.isEmpty then .ok p else .error .unknownArgument
    else
      match p.argument arg with
      | .ok q => q.arguments rest
      | .error e => .error e

end Progress

/-- The values of the environment variables that stand in for options. -/
structure Environment where
  filters : Option String := none
  access : Option String := none

/-- The variable that stands in for the file of filters. -/
def filtersVariable : String := "AQL_FILTERS"

/-- The variable that stands in for the way of access. -/
def accessVariable : String := "AQL_FIELD_ACCESS"

/-- Takes an option that was not given from the environment. -/
def fromEnvironment (g : Given) (k : Key) (isGiven : Bool) (value : Option String) :
    Except UsageError Given :=
  match value with
  | some v => if isGiven then .ok g else g.setValue k v
  | none => .ok g

/-- The options that a command line and the environment give. -/
def parse (args : List String) (env : Environment) : Except UsageError Options := do
  let p ← (Progress.mk {} none).arguments args
  let g ← p.settle
  let g ← fromEnvironment g .filters g.filters.isSome env.filters
  let g ← fromEnvironment g .access g.access.isSome env.access
  g.options

end CommandLine
end RecordSieve
