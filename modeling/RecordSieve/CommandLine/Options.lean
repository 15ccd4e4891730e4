import RecordSieve.Number.Numeral
import RecordSieve.Record.Format
/-!
# RecordSieve.CommandLine.Options

The options of a run, their names, and what each accepts as its value.
-/

namespace RecordSieve

/-- The options of a run. -/
structure Options where
  /-- Where records come from; a dash is the standard input. -/
  input : String
  inputFormat : Option Format
  /-- Where records go; a dash is the standard output. -/
  output : String
  outputFormat : Option Format
  clause : Option String
  /-- The file of named filters. -/
  filters : Option String
  /-- The filter to take from that file. -/
  name : Option String
  access : Option FieldAccess
  /-- Whether every record is written with a flag, instead of the matching ones. -/
  mark : Bool
  markField : String
  /-- Whether a record that cannot be evaluated fails the run. -/
  strict : Bool
  threads : Option Nat
  verbose : Bool
deriving DecidableEq, Repr

namespace CommandLine

/-- Why a command line is not a run: a fault, or a request for a text. -/
inductive UsageError
  | missingInput
  | unknownArgument
  /-- A value that is missing, empty or not among those that are possible. -/
  | invalidValue
  /-- A value that is no number. -/
  | invalidNumber
  /-- An option that is given twice. -/
  | repeated
  /-- A value for an option that takes none. -/
  | unexpectedValue
  | help
  | version
deriving DecidableEq, Repr

/-- An option by what it sets. -/
inductive Key
  | input
  | inputFormat
  | output
  | outputFormat
  | clause
  | filters
  | name
  | access
  | mark
  | markField
  | strict
  | threads
  | verbose
  | help
  | version
deriving DecidableEq, Repr

namespace Key

/-- All options. -/
def all : List Key :=
  [input, inputFormat, output, outputFormat, clause, filters, name, access, mark, markField,
    strict, threads, verbose, help, version]

/-- The name of an option after two dashes. -/
def long : Key → String
  | input => "input"
  | inputFormat => "input-format"
  | output => "output"
  | outputFormat => "format"
  | clause => "where"
  | filters => "filters"
  | name => "name"
  | access => "field-access"
  | mark => "mark"
  | markField => "mark-field"
  | strict => "strict"
  | threads => "threads"
  | verbose => "verbose"
  | help => "help"
  | version => "version"

/-- The letter of an option after one dash. -/
def short? : Key → Option Char
  | input => some 'i'
  | output => some 'o'
  | clause => some 'w'
  | filters => some 'f'
  | name => some 'n'
  | threads => some 't'
  | verbose => some 'v'
  | help => some 'h'
  | version => some 'V'
  | _ => none

/-- Whether an option has a value. -/
def takesValue : Key → Bool
  | mark | strict | verbose | help | version => false
  | _ => true

/-- The option with a given name. -/
def ofLong? (s : String) : Option Key := all.find? fun k => k.long == s

/-- The option with a given letter. -/
def ofShort? (c : Char) : Option Key := all.find? fun k => k.short? == some c

@[simp] theorem ofLong?_long (k : Key) : ofLong? k.long = some k := by
  cases k <;> decide

end Key

/-! ### Values -/

/-- The options that have been given. -/
structure Given where
  input : Option String := none
  inputFormat : Option Format := none
  output : Option String := none
  outputFormat : Option Format := none
  clause : Option String := none
  filters : Option String := none
  name : Option String := none
  access : Option FieldAccess := none
  mark : Bool := false
  markField : Option String := none
  strict : Bool := false
  threads : Option Nat := none
  verbose : Bool := false

/-- A path: any text but the empty one. -/
def readPath (s : String) : Except UsageError String :=
  if s.isEmpty then .error .invalidValue else .ok s

/-- One of a list of possible values. -/
def readChoice {α : Type} (choice? : String → Option α) (s : String) : Except UsageError α :=
  match choice? s with
  | some a => .ok a
  | none => .error .invalidValue

/-- A number of at most 64 bits, with or without a plus sign. -/
def readCount (s : String) : Except UsageError Nat :=
  let ds := match s.toList with
    | '+' :: ds => ds
    | ds => ds
  let n := Numeral.digitsValue ds
  if ds.isEmpty || !ds.all Char.isDigit || decide (0x10000000000000000 ≤ n) then .error .invalidNumber
  else .ok n

/-- Sets what is not set yet. -/
def once {α : Type} (old : Option α) (new : Except UsageError α) : Except UsageError (Option α) :=
  if old.isSome then .error .repeated else new.map some

namespace Given

/-- Gives an option its value. -/
def setValue (g : Given) (k : Key) (v : String) : Except UsageError Given :=
  match k with
  | .input => do return { g with input := ← once g.input (readPath v) }
  | .inputFormat => do
    return { g with inputFormat := ← once g.inputFormat (readChoice Format.ofOption? v) }
  | .output => do return { g with output := ← once g.output (readPath v) }
  | .outputFormat => do
    return { g with outputFormat := ← once g.outputFormat (readChoice Format.ofOption? v) }
  | .clause => do return { g with clause := ← once g.clause (.ok v) }
  | .filters => do return { g with filters := ← once g.filters (readPath v) }
  | .name => do return { g with name := ← once g.name (.ok v) }
  | .access => do return { g with access := ← once g.access (readChoice FieldAccess.ofName? v) }
  | .markField => do return { g with markField := ← once g.markField (.ok v) }
  | .threads => do return { g with threads := ← once g.threads (readCount v) }
  | .mark | .strict | .verbose | .help | .version => .error .unexpectedValue

/-- Sets a flag. -/
def setFlag (g : Given) (k : Key) : Except UsageError Given :=
  match k with
  | .mark => if g.mark then .error .repeated else .ok { g with mark := true }
  | .strict => if g.strict then .error .repeated else .ok { g with strict := true }
  | .verbose => if g.verbose then .error .repeated else .ok { g with verbose := true }
  | .help => .error .help
  | .version => .error .version
  | _ => .error .invalidValue

/-- The options of a run, with what was not given at its default. -/
def options (g : Given) : Except UsageError Options :=
  match g.input with
  | none => .error .missingInput
  | some input =>
    .ok {
      input := input
      inputFormat := g.inputFormat
      output := g.output.getD "-"
      outputFormat := g.outputFormat
      clause := g.clause
      filters := g.filters
      name := g.name
      access := g.access
      mark := g.mark
      markField := g.markField.getD "visible"
      strict := g.strict
      threads := g.threads
      verbose := g.verbose }

end Given
end CommandLine
end RecordSieve
