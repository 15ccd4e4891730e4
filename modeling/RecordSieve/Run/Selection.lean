import RecordSieve.CommandLine.Options
import RecordSieve.Report.Logged
import RecordSieve.Settings.Loading
/-!
# RecordSieve.Run.Selection

The filter of a run. A clause in the options wins over a file of filters. Fields
are read in the way the options set, else the filter's entry or its file, else as
the input format has it. A run is strict when the options or the file say so; the
file has no say when the clause comes from the options.
-/

namespace RecordSieve

/-- Why a run has no filter. -/
inductive SelectionError
  /-- The clause of the options does not compile. -/
  | clause (text : String) (cause : CompileError)
  /-- There is neither a clause nor a file of filters. -/
  | noFilter
  /-- There is a file of filters but no name. -/
  | noName
  /-- The file of filters cannot be used. -/
  | book (cause : BookError)
  /-- No filter has the given name. -/
  | unknownName (name : String) (available : List String)
deriving DecidableEq, Repr

/-- The explanation of an error. -/
def SelectionError.causes : SelectionError → List Cause
  | clause text e => [.stated ("CLI: Error compiling --where clause '" ++ text ++ "'"), .clause e]
  | noFilter => [.stated "CLI: Provide a --where clause or --filters with --name"]
  | noName => [.stated "CLI: --filters needs --name to choose a filter"]
  | book e => e.causes
  | unknownName name available =>
    [.stated ("Config: No filter named '" ++ name ++ "' (available: " ++
      ", ".intercalate available ++ ")")]

/-- The filter of a run, and whether mismatches are fatal. -/
structure Selection where
  filter : Filter
  strict : Bool
deriving DecidableEq

/-- A computation that reports events and can fail. -/
abbrev Attempt (ε : Type) := ExceptT ε Logged

/-- Reports an event. -/
def report {ε : Type} (e : Event) : Attempt ε Unit := ExceptT.lift (Logged.report e)

namespace Options

/-- The filter that a clause in the options gives. -/
def selectClause (o : Options) (input : Format) (clause : String) :
    Except SelectionError Selection :=
  match Filter.compile clause (o.access.getD input.defaultAccess) with
  | .ok f => .ok ⟨f, o.strict⟩
  | .error e => .error (.clause clause e)

/-- The filter with a given name in a compiled book. -/
def selectNamed (o : Options) (input : Format) (book : CompiledBook) (name : String) :
    Except SelectionError Selection :=
  match book.get? name with
  | none => .error (.unknownName name book.names)
  | some f =>
    let own := if book.hasExplicitAccess name then f.access else input.defaultAccess
    .ok ⟨f.withAccess (o.access.getD own), o.strict || book.strict⟩

/-- The compiled book of filters that a path leads to. -/
def loadBook (files : Files) (path : String) : Except SelectionError CompiledBook :=
  ((FilterBook.load files path).bind FilterBook.compile).mapError .book

/-- The filter of a run. -/
def select (o : Options) (files : Files) (input : Format) : Attempt SelectionError Selection :=
  match o.clause with
  | some clause => liftExcept (o.selectClause input clause)
  | none =>
    match o.filters, o.name with
    | none, _ => throw .noFilter
    | some _, none => throw .noName
    | some path, some name => do
      let book ← liftExcept (loadBook files path)
      report (.filtersLoaded book.size path)
      liftExcept (o.selectNamed input book name)
where
  /-- A result that reports nothing. -/
  liftExcept {α : Type} (r : Except SelectionError α) : Attempt SelectionError α :=
    ExceptT.mk (pure r)

end Options
end RecordSieve
