import RecordSieve.CommandLine.Help
import RecordSieve.Run.Basic
/-!
# RecordSieve.Main

The program: it gathers the files that its options name, runs, and puts down what
the run leaves. Results go to the output, reports and errors to the standard
error.
-/

namespace RecordSieve.Program

/-- All bytes of a stream. -/
partial def readAll (s : IO.FS.Stream) (acc : ByteArray) : IO ByteArray := do
  let chunk ← s.read 65536
  if chunk.isEmpty then return acc else readAll s (acc ++ chunk)

/-- The files among some paths that can be read, under their names. -/
def gather (paths : List String) : IO (List (String × List UInt8)) := do
  let found ← paths.mapM fun (path : String) => do
    try
      let bytes ← IO.FS.readBinFile path
      return (Files.name? path).map fun name => (name, bytes.data.toList)
    catch _ => return none
  return (found.filterMap id).eraseDupsBy fun a b => a.1 == b.1

/-- The paths that a run may read. -/
def readPaths (o : Options) : List String :=
  let settings := o.filters.toList.flatMap fun path =>
    path :: FilterBook.extensions.map fun e => path ++ "." ++ e
  o.input :: settings

/-- The directories among some paths. -/
def folders (paths : List String) : IO (List String) :=
  paths.filterM fun (path : String) => do
    try
      let place ← IO.FS.realPath path
      place.isDir
    catch _ => return false

/-- The directories that a path goes through. -/
def passed (path : String) : List String :=
  let parts := Path.parts path
  (List.range parts.length).map fun i =>
    String.ofList (Files.join (Files.walk [] (parts.take i)))

/-- What a run with given options finds. -/
def surroundings (o : Options) : IO Surroundings := do
  let contents ← gather (readPaths o)
  let there ← folders ([o.input, o.output] ++ (o.output :: readPaths o).flatMap passed)
  let stdin ←
    if Path.isStandard o.input then
      let bytes ← readAll (← IO.getStdin) .empty
      pure bytes.data.toList
    else pure []
  return ⟨⟨contents, there⟩, stdin⟩

/-- The wording for what formats and the file system find wrong. -/
def elsewhere : String := "the data or the file system does not allow it"

/-- Prints the explanation of a failure. -/
def explain (causes : List Cause) : IO Unit :=
  IO.eprintln ("Error: " ++ ": ".intercalate (causes.map (Cause.text elsewhere)))

/-- Prints the events that the options ask for. -/
def printEvents (o : Options) (events : List Event) : IO Unit :=
  for e in events do
    if e.severity = .warn ∨ (e.severity = .info ∧ o.verbose) then IO.eprintln e.line

/-- Puts down the file of the output if the run has changed it; whether that was
possible. -/
def putDown (o : Options) (before after : Files) : IO Bool := do
  match (Files.name? o.output).bind after.get? with
  | none => return true
  | some content =>
    if (Files.name? o.output).bind before.get? = some content then return true
    try
      IO.FS.writeBinFile o.output ⟨content.toArray⟩
      return true
    catch _ => return false

/-- A run on the files of the system. -/
def execute (o : Options) : IO UInt32 := do
  let w ← surroundings o
  let done := o.run w Schedule.inOrder
  printEvents o done.events
  (← IO.getStdout).putStr done.stdout
  if !(← putDown o w.files done.files) then
    explain (OutputError.notCreated o.output).causes
    return 1
  match done.result with
  | .ok _ => return 0
  | .error e =>
    explain e.causes
    return 1

end RecordSieve.Program

open RecordSieve

/-- Runs with the options of the command line and the environment. -/
def main (args : List String) : IO UInt32 := do
  let env : CommandLine.Environment :=
    ⟨← IO.getEnv CommandLine.filtersVariable, ← IO.getEnv CommandLine.accessVariable⟩
  match CommandLine.parse args env with
  | .ok o => Program.execute o
  | .error .help => IO.println CommandLine.helpText; return 0
  | .error .version => IO.println CommandLine.versionText; return 0
  | .error e =>
    IO.eprintln ("error: " ++ e.message)
    return 2
