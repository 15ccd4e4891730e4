import RecordSieve.Filter.Basic
import RecordSieve.Report.Cause
import RecordSieve.Settings.FilterBook
/-!
# RecordSieve.Settings.CompiledBook

Named filters ready for use. Compiling goes through the entries in their order and
fails at the first one that does not compile.
-/

namespace RecordSieve

/-- Why a book of filters cannot be used. -/
inductive BookError
  /-- No settings can be read under a path. -/
  | unreadable (path : String)
  /-- The settings are no book of filters. -/
  | malformed
  /-- An entry does not compile. -/
  | entry (name : String) (cause : CompileError)
deriving DecidableEq, Repr

/-- The explanation of an error. -/
def BookError.causes : BookError → List Cause
  | unreadable path => [.stated ("Config: Failed to read " ++ Path.quoted path), .external]
  | malformed => [.external]
  | entry name e => [.stated ("Config: Error compiling filter '" ++ name ++ "'"), .clause e]

/-- Compiled filters by name. -/
structure CompiledBook where
  filters : List (String × Filter)
  /-- The names of the filters for which the book sets a way of access. -/
  explicitAccess : List String
  strict : Bool

namespace FilterBook

/-- The way of access of an entry: its own, else the book's, else flat. -/
def accessOf (b : FilterBook) (e : FilterEntry) : FieldAccess :=
  (e.access?.or b.access).getD .flat

/-- Compiles entries in turn. -/
def compileEntries (b : FilterBook) :
    List (String × FilterEntry) → Except BookError (List (String × Filter))
  | [] => .ok []
  | (name, e) :: rest =>
    match Filter.compile e.clause (b.accessOf e) with
    | .error cause => .error (.entry name cause)
    | .ok f => (compileEntries b rest).map fun fs => (name, f) :: fs

/-- Compiles every entry. -/
def compile (b : FilterBook) : Except BookError CompiledBook :=
  (b.compileEntries b.entries).map fun fs =>
    { filters := fs
      explicitAccess :=
        (b.entries.filter fun e => e.2.access?.isSome || b.access.isSome).map Prod.fst
      strict := b.strict }

end FilterBook

namespace CompiledBook

/-- The filter with a given name. -/
def get? (b : CompiledBook) (name : String) : Option Filter := b.filters.lookup name

/-- Whether the book sets the way of access of a filter. -/
def hasExplicitAccess (b : CompiledBook) (name : String) : Bool := b.explicitAccess.contains name

/-- The names of the filters, in order. -/
def names (b : CompiledBook) : List String :=
  (b.filters.map Prod.fst).mergeSort fun s t => !decide (t < s)

/-- The number of filters. -/
def size (b : CompiledBook) : Nat := b.filters.length

/-- Whether there are no filters. -/
def isEmpty (b : CompiledBook) : Bool := b.filters.isEmpty

end CompiledBook
end RecordSieve
