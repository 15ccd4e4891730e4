/-!
# RecordSieve.Clause.Error

Why a clause does not compile. There are three headings: a construct outside the
filter language, a malformed literal, and text the query grammar rejects. Each
cause carries what its message shows; `message` holds all the wording.
-/

namespace RecordSieve

/-- A construct outside the filter language. -/
inductive Unsupported
  /-- An operator that does not exist or that filters do not have. -/
  | operator (symbol : String)
  /-- A clause that holds several statements. -/
  | statements (count : Nat)
  /-- A clause that goes on with a set operation; the whole query is shown. -/
  | setOperation (query : String)
  /-- Text after the condition, shown with the condition. -/
  | beyondCondition (text : String)
  /-- Several expressions in one pair of parentheses. -/
  | tuple (size : Nat) (text : String)
  /-- An item of `IN` that is not a literal. -/
  | listItem (text : String)
  /-- A literal of a kind filters do not have. -/
  | literal (text : String)
  /-- Any other expression. -/
  | expression (text : String)
deriving DecidableEq, Repr

/-- A literal that cannot be read. -/
inductive Malformed
  /-- A quote that is never closed; the text from the quote on is shown. -/
  | unterminatedQuote (rest : String)
  /-- A number too large for a double. -/
  | numberOutOfRange (token : String)
  /-- A token that starts like a number and is none. -/
  | invalidNumber (token : String)
deriving DecidableEq, Repr

/-- Why a clause does not compile. -/
inductive CompileError
  | unsupported (cause : Unsupported)
  | malformed (cause : Malformed)
  /-- Nothing but white space. -/
  | emptyClause
  /-- Text the query grammar rejects. -/
  | grammar
deriving DecidableEq, Repr

/-- The message of an unsupported construct. -/
def Unsupported.message : Unsupported → String
  | operator s => "operator '" ++ s ++ "'"
  | statements n => toString n ++ " statements in filter"
  | setOperation q => q
  | beyondCondition t => "clauses beyond WHERE: " ++ t
  | tuple n t => "parenthesized list of " ++ toString n ++ " elements outside IN: " ++ t
  | listItem t => "non-literal IN list item: " ++ t
  | literal t => "literal " ++ t
  | expression t => t

/-- The message of a malformed literal. -/
def Malformed.message : Malformed → String
  | unterminatedQuote r => "unterminated quote: " ++ r
  | numberOutOfRange t => "number out of range '" ++ t ++ "'"
  | invalidNumber t => "invalid number '" ++ t ++ "'"

namespace CompileError

/-- The heading an error stands under. -/
def heading : CompileError → String
  | unsupported _ => "unsupported construct in filter"
  | malformed _ => "malformed literal in filter"
  | emptyClause | grammar => "failed to parse filter"

/-- The message below the heading. What the grammar found wrong is not part of
this library's language, so that error has none. -/
def message? : CompileError → Option String
  | unsupported c => some c.message
  | malformed c => some c.message
  | emptyClause => some "empty filter clause"
  | grammar => none

end CompileError
end RecordSieve
