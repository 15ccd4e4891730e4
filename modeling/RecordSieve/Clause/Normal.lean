import RecordSieve.Clause.Error
import RecordSieve.Clause.Piece
import RecordSieve.Number.Numeral
import RecordSieve.Query.Comparison
/-!
# RecordSieve.Clause.Normal

The normal form of a clause: every comparison operator in its one printed
spelling and every double-quoted text in single quotes. The rest of the clause
stays as it was written, spaces and comments included. On the way every quote,
operator and number is checked, so the query grammar only sees well-formed ones.
-/

namespace RecordSieve
namespace Clause

/-- The double a number token denotes; only finite ones are numbers of a clause. -/
def readNumber (token : List Char) : Except CompileError Binary64 :=
  match Numeral.read? token with
  | none => .error (.malformed (.invalidNumber (String.ofList token)))
  | some n =>
    if n.isFinite then .ok n
    else .error (.malformed (.numberOutOfRange (String.ofList token)))

/-- The normal form of a piece, or why there is none. -/
def Piece.normalize : Piece → Except CompileError (List Char)
  | quoted q body => .ok (Text.Quoted.encode (if q = '"' then '\'' else q) body)
  | unterminated cs => .error (.malformed (.unterminatedQuote (String.ofList cs)))
  | operator cs =>
    match Comparison.ofSymbol? (String.ofList cs) with
    | some op => .ok op.symbol.toList
    | none => .error (.unsupported (.operator (String.ofList cs)))
  | number token => (readNumber token).map fun _ => token
  | word cs => .ok cs
  | other c => .ok [c]

/-- The normal forms of pieces joined; of several bad pieces the first decides. -/
def normalizePieces : List Piece → Except CompileError (List Char)
  | [] => .ok []
  | p :: ps =>
    match p.normalize with
    | .error e => .error e
    | .ok cs => (normalizePieces ps).map (cs ++ ·)

/-- The normal form of a clause, over characters. -/
def normalizeChars (clause : List Char) : Except CompileError (List Char) :=
  normalizePieces (pieces clause)

/-- The normal form of a clause. -/
def normalize (clause : String) : Except CompileError String :=
  (normalizeChars clause.toList).map String.ofList

end Clause
end RecordSieve
