import RecordSieve.Text.Blank
import RecordSieve.Text.Numeric
/-!
# RecordSieve.Sql.Token

The tokens of the query language a clause is read in: words, numbers, texts,
placeholders and symbols. White space and comments are no tokens.

A word without quotes may be a keyword; which one is told by its capitals. A few
characters outside ASCII have capitals inside it, such as `ſ` and `ﬁ`, so a
keyword can be spelled with them too.
-/

namespace RecordSieve
namespace Sql

/-- The kinds of quoted text. All but `plain` carry a mark before the quote. -/
inductive TextKind
  /-- `'..'` -/
  | plain
  /-- `N'..'` -/
  | national
  /-- `X'..'` -/
  | hex
  /-- `B'..'` -/
  | byte
  /-- `R'..'` -/
  | raw
  /-- `E'..'`, with backslash escapes undone. -/
  | escaped
  /-- `U&'..'`, with code point escapes undone. -/
  | unicode
deriving DecidableEq, Repr

/-- A token. -/
inductive Token
  /-- A name or keyword, with the quote character it stood in, if any. -/
  | word (name : String) (quote : Option Char)
  /-- A number as it was written, and whether the suffix `L` stands behind it. -/
  | number (token : String) (long : Bool := false)
  /-- A quoted text. -/
  | text (kind : TextKind) (body : String)
  /-- A text between dollar signs, with its tag. -/
  | dollarText (tag body : String)
  /-- A parameter such as `?` or `$1`. -/
  | placeholder (name : String)
  /-- An operator or a punctuation mark, in its printed spelling. -/
  | symbol (name : String)
  /-- A character that starts no token. -/
  | stray (c : Char)
deriving DecidableEq, Repr

/-- What stands behind the digits of a number. -/
def longSuffix : Bool → List Char
  | true => ['L']
  | false => []

/-- The capitals of a letter, where they are ASCII: the ASCII letters and the ten
other letters and ligatures whose capitals are ASCII letters. -/
def capitals (c : Char) : List Char :=
  match c with
  | 'ı' => ['I']
  | 'ſ' => ['S']
  | 'ß' => ['S', 'S']
  | 'ﬀ' => ['F', 'F']
  | 'ﬁ' => ['F', 'I']
  | 'ﬂ' => ['F', 'L']
  | 'ﬃ' => ['F', 'F', 'I']
  | 'ﬄ' => ['F', 'F', 'L']
  | 'ﬅ' => ['S', 'T']
  | 'ﬆ' => ['S', 'T']
  | c => [c.toUpper]

/-- The spelling by which a word is compared with keywords. -/
def keywordSpelling (name : String) : String :=
  String.ofList (name.toList.flatMap capitals)

namespace Token

/-- Whether a token is the given keyword, in any letter case and unquoted. -/
def isKeyword (keyword : String) : Token → Bool
  | word name none => keywordSpelling name == keyword
  | _ => false

/-- The keyword spelling of an unquoted word. -/
def keyword? : Token → Option String
  | word name none => some (keywordSpelling name)
  | _ => none

/-- Whether a token is the given symbol. -/
def isSymbol (name : String) : Token → Bool
  | symbol s => s == name
  | _ => false

end Token

/-! ### Character classes -/

/-- The characters that start a bare name by themselves. `@` and `#` start one
too, unless they begin a symbol. -/
def isNameStart (c : Char) : Bool := Text.isAlphabetic c || c == '_'

/-- The characters a bare name goes on with. -/
def isNamePart (c : Char) : Bool :=
  Text.isAlphabetic c || c.isDigit || c == '_' || c == '$' || c == '@' || c == '#'

end Sql
end RecordSieve
