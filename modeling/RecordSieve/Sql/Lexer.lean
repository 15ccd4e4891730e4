import RecordSieve.Sql.Token
import RecordSieve.Text.Quoted
/-!
# RecordSieve.Sql.Lexer

Cutting a text into tokens. `step` cuts off one token, one stretch of white space
or one comment; `tokens` repeats it. There is no list of tokens for a text that
ends inside a quote or a comment, or where a point is followed by an underscore
without a name before it.
-/

namespace RecordSieve
namespace Sql

/-- What one step found: a token, or something to skip. -/
inductive Lexeme
  | token (t : Token)
  | blank
deriving DecidableEq, Repr

/-- A reader of one lexeme: it and the text after it, or an error. -/
abbrev Lex := Option (Lexeme × List Char)

/-- A token and the text after it. -/
def Lex.token (t : Token) (rest : List Char) : Lex := some (.token t, rest)

/-- A symbol and the text after it. -/
def Lex.symbol (s : String) (rest : List Char) : Lex := some (.token (.symbol s), rest)

/-! ### Comments -/

/-- The text after a block comment, its opening mark being consumed. Comments
nest; `depth` counts the open ones around the innermost. -/
def afterComment : Nat → List Char → Option (List Char)
  | _, [] => none
  | _, [_] => none
  | depth, c :: d :: cs =>
    if c = '*' ∧ d = '/' then
      match depth with
      | 0 => some cs
      | depth + 1 => afterComment depth cs
    else if c = '/' ∧ d = '*' then afterComment (depth + 1) cs
    else afterComment depth (d :: cs)

/-! ### Texts with escapes -/

/-- The value of a hexadecimal digit. -/
def hexValue? (c : Char) : Option Nat :=
  if c.isDigit then some (c.toNat - 48)
  else if 'a' ≤ c ∧ c ≤ 'f' then some (c.toNat - 87)
  else if 'A' ≤ c ∧ c ≤ 'F' then some (c.toNat - 55)
  else none

/-- The number that digits denote in a base. -/
def digitsIn (base : Nat) (ds : List Char) : Nat :=
  ds.foldl (fun n c => base * n + (hexValue? c).getD 0) 0

/-- The character with a code, where there is one other than U+0000. -/
def charOfCode (n : Nat) : Option Char :=
  if n.isValidChar ∧ n ≠ 0 then some (Char.ofNat n) else none

/-- A character given by exactly `count` hexadecimal digits. -/
def hexEscape (count : Nat) (cs : List Char) : Option (Char × List Char) :=
  let ds := cs.take count
  if ds.length = count ∧ ds.all fun d => (hexValue? d).isSome then
    (charOfCode (digitsIn 16 ds)).map fun c => (c, cs.drop count)
  else none

/-- The leading characters with a property, at most `count`. -/
def takeUpTo (count : Nat) (p : Char → Bool) (cs : List Char) : List Char :=
  (cs.take count).takeWhile p

/-- What a backslash escape of an `E'..'` text stands for, and the text after
it. -/
def backslashEscape : List Char → Option (Char × List Char)
  | [] => none
  | c :: cs =>
    if c = 'b' then some (Char.ofNat 8, cs)
    else if c = 'f' then some (Char.ofNat 12, cs)
    else if c = 'n' then some ('\n', cs)
    else if c = 'r' then some ('\r', cs)
    else if c = 't' then some ('\t', cs)
    else if c = 'u' then hexEscape 4 cs
    else if c = 'U' then hexEscape 8 cs
    else if c = 'x' then
      let ds := takeUpTo 2 (fun d => (hexValue? d).isSome) cs
      if ds.isEmpty then some ('x', cs)
      else
        let n := digitsIn 16 ds
        if n < 128 then (charOfCode n).map fun d => (d, cs.drop ds.length) else none
    else if '0' ≤ c ∧ c ≤ '7' then
      let ds := c :: takeUpTo 2 (fun d => '0' ≤ d ∧ d ≤ '7') cs
      let n := digitsIn 8 ds % 256
      if n < 128 then (charOfCode n).map fun d => (d, cs.drop (ds.length - 1)) else none
    else some (c, cs)

/-- Reads the body of an `E'..'` text up to its closing quote, on a budget of
characters. -/
def escapedBody : Nat → List Char → Option (List Char × List Char)
  | 0, _ => none
  | _ + 1, [] => none
  | fuel + 1, c :: cs =>
    if c = '\'' then
      match cs with
      | '\'' :: cs => (escapedBody fuel cs).map fun r => ('\'' :: r.1, r.2)
      | cs => some ([], cs)
    else if c = '\\' then
      match backslashEscape cs with
      | some (d, cs) => (escapedBody fuel cs).map fun r => (d :: r.1, r.2)
      | none => none
    else (escapedBody fuel cs).map fun r => (c :: r.1, r.2)

/-- What an escape of a `U&'..'` text stands for: a backslash, six digits after a
plus sign, or four digits. -/
def codePointEscape : List Char → Option (Char × List Char)
  | '\\' :: cs => some ('\\', cs)
  | '+' :: cs => hexEscape 6 cs
  | cs => hexEscape 4 cs

/-- Reads the body of a `U&'..'` text up to its closing quote. -/
def unicodeBody : Nat → List Char → Option (List Char × List Char)
  | 0, _ => none
  | _ + 1, [] => none
  | fuel + 1, c :: cs =>
    if c = '\'' then
      match cs with
      | '\'' :: cs => (unicodeBody fuel cs).map fun r => ('\'' :: r.1, r.2)
      | cs => some ([], cs)
    else if c = '\\' then
      match codePointEscape cs with
      | some (d, cs) => (unicodeBody fuel cs).map fun r => (d :: r.1, r.2)
      | none => none
    else (unicodeBody fuel cs).map fun r => (c :: r.1, r.2)

/-! ### Tokens by their first character -/

/-- A text whose opening quote is consumed, quotes doubled inside. -/
def lexText (kind : TextKind) (cs : List Char) : Lex :=
  match Text.Quoted.scan '\'' cs with
  | some (body, rest) => .token (.text kind (String.ofList body)) rest
  | none => none

/-- A text read by `body` after its opening quote. -/
def lexTextBy (kind : TextKind) (body : Nat → List Char → Option (List Char × List Char))
    (cs : List Char) : Lex :=
  match body (cs.length + 1) cs with
  | some (body, rest) => .token (.text kind (String.ofList body)) rest
  | none => none

/-- A bare name that starts with the given characters. -/
def lexName (start : List Char) (cs : List Char) : Lex :=
  .token (.word (String.ofList (start ++ cs.takeWhile isNamePart)) none)
    (cs.dropWhile isNamePart)

/-- The kind of text that a letter before a quote marks. -/
def markedKind? (c : Char) : Option TextKind :=
  if c = 'b' ∨ c = 'B' then some .byte
  else if c = 'r' ∨ c = 'R' then some .raw
  else if c = 'n' ∨ c = 'N' then some .national
  else if c = 'x' ∨ c = 'X' then some .hex
  else none

/-- A name, or a text whose kind is marked by the name's first letter. -/
def lexWord (c : Char) (cs : List Char) : Lex :=
  match cs with
  | '\'' :: body =>
    match markedKind? c with
    | some kind => lexText kind body
    | none =>
      if c = 'e' ∨ c = 'E' then lexTextBy .escaped escapedBody body else lexName [c] cs
  | '&' :: '\'' :: body =>
    if c = 'u' ∨ c = 'U' then lexTextBy .unicode unicodeBody body else lexName [c] cs
  | _ => lexName [c] cs

/-- The exponent of a number, if it has a digit, and the text after it. -/
def exponentPart (cs : List Char) : List Char × List Char :=
  match cs with
  | c :: s :: d :: r =>
    if c = 'e' ∨ c = 'E' then
      if s.isDigit then (c :: (s :: d :: r).takeWhile Char.isDigit, (s :: d :: r).dropWhile Char.isDigit)
      else if (s = '+' ∨ s = '-') ∧ d.isDigit then
        (c :: s :: (d :: r).takeWhile Char.isDigit, (d :: r).dropWhile Char.isDigit)
      else ([], cs)
    else ([], cs)
  | [c, s] => if (c = 'e' ∨ c = 'E') ∧ s.isDigit then ([c, s], []) else ([], cs)
  | _ => ([], cs)

/-- The digits, point and digits of a number, and the text after them. -/
def decimalPart (cs : List Char) : List Char × List Char :=
  let whole := cs.takeWhile Char.isDigit
  match cs.dropWhile Char.isDigit with
  | '.' :: r => (whole ++ '.' :: r.takeWhile Char.isDigit, r.dropWhile Char.isDigit)
  | r => (whole, r)

/-- A number, with the suffix `L` if there is one, or a point that stands alone.
Digits after `0x` are the digits of a hexadecimal text. -/
def lexNumber (afterWord : Bool) (cs : List Char) : Lex :=
  match cs with
  | '.' :: '_' :: r => if afterWord then .symbol "." ('_' :: r) else none
  | _ =>
    let (decimal, rest) := decimalPart cs
    if decimal = ['.'] then .symbol "." rest
    else
      match decimal, rest with
      | ['0'], 'x' :: r =>
        let isHex := fun d => (hexValue? d).isSome
        .token (.text .hex (String.ofList (r.takeWhile isHex))) (r.dropWhile isHex)
      | _, _ =>
        let (exponent, rest) := exponentPart rest
        let token := decimal ++ exponent
        match rest with
        | 'L' :: r => .token (.number (String.ofList token) true) r
        | r => .token (.number (String.ofList token)) r

/-- Whether some text starts with the given characters. -/
def startsWith (lead cs : List Char) : Bool := cs.take lead.length == lead

/-- The symbols of more than one character that start with a character, longest
first, and the text of each when printed. -/
def longSymbols (c : Char) : List (String × String) :=
  if c = '-' then [("->>", "->>"), ("->", "->")]
  else if c = '|' then [("||/", "||/"), ("||", "||"), ("|/", "|/")]
  else if c = '=' then [("==", "=="), ("=>", "=>")]
  else if c = '!' then
    [("!~~*", "!~~*"), ("!~~", "!~~"), ("!~*", "!~*"), ("!~", "!~"), ("!=", "<>"), ("!!", "!!")]
  else if c = '<' then [("<=>", "<=>"), ("<=", "<="), ("<>", "<>"), ("<<", "<<"), ("<@", "<@")]
  else if c = '>' then [(">=", ">="), (">>", ">>")]
  else if c = ':' then [("::", "::"), (":=", ":=")]
  else if c = '&' then [("&&", "&&")]
  else if c = '^' then [("^@", "^@")]
  else if c = '~' then [("~~*", "~~*"), ("~~", "~~"), ("~*", "~*")]
  else if c = '/' then [("//", "//")]
  else []

/-- The characters that are symbols by themselves. -/
def isSymbolChar (c : Char) : Bool :=
  "()+-*/%|=!<>:;\\[]&^\x7b\x7d~,".toList.contains c

/-- A symbol, the longest that fits. -/
def lexSymbol (c : Char) (cs : List Char) : Lex :=
  match (longSymbols c).find? fun s => startsWith s.1.toList (c :: cs) with
  | some (written, printed) => .symbol printed ((c :: cs).drop written.length)
  | none => .symbol (String.ofList [c]) cs

/-- A symbol or name that starts with `#`. -/
def lexHash : List Char → Lex
  | [] => .symbol "#" []
  | c :: cs =>
    if c = '-' then .symbol "#-" cs
    else if c = '>' then
      match cs with
      | '>' :: cs => .symbol "#>>" cs
      | cs => .symbol "#>" cs
    else if c = ' ' then .symbol "#" (c :: cs)
    else lexName ['#', c] cs

/-- A symbol or name that starts with `@`. -/
def lexAt : List Char → Lex
  | [] => .symbol "@" []
  | c :: cs =>
    if c = '>' then .symbol "@>" cs
    else if c = '?' then .symbol "@?" cs
    else if c = '@' then
      match cs with
      | [] => .symbol "@@" []
      | d :: ds => if d = ' ' then .symbol "@@" cs else lexName ['@', '@', d] ds
    else if c = ' ' ∨ c = '\'' ∨ c = '"' ∨ c = '\x60' then .symbol "@" (c :: cs)
    else lexName ['@', c] cs

/-- The body of a text that ends with the given mark, and the text after it. -/
def untilMark (mark : List Char) : List Char → Option (List Char × List Char)
  | [] => if mark = [] then some ([], []) else none
  | c :: cs =>
    if startsWith mark (c :: cs) then some ([], (c :: cs).drop mark.length)
    else (untilMark mark cs).map fun r => (c :: r.1, r.2)

/-- A text between dollar signs, or a parameter. -/
def lexDollar (cs : List Char) : Lex :=
  let isTag := fun c => Text.isAlphanumeric c || c == '_'
  let tag := cs.takeWhile isTag
  match cs.dropWhile isTag with
  | '$' :: rest =>
    match untilMark ('$' :: (tag ++ ['$'])) rest with
    | some (body, rest) => .token (.dollarText (String.ofList tag) (String.ofList body)) rest
    | none => none
  | rest => .token (.placeholder (String.ofList ('$' :: tag))) rest

/-- One token, stretch of white space or comment at the start of a text.
`afterWord` tells whether the token before it, with nothing between, is a word. -/
def step (afterWord : Bool) (c : Char) (cs : List Char) : Lex :=
  if Text.isBlank c then some (.blank, cs)
  else if isNameStart c then lexWord c cs
  else if c.isDigit || c == '.' then lexNumber afterWord (c :: cs)
  else if c = '\'' then lexText .plain cs
  else if c = '\x60' || c = '"' then
    match Text.Quoted.scan c cs with
    | some (body, rest) => .token (.word (String.ofList body) (some c)) rest
    | none => none
  else if c = '-' && startsWith ['-'] cs then
    some (.blank, (cs.dropWhile (· != '\n')).drop 1)
  else if c = '/' && startsWith ['*'] cs then
    (afterComment 0 (cs.drop 1)).map fun rest => (.blank, rest)
  else if c = '#' then lexHash cs
  else if c = '@' then lexAt cs
  else if c = '?' then
    .token (.placeholder (String.ofList ('?' :: cs.takeWhile Text.isNumeric)))
      (cs.dropWhile Text.isNumeric)
  else if c = '$' then lexDollar cs
  else if isSymbolChar c then lexSymbol c cs
  else .token (.stray c) cs

/-- Whether a lexeme is a word. -/
def Lexeme.isWord : Lexeme → Bool
  | .token (.word _ _) => true
  | _ => false

/-- The token of a lexeme, as a list of none or one. -/
def Lexeme.toList : Lexeme → List Token
  | .token t => [t]
  | .blank => []

/-- The tokens of a text of at most `budget` characters, the token before it
being a word or not. -/
def tokensWithin : Nat → Bool → List Char → Option (List Token)
  | _, _, [] => some []
  | 0, _, _ :: _ => none
  | budget + 1, afterWord, c :: cs =>
    (step afterWord c cs).bind fun r =>
      (tokensWithin budget r.1.isWord r.2).map (r.1.toList ++ ·)

/-- The tokens of a text. Every step consumes something, so the text's length is
budget enough. -/
def tokens (cs : List Char) : Option (List Token) := tokensWithin cs.length false cs

@[simp] theorem tokensWithin_nil (budget : Nat) (afterWord : Bool) :
    tokensWithin budget afterWord [] = some [] := by
  cases budget <;> rfl

end Sql
end RecordSieve
