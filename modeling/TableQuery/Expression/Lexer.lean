import TableQuery.Expression.Token
import TableQuery.Text.Blank
import TableQuery.Text.Integer

/-!
# Dividing a text into tokens

A token is read off its first character and the text after it. The reader of each
kind of token says how many characters of that text belong to it, so the tokens
and the white space between them are the whole text, and every token takes at
least one character. Text that is no token becomes a token of its own that carries
the fault.
-/

namespace TableQuery
namespace Token

/-- Whether a character opens and closes string literals. -/
def isQuote (c : Char) : Bool :=
  c == '\'' || c == '"' || c == '\x60'

/-- What a backslash and the character `c` stand for in a string literal. -/
def unescape (c : Char) : List Char :=
  if c == 'n' then ['\n']
  else if c == 't' then ['\t']
  else if c == 'r' then ['\r']
  else if c == '0' then ['\x00']
  else if c == '\\' || isQuote c then [c]
  else ['\\', c]

/-- The content of a string literal whose opening quote `quote` precedes the text,
and the number of characters up to and with its closing quote. -/
def readString? (quote : Char) : List Char → Option (List Char × Nat)
  | [] => none
  | c :: s =>
    if c == quote then
      some ([], 1)
    else if c == '\\' then
      match s with
      | [] => none
      | d :: rest =>
        (readString? quote rest).map fun (content, count) => (unescape d ++ content, count + 2)
    else
      (readString? quote s).map fun (content, count) => (c :: content, count + 1)

/-- Whether a character can begin a name. -/
def isNameStart (c : Char) : Bool :=
  c.isAlpha || c == '_'

/-- Whether a character can continue a name. -/
def isNamePart (c : Char) : Bool :=
  c.isAlphanum || c == '_'

/-- Whether a text begins with a point and a digit after it. -/
def startsFraction : List Char → Bool
  | '.' :: d :: _ => d.isDigit
  | _ => false

/-- The number that begins with `c`, a digit or a point before a digit, and how
many characters of `s` belong to it. -/
def readNumber (c : Char) (s : List Char) : Token × Nat :=
  let text := c :: s
  let whole := text.takeWhile Char.isDigit
  let rest := text.drop whole.length
  let fraction := if startsFraction rest then '.' :: (rest.drop 1).takeWhile Char.isDigit else []
  let rest := rest.drop fraction.length
  let mark := rest.take (if rest.head? == some 'e' || rest.head? == some 'E' then 1 else 0)
  let rest := rest.drop mark.length
  let signed := !mark.isEmpty && (rest.head? == some '+' || rest.head? == some '-')
  let sign := rest.take (if signed then 1 else 0)
  let rest := rest.drop sign.length
  let power := if mark.isEmpty then [] else rest.takeWhile Char.isDigit
  let lexeme := whole ++ fraction ++ mark ++ sign ++ power
  let token :=
    if !mark.isEmpty && power.isEmpty then
      fault .invalidNumber
    else
      let whole? := if fraction.isEmpty && mark.isEmpty then Text.readInt? lexeme else none
      match whole?, Double.read? lexeme with
      | some n, _ => int n
      | none, some x => float x
      | none, none => fault .invalidNumber
  (token, lexeme.length - 1)

/-- The name or reserved word that begins with `c`, and how many characters of `s`
belong to it. -/
def readWord (c : Char) (s : List Char) : Token × Nat :=
  let rest := s.takeWhile isNamePart
  let token :=
    match Keyword.ofWord? (c :: rest) with
    | some k => keyword k
    | none => name (String.ofList (c :: rest))
  (token, rest.length)

/-- The symbol of two characters, if they spell one. -/
def doubleSymbol? (c d : Char) : Option Symbol :=
  match c, d with
  | '=', '=' => some .equal
  | '!', '=' => some .notEqual
  | '<', '>' => some .notEqual
  | '<', '=' => some .lessEqual
  | '>', '=' => some .greaterEqual
  | '/', '/' => some .doubleSlash
  | '&', '&' => some .doubleAmp
  | '|', '|' => some .doublePipe
  | _, _ => none

/-- The symbol of one character, if it spells one. -/
def singleSymbol? (c : Char) : Option Symbol :=
  match c with
  | '+' => some .plus
  | '-' => some .minus
  | '*' => some .star
  | '/' => some .slash
  | '%' => some .percent
  | '=' => some .assign
  | '<' => some .less
  | '>' => some .greater
  | '!' => some .bang
  | '(' => some .openParen
  | ')' => some .closeParen
  | '[' => some .openBracket
  | ']' => some .closeBracket
  | ',' => some .comma
  | ';' => some .semicolon
  | '.' => some .dot
  | ':' => some .colon
  | _ => none

/-- The symbol that begins with `c`, two characters before one, and how many
characters of `s` belong to it. -/
def readSymbol (c : Char) (s : List Char) : Token × Nat :=
  match s.head?.bind (doubleSymbol? c), singleSymbol? c with
  | some two, _ => (symbol two, 1)
  | none, some one => (symbol one, 0)
  | none, none => (fault (.unexpectedCharacter c), 0)

/-- The token that begins with `c`, and how many characters of `s` belong to it. -/
def read (c : Char) (s : List Char) : Token × Nat :=
  if isQuote c then
    match readString? c s with
    | some (content, count) => (text (String.ofList content), count)
    | none => (fault .unterminatedString, s.length)
  else if c.isDigit || startsFraction (c :: s) then
    readNumber c s
  else if isNameStart c then
    readWord c s
  else
    readSymbol c s

/-- The tokens of a text that begins at byte `position`, with the end of the text
as the last. -/
def lexFrom (position : Nat) : List Char → List PlacedToken
  | [] => [⟨finish, ⟨position, position⟩⟩]
  | c :: s =>
    if Text.isBlank c then
      lexFrom (position + c.utf8Size) s
    else
      let (token, count) := read c s
      let stop := position + c.utf8Size + Text.Utf8.size (s.take count)
      ⟨token, ⟨position, stop⟩⟩ :: lexFrom stop (s.drop count)
termination_by s => s.length

/-- The tokens of a text. -/
def lex (s : List Char) : List PlacedToken :=
  lexFrom 0 s

end Token
end TableQuery
