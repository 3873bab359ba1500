import TableQuery.Double.Text
import TableQuery.Text.Utf8

/-!
# Tokens of expressions

The words, literals and symbols that expressions are made of, and the errors that
name them. A place in a text is a range of bytes of its UTF-8 form.
-/

namespace TableQuery

/-- The reserved words of expressions. They are recognised in any letter case. -/
inductive Keyword where
  | andWord
  | orWord
  | notWord
  | inWord
  | isWord
  | ifWord
  | elseWord
  | lambdaWord
  | trueWord
  | falseWord
  | noneWord
  | nullWord
  | asWord
deriving DecidableEq

namespace Keyword

/-- All reserved words. -/
def all : List Keyword :=
  [andWord, orWord, notWord, inWord, isWord, ifWord, elseWord, lambdaWord, trueWord, falseWord,
    noneWord, nullWord, asWord]

/-- The usual spelling of a reserved word. -/
def spelling : Keyword → String
  | andWord => "and"
  | orWord => "or"
  | notWord => "not"
  | inWord => "in"
  | isWord => "is"
  | ifWord => "if"
  | elseWord => "else"
  | lambdaWord => "lambda"
  | trueWord => "True"
  | falseWord => "False"
  | noneWord => "None"
  | nullWord => "null"
  | asWord => "AS"

/-- The reserved word that a word is when letter case does not count. -/
def ofWord? (word : List Char) : Option Keyword :=
  all.find? fun keyword =>
    keyword.spelling.toList.map Char.toLower == word.map Char.toLower

end Keyword

/-- Operators and punctuation. -/
inductive Symbol where
  | plus
  | minus
  | star
  | slash
  | doubleSlash
  | percent
  | assign
  | equal
  | notEqual
  | less
  | lessEqual
  | greater
  | greaterEqual
  | doubleAmp
  | doublePipe
  | bang
  | openParen
  | closeParen
  | openBracket
  | closeBracket
  | comma
  | semicolon
  | dot
  | colon
deriving DecidableEq

/-- The spelling of a symbol. -/
def Symbol.spelling : Symbol → String
  | plus => "+"
  | minus => "-"
  | star => "*"
  | slash => "/"
  | doubleSlash => "//"
  | percent => "%"
  | assign => "="
  | equal => "=="
  | notEqual => "!="
  | less => "<"
  | lessEqual => "<="
  | greater => ">"
  | greaterEqual => ">="
  | doubleAmp => "&&"
  | doublePipe => "||"
  | bang => "!"
  | openParen => "("
  | closeParen => ")"
  | openBracket => "["
  | closeBracket => "]"
  | comma => ","
  | semicolon => ";"
  | dot => "."
  | colon => ":"

/-- Why a text cannot be divided into tokens. -/
inductive LexicalFault where
  /-- The closing quote is missing. -/
  | unterminatedString
  /-- The power of ten has no digits. -/
  | invalidNumber
  /-- No token begins with the character. -/
  | unexpectedCharacter (c : Char)
deriving DecidableEq

/-- A lexical fault in words. -/
def LexicalFault.message : LexicalFault → String
  | unterminatedString => "unterminated string literal"
  | invalidNumber => "invalid number literal"
  | unexpectedCharacter c => s!"unexpected character '{c}'"

/-- A token. -/
inductive Token where
  /-- An integer literal. -/
  | int (n : Int64)
  /-- A literal with a fraction or a power of ten, or an integer out of range. -/
  | float (x : Double)
  /-- A string literal, its escapes resolved. -/
  | text (s : String)
  /-- A name. -/
  | name (s : String)
  /-- A reserved word. -/
  | keyword (k : Keyword)
  /-- An operator or punctuation. -/
  | symbol (s : Symbol)
  /-- Text that is no token. -/
  | fault (f : LexicalFault)
  /-- The end of the text. -/
  | finish
deriving DecidableEq

/-- A token in messages. -/
def Token.describe : Token → String
  | int n => s!"integer '{n.toInt}'"
  | float x => s!"float '{x.render .message}'"
  | text s => s!"string '{s}'"
  | name s => s!"identifier '{s}'"
  | keyword k => s!"keyword '{k.spelling}'"
  | symbol s => s!"'{s.spelling}'"
  | fault f => f.message
  | finish => "end of input"

/-- A range of bytes of a text. -/
structure Span where
  /-- The number of bytes before the range. -/
  start : Nat
  /-- The number of bytes up to the end of the range. -/
  stop : Nat
deriving DecidableEq

/-- A token and where it stands. -/
structure PlacedToken where
  /-- The token. -/
  token : Token
  /-- Where it stands. -/
  span : Span
deriving DecidableEq

/-- What the grammar calls for at some place. -/
inductive Expected where
  | endOfExpression
  | expression
  | identifier
  | noneAfterIs
  | keyword (k : Keyword)
  | symbol (s : Symbol)
deriving DecidableEq

/-- What the grammar calls for, in words. -/
def Expected.describe : Expected → String
  | endOfExpression => "end of expression"
  | expression => "expression"
  | identifier => "identifier"
  | noneAfterIs => "None after 'is'"
  | keyword k => (Token.keyword k).describe
  | symbol s => (Token.symbol s).describe

/-- Why a text is not an expression. -/
inductive SyntaxFault where
  /-- Part of the text is no token. -/
  | lexical (f : LexicalFault)
  /-- The grammar calls for something else. -/
  | unexpected (wanted : Expected) (found : Token)
  /-- Only a name can be called. -/
  | notCallable
deriving DecidableEq

/-- A syntax fault in words. -/
def SyntaxFault.message : SyntaxFault → String
  | lexical f => f.message
  | unexpected wanted found => s!"expected {wanted.describe}, found {found.describe}"
  | notCallable => "expression is not callable"

/-- A syntax fault and where it was met. -/
structure SyntaxError where
  /-- What is wrong. -/
  fault : SyntaxFault
  /-- Where it is wrong. -/
  span : Span
deriving DecidableEq

/-- A syntax error in words. Positions count from one. -/
def SyntaxError.message (e : SyntaxError) : String :=
  s!"{e.fault.message} at position {e.span.start + 1}"

end TableQuery
