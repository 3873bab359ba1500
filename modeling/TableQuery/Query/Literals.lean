import TableQuery.Expression.Lexer
import TableQuery.Query.Error
import TableQuery.Text.Search

/-!
# Setting string literals aside

Clauses are found by their keywords, and a string literal may hold anything, so
every literal of a query is first replaced by a numbered placeholder. The text is
cleaned at the same time: lines that are comments go, every run of white space
becomes one space, and a final semicolon goes. Literals are put back before a part
of the query is read as an expression.
-/

namespace TableQuery

/-- A cleaned query and the literals that its placeholders stand for. -/
structure IsolatedQuery where
  /-- The query with placeholders in place of its literals. -/
  text : List Char
  /-- The literals as they are written, with their quotes, in order. -/
  literals : List (List Char)
deriving DecidableEq

namespace IsolatedQuery

/-- What stands before the number of a placeholder. -/
def placeholderOpen : List Char :=
  "###RBQL_STRING_LITERAL".toList

/-- What stands after the number of a placeholder. -/
def placeholderClose : List Char :=
  "###".toList

/-- The placeholder of the literal with the given number. -/
def placeholder (index : Nat) : List Char :=
  placeholderOpen ++ Nat.toDigits 10 index ++ placeholderClose

/-- The number, as digits, of the placeholder at the start of a text, and the length
of that placeholder. -/
def placeholder? (s : List Char) : Option (List Char × Nat) := do
  let numbered ← placeholderOpen.isPrefixOf? s
  let digits := numbered.takeWhile Char.isDigit
  let _ ← placeholderClose.isPrefixOf? (numbered.drop digits.length)
  if digits.isEmpty then none
  else some (digits, placeholderOpen.length + digits.length + placeholderClose.length)

/-- Whether a line is a comment. -/
def isComment (line : List Char) : Bool :=
  (Text.trimStart line).head? == some '#'

/-- The text without the lines that are comments. -/
def dropComments (query : List Char) : List Char :=
  Text.joinWith ['\n'] ((Text.lines query).filter fun line => !isComment line)

/-- Whether a character opens a literal, which the same character closes. -/
def opensLiteral (c : Char) : Bool :=
  c == '\'' || c == '"' || c == '\x60'

/-- The number of characters of a text up to and with the quote that closes a literal,
which `quote` has opened before the text. The character behind a backslash is passed
over. -/
def closing? (quote : Char) : List Char → Option Nat
  | [] => none
  | c :: s =>
    if c == '\\' then
      match s with
      | [] => none
      | _ :: rest => (closing? quote rest).map (· + 2)
    else if c == quote then
      some 1
    else
      (closing? quote s).map (· + 1)

/-- Replaces the literals of a text that begins at byte `position` by placeholders
numbered from `count`. The error is the position of a literal without an end. -/
def isolateFrom (position count : Nat) : List Char → Except Nat IsolatedQuery
  | [] => .ok ⟨[], []⟩
  | c :: s =>
    if opensLiteral c then
      match closing? c s with
      | none => .error position
      | some n =>
        let literal := c :: s.take n
        let position := position + Text.Utf8.size literal
        (isolateFrom position (count + 1) (s.drop n)).map fun others =>
          ⟨placeholder count ++ others.text, literal :: others.literals⟩
    else
      (isolateFrom (position + c.utf8Size) count s).map fun others =>
        { others with text := c :: others.text }
termination_by s => s.length

/-- The text without white space at its ends and without a final semicolon. -/
def dropSemicolon (text : List Char) : List Char :=
  let text := Text.trim text
  if text.getLast? == some ';' then Text.trimEnd text.dropLast else text

/-- Cleans a query and sets its literals aside. -/
def ofQuery (query : List Char) : Except QueryFault IsolatedQuery :=
  match isolateFrom 0 0 (dropComments query) with
  | .error position => .error (.unterminatedLiteral position)
  | .ok isolated =>
    .ok { isolated with text := dropSemicolon (Text.collapseBlanks isolated.text) }

/-- The literal with the given number, as it is written. -/
def literal? (query : IsolatedQuery) (index : Nat) : Option (List Char) :=
  query.literals[index]?

/-- A part of the text with its literals put back. Placeholders of no literal
stay. -/
def restore (query : IsolatedQuery) : List Char → List Char
  | [] => []
  | c :: s =>
    match placeholder? (c :: s) with
    | none => c :: query.restore s
    | some (digits, n) =>
      let shown :=
        match (Text.readCount? digits).bind query.literal? with
        | some literal => literal
        | none => (c :: s).take n
      shown ++ query.restore (s.drop (n - 1))
termination_by s => s.length

/-- The content of the literal with the given number. -/
def literalValue? (query : IsolatedQuery) (index : Nat) : Option String :=
  match query.literal? index with
  | some (quote :: s) =>
    (Token.readString? quote s).map fun (content, _) => String.ofList content
  | _ => none

/-- The content of the literal that a part of the text consists of. -/
def wholeLiteral? (query : IsolatedQuery) (fragment : List Char) : Option String := do
  let numbered ← placeholderOpen.isPrefixOf? (Text.trim fragment)
  let number ← placeholderClose.reverse.isPrefixOf? numbered.reverse
  query.literalValue? (← Text.readCount? number.reverse)

end IsolatedQuery
end TableQuery
