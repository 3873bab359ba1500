import TableQuery.Expression.Parser

/-!
# Texts that are read as a whole

The parts of a query and the definitions it may use are each read from their own
text: one expression, a list of expressions, a select list, or definitions. A text
that cannot be divided into tokens is refused before its grammar is looked at,
and every text has to be used up.
-/

namespace TableQuery
namespace Parser

/-- The tokens of a text, unless part of it is no token. -/
def tokens (text : List Char) : Except SyntaxError (List PlacedToken) :=
  let all := Token.lex text
  let faults := all.filterMap fun t =>
    match t.token with
    | .fault f => some (⟨.lexical f, t.span⟩ : SyntaxError)
    | _ => none
  match faults with
  | e :: _ => .error e
  | [] => .ok all

/-- Refuses tokens before the end of the text. -/
def expectFinish : List PlacedToken → Except SyntaxError Unit
  | [] => .ok ()
  | t :: rest =>
    if t.token = .finish then .ok () else .error (unexpected .endOfExpression (t :: rest))

/-- Reads things with commas between them, at least one. -/
def readList {α : Type}
    (item : (tokens : List PlacedToken) → Reading α tokens) (tokens : List PlacedToken) :
    Reading (List α) tokens := do
  let ⟨first, rest, h⟩ ← item tokens
  match rest, h with
  | ⟨.symbol .comma, _⟩ :: rest', h =>
    let ⟨others, rest'', h'⟩ ← readList item rest'
    return ⟨first :: others, rest'', by simp at h; omega⟩
  | rest', h => return ⟨[first], rest', h⟩
termination_by tokens.length
decreasing_by simp at h; omega

/-- The star at the front of some tokens. -/
def star? : (tokens : List PlacedToken) → Option (Parsed Star tokens.length)
  | ⟨.symbol .star, _⟩ :: rest => some ⟨.all, rest, Nat.lt_succ_self rest.length⟩
  | ⟨.name s, _⟩ :: ⟨.symbol .dot, _⟩ :: ⟨.symbol .star, _⟩ :: rest =>
    if s = "a" then some ⟨.input, rest, by simp only [List.length_cons]; omega⟩
    else if s = "b" then some ⟨.join, rest, by simp only [List.length_cons]; omega⟩
    else none
  | _ => none

/-- Reads an item of a select list. -/
def readSelectItem (tokens : List PlacedToken) : Reading SelectItem tokens :=
  match star? tokens with
  | some star => .ok ⟨.star star.value, star.rest, star.within⟩
  | none => do
    let ⟨expr, rest, h⟩ ← readExpr tokens
    match rest, h with
    | ⟨.keyword .asWord, _⟩ :: rest', h =>
      let ⟨name, rest'', h'⟩ ← expectName rest'
      return ⟨.column expr (some name), rest'', by simp at h; omega⟩
    | rest', h => return ⟨.column expr none, rest', h⟩

/-- Reads the parameters of a definition, if it has some. -/
def readDefinitionParams (tokens : List PlacedToken) : Continuing (Option (List String)) tokens :=
  match tokens with
  | ⟨.symbol .openParen, _⟩ :: rest => do
    let ⟨params, rest', h⟩ ← readParams .closeParen rest
    return ⟨some params, rest', by simp only [List.length_cons]; omega⟩
  | tokens => .ok ⟨none, tokens, Nat.lt_succ_self tokens.length⟩

/-- Reads a definition. -/
def readDefinition (tokens : List PlacedToken) : Reading Definition tokens := do
  let ⟨name, rest, h⟩ ← expectName tokens
  let ⟨params, rest', h'⟩ ← readDefinitionParams rest
  let ⟨_, rest'', h''⟩ ← expectSymbol .assign rest'
  let ⟨body, rest''', h'''⟩ ← readExpr rest''
  return ⟨⟨name, params, body⟩, rest''', by omega⟩

/-- Reads definitions up to the end of the text, with or without semicolons between
them. -/
def readDefinitions (tokens : List PlacedToken) : Except SyntaxError (List Definition) :=
  match tokens with
  | [] => .ok []
  | ⟨.finish, _⟩ :: _ => .ok []
  | ⟨.symbol .semicolon, _⟩ :: rest => readDefinitions rest
  | t :: rest => do
    let ⟨definition, rest', _⟩ ← readDefinition (t :: rest)
    let others ← readDefinitions rest'
    return definition :: others
termination_by tokens.length
decreasing_by all_goals grind

/-- The expression that a text spells. -/
def parseExpr (text : List Char) : Except SyntaxError Expr := do
  let expr ← readExpr (← tokens text)
  expectFinish expr.rest
  return expr.value

/-- The expressions that a text spells, with commas between them. -/
def parseExprs (text : List Char) : Except SyntaxError (List Expr) := do
  let exprs ← readList readExpr (← tokens text)
  expectFinish exprs.rest
  return exprs.value

/-- The select list that a text spells. -/
def parseSelect (text : List Char) : Except SyntaxError (List SelectItem) := do
  let items ← readList readSelectItem (← tokens text)
  expectFinish items.rest
  return items.value

/-- The definitions that a text spells. -/
def parseDefinitions (text : List Char) : Except SyntaxError (List Definition) := do
  readDefinitions (← tokens text)

end Parser
end TableQuery
