import TableQuery.Expression.Lexer
import TableQuery.Expression.Tree

/-!
# Reading expressions

Expressions are read by recursive descent over their tokens. A rule returns what
it has read together with the tokens after it and the fact that it has made
progress, so the recursion ends by the number of tokens left.

Operators bind in this order, the weakest first: `lambda` and the choice
`x if c else y`; `or`; `and`; `not`; comparisons, `in` and `is`; sums; products;
signs; and calls, attributes and subscripts. Operators between two operands
group to the left.
-/

namespace TableQuery

/-- Something read off the front of some tokens, and the tokens after it, fewer
than `bound`. -/
structure Parsed (α : Type) (bound : Nat) where
  /-- What was read. -/
  value : α
  /-- The tokens after it. -/
  rest : List PlacedToken
  /-- Progress was made. -/
  within : rest.length < bound

/-- The result of reading from `tokens`, having used at least one of them. -/
abbrev Reading (α : Type) (tokens : List PlacedToken) :=
  Except SyntaxError (Parsed α tokens.length)

/-- The result of reading from `tokens`, perhaps without using any. -/
abbrev Continuing (α : Type) (tokens : List PlacedToken) :=
  Except SyntaxError (Parsed α (tokens.length + 1))

namespace Parser

/-- The error for tokens that do not begin with what is wanted. -/
def unexpected (wanted : Expected) : List PlacedToken → SyntaxError
  | [] => ⟨.unexpected wanted .finish, ⟨0, 0⟩⟩
  | t :: _ => ⟨.unexpected wanted t.token, t.span⟩

/-- Reads one given token. -/
def expect (token : Token) (wanted : Expected) : (tokens : List PlacedToken) →
    Reading Unit tokens
  | [] => .error (unexpected wanted [])
  | t :: rest =>
    if t.token = token then .ok ⟨(), rest, by simp⟩ else .error (unexpected wanted (t :: rest))

/-- Reads a symbol. -/
def expectSymbol (s : Symbol) (tokens : List PlacedToken) : Reading Unit tokens :=
  expect (.symbol s) (.symbol s) tokens

/-- Reads a reserved word. -/
def expectKeyword (k : Keyword) (tokens : List PlacedToken) : Reading Unit tokens :=
  expect (.keyword k) (.keyword k) tokens

/-- Reads a name. -/
def expectName : (tokens : List PlacedToken) → Reading String tokens
  | ⟨.name s, _⟩ :: rest => .ok ⟨s, rest, by simp⟩
  | tokens => .error (unexpected .identifier tokens)

/-- Reads names with commas between them, at least one, up to a closing symbol. -/
def readNames (close : Symbol) (tokens : List PlacedToken) : Reading (List String) tokens := do
  let ⟨first, rest, h⟩ ← expectName tokens
  match rest, h with
  | ⟨.symbol .comma, _⟩ :: rest, h =>
    let ⟨others, rest, h'⟩ ← readNames close rest
    return ⟨first :: others, rest, by simp at h; omega⟩
  | rest, h =>
    let ⟨_, rest, h'⟩ ← expectSymbol close rest
    return ⟨[first], rest, by omega⟩
termination_by tokens.length
decreasing_by simp at h; omega

/-- Reads the names of parameters up to a closing symbol. There may be none. -/
def readParams (close : Symbol) : (tokens : List PlacedToken) → Reading (List String) tokens
  | t :: rest =>
    if t.token = .symbol close then .ok ⟨[], rest, by simp⟩ else readNames close (t :: rest)
  | [] => readNames close []

/-- How strongly operators bind, the weakest first. -/
inductive Strength where
  | lowest
  | or
  | and
  | not
  | comparison
  | sum
  | product
  | sign
deriving DecidableEq

namespace Strength

/-- The place of a strength in the order of strengths. -/
def rank : Strength → Nat
  | lowest => 0
  | or => 1
  | and => 2
  | not => 3
  | comparison => 4
  | sum => 5
  | product => 6
  | sign => 7

/-- The next greater strength. Signs bind the strongest. -/
def next : Strength → Strength
  | lowest => or
  | or => and
  | and => not
  | not => comparison
  | comparison => sum
  | sum => product
  | product => sign
  | sign => sign

end Strength

/-- How strongly an operator between two operands binds. -/
def strength : BinaryOp → Strength
  | .or => .or
  | .and => .and
  | .eq | .ne | .lt | .le | .gt | .ge | .member | .notMember => .comparison
  | .add | .sub => .sum
  | .mul | .div | .floorDiv | .mod => .product

/-- The operator that one token spells between two operands. -/
def operatorOf? : Token → Option BinaryOp
  | .keyword .orWord | .symbol .doublePipe => some .or
  | .keyword .andWord | .symbol .doubleAmp => some .and
  | .keyword .inWord => some .member
  | .symbol .equal => some .eq
  | .symbol .notEqual => some .ne
  | .symbol .less => some .lt
  | .symbol .lessEqual => some .le
  | .symbol .greater => some .gt
  | .symbol .greaterEqual => some .ge
  | .symbol .plus => some .add
  | .symbol .minus => some .sub
  | .symbol .star => some .mul
  | .symbol .slash => some .div
  | .symbol .doubleSlash => some .floorDiv
  | .symbol .percent => some .mod
  | _ => none

/-- The operator at the front of some tokens; `not in` takes two of them. -/
def operator? : (tokens : List PlacedToken) → Option (Parsed BinaryOp tokens.length)
  | ⟨.keyword .notWord, _⟩ :: ⟨.keyword .inWord, _⟩ :: rest =>
    some ⟨.notMember, rest, by simp only [List.length_cons]; omega⟩
  | t :: rest => (operatorOf? t.token).map fun op => ⟨op, rest, by simp⟩
  | [] => none

/-- The operator at the front of some tokens that applies to one operand. -/
def prefixOp? : (tokens : List PlacedToken) → Option (Parsed (UnaryOp × Strength) tokens.length)
  | ⟨.keyword .notWord, _⟩ :: rest => some ⟨(.not, .not), rest, by simp⟩
  | ⟨.symbol .bang, _⟩ :: rest => some ⟨(.not, .not), rest, by simp⟩
  | ⟨.symbol .minus, _⟩ :: rest => some ⟨(.minus, .sign), rest, by simp⟩
  | ⟨.symbol .plus, _⟩ :: rest => some ⟨(.plus, .sign), rest, by simp⟩
  | _ => none

/-- Reads what follows the word `is`: whether it is negated. -/
def readIsNull (tokens : List PlacedToken) : Reading Bool tokens :=
  match tokens with
  | ⟨.keyword .notWord, _⟩ :: ⟨.keyword .noneWord, _⟩ :: rest
  | ⟨.keyword .notWord, _⟩ :: ⟨.keyword .nullWord, _⟩ :: rest =>
    .ok ⟨true, rest, by simp only [List.length_cons]; omega⟩
  | ⟨.keyword .noneWord, _⟩ :: rest
  | ⟨.keyword .nullWord, _⟩ :: rest => .ok ⟨false, rest, by simp⟩
  | ⟨.keyword .notWord, _⟩ :: rest => .error (unexpected .noneAfterIs rest)
  | tokens => .error (unexpected .noneAfterIs tokens)

/-- The literal or name that one token spells. -/
def atom? : Token → Option Expr
  | .keyword .noneWord | .keyword .nullWord => some .null
  | .keyword .trueWord => some (.bool true)
  | .keyword .falseWord => some (.bool false)
  | .int n => some (.int n)
  | .float x => some (.float x)
  | .text s => some (.text s)
  | .name s => some (.name s)
  | _ => none

mutual

/-- Reads an expression. -/
def readExpr (tokens : List PlacedToken) : Reading Expr tokens :=
  match tokens with
  | ⟨.keyword .lambdaWord, _⟩ :: rest => do
    let ⟨params, rest', h⟩ ← readParams .colon rest
    let ⟨body, rest'', h'⟩ ← readExpr rest'
    return ⟨.lambda params body, rest'', by simp only [List.length_cons]; omega⟩
  | tokens => do
    let ⟨chosen, rest, h⟩ ← readBinary .lowest tokens
    match rest, h with
    | ⟨.keyword .ifWord, _⟩ :: rest, h =>
      let ⟨condition, rest', h'⟩ ← readBinary .lowest rest
      let ⟨_, rest'', h''⟩ ← expectKeyword .elseWord rest'
      let ⟨otherwise, rest''', h'''⟩ ← readExpr rest''
      return ⟨.choice condition chosen otherwise, rest''', by simp at h; omega⟩
    | rest, h => return ⟨chosen, rest, h⟩
termination_by 8 * tokens.length + 6
decreasing_by all_goals grind

/-- Reads operands and operators that bind at least as strongly as `least`. -/
def readBinary (least : Strength) (tokens : List PlacedToken) : Reading Expr tokens := do
  let ⟨left, rest, h⟩ ← readUnary tokens
  let ⟨expr, rest', h'⟩ ← readOperators least left rest
  return ⟨expr, rest', by omega⟩
termination_by 8 * tokens.length + 5
decreasing_by all_goals grind

/-- Reads the operators after the operand `left`, and their right operands. -/
def readOperators (least : Strength) (left : Expr) (tokens : List PlacedToken) :
    Continuing Expr tokens :=
  match tokens with
  | [] => .ok ⟨left, [], by simp⟩
  | t :: rest =>
    if t.token = .keyword .isWord ∧ least.rank ≤ Strength.comparison.rank then do
      let ⟨negated, rest', h⟩ ← readIsNull rest
      let ⟨expr, rest'', h'⟩ ← readOperators least (.isNull negated left) rest'
      return ⟨expr, rest'', by simp only [List.length_cons]; omega⟩
    else
      match operator? (t :: rest) with
      | none => .ok ⟨left, t :: rest, by simp⟩
      | some ⟨op, rest', h⟩ =>
        if (strength op).rank < least.rank then
          .ok ⟨left, t :: rest, by simp⟩
        else do
          let ⟨right, rest'', h'⟩ ← readBinary (strength op).next rest'
          let ⟨expr, rest''', h''⟩ ← readOperators least (.binary op left right) rest''
          return ⟨expr, rest''', by omega⟩
termination_by 8 * tokens.length
decreasing_by all_goals grind

/-- Reads an operand with the operators before it. -/
def readUnary (tokens : List PlacedToken) : Reading Expr tokens :=
  match prefixOp? tokens with
  | some ⟨(op, least), rest, h⟩ => do
    let ⟨operand, rest', h'⟩ ← readBinary least rest
    return ⟨.unary op operand, rest', by omega⟩
  | none => do
    let ⟨base, rest, h⟩ ← readPrimary tokens
    let ⟨expr, rest', h'⟩ ← readPostfix base rest
    return ⟨expr, rest', by omega⟩
termination_by 8 * tokens.length + 4
decreasing_by all_goals grind

/-- Reads the attributes, subscripts and calls after `base`. -/
def readPostfix (base : Expr) (tokens : List PlacedToken) : Continuing Expr tokens :=
  match tokens with
  | ⟨.symbol .dot, _⟩ :: rest => do
    let ⟨name, rest', h⟩ ← expectName rest
    match rest', h with
    | ⟨.symbol .openParen, _⟩ :: rest'', h =>
      let ⟨args, rest''', h'⟩ ← readItems .closeParen rest''
      let ⟨expr, rest'''', h''⟩ ← readPostfix (.call name (base :: args)) rest'''
      return ⟨expr, rest'''', by simp at h ⊢; omega⟩
    | rest', h =>
      let ⟨expr, rest'', h'⟩ ← readPostfix (.attribute base name) rest'
      return ⟨expr, rest'', by simp only [List.length_cons]; omega⟩
  | ⟨.symbol .openBracket, _⟩ :: rest => do
    let ⟨index, rest', h⟩ ← readExpr rest
    let ⟨_, rest'', h'⟩ ← expectSymbol .closeBracket rest'
    let ⟨expr, rest''', h''⟩ ← readPostfix (.index base index) rest''
    return ⟨expr, rest''', by simp only [List.length_cons]; omega⟩
  | ⟨.symbol .openParen, span⟩ :: rest =>
    match base with
    | .name name => do
      let ⟨args, rest', h⟩ ← readItems .closeParen rest
      let ⟨expr, rest'', h'⟩ ← readPostfix (.call name args) rest'
      return ⟨expr, rest'', by simp only [List.length_cons]; omega⟩
    | _ => .error ⟨.notCallable, span⟩
  | tokens => .ok ⟨base, tokens, by simp⟩
termination_by 8 * tokens.length
decreasing_by all_goals grind

/-- Reads a literal, a name, a list or an expression in parentheses. -/
def readPrimary (tokens : List PlacedToken) : Reading Expr tokens :=
  match tokens with
  | ⟨.symbol .openParen, _⟩ :: rest => do
    let ⟨expr, rest', h⟩ ← readExpr rest
    let ⟨_, rest'', h'⟩ ← expectSymbol .closeParen rest'
    return ⟨expr, rest'', by simp only [List.length_cons]; omega⟩
  | ⟨.symbol .openBracket, _⟩ :: rest => do
    let ⟨items, rest', h⟩ ← readItems .closeBracket rest
    return ⟨.list items, rest', by simp only [List.length_cons]; omega⟩
  | t :: rest =>
    match atom? t.token with
    | some expr => .ok ⟨expr, rest, by simp⟩
    | none => .error (unexpected .expression (t :: rest))
  | [] => .error (unexpected .expression [])
termination_by 8 * tokens.length + 2
decreasing_by all_goals grind

/-- Reads expressions with commas between them up to a closing symbol. There may be
none, and a comma may stand before the closing symbol. -/
def readItems (close : Symbol) (tokens : List PlacedToken) : Reading (List Expr) tokens :=
  match tokens with
  | [] => .error (unexpected .expression [])
  | t :: rest =>
    if t.token = .symbol close then
      .ok ⟨[], rest, by simp⟩
    else do
      let ⟨first, rest', h⟩ ← readExpr (t :: rest)
      match rest', h with
      | ⟨.symbol .comma, _⟩ :: rest'', h =>
        let ⟨others, rest''', h'⟩ ← readItems close rest''
        return ⟨first :: others, rest''', by simp at h ⊢; omega⟩
      | rest', h =>
        let ⟨_, rest'', h'⟩ ← expectSymbol close rest'
        return ⟨[first], rest'', by omega⟩
termination_by 8 * tokens.length + 7
decreasing_by all_goals grind

end

end Parser
end TableQuery
