import TableQuery.Proofs.Expression.Spelling

/-!
# Writing expressions

An expression is written as a sequence of tokens.  Its parts stand in parentheses only
where the order of the operators asks for them: where a part binds weaker than the place
that it stands in.
-/

namespace TableQuery

/-- The kinds of expressions, by how strongly they bind, the weakest first. -/
inductive Precedence where
  | function
  | choice
  | or
  | and
  | not
  | comparison
  | sum
  | product
  | sign
  | access
deriving DecidableEq

namespace Precedence

/-- The place of a precedence in the order of precedences. -/
def rank : Precedence → Nat
  | function => 0
  | choice => 1
  | or => 2
  | and => 3
  | not => 4
  | comparison => 5
  | sum => 6
  | product => 7
  | sign => 8
  | access => 9

/-- Whether one precedence binds weaker than another. -/
def weaker (p q : Precedence) : Bool :=
  p.rank < q.rank

end Precedence

/-- The precedence of an operator between two operands. -/
def BinaryOp.precedence : BinaryOp → Precedence
  | or => .or
  | and => .and
  | eq | ne | lt | le | gt | ge | member | notMember => .comparison
  | add | sub => .sum
  | mul | div | floorDiv | mod => .product

/-- The precedence of an operator before its operand. -/
def UnaryOp.precedence : UnaryOp → Precedence
  | not => .not
  | minus | plus => .sign

/-- An operator between two operands as it is written. -/
def BinaryOp.tokens : BinaryOp → List Token
  | add => [.symbol .plus]
  | sub => [.symbol .minus]
  | mul => [.symbol .star]
  | div => [.symbol .slash]
  | floorDiv => [.symbol .doubleSlash]
  | mod => [.symbol .percent]
  | eq => [.symbol .equal]
  | ne => [.symbol .notEqual]
  | lt => [.symbol .less]
  | le => [.symbol .lessEqual]
  | gt => [.symbol .greater]
  | ge => [.symbol .greaterEqual]
  | member => [.keyword .inWord]
  | notMember => [.keyword .notWord, .keyword .inWord]
  | and => [.keyword .andWord]
  | or => [.keyword .orWord]

/-- An operator before its operand as it is written. -/
def UnaryOp.token : UnaryOp → Token
  | not => .keyword .notWord
  | minus => .symbol .minus
  | plus => .symbol .plus

namespace Expr

/-- The precedence of an expression. -/
def precedence : Expr → Precedence
  | lambda _ _ => .function
  | choice _ _ _ => .choice
  | binary op _ _ => op.precedence
  | unary op _ => op.precedence
  | isNull _ _ => .comparison
  | _ => .access

/-- Tokens in parentheses, if they are needed. -/
def enclosed (needed : Bool) (tokens : List Token) : List Token :=
  if needed then .symbol .openParen :: (tokens ++ [.symbol .closeParen]) else tokens

/-- The test of a value for being absent. -/
def testTokens (negated : Bool) : List Token :=
  if negated then [.keyword .isWord, .keyword .notWord, .keyword .noneWord]
  else [.keyword .isWord, .keyword .noneWord]

/-- Names with commas between them. -/
def nameTokens : List String → List Token
  | [] => []
  | [s] => [.name s]
  | s :: t :: names => .name s :: .symbol .comma :: nameTokens (t :: names)

mutual

/-- The tokens of an expression.  A left operand stands in parentheses if it binds weaker
than its operator, and a right operand if it does not bind stronger. -/
def tokens : Expr → List Token
  | null => [.keyword .noneWord]
  | bool true => [.keyword .trueWord]
  | bool false => [.keyword .falseWord]
  | int n => [.int n]
  | float x => [.float x]
  | text s => [.text s]
  | name s => [.name s]
  | list items => .symbol .openBracket :: (itemTokens items ++ [.symbol .closeBracket])
  | .attribute base s =>
    enclosed (base.precedence.weaker .access) base.tokens ++ [.symbol .dot, .name s]
  | index base i =>
    enclosed (base.precedence.weaker .access) base.tokens ++
      .symbol .openBracket :: (i.tokens ++ [.symbol .closeBracket])
  | call f args =>
    .name f :: .symbol .openParen :: (itemTokens args ++ [.symbol .closeParen])
  | binary op left right =>
    enclosed (left.precedence.weaker op.precedence) left.tokens ++
      (op.tokens ++ enclosed (!op.precedence.weaker right.precedence) right.tokens)
  | unary op operand =>
    op.token :: enclosed (operand.precedence.weaker op.precedence) operand.tokens
  | isNull negated operand =>
    enclosed (operand.precedence.weaker .comparison) operand.tokens ++ testTokens negated
  | choice condition chosen otherwise =>
    enclosed (chosen.precedence.weaker .or) chosen.tokens ++
      .keyword .ifWord :: (enclosed (condition.precedence.weaker .or) condition.tokens ++
        .keyword .elseWord :: otherwise.tokens)
  | lambda params body =>
    .keyword .lambdaWord :: (nameTokens params ++ .symbol .colon :: body.tokens)

/-- The tokens of some expressions, with commas between them. -/
def itemTokens : List Expr → List Token
  | [] => []
  | [e] => e.tokens
  | e :: e' :: es => e.tokens ++ .symbol .comma :: itemTokens (e' :: es)

end

/-- An expression as it is written. -/
def written (e : Expr) : List Char :=
  Token.spaced e.tokens

mutual

/-- An expression that can be written out: it has no floating-point literals, its integer
literals have no sign, and its names are names. -/
def IsPlain : Expr → Prop
  | null | bool _ | text _ => True
  | float _ => False
  | int n => 0 ≤ n.toInt
  | name s => Token.IsName s
  | list items => ArePlain items
  | .attribute base s => base.IsPlain ∧ Token.IsName s
  | index base i => base.IsPlain ∧ i.IsPlain
  | call f args => Token.IsName f ∧ ArePlain args
  | binary _ left right => left.IsPlain ∧ right.IsPlain
  | unary _ operand => operand.IsPlain
  | isNull _ operand => operand.IsPlain
  | choice condition chosen otherwise =>
    condition.IsPlain ∧ chosen.IsPlain ∧ otherwise.IsPlain
  | lambda params body => (∀ s ∈ params, Token.IsName s) ∧ body.IsPlain

/-- Expressions that can be written out. -/
def ArePlain : List Expr → Prop
  | [] => True
  | e :: es => e.IsPlain ∧ ArePlain es

end

/-! ## Spellings -/

open Token (AreSpellable)

@[simp] theorem areSpellable_enclosed {needed : Bool} {tokens : List Token} :
    AreSpellable (enclosed needed tokens) ↔ AreSpellable tokens := by
  cases needed <;> simp [enclosed]

theorem areSpellable_testTokens (negated : Bool) : AreSpellable (testTokens negated) := by
  cases negated <;> simp [testTokens]

theorem areSpellable_tokens_binaryOp (op : BinaryOp) : AreSpellable op.tokens := by
  cases op <;> simp [BinaryOp.tokens]

theorem isSpellable_token_unaryOp (op : UnaryOp) : op.token.IsSpellable := by
  cases op <;> simp [UnaryOp.token]

theorem areSpellable_nameTokens {names : List String} (h : ∀ s ∈ names, Token.IsName s) :
    AreSpellable (nameTokens names) := by
  induction names with
  | nil => exact Token.areSpellable_nil
  | cons s names ih =>
    obtain ⟨hs, hnames⟩ := List.forall_mem_cons.mp h
    cases names with
    | nil => exact Token.areSpellable_cons.mpr ⟨hs, Token.areSpellable_nil⟩
    | cons s' names => simpa [nameTokens] using ⟨hs, ih hnames⟩

mutual

/-- An expression that can be written out has tokens that can be spelled out. -/
theorem areSpellable_tokens : ∀ e : Expr, e.IsPlain → AreSpellable e.tokens
  | null, _ => by simp [tokens]
  | bool true, _ => by simp [tokens]
  | bool false, _ => by simp [tokens]
  | int _, h => Token.areSpellable_cons.mpr ⟨h, Token.areSpellable_nil⟩
  | text _, _ => Token.areSpellable_cons.mpr ⟨trivial, Token.areSpellable_nil⟩
  | name _, h => Token.areSpellable_cons.mpr ⟨h, Token.areSpellable_nil⟩
  | list items, h => by simpa [tokens] using areSpellable_itemTokens items h
  | .attribute base s, h => by simpa [tokens] using ⟨areSpellable_tokens base h.1, h.2⟩
  | index base i, h => by
    simpa [tokens] using ⟨areSpellable_tokens base h.1, areSpellable_tokens i h.2⟩
  | call f args, h => by simpa [tokens] using ⟨h.1, areSpellable_itemTokens args h.2⟩
  | binary op left right, h => by
    simpa [tokens, areSpellable_tokens_binaryOp] using
      ⟨areSpellable_tokens left h.1, areSpellable_tokens right h.2⟩
  | unary op operand, h => by
    simpa [tokens, isSpellable_token_unaryOp] using areSpellable_tokens operand h
  | isNull negated operand, h => by
    simpa [tokens, areSpellable_testTokens] using areSpellable_tokens operand h
  | choice condition chosen otherwise, h => by
    simpa [tokens] using ⟨areSpellable_tokens chosen h.2.1, areSpellable_tokens condition h.1,
      areSpellable_tokens otherwise h.2.2⟩
  | lambda params body, h => by
    simpa [tokens] using ⟨areSpellable_nameTokens h.1, areSpellable_tokens body h.2⟩

theorem areSpellable_itemTokens : ∀ es : List Expr, ArePlain es → AreSpellable (itemTokens es)
  | [], _ => Token.areSpellable_nil
  | [e], h => areSpellable_tokens e h.1
  | e :: e' :: es, h => by
    simpa [itemTokens] using ⟨areSpellable_tokens e h.1, areSpellable_itemTokens (e' :: es) h.2⟩

end

end Expr
end TableQuery
