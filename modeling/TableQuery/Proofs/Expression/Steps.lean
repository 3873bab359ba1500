import TableQuery.Expression.Fragment
import TableQuery.Proofs.Except

/-!
# Steps of reading

What each rule of the grammar makes of its tokens, one step at a time, without the fact
that it has made progress.  A rule that goes on behind an operand comes to the rule that it
goes on with, so that operands can be read whatever stands behind them.
-/

namespace TableQuery
namespace Parser

variable {α : Type} {n : Nat} {tokens rest rest' rest'' : List PlacedToken} {span span' : Span}

/-- What was read, and the tokens after it. -/
def outcome (reading : Except SyntaxError (Parsed α n)) :
    Except SyntaxError (α × List PlacedToken) :=
  reading.map fun parsed => (parsed.value, parsed.rest)

theorem exists_of_outcome {reading : Except SyntaxError (Parsed α n)} {a : α}
    (h : outcome reading = .ok (a, rest)) : ∃ within, reading = .ok ⟨a, rest, within⟩ := by
  cases reading with
  | error e => cases h
  | ok parsed =>
    obtain ⟨value, others, within⟩ := parsed
    cases h
    exact ⟨within, rfl⟩

theorem exists_of_outcome_bind {β : Type} {m : Nat} {reading : Except SyntaxError (Parsed α m)}
    {next : Parsed α m → Except SyntaxError (Parsed β n)} {b : β}
    (h : outcome (reading >>= next) = .ok (b, rest)) :
    ∃ a others, outcome reading = .ok (a, others) := by
  cases reading with
  | error e => cases h
  | ok parsed => exact ⟨parsed.value, parsed.rest, rfl⟩

/-- A rule that ends with another one reads what that one reads. -/
theorem outcome_bind_pure {m : Nat} (reading : Except SyntaxError (Parsed α m))
    (within : ∀ parsed : Parsed α m, parsed.rest.length < n) :
    outcome (reading >>= fun parsed => pure ⟨parsed.value, parsed.rest, within parsed⟩) =
      outcome reading := by
  cases reading <;> rfl

theorem expectSymbol_cons (s : Symbol) :
    expectSymbol s (⟨.symbol s, span⟩ :: rest) = .ok ⟨(), rest, Nat.lt_succ_self _⟩ := by
  rw [expectSymbol, expect, if_pos rfl]

theorem expectKeyword_cons (k : Keyword) :
    expectKeyword k (⟨.keyword k, span⟩ :: rest) = .ok ⟨(), rest, Nat.lt_succ_self _⟩ := by
  rw [expectKeyword, expect, if_pos rfl]

/-! ## Parameters -/

section

variable {close : Symbol} {s : String} {names : List String}

theorem outcome_readNames_last (hclose : close ≠ .comma) :
    outcome (readNames close (⟨.name s, span⟩ :: ⟨.symbol close, span'⟩ :: rest)) =
      .ok ([s], rest) := by
  rw [readNames, expectName, ok_bind]
  dsimp only
  split
  · next hcomma _ =>
    cases hcomma
    exact absurd rfl hclose
  · rw [expectSymbol_cons]
    rfl

theorem outcome_readNames_comma (h : outcome (readNames close rest) = .ok (names, rest')) :
    outcome (readNames close (⟨.name s, span⟩ :: ⟨.symbol .comma, span'⟩ :: rest)) =
      .ok (s :: names, rest') := by
  obtain ⟨within, hread⟩ := exists_of_outcome h
  rw [readNames, expectName, ok_bind]
  simp only [hread]
  rfl

theorem outcome_readParams_nil :
    outcome (readParams close (⟨.symbol close, span⟩ :: rest)) = .ok ([], rest) := by
  rw [readParams, if_pos rfl]
  rfl

theorem readParams_name :
    readParams close (⟨.name s, span⟩ :: rest) = readNames close (⟨.name s, span⟩ :: rest) := by
  rw [readParams, if_neg nofun]

end

/-! ## Operands -/

section

variable {e base : Expr} {t : PlacedToken}

theorem readPrimary_cons (hparen : t.token ≠ .symbol .openParen)
    (hbracket : t.token ≠ .symbol .openBracket) :
    outcome (readPrimary (t :: rest)) =
      match atom? t.token with
      | some e => .ok (e, rest)
      | none => .error (unexpected .expression (t :: rest)) := by
  rw [readPrimary]
  · cases atom? t.token <;> rfl
  · rintro span rfl
    exact hparen rfl
  · rintro span rfl
    exact hbracket rfl

theorem outcome_readPrimary_atom (h : atom? t.token = some e) :
    outcome (readPrimary (t :: rest)) = .ok (e, rest) := by
  have hsymbol : ∀ s, t.token ≠ .symbol s := by
    intro s hs
    rw [hs] at h
    cases h
  rw [readPrimary_cons (hsymbol _) (hsymbol _), h]

theorem outcome_readPrimary_paren
    (h : outcome (readExpr rest) = .ok (e, ⟨.symbol .closeParen, span'⟩ :: rest')) :
    outcome (readPrimary (⟨.symbol .openParen, span⟩ :: rest)) = .ok (e, rest') := by
  obtain ⟨within, hread⟩ := exists_of_outcome h
  rw [readPrimary, hread, ok_bind]
  simp only [expectSymbol_cons, ok_bind]
  rfl

theorem outcome_readPrimary_list {items : List Expr}
    (h : outcome (readItems .closeBracket rest) = .ok (items, rest')) :
    outcome (readPrimary (⟨.symbol .openBracket, span⟩ :: rest)) = .ok (.list items, rest') := by
  obtain ⟨within, hread⟩ := exists_of_outcome h
  rw [readPrimary, hread, ok_bind]
  rfl

/-- No operand begins with an operator. -/
theorem prefixOp?_of_readPrimary (h : outcome (readPrimary tokens) = .ok (base, rest)) :
    prefixOp? tokens = none := by
  unfold prefixOp?
  split
  case h_5 => rfl
  all_goals
    rw [readPrimary_cons (by simp) (by simp)] at h
    cases h

theorem outcome_readUnary_primary (h : outcome (readPrimary tokens) = .ok (base, rest)) :
    outcome (readUnary tokens) = outcome (readPostfix base rest) := by
  obtain ⟨within, hread⟩ := exists_of_outcome h
  rw [readUnary, prefixOp?_of_readPrimary h]
  simp only [hread, ok_bind]
  exact outcome_bind_pure _ _

theorem outcome_readUnary_signed {op : UnaryOp} {least : Strength} {operand : Expr} {within}
    (hsign : prefixOp? tokens = some ⟨(op, least), rest, within⟩)
    (h : outcome (readBinary least rest) = .ok (operand, rest')) :
    outcome (readUnary tokens) = .ok (.unary op operand, rest') := by
  obtain ⟨within', hread⟩ := exists_of_outcome h
  rw [readUnary, hsign]
  simp only [hread, ok_bind]
  rfl

/-! ## Attributes, subscripts and calls -/

theorem outcome_readPostfix_attribute {s : String}
    (hcall : ∀ t ∈ rest.head?, t.token ≠ .symbol .openParen) :
    outcome (readPostfix base (⟨.symbol .dot, span⟩ :: ⟨.name s, span'⟩ :: rest)) =
      outcome (readPostfix (.attribute base s) rest) := by
  rw [readPostfix, expectName, ok_bind]
  dsimp only
  split
  · exact absurd rfl (hcall _ rfl)
  · exact outcome_bind_pure _ _

theorem outcome_readPostfix_index {i : Expr}
    (h : outcome (readExpr rest) = .ok (i, ⟨.symbol .closeBracket, span'⟩ :: rest')) :
    outcome (readPostfix base (⟨.symbol .openBracket, span⟩ :: rest)) =
      outcome (readPostfix (.index base i) rest') := by
  obtain ⟨within, hread⟩ := exists_of_outcome h
  rw [readPostfix, hread, ok_bind]
  simp only [expectSymbol_cons, ok_bind]
  exact outcome_bind_pure _ _

theorem outcome_readPostfix_call {f : String} {args : List Expr}
    (h : outcome (readItems .closeParen rest) = .ok (args, rest')) :
    outcome (readPostfix (.name f) (⟨.symbol .openParen, span⟩ :: rest)) =
      outcome (readPostfix (.call f args) rest') := by
  obtain ⟨within, hread⟩ := exists_of_outcome h
  rw [readPostfix, hread, ok_bind]
  exact outcome_bind_pure _ _

theorem outcome_readPostfix_stop
    (h : ∀ t ∈ tokens.head?,
      t.token ≠ .symbol .dot ∧ t.token ≠ .symbol .openBracket ∧ t.token ≠ .symbol .openParen) :
    outcome (readPostfix base tokens) = .ok (base, tokens) := by
  rw [readPostfix]
  · rfl
  · rintro span others rfl
    exact (h _ rfl).1 rfl
  · rintro span others rfl
    exact (h _ rfl).2.1 rfl
  · rintro span others rfl
    exact (h _ rfl).2.2 rfl

end

/-! ## Operators -/

section

variable {least : Strength} {left right : Expr} {t : PlacedToken}

theorem outcome_readBinary (h : outcome (readUnary tokens) = .ok (left, rest)) :
    outcome (readBinary least tokens) = outcome (readOperators least left rest) := by
  obtain ⟨within, hread⟩ := exists_of_outcome h
  rw [readBinary, hread]
  exact outcome_bind_pure _ _

theorem outcome_readOperators_test {negated : Bool}
    (hleast : least.rank ≤ Strength.comparison.rank)
    (h : outcome (readIsNull rest) = .ok (negated, rest')) :
    outcome (readOperators least left (⟨.keyword .isWord, span⟩ :: rest)) =
      outcome (readOperators least (.isNull negated left) rest') := by
  obtain ⟨within, hread⟩ := exists_of_outcome h
  rw [readOperators, if_pos ⟨rfl, hleast⟩, hread]
  exact outcome_bind_pure _ _

theorem token_ne_isWord_of_operator? {parsed : Parsed BinaryOp (t :: rest).length}
    (h : operator? (t :: rest) = some parsed) : t.token ≠ .keyword .isWord := by
  intro ht
  obtain ⟨token, span⟩ := t
  obtain rfl : token = .keyword .isWord := ht
  cases h

theorem outcome_readOperators_binary {op : BinaryOp} {within}
    (hoperator : operator? tokens = some ⟨op, rest, within⟩)
    (hleast : least.rank ≤ (strength op).rank)
    (h : outcome (readBinary (strength op).next rest) = .ok (right, rest')) :
    outcome (readOperators least left tokens) =
      outcome (readOperators least (.binary op left right) rest') := by
  obtain ⟨within', hread⟩ := exists_of_outcome h
  cases tokens with
  | nil => cases hoperator
  | cons t others =>
    have ht := token_ne_isWord_of_operator? hoperator
    rw [readOperators, if_neg (fun hand => ht hand.1), hoperator]
    simp only [hread, ok_bind, if_neg (Nat.not_lt.mpr hleast)]
    exact outcome_bind_pure _ _

theorem outcome_readOperators_stop
    (htest : ∀ t ∈ tokens.head?, t.token = .keyword .isWord →
      Strength.comparison.rank < least.rank)
    (hoperator : ∀ parsed, operator? tokens = some parsed →
      (strength parsed.value).rank < least.rank) :
    outcome (readOperators least left tokens) = .ok (left, tokens) := by
  cases tokens with
  | nil =>
    rw [readOperators]
    rfl
  | cons t rest =>
    have hnot : ¬(t.token = .keyword .isWord ∧ least.rank ≤ Strength.comparison.rank) :=
      fun h => Nat.not_le.mpr (htest t rfl h.1) h.2
    rw [readOperators, if_neg hnot]
    split
    · rfl
    · next op rest' within hop =>
      rw [if_pos (hoperator _ hop)]
      rfl

end

/-! ## Expressions -/

section

variable {e condition chosen otherwise : Expr} {params : List String} {t : PlacedToken}

/-- What begins no operand begins no expression with operators either. -/
theorem outcome_readBinary_ne_ok {least : Strength} (hparen : t.token ≠ .symbol .openParen)
    (hbracket : t.token ≠ .symbol .openBracket) (hatom : atom? t.token = none)
    (hsign : prefixOp? (t :: rest) = none) :
    outcome (readBinary least (t :: rest)) ≠ .ok (e, rest') := by
  intro h
  rw [readBinary] at h
  obtain ⟨operand, others, hunary⟩ := exists_of_outcome_bind h
  rw [readUnary, hsign] at hunary
  obtain ⟨base, others', hprimary⟩ := exists_of_outcome_bind hunary
  rw [readPrimary_cons hparen hbracket, hatom] at hprimary
  cases hprimary

theorem outcome_readExpr_lambda (hparams : outcome (readParams .colon rest) = .ok (params, rest'))
    (hbody : outcome (readExpr rest') = .ok (e, rest'')) :
    outcome (readExpr (⟨.keyword .lambdaWord, span⟩ :: rest)) = .ok (.lambda params e, rest'') := by
  obtain ⟨within, hread⟩ := exists_of_outcome hparams
  obtain ⟨within', hread'⟩ := exists_of_outcome hbody
  rw [readExpr, hread, ok_bind]
  simp only [hread', ok_bind]
  rfl

/-- A function begins with its own word, so no expression with operators does. -/
theorem not_lambda_of_readBinary {least : Strength}
    (h : outcome (readBinary least tokens) = .ok (e, rest)) (span : Span)
    (others : List PlacedToken) : tokens ≠ ⟨.keyword .lambdaWord, span⟩ :: others := by
  rintro rfl
  exact outcome_readBinary_ne_ok (t := ⟨.keyword .lambdaWord, span⟩) nofun nofun rfl rfl h

theorem outcome_readExpr (h : outcome (readBinary .lowest tokens) = .ok (e, rest))
    (hif : ∀ t ∈ rest.head?, t.token ≠ .keyword .ifWord) :
    outcome (readExpr tokens) = .ok (e, rest) := by
  obtain ⟨within, hread⟩ := exists_of_outcome h
  rw [readExpr]
  · rw [hread, ok_bind]
    dsimp only
    split
    · exact absurd rfl (hif _ rfl)
    · rfl
  · exact fun span others => not_lambda_of_readBinary h span others

theorem outcome_readExpr_choice
    (hchosen : outcome (readBinary .lowest tokens) = .ok (chosen, ⟨.keyword .ifWord, span⟩ :: rest))
    (hcondition :
      outcome (readBinary .lowest rest) = .ok (condition, ⟨.keyword .elseWord, span'⟩ :: rest'))
    (hotherwise : outcome (readExpr rest') = .ok (otherwise, rest'')) :
    outcome (readExpr tokens) = .ok (.choice condition chosen otherwise, rest'') := by
  obtain ⟨within, hread⟩ := exists_of_outcome hchosen
  obtain ⟨within', hread'⟩ := exists_of_outcome hcondition
  obtain ⟨within'', hread''⟩ := exists_of_outcome hotherwise
  rw [readExpr]
  · rw [hread, ok_bind]
    simp only [hread', ok_bind, expectKeyword_cons, hread'']
    rfl
  · exact fun span others => not_lambda_of_readBinary hchosen span others

end

/-! ## Lists of expressions -/

section

variable {close : Symbol} {e : Expr} {es : List Expr}

/-- A closing symbol begins no expression. -/
theorem token_ne_of_readExpr {t : PlacedToken}
    (hclose : close = .closeParen ∨ close = .closeBracket)
    (h : outcome (readExpr (t :: rest)) = .ok (e, rest')) : t.token ≠ .symbol close := by
  obtain ⟨token, span⟩ := t
  intro ht
  obtain rfl : token = .symbol close := ht
  rw [readExpr] at h
  · obtain ⟨operand, others, hbinary⟩ := exists_of_outcome_bind h
    obtain rfl | rfl := hclose
    all_goals exact outcome_readBinary_ne_ok (by simp) (by simp) rfl rfl hbinary
  · rintro span' others ⟨⟩

theorem outcome_readItems_nil :
    outcome (readItems close (⟨.symbol close, span⟩ :: rest)) = .ok ([], rest) := by
  rw [readItems, if_pos rfl]
  rfl

theorem outcome_readItems_last (hclose : close = .closeParen ∨ close = .closeBracket)
    (h : outcome (readExpr tokens) = .ok (e, ⟨.symbol close, span⟩ :: rest)) :
    outcome (readItems close tokens) = .ok ([e], rest) := by
  cases tokens with
  | nil =>
    obtain ⟨within, -⟩ := exists_of_outcome h
    cases within
  | cons t others =>
    have ht := token_ne_of_readExpr hclose h
    have hcomma : close ≠ .comma := by
      obtain rfl | rfl := hclose <;> decide
    obtain ⟨within, hread⟩ := exists_of_outcome h
    rw [readItems, if_neg ht, hread, ok_bind]
    dsimp only
    split
    · next heq _ =>
      cases heq
      exact absurd rfl hcomma
    · rw [expectSymbol_cons]
      rfl

theorem outcome_readItems_comma (hclose : close = .closeParen ∨ close = .closeBracket)
    (h : outcome (readExpr tokens) = .ok (e, ⟨.symbol .comma, span⟩ :: rest))
    (hothers : outcome (readItems close rest) = .ok (es, rest')) :
    outcome (readItems close tokens) = .ok (e :: es, rest') := by
  cases tokens with
  | nil =>
    obtain ⟨within, -⟩ := exists_of_outcome h
    cases within
  | cons t others =>
    have ht := token_ne_of_readExpr hclose h
    obtain ⟨within, hread⟩ := exists_of_outcome h
    obtain ⟨within', hread'⟩ := exists_of_outcome hothers
    rw [readItems, if_neg ht, hread, ok_bind]
    simp only [hread']
    rfl

end

end Parser
end TableQuery
