import TableQuery.Proofs.Expression.Printing
import TableQuery.Proofs.Expression.Steps

/-!
# Reading what has been written

The tokens that an expression is written with are read as this expression.  What stands
behind an operand must not take hold of it: no operator there may bind stronger than the
operand does.  Where parentheses are left out this holds by the order of the operators.
-/

namespace TableQuery

open TableQuery.Parser

variable {rank rank' : Nat} {front rest : List PlacedToken} {t : PlacedToken}

/-! ## Placed tokens -/

theorem exists_of_map_token_cons {token : Token} {tokens : List Token}
    (h : front.map PlacedToken.token = token :: tokens) :
    ∃ span others, front = ⟨token, span⟩ :: others ∧ others.map PlacedToken.token = tokens := by
  obtain ⟨⟨_, span⟩, others, rfl, rfl, hothers⟩ := List.map_eq_cons_iff.mp h
  exact ⟨span, others, rfl, hothers⟩

theorem exists_of_map_token_singleton {token : Token}
    (h : front.map PlacedToken.token = [token]) : ∃ span, front = [⟨token, span⟩] := by
  obtain ⟨⟨_, span⟩, rfl, rfl⟩ := List.map_eq_singleton_iff.mp h
  exact ⟨span, rfl⟩

/-! ## What stands behind an operand -/

/-- Tokens that take no part of an operand before them whose precedence has the given
rank. -/
structure Stops (rank : Nat) (tokens : List PlacedToken) : Prop where
  operator : ∀ parsed, operator? tokens = some parsed → parsed.value.precedence.rank ≤ rank
  test : ∀ t ∈ tokens.head?, t.token = .keyword .isWord → Precedence.comparison.rank ≤ rank
  suffix : ∀ t ∈ tokens.head?,
    t.token ≠ .symbol .dot ∧ t.token ≠ .symbol .openBracket ∧ t.token ≠ .symbol .openParen

/-- Whether a token ends an expression. -/
def endsExpr : Token → Bool
  | .symbol .closeParen | .symbol .closeBracket | .symbol .comma | .finish => true
  | _ => false

/-- Whether a token ends an expression or a part of a choice. -/
def endsOperand (t : Token) : Bool :=
  endsExpr t || t == .keyword .ifWord || t == .keyword .elseWord

theorem Stops.mono (h : Stops rank rest) (hle : rank ≤ rank') : Stops rank' rest :=
  ⟨fun parsed hparsed => (h.operator parsed hparsed).trans hle,
    fun t ht htoken => (h.test t ht htoken).trans hle, h.suffix⟩

theorem stops_of_endsOperand (h : endsOperand t.token) : Stops rank (t :: rest) := by
  obtain ⟨token, span⟩ := t
  simp only [endsOperand, Bool.or_eq_true, beq_iff_eq] at h
  obtain (h | rfl) | rfl := h
  · unfold endsExpr at h
    split at h
    · exact ⟨nofun, by simp, by simp⟩
    · exact ⟨nofun, by simp, by simp⟩
    · exact ⟨nofun, by simp, by simp⟩
    · exact ⟨nofun, by simp, by simp⟩
    · cases h
  · exact ⟨nofun, by simp, by simp⟩
  · exact ⟨nofun, by simp, by simp⟩

theorem operator?_append {op : BinaryOp} (hfront : front.map PlacedToken.token = op.tokens)
    (rest : List PlacedToken) :
    ∃ within, operator? (front ++ rest) = some ⟨op, rest, within⟩ := by
  cases op
  case notMember =>
    obtain ⟨span, others, rfl, hothers⟩ := exists_of_map_token_cons hfront
    obtain ⟨span', rfl⟩ := exists_of_map_token_singleton hothers
    exact ⟨_, rfl⟩
  all_goals
    obtain ⟨span, rfl⟩ := exists_of_map_token_singleton hfront
    exact ⟨_, rfl⟩

/-- What goes on with an operand as an operator does so in no other way. -/
theorem stops_of_operator? {tokens : List PlacedToken} {parsed : Parsed BinaryOp tokens.length}
    (h : operator? tokens = some parsed) (hrank : parsed.value.precedence.rank ≤ rank) :
    Stops rank tokens := by
  cases tokens with
  | nil => cases h
  | cons t rest =>
    obtain ⟨token, span⟩ := t
    refine ⟨fun parsed' hparsed => ?_, ?_, ?_⟩
    · rw [h] at hparsed
      cases hparsed
      exact hrank
    · rintro _ ⟨⟩ rfl
      cases h
    · rintro _ ⟨⟩
      refine ⟨?_, ?_, ?_⟩
      all_goals
        rintro rfl
        cases h

/-- An operator takes no part of an operand that binds at least as strongly. -/
theorem stops_operator {op : BinaryOp} (hfront : front.map PlacedToken.token = op.tokens)
    (hrank : op.precedence.rank ≤ rank) : Stops rank (front ++ rest) := by
  obtain ⟨within, hoperator⟩ := operator?_append hfront rest
  exact stops_of_operator? hoperator hrank

theorem exists_of_map_token_test {negated : Bool}
    (hfront : front.map PlacedToken.token = Expr.testTokens negated) :
    ∃ span others, front = ⟨.keyword .isWord, span⟩ :: others ∧
      ∀ rest, outcome (readIsNull (others ++ rest)) = .ok (negated, rest) := by
  cases negated with
  | true =>
    obtain ⟨span, others, rfl, hothers⟩ := exists_of_map_token_cons hfront
    obtain ⟨span', last, rfl, hlast⟩ := exists_of_map_token_cons hothers
    obtain ⟨span'', rfl⟩ := exists_of_map_token_singleton hlast
    exact ⟨span, _, rfl, fun rest => rfl⟩
  | false =>
    obtain ⟨span, others, rfl, hothers⟩ := exists_of_map_token_cons hfront
    obtain ⟨span', rfl⟩ := exists_of_map_token_singleton hothers
    exact ⟨span, _, rfl, fun rest => rfl⟩

theorem stops_test {negated : Bool}
    (hfront : front.map PlacedToken.token = Expr.testTokens negated)
    (hrank : Precedence.comparison.rank ≤ rank) : Stops rank (front ++ rest) := by
  obtain ⟨span, others, rfl, -⟩ := exists_of_map_token_test hfront
  exact ⟨nofun, fun _ _ _ => hrank, by simp⟩

/-- No operator between two operands has a precedence of operators before operands. -/
theorem Stops.pred {op : UnaryOp} (h : Stops op.precedence.rank rest) :
    Stops (op.precedence.rank - 1) rest := by
  refine ⟨fun parsed hparsed => ?_, fun t ht htoken => ?_, h.suffix⟩
  · have hle := h.operator parsed hparsed
    revert hle
    cases parsed.value <;> cases op <;> decide
  · have hle := h.test t ht htoken
    revert hle
    cases op <;> decide

theorem rank_strength (op : BinaryOp) : (strength op).rank + 1 = op.precedence.rank := by
  cases op <;> rfl

theorem rank_next_strength (op : BinaryOp) : (strength op).next.rank = op.precedence.rank := by
  cases op <;> rfl

/-- The operator before an operand is found, with the strength that it is read with. -/
theorem prefixOp?_cons (op : UnaryOp) (span : Span) (rest : List PlacedToken) :
    ∃ least within, least.rank + 1 = op.precedence.rank ∧
      prefixOp? (⟨op.token, span⟩ :: rest) = some ⟨(op, least), rest, within⟩ := by
  cases op
  · exact ⟨.not, _, rfl, rfl⟩
  · exact ⟨.sign, _, rfl, rfl⟩
  · exact ⟨.sign, _, rfl, rfl⟩

/-- An operand ends where nothing takes hold of it. -/
theorem outcome_readOperators_of_stops {least : Strength} {e : Expr} (h : Stops least.rank rest) :
    outcome (readOperators least e rest) = .ok (e, rest) := by
  refine outcome_readOperators_stop (fun t ht htoken => ?_) fun parsed hparsed => ?_
  · exact h.test t ht htoken
  · have hle := h.operator parsed hparsed
    have hrank := rank_strength parsed.value
    omega

theorem outcome_readPostfix_of_stops {e : Expr} (h : Stops rank rest) :
    outcome (readPostfix e rest) = .ok (e, rest) :=
  outcome_readPostfix_stop h.suffix

/-! ## Expressions -/

theorem outcome_readExpr_of_readBinary {e : Expr} {tokens : List PlacedToken}
    (h : outcome (readBinary .lowest tokens) = outcome (readOperators .lowest e (t :: rest)))
    (ht : endsExpr t.token) : outcome (readExpr tokens) = .ok (e, t :: rest) := by
  have hend : endsOperand t.token := by simp [endsOperand, ht]
  rw [outcome_readOperators_of_stops (stops_of_endsOperand hend)] at h
  refine outcome_readExpr h ?_
  rintro _ ⟨⟩ hif
  rw [hif] at ht
  cases ht

namespace Expr

/-- The tokens of an expression are read as this expression: alone, as an operand that binds
stronger than the operators before it, and before attributes and subscripts. -/
structure IsRead (e : Expr) : Prop where
  whole : ∀ front t rest, front.map PlacedToken.token = e.tokens → endsExpr t.token →
    outcome (readExpr (front ++ t :: rest)) = .ok (e, t :: rest)
  operand : Precedence.or.rank ≤ e.precedence.rank →
    ∀ least front rest, front.map PlacedToken.token = e.tokens →
      least.rank < e.precedence.rank → Stops e.precedence.rank rest →
        outcome (readBinary least (front ++ rest)) = outcome (readOperators least e rest)
  base : e.precedence = .access →
    ∀ front rest, front.map PlacedToken.token = e.tokens →
      (∀ t ∈ rest.head?, t.token ≠ .symbol .openParen) →
        outcome (readUnary (front ++ rest)) = outcome (readPostfix e rest)

variable {e : Expr}

theorem isRead_of_whole (hweak : e.precedence.rank < Precedence.or.rank)
    (h : ∀ front t rest, front.map PlacedToken.token = e.tokens → endsExpr t.token →
      outcome (readExpr (front ++ t :: rest)) = .ok (e, t :: rest)) : e.IsRead := by
  refine ⟨h, fun hstrong => absurd hweak (Nat.not_lt.mpr hstrong), fun haccess => ?_⟩
  rw [haccess] at hweak
  exact absurd hweak (by decide)

theorem isRead_of_operand (hweak : e.precedence.rank < Precedence.access.rank)
    (hstrong : Precedence.or.rank ≤ e.precedence.rank)
    (h : ∀ least front rest, front.map PlacedToken.token = e.tokens →
      least.rank < e.precedence.rank → Stops e.precedence.rank rest →
        outcome (readBinary least (front ++ rest)) = outcome (readOperators least e rest)) :
    e.IsRead := by
  refine ⟨fun front t rest hfront ht => ?_, fun _ => h, fun haccess => ?_⟩
  · have hstops : Stops e.precedence.rank (t :: rest) :=
      stops_of_endsOperand (by simp [endsOperand, ht])
    have hleast : Strength.lowest.rank < e.precedence.rank := Nat.lt_of_lt_of_le (by decide) hstrong
    exact outcome_readExpr_of_readBinary (h .lowest front _ hfront hleast hstops) ht
  · rw [haccess] at hweak
    exact absurd hweak (Nat.lt_irrefl _)

theorem isRead_of_base
    (h : ∀ front rest, front.map PlacedToken.token = e.tokens →
      (∀ t ∈ rest.head?, t.token ≠ .symbol .openParen) →
        outcome (readUnary (front ++ rest)) = outcome (readPostfix e rest)) :
    e.IsRead := by
  have hoperand : ∀ least front rest, front.map PlacedToken.token = e.tokens →
      Stops e.precedence.rank rest →
        outcome (readBinary least (front ++ rest)) = outcome (readOperators least e rest) := by
    intro least front rest hfront hrest
    have hread := h front rest hfront fun t ht => (hrest.suffix t ht).2.2
    exact outcome_readBinary (hread.trans (outcome_readPostfix_of_stops hrest))
  refine ⟨fun front t rest hfront ht => ?_, fun _ least front rest hfront _ => ?_, fun _ => h⟩
  · have hstops : Stops e.precedence.rank (t :: rest) :=
      stops_of_endsOperand (by simp [endsOperand, ht])
    exact outcome_readExpr_of_readBinary (hoperand .lowest front _ hfront hstops) ht
  · exact hoperand least front rest hfront

/-! ## Parentheses -/

theorem IsRead.outcome_readPrimary_enclosed (h : e.IsRead)
    (hfront : front.map PlacedToken.token = enclosed true e.tokens) (rest : List PlacedToken) :
    outcome (readPrimary (front ++ rest)) = .ok (e, rest) := by
  obtain ⟨span, others, rfl, hothers⟩ := exists_of_map_token_cons hfront
  obtain ⟨inner, last, rfl, hinner, hlast⟩ := List.map_eq_append_iff.mp hothers
  obtain ⟨span', rfl⟩ := exists_of_map_token_singleton hlast
  rw [List.cons_append, List.append_assoc]
  exact outcome_readPrimary_paren (h.whole inner _ rest hinner rfl)

/-- An operand is read whether or not it stands in parentheses. -/
theorem IsRead.outcome_readBinary_enclosed (h : e.IsRead) {needed : Bool} {least : Strength}
    (hfront : front.map PlacedToken.token = enclosed needed e.tokens) (hrest : Stops rank rest)
    (hneeded : needed = false → Precedence.or.rank ≤ e.precedence.rank ∧
      least.rank < e.precedence.rank ∧ rank ≤ e.precedence.rank) :
    outcome (readBinary least (front ++ rest)) = outcome (readOperators least e rest) := by
  cases needed with
  | true =>
    have hprimary := h.outcome_readPrimary_enclosed hfront rest
    have hunary := outcome_readUnary_primary hprimary
    exact outcome_readBinary (hunary.trans (outcome_readPostfix_of_stops hrest))
  | false =>
    obtain ⟨hstrong, hleast, hrank⟩ := hneeded rfl
    exact h.operand hstrong least front rest hfront hleast (hrest.mono hrank)

/-- What attributes and subscripts follow is read whether or not it stands in
parentheses. -/
theorem IsRead.outcome_readUnary_enclosed (h : e.IsRead)
    (hfront : front.map PlacedToken.token = enclosed (e.precedence.weaker .access) e.tokens)
    (hrest : ∀ t ∈ rest.head?, t.token ≠ .symbol .openParen) :
    outcome (readUnary (front ++ rest)) = outcome (readPostfix e rest) := by
  cases hneeded : e.precedence.weaker .access with
  | true =>
    rw [hneeded] at hfront
    exact outcome_readUnary_primary (h.outcome_readPrimary_enclosed hfront rest)
  | false =>
    rw [hneeded] at hfront
    have haccess : e.precedence = .access := by
      revert hneeded
      cases e.precedence <;> decide
    exact h.base haccess front rest hfront hrest

theorem IsRead.outcome_readBinary_branch (h : e.IsRead)
    (hfront : front.map PlacedToken.token = enclosed (e.precedence.weaker .or) e.tokens)
    (ht : endsOperand t.token) :
    outcome (readBinary .lowest (front ++ t :: rest)) = .ok (e, t :: rest) := by
  have hstops : Stops 0 (t :: rest) := stops_of_endsOperand ht
  rw [h.outcome_readBinary_enclosed hfront hstops fun hneeded => ?_]
  · exact outcome_readOperators_of_stops hstops
  · simp only [Precedence.weaker, decide_eq_false_iff_not] at hneeded
    exact ⟨Nat.not_lt.mp hneeded, Nat.lt_of_lt_of_le (by decide) (Nat.not_lt.mp hneeded),
      Nat.zero_le _⟩

/-! ## One kind of expressions at a time -/

theorem isRead_atom {token : Token} (htokens : e.tokens = [token]) (h : atom? token = some e) :
    e.IsRead := by
  refine isRead_of_base fun front rest hfront _ => ?_
  rw [htokens] at hfront
  obtain ⟨span, rfl⟩ := exists_of_map_token_singleton hfront
  exact outcome_readUnary_primary (outcome_readPrimary_atom (t := ⟨token, span⟩) h)

theorem IsRead.attribute {base : Expr} (h : base.IsRead) (s : String) :
    (Expr.attribute base s).IsRead := by
  refine isRead_of_base fun front rest hfront hrest => ?_
  rw [tokens] at hfront
  obtain ⟨first, last, rfl, hfirst, hlast⟩ := List.map_eq_append_iff.mp hfront
  obtain ⟨span, others, rfl, hothers⟩ := exists_of_map_token_cons hlast
  obtain ⟨span', rfl⟩ := exists_of_map_token_singleton hothers
  rw [List.append_assoc]
  calc outcome (readUnary (first ++ ⟨.symbol .dot, span⟩ :: ⟨.name s, span'⟩ :: rest))
    _ = outcome (readPostfix base (⟨.symbol .dot, span⟩ :: ⟨.name s, span'⟩ :: rest)) :=
      h.outcome_readUnary_enclosed hfirst (by simp)
    _ = outcome (readPostfix (.attribute base s) rest) := outcome_readPostfix_attribute hrest

theorem IsRead.index {base i : Expr} (h : base.IsRead) (hi : i.IsRead) :
    (Expr.index base i).IsRead := by
  refine isRead_of_base fun front rest hfront _ => ?_
  rw [tokens] at hfront
  obtain ⟨first, last, rfl, hfirst, hlast⟩ := List.map_eq_append_iff.mp hfront
  obtain ⟨span, others, rfl, hothers⟩ := exists_of_map_token_cons hlast
  obtain ⟨inner, close, rfl, hinner, hclose⟩ := List.map_eq_append_iff.mp hothers
  obtain ⟨span', rfl⟩ := exists_of_map_token_singleton hclose
  rw [List.append_assoc, List.cons_append, List.append_assoc]
  refine (h.outcome_readUnary_enclosed hfirst (by simp)).trans ?_
  exact outcome_readPostfix_index (hi.whole inner _ rest hinner rfl)

theorem outcome_readItems {close : Symbol} (hclose : close = .closeParen ∨ close = .closeBracket)
    {items : List Expr} (hitems : ∀ e ∈ items, e.IsRead) {span : Span}
    (hfront : front.map PlacedToken.token = itemTokens items) :
    outcome (readItems close (front ++ ⟨.symbol close, span⟩ :: rest)) = .ok (items, rest) := by
  have hend : endsExpr (.symbol close) := by
    obtain rfl | rfl := hclose <;> rfl
  induction items generalizing front with
  | nil =>
    obtain rfl := List.map_eq_nil_iff.mp hfront
    exact outcome_readItems_nil
  | cons e items ih =>
    obtain ⟨he, hothers⟩ := List.forall_mem_cons.mp hitems
    cases items with
    | nil => exact outcome_readItems_last hclose (he.whole front _ rest hfront hend)
    | cons e' items =>
      obtain ⟨first, last, rfl, hfirst, hlast⟩ := List.map_eq_append_iff.mp hfront
      obtain ⟨span', others, rfl, hmore⟩ := exists_of_map_token_cons hlast
      rw [List.append_assoc]
      exact outcome_readItems_comma hclose (he.whole first _ _ hfirst rfl) (ih hothers hmore)

theorem isRead_list {items : List Expr} (h : ∀ e ∈ items, e.IsRead) : (Expr.list items).IsRead := by
  refine isRead_of_base fun front rest hfront _ => ?_
  rw [tokens] at hfront
  obtain ⟨span, others, rfl, hothers⟩ := exists_of_map_token_cons hfront
  obtain ⟨inner, close, rfl, hinner, hclose⟩ := List.map_eq_append_iff.mp hothers
  obtain ⟨span', rfl⟩ := exists_of_map_token_singleton hclose
  rw [List.cons_append, List.append_assoc]
  exact outcome_readUnary_primary
    (outcome_readPrimary_list (outcome_readItems (.inr rfl) h hinner))

theorem isRead_call {args : List Expr} (f : String) (h : ∀ e ∈ args, e.IsRead) :
    (Expr.call f args).IsRead := by
  refine isRead_of_base fun front rest hfront _ => ?_
  rw [tokens] at hfront
  obtain ⟨span, others, rfl, hothers⟩ := exists_of_map_token_cons hfront
  obtain ⟨span', others', rfl, hothers'⟩ := exists_of_map_token_cons hothers
  obtain ⟨inner, close, rfl, hinner, hclose⟩ := List.map_eq_append_iff.mp hothers'
  obtain ⟨span'', rfl⟩ := exists_of_map_token_singleton hclose
  rw [List.cons_append, List.cons_append, List.append_assoc]
  refine (outcome_readUnary_primary (outcome_readPrimary_atom (e := .name f) rfl)).trans ?_
  exact outcome_readPostfix_call (outcome_readItems (.inl rfl) h hinner)

theorem IsRead.binary {op : BinaryOp} {left right : Expr} (hleft : left.IsRead)
    (hright : right.IsRead) : (Expr.binary op left right).IsRead := by
  have hstrong : Precedence.or.rank ≤ op.precedence.rank := by cases op <;> decide
  have hweak : op.precedence.rank < Precedence.access.rank := by cases op <;> decide
  refine isRead_of_operand hweak hstrong fun least front rest hfront hleast hrest => ?_
  rw [tokens] at hfront
  rw [precedence] at hleast hrest
  obtain ⟨first, others, rfl, hfirst, hothers⟩ := List.map_eq_append_iff.mp hfront
  obtain ⟨middle, last, rfl, hmiddle, hlast⟩ := List.map_eq_append_iff.mp hothers
  obtain ⟨within, hoperator⟩ := operator?_append hmiddle (last ++ rest)
  -- The right operand is read with the next strength, so that it takes no operator of the
  -- same precedence behind it.
  have hread : outcome (readBinary (strength op).next (last ++ rest)) = .ok (right, rest) := by
    rw [hright.outcome_readBinary_enclosed hlast hrest fun hneeded => ?_]
    · exact outcome_readOperators_of_stops (hrest.mono (rank_next_strength op).ge)
    · simp only [Precedence.weaker, Bool.not_eq_false', decide_eq_true_eq] at hneeded
      rw [rank_next_strength]
      omega
  rw [List.append_assoc, List.append_assoc]
  -- The left operand is read with the strength of the whole and goes on at the operator.
  refine (hleft.outcome_readBinary_enclosed hfirst (stops_operator hmiddle (Nat.le_refl _))
    fun hneeded => ?_).trans ?_
  · simp only [Precedence.weaker, decide_eq_false_iff_not] at hneeded
    omega
  · refine outcome_readOperators_binary hoperator ?_ hread
    have hrank := rank_strength op
    omega

theorem IsRead.unary {op : UnaryOp} {operand : Expr} (h : operand.IsRead) :
    (Expr.unary op operand).IsRead := by
  have hstrong : Precedence.or.rank ≤ op.precedence.rank := by cases op <;> decide
  have hweak : op.precedence.rank < Precedence.access.rank := by cases op <;> decide
  refine isRead_of_operand hweak hstrong fun least front rest hfront hleast hrest => ?_
  rw [tokens] at hfront
  rw [precedence] at hrest
  obtain ⟨span, others, rfl, hothers⟩ := exists_of_map_token_cons hfront
  obtain ⟨strength, within, hrank, hsign⟩ := prefixOp?_cons op span (others ++ rest)
  refine outcome_readBinary (outcome_readUnary_signed hsign ?_)
  rw [h.outcome_readBinary_enclosed hothers hrest.pred fun hneeded => ?_]
  · exact outcome_readOperators_of_stops (hrest.pred.mono (Nat.sub_le_of_le_add hrank.ge))
  · simp only [Precedence.weaker, decide_eq_false_iff_not] at hneeded
    omega

theorem IsRead.isNull {operand : Expr} (h : operand.IsRead) (negated : Bool) :
    (Expr.isNull negated operand).IsRead := by
  have hstrong : Precedence.or.rank ≤ Precedence.comparison.rank := by decide
  have hweak : Precedence.comparison.rank < Precedence.access.rank := by decide
  refine isRead_of_operand hweak hstrong fun least front rest hfront hleast hrest => ?_
  rw [tokens] at hfront
  obtain ⟨first, last, rfl, hfirst, hlast⟩ := List.map_eq_append_iff.mp hfront
  have hcomparison : least.rank < Precedence.comparison.rank := hleast
  rw [List.append_assoc]
  refine (h.outcome_readBinary_enclosed hfirst (stops_test hlast (Nat.le_refl _))
    fun hneeded => ?_).trans ?_
  · simp only [Precedence.weaker, decide_eq_false_iff_not] at hneeded
    omega
  · obtain ⟨span, others, rfl, hothers⟩ := exists_of_map_token_test hlast
    exact outcome_readOperators_test (Nat.le_of_lt_succ hcomparison) (hothers rest)

theorem IsRead.choice {condition chosen otherwise : Expr} (hcondition : condition.IsRead)
    (hchosen : chosen.IsRead) (hotherwise : otherwise.IsRead) :
    (Expr.choice condition chosen otherwise).IsRead := by
  have hweak : Precedence.choice.rank < Precedence.or.rank := by decide
  refine isRead_of_whole hweak fun front t rest hfront ht => ?_
  rw [tokens] at hfront
  obtain ⟨first, others, rfl, hfirst, hothers⟩ := List.map_eq_append_iff.mp hfront
  obtain ⟨span, others', rfl, hothers'⟩ := exists_of_map_token_cons hothers
  obtain ⟨middle, others'', rfl, hmiddle, hothers''⟩ := List.map_eq_append_iff.mp hothers'
  obtain ⟨span', last, rfl, hlast⟩ := exists_of_map_token_cons hothers''
  rw [List.append_assoc, List.cons_append, List.append_assoc, List.cons_append]
  exact outcome_readExpr_choice (hchosen.outcome_readBinary_branch hfirst rfl)
    (hcondition.outcome_readBinary_branch hmiddle rfl) (hotherwise.whole last t rest hlast ht)

theorem outcome_readNames {params : List String} {s : String} {close : Symbol}
    (hclose : close ≠ .comma) (hfront : front.map PlacedToken.token = nameTokens (s :: params))
    (span : Span) (rest : List PlacedToken) :
    outcome (readNames close (front ++ ⟨.symbol close, span⟩ :: rest)) =
      .ok (s :: params, rest) := by
  induction params generalizing s front with
  | nil =>
    obtain ⟨span', rfl⟩ := exists_of_map_token_singleton hfront
    exact outcome_readNames_last hclose
  | cons s' params ih =>
    obtain ⟨span', others, rfl, hothers⟩ := exists_of_map_token_cons hfront
    obtain ⟨span'', last, rfl, hlast⟩ := exists_of_map_token_cons hothers
    exact outcome_readNames_comma (ih hlast)

theorem outcome_readParams {params : List String} {close : Symbol} (hclose : close ≠ .comma)
    {span : Span} (hfront : front.map PlacedToken.token = nameTokens params) :
    outcome (readParams close (front ++ ⟨.symbol close, span⟩ :: rest)) = .ok (params, rest) := by
  cases params with
  | nil =>
    obtain rfl := List.map_eq_nil_iff.mp hfront
    exact outcome_readParams_nil
  | cons s params =>
    have hnames := outcome_readNames hclose hfront span rest
    obtain ⟨span', others, rfl⟩ : ∃ span' others, front = ⟨.name s, span'⟩ :: others := by
      cases params
      all_goals
        obtain ⟨span', others, rfl, -⟩ := exists_of_map_token_cons hfront
        exact ⟨span', others, rfl⟩
    rwa [List.cons_append, readParams_name]

theorem IsRead.lambda {body : Expr} (h : body.IsRead) (params : List String) :
    (Expr.lambda params body).IsRead := by
  have hweak : Precedence.function.rank < Precedence.or.rank := by decide
  refine isRead_of_whole hweak fun front t rest hfront ht => ?_
  rw [tokens] at hfront
  obtain ⟨span, others, rfl, hothers⟩ := exists_of_map_token_cons hfront
  obtain ⟨names, others', rfl, hnames, hothers'⟩ := List.map_eq_append_iff.mp hothers
  obtain ⟨span', last, rfl, hlast⟩ := exists_of_map_token_cons hothers'
  rw [List.cons_append, List.append_assoc, List.cons_append]
  exact outcome_readExpr_lambda (outcome_readParams (by decide) hnames)
    (h.whole last t rest hlast ht)

mutual

/-- The tokens of an expression are read as this expression. -/
theorem isRead : ∀ e : Expr, e.IsRead
  | null => isRead_atom rfl rfl
  | bool true => isRead_atom rfl rfl
  | bool false => isRead_atom rfl rfl
  | int _ => isRead_atom rfl rfl
  | float _ => isRead_atom rfl rfl
  | text _ => isRead_atom rfl rfl
  | name _ => isRead_atom rfl rfl
  | list items => isRead_list (isRead_items items)
  | .attribute base s => (isRead base).attribute s
  | index base i => (isRead base).index (isRead i)
  | call f args => isRead_call f (isRead_items args)
  | binary _ left right => (isRead left).binary (isRead right)
  | unary _ operand => (isRead operand).unary
  | isNull negated operand => (isRead operand).isNull negated
  | choice condition chosen otherwise =>
    (isRead condition).choice (isRead chosen) (isRead otherwise)
  | lambda params body => (isRead body).lambda params

theorem isRead_items : ∀ es : List Expr, ∀ e ∈ es, e.IsRead
  | [] => nofun
  | e :: es => List.forall_mem_cons.mpr ⟨isRead e, isRead_items es⟩

end

/-! ## Texts -/

/-- An expression that is written out with no more parentheses than the order of the
operators asks for is read back. -/
theorem parseExpr_written {e : Expr} (h : e.IsPlain) : parseExpr e.written = .ok e := by
  obtain ⟨htokens, hplaced⟩ := Token.tokens_spaced (areSpellable_tokens e h)
  obtain ⟨front, last, hlex, hfront, hlast⟩ := List.map_eq_append_iff.mp hplaced
  obtain ⟨span, rfl⟩ := exists_of_map_token_singleton hlast
  have hread := (isRead e).whole front ⟨.finish, span⟩ [] hfront rfl
  rw [← hlex] at hread
  obtain ⟨within, hexpr⟩ := exists_of_outcome hread
  rw [written, parseExpr, htokens, ok_bind, hexpr]
  rfl

/-- Both strengths of operators before operands, the operator of two words, the test for
absent values, a choice in parentheses and escapes in one expression. -/
theorem parseExpr_written_mixed :
    parseExpr "not f ( - a . b ) not in [ 1 , 'it\\'s' ] and ( x if y else z ) is not None".toList =
      .ok (.binary .and
        (.unary .not (.binary .notMember (.call "f" [.unary .minus (.attribute (.name "a") "b")])
          (.list [.int 1, .text "it's"])))
        (.isNull true (.choice (.name "y") (.name "x") (.name "z")))) := by
  refine parseExpr_written (e := .binary .and
    (.unary .not (.binary .notMember (.call "f" [.unary .minus (.attribute (.name "a") "b")])
      (.list [.int 1, .text "it's"])))
    (.isNull true (.choice (.name "y") (.name "x") (.name "z")))) ?_
  simp only [IsPlain, ArePlain]
  decide

end Expr
end TableQuery
