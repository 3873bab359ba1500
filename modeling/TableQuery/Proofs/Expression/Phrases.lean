import Mathlib.Data.List.Basic
import TableQuery.Expression.Fragment
import TableQuery.Proofs.Except
import TableQuery.Proofs.Expression.Lexing

/-!
# The tokens of expressions

What the parser reads is described here by rules that do not mention where it stops: which
tokens make up an expression, with their operators, brackets and commas.  Every rule of the
parser uses up tokens that these rules describe.
-/

namespace TableQuery

/-- Whether a token can be part of an expression. -/
def Token.isProper : Token → Bool
  | symbol .assign | symbol .semicolon | fault _ | finish => false
  | _ => true

namespace Parser

open Token hiding text

/-- The tokens that an operator before its operand is spelled with. -/
def prefixTokens : UnaryOp → List Token
  | .not => [keyword .notWord, symbol .bang]
  | .minus => [symbol .minus]
  | .plus => [symbol .plus]

/-- Whether tokens spell an operator between two operands. -/
def SpellsOperator (op : BinaryOp) (tokens : List Token) : Prop :=
  (∃ t, tokens = [t] ∧ operatorOf? t = some op) ∨
    tokens = [keyword .notWord, keyword .inWord] ∧ op = .notMember

/-- The tokens behind an operand that test for the absent value, or for any other if
negated. -/
def nullTests : Bool → List (List Token)
  | false => [[keyword .isWord, keyword .noneWord], [keyword .isWord, keyword .nullWord]]
  | true =>
    [[keyword .isWord, keyword .notWord, keyword .noneWord],
      [keyword .isWord, keyword .notWord, keyword .nullWord]]

/-- The tokens of a list of names up to a closing symbol. -/
def namesTokens (close : Symbol) : List String → List Token
  | [] => [symbol close]
  | s :: names => name s :: (names.flatMap fun s => [symbol .comma, name s]) ++ [symbol close]

mutual

/-- Whether tokens make up an expression. -/
inductive Phrase : List Token → Expr → Prop
  | atom {t : Token} {e : Expr} (h : atom? t = some e) : Phrase [t] e
  | paren {ts : List Token} {e : Expr} (h : Phrase ts e) :
    Phrase (symbol .openParen :: (ts ++ [symbol .closeParen])) e
  | list {ts : List Token} {es : List Expr} (h : ItemPhrases .closeBracket ts es) :
    Phrase (symbol .openBracket :: ts) (.list es)
  | attribute {ts : List Token} {base : Expr} (s : String) (h : Phrase ts base) :
    Phrase (ts ++ [symbol .dot, name s]) (.attribute base s)
  | method {ts us : List Token} {base : Expr} {args : List Expr} (f : String)
    (hbase : Phrase ts base) (hargs : ItemPhrases .closeParen us args) :
    Phrase (ts ++ symbol .dot :: name f :: symbol .openParen :: us) (.call f (base :: args))
  | call {ts us : List Token} {f : String} {args : List Expr} (hname : Phrase ts (.name f))
    (hargs : ItemPhrases .closeParen us args) :
    Phrase (ts ++ symbol .openParen :: us) (.call f args)
  | index {ts us : List Token} {base i : Expr} (hbase : Phrase ts base) (hindex : Phrase us i) :
    Phrase (ts ++ symbol .openBracket :: (us ++ [symbol .closeBracket])) (.index base i)
  | unary {op : UnaryOp} {t : Token} {ts : List Token} {operand : Expr}
    (hop : t ∈ prefixTokens op) (h : Phrase ts operand) : Phrase (t :: ts) (.unary op operand)
  | binary {op : BinaryOp} {ts os us : List Token} {left right : Expr} (hleft : Phrase ts left)
    (hop : SpellsOperator op os) (hright : Phrase us right) :
    Phrase (ts ++ (os ++ us)) (.binary op left right)
  | isNull {negated : Bool} {ts us : List Token} {operand : Expr} (h : Phrase ts operand)
    (htest : us ∈ nullTests negated) : Phrase (ts ++ us) (.isNull negated operand)
  | choice {ts us vs : List Token} {condition chosen otherwise : Expr} (hchosen : Phrase ts chosen)
    (hcondition : Phrase us condition) (hotherwise : Phrase vs otherwise) :
    Phrase (ts ++ keyword .ifWord :: (us ++ keyword .elseWord :: vs))
      (.choice condition chosen otherwise)
  | lambda {ts : List Token} {body : Expr} (params : List String) (h : Phrase ts body) :
    Phrase (keyword .lambdaWord :: (namesTokens .colon params ++ ts)) (.lambda params body)

/-- Whether tokens make up a list of expressions up to a closing symbol. -/
inductive ItemPhrases : Symbol → List Token → List Expr → Prop
  | nil (close : Symbol) : ItemPhrases close [symbol close] []
  | last {close : Symbol} {ts : List Token} {e : Expr} (h : Phrase ts e) :
    ItemPhrases close (ts ++ [symbol close]) [e]
  | cons {close : Symbol} {ts us : List Token} {e : Expr} {es : List Expr} (h : Phrase ts e)
    (hs : ItemPhrases close us es) : ItemPhrases close (ts ++ symbol .comma :: us) (e :: es)

end

theorem Phrase.ne_nil {ts : List Token} {e : Expr} : Phrase ts e → ts ≠ []
  | .atom _ | .paren _ | .list _ | .unary _ _ | .lambda _ _ => List.cons_ne_nil _ _
  | .attribute _ h | .method _ h _ | .call h _ | .index h _ | .binary h _ _ | .isNull h _
  | .choice h _ _ => List.append_ne_nil_of_left_ne_nil h.ne_nil _

/-! ## What the parser uses up -/

/-- The tokens up to a rest. -/
def Uses (tokens : List PlacedToken) (used : List Token) (rest : List PlacedToken) : Prop :=
  tokens.map PlacedToken.token = used ++ rest.map PlacedToken.token

section

variable {tokens between rest : List PlacedToken} {used used' : List Token} {close : Symbol}

theorem uses_nil (tokens : List PlacedToken) : Uses tokens [] tokens :=
  rfl

theorem Uses.cons (h : Uses tokens used rest) (t : PlacedToken) :
    Uses (t :: tokens) (t.token :: used) rest :=
  congrArg (t.token :: ·) h

theorem Uses.trans (h : Uses tokens used between) (h' : Uses between used' rest) :
    Uses tokens (used ++ used') rest := by
  rw [Uses, h, h', List.append_assoc]

theorem uses_of_expect {token : Token} {wanted : Expected} {parsed : Parsed Unit tokens.length}
    (h : expect token wanted tokens = .ok parsed) : Uses tokens [token] parsed.rest := by
  cases tokens with
  | nil => cases h
  | cons t rest =>
    rw [expect] at h
    split at h
    · next heq =>
      cases h
      exact heq ▸ (uses_nil rest).cons t
    · cases h

theorem uses_of_expectName {parsed : Parsed String tokens.length}
    (h : expectName tokens = .ok parsed) : Uses tokens [name parsed.value] parsed.rest := by
  unfold expectName at h
  split at h
  · cases h
    exact (uses_nil _).cons _
  · cases h

theorem uses_of_operator? {parsed : Parsed BinaryOp tokens.length}
    (h : operator? tokens = some parsed) :
    ∃ used, Uses tokens used parsed.rest ∧ SpellsOperator parsed.value used := by
  unfold operator? at h
  split at h
  · cases h
    exact ⟨_, ((uses_nil _).cons _).cons _, .inr ⟨rfl, rfl⟩⟩
  · next t rest _ =>
    obtain ⟨op, hop, rfl⟩ := Option.map_eq_some_iff.mp h
    exact ⟨_, (uses_nil rest).cons t, .inl ⟨t.token, rfl, hop⟩⟩
  · cases h

theorem uses_of_prefixOp? {parsed : Parsed (UnaryOp × Strength) tokens.length}
    (h : prefixOp? tokens = some parsed) :
    ∃ t ∈ prefixTokens parsed.value.1, Uses tokens [t] parsed.rest := by
  unfold prefixOp? at h
  split at h <;> cases h
  all_goals exact ⟨_, by simp [prefixTokens], (uses_nil _).cons _⟩

theorem uses_of_readIsNull {parsed : Parsed Bool tokens.length}
    (h : readIsNull tokens = .ok parsed) :
    ∃ used, Uses tokens used parsed.rest ∧
      keyword .isWord :: used ∈ nullTests parsed.value := by
  unfold readIsNull at h
  split at h <;> cases h
  · exact ⟨_, ((uses_nil _).cons _).cons _, by simp [nullTests]⟩
  · exact ⟨_, ((uses_nil _).cons _).cons _, by simp [nullTests]⟩
  · exact ⟨_, (uses_nil _).cons _, by simp [nullTests]⟩
  · exact ⟨_, (uses_nil _).cons _, by simp [nullTests]⟩

theorem uses_of_readNames {tokens : List PlacedToken} {parsed : Parsed (List String) tokens.length}
    (h : readNames close tokens = .ok parsed) :
    parsed.value ≠ [] ∧ Uses tokens (namesTokens close parsed.value) parsed.rest := by
  rw [readNames] at h
  obtain ⟨⟨first, rest, hlt⟩, hfirst, h⟩ := bind_eq_ok_iff.mp h
  have hname := uses_of_expectName hfirst
  dsimp only at h hname
  split at h
  · obtain ⟨⟨others, rest', hlt'⟩, hothers, h⟩ := bind_eq_ok_iff.mp h
    cases h
    obtain ⟨hne, hnames⟩ := uses_of_readNames hothers
    obtain ⟨s, others, rfl⟩ := List.exists_cons_of_ne_nil hne
    exact ⟨List.cons_ne_nil _ _, hname.trans (hnames.cons _)⟩
  · obtain ⟨⟨_, rest', hlt'⟩, hclose, h⟩ := bind_eq_ok_iff.mp h
    cases h
    exact ⟨List.cons_ne_nil _ _, hname.trans (uses_of_expect hclose)⟩
termination_by tokens.length
decreasing_by grind

theorem uses_of_readParams {parsed : Parsed (List String) tokens.length}
    (h : readParams close tokens = .ok parsed) :
    Uses tokens (namesTokens close parsed.value) parsed.rest := by
  unfold readParams at h
  split at h
  · split at h
    · next t rest heq =>
      cases h
      have hused := (uses_nil rest).cons t
      rwa [heq] at hused
    · exact (uses_of_readNames h).2
  · exact (uses_of_readNames h).2

end

/-! ## Expressions -/

mutual

theorem phrase_of_readExpr {tokens : List PlacedToken} {parsed : Parsed Expr tokens.length}
    (h : readExpr tokens = .ok parsed) :
    ∃ used, Uses tokens used parsed.rest ∧ Phrase used parsed.value := by
  unfold readExpr at h
  split at h
  · obtain ⟨⟨params, rest, hlt⟩, hparams, h⟩ := bind_eq_ok_iff.mp h
    obtain ⟨⟨body, rest', hlt'⟩, hbody, h⟩ := bind_eq_ok_iff.mp h
    cases h
    obtain ⟨used, hused, hphrase⟩ := phrase_of_readExpr hbody
    exact ⟨_, ((uses_of_readParams hparams).trans hused).cons _, .lambda params hphrase⟩
  · obtain ⟨⟨chosen, rest, hlt⟩, hchosen, h⟩ := bind_eq_ok_iff.mp h
    obtain ⟨ts, hts, hphrase⟩ := phrase_of_readBinary hchosen
    dsimp only at h
    split at h
    · obtain ⟨⟨condition, rest', hlt'⟩, hcondition, h⟩ := bind_eq_ok_iff.mp h
      obtain ⟨⟨_, rest'', hlt''⟩, helse, h⟩ := bind_eq_ok_iff.mp h
      obtain ⟨⟨otherwise, rest''', hlt'''⟩, hotherwise, h⟩ := bind_eq_ok_iff.mp h
      cases h
      obtain ⟨us, hus, hphrase'⟩ := phrase_of_readBinary hcondition
      obtain ⟨vs, hvs, hphrase''⟩ := phrase_of_readExpr hotherwise
      exact ⟨_, hts.trans ((hus.trans ((uses_of_expect helse).trans hvs)).cons _),
        .choice hphrase hphrase' hphrase''⟩
    · cases h
      exact ⟨ts, hts, hphrase⟩
termination_by 8 * tokens.length + 6
decreasing_by all_goals first | omega | grind

theorem phrase_of_readBinary {tokens : List PlacedToken} {least : Strength}
    {parsed : Parsed Expr tokens.length} (h : readBinary least tokens = .ok parsed) :
    ∃ used, Uses tokens used parsed.rest ∧ Phrase used parsed.value := by
  rw [readBinary] at h
  obtain ⟨⟨left, rest, hlt⟩, hleft, h⟩ := bind_eq_ok_iff.mp h
  obtain ⟨⟨e, rest', hlt'⟩, hoperators, h⟩ := bind_eq_ok_iff.mp h
  cases h
  obtain ⟨ts, hts, hphrase⟩ := phrase_of_readUnary hleft
  obtain ⟨us, hus, hphrase'⟩ := phrase_of_readOperators hphrase hoperators
  exact ⟨_, hts.trans hus, hphrase'⟩
termination_by 8 * tokens.length + 5
decreasing_by all_goals omega

theorem phrase_of_readOperators {tokens : List PlacedToken} {least : Strength} {front : List Token}
    {left : Expr} {parsed : Parsed Expr (tokens.length + 1)} (hleft : Phrase front left)
    (h : readOperators least left tokens = .ok parsed) :
    ∃ used, Uses tokens used parsed.rest ∧ Phrase (front ++ used) parsed.value := by
  have hstop : ∃ used, Uses tokens used tokens ∧ Phrase (front ++ used) left :=
    ⟨[], uses_nil tokens, by rwa [List.append_nil]⟩
  unfold readOperators at h
  split at h
  · cases h
    exact hstop
  · next t rest =>
    split at h
    · next his =>
      obtain ⟨⟨negated, rest', hlt⟩, htest, h⟩ := bind_eq_ok_iff.mp h
      obtain ⟨⟨e, rest'', hlt'⟩, hoperators, h⟩ := bind_eq_ok_iff.mp h
      cases h
      obtain ⟨ts, hts, hmem⟩ := uses_of_readIsNull htest
      obtain ⟨us, hus, hphrase⟩ := phrase_of_readOperators (hleft.isNull hmem) hoperators
      refine ⟨_, (hts.trans hus).cons t, ?_⟩
      rw [his.1]
      simpa using hphrase
    · split at h
      · cases h
        exact hstop
      · next op rest' hlt hop =>
        split at h
        · cases h
          exact hstop
        · obtain ⟨⟨right, rest'', hlt'⟩, hright, h⟩ := bind_eq_ok_iff.mp h
          obtain ⟨⟨e, rest''', hlt''⟩, hoperators, h⟩ := bind_eq_ok_iff.mp h
          cases h
          obtain ⟨os, hos, hspells⟩ := uses_of_operator? hop
          obtain ⟨us, hus, hphrase⟩ := phrase_of_readBinary hright
          obtain ⟨vs, hvs, hphrase'⟩ :=
            phrase_of_readOperators (hleft.binary hspells hphrase) hoperators
          exact ⟨_, hos.trans (hus.trans hvs), by simpa using hphrase'⟩
termination_by 8 * tokens.length
decreasing_by all_goals first | omega | grind

theorem phrase_of_readUnary {tokens : List PlacedToken} {parsed : Parsed Expr tokens.length}
    (h : readUnary tokens = .ok parsed) :
    ∃ used, Uses tokens used parsed.rest ∧ Phrase used parsed.value := by
  unfold readUnary at h
  split at h
  · next op least rest hlt hop =>
    obtain ⟨⟨operand, rest', hlt'⟩, hoperand, h⟩ := bind_eq_ok_iff.mp h
    cases h
    obtain ⟨t, hmem, ht⟩ := uses_of_prefixOp? hop
    obtain ⟨ts, hts, hphrase⟩ := phrase_of_readBinary hoperand
    exact ⟨_, ht.trans hts, .unary hmem hphrase⟩
  · obtain ⟨⟨base, rest, hlt⟩, hbase, h⟩ := bind_eq_ok_iff.mp h
    obtain ⟨⟨e, rest', hlt'⟩, hpostfix, h⟩ := bind_eq_ok_iff.mp h
    cases h
    obtain ⟨ts, hts, hphrase⟩ := phrase_of_readPrimary hbase
    obtain ⟨us, hus, hphrase'⟩ := phrase_of_readPostfix hphrase hpostfix
    exact ⟨_, hts.trans hus, hphrase'⟩
termination_by 8 * tokens.length + 4
decreasing_by all_goals omega

theorem phrase_of_readPostfix {tokens : List PlacedToken} {front : List Token} {base : Expr}
    {parsed : Parsed Expr (tokens.length + 1)} (hbase : Phrase front base)
    (h : readPostfix base tokens = .ok parsed) :
    ∃ used, Uses tokens used parsed.rest ∧ Phrase (front ++ used) parsed.value := by
  unfold readPostfix at h
  split at h
  · obtain ⟨⟨s, rest, hlt⟩, hname, h⟩ := bind_eq_ok_iff.mp h
    have hs := uses_of_expectName hname
    dsimp only at h hs
    split at h
    · obtain ⟨⟨args, rest', hlt'⟩, hargs, h⟩ := bind_eq_ok_iff.mp h
      obtain ⟨⟨e, rest'', hlt''⟩, hpostfix, h⟩ := bind_eq_ok_iff.mp h
      cases h
      obtain ⟨ts, hts, hitems⟩ := phrase_of_readItems hargs
      obtain ⟨us, hus, hphrase⟩ := phrase_of_readPostfix (hbase.method s hitems) hpostfix
      exact ⟨_, (hs.trans ((hts.trans hus).cons _)).cons _, by simpa using hphrase⟩
    · obtain ⟨⟨e, rest', hlt'⟩, hpostfix, h⟩ := bind_eq_ok_iff.mp h
      cases h
      obtain ⟨us, hus, hphrase⟩ := phrase_of_readPostfix (hbase.attribute s) hpostfix
      exact ⟨_, (hs.trans hus).cons _, by simpa using hphrase⟩
  · obtain ⟨⟨i, rest, hlt⟩, hindex, h⟩ := bind_eq_ok_iff.mp h
    obtain ⟨⟨_, rest', hlt'⟩, hclose, h⟩ := bind_eq_ok_iff.mp h
    obtain ⟨⟨e, rest'', hlt''⟩, hpostfix, h⟩ := bind_eq_ok_iff.mp h
    cases h
    obtain ⟨ts, hts, hphrase⟩ := phrase_of_readExpr hindex
    obtain ⟨us, hus, hphrase'⟩ := phrase_of_readPostfix (hbase.index hphrase) hpostfix
    exact ⟨_, (hts.trans ((uses_of_expect hclose).trans hus)).cons _, by simpa using hphrase'⟩
  · split at h
    · obtain ⟨⟨args, rest, hlt⟩, hargs, h⟩ := bind_eq_ok_iff.mp h
      obtain ⟨⟨e, rest', hlt'⟩, hpostfix, h⟩ := bind_eq_ok_iff.mp h
      cases h
      obtain ⟨ts, hts, hitems⟩ := phrase_of_readItems hargs
      obtain ⟨us, hus, hphrase⟩ := phrase_of_readPostfix (hbase.call hitems) hpostfix
      exact ⟨_, (hts.trans hus).cons _, by simpa using hphrase⟩
    · cases h
  · cases h
    exact ⟨[], uses_nil tokens, by rwa [List.append_nil]⟩
termination_by 8 * tokens.length
decreasing_by all_goals first | omega | grind

theorem phrase_of_readPrimary {tokens : List PlacedToken} {parsed : Parsed Expr tokens.length}
    (h : readPrimary tokens = .ok parsed) :
    ∃ used, Uses tokens used parsed.rest ∧ Phrase used parsed.value := by
  unfold readPrimary at h
  split at h
  · obtain ⟨⟨e, rest, hlt⟩, hread, h⟩ := bind_eq_ok_iff.mp h
    obtain ⟨⟨_, rest', hlt'⟩, hclose, h⟩ := bind_eq_ok_iff.mp h
    cases h
    obtain ⟨ts, hts, hphrase⟩ := phrase_of_readExpr hread
    exact ⟨_, (hts.trans (uses_of_expect hclose)).cons _, .paren hphrase⟩
  · obtain ⟨⟨items, rest, hlt⟩, hread, h⟩ := bind_eq_ok_iff.mp h
    cases h
    obtain ⟨ts, hts, hitems⟩ := phrase_of_readItems hread
    exact ⟨_, hts.cons _, .list hitems⟩
  · split at h
    · next e hatom =>
      cases h
      exact ⟨_, (uses_nil _).cons _, .atom hatom⟩
    · cases h
  · cases h
termination_by 8 * tokens.length + 2
decreasing_by all_goals first | omega | grind

theorem phrase_of_readItems {tokens : List PlacedToken} {close : Symbol}
    {parsed : Parsed (List Expr) tokens.length} (h : readItems close tokens = .ok parsed) :
    ∃ used, Uses tokens used parsed.rest ∧ ItemPhrases close used parsed.value := by
  unfold readItems at h
  split at h
  · cases h
  · next t rest =>
    split at h
    · next hclose =>
      cases h
      exact ⟨_, (uses_nil rest).cons t, hclose ▸ .nil close⟩
    · obtain ⟨⟨first, rest, hlt⟩, hfirst, h⟩ := bind_eq_ok_iff.mp h
      obtain ⟨ts, hts, hphrase⟩ := phrase_of_readExpr hfirst
      dsimp only at h hts
      split at h
      · obtain ⟨⟨others, rest', hlt'⟩, hothers, h⟩ := bind_eq_ok_iff.mp h
        cases h
        obtain ⟨us, hus, hitems⟩ := phrase_of_readItems hothers
        exact ⟨_, hts.trans (hus.cons _), .cons hphrase hitems⟩
      · obtain ⟨⟨_, rest', hlt'⟩, hclose, h⟩ := bind_eq_ok_iff.mp h
        cases h
        exact ⟨_, hts.trans (uses_of_expect hclose), .last hphrase⟩
termination_by 8 * tokens.length + 7
decreasing_by all_goals first | omega | grind

end

/-! ## Tokens that no expression has -/

theorem isProper_of_atom? {t : Token} {e : Expr} (h : atom? t = some e) : t.isProper := by
  unfold atom? at h
  split at h <;> first | rfl | cases h

theorem isProper_of_operatorOf? {t : Token} {op : BinaryOp} (h : operatorOf? t = some op) :
    t.isProper := by
  unfold operatorOf? at h
  split at h <;> first | rfl | cases h

theorem isProper_of_spellsOperator {op : BinaryOp} {ts : List Token} (h : SpellsOperator op ts) :
    ∀ t ∈ ts, t.isProper := by
  rcases h with ⟨t, rfl, ht⟩ | ⟨rfl, -⟩
  · simpa using isProper_of_operatorOf? ht
  · decide

theorem isProper_of_prefixTokens (op : UnaryOp) : ∀ t ∈ prefixTokens op, t.isProper := by
  cases op <;> decide

theorem isProper_of_nullTests (negated : Bool) :
    ∀ ts ∈ nullTests negated, ∀ t ∈ ts, t.isProper := by
  cases negated <;> decide

theorem isProper_of_namesTokens (close : Symbol) (hclose : (symbol close).isProper)
    (names : List String) : ∀ t ∈ namesTokens close names, t.isProper := by
  cases names with
  | nil => simpa [namesTokens] using hclose
  | cons s names =>
    have hothers : ∀ t ∈ names.flatMap fun s => [symbol .comma, name s], t.isProper := by
      intro t ht
      obtain ⟨s, -, ht⟩ := List.mem_flatMap.mp ht
      rw [List.mem_cons, List.mem_singleton] at ht
      rcases ht with rfl | rfl <;> rfl
    simpa [namesTokens, isProper, or_imp, forall_and] using And.intro hothers hclose

mutual

theorem Phrase.isProper {ts : List Token} {e : Expr} : Phrase ts e → ∀ t ∈ ts, t.isProper
  | .atom h => by simpa using isProper_of_atom? h
  | .paren h => by
    have hts := Phrase.isProper h
    simpa [isProper, or_imp, forall_and] using hts
  | .list h => by
    have hts := ItemPhrases.isProper h rfl
    simpa [isProper] using hts
  | .attribute s h => by
    have hts := Phrase.isProper h
    simpa [isProper, or_imp, forall_and] using hts
  | .method f h hs => by
    have hts := Phrase.isProper h
    have hus := ItemPhrases.isProper hs rfl
    simpa [isProper, or_imp, forall_and] using And.intro hts hus
  | .call h hs => by
    have hts := Phrase.isProper h
    have hus := ItemPhrases.isProper hs rfl
    simpa [isProper, or_imp, forall_and] using And.intro hts hus
  | .index h h' => by
    have hts := Phrase.isProper h
    have hus := Phrase.isProper h'
    simpa [isProper, or_imp, forall_and] using And.intro hts hus
  | .unary hop h => by
    have hts := Phrase.isProper h
    simpa [isProper, or_imp, forall_and] using And.intro (isProper_of_prefixTokens _ _ hop) hts
  | .binary h hop h' => by
    have hts := Phrase.isProper h
    have hos := isProper_of_spellsOperator hop
    have hus := Phrase.isProper h'
    simpa [or_imp, forall_and] using And.intro hts (And.intro hos hus)
  | .isNull h htest => by
    have hts := Phrase.isProper h
    have hus := isProper_of_nullTests _ _ htest
    simpa [or_imp, forall_and] using And.intro hts hus
  | .choice h h' h'' => by
    have hts := Phrase.isProper h
    have hus := Phrase.isProper h'
    have hvs := Phrase.isProper h''
    simpa [isProper, or_imp, forall_and] using And.intro hts (And.intro hus hvs)
  | .lambda params h => by
    have hnames := isProper_of_namesTokens .colon rfl params
    have hts := Phrase.isProper h
    simpa [isProper, or_imp, forall_and] using And.intro hnames hts

theorem ItemPhrases.isProper {close : Symbol} {ts : List Token} {es : List Expr} :
    ItemPhrases close ts es → (symbol close).isProper → ∀ t ∈ ts, t.isProper
  | .nil _, hclose => by simpa using hclose
  | .last h, hclose => by
    have hts := Phrase.isProper h
    simpa [or_imp, forall_and] using And.intro hts hclose
  | .cons h hs, hclose => by
    have hts := Phrase.isProper h
    have hus := ItemPhrases.isProper hs hclose
    simpa [isProper, or_imp, forall_and] using And.intro hts hus

end

/-! ## Whole texts -/

theorem read_ne_finish (c : Char) (s : List Char) : (Token.read c s).1 ≠ finish := by
  unfold Token.read
  split
  · split <;> intro h <;> cases h
  · split
    · simp only [readNumber_eq, NumberParts.token]
      split
      · intro h
        cases h
      · split <;> intro h <;> cases h
    · split
      · simp only [readWord]
        split <;> intro h <;> cases h
      · simp only [readSymbol]
        split <;> intro h <;> cases h

/-- The last token is the end of the text. -/
theorem map_token_lexFrom (position : Nat) (s : List Char) :
    (lexFrom position s).map PlacedToken.token = kinds s ++ [finish] ∧ finish ∉ kinds s := by
  fun_induction lexFrom position s with
  | case1 position => exact ⟨by rw [kinds_nil]; rfl, kinds_nil ▸ List.not_mem_nil⟩
  | case2 position c s hblank ih => rwa [kinds_cons_of_isBlank hblank]
  | case3 position c s hblank token count hread stop ih =>
    have htoken := read_ne_finish c s
    rw [kinds_cons (by simpa using hblank)]
    rw [hread] at htoken ⊢
    exact ⟨congrArg (token :: ·) ih.1, fun hmem => (List.mem_cons.mp hmem).elim
      (fun h => htoken h.symm) ih.2⟩

/-- What is left where a whole text has been read is its end. -/
theorem eq_kinds_of_expectFinish {s : List Char} {used : List Token} {rest : List PlacedToken}
    (hused : Uses (lex s) used rest) (hproper : ∀ t ∈ used, t.isProper)
    (h : expectFinish rest = .ok ()) : used = kinds s := by
  obtain ⟨hlex, hnot⟩ := map_token_lexFrom 0 s
  rw [Uses, lex, hlex] at hused
  cases rest with
  | nil =>
    have hmem : finish ∈ used := by
      rw [List.map_nil, List.append_nil] at hused
      simp [← hused]
    exact absurd (hproper _ hmem) (by decide)
  | cons t rest =>
    rw [expectFinish] at h
    split at h
    · next hfinish =>
      rw [List.map_cons, hfinish] at hused
      exact ((List.append_cons_inj_of_notMem hnot List.not_mem_nil).mp hused).1.symm
    · cases h

theorem tokens_eq_lex {s : List Char} {all : List PlacedToken} (h : tokens s = .ok all) :
    all = lex s := by
  unfold tokens at h
  dsimp only at h
  split at h
  · cases h
  · exact (Except.ok.inj h).symm

/-- The tokens of a text that is read as an expression make up this expression. -/
theorem phrase_of_parseExpr {s : List Char} {e : Expr} (h : parseExpr s = .ok e) :
    Phrase (kinds s) e := by
  obtain ⟨all, hall, h⟩ := bind_eq_ok_iff.mp h
  obtain ⟨parsed, hparsed, h⟩ := bind_eq_ok_iff.mp h
  obtain ⟨_, hfinish, h⟩ := bind_eq_ok_iff.mp h
  cases h
  obtain rfl := tokens_eq_lex hall
  obtain ⟨used, hused, hphrase⟩ := phrase_of_readExpr hparsed
  rwa [eq_kinds_of_expectFinish hused hphrase.isProper hfinish] at hphrase

end Parser
end TableQuery
