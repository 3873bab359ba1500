import TableQuery.Proofs.Expression.Places

/-!
# Where faults stand

A reader of tokens either leaves some of them, always with the end of the text among them, or
it refuses one of them where it stands.  It never reads past the end of the text, so that there
always is a token to be refused.  Hence the place of a syntax error is the place of a token,
whatever a text is read as.
-/

namespace TableQuery
namespace Parser

open Token hiding text
open Text.Utf8

variable {α β : Type} {n m : Nat} {tokens rest : List PlacedToken}

/-! ## Faults at tokens -/

/-- Whether the last of some tokens is the end of the text. -/
def Ended (tokens : List PlacedToken) : Prop :=
  ∃ t ∈ tokens.getLast?, t.token = finish

/-- A token before the end of the text has tokens behind it. -/
theorem Ended.tail {t : PlacedToken} (h : Ended (t :: rest)) (ht : t.token ≠ finish) :
    Ended rest := by
  cases rest with
  | nil =>
    obtain ⟨_, ⟨⟩, hfinish⟩ := h
    exact absurd hfinish ht
  | cons u rest => rwa [Ended, List.getLast?_cons_cons] at h

/-- Whether tokens are left of others, up to the end of the text. -/
structure Remains (tokens rest : List PlacedToken) : Prop where
  suffix : rest <:+ tokens
  ended : Ended rest

theorem Remains.refl (h : Ended rest) : Remains rest rest :=
  ⟨List.suffix_rfl, h⟩

theorem Remains.cons {t : PlacedToken} (h : Remains tokens rest) : Remains (t :: tokens) rest :=
  ⟨h.suffix.trans (List.suffix_cons t tokens), h.ended⟩

/-- Whether a computation gives something with a property, or refuses one of some tokens where it
stands. -/
def Answers (tokens : List PlacedToken) (P : α → Prop) : Except SyntaxError α → Prop
  | .ok a => P a
  | .error e => ∃ t ∈ tokens, e.span = t.span

theorem Answers.bind {P : α → Prop} {Q : β → Prop} {x : Except SyntaxError α}
    {f : α → Except SyntaxError β} (hx : Answers tokens P x)
    (hf : ∀ a, P a → Answers tokens Q (f a)) : Answers tokens Q (x >>= f) := by
  cases x with
  | error e => exact hx
  | ok a => exact hf a hx

theorem Answers.mono {P Q : α → Prop} {x : Except SyntaxError α} (hsuffix : rest <:+ tokens)
    (hPQ : ∀ a, P a → Q a) (h : Answers rest P x) : Answers tokens Q x := by
  cases x with
  | error e =>
    obtain ⟨t, ht, hspan⟩ := h
    exact ⟨t, hsuffix.mem ht, hspan⟩
  | ok a => exact hPQ a h

/-- Whether a reader leaves some of its tokens or refuses one of them. -/
def StaysWithin (tokens : List PlacedToken) (x : Except SyntaxError (Parsed α n)) : Prop :=
  Answers tokens (fun parsed => Remains tokens parsed.rest) x

theorem staysWithin_ok {a : α} {hlt : rest.length < n} (h : Remains tokens rest) :
    StaysWithin tokens (.ok ⟨a, rest, hlt⟩) :=
  h

/-- A reader that gives a value without another token leaves all of its tokens. -/
theorem staysWithin_rest {a : α} {hlt : rest.length < n} (h : Ended rest) :
    StaysWithin rest (.ok ⟨a, rest, hlt⟩) :=
  staysWithin_ok (.refl h)

theorem staysWithin_unexpected {wanted : Expected} (h : Ended tokens) :
    StaysWithin (α := α) (n := n) tokens (.error (unexpected wanted tokens)) := by
  cases tokens with
  | nil => obtain ⟨_, ⟨⟩, _⟩ := h
  | cons t rest => exact ⟨t, List.mem_cons_self, rfl⟩

theorem StaysWithin.of_suffix {x : Except SyntaxError (Parsed α n)} (hsuffix : rest <:+ tokens)
    (h : StaysWithin rest x) : StaysWithin tokens x :=
  h.mono hsuffix fun _ hrest => ⟨hrest.suffix.trans hsuffix, hrest.ended⟩

theorem StaysWithin.cons {x : Except SyntaxError (Parsed α n)} {t : PlacedToken}
    (h : StaysWithin rest x) : StaysWithin (t :: rest) x :=
  h.of_suffix (List.suffix_cons t rest)

/-- Two readers stay within their tokens, if the second one goes on with what the first one
leaves. -/
theorem StaysWithin.bind {x : Except SyntaxError (Parsed α n)}
    {f : Parsed α n → Except SyntaxError (Parsed β m)} (hx : StaysWithin tokens x)
    (hf : ∀ a rest hlt, Ended rest → StaysWithin rest (f ⟨a, rest, hlt⟩)) :
    StaysWithin tokens (x >>= f) :=
  Answers.bind hx fun ⟨a, rest, hlt⟩ hrest => (hf a rest hlt hrest.ended).of_suffix hrest.suffix

/-! ## Single tokens and names -/

theorem staysWithin_expect {token : Token} {wanted : Expected} (htoken : token ≠ finish)
    (h : Ended tokens) : StaysWithin tokens (expect token wanted tokens) := by
  cases tokens with
  | nil => exact staysWithin_unexpected h
  | cons t rest =>
    rw [expect]
    split
    · next heq => exact (staysWithin_rest (h.tail (heq ▸ htoken))).cons
    · exact staysWithin_unexpected h

theorem staysWithin_expectSymbol (s : Symbol) (h : Ended tokens) :
    StaysWithin tokens (expectSymbol s tokens) :=
  staysWithin_expect nofun h

theorem staysWithin_expectKeyword (k : Keyword) (h : Ended tokens) :
    StaysWithin tokens (expectKeyword k tokens) :=
  staysWithin_expect nofun h

theorem staysWithin_expectName (h : Ended tokens) : StaysWithin tokens (expectName tokens) := by
  unfold expectName
  split
  · exact (staysWithin_rest (h.tail nofun)).cons
  · exact staysWithin_unexpected h

theorem staysWithin_readNames {tokens : List PlacedToken} (close : Symbol) (h : Ended tokens) :
    StaysWithin tokens (readNames close tokens) := by
  rw [readNames]
  refine (staysWithin_expectName h).bind fun first rest hlt h => ?_
  dsimp only
  split
  · next rest hlt =>
    refine StaysWithin.cons ((staysWithin_readNames close (h.tail nofun)).bind ?_)
    exact fun others rest hlt h => staysWithin_rest h
  · refine (staysWithin_expectSymbol close h).bind ?_
    exact fun _ rest hlt h => staysWithin_rest h
termination_by tokens.length
decreasing_by grind

theorem staysWithin_readParams (close : Symbol) (h : Ended tokens) :
    StaysWithin tokens (readParams close tokens) := by
  unfold readParams
  split
  · split
    · next heq =>
      have hclose := h.tail (heq ▸ nofun)
      exact (staysWithin_rest hclose).cons
    · exact staysWithin_readNames close h
  · exact staysWithin_readNames close h

theorem remains_of_operator? {parsed : Parsed BinaryOp tokens.length} (h : Ended tokens)
    (hop : operator? tokens = some parsed) : Remains tokens parsed.rest := by
  unfold operator? at hop
  split at hop
  · cases hop
    exact .cons (.cons (.refl ((h.tail nofun).tail nofun)))
  · obtain ⟨op, hspells, rfl⟩ := Option.map_eq_some_iff.mp hop
    have hproper := isProper_of_operatorOf? hspells
    exact .cons (.refl (h.tail fun hfinish => by simp [hfinish, isProper] at hproper))
  · cases hop

theorem remains_of_prefixOp? {parsed : Parsed (UnaryOp × Strength) tokens.length}
    (h : Ended tokens) (hop : prefixOp? tokens = some parsed) : Remains tokens parsed.rest := by
  unfold prefixOp? at hop
  split at hop <;> cases hop
  all_goals exact .cons (.refl (h.tail nofun))

theorem staysWithin_readIsNull (h : Ended tokens) : StaysWithin tokens (readIsNull tokens) := by
  unfold readIsNull
  split
  · exact (staysWithin_rest ((h.tail nofun).tail nofun)).cons.cons
  · exact (staysWithin_rest ((h.tail nofun).tail nofun)).cons.cons
  · exact (staysWithin_rest (h.tail nofun)).cons
  · exact (staysWithin_rest (h.tail nofun)).cons
  · exact StaysWithin.cons (staysWithin_unexpected (h.tail nofun))
  · exact staysWithin_unexpected h

/-! ## Expressions -/

-- There is one case for each rule of the grammar, by the number of tokens left as in the rules
-- themselves.  The name `h` always stands for the fact that the tokens left go on to the end.
mutual

theorem staysWithin_readExpr {tokens : List PlacedToken} (h : Ended tokens) :
    StaysWithin tokens (readExpr tokens) := by
  unfold readExpr
  split
  · refine StaysWithin.cons ((staysWithin_readParams _ (h.tail nofun)).bind ?_)
    refine fun params rest hlt h => (staysWithin_readExpr h).bind ?_
    exact fun body rest hlt h => staysWithin_rest h
  · refine (staysWithin_readBinary .lowest h).bind fun chosen rest hlt h => ?_
    dsimp only
    split
    · next rest hlt =>
      refine StaysWithin.cons ((staysWithin_readBinary .lowest (h.tail nofun)).bind ?_)
      refine fun condition rest hlt h => (staysWithin_expectKeyword _ h).bind ?_
      refine fun _ rest hlt h => (staysWithin_readExpr h).bind ?_
      exact fun otherwise rest hlt h => staysWithin_rest h
    · exact staysWithin_rest h
termination_by 8 * tokens.length + 6
decreasing_by all_goals first | omega | grind

theorem staysWithin_readBinary {tokens : List PlacedToken} (least : Strength)
    (h : Ended tokens) : StaysWithin tokens (readBinary least tokens) := by
  rw [readBinary]
  refine (staysWithin_readUnary h).bind fun left rest hlt h => ?_
  refine (staysWithin_readOperators least left h).bind ?_
  exact fun e rest hlt h => staysWithin_rest h
termination_by 8 * tokens.length + 5
decreasing_by all_goals omega

theorem staysWithin_readOperators {tokens : List PlacedToken} (least : Strength) (left : Expr)
    (h : Ended tokens) : StaysWithin tokens (readOperators least left tokens) := by
  unfold readOperators
  split
  · exact staysWithin_rest h
  · next t rest =>
    split
    · next his =>
      have htail : Ended rest := h.tail (his.1 ▸ nofun)
      refine StaysWithin.cons ((staysWithin_readIsNull htail).bind fun negated rest hlt h => ?_)
      refine (staysWithin_readOperators least _ h).bind ?_
      exact fun e rest hlt h => staysWithin_rest h
    · split
      · exact staysWithin_rest h
      · next op rest' hlt hop =>
        split
        · exact staysWithin_rest h
        · have hremains := remains_of_operator? h hop
          refine StaysWithin.of_suffix hremains.suffix ?_
          refine (staysWithin_readBinary _ hremains.ended).bind fun right rest hlt h => ?_
          refine (staysWithin_readOperators least _ h).bind ?_
          exact fun e rest hlt h => staysWithin_rest h
termination_by 8 * tokens.length
decreasing_by all_goals first | omega | grind

theorem staysWithin_readUnary {tokens : List PlacedToken} (h : Ended tokens) :
    StaysWithin tokens (readUnary tokens) := by
  unfold readUnary
  split
  · next op least rest hlt hop =>
    have hremains := remains_of_prefixOp? h hop
    refine StaysWithin.of_suffix hremains.suffix ?_
    refine (staysWithin_readBinary least hremains.ended).bind ?_
    exact fun operand rest hlt h => staysWithin_rest h
  · refine (staysWithin_readPrimary h).bind fun base rest hlt h => ?_
    refine (staysWithin_readPostfix base h).bind ?_
    exact fun e rest hlt h => staysWithin_rest h
termination_by 8 * tokens.length + 4
decreasing_by all_goals omega

theorem staysWithin_readPostfix {tokens : List PlacedToken} (base : Expr) (h : Ended tokens) :
    StaysWithin tokens (readPostfix base tokens) := by
  unfold readPostfix
  split
  · refine StaysWithin.cons ((staysWithin_expectName (h.tail nofun)).bind ?_)
    refine fun name rest hlt h => ?_
    dsimp only
    split
    · refine StaysWithin.cons ((staysWithin_readItems _ (h.tail nofun)).bind ?_)
      refine fun args rest hlt h => (staysWithin_readPostfix _ h).bind ?_
      exact fun e rest hlt h => staysWithin_rest h
    · refine (staysWithin_readPostfix _ h).bind ?_
      exact fun e rest hlt h => staysWithin_rest h
  · refine StaysWithin.cons ((staysWithin_readExpr (h.tail nofun)).bind ?_)
    refine fun index rest hlt h => (staysWithin_expectSymbol _ h).bind ?_
    refine fun _ rest hlt h => (staysWithin_readPostfix _ h).bind ?_
    exact fun e rest hlt h => staysWithin_rest h
  · split
    · refine StaysWithin.cons ((staysWithin_readItems _ (h.tail nofun)).bind ?_)
      refine fun args rest hlt h => (staysWithin_readPostfix _ h).bind ?_
      exact fun e rest hlt h => staysWithin_rest h
    · exact ⟨_, List.mem_cons_self, rfl⟩
  · exact staysWithin_rest h
termination_by 8 * tokens.length
decreasing_by all_goals first | omega | grind

theorem staysWithin_readPrimary {tokens : List PlacedToken} (h : Ended tokens) :
    StaysWithin tokens (readPrimary tokens) := by
  unfold readPrimary
  split
  · refine StaysWithin.cons ((staysWithin_readExpr (h.tail nofun)).bind ?_)
    refine fun e rest hlt h => (staysWithin_expectSymbol _ h).bind ?_
    exact fun _ rest hlt h => staysWithin_rest h
  · refine StaysWithin.cons ((staysWithin_readItems _ (h.tail nofun)).bind ?_)
    exact fun items rest hlt h => staysWithin_rest h
  · split
    · next hatom =>
      have hproper := isProper_of_atom? hatom
      have htail := h.tail fun hfinish => by simp [hfinish, isProper] at hproper
      exact (staysWithin_rest htail).cons
    · exact staysWithin_unexpected h
  · exact staysWithin_unexpected h
termination_by 8 * tokens.length + 2
decreasing_by all_goals first | omega | grind

theorem staysWithin_readItems {tokens : List PlacedToken} (close : Symbol) (h : Ended tokens) :
    StaysWithin tokens (readItems close tokens) := by
  unfold readItems
  split
  · exact staysWithin_unexpected h
  · split
    · next hclose => exact (staysWithin_rest (h.tail (hclose ▸ nofun))).cons
    · refine (staysWithin_readExpr h).bind fun first rest hlt h => ?_
      dsimp only
      split
      · refine StaysWithin.cons ((staysWithin_readItems close (h.tail nofun)).bind ?_)
        exact fun others rest hlt h => staysWithin_rest h
      · refine (staysWithin_expectSymbol close h).bind ?_
        exact fun _ rest hlt h => staysWithin_rest h
termination_by 8 * tokens.length + 7
decreasing_by all_goals first | omega | grind

end

/-! ## Lists and definitions -/

theorem staysWithin_readList {item : (tokens : List PlacedToken) → Reading α tokens}
    (hitem : ∀ tokens, Ended tokens → StaysWithin tokens (item tokens))
    {tokens : List PlacedToken} (h : Ended tokens) :
    StaysWithin tokens (readList item tokens) := by
  rw [readList]
  refine (hitem tokens h).bind fun first rest hlt h => ?_
  dsimp only
  split
  · refine StaysWithin.cons ((staysWithin_readList hitem (h.tail nofun)).bind ?_)
    exact fun others rest hlt h => staysWithin_rest h
  · exact staysWithin_rest h
termination_by tokens.length
decreasing_by grind

theorem remains_of_star? {parsed : Parsed Star tokens.length} (h : Ended tokens)
    (hstar : star? tokens = some parsed) : Remains tokens parsed.rest := by
  unfold star? at hstar
  split at hstar
  · cases hstar
    exact .cons (.refl (h.tail nofun))
  · have hremains := ((h.tail nofun).tail nofun).tail nofun
    split at hstar
    · cases hstar
      exact .cons (.cons (.cons (.refl hremains)))
    · split at hstar
      · cases hstar
        exact .cons (.cons (.cons (.refl hremains)))
      · cases hstar
  · cases hstar

theorem staysWithin_readSelectItem (h : Ended tokens) :
    StaysWithin tokens (readSelectItem tokens) := by
  unfold readSelectItem
  split
  · next star hstar => exact staysWithin_ok (remains_of_star? h hstar)
  · refine (staysWithin_readExpr h).bind fun e rest hlt h => ?_
    dsimp only
    split
    · refine StaysWithin.cons ((staysWithin_expectName (h.tail nofun)).bind ?_)
      exact fun name rest hlt h => staysWithin_rest h
    · exact staysWithin_rest h

theorem staysWithin_readDefinitionParams (h : Ended tokens) :
    StaysWithin tokens (readDefinitionParams tokens) := by
  unfold readDefinitionParams
  split
  · refine StaysWithin.cons ((staysWithin_readParams _ (h.tail nofun)).bind ?_)
    exact fun params rest hlt h => staysWithin_rest h
  · exact staysWithin_rest h

theorem staysWithin_readDefinition (h : Ended tokens) :
    StaysWithin tokens (readDefinition tokens) := by
  rw [readDefinition]
  refine (staysWithin_expectName h).bind fun name rest hlt h => ?_
  refine (staysWithin_readDefinitionParams h).bind fun params rest hlt h => ?_
  refine (staysWithin_expectSymbol _ h).bind fun _ rest hlt h => ?_
  refine (staysWithin_readExpr h).bind fun body rest hlt h => ?_
  exact staysWithin_rest h

theorem answers_readDefinitions (h : Ended tokens) :
    Answers tokens (fun _ => True) (readDefinitions tokens) := by
  fun_induction readDefinitions tokens with
  | case1 => trivial
  | case2 => trivial
  | case3 span rest ih =>
    exact (ih (h.tail nofun)).mono (List.suffix_cons _ rest) fun _ => id
  | case4 t rest hfinish hsemicolon ih =>
    refine Answers.bind (staysWithin_readDefinition h) fun parsed hrest => ?_
    have hothers := ih parsed.rest parsed.within hrest.ended
    exact (hothers.mono hrest.suffix fun _ => id).bind fun _ _ => trivial

/-! ## Whole texts -/

theorem ended_lex (s : List Char) : Ended (lex s) := by
  obtain ⟨front, hlex, -⟩ := exists_tiles_lex s
  rw [hlex, Ended, List.getLast?_append]
  exact ⟨_, rfl, rfl⟩

theorem answers_tokens (s : List Char) : Answers (lex s) (· = lex s) (Parser.tokens s) := by
  unfold Parser.tokens
  dsimp only
  split
  · next e others hfaults =>
    have hmem : e ∈ e :: others := List.mem_cons_self
    rw [← hfaults] at hmem
    obtain ⟨t, ht, hfault⟩ := List.mem_filterMap.mp hmem
    split at hfault
    · cases hfault
      exact ⟨t, ht, rfl⟩
    · cases hfault
  · rfl

theorem answers_expectFinish (h : Ended tokens) :
    Answers tokens (fun _ => True) (expectFinish tokens) := by
  unfold expectFinish
  split
  · trivial
  · split
    · trivial
    · exact ⟨_, List.mem_cons_self, rfl⟩

/-- A text that is read as a whole by a reader is refused at one of its tokens. -/
theorem answers_whole {read : (tokens : List PlacedToken) → Reading α tokens}
    (hread : ∀ tokens, Ended tokens → StaysWithin tokens (read tokens)) (s : List Char) :
    Answers (lex s) (fun _ => True) (do
      let parsed ← read (← Parser.tokens s)
      expectFinish parsed.rest
      return parsed.value) := by
  refine (answers_tokens s).bind ?_
  rintro _ rfl
  refine Answers.bind (hread _ (ended_lex s)) fun parsed hrest => ?_
  have hfinish := answers_expectFinish hrest.ended
  exact (hfinish.mono hrest.suffix fun _ => id).bind fun _ _ => trivial

theorem answers_parseExpr (s : List Char) : Answers (lex s) (fun _ => True) (parseExpr s) :=
  answers_whole (fun _ => staysWithin_readExpr) s

theorem answers_parseExprs (s : List Char) : Answers (lex s) (fun _ => True) (parseExprs s) :=
  answers_whole (fun _ => staysWithin_readList fun _ => staysWithin_readExpr) s

theorem answers_parseSelect (s : List Char) : Answers (lex s) (fun _ => True) (parseSelect s) :=
  answers_whole (fun _ => staysWithin_readList fun _ => staysWithin_readSelectItem) s

theorem answers_parseDefinitions (s : List Char) :
    Answers (lex s) (fun _ => True) (parseDefinitions s) := by
  refine (answers_tokens s).bind ?_
  rintro _ rfl
  exact answers_readDefinitions (ended_lex s)

theorem isWithin_of_answers {s : List Char} {P : α → Prop} {x : Except SyntaxError α}
    {e : SyntaxError} (hx : Answers (lex s) P x) (h : x = .error e) : e.span.IsWithin s := by
  rw [h] at hx
  obtain ⟨t, ht, hspan⟩ := hx
  rw [hspan]
  exact isWithin_of_mem_lex ht

/-- The tokens of a text stand in order at words with nothing but white space around them, and
what a text is refused for stands in the text. -/
theorem lex_tiles_and_error_isWithin (s : List Char) :
    (∃ front, lex s = front ++ [⟨finish, ⟨size s, size s⟩⟩] ∧
      (∀ t ∈ front, t.token ≠ finish ∧ t.span.start < t.span.stop ∧ t.span.IsWithin s) ∧
      (front.Pairwise fun t u => t.span.stop ≤ u.span.start) ∧
      ∀ before c behind, s = before ++ c :: behind →
        (∀ t ∈ front, ¬(t.span.start ≤ size before ∧ size before < t.span.stop)) →
        Text.isBlank c) ∧
    ∀ e, (parseExpr s = .error e ∨ parseExprs s = .error e ∨ parseSelect s = .error e ∨
      parseDefinitions s = .error e) → e.span.IsWithin s := by
  constructor
  · obtain ⟨front, hlex, htiles⟩ := exists_tiles_lex s
    refine ⟨front, hlex, fun t => htiles.isWithin, htiles.pairwise, ?_⟩
    intro before c behind hs hout
    refine htiles.isBlank_of_outside hs ?_
    rwa [Nat.zero_add]
  · rintro e (h | h | h | h)
    · exact isWithin_of_answers (answers_parseExpr s) h
    · exact isWithin_of_answers (answers_parseExprs s) h
    · exact isWithin_of_answers (answers_parseSelect s) h
    · exact isWithin_of_answers (answers_parseDefinitions s) h

/-- A character of two bytes that is no token is refused with both of its bytes. -/
theorem lex_tiles_and_error_isWithin_two_bytes :
    let s := ['a', ' ', 'é']
    let e : SyntaxError := ⟨.lexical (.unexpectedCharacter 'é'), ⟨2, 4⟩⟩
    parseExpr s = .error e ∧ e.span.IsWithin s := by
  intro s e
  have hlex : lex s = [⟨name "a", ⟨0, 1⟩⟩, ⟨fault (.unexpectedCharacter 'é'), ⟨2, 4⟩⟩,
      ⟨finish, ⟨4, 4⟩⟩] := by decide +kernel
  have h : parseExpr s = .error e := by
    rw [parseExpr, Parser.tokens, hlex]
    rfl
  exact ⟨h, (lex_tiles_and_error_isWithin s).2 e (.inl h)⟩

end Parser
end TableQuery
