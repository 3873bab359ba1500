import TableQuery.Proofs.Expression.TokenChars
import TableQuery.Proofs.Query.AggregateFree
import TableQuery.Proofs.Query.Equality
import TableQuery.Proofs.Query.Fragments
import TableQuery.Proofs.Query.Literals
import TableQuery.Query.Assignments

/-!
# Lists of assignments

An update clause is divided at its commas and equals signs before anything of it is read as
an expression.  A text that is read as an expression closes every bracket that it opens,
keeps its commas in brackets, and has equals signs in comparisons only.  Hence a list of
assignments is divided exactly where it was put together.
-/

namespace TableQuery

open Token hiding text

/-! ## Brackets and commas -/

/-- The depth in brackets behind some items, unless a comma stands outside of brackets. -/
def depthBehind? {α : Type} (isComma : α → Bool) (nesting : α → Int) (depth : Int) :
    List α → Option Int
  | [] => some depth
  | a :: items =>
    if isComma a && depth == 0 then none
    else depthBehind? isComma nesting (depth + nesting a) items

theorem depthBehind?_append {α : Type} {isComma : α → Bool} {nesting : α → Int}
    {items : List α} {depth depth' : Int}
    (h : depthBehind? isComma nesting depth items = some depth') (others : List α) :
    depthBehind? isComma nesting depth (items ++ others) =
      depthBehind? isComma nesting depth' others := by
  induction items generalizing depth with
  | nil =>
    cases h
    rfl
  | cons a items ih =>
    rw [depthBehind?] at h
    split at h
    · cases h
    · next hcomma => rw [List.cons_append, depthBehind?, if_neg hcomma, ih h]

theorem depthBehind?_append_of_neutral {α : Type} {isComma : α → Bool} {nesting : α → Int}
    {items : List α} (h : ∀ a ∈ items, isComma a = false ∧ nesting a = 0) (depth : Int)
    (others : List α) :
    depthBehind? isComma nesting depth (items ++ others) =
      depthBehind? isComma nesting depth others := by
  induction items with
  | nil => rfl
  | cons a items ih =>
    obtain ⟨⟨hcomma, hnesting⟩, hitems⟩ := List.forall_mem_cons.mp h
    rw [List.cons_append, depthBehind?, hcomma, hnesting, Int.add_zero]
    exact ih hitems

namespace Token

/-- Whether a token is a comma. -/
def isComma : Token → Bool
  | symbol .comma => true
  | _ => false

/-- How much deeper in brackets a text is behind a token. -/
def nesting : Token → Int
  | symbol .openParen | symbol .openBracket => 1
  | symbol .closeParen | symbol .closeBracket => -1
  | _ => 0

/-- Whether a token is neither a comma nor a bracket. -/
def IsNeutral (t : Token) : Prop :=
  t.isComma = false ∧ t.nesting = 0

theorem isNeutral_of_ne_symbol {t : Token} (h : ∀ sy, t ≠ symbol sy) : t.IsNeutral := by
  cases t with
  | symbol sy => exact absurd rfl (h sy)
  | _ => exact ⟨rfl, rfl⟩

/-- The depth in brackets behind tokens, unless a comma stands outside of brackets. -/
def depth? : Int → List Token → Option Int :=
  depthBehind? isComma nesting

variable {t : Token} {depth : Int} {close : Symbol}

theorem depth?_append_of_isNeutral {tokens : List Token} (h : ∀ t ∈ tokens, t.IsNeutral)
    (depth : Int) (others : List Token) : depth? depth (tokens ++ others) = depth? depth others :=
  depthBehind?_append_of_neutral h depth others

theorem depth?_cons_of_isNeutral (h : t.IsNeutral) (depth : Int) (tokens : List Token) :
    depth? depth (t :: tokens) = depth? depth tokens :=
  depth?_append_of_isNeutral (List.forall_mem_singleton.mpr h) depth tokens

theorem depth?_cons (h : t.isComma = false) (depth : Int) (tokens : List Token) :
    depth? depth (t :: tokens) = depth? (depth + t.nesting) tokens := by
  rw [depth?, depthBehind?, h]
  rfl

theorem depth?_comma (hdepth : 0 ≤ depth) (tokens : List Token) :
    depth? (depth + 1) (symbol .comma :: tokens) = depth? (depth + 1) tokens := by
  rw [depth?, depthBehind?, if_neg]
  · exact congrArg (depthBehind? _ _ · tokens) (Int.add_zero _)
  · simp only [Bool.and_eq_true, beq_iff_eq, not_and]
    omega

theorem depth?_close (hclose : close = .closeParen ∨ close = .closeBracket) (depth : Int)
    (tokens : List Token) : depth? (depth + 1) (symbol close :: tokens) = depth? depth tokens := by
  rcases hclose with rfl | rfl <;> rw [depth?_cons rfl] <;>
    exact congrArg (depth? · tokens) (Int.add_sub_cancel depth 1)

end Token

namespace Parser

theorem isNeutral_of_atom? {t : Token} {e : Expr} (h : atom? t = some e) : t.IsNeutral := by
  unfold atom? at h
  split at h <;> first | exact ⟨rfl, rfl⟩ | cases h

theorem isNeutral_of_prefixTokens (op : UnaryOp) : ∀ t ∈ prefixTokens op, t.IsNeutral := by
  cases op <;> simp [prefixTokens, IsNeutral, isComma, nesting]

theorem isNeutral_of_spellsOperator {op : BinaryOp} {ts : List Token} (h : SpellsOperator op ts) :
    ∀ t ∈ ts, t.IsNeutral := by
  rcases h with ⟨t, rfl, ht⟩ | ⟨rfl, -⟩
  · rw [List.forall_mem_singleton]
    unfold operatorOf? at ht
    split at ht <;> first | exact ⟨rfl, rfl⟩ | cases ht
  · simp [IsNeutral, isComma, nesting]

theorem isNeutral_of_nullTests (negated : Bool) :
    ∀ ts ∈ nullTests negated, ∀ t ∈ ts, t.IsNeutral := by
  cases negated <;> simp [nullTests, IsNeutral, isComma, nesting]

mutual

/-- An expression without functions closes its brackets and keeps its commas in them. -/
theorem Phrase.depth?_append {ts : List Token} {e : Expr} {depth : Int} (hdepth : 0 ≤ depth)
    (rest : List Token) : Phrase ts e → e.hasLambda = false →
      depth? depth (ts ++ rest) = depth? depth rest
  | .atom h, _ => depth?_cons_of_isNeutral (isNeutral_of_atom? h) depth rest
  | .paren h, he => by
    rw [List.cons_append, List.append_assoc, depth?_cons rfl, nesting,
      Phrase.depth?_append (Int.le_add_one hdepth) _ h he]
    exact depth?_close (.inl rfl) depth rest
  | .list h, he => by
    rw [List.cons_append, depth?_cons rfl]
    exact ItemPhrases.depth?_append hdepth rest h (.inr rfl) he
  | .attribute s h, he => by
    rw [List.append_assoc, Phrase.depth?_append hdepth _ h he]
    exact depth?_append_of_isNeutral (by simp [IsNeutral, isComma, nesting]) depth rest
  | .method f h hs, he => by
    obtain ⟨hbase, hargs⟩ := Bool.or_eq_false_iff.mp he
    rw [List.append_assoc, Phrase.depth?_append hdepth _ h hbase, List.cons_append,
      List.cons_append, List.cons_append, depth?_cons_of_isNeutral ⟨rfl, rfl⟩,
      depth?_cons_of_isNeutral ⟨rfl, rfl⟩, depth?_cons rfl]
    exact ItemPhrases.depth?_append hdepth rest hs (.inl rfl) hargs
  | .call h hs, he => by
    rw [List.append_assoc, Phrase.depth?_append hdepth _ h rfl, List.cons_append,
      depth?_cons rfl]
    exact ItemPhrases.depth?_append hdepth rest hs (.inl rfl) he
  | .index h h', he => by
    obtain ⟨hbase, hi⟩ := Bool.or_eq_false_iff.mp he
    rw [List.append_assoc, Phrase.depth?_append hdepth _ h hbase, List.cons_append,
      depth?_cons rfl, List.append_assoc, nesting,
      Phrase.depth?_append (Int.le_add_one hdepth) _ h' hi]
    exact depth?_close (.inr rfl) depth rest
  | .unary hop h, he => by
    rw [List.cons_append, depth?_cons_of_isNeutral (isNeutral_of_prefixTokens _ _ hop)]
    exact Phrase.depth?_append hdepth rest h he
  | .binary h hop h', he => by
    obtain ⟨hleft, hright⟩ := Bool.or_eq_false_iff.mp he
    rw [List.append_assoc, Phrase.depth?_append hdepth _ h hleft, List.append_assoc,
      depth?_append_of_isNeutral (isNeutral_of_spellsOperator hop)]
    exact Phrase.depth?_append hdepth rest h' hright
  | .isNull h htest, he => by
    rw [List.append_assoc, Phrase.depth?_append hdepth _ h he]
    exact depth?_append_of_isNeutral (isNeutral_of_nullTests _ _ htest) depth rest
  | .choice h h' h'', he => by
    obtain ⟨he, hotherwise⟩ := Bool.or_eq_false_iff.mp he
    obtain ⟨hcondition, hchosen⟩ := Bool.or_eq_false_iff.mp he
    rw [List.append_assoc, Phrase.depth?_append hdepth _ h hchosen, List.cons_append,
      depth?_cons_of_isNeutral ⟨rfl, rfl⟩, List.append_assoc,
      Phrase.depth?_append hdepth _ h' hcondition, List.cons_append,
      depth?_cons_of_isNeutral ⟨rfl, rfl⟩]
    exact Phrase.depth?_append hdepth rest h'' hotherwise
  | .lambda _ _, he => nomatch he

theorem ItemPhrases.depth?_append {close : Symbol} {ts : List Token} {es : List Expr} {depth : Int}
    (hdepth : 0 ≤ depth) (rest : List Token) :
    ItemPhrases close ts es → (close = .closeParen ∨ close = .closeBracket) →
      Expr.anyHasLambda es = false → depth? (depth + 1) (ts ++ rest) = depth? depth rest
  | .nil _, hclose, _ => depth?_close hclose depth rest
  | .last h, hclose, hes => by
    obtain ⟨he, -⟩ := Bool.or_eq_false_iff.mp hes
    rw [List.append_assoc, Phrase.depth?_append (Int.le_add_one hdepth) _ h he]
    exact depth?_close hclose depth rest
  | .cons h hs, hclose, hes => by
    obtain ⟨he, hes⟩ := Bool.or_eq_false_iff.mp hes
    rw [List.append_assoc, Phrase.depth?_append (Int.le_add_one hdepth) _ h he, List.cons_append,
      depth?_comma hdepth]
    exact ItemPhrases.depth?_append hdepth rest hs hclose hes

end

end Parser

/-! ## Texts that are divided -/

namespace Assignment

variable {s t before : List Char} {c : Char}

/-- The depth in brackets behind a text, unless a comma stands outside of brackets. -/
def depth? : Int → List Char → Option Int :=
  depthBehind? (· == ',') nesting

/-- Whether a character is neither a comma nor a bracket nor an equals sign. -/
def IsNeutral (c : Char) : Prop :=
  ((c == ',') = false ∧ nesting c = 0) ∧ (c == '=') = false

theorem depth?_append_of_isNeutral (h : ∀ c ∈ s, IsNeutral c) (depth : Int) (t : List Char) :
    depth? depth (s ++ t) = depth? depth t :=
  depthBehind?_append_of_neutral (fun c hc => (h c hc).1) depth t

/-- A text is not divided where its commas stand in brackets. -/
theorem partsFrom_append {depth depth' : Int} (h : depth? depth s = some depth')
    (part t : List Char) : partsFrom depth part (s ++ t) = partsFrom depth' (part ++ s) t := by
  induction s generalizing depth part with
  | nil =>
    cases h
    rw [List.nil_append, List.append_nil]
  | cons c s ih =>
    rw [depth?, depthBehind?] at h
    split at h
    · cases h
    · next hcomma =>
      rw [List.cons_append, partsFrom, if_neg hcomma, ih h, List.append_assoc]
      rfl

/-- An equals sign that assigns is none of a comparison. -/
theorem divideFrom_cons (before : List Char) (h : (c == '=') = false) (s : List Char) :
    divideFrom before (c :: s) = divideFrom (c :: before) s := by
  rw [divideFrom, h]
  rfl

theorem divideFrom_append_of_isNeutral (h : ∀ c ∈ s, IsNeutral c) (before t : List Char) :
    divideFrom before (s ++ t) = divideFrom (s.reverse ++ before) t := by
  induction s generalizing before with
  | nil => rfl
  | cons c s ih =>
    obtain ⟨hc, hs⟩ := List.forall_mem_cons.mp h
    rw [List.cons_append, divideFrom_cons before hc.2, ih hs, List.reverse_cons, List.append_assoc]
    rfl

/-! ## Characters of tokens -/

/-- The characters that a text can be divided at, and the brackets. -/
def marks : List Char :=
  [',', '=', '(', ')', '[', ']', '\x7b', '\x7d']

theorem isNeutral_of_notMem_marks (h : c ∉ marks) : IsNeutral c := by
  simp only [marks, List.mem_cons, List.not_mem_nil, or_false, not_or] at h
  simp [IsNeutral, nesting, h]

theorem isNeutral_of_all (h : s.all (· ∉ marks)) : ∀ c ∈ s, IsNeutral c := fun c hc =>
  isNeutral_of_notMem_marks (of_decide_eq_true (List.all_eq_true.mp h c hc))

theorem isNeutral_of_all_marks {p : Char → Bool} (hp : marks.all (! p ·)) (h : p c) :
    IsNeutral c := by
  refine isNeutral_of_notMem_marks fun hmem => ?_
  have hnot := List.all_eq_true.mp hp c hmem
  rw [h] at hnot
  cases hnot

theorem isNeutral_of_isPlainPart (h : isPlainPart c) : IsNeutral c :=
  isNeutral_of_all_marks (by decide) h

theorem isNeutral_of_isBlank (h : Text.isBlank c) : IsNeutral c :=
  isNeutral_of_all_marks (by decide) h

theorem isNeutral_of_isPlaceholder (h : IsolatedQuery.IsPlaceholder s) : ∀ c ∈ s, IsNeutral c := by
  obtain ⟨digits, hdigits, rfl⟩ := h
  have hopen := isNeutral_of_all (s := IsolatedQuery.placeholderOpen) (by decide)
  have hclose := isNeutral_of_all (s := IsolatedQuery.placeholderClose) (by decide)
  simp only [List.forall_mem_append]
  exact ⟨⟨hopen, fun c hc => isNeutral_of_isPlainPart (isPlainPart_of_isDigit (hdigits c hc))⟩,
    hclose⟩

theorem mark_of_singleSymbol? {sy : Symbol} (h : singleSymbol? c = some sy) :
    (c == ',') = (symbol sy).isComma ∧ nesting c = (symbol sy).nesting ∧
      ((symbol sy).isProper → (c == '=') = false) := by
  unfold singleSymbol? at h
  split at h <;> cases h <;> decide

theorem mark_of_doubleSymbol? {d : Char} {sy : Symbol} (h : doubleSymbol? c d = some sy) :
    (symbol sy).IsNeutral ∧ ((c == ',') = false ∧ nesting c = 0) ∧
      ((d == ',') = false ∧ nesting d = 0) ∧
        (c = '=' ∧ d = '=' ∨ (c == '=') = false ∧ (isComparing c ∨ (d == '=') = false)) := by
  unfold doubleSymbol? at h
  split at h <;> cases h <;> refine ⟨⟨rfl, rfl⟩, ?_⟩ <;> decide

/-- The characters of a symbol have its effect on the depth. -/
theorem depth?_spelling {sy : Symbol} {run : List Char} (h : IsSpelling sy c run)
    {tokens : List Token} (hrest : ∀ depth, depth? depth s = Token.depth? depth tokens)
    (depth : Int) :
    depth? depth (c :: (run ++ s)) = Token.depth? depth (symbol sy :: tokens) := by
  rcases h with ⟨rfl, hsingle⟩ | ⟨d, rfl, hdouble⟩
  · obtain ⟨hcomma, hnesting, -⟩ := mark_of_singleSymbol? hsingle
    rw [List.nil_append, depth?, depthBehind?, hcomma, hnesting, Token.depth?, depthBehind?]
    exact congrArg (ite _ _) (hrest _)
  · obtain ⟨hsymbol, hc, hd, -⟩ := mark_of_doubleSymbol? hdouble
    rw [Token.depth?_cons_of_isNeutral hsymbol, ← hrest]
    have hneutral : ∀ e ∈ [c, d], (e == ',') = false ∧ nesting e = 0 :=
      List.forall_mem_cons.mpr ⟨hc, List.forall_mem_singleton.mpr hd⟩
    exact depthBehind?_append_of_neutral hneutral depth s

/-- The equals signs of a symbol assign nothing. -/
theorem divideFrom_spelling {sy : Symbol} {run : List Char} (h : IsSpelling sy c run)
    (hproper : (symbol sy).isProper) (before t : List Char) :
    divideFrom before (c :: (run ++ t)) = divideFrom (run.reverse ++ c :: before) t := by
  rcases h with ⟨rfl, hsingle⟩ | ⟨d, rfl, hdouble⟩
  · obtain ⟨-, -, hequals⟩ := mark_of_singleSymbol? hsingle
    exact divideFrom_cons before (hequals hproper) t
  · obtain ⟨-, -, -, ⟨rfl, rfl⟩ | ⟨hc, hd⟩⟩ := mark_of_doubleSymbol? hdouble
    · rw [List.singleton_append, divideFrom, if_neg (by simp), divideFrom,
        if_neg (by simp [isComparing])]
      rfl
    · rw [List.singleton_append, divideFrom_cons before hc, divideFrom, if_neg (by
        rcases hd with hd | hd <;> simp [hd])]
      rfl

/-! ## Texts that are read as expressions -/

/-- A text that shows the pieces of an expression is as deep in brackets as its tokens. -/
theorem depth?_of_shows {pieces : List Piece} (hwhole : ∀ piece ∈ pieces, piece.IsWhole)
    (hproper : ∀ t ∈ kinds (Piece.sources pieces), t.isProper)
    (hshows : IsolatedQuery.Shows s pieces) (depth : Int) :
    depth? depth s = Token.depth? depth (kinds (Piece.sources pieces)) := by
  revert hproper s depth
  refine Piece.kinds_induction (motive := fun pieces tokens => ∀ {s}, (∀ t ∈ tokens, t.isProper) →
    IsolatedQuery.Shows s pieces → ∀ depth, depth? depth s = Token.depth? depth tokens)
    ?nil ?blank ?run ?literal hwhole
  case nil =>
    intro s _ hshows depth
    cases hshows
    rfl
  case blank =>
    intro c pieces hblank ih s hproper hshows depth
    obtain ⟨s, rfl, hrest⟩ := hshows.exists_of_chars [c]
    rw [depth?_append_of_isNeutral (List.forall_mem_singleton.mpr (isNeutral_of_isBlank hblank))]
    exact ih hproper hrest depth
  case run =>
    intro c run pieces token hquote hread ih s hproper hshows depth
    obtain ⟨htoken, hothers⟩ := List.forall_mem_cons.mp hproper
    obtain ⟨s, rfl, hrest⟩ := hshows.exists_of_chars (c :: run)
    rcases chars_of_read hquote hread with ⟨sy, rfl, hspelling⟩ | ⟨f, rfl⟩ | ⟨hne, hplain⟩
    · exact depth?_spelling hspelling (fun depth => ih hothers hrest depth) depth
    · cases htoken
    · rw [depth?_append_of_isNeutral fun d hd => isNeutral_of_isPlainPart (hplain d hd),
        Token.depth?_cons_of_isNeutral (isNeutral_of_ne_symbol hne)]
      exact ih hothers hrest depth
  case literal =>
    intro index written content pieces ih s hproper hshows depth
    cases hshows with
    | literal _ _ hshown hshows =>
      rw [depth?_append_of_isNeutral (isNeutral_of_isPlaceholder hshown),
        Token.depth?_cons_of_isNeutral ⟨rfl, rfl⟩]
      exact ih (List.forall_mem_cons.mp hproper).2 hshows depth

/-- No equals sign of a text that shows the pieces of an expression assigns anything. -/
theorem divideFrom_of_shows {pieces : List Piece} (hwhole : ∀ piece ∈ pieces, piece.IsWhole)
    (hproper : ∀ t ∈ kinds (Piece.sources pieces), t.isProper)
    (hshows : IsolatedQuery.Shows s pieces) (before t : List Char) :
    divideFrom before (s ++ t) = divideFrom (s.reverse ++ before) t := by
  revert hproper s before
  refine Piece.kinds_induction (motive := fun pieces tokens => ∀ {s}, (∀ t ∈ tokens, t.isProper) →
    IsolatedQuery.Shows s pieces → ∀ before,
      divideFrom before (s ++ t) = divideFrom (s.reverse ++ before) t) ?nil ?blank ?run ?literal
    hwhole
  case nil =>
    intro s _ hshows before
    cases hshows
    rfl
  case blank =>
    intro c pieces hblank ih s hproper hshows before
    obtain ⟨s, rfl, hrest⟩ := hshows.exists_of_chars [c]
    rw [List.append_assoc, divideFrom_append_of_isNeutral
      (List.forall_mem_singleton.mpr (isNeutral_of_isBlank hblank)), ih hproper hrest,
      List.reverse_append, List.append_assoc]
  case run =>
    intro c run pieces token hquote hread ih s hproper hshows before
    obtain ⟨htoken, hothers⟩ := List.forall_mem_cons.mp hproper
    obtain ⟨s, rfl, hrest⟩ := hshows.exists_of_chars (c :: run)
    have hrun : divideFrom before (c :: (run ++ (s ++ t))) =
        divideFrom (run.reverse ++ c :: before) (s ++ t) := by
      rcases chars_of_read hquote hread with ⟨sy, rfl, hspelling⟩ | ⟨f, rfl⟩ | ⟨-, hplain⟩
      · exact divideFrom_spelling hspelling htoken before (s ++ t)
      · cases htoken
      · rw [← List.cons_append, divideFrom_append_of_isNeutral fun d hd =>
          isNeutral_of_isPlainPart (hplain d hd), List.reverse_cons, List.append_assoc]
        rfl
    rw [List.append_assoc, List.cons_append, hrun, ih hothers hrest]
    simp
  case literal =>
    intro index written content pieces ih s hproper hshows before
    cases hshows with
    | literal _ _ hshown hshows =>
      rw [List.append_assoc, divideFrom_append_of_isNeutral (isNeutral_of_isPlaceholder hshown),
        ih (List.forall_mem_cons.mp hproper).2 hshows, List.reverse_append, List.append_assoc]

/-- A text is its middle between white space. -/
theorem exists_trim (s : List Char) :
    ∃ front back, s = front ++ (Text.trim s ++ back) ∧ (∀ c ∈ front, Text.isBlank c) ∧
      ∀ c ∈ back, Text.isBlank c := by
  have hstart := List.takeWhile_append_dropWhile (p := Text.isBlank) (l := s)
  generalize hmiddle : s.dropWhile Text.isBlank = middle at hstart
  have hend := List.takeWhile_append_dropWhile (p := Text.isBlank) (l := middle.reverse)
  refine ⟨s.takeWhile Text.isBlank, (middle.reverse.takeWhile Text.isBlank).reverse, ?_,
    List.all_eq_true.mp List.all_takeWhile, fun c hc => ?_⟩
  · rw [Text.trim, Text.trimBy, Text.trimEndBy, hmiddle, ← List.reverse_append, hend,
      List.reverse_reverse, hstart]
  · exact List.all_eq_true.mp List.all_takeWhile c (List.mem_reverse.mp hc)

/-- A text that is read as an expression without functions is not divided. -/
theorem passes_of_readExpr {query : IsolatedQuery}
    (hliterals : ∀ l ∈ query.literals, Piece.IsLiteral l) (hs : ∀ c ∈ s, isQuote c = false)
    {kind : ClauseKind} {e : Expr} (h : query.readExpr kind (Text.trim s) = .ok e)
    (hlambda : e.hasLambda = false) :
    depth? 0 s = some 0 ∧
      ∀ before t, divideFrom before (s ++ t) = divideFrom (s.reverse ++ before) t := by
  obtain ⟨front, back, hsplit, hfront, hback⟩ := exists_trim s
  have hfront' : ∀ c ∈ front, IsNeutral c := fun c hc => isNeutral_of_isBlank (hfront c hc)
  have hback' : ∀ c ∈ back, IsNeutral c := fun c hc => isNeutral_of_isBlank (hback c hc)
  obtain ⟨pieces, hshows, hwhole, hphrase⟩ :=
    IsolatedQuery.exists_pieces_of_readExpr hliterals (fun c hc => hs c (by
      rw [hsplit]
      exact List.mem_append_right _ (List.mem_append_left _ hc))) h
  generalize Text.trim s = middle at hsplit hshows
  subst hsplit
  constructor
  · have hmiddle := depth?_of_shows hwhole hphrase.isProper hshows 0
    have htokens := hphrase.depth?_append (Int.le_refl 0) [] hlambda
    rw [List.append_nil] at htokens
    have hback := depth?_append_of_isNeutral hback' 0 []
    rw [List.append_nil] at hback
    rw [depth?_append_of_isNeutral hfront']
    exact (depthBehind?_append (hmiddle.trans htokens) back).trans hback
  · intro before t
    rw [List.append_assoc, divideFrom_append_of_isNeutral hfront', List.append_assoc,
      divideFrom_of_shows hwhole hphrase.isProper hshows, divideFrom_append_of_isNeutral hback']
    simp

/-! ## Lists of assignments -/

/-- An assignment as it is written, and what it says. -/
structure Written where
  /-- The column that is assigned to. -/
  target : List Char
  /-- The expression for its new value. -/
  value : List Char
  /-- What the assignment says. -/
  assignment : Assignment

namespace Written

/-- An assignment with its equals sign. -/
def chars (written : Written) : List Char :=
  written.target ++ (" = ".toList ++ written.value)

/-- Whether both sides of an assignment, with their literals set aside, can be read on their
own: as a column of the input table, and as an expression that calls no aggregate function. -/
structure Reads (written : Written) (query : IsolatedQuery) (names : Names) : Prop where
  target_isolated : ∀ c ∈ written.target, isQuote c = false
  value_isolated : ∀ c ∈ written.value, isQuote c = false
  target : ∃ e spelling count, query.readExpr .update (Text.trim written.target) = .ok e ∧
    (e.bind names).run 0 = .ok (.field .input written.assignment.index spelling, count)
  value : ∃ e count, query.readExpr .update (Text.trim written.value) = .ok e ∧
    e.callsAggregate = false ∧ (e.bind names).run 0 = .ok (written.assignment.value, count)

end Written

/-- The parts of a list are those that it was put together from. -/
theorem partsFrom_joinWith {texts : List (List Char)} (htext : depth? 0 t = some 0)
    (htexts : ∀ text ∈ texts, depth? 0 text = some 0) (part : List Char) :
    partsFrom 0 part (Text.joinWith ", ".toList (t :: texts)) =
      (part ++ t) :: texts.map (' ' :: ·) := by
  induction texts generalizing t part with
  | nil =>
    have hlast := partsFrom_append htext part []
    rwa [List.append_nil] at hlast
  | cons next texts ih =>
    obtain ⟨hnext, htexts⟩ := List.forall_mem_cons.mp htexts
    rw [Text.joinWith_cons_cons, List.append_assoc, partsFrom_append htext]
    exact congrArg (_ :: ·) (ih hnext htexts [' '])

theorem trim_cons_of_isBlank (hc : Text.isBlank c) (s : List Char) :
    Text.trim (c :: s) = Text.trim s :=
  Text.trimBy_append_left (List.forall_mem_singleton.mpr hc) s

theorem trim_concat_of_isBlank (hc : Text.isBlank c) (s : List Char) :
    Text.trim (s ++ [c]) = Text.trim s :=
  Text.trimBy_concat hc s

section

variable {query : IsolatedQuery} {names : Names} {written : Written}

/-- A written assignment is divided at its equals sign. -/
theorem Written.Reads.divide? (hliterals : ∀ l ∈ query.literals, Piece.IsLiteral l)
    (h : written.Reads query names) (front : List Char) (hfront : ∀ c ∈ front, c = ' ') :
    depth? 0 written.chars = some 0 ∧
      Assignment.divide? (front ++ written.chars) =
        some (front ++ (written.target ++ [' ']), ' ' :: written.value) := by
  obtain ⟨e, spelling, _, hread, hbind⟩ := h.target
  obtain ⟨e', _, hread', hfree, hbind'⟩ := h.value
  obtain ⟨hlambda, -⟩ :=
    Expr.run_bind_of_callsAggregate e (Expr.callsAggregate_of_run_bind_eq_field hbind) hbind
  obtain ⟨hlambda', -⟩ := Expr.run_bind_of_callsAggregate e' hfree hbind'
  obtain ⟨hdepth, hpasses⟩ := passes_of_readExpr hliterals h.target_isolated hread hlambda
  obtain ⟨hdepth', -⟩ := passes_of_readExpr hliterals h.value_isolated hread' hlambda'
  have hneutral : ∀ c ∈ front, IsNeutral c := fun c hc =>
    hfront c hc ▸ isNeutral_of_isBlank (by decide)
  constructor
  · exact (depthBehind?_append hdepth _).trans hdepth'
  · have hsign : ∀ before, divideFrom before (" = ".toList ++ written.value) =
        some (before.reverse ++ [' '], ' ' :: written.value) := by
      intro before
      change divideFrom before (' ' :: '=' :: ' ' :: written.value) = _
      rw [divideFrom_cons before (by decide), divideFrom, if_pos (by rfl), List.reverse_cons]
    rw [Assignment.divide?, divideFrom_append_of_isNeutral hneutral, Written.chars, hpasses, hsign]
    simp

/-- A written assignment says what it says on its own. -/
theorem Written.Reads.read (hliterals : ∀ l ∈ query.literals, Piece.IsLiteral l)
    (h : written.Reads query names) (front : List Char) (hfront : ∀ c ∈ front, c = ' ')
    (count : Nat) :
    (read query names (front ++ written.chars)).run count = .ok (written.assignment, count) := by
  obtain ⟨-, hdivide⟩ := h.divide? hliterals front hfront
  obtain ⟨e, spelling, _, hread, hbind⟩ := h.target
  obtain ⟨e', _, hread', hfree, hbind'⟩ := h.value
  obtain ⟨-, hrun⟩ :=
    Expr.run_bind_of_callsAggregate e (Expr.callsAggregate_of_run_bind_eq_field hbind) hbind
  obtain ⟨-, hrun'⟩ := Expr.run_bind_of_callsAggregate e' hfree hbind'
  have htarget : Text.trim (front ++ (written.target ++ [' '])) = Text.trim written.target := by
    rw [← List.append_assoc, trim_concat_of_isBlank (by decide)]
    clear hdivide
    induction front with
    | nil => rfl
    | cons c front ih =>
      obtain ⟨hc, hfront⟩ := List.forall_mem_cons.mp hfront
      rw [List.cons_append, trim_cons_of_isBlank (by rw [hc]; decide), ih hfront]
  have hvalue : Text.trim (' ' :: written.value) = Text.trim written.value :=
    trim_cons_of_isBlank (by decide) _
  have hfilled : ¬((Text.trim written.target).isEmpty || (Text.trim written.value).isEmpty) := by
    simp [IsolatedQuery.ne_nil_of_readExpr hread, IsolatedQuery.ne_nil_of_readExpr hread']
  have hbound : (query.bindExpr names .update (Text.trim written.target)).run count =
      .ok (.field .input written.assignment.index spelling, count) := by
    rw [IsolatedQuery.bindExpr, hread]
    exact hrun count
  have hbound' : (query.bindExpr names .update (Text.trim written.value)).run count =
      .ok (written.assignment.value, count) := by
    rw [IsolatedQuery.bindExpr, hread']
    exact hrun' count
  rw [Assignment.read, hdivide]
  dsimp only
  rw [htarget, hvalue, if_neg hfilled]
  refine run_bind_eq_ok hbound ?_
  exact run_bind_eq_ok hbound' rfl

end

/-- A list of assignments says what its assignments say on their own. -/
theorem readAll_written {s : List Char} {query : IsolatedQuery}
    (hquery : IsolatedQuery.ofQuery s = .ok query) {names : Names} {assignments : List Written}
    (hne : assignments ≠ []) (h : ∀ written ∈ assignments, written.Reads query names)
    (count : Nat) :
    (readAll query names (Text.joinWith ", ".toList (assignments.map Written.chars))).run count =
      .ok (assignments.map Written.assignment, count) := by
  have hliterals := IsolatedQuery.isLiteral_of_ofQuery hquery
  have hdepth : ∀ written ∈ assignments, depth? 0 written.chars = some 0 := fun written hmem =>
    ((h written hmem).divide? hliterals [] nofun).1
  obtain ⟨first, others, rfl⟩ := List.exists_cons_of_ne_nil hne
  obtain ⟨hfirst, hothers⟩ := List.forall_mem_cons.mp h
  obtain ⟨hdepthFirst, hdepthOthers⟩ := List.forall_mem_cons.mp hdepth
  rw [readAll, parts, List.map_cons, partsFrom_joinWith hdepthFirst (by simpa using hdepthOthers),
    List.map_map]
  have hread := hfirst.read hliterals [] nofun count
  have hreads := run_mapM_map_eq_ok (g := fun w => ' ' :: w.chars) (k := Written.assignment)
    fun w hw => (hothers w hw).read hliterals [' '] (by simp) count
  rw [List.mapM_cons]
  exact run_bind_eq_ok hread (run_bind_eq_ok hreads rfl)

/-- Commas and equals signs of several kinds divide nothing. -/
theorem readAll_written_commas :
    ∃ query, IsolatedQuery.ofQuery
        "a1 = len(a2) + [1, 2][0], a.y = 'x, y = z' if a1 != 2 else a[1]".toList = .ok query ∧
      (readAll query (Names.ofQuery ⟨⟨[("a1", 0), ("a2", 1), ("a.y", 1)], some ["x", "y"]⟩, none⟩
          Scope.empty) query.text).run 3 =
        .ok ([⟨0, .binary .add (.call .len [.field .input 1 "a2"])
            (.index (.list [.literal (.int 1), .literal (.int 2)]) (.literal (.int 0)))⟩,
          ⟨1, .choice (.binary .ne (.field .input 0 "a1") (.literal (.int 2)))
            (.literal (.text "x, y = z")) (.field .input 0 "a[1]")⟩], 3) := by
  have hquery : IsolatedQuery.ofQuery
      "a1 = len(a2) + [1, 2][0], a.y = 'x, y = z' if a1 != 2 else a[1]".toList = .ok
        ⟨"a1 = len(a2) + [1, 2][0], a.y = ###RBQL_STRING_LITERAL0### if a1 != 2 else a[1]".toList,
          ["'x, y = z'".toList]⟩ := by
    decide +kernel
  refine ⟨_, hquery, ?_⟩
  refine @readAll_written _ _ hquery _ [
    ⟨"a1".toList, "len(a2) + [1, 2][0]".toList, ⟨0, _⟩⟩,
    ⟨"a.y".toList, "###RBQL_STRING_LITERAL0### if a1 != 2 else a[1]".toList, ⟨1, _⟩⟩]
    (List.cons_ne_nil _ _) ?_ 3
  rw [List.forall_mem_cons, List.forall_mem_singleton]
  exact ⟨⟨by simp [isQuote], by simp [isQuote], ⟨.name "a1", "a1", 0, by decide +kernel, rfl⟩,
      ⟨.binary .add (.call "len" [.name "a2"]) (.index (.list [.int 1, .int 2]) (.int 0)), 0,
        by decide +kernel, rfl, rfl⟩⟩,
    ⟨by simp [isQuote], by simp [isQuote],
      ⟨.attribute (.name "a") "y", "a.y", 0, by decide +kernel, rfl⟩,
      ⟨.choice (.binary .ne (.name "a1") (.int 2)) (.text "x, y = z")
        (.index (.name "a") (.int 1)), 0, by decide +kernel, rfl, rfl⟩⟩⟩

end Assignment
end TableQuery
