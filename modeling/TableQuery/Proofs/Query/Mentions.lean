import TableQuery.Proofs.Expression.Lists
import TableQuery.Proofs.Expression.TokenChars
import TableQuery.Proofs.Query.Fragments
import TableQuery.Query.Columns

/-!
# Names that a text mentions

A bare name is looked for in the text of a query, at the places where a variable can begin.
A name that is part of an expression is found in the text of the expression, and in every
text in which this one is a section.
-/

namespace TableQuery

open Token hiding text

/-- Whether a name can begin behind a character. -/
def opensName (c : Char) : Bool :=
  !(isNamePart c || c == '.')

/-- Whether a name that is not called can end before a character. -/
def closesName (c : Char) : Bool :=
  !(isNamePart c || c == '(')

/-- Whether a name that is not called stands in a text as a word of its own. -/
def Mentions (name s : List Char) : Prop :=
  ∃ before after, s = before ++ (name ++ after) ∧ (∀ c ∈ before.getLast?, opensName c) ∧
    ∀ c ∈ after.head?, closesName c

/-- Whether a text stands in another one, with characters at both ends that belong to no
name.  An empty text need not stand anywhere. -/
def IsSection (s t : List Char) : Prop :=
  s ≠ [] → ∃ before after, t = before ++ (s ++ after) ∧
    (∀ c ∈ before.getLast?, opensName c ∧ closesName c) ∧
    ∀ c ∈ after.head?, opensName c ∧ closesName c

variable {name s t u : List Char}

theorem forall_getLast?_append {α : Type} {P : α → Prop} {before after : List α}
    (hbefore : ∀ a ∈ before.getLast?, P a) (hafter : ∀ a ∈ after.getLast?, P a) :
    ∀ a ∈ (before ++ after).getLast?, P a := by
  intro a ha
  rw [List.getLast?_append, Option.mem_def, Option.or_eq_some_iff] at ha
  rcases ha with ha | ⟨-, ha⟩
  · exact hafter a ha
  · exact hbefore a ha

theorem forall_head?_append {α : Type} {P : α → Prop} {before after : List α}
    (hbefore : ∀ a ∈ before.head?, P a) (hafter : ∀ a ∈ after.head?, P a) :
    ∀ a ∈ (before ++ after).head?, P a := by
  intro a ha
  rw [List.head?_append, Option.mem_def, Option.or_eq_some_iff] at ha
  rcases ha with ha | ⟨-, ha⟩
  · exact hbefore a ha
  · exact hafter a ha

theorem IsSection.refl (s : List Char) : IsSection s s :=
  fun _ => ⟨[], [], by simp, nofun, nofun⟩

theorem IsSection.trans (h : IsSection s t) (h' : IsSection t u) : IsSection s u := by
  intro hs
  obtain ⟨before, after, rfl, hbefore, hafter⟩ := h hs
  obtain ⟨before', after', rfl, hbefore', hafter'⟩ := h' (by simp [hs])
  exact ⟨before' ++ before, after ++ after', by simp, forall_getLast?_append hbefore' hbefore,
    forall_head?_append hafter hafter'⟩

theorem IsSection.subset (h : IsSection s t) : s ⊆ t := by
  intro c hc
  obtain ⟨before, after, rfl, -⟩ := h (List.ne_nil_of_mem hc)
  simp [hc]

/-- What stands behind a character of no name is a section. -/
theorem isSection_append_cons {c : Char} (hc : opensName c ∧ closesName c) (s t : List Char) :
    IsSection t (s ++ c :: t) :=
  fun _ => ⟨s ++ [c], [], by simp, fun d hd => by
    rw [List.getLast?_concat] at hd
    exact Option.some.inj hd ▸ hc, nofun⟩

/-- What stands before a character of no name is a section. -/
theorem isSection_append_left {c : Char} (hc : opensName c ∧ closesName c) (s t : List Char) :
    IsSection s (s ++ c :: t) :=
  fun _ => ⟨[], c :: t, rfl, nofun, fun _ hd => Option.some.inj hd ▸ hc⟩

/-- What a section mentions is mentioned. -/
theorem Mentions.of_isSection (h : Mentions name s) (hname : name ≠ []) (h' : IsSection s t) :
    Mentions name t := by
  obtain ⟨before, after, rfl, hbefore, hafter⟩ := h
  obtain ⟨before', after', rfl, hbefore', hafter'⟩ := h' (by simp [hname])
  exact ⟨before' ++ before, after ++ after', by simp,
    forall_getLast?_append (fun c hc => (hbefore' c hc).1) hbefore,
    forall_head?_append hafter fun c hc => (hafter' c hc).2⟩

/-! ## Looking for names -/

theorem endsName_of_head? (h : ∀ c ∈ s.head?, closesName c) : ColumnMap.endsName s := by
  cases s with
  | nil => rfl
  | cons c s =>
    have hc := h c rfl
    simp only [closesName, Bool.not_eq_true', Bool.or_eq_false_iff] at hc
    simp [ColumnMap.endsName, hc.1]

theorem separates_eq_opensName (c : Char) : ColumnMap.separates c = opensName c :=
  rfl

/-- Behind a part of a name that is not empty no variable can begin. -/
theorem not_opensName_getLast? {front back : List Char} (hpart : ∀ c ∈ front ++ back, isNamePart c)
    (hne : front ≠ []) (hopens : ∀ c ∈ front.getLast?, opensName c) : False := by
  have hlast := List.getLast?_eq_some_getLast hne
  have hname := hpart _ (List.mem_append_left back (List.getLast_mem hne))
  have hopen := hopens _ hlast
  simp [opensName, hname] at hopen

/-- The character before what follows a name. -/
theorem getLast?_append_append_or (hne : name ≠ []) (front rest : List Char)
    (before : Option Char) :
    (front ++ (name ++ rest)).getLast?.or before = rest.getLast?.or name.getLast? := by
  obtain ⟨c, hc⟩ := Option.ne_none_iff_exists'.mp (mt List.getLast?_eq_none_iff.mp hne)
  rw [List.getLast?_append, List.getLast?_append, hc, Option.or_assoc, Option.or_assoc,
    Option.some_or]

/-- Occurrences that overlap do not stand alone, so that none that does is passed over. -/
theorem mentions_iff (hne : name ≠ []) (hpart : ∀ c ∈ name, isNamePart c)
    {before : Option Char} :
    ColumnMap.mentions name before s ↔ ∃ front after, s = front ++ (name ++ after) ∧
      (∀ c ∈ front.getLast?.or before, opensName c) ∧ ColumnMap.endsName after := by
  fun_induction ColumnMap.mentions name before s with
  | case1 before s hname => exact absurd hname hne
  | case2 before s _ hcut =>
    refine iff_of_false Bool.false_ne_true ?_
    rintro ⟨front, after, rfl, -⟩
    exact Text.cut?_eq_none_iff.mp hcut ⟨front, after, List.append_assoc _ _ _⟩
  | case3 before s _ front after hcut _ ih =>
    obtain rfl := Text.eq_of_cut? hcut
    rw [Bool.or_eq_true, ih, Bool.and_eq_true, Option.all_eq_true]
    constructor
    · rintro (⟨hopens, hends⟩ | ⟨front', after', rfl, hopens, hends⟩)
      · exact ⟨front, after, List.append_assoc _ _ _, hopens, hends⟩
      · refine ⟨front ++ (name ++ front'), after', by simp, ?_, hends⟩
        rwa [getLast?_append_append_or hne]
    · rintro ⟨front', after', heq, hopens, hends⟩
      -- The first occurrence lies before the one that stands alone, or is the same.
      have hle : front.length ≤ front'.length := Text.length_le_of_cut? (heq ▸ hcut)
      rw [List.append_assoc] at heq
      obtain ⟨skipped, rfl⟩ : front <+: front' := List.prefix_of_prefix_length_le
        (List.prefix_append front _) (heq ▸ List.prefix_append front' _) hle
      rw [List.append_assoc, List.append_cancel_left_eq] at heq
      by_cases hskipped : skipped = []
      · subst hskipped
        rw [List.nil_append, List.append_cancel_left_eq] at heq
        rw [List.append_nil] at hopens
        exact .inl ⟨hopens, heq ▸ hends⟩
      · rcases List.append_eq_append_iff.mp heq with ⟨rest, rfl, hafter⟩ | ⟨rest, rfl, -⟩
        · rw [getLast?_append_append_or hne] at hopens
          exact .inr ⟨rest, after', hafter, hopens, hends⟩
        · refine (not_opensName_getLast? hpart hskipped fun c hc => hopens c ?_).elim
          rw [List.getLast?_append, Option.mem_def.mp hc]
          rfl

/-- A name that is mentioned is found. -/
theorem Mentions.mentions (h : Mentions name s) (hne : name ≠ [])
    (hpart : ∀ c ∈ name, isNamePart c) : ColumnMap.mentions name none s := by
  obtain ⟨before, after, hs, hbefore, hafter⟩ := h
  refine (mentions_iff hne hpart).mpr ⟨before, after, hs, ?_, endsName_of_head? hafter⟩
  rwa [Option.or_none]

/-! ## Names of expressions -/

/-- The characters that a symbol other than the dot ends with belong to no name. -/
theorem opensName_of_isSpelling {sy : Symbol} {c : Char} {run : List Char}
    (h : IsSpelling sy c run) (hsymbol : (symbol sy).introduces) :
    ∀ d ∈ (c :: run).getLast?, opensName d := by
  rcases h with ⟨rfl, hsingle⟩ | ⟨d, rfl, hdouble⟩
  · unfold singleSymbol? at hsingle
    split at hsingle <;> cases hsingle
    all_goals first | exact absurd hsymbol (by decide) | (intro d hd; cases hd; rfl)
  · unfold doubleSymbol? at hdouble
    split at hdouble <;> cases hdouble
    all_goals
      intro d hd
      cases hd
      rfl

theorem opensName_of_isBlank {c : Char} (h : Text.isBlank c) : opensName c ∧ closesName c := by
  have hpart : isNamePart c = false := by
    by_contra hpart
    rw [isBlank_of_isNamePart (by simpa using hpart)] at h
    cases h
  have hdot : c ≠ '.' := by
    rintro rfl
    exact absurd h (by decide)
  have hparen : c ≠ '(' := by
    rintro rfl
    exact absurd h (by decide)
  simp [opensName, closesName, hpart, hdot, hparen]

theorem opensName_of_read {c : Char} (hquote : isQuote c = false) {run rest : List Char}
    {token : Token} (hread : read c (run ++ rest) = (token, run.length))
    (hintroduces : token.introduces) (hword : token.isWord = false) :
    ∀ d ∈ (c :: run).getLast?, opensName d := by
  rcases chars_of_read hquote hread with ⟨sy, rfl, hspelling⟩ | ⟨f, rfl⟩ | ⟨hne, -⟩
  · exact opensName_of_isSpelling hspelling hintroduces
  · cases hintroduces
  · cases token with
    | symbol sy => exact absurd rfl (hne sy)
    | keyword k => cases hword
    | _ => cases hintroduces

theorem kinds_cons_openParen (s : List Char) :
    (kinds ('(' :: s)).head? = some (symbol .openParen) := by
  have hdouble : s.head?.bind (doubleSymbol? '(') = none := by
    cases s <;> rfl
  have hread : Token.read '(' s = (symbol .openParen, 0) := by
    rw [read_of_not_isQuote (by decide), if_neg (by simp [startsFraction]), if_neg (by decide),
      readSymbol, hdouble]
    rfl
  rw [kinds_cons (by decide), hread]
  rfl

/-- What stands behind a name that is not called closes it. -/
theorem closesName_of_shows {pieces : List Piece} (hshows : IsolatedQuery.Shows s pieces)
    (hpart : ∀ c ∈ (Piece.sources pieces).head?, isNamePart c = false)
    (hcall : (kinds (Piece.sources pieces)).head? ≠ some (symbol .openParen)) :
    ∀ c ∈ s.head?, closesName c := by
  intro c hc
  cases hshows with
  | nil => cases hc
  | char d h =>
    cases hc
    have hd := hpart c rfl
    have hne : c ≠ '(' := by
      rintro rfl
      exact hcall (kinds_cons_openParen _)
    simp [closesName, hd, hne]
  | literal index written hshown h =>
    obtain ⟨digits, -, rfl⟩ := hshown
    cases hc
    decide

theorem not_isPrefix_of_closesName (hname : ∃ c others, name = c :: others ∧ isNamePart c)
    (hs : ∀ c ∈ s.head?, closesName c) : ¬name <+: s := by
  rintro ⟨after, rfl⟩
  obtain ⟨c, others, rfl, hpart⟩ := hname
  have hclosed := hs c rfl
  simp [closesName, hpart] at hclosed

/-- Whether a text mentions a name behind some tokens. -/
def MentionsBehind (front : List Token) (name s : List Char) : Prop :=
  ∃ before after, s = before ++ (name ++ after) ∧ (before = [] → front = []) ∧
    (∀ c ∈ before.getLast?, opensName c) ∧ ∀ c ∈ after.head?, closesName c

theorem MentionsBehind.append {front front' : List Token} {before : List Char}
    (h : MentionsBehind front name s) (hne : before ≠ [])
    (hlast : front = [] → name <+: s → ∀ c ∈ before.getLast?, opensName c) :
    MentionsBehind front' name (before ++ s) := by
  obtain ⟨between, after, rfl, hfront, hbetween, hafter⟩ := h
  refine ⟨before ++ between, after, by simp, by simp [hne], fun c hc => ?_, hafter⟩
  cases between with
  | nil =>
    rw [List.append_nil] at hc
    exact hlast (hfront rfl) (List.prefix_append _ _) c hc
  | cons d between =>
    rw [List.getLast?_append_cons] at hc
    exact hbetween c hc

theorem introduces_of_getLast?_cons {first : Token} {front : List Token}
    (h : ∀ t ∈ (first :: front).getLast?, t.introduces) :
    (∀ t ∈ front.getLast?, t.introduces) ∧ (front = [] → first.introduces) := by
  refine ⟨fun t ht => h t ?_, ?_⟩
  · rw [List.getLast?_cons, Option.mem_def.mp ht]
    rfl
  · rintro rfl
    exact h first rfl

/-- A text that shows pieces among whose tokens a name stands alone mentions this name. -/
theorem mentions_of_shows {pieces : List Piece} (hwhole : ∀ piece ∈ pieces, piece.IsWhole)
    {n : String} (hn : ∃ c others, n.toList = c :: others ∧ isNamePart c)
    (halone : StandsAlone n (kinds (Piece.sources pieces)))
    (hshows : IsolatedQuery.Shows s pieces) : Mentions n.toList s := by
  obtain ⟨front, back, heq, hfront, hback⟩ := halone
  have hall : ∀ {s front}, IsolatedQuery.Shows s pieces →
      kinds (Piece.sources pieces) = front ++ name n :: back →
        (∀ t ∈ front.getLast?, t.introduces) → MentionsBehind front n.toList s := by
    clear heq hshows hfront
    refine Piece.kinds_induction (motive := fun pieces tokens => ∀ {s front},
      IsolatedQuery.Shows s pieces → tokens = front ++ name n :: back →
        (∀ t ∈ front.getLast?, t.introduces) → MentionsBehind front n.toList s)
      ?nil ?blank ?run ?literal hwhole
    case nil =>
      intro s front _ heq
      simp at heq
    case blank =>
      intro c pieces hblank ih s front hshows heq hfront
      obtain ⟨t, rfl, hrest⟩ := hshows.exists_of_chars [c]
      refine (ih hrest heq hfront).append (List.cons_ne_nil _ _) fun _ _ d hd => ?_
      obtain rfl := Option.some.inj hd
      exact (opensName_of_isBlank hblank).1
    case run =>
      intro c run pieces token hquote hread ih s front hshows heq hfront
      obtain ⟨t, rfl, hrest⟩ := hshows.exists_of_chars (c :: run)
      cases front with
      | nil =>
        obtain ⟨rfl, hkinds⟩ := List.cons.inj heq
        obtain ⟨-, -, hpart, hchars⟩ := chars_of_read_word hquote rfl hread
        rw [hchars n rfl]
        exact ⟨[], t, rfl, fun _ => rfl, by simp,
          closesName_of_shows hrest hpart (hkinds ▸ hback)⟩
      | cons first front =>
        obtain ⟨rfl, hkinds⟩ := List.cons.inj heq
        obtain ⟨hlater, hfirst⟩ := introduces_of_getLast?_cons hfront
        refine (ih hrest hkinds hlater).append (List.cons_ne_nil _ _) fun hnil hprefix => ?_
        refine opensName_of_read hquote hread (hfirst hnil) ?_
        -- A word right before the name would go on with its characters.
        by_contra hword
        obtain ⟨-, -, hpart, -⟩ := chars_of_read_word hquote (by simpa using hword) hread
        subst hnil
        have hcloses := closesName_of_shows hrest hpart (by simp [hkinds])
        exact not_isPrefix_of_closesName hn hcloses hprefix
    case literal =>
      intro index written content pieces ih s front hshows heq hfront
      cases front with
      | nil => cases heq
      | cons first front =>
        obtain ⟨rfl, hkinds⟩ := List.cons.inj heq
        obtain ⟨hlater, hfirst⟩ := introduces_of_getLast?_cons hfront
        cases hshows with
        | literal _ _ hshown hrest =>
          refine (ih hrest hkinds hlater).append ?_ fun hnil _ => by cases hfirst hnil
          obtain ⟨_, -, rfl⟩ := hshown
          exact List.cons_ne_nil _ _
  obtain ⟨before, after, rfl, -, hbefore, hafter⟩ := hall hshows heq hfront
  exact ⟨before, after, rfl, hbefore, hafter⟩

namespace IsolatedQuery

variable {query : IsolatedQuery} {n : String} {e : Expr} {kind : ClauseKind}

/-- A part of a query mentions the names that stand alone where its literals are back. -/
theorem mentions_of_standsAlone (hliterals : ∀ l ∈ query.literals, Piece.IsLiteral l)
    (hs : ∀ c ∈ s, isQuote c = false) (hn : ∃ c others, n.toList = c :: others ∧ isNamePart c)
    (h : StandsAlone n (kinds (query.restore s))) : Mentions n.toList s := by
  obtain ⟨pieces, hshows, hwhole, hsources⟩ := exists_shows hliterals hs
  rw [← hsources] at h
  exact mentions_of_shows hwhole hn h hshows

theorem mentions_of_readExpr (hliterals : ∀ l ∈ query.literals, Piece.IsLiteral l)
    (hs : ∀ c ∈ s, isQuote c = false) (hn : ∃ c others, n.toList = c :: others ∧ isNamePart c)
    (h : query.readExpr kind s = .ok e) (he : e.mentions n) : Mentions n.toList s := by
  have hphrase := Parser.phrase_of_parseExpr (eq_ok_of_mapError h)
  exact mentions_of_standsAlone hliterals hs hn (hphrase.standsAlone he)

theorem mentions_of_readExprs (hliterals : ∀ l ∈ query.literals, Piece.IsLiteral l)
    (hs : ∀ c ∈ s, isQuote c = false) (hn : ∃ c others, n.toList = c :: others ∧ isNamePart c)
    {es : List Expr} (h : query.readExprs kind s = .ok es) (hmem : e ∈ es) (he : e.mentions n) :
    Mentions n.toList s := by
  have hphrases := Parser.listPhrase_of_parseExprs (eq_ok_of_mapError h)
  refine mentions_of_standsAlone hliterals hs hn (hphrases.standsAlone ?_ hmem)
  exact fun ts hphrase => hphrase.standsAlone he

theorem mentions_of_readSelect (hliterals : ∀ l ∈ query.literals, Piece.IsLiteral l)
    (hs : ∀ c ∈ s, isQuote c = false) (hn : ∃ c others, n.toList = c :: others ∧ isNamePart c)
    {items : List SelectItem} (h : query.readSelect s = .ok items) {columnName : Option String}
    (hmem : .column e columnName ∈ items) (he : e.mentions n) : Mentions n.toList s := by
  have hphrases := Parser.listPhrase_of_parseSelect (eq_ok_of_mapError h)
  refine mentions_of_standsAlone hliterals hs hn (hphrases.standsAlone ?_ hmem)
  exact fun ts hphrase => hphrase.standsAlone he

end IsolatedQuery
end TableQuery
