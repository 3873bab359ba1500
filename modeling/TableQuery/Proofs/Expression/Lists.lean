import TableQuery.Proofs.Expression.Parts

/-!
# The tokens of lists

Order and group clauses are lists of expressions, and a select list has stars and named
columns besides.  Their tokens are those of their items with commas between them.
-/

namespace TableQuery
namespace Parser

open Token hiding text

variable {α : Type}

/-- Whether tokens make up things with commas between them. -/
inductive ListPhrase (item : List Token → α → Prop) : List Token → List α → Prop
  | last {ts : List Token} {a : α} (h : item ts a) : ListPhrase item ts [a]
  | cons {ts us : List Token} {a : α} {as : List α} (h : item ts a)
    (hs : ListPhrase item us as) : ListPhrase item (ts ++ symbol .comma :: us) (a :: as)

/-- The tokens of a star. -/
def starTokens : Star → List Token
  | .all => [symbol .star]
  | .input => [name "a", symbol .dot, symbol .star]
  | .join => [name "b", symbol .dot, symbol .star]

/-- Whether tokens make up an item of a select list. -/
inductive SelectPhrase : List Token → SelectItem → Prop
  | star (source : Star) : SelectPhrase (starTokens source) (.star source)
  | column {ts : List Token} {e : Expr} (h : Phrase ts e) : SelectPhrase ts (.column e none)
  | named {ts : List Token} {e : Expr} (s : String) (h : Phrase ts e) :
    SelectPhrase (ts ++ [keyword .asWord, name s]) (.column e (some s))

/-! ## What the parser uses up -/

theorem listPhrase_of_readList {item : (tokens : List PlacedToken) → Reading α tokens}
    {P : List Token → α → Prop}
    (hitem : ∀ tokens parsed, item tokens = .ok parsed →
      ∃ used, Uses tokens used parsed.rest ∧ P used parsed.value)
    {tokens : List PlacedToken} {parsed : Parsed (List α) tokens.length}
    (h : readList item tokens = .ok parsed) :
    ∃ used, Uses tokens used parsed.rest ∧ ListPhrase P used parsed.value := by
  rw [readList] at h
  obtain ⟨⟨first, rest, hlt⟩, hfirst, h⟩ := bind_eq_ok_iff.mp h
  obtain ⟨ts, hts, hphrase⟩ := hitem _ _ hfirst
  dsimp only at h hts hphrase
  split at h
  · obtain ⟨⟨others, rest', hlt'⟩, hothers, h⟩ := bind_eq_ok_iff.mp h
    cases h
    obtain ⟨us, hus, hphrases⟩ := listPhrase_of_readList hitem hothers
    exact ⟨_, hts.trans (hus.cons _), .cons hphrase hphrases⟩
  · cases h
    exact ⟨ts, hts, .last hphrase⟩
termination_by tokens.length
decreasing_by grind

theorem uses_of_star? {tokens : List PlacedToken} {parsed : Parsed Star tokens.length}
    (h : star? tokens = some parsed) : Uses tokens (starTokens parsed.value) parsed.rest := by
  unfold star? at h
  split at h
  · cases h
    exact (uses_nil _).cons _
  · split at h
    · next hs =>
      cases h
      subst hs
      exact (((uses_nil _).cons _).cons _).cons _
    · split at h
      · next hs =>
        cases h
        subst hs
        exact (((uses_nil _).cons _).cons _).cons _
      · cases h
  · cases h

theorem selectPhrase_of_readSelectItem {tokens : List PlacedToken}
    {parsed : Parsed SelectItem tokens.length} (h : readSelectItem tokens = .ok parsed) :
    ∃ used, Uses tokens used parsed.rest ∧ SelectPhrase used parsed.value := by
  unfold readSelectItem at h
  split at h
  · next star hstar =>
    cases h
    exact ⟨_, uses_of_star? hstar, .star _⟩
  · obtain ⟨⟨e, rest, hlt⟩, hread, h⟩ := bind_eq_ok_iff.mp h
    obtain ⟨ts, hts, hphrase⟩ := phrase_of_readExpr hread
    dsimp only at h hts hphrase
    split at h
    · obtain ⟨⟨s, rest', hlt'⟩, hname, h⟩ := bind_eq_ok_iff.mp h
      cases h
      exact ⟨_, hts.trans ((uses_of_expectName hname).cons _), .named s hphrase⟩
    · cases h
      exact ⟨ts, hts, .column hphrase⟩

/-! ## Whole texts -/

theorem SelectPhrase.isProper {ts : List Token} {item : SelectItem} (h : SelectPhrase ts item) :
    ∀ t ∈ ts, t.isProper := by
  cases h with
  | star source => cases source <;> decide
  | column h => exact h.isProper
  | named s h => simpa [Token.isProper, or_imp, forall_and] using h.isProper

theorem ListPhrase.isProper {P : List Token → α → Prop}
    (hP : ∀ ts a, P ts a → ∀ t ∈ ts, t.isProper) {ts : List Token} {as : List α}
    (h : ListPhrase P ts as) : ∀ t ∈ ts, t.isProper := by
  induction h with
  | last h => exact hP _ _ h
  | cons h _ ih => simpa [Token.isProper, or_imp, forall_and] using And.intro (hP _ _ h) ih

/-- The tokens of a text that is read as a list of expressions make up this list. -/
theorem listPhrase_of_parseExprs {s : List Char} {es : List Expr} (h : parseExprs s = .ok es) :
    ListPhrase Phrase (kinds s) es := by
  obtain ⟨all, hall, h⟩ := bind_eq_ok_iff.mp h
  obtain ⟨parsed, hparsed, h⟩ := bind_eq_ok_iff.mp h
  obtain ⟨_, hfinish, h⟩ := bind_eq_ok_iff.mp h
  cases h
  obtain rfl := tokens_eq_lex hall
  obtain ⟨used, hused, hphrases⟩ :=
    listPhrase_of_readList (fun _ _ hread => phrase_of_readExpr hread) hparsed
  have hproper := hphrases.isProper fun _ _ hphrase => hphrase.isProper
  rwa [eq_kinds_of_expectFinish hused hproper hfinish] at hphrases

/-- The tokens of a text that is read as a select list make up this list. -/
theorem listPhrase_of_parseSelect {s : List Char} {items : List SelectItem}
    (h : parseSelect s = .ok items) : ListPhrase SelectPhrase (kinds s) items := by
  obtain ⟨all, hall, h⟩ := bind_eq_ok_iff.mp h
  obtain ⟨parsed, hparsed, h⟩ := bind_eq_ok_iff.mp h
  obtain ⟨_, hfinish, h⟩ := bind_eq_ok_iff.mp h
  cases h
  obtain rfl := tokens_eq_lex hall
  obtain ⟨used, hused, hphrases⟩ :=
    listPhrase_of_readList (fun _ _ hread => selectPhrase_of_readSelectItem hread) hparsed
  have hproper := hphrases.isProper fun _ _ hphrase => hphrase.isProper
  rwa [eq_kinds_of_expectFinish hused hproper hfinish] at hphrases

/-! ## Names in lists -/

/-- A name that stands alone in an item of a list stands alone in the list. -/
theorem ListPhrase.standsAlone {P : List Token → α → Prop} {s : String} {a : α}
    (ha : ∀ ts, P ts a → StandsAlone s ts) {ts : List Token} {as : List α}
    (h : ListPhrase P ts as) (hmem : a ∈ as) : StandsAlone s ts := by
  induction h with
  | last h =>
    obtain rfl := List.mem_singleton.mp hmem
    exact ha _ h
  | cons h _ ih =>
    rcases List.mem_cons.mp hmem with rfl | hmem
    · exact (ha _ h).append_right (by simp)
    · exact (ih hmem).behind rfl _

theorem SelectPhrase.standsAlone {s : String} {ts : List Token} {e : Expr}
    {columnName : Option String} (h : SelectPhrase ts (.column e columnName))
    (he : e.mentions s) : StandsAlone s ts := by
  cases h with
  | column h => exact h.standsAlone he
  | named _ h => exact (h.standsAlone he).append_right (by simp)

end Parser
end TableQuery
