import TableQuery.Proofs.Expression.Phrases
import TableQuery.Proofs.Query.Pieces
import TableQuery.Query.Fragment

/-!
# Parts of a query that are read as expressions

A part of a query without literals shows pieces: its characters, and a literal at every
placeholder of one.  What the part is read as is made of the tokens of these pieces, among
which there is no number sign.
-/

namespace TableQuery

open Token hiding text

namespace IsolatedQuery

open Piece

/-! ## The literals of a query -/

theorem isLiteral_of_isolateFrom {position count : Nat} {s : List Char} {isolated : IsolatedQuery}
    (h : isolateFrom position count s = .ok isolated) :
    ∀ written ∈ isolated.literals, IsLiteral written := by
  fun_induction isolateFrom position count s generalizing isolated
  case case1 position count =>
    cases h
    exact List.forall_mem_nil _
  case case2 position count c s hquote hclosing => cases h
  case case3 position count c s hquote n hclosing written position' ih =>
    obtain ⟨others, hothers, rfl⟩ := map_eq_ok_iff.mp h
    rw [opensLiteral_eq_isQuote] at hquote
    exact List.forall_mem_cons.mpr ⟨isLiteral_of_closing? hquote hclosing, ih hothers⟩
  case case4 position count c s hquote ih =>
    obtain ⟨others, hothers, rfl⟩ := map_eq_ok_iff.mp h
    exact (ih hothers :)

/-- The literals that a query sets aside are string literals. -/
theorem isLiteral_of_ofQuery {s : List Char} {query : IsolatedQuery}
    (h : ofQuery s = .ok query) : ∀ written ∈ query.literals, IsLiteral written := by
  unfold ofQuery at h
  split at h
  · cases h
  · next isolated hisolated =>
    cases h
    exact (isLiteral_of_isolateFrom hisolated :)

theorem isQuote_of_mem_placeholder {index : Nat} {c : Char} (hc : c ∈ placeholder index) :
    isQuote c = false := by
  have hopen : placeholderOpen.all (!isQuote ·) := by decide
  have hclose : placeholderClose.all (!isQuote ·) := by decide
  rw [placeholder, List.append_assoc, List.mem_append, List.mem_append] at hc
  rcases hc with hc | hc | hc
  · simpa using List.all_eq_true.mp hopen c hc
  · have hdigit := isDigit_of_mem_toDigits hc
    by_contra hquote
    simp only [isQuote, Bool.not_eq_false, Bool.or_eq_true, beq_iff_eq] at hquote
    rcases hquote with (rfl | rfl) | rfl <;> exact absurd hdigit (by decide)
  · simpa using List.all_eq_true.mp hclose c hc

theorem isQuote_of_isolateFrom {position count : Nat} {s : List Char} {isolated : IsolatedQuery}
    (h : isolateFrom position count s = .ok isolated) : ∀ c ∈ isolated.text, isQuote c = false := by
  fun_induction isolateFrom position count s generalizing isolated
  case case1 position count =>
    cases h
    exact List.forall_mem_nil _
  case case2 position count c s hquote hclosing => cases h
  case case3 position count c s hquote n hclosing written position' ih =>
    obtain ⟨others, hothers, rfl⟩ := map_eq_ok_iff.mp h
    exact List.forall_mem_append.mpr ⟨fun d hd => isQuote_of_mem_placeholder hd, ih hothers⟩
  case case4 position count c s hquote ih =>
    obtain ⟨others, hothers, rfl⟩ := map_eq_ok_iff.mp h
    rw [opensLiteral_eq_isQuote] at hquote
    exact List.forall_mem_cons.mpr ⟨by simpa using hquote, ih hothers⟩

theorem mem_of_mem_collapseFrom {inRun : Bool} {s : List Char} {c : Char}
    (h : c ∈ Text.collapseFrom inRun s) : c ∈ s ∨ c = ' ' := by
  induction s generalizing inRun with
  | nil => cases h
  | cons d s ih =>
    have hlater : ∀ {inRun}, c ∈ Text.collapseFrom inRun s → c ∈ d :: s ∨ c = ' ' :=
      fun h => (ih h).imp_left (List.mem_cons_of_mem d)
    rw [Text.collapseFrom] at h
    split at h
    · split at h
      · exact hlater h
      · exact (List.mem_cons.mp h).elim .inr hlater
    · rcases List.mem_cons.mp h with rfl | h
      · exact .inl List.mem_cons_self
      · exact hlater h

theorem mem_of_mem_trimEnd {s : List Char} {c : Char} (h : c ∈ Text.trimEnd s) : c ∈ s :=
  List.mem_reverse.mp ((List.dropWhile_suffix _).subset (List.mem_reverse.mp h))

theorem mem_of_mem_trim {s : List Char} {c : Char} (h : c ∈ Text.trim s) : c ∈ s :=
  (List.dropWhile_suffix _).subset (mem_of_mem_trimEnd h)

theorem mem_of_mem_dropSemicolon {s : List Char} {c : Char} (h : c ∈ dropSemicolon s) : c ∈ s := by
  unfold dropSemicolon at h
  dsimp only at h
  split at h
  · exact mem_of_mem_trim (List.dropLast_subset _ (mem_of_mem_trimEnd h))
  · exact mem_of_mem_trim h

/-- Quotes stand in the literals that a query sets aside, and not in its text. -/
theorem isQuote_of_ofQuery {s : List Char} {query : IsolatedQuery}
    (h : ofQuery s = .ok query) : ∀ c ∈ query.text, isQuote c = false := by
  unfold ofQuery at h
  split at h
  · cases h
  · next isolated hisolated =>
    cases h
    intro c hc
    rcases mem_of_mem_collapseFrom (mem_of_mem_dropSemicolon hc) with hc | rfl
    · exact isQuote_of_isolateFrom hisolated c hc
    · rfl

/-! ## What a part of a query shows -/

/-- Whether a text is the placeholder of a literal, with its number in any digits. -/
def IsPlaceholder (s : List Char) : Prop :=
  ∃ digits, (∀ c ∈ digits, c.isDigit = true) ∧ s = placeholderOpen ++ digits ++ placeholderClose

/-- A placeholder is found with all of its digits. -/
theorem eq_append_of_placeholder? {s digits : List Char} {n : Nat}
    (h : placeholder? s = some (digits, n)) : digits ≠ [] ∧ (∀ c ∈ digits, c.isDigit = true) ∧
      ∃ rest, s = placeholderOpen ++ (digits ++ (placeholderClose ++ rest)) ∧
        n = placeholderOpen.length + digits.length + placeholderClose.length := by
  obtain ⟨numbered, hopen, h⟩ := Option.bind_eq_some_iff.mp h
  obtain ⟨rest, hclose, h⟩ := Option.bind_eq_some_iff.mp h
  split at h
  · cases h
  · next hdigits =>
    cases h
    have hnumbered : numbered = numbered.takeWhile Char.isDigit ++ (placeholderClose ++ rest) := by
      rw [← Text.eq_append_of_isPrefixOf? hclose]
      exact (List.prefix_iff_eq_append.mp (List.takeWhile_prefix Char.isDigit)).symm
    refine ⟨by simpa using hdigits, List.all_eq_true.mp List.all_takeWhile, rest, ?_, rfl⟩
    rw [Text.eq_append_of_isPrefixOf? hopen, ← hnumbered]

theorem exists_of_placeholder? {s digits : List Char} {n : Nat}
    (h : placeholder? s = some (digits, n)) :
    ∃ shown rest, s = shown ++ rest ∧ shown.length = n ∧ IsPlaceholder shown := by
  obtain ⟨-, hdigits, rest, rfl, rfl⟩ := eq_append_of_placeholder? h
  refine ⟨placeholderOpen ++ digits ++ placeholderClose, rest, ?_, ?_, digits, hdigits, rfl⟩
  · simp only [List.append_assoc]
  · simp only [List.length_append]

/-- Whether a text shows pieces: characters as themselves and literals by placeholders. -/
inductive Shows : List Char → List Piece → Prop
  | nil : Shows [] []
  | char (c : Char) {s : List Char} {pieces : List Piece} (h : Shows s pieces) :
    Shows (c :: s) (char c :: pieces)
  | literal (index : Nat) (written : List Char) {shown s : List Char} {pieces : List Piece}
    (hshown : IsPlaceholder shown) (h : Shows s pieces) :
    Shows (shown ++ s) (literal index written :: pieces)

theorem Shows.chars_append {s : List Char} {pieces : List Piece} (h : Shows s pieces)
    (run : List Char) : Shows (run ++ s) (run.map Piece.char ++ pieces) := by
  induction run with
  | nil => exact h
  | cons c run ih => exact ih.char c

theorem Shows.exists_of_chars (run : List Char) {s : List Char} {pieces : List Piece}
    (h : Shows s (run.map Piece.char ++ pieces)) : ∃ t, s = run ++ t ∧ Shows t pieces := by
  induction run generalizing s with
  | nil => exact ⟨s, rfl, h⟩
  | cons c run ih =>
    cases h with
    | char _ h =>
      obtain ⟨t, rfl, ht⟩ := ih h
      exact ⟨t, rfl, ht⟩

/-- Putting literals back into a part of a query gives the pieces that it shows. -/
theorem exists_shows {query : IsolatedQuery} (hliterals : ∀ l ∈ query.literals, IsLiteral l)
    {s : List Char} (hs : ∀ c ∈ s, isQuote c = false) :
    ∃ pieces, Shows s pieces ∧ (∀ piece ∈ pieces, piece.IsWhole) ∧
      sources pieces = query.restore s := by
  fun_induction restore query s with
  | case1 => exact ⟨[], .nil, nofun, rfl⟩
  | case2 c s hnone ih =>
    obtain ⟨hc, hs⟩ := List.forall_mem_cons.mp hs
    obtain ⟨pieces, hshows, hwhole, hsources⟩ := ih hs
    refine ⟨char c :: pieces, hshows.char c, List.forall_mem_cons.mpr ⟨hc, hwhole⟩, ?_⟩
    rw [sources_cons, hsources]
    rfl
  | case3 c s digits n hsome shown ih =>
    obtain ⟨written, rest, hsplit, hlength, hplaceholder⟩ := exists_of_placeholder? hsome
    obtain ⟨d, written, rfl⟩ : ∃ d others, written = d :: others :=
      List.exists_cons_of_ne_nil (by
        obtain ⟨_, -, rfl⟩ := hplaceholder
        exact nofun)
    obtain ⟨rfl, rfl⟩ := List.cons.inj hsplit
    have hdrop : (written.append rest).drop (n - 1) = rest := by simp [← hlength]
    have htake : (c :: written.append rest).take n = c :: written := by simp [← hlength]
    rw [hdrop] at ih ⊢
    obtain ⟨pieces, hshows, hwhole, hsources⟩ :=
      ih fun d hd => hs d (List.mem_cons_of_mem _ (List.mem_append_right _ hd))
    subst shown
    split
    · next literal hliteral =>
      obtain ⟨index, -, hget⟩ := Option.bind_eq_some_iff.mp hliteral
      refine ⟨.literal index literal :: pieces, hshows.literal index literal hplaceholder,
        List.forall_mem_cons.mpr ⟨hliterals _ (List.mem_of_getElem? hget), hwhole⟩, ?_⟩
      rw [sources_cons, hsources]
      rfl
    · refine ⟨(c :: written).map Piece.char ++ pieces, hshows.chars_append (c :: written), ?_, ?_⟩
      · intro piece hpiece
        rcases List.mem_append.mp hpiece with hpiece | hpiece
        · obtain ⟨d, hd, rfl⟩ := List.mem_map.mp hpiece
          exact hs d (List.mem_append_left _ hd)
        · exact hwhole piece hpiece
      · rw [sources_append, sources_map_char, hsources, htake]

/-- What a part of a query is read as is made of the tokens of the pieces that it shows. -/
theorem exists_pieces_of_readExpr {query : IsolatedQuery}
    (hliterals : ∀ l ∈ query.literals, IsLiteral l) {kind : ClauseKind} {s : List Char}
    (hs : ∀ c ∈ s, isQuote c = false) {e : Expr} (h : query.readExpr kind s = .ok e) :
    ∃ pieces, Shows s pieces ∧ (∀ piece ∈ pieces, piece.IsWhole) ∧
      Parser.Phrase (kinds (sources pieces)) e := by
  obtain ⟨pieces, hshows, hwhole, hsources⟩ := exists_shows hliterals hs
  exact ⟨pieces, hshows, hwhole, hsources ▸ Parser.phrase_of_parseExpr (eq_ok_of_mapError h)⟩

/-- Nothing is read as an expression where there is nothing. -/
theorem ne_nil_of_readExpr {query : IsolatedQuery} {kind : ClauseKind} {s : List Char} {e : Expr}
    (h : query.readExpr kind s = .ok e) : s ≠ [] := by
  rintro rfl
  have hparse := eq_ok_of_mapError h
  rw [restore] at hparse
  exact (Parser.phrase_of_parseExpr hparse).ne_nil kinds_nil

end IsolatedQuery
end TableQuery
