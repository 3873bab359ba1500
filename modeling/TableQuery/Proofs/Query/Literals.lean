import Mathlib.Data.List.Induction
import TableQuery.Proofs.Query.Pieces

/-!
# Cleaning a query keeps its tokens

White space is collapsed and cut off in the text without literals.  In terms of pieces,
blank characters outside of literals are replaced by one space, or dropped at the ends, so
that the same tokens are found when the literals are back.  The two scanners, the one that
sets literals aside and the one that finds tokens, agree on where literals end.
-/

namespace TableQuery

open Token hiding text

namespace Piece

/-- Whether a piece is a blank character outside of literals. -/
def isBlank : Piece → Bool
  | char c => Text.isBlank c
  | literal _ _ => false

theorem isBlank_of_mem_placeholder {index : Nat} {c : Char}
    (hc : c ∈ IsolatedQuery.placeholder index) : Text.isBlank c = false := by
  have hopen : IsolatedQuery.placeholderOpen.all fun c => !Text.isBlank c := by decide
  have hclose : IsolatedQuery.placeholderClose.all fun c => !Text.isBlank c := by decide
  rw [IsolatedQuery.placeholder, List.append_assoc, List.mem_append, List.mem_append] at hc
  obtain hc | hc | hc := hc
  · simpa using List.all_eq_true.mp hopen c hc
  · exact isBlank_of_isDigit (isDigit_of_mem_toDigits hc)
  · simpa using List.all_eq_true.mp hclose c hc

/-- A piece that is not blank has no blank character in the text without literals. -/
theorem isBlank_of_mem_text {piece : Piece} (hpiece : piece.isBlank = false) :
    ∀ c ∈ piece.text, Text.isBlank c = false := by
  cases piece with
  | char c =>
    rintro _ hc
    obtain rfl := List.mem_singleton.mp hc
    exact hpiece
  | literal index written => exact fun c hc => isBlank_of_mem_placeholder hc

theorem text_ne_nil (piece : Piece) : piece.text ≠ [] := by
  cases piece with
  | char c => exact List.cons_ne_nil c []
  | literal index written => exact nofun

/-! ## White space -/

/-- Pieces with every run of blank ones replaced by one space.  `inRun` says whether the
piece before them was blank. -/
def collapse (inRun : Bool) : List Piece → List Piece
  | [] => []
  | piece :: pieces =>
    if piece.isBlank then
      if inRun then collapse true pieces else char ' ' :: collapse true pieces
    else
      piece :: collapse false pieces

theorem collapseFrom_append {s : List Char} (hne : s ≠ [])
    (hs : ∀ c ∈ s, Text.isBlank c = false) (inRun : Bool) (rest : List Char) :
    Text.collapseFrom inRun (s ++ rest) = s ++ Text.collapseFrom false rest := by
  induction s generalizing inRun with
  | nil => exact absurd rfl hne
  | cons c s ih =>
    obtain ⟨hc, hs⟩ := List.forall_mem_cons.mp hs
    rw [List.cons_append, Text.collapseFrom, if_neg (by simp [hc])]
    cases s with
    | nil => rfl
    | cons d s => exact congrArg (c :: ·) (ih (List.cons_ne_nil d s) hs false)

theorem texts_collapse (inRun : Bool) (pieces : List Piece) :
    texts (collapse inRun pieces) = Text.collapseFrom inRun (texts pieces) := by
  induction pieces generalizing inRun with
  | nil => rfl
  | cons piece pieces ih =>
    cases hpiece : piece.isBlank with
    | false =>
      rw [collapse, if_neg (by simp [hpiece]), texts_cons, texts_cons, ih,
        collapseFrom_append (text_ne_nil piece) (isBlank_of_mem_text hpiece)]
    | true =>
      cases piece with
      | literal index written => cases hpiece
      | char c =>
        have hc : Text.isBlank c := hpiece
        rw [collapse, if_pos hpiece, texts_cons, Piece.text, List.singleton_append,
          Text.collapseFrom, if_pos hc]
        cases inRun with
        | true => exact ih true
        | false => exact congrArg (' ' :: ·) (ih true)

theorem mem_collapse {inRun : Bool} {pieces : List Piece} {piece : Piece}
    (h : piece ∈ collapse inRun pieces) : piece ∈ pieces ∨ piece = char ' ' := by
  fun_induction collapse inRun pieces <;> grind

theorem kinds_of_blank {blanks : List Piece} (h : ∀ piece ∈ blanks, piece.isBlank)
    (rest : List Char) : kinds (sources blanks ++ rest) = kinds rest := by
  induction blanks with
  | nil => rfl
  | cons piece blanks ih =>
    obtain ⟨hpiece, hblanks⟩ := List.forall_mem_cons.mp h
    cases piece with
    | literal index written => cases hpiece
    | char c =>
      rw [sources_cons, source, List.singleton_append, List.cons_append,
        kinds_cons_of_isBlank hpiece, ih hblanks]

theorem kinds_append_blank {before : List Piece} (hbefore : ∀ piece ∈ before, piece.IsWhole)
    {c : Char} (hc : Text.isBlank c) (pieces : List Piece) :
    kinds (sources (before ++ char c :: pieces)) =
      kinds (sources before) ++ kinds (sources pieces) := by
  rw [sources_append, sources_cons, source, List.singleton_append,
    kinds_sources_append hbefore (startsAtBreak_cons (isBreak_of_isBlank hc) _),
    kinds_cons_of_isBlank hc]

/-- Pieces have the same tokens when runs of blank ones are collapsed. -/
theorem kinds_collapse {before pieces : List Piece} {inRun : Bool}
    (hbefore : ∀ piece ∈ before, piece.IsWhole) (hpieces : ∀ piece ∈ pieces, piece.IsWhole)
    (hrun : inRun → before = []) :
    kinds (sources (before ++ collapse inRun pieces)) = kinds (sources (before ++ pieces)) := by
  -- Behind a blank piece the tokens do not depend on what stands before it.
  induction pieces generalizing before inRun with
  | nil => rfl
  | cons piece pieces ih =>
    obtain ⟨hpiece, hothers⟩ := List.forall_mem_cons.mp hpieces
    cases hblank : piece.isBlank with
    | false =>
      have hmore : ∀ other ∈ before ++ [piece], other.IsWhole := by
        simpa [or_imp, forall_and] using ⟨hbefore, hpiece⟩
      have hsame : kinds (sources (before ++ [piece] ++ collapse false pieces)) =
          kinds (sources (before ++ [piece] ++ pieces)) :=
        ih hmore hothers fun h => by cases h
      rw [collapse, if_neg (by simp [hblank])]
      simpa only [List.append_assoc, List.singleton_append] using hsame
    | true =>
      cases piece with
      | literal index written => cases hblank
      | char c =>
        have hc : Text.isBlank c := hblank
        have hrest : kinds (sources ([] ++ collapse true pieces)) =
            kinds (sources ([] ++ pieces)) :=
          ih (List.forall_mem_nil _) hothers fun _ => rfl
        rw [List.nil_append, List.nil_append] at hrest
        rw [collapse, if_pos hblank]
        cases inRun with
        | true =>
          obtain rfl := hrun rfl
          rw [List.nil_append, List.nil_append, if_pos rfl, hrest, sources_cons, source,
            List.singleton_append, kinds_cons_of_isBlank hc]
        | false =>
          rw [if_neg Bool.false_ne_true, kinds_append_blank hbefore hc,
            kinds_append_blank hbefore (by decide), hrest]

/-! ## The ends -/

theorem trimStart_append {s : List Char} (hne : s ≠ []) (hs : ∀ c ∈ s, Text.isBlank c = false)
    (rest : List Char) : Text.trimStart (s ++ rest) = s ++ rest := by
  cases s with
  | nil => exact absurd rfl hne
  | cons c s => simp [Text.trimStart, hs c List.mem_cons_self]

theorem trimEnd_append {s : List Char} (hne : s ≠ []) (hs : ∀ c ∈ s, Text.isBlank c = false)
    (before : List Char) : Text.trimEnd (before ++ s) = before ++ s := by
  have htrim := trimStart_append (s := s.reverse) (by simpa using hne) (by simpa using hs)
    before.reverse
  rw [Text.trimStart] at htrim
  rw [Text.trimEnd, Text.trimEndBy, List.reverse_append, htrim]
  simp

theorem trimEnd_concat_of_isBlank {c : Char} (hc : Text.isBlank c) (s : List Char) :
    Text.trimEnd (s ++ [c]) = Text.trimEnd s := by
  simp [Text.trimEnd, Text.trimEndBy, hc]

/-- The text is cut off between pieces at its start. -/
theorem exists_trimStart (pieces : List Piece) :
    ∃ blanks rest, pieces = blanks ++ rest ∧ (∀ piece ∈ blanks, piece.isBlank) ∧
      Text.trimStart (texts pieces) = texts rest := by
  induction pieces with
  | nil => exact ⟨[], [], rfl, nofun, rfl⟩
  | cons piece pieces ih =>
    cases hpiece : piece.isBlank with
    | false =>
      refine ⟨[], piece :: pieces, rfl, nofun, ?_⟩
      rw [texts_cons, trimStart_append (text_ne_nil piece) (isBlank_of_mem_text hpiece)]
    | true =>
      cases piece with
      | literal index written => cases hpiece
      | char c =>
        obtain ⟨blanks, rest, rfl, hblanks, htrim⟩ := ih
        refine ⟨char c :: blanks, rest, rfl, List.forall_mem_cons.mpr ⟨hpiece, hblanks⟩, ?_⟩
        have hc : Text.isBlank c := hpiece
        rw [← htrim, texts_cons, Piece.text, List.singleton_append, Text.trimStart,
          List.dropWhile_cons_of_pos hc]
        rfl

/-- The text is cut off between pieces at its end. -/
theorem exists_trimEnd (pieces : List Piece) :
    ∃ rest blanks, pieces = rest ++ blanks ∧ (∀ piece ∈ blanks, piece.isBlank) ∧
      Text.trimEnd (texts pieces) = texts rest ∧
      ∀ piece ∈ rest.getLast?, piece.isBlank = false := by
  induction pieces using List.reverseRecOn with
  | nil => exact ⟨[], [], rfl, nofun, rfl, nofun⟩
  | append_singleton pieces piece ih =>
    cases hpiece : piece.isBlank with
    | false =>
      refine ⟨pieces ++ [piece], [], (List.append_nil _).symm, nofun, ?_, by simpa using hpiece⟩
      rw [texts_append, texts_cons, texts_nil, List.append_nil,
        trimEnd_append (text_ne_nil piece) (isBlank_of_mem_text hpiece)]
    | true =>
      cases piece with
      | literal index written => cases hpiece
      | char c =>
        obtain ⟨rest, blanks, rfl, hblanks, htrim, hlast⟩ := ih
        refine ⟨rest, blanks ++ [char c], List.append_assoc _ _ _, ?_, ?_, hlast⟩
        · simpa [or_imp, forall_and] using ⟨hblanks, hpiece⟩
        · rw [← htrim, texts_append, texts_cons, texts_nil, List.append_nil]
          exact trimEnd_concat_of_isBlank hpiece _

/-! ## A final semicolon -/

/-- Tokens without a semicolon at their end. -/
def withoutSemicolon (tokens : List Token) : List Token :=
  if tokens.getLast? = some (.symbol .semicolon) then tokens.dropLast else tokens

/-- The last tokens of pieces: there are none only if all pieces are blank, and a semicolon
is a piece with only blank ones behind it. -/
theorem getLast?_kinds {pieces : List Piece} (hwhole : ∀ piece ∈ pieces, piece.IsWhole) :
    (kinds (sources pieces) = [] → ∀ piece ∈ pieces, piece.isBlank) ∧
      ((kinds (sources pieces)).getLast? = some (.symbol .semicolon) →
        ∃ before blanks, pieces = before ++ char ';' :: blanks ∧
          ∀ piece ∈ blanks, piece.isBlank) := by
  refine kinds_induction (motive := fun pieces tokens =>
    (tokens = [] → ∀ piece ∈ pieces, piece.isBlank) ∧
      (tokens.getLast? = some (.symbol .semicolon) →
        ∃ before blanks, pieces = before ++ char ';' :: blanks ∧
          ∀ piece ∈ blanks, piece.isBlank)) ?nil ?blank ?run ?literal hwhole
  case nil => exact ⟨fun _ => nofun, nofun⟩
  case blank =>
    intro c pieces hblank ⟨hnone, hlast⟩
    refine ⟨fun h => List.forall_mem_cons.mpr ⟨hblank, hnone h⟩, fun h => ?_⟩
    obtain ⟨before, blanks, rfl, hblanks⟩ := hlast h
    exact ⟨char c :: before, blanks, rfl, hblanks⟩
  case run =>
    intro c run pieces token hquote hread ⟨hnone, hlast⟩
    refine ⟨nofun, fun h => ?_⟩
    cases htokens : kinds (sources pieces) with
    | nil =>
      rw [htokens] at h
      obtain rfl := Option.some.inj h
      obtain rfl := eq_of_read_eq_semicolon hquote (congrArg Prod.fst hread)
      rw [read_of_isBreak (by decide) (by decide)] at hread
      obtain rfl : run = [] := List.length_eq_zero_iff.mp (congrArg Prod.snd hread).symm
      exact ⟨[], pieces, rfl, hnone htokens⟩
    | cons token tokens =>
      rw [htokens, List.getLast?_cons_cons, ← htokens] at h
      obtain ⟨before, blanks, rfl, hblanks⟩ := hlast h
      exact ⟨char c :: (run.map char ++ before), blanks, by simp, hblanks⟩
  case literal =>
    intro index written content pieces ⟨hnone, hlast⟩
    refine ⟨nofun, fun h => ?_⟩
    cases htokens : kinds (sources pieces) with
    | nil =>
      rw [htokens] at h
      cases h
    | cons token tokens =>
      rw [htokens, List.getLast?_cons_cons, ← htokens] at h
      obtain ⟨before, blanks, rfl, hblanks⟩ := hlast h
      exact ⟨literal index written :: before, blanks, rfl, hblanks⟩

/-- A text without literals ends with a semicolon only where its pieces do. -/
theorem exists_of_getLast?_texts {pieces : List Piece}
    (h : (texts pieces).getLast? = some ';') : ∃ before, pieces = before ++ [char ';'] := by
  obtain rfl | ⟨before, piece, rfl⟩ := List.eq_nil_or_concat pieces
  · cases h
  · rw [List.concat_eq_append] at h ⊢
    rw [texts_append, texts_cons, texts_nil, List.append_nil] at h
    cases piece with
    | char c =>
      obtain rfl : c = ';' := by simpa [Piece.text] using h
      exact ⟨before, rfl⟩
    | literal index written =>
      have hclose : IsolatedQuery.placeholderClose.getLast? = some '#' := rfl
      simp [Piece.text, IsolatedQuery.placeholder, List.getLast?_append, hclose] at h

/-- A semicolon behind pieces is the last of their tokens. -/
theorem kinds_append_semicolon {before : List Piece}
    (hbefore : ∀ piece ∈ before, piece.IsWhole) :
    kinds (sources (before ++ [char ';'])) =
      kinds (sources before) ++ [.symbol .semicolon] := by
  have hread : Token.read ';' [] = (.symbol .semicolon, 0) := by decide
  have hsemicolon : kinds (sources [char ';']) = [.symbol .semicolon] := by
    rw [sources_cons, source, List.singleton_append, kinds_cons (by decide), sources_nil, hread,
      List.drop_zero, kinds_nil]
  have hbreak : StartsAtBreak (sources [char ';']) := startsAtBreak_cons (by decide) []
  rw [sources_append, kinds_sources_append hbefore hbreak, hsemicolon]

/-- Blank pieces at the end have no tokens. -/
theorem kinds_append_blanks {before blanks : List Piece}
    (hbefore : ∀ piece ∈ before, piece.IsWhole) (hblanks : ∀ piece ∈ blanks, piece.isBlank) :
    kinds (sources (before ++ blanks)) = kinds (sources before) := by
  cases blanks with
  | nil => rw [List.append_nil]
  | cons piece blanks =>
    obtain ⟨hpiece, hothers⟩ := List.forall_mem_cons.mp hblanks
    cases piece with
    | literal index written => cases hpiece
    | char c =>
      have hnone := kinds_of_blank hothers []
      rw [List.append_nil, kinds_nil] at hnone
      rw [kinds_append_blank hbefore hpiece, hnone, List.append_nil]

/-- A text is trimmed between pieces, which keeps its tokens. -/
theorem exists_trim {pieces : List Piece} (hwhole : ∀ piece ∈ pieces, piece.IsWhole) :
    ∃ kept, kept.Sublist pieces ∧ Text.trim (texts pieces) = texts kept ∧
      kinds (sources kept) = kinds (sources pieces) ∧
      ∀ piece ∈ kept.getLast?, piece.isBlank = false := by
  obtain ⟨front, rest, rfl, hfront, hstart⟩ := exists_trimStart pieces
  obtain ⟨kept, back, rfl, hback, hend, hlast⟩ := exists_trimEnd rest
  have hkept : ∀ piece ∈ kept, piece.IsWhole := fun piece hpiece =>
    hwhole piece (List.mem_append_right _ (List.mem_append_left _ hpiece))
  refine ⟨kept, ?_, ?_, ?_, hlast⟩
  · exact (List.sublist_append_left kept back).trans (List.sublist_append_right front _)
  · rw [← hend, ← hstart]
    rfl
  · rw [sources_append, kinds_of_blank hfront, kinds_append_blanks hkept hback]

/-- Cleaning a text drops a semicolon from its end if that is its last token. -/
theorem exists_dropSemicolon {pieces : List Piece} (hwhole : ∀ piece ∈ pieces, piece.IsWhole) :
    ∃ kept, kept.Sublist pieces ∧
      IsolatedQuery.dropSemicolon (texts pieces) = texts kept ∧
      kinds (sources kept) = withoutSemicolon (kinds (sources pieces)) := by
  obtain ⟨kept, hsublist, htrim, hkinds, hend⟩ := exists_trim hwhole
  have hkept : ∀ piece ∈ kept, piece.IsWhole := fun piece hpiece =>
    hwhole piece (hsublist.subset hpiece)
  rw [IsolatedQuery.dropSemicolon, htrim, ← hkinds]
  by_cases hlast : (texts kept).getLast? = some ';'
  · obtain ⟨before, rfl⟩ := exists_of_getLast?_texts hlast
    have hbefore : ∀ piece ∈ before, piece.IsWhole := fun piece hpiece =>
      hkept piece (List.mem_append_left _ hpiece)
    obtain ⟨rest, blanks, rfl, hblanks, htrimEnd, -⟩ := exists_trimEnd before
    have hrest : ∀ piece ∈ rest, piece.IsWhole := fun piece hpiece =>
      hbefore piece (List.mem_append_left _ hpiece)
    refine ⟨rest, ?_, ?_, ?_⟩
    · exact (List.sublist_append_left rest blanks).trans
        ((List.sublist_append_left _ _).trans hsublist)
    · have htexts : texts (rest ++ blanks ++ [char ';']) = texts (rest ++ blanks) ++ [';'] :=
        texts_append _ _
      rw [htexts] at hlast ⊢
      rw [if_pos (by simp), List.dropLast_concat, htrimEnd]
    · rw [kinds_append_semicolon hbefore, withoutSemicolon, if_pos (by simp),
        List.dropLast_concat, kinds_append_blanks hrest hblanks]
  · refine ⟨kept, hsublist, ?_, ?_⟩
    · rw [if_neg (by simpa using hlast)]
    · rw [withoutSemicolon, if_neg]
      intro hsemicolon
      obtain ⟨before, blanks, rfl, hblanks⟩ := (getLast?_kinds hkept).2 hsemicolon
      -- No blank piece is left behind the semicolon, so the text would end with it.
      obtain rfl | ⟨others, piece, rfl⟩ := List.eq_nil_or_concat blanks
      · exact hlast (by simp [Piece.text])
      · have hblank := hblanks piece (by simp)
        have hvisible := hend piece (by
          rw [List.concat_eq_append, ← List.cons_append, ← List.append_assoc]
          exact List.getLast?_concat)
        rw [hblank] at hvisible
        cases hvisible

end Piece

namespace IsolatedQuery

open Piece

theorem length_literals_le {position count : Nat} {s : List Char} {isolated : IsolatedQuery}
    (h : isolateFrom position count s = .ok isolated) : isolated.literals.length ≤ s.length := by
  fun_induction isolateFrom position count s generalizing isolated
  case case1 position count =>
    cases h
    exact Nat.le_refl 0
  case case2 position count c s hquote hclosing => cases h
  case case3 position count c s hquote n hclosing written position' ih =>
    obtain ⟨others, hothers, rfl⟩ := map_eq_ok_iff.mp h
    have hlength := ih hothers
    rw [List.length_drop] at hlength
    simp only [List.length_cons]
    omega
  case case4 position count c s hquote ih =>
    obtain ⟨others, hothers, rfl⟩ := map_eq_ok_iff.mp h
    have hlength := ih hothers
    exact Nat.le_succ_of_le hlength

theorem length_dropComments_le (query : List Char) :
    (dropComments query).length ≤ query.length :=
  Text.length_joinWith_lines_le _ query

/-- The cleaned text with its literals put back has the tokens of the query. -/
theorem kinds_restore {position : Nat} {s : List Char} {isolated cleaned : IsolatedQuery}
    (hisolated : isolateFrom position 0 s = .ok isolated)
    (hliterals : cleaned.literals = isolated.literals)
    (hsize : cleaned.literals.length ≤ UInt64.size)
    (hmark : .fault (.unexpectedCharacter '#') ∉ kinds s) :
    kinds (cleaned.restore (dropSemicolon (Text.collapseBlanks isolated.text))) =
      withoutSemicolon (kinds s) := by
  obtain ⟨pieces, rfl, htexts, hwhole, hnumbers⟩ := exists_pieces_of_isolateFrom hisolated
  have hcollapsed : ∀ piece ∈ collapse false pieces, piece.IsWhole := by
    intro piece hpiece
    obtain hpiece | rfl := mem_collapse hpiece
    · exact hwhole piece hpiece
    · exact (by decide : isQuote ' ' = false)
  obtain ⟨kept, hsublist, hdrop, hkinds⟩ := exists_dropSemicolon hcollapsed
  have hkept : ∀ piece ∈ kept, piece ∈ pieces ∨ piece = char ' ' := fun piece hpiece =>
    mem_collapse (hsublist.subset hpiece)
  have hkeptMark : char '#' ∉ kept := by
    intro hmem
    obtain hmem | heq := hkept _ hmem
    · exact hmark (unexpectedCharacter_mem_kinds hwhole hmem)
    · cases heq
  have hkeptNumbers : Numbers 0 cleaned.literals kept := by
    intro index written hmem
    rw [hliterals]
    obtain hmem | heq := hkept _ hmem
    · exact hnumbers index written hmem
    · cases heq
  have hsame : kinds (sources ([] ++ collapse false pieces)) = kinds (sources ([] ++ pieces)) :=
    kinds_collapse nofun hwhole nofun
  rw [List.nil_append, List.nil_append] at hsame
  rw [Text.collapseBlanks, ← htexts, ← texts_collapse, hdrop,
    restore_texts hsize hkeptMark hkeptNumbers, hkinds, hsame]

/-- A literal that lacks its end is met by both scanners. -/
theorem unterminatedString_mem_kinds {position fault : Nat} {s : List Char}
    (h : isolateFrom position 0 s = .error fault) : .fault .unterminatedString ∈ kinds s := by
  obtain ⟨pieces, quote, rest, rfl, hwhole, hquote, hread⟩ := exists_pieces_of_isolateFrom_error h
  have hbreak : StartsAtBreak (quote :: rest) := startsAtBreak_cons (isBreak_of_isQuote hquote) rest
  rw [kinds_sources_append hwhole hbreak, kinds_cons (isBlank_of_isQuote hquote), Token.read,
    if_pos hquote, hread]
  exact List.mem_append_right _ List.mem_cons_self

/-- A query without its comments, in which every number sign is part of a literal, is
cleaned unless a literal lacks its end.  Its tokens are those of the cleaned text with the
literals put back, except for a semicolon at the end.  The size of a query fits into a
machine word, and so do the numbers of its literals. -/
theorem ofQuery_tokens {query : List Char} (hsize : query.length < UInt64.size)
    (hmark : .fault (.unexpectedCharacter '#') ∉ kinds (dropComments query)) :
    ((∃ position, ofQuery query = .error (.unterminatedLiteral position)) ↔
      .fault .unterminatedString ∈ kinds (dropComments query)) ∧
    (.fault .unterminatedString ∉ kinds (dropComments query) →
      ∃ isolated, ofQuery query = .ok isolated ∧
        kinds (isolated.restore isolated.text) =
          withoutSemicolon (kinds (dropComments query))) := by
  cases hisolated : isolateFrom 0 0 (dropComments query) with
  | error position =>
    have hmem := unterminatedString_mem_kinds hisolated
    have hquery : ofQuery query = .error (.unterminatedLiteral position) := by
      rw [ofQuery, hisolated]
    exact ⟨iff_of_true ⟨position, hquery⟩ hmem, fun hnot => absurd hmem hnot⟩
  | ok isolated =>
    obtain ⟨pieces, hsources, -, hwhole, -⟩ := exists_pieces_of_isolateFrom hisolated
    have hnot := unterminatedString_not_mem_kinds hwhole
    rw [hsources] at hnot
    have hliterals : isolated.literals.length ≤ UInt64.size := by
      have hcount := length_literals_le hisolated
      have hlength := length_dropComments_le query
      omega
    have hquery : ofQuery query =
        .ok { isolated with text := dropSemicolon (Text.collapseBlanks isolated.text) } := by
      rw [ofQuery, hisolated]
    refine ⟨iff_of_false ?_ hnot, fun _ => ⟨_, hquery, ?_⟩⟩
    · rintro ⟨position, herror⟩
      rw [hquery] at herror
      cases herror
    · exact kinds_restore hisolated rfl hliterals hmark

/-- A literal that reads like the placeholder of the next one is put back as it is. -/
theorem ofQuery_tokens_lookalike :
    ∃ isolated,
      ofQuery "# all\nselect '###RBQL_STRING_LITERAL1### ;', \"it's\" ;\n".toList = .ok isolated ∧
        kinds (isolated.restore isolated.text) =
          [name "select", Token.text "###RBQL_STRING_LITERAL1### ;", symbol .comma,
            Token.text "it's"] := by
  have hsize : "# all\nselect '###RBQL_STRING_LITERAL1### ;', \"it's\" ;\n".toList.length <
      UInt64.size := by decide
  obtain ⟨isolated, hquery, htokens⟩ :=
    (ofQuery_tokens hsize (by decide +kernel)).2 (by decide +kernel)
  exact ⟨isolated, hquery, htokens.trans (by decide +kernel)⟩

end IsolatedQuery
end TableQuery
