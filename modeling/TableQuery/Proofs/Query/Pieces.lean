import TableQuery.Proofs.Except
import TableQuery.Proofs.Expression.Lexing
import TableQuery.Proofs.Text.Search
import TableQuery.Query.Literals

/-!
# Queries as pieces

A query is taken as a list of pieces, which are string literals and the characters outside
of them.  A piece stands in the query as it is written, and in the text without literals as
itself or as a placeholder.  Tokens are divided at the ends of pieces, so that the kinds of
the tokens can be found piece by piece.
-/

namespace TableQuery

open Token hiding text

/-- A part of a query: a character outside of string literals, or a string literal with its
number and its quotes. -/
inductive Piece where
  | char (c : Char)
  | literal (index : Nat) (written : List Char)

namespace Piece

/-- A piece as it is written. -/
def source : Piece → List Char
  | char c => [c]
  | literal _ written => written

/-- A piece in a text without literals. -/
def text : Piece → List Char
  | char c => [c]
  | literal index _ => IsolatedQuery.placeholder index

/-- Pieces as they are written. -/
def sources (pieces : List Piece) : List Char :=
  pieces.flatMap source

/-- Pieces in a text without literals. -/
def texts (pieces : List Piece) : List Char :=
  pieces.flatMap text

@[simp] theorem sources_nil : sources [] = [] :=
  rfl

@[simp] theorem sources_cons (piece : Piece) (pieces : List Piece) :
    sources (piece :: pieces) = piece.source ++ sources pieces :=
  List.flatMap_cons

@[simp] theorem sources_append (pieces pieces' : List Piece) :
    sources (pieces ++ pieces') = sources pieces ++ sources pieces' :=
  List.flatMap_append

@[simp] theorem sources_map_char (s : List Char) : sources (s.map char) = s := by
  induction s with
  | nil => rfl
  | cons c s ih => simp [source, ih]

@[simp] theorem texts_nil : texts [] = [] :=
  rfl

@[simp] theorem texts_cons (piece : Piece) (pieces : List Piece) :
    texts (piece :: pieces) = piece.text ++ texts pieces :=
  List.flatMap_cons

@[simp] theorem texts_append (pieces pieces' : List Piece) :
    texts (pieces ++ pieces') = texts pieces ++ texts pieces' :=
  List.flatMap_append

/-- A string literal as it is written, from its first quote to its last. -/
def IsLiteral (written : List Char) : Prop :=
  ∃ quote s content, written = quote :: s ∧ isQuote quote ∧
    ∀ rest, readString? quote (s ++ rest) = some (content, s.length)

theorem isLiteral_of_readString? {quote : Char} {s content : List Char} {count : Nat}
    (hquote : isQuote quote) (h : readString? quote s = some (content, count)) :
    IsLiteral (quote :: s.take count) := by
  obtain ⟨hle, htake⟩ := readString?_take h
  exact ⟨quote, s.take count, content, rfl, hquote, by rwa [List.length_take_of_le hle]⟩

/-- A piece that is a whole string literal or a character outside of one. -/
def IsWhole : Piece → Prop
  | char c => isQuote c = false
  | literal _ written => IsLiteral written

/-! ## Tokens of pieces -/

/-- Characters at the front of a text that are no quotes are pieces of their own. -/
theorem exists_eq_map_char_append {pieces : List Piece} (hwhole : ∀ piece ∈ pieces, piece.IsWhole)
    {run rest : List Char} (hrun : ∀ c ∈ run, isQuote c = false)
    (hsources : sources pieces = run ++ rest) :
    ∃ others, pieces = run.map char ++ others ∧ sources others = rest := by
  induction run generalizing pieces with
  | nil => exact ⟨pieces, rfl, hsources⟩
  | cons c run ih =>
    obtain ⟨hc, hrest⟩ := List.forall_mem_cons.mp hrun
    cases pieces with
    | nil => cases hsources
    | cons piece pieces =>
      obtain ⟨hpiece, hpieces⟩ := List.forall_mem_cons.mp hwhole
      cases piece with
      | char d =>
        obtain ⟨rfl, htail⟩ := List.cons.inj hsources
        obtain ⟨others, rfl, hothers⟩ := ih hpieces hrest htail
        exact ⟨others, rfl, hothers⟩
      | literal index written =>
        obtain ⟨quote, s, content, rfl, hquote, -⟩ := hpiece
        obtain ⟨rfl, -⟩ := List.cons.inj hsources
        rw [hc] at hquote
        cases hquote

/-- Tokens are found from the front of a list of pieces: blank characters are passed over,
and a token is a string literal or a run of characters. -/
theorem token_induction {motive : List Piece → Prop} (nil : motive [])
    (blank : ∀ c pieces, Text.isBlank c → motive pieces → motive (char c :: pieces))
    (run : ∀ c run pieces, Text.isBlank c = false → isQuote c = false →
      (read c (run ++ sources pieces)).2 = run.length → motive pieces →
        motive (char c :: (run.map char ++ pieces)))
    (literal : ∀ index written pieces, IsLiteral written → motive pieces →
      motive (literal index written :: pieces))
    {pieces : List Piece} (hwhole : ∀ piece ∈ pieces, piece.IsWhole) : motive pieces := by
  generalize hlength : pieces.length = n
  induction n using Nat.strongRecOn generalizing pieces with
  | _ n ih =>
    cases pieces with
    | nil => exact nil
    | cons piece pieces =>
      obtain ⟨hpiece, hpieces⟩ := List.forall_mem_cons.mp hwhole
      have hlt : pieces.length < n := hlength ▸ Nat.lt_succ_self _
      cases piece with
      | literal index written =>
        exact literal index written pieces hpiece (ih _ hlt hpieces rfl)
      | char c =>
        cases hblank : Text.isBlank c with
        | true => exact blank c pieces hblank (ih _ hlt hpieces rfl)
        | false =>
          -- The run is what the token takes of the text behind its first character.
          obtain ⟨taken, left, hsplit, hcount, hbreak⟩ :=
            exists_append_of_read hpiece (sources pieces)
          obtain ⟨others, rfl, rfl⟩ := exists_eq_map_char_append hpieces
            (fun d hd => isQuote_of_not_isBreak (hbreak d hd)) hsplit
          rw [hsplit] at hcount
          refine run c taken others hblank hpiece hcount (ih _ ?_ (fun other hother => ?_) rfl)
          · rw [List.length_append] at hlt
            omega
          · exact hpieces other (List.mem_append_right _ hother)

/-- A string literal is one token. -/
theorem exists_read_of_isLiteral {written : List Char} (h : IsLiteral written) :
    ∃ quote s content, written = quote :: s ∧ Text.isBlank quote = false ∧
      ∀ rest, read quote (s ++ rest) = (.text (String.ofList content), s.length) := by
  obtain ⟨quote, s, content, rfl, hquote, hread⟩ := h
  refine ⟨quote, s, content, rfl, isBlank_of_isQuote hquote, fun rest => ?_⟩
  rw [Token.read, if_pos hquote, hread]

/-- The tokens of pieces and of a text that begins with a break are found one after the
other. -/
theorem kinds_sources_append {pieces : List Piece} (hwhole : ∀ piece ∈ pieces, piece.IsWhole)
    {rest : List Char} (hrest : StartsAtBreak rest) :
    kinds (sources pieces ++ rest) = kinds (sources pieces) ++ kinds rest := by
  refine token_induction (motive := fun pieces =>
    kinds (sources pieces ++ rest) = kinds (sources pieces) ++ kinds rest)
    ?nil ?blank ?run ?literal hwhole
  case nil => simp [kinds_nil]
  case blank =>
    intro c pieces hblank ih
    simp only [sources_cons, source, List.cons_append, List.nil_append]
    rw [kinds_cons_of_isBlank hblank, kinds_cons_of_isBlank hblank, ih]
  case run =>
    intro c run pieces hblank hquote hcount ih
    simp only [sources_cons, sources_append, sources_map_char, source, List.cons_append,
      List.nil_append]
    rw [kinds_cons hblank, kinds_cons hblank, read_append hquote hrest, hcount,
      List.append_assoc, List.drop_left, List.drop_left, ih, List.cons_append]
  case literal =>
    intro index written pieces hliteral ih
    obtain ⟨quote, s, content, rfl, hblank, hread⟩ := exists_read_of_isLiteral hliteral
    simp only [sources_cons, source, List.cons_append, List.append_assoc]
    rw [kinds_cons hblank, kinds_cons hblank, hread, hread, List.drop_left, List.drop_left, ih,
      List.cons_append]

/-- The kinds of tokens are found from the front of a list of pieces. -/
theorem kinds_induction {motive : List Piece → List Token → Prop} (nil : motive [] [])
    (blank : ∀ c pieces, Text.isBlank c → motive pieces (kinds (sources pieces)) →
      motive (char c :: pieces) (kinds (sources pieces)))
    (run : ∀ c run pieces token, isQuote c = false →
      read c (run ++ sources pieces) = (token, run.length) →
        motive pieces (kinds (sources pieces)) →
          motive (char c :: (run.map char ++ pieces)) (token :: kinds (sources pieces)))
    (literal : ∀ index written content pieces, motive pieces (kinds (sources pieces)) →
      motive (literal index written :: pieces) (.text content :: kinds (sources pieces)))
    {pieces : List Piece} (hwhole : ∀ piece ∈ pieces, piece.IsWhole) :
    motive pieces (kinds (sources pieces)) := by
  refine token_induction (motive := fun pieces => motive pieces (kinds (sources pieces)))
    ?nil ?blank ?run ?literal hwhole
  case nil =>
    rw [sources_nil, kinds_nil]
    exact nil
  case blank =>
    intro c pieces hblank ih
    rw [sources_cons, source, List.singleton_append, kinds_cons_of_isBlank hblank]
    exact blank c pieces hblank ih
  case run =>
    intro c taken pieces hblank hquote hcount ih
    rw [sources_cons, source, sources_append, sources_map_char, List.singleton_append,
      kinds_cons hblank, hcount, List.drop_left]
    exact run c taken pieces _ hquote (Prod.ext rfl hcount) ih
  case literal =>
    intro index written pieces hliteral ih
    obtain ⟨quote, s, content, rfl, hblank, hread⟩ := exists_read_of_isLiteral hliteral
    rw [sources_cons, source, List.cons_append, kinds_cons hblank, hread, List.drop_left]
    exact literal index _ _ pieces ih

/-- No literal of the pieces lacks its end. -/
theorem unterminatedString_not_mem_kinds {pieces : List Piece}
    (hwhole : ∀ piece ∈ pieces, piece.IsWhole) :
    .fault .unterminatedString ∉ kinds (sources pieces) := by
  refine kinds_induction (motive := fun _ tokens => .fault .unterminatedString ∉ tokens)
    List.not_mem_nil (fun _ _ _ ih => ih) ?run ?literal hwhole
  case run =>
    intro c taken pieces token hquote hread ih
    have htoken := read_ne_unterminatedString hquote (taken ++ sources pieces)
    rw [hread] at htoken
    rw [List.mem_cons, not_or]
    exact ⟨htoken.symm, ih⟩
  case literal =>
    intro index written content pieces ih
    rw [List.mem_cons, not_or]
    exact ⟨nofun, ih⟩

/-- A number sign outside of string literals is a token of its own. -/
theorem unexpectedCharacter_mem_kinds {pieces : List Piece}
    (hwhole : ∀ piece ∈ pieces, piece.IsWhole) (hmark : char '#' ∈ pieces) :
    .fault (.unexpectedCharacter '#') ∈ kinds (sources pieces) := by
  obtain ⟨before, after, rfl⟩ := List.append_of_mem hmark
  have hbefore : ∀ piece ∈ before, piece.IsWhole := fun piece hpiece =>
    hwhole piece (List.mem_append_left _ hpiece)
  have hbreak : StartsAtBreak (sources (char '#' :: after)) :=
    startsAtBreak_cons (by decide) (sources after)
  have hread : (Token.read '#' (sources after)).1 = .fault (.unexpectedCharacter '#') :=
    congrArg Prod.fst (read_of_isBreak (by decide) (by decide) (sources after))
  rw [sources_append, kinds_sources_append hbefore hbreak]
  refine List.mem_append_right _ ?_
  rw [sources_cons, source, List.singleton_append, kinds_cons (by decide), hread]
  exact List.mem_cons_self

end Piece

/-! ## Where a literal ends -/

namespace IsolatedQuery

open Piece

theorem opensLiteral_eq_isQuote (c : Char) : opensLiteral c = isQuote c :=
  rfl

/-- A literal is closed where the token of the literal ends.  The two scanners ask for a
backslash and for the quote in opposite orders, which makes no difference, since a backslash
opens no literal. -/
theorem closing?_eq_map_readString? {quote : Char} (hquote : isQuote quote) (s : List Char) :
    closing? quote s = (readString? quote s).map fun (_, count) => count := by
  have hne : quote ≠ '\\' := by
    rintro rfl
    exact absurd hquote (by decide)
  have hescaped : ∀ {c : Char}, c == '\\' → ¬(c == quote) := by
    intro c hc hsame
    exact hne ((beq_iff_eq.mp hsame).symm.trans (beq_iff_eq.mp hc))
  fun_induction closing? quote s with
  | case1 => rfl
  | case2 c hescape =>
    rw [readString?.eq_def]
    simp [hescaped hescape, hescape]
  | case3 c hescape d rest ih =>
    rw [readString?_escape (hescaped hescape) hescape, ih, Option.map_map, Option.map_map]
    rfl
  | case4 c s hescape hclose => rw [readString?_close hclose, Option.map_some]
  | case5 c s hescape hclose ih =>
    rw [readString?_char hclose hescape, ih, Option.map_map, Option.map_map]
    rfl

/-- What closes is a literal for the tokens too. -/
theorem isLiteral_of_closing? {quote : Char} {s : List Char} {count : Nat}
    (hquote : isQuote quote) (h : closing? quote s = some count) :
    IsLiteral (quote :: s.take count) := by
  rw [closing?_eq_map_readString? hquote, Option.map_eq_some_iff] at h
  obtain ⟨⟨content, n⟩, hread, rfl⟩ := h
  exact isLiteral_of_readString? hquote hread

/-- What is not closed is not closed for the tokens either. -/
theorem readString?_eq_none_of_closing? {quote : Char} {s : List Char} (hquote : isQuote quote)
    (h : closing? quote s = none) : readString? quote s = none := by
  rwa [closing?_eq_map_readString? hquote, Option.map_eq_none_iff] at h

/-! ## The pieces of a query -/

/-- The literals among the pieces are those of a list, the first of which has the given
number. -/
def Numbers (count : Nat) (literals : List (List Char)) (pieces : List Piece) : Prop :=
  ∀ index written, literal index written ∈ pieces →
    count ≤ index ∧ literals[index - count]? = some written

theorem Numbers.char_cons {count : Nat} {literals : List (List Char)} {pieces : List Piece}
    (h : Numbers count literals pieces) (c : Char) : Numbers count literals (char c :: pieces) :=
  fun index written hmem => h index written (by simpa using hmem)

theorem Numbers.literal_cons {count : Nat} {literals : List (List Char)} {pieces : List Piece}
    (h : Numbers (count + 1) literals pieces) (written : List Char) :
    Numbers count (written :: literals) (literal count written :: pieces) := by
  intro index other hmem
  obtain heq | hmem := List.mem_cons.mp hmem
  · cases heq
    exact ⟨Nat.le_refl count, by simp⟩
  · obtain ⟨hle, hother⟩ := h index other hmem
    have hindex : index - count = index - (count + 1) + 1 := by omega
    exact ⟨Nat.le_of_succ_le hle, by rw [hindex, List.getElem?_cons_succ, hother]⟩

/-- Literals are set aside in pieces of the query. -/
theorem exists_pieces_of_isolateFrom {position count : Nat} {s : List Char}
    {isolated : IsolatedQuery} (h : isolateFrom position count s = .ok isolated) :
    ∃ pieces : List Piece, sources pieces = s ∧ texts pieces = isolated.text ∧
      (∀ piece ∈ pieces, piece.IsWhole) ∧ Numbers count isolated.literals pieces := by
  fun_induction isolateFrom position count s generalizing isolated
  case case1 position count =>
    cases h
    exact ⟨[], rfl, rfl, nofun, nofun⟩
  case case2 position count c s hquote hclosing => cases h
  case case3 position count c s hquote n hclosing written position' ih =>
    obtain ⟨others, hothers, rfl⟩ := map_eq_ok_iff.mp h
    obtain ⟨pieces, hsources, htexts, hwhole, hnumbers⟩ := ih hothers
    rw [opensLiteral_eq_isQuote] at hquote
    refine ⟨literal count (c :: s.take n) :: pieces, ?_, ?_,
      List.forall_mem_cons.mpr ⟨isLiteral_of_closing? hquote hclosing, hwhole⟩,
      hnumbers.literal_cons _⟩
    · rw [sources_cons, source, hsources, List.cons_append, List.take_append_drop]
    · rw [texts_cons, Piece.text, htexts]
  case case4 position count c s hquote ih =>
    obtain ⟨others, hothers, rfl⟩ := map_eq_ok_iff.mp h
    obtain ⟨pieces, hsources, htexts, hwhole, hnumbers⟩ := ih hothers
    rw [opensLiteral_eq_isQuote] at hquote
    refine ⟨char c :: pieces, ?_, ?_,
      List.forall_mem_cons.mpr ⟨eq_false_of_ne_true hquote, hwhole⟩, hnumbers.char_cons c⟩
    · rw [sources_cons, source, hsources, List.singleton_append]
    · rw [texts_cons, Piece.text, htexts, List.singleton_append]

/-- A literal that lacks its end is met behind pieces of the query. -/
theorem exists_pieces_of_isolateFrom_error {position count fault : Nat} {s : List Char}
    (h : isolateFrom position count s = .error fault) :
    ∃ (pieces : List Piece) (quote : Char) (rest : List Char),
      s = sources pieces ++ quote :: rest ∧ (∀ piece ∈ pieces, piece.IsWhole) ∧ isQuote quote ∧
        readString? quote rest = none := by
  fun_induction isolateFrom position count s
  case case1 position count => cases h
  case case2 position count c s hquote hclosing =>
    rw [opensLiteral_eq_isQuote] at hquote
    exact ⟨[], c, s, rfl, nofun, hquote, readString?_eq_none_of_closing? hquote hclosing⟩
  case case3 position count c s hquote n hclosing written position' ih =>
    obtain ⟨pieces, quote, rest, hrest, hwhole, hlast⟩ := ih (map_eq_error_iff.mp h)
    rw [opensLiteral_eq_isQuote] at hquote
    refine ⟨literal count (c :: s.take n) :: pieces, quote, rest, ?_,
      List.forall_mem_cons.mpr ⟨isLiteral_of_closing? hquote hclosing, hwhole⟩, hlast⟩
    rw [sources_cons, source, List.append_assoc, ← hrest, List.cons_append, List.take_append_drop]
  case case4 position count c s hquote ih =>
    obtain ⟨pieces, quote, rest, hrest, hwhole, hlast⟩ := ih (map_eq_error_iff.mp h)
    rw [opensLiteral_eq_isQuote] at hquote
    refine ⟨char c :: pieces, quote, rest, ?_,
      List.forall_mem_cons.mpr ⟨eq_false_of_ne_true hquote, hwhole⟩, hlast⟩
    rw [sources_cons, source, List.append_assoc, ← hrest, List.singleton_append]

/-! ## Putting literals back -/

theorem placeholder?_placeholder (index : Nat) (s : List Char) :
    placeholder? (placeholder index ++ s) =
      some (Nat.toDigits 10 index, (placeholder index).length) := by
  have hdigits : (Nat.toDigits 10 index ++ (placeholderClose ++ s)).takeWhile Char.isDigit =
      Nat.toDigits 10 index := by
    rw [List.takeWhile_append_of_pos fun c hc => isDigit_of_mem_toDigits hc]
    exact List.append_nil _
  simp only [placeholder?, placeholder, List.append_assoc, Text.isPrefixOf?_append, hdigits,
    Option.bind_eq_bind, Option.bind_some, List.drop_left, List.length_append]
  simp [Nat.toDigits_ne_nil]
  omega

theorem placeholder?_of_ne {c : Char} (hc : c ≠ '#') (s : List Char) :
    placeholder? (c :: s) = none := by
  have hnone : placeholderOpen.isPrefixOf? (c :: s) = none := by
    cases hprefixed : placeholderOpen.isPrefixOf? (c :: s) with
    | none => rfl
    | some rest =>
      have happend := Text.eq_append_of_isPrefixOf? hprefixed
      exact absurd (List.cons.inj happend).1 hc
  rw [placeholder?, hnone]
  rfl

/-- The number of a placeholder is read back. -/
theorem readCount?_toDigits {n : Nat} (h : n < UInt64.size) :
    Text.readCount? (Nat.toDigits 10 n) = some n := by
  unfold Text.readCount?
  split
  · next heq =>
    exact absurd (isDigit_of_mem_toDigits (heq ▸ List.mem_cons_self)) (by decide)
  · simp [readDigits?_toDigits, h]

/-- A placeholder is replaced by its literal. -/
theorem restore_placeholder_append {query : IsolatedQuery} {index : Nat} {written : List Char}
    (hsize : query.literals.length ≤ UInt64.size)
    (hliteral : query.literals[index]? = some written) (s : List Char) :
    query.restore (placeholder index ++ s) = written ++ query.restore s := by
  have hindex : index < UInt64.size := by
    have := (List.getElem?_eq_some_iff.mp hliteral).1
    omega
  obtain ⟨c, rest, hcons⟩ : ∃ c rest, placeholder index = c :: rest := ⟨_, _, rfl⟩
  have hplaceholder := placeholder?_placeholder index s
  rw [hcons, List.cons_append] at hplaceholder ⊢
  rw [restore, hplaceholder]
  simp only [readCount?_toDigits hindex, Option.bind_some, literal?, hliteral, List.length_cons,
    Nat.add_sub_cancel, List.drop_left]

/-- Putting the literals back into pieces gives them as they are written. -/
theorem restore_texts {query : IsolatedQuery} {pieces : List Piece}
    (hsize : query.literals.length ≤ UInt64.size) (hmark : char '#' ∉ pieces)
    (hnumbers : Numbers 0 query.literals pieces) :
    query.restore (texts pieces) = sources pieces := by
  induction pieces with
  | nil => rw [texts_nil, restore, sources_nil]
  | cons piece pieces ih =>
    obtain ⟨hpiece, hpieces⟩ := not_or.mp (mt List.mem_cons.mpr hmark)
    have hrest := ih hpieces fun index written hmem =>
      hnumbers index written (List.mem_cons_of_mem _ hmem)
    cases piece with
    | char c =>
      have hc : c ≠ '#' := by
        rintro rfl
        exact hpiece rfl
      rw [texts_cons, Piece.text, List.singleton_append, restore, placeholder?_of_ne hc, hrest]
      rfl
    | literal index written =>
      obtain ⟨-, hliteral⟩ := hnumbers index written List.mem_cons_self
      rw [Nat.sub_zero] at hliteral
      rw [texts_cons, Piece.text, restore_placeholder_append hsize hliteral, hrest]
      rfl

end IsolatedQuery
end TableQuery
