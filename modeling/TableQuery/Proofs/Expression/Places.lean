import TableQuery.Proofs.Expression.Phrases

/-!
# Where tokens stand

A text is divided into words and the white space around them.  Each token but the last one,
which is the end of the text, stands at one of the words.  So the places of tokens are not
empty, do not overlap and begin and end between characters, and no character is lost but white
space.  This holds for texts that are no expressions as well: what is no token has its place
like any other word.
-/

namespace TableQuery

namespace Text
namespace Utf8

variable {s : List Char} {n : Nat}

theorem size_append (s t : List Char) : size (s ++ t) = size s + size t := by
  induction s with
  | nil => exact (Nat.zero_add _).symm
  | cons c s ih => rw [List.cons_append, size, size, ih, Nat.add_assoc]

theorem size_pos (h : s ≠ []) : 0 < size s := by
  cases s with
  | nil => exact absurd rfl h
  | cons c s => exact Nat.add_pos_left c.utf8Size_pos _

/-- Whether there is a character before a number of bytes of a text and one behind them, or an end
of the text. -/
def IsBoundary (s : List Char) (n : Nat) : Prop :=
  ∃ front back, s = front ++ back ∧ size front = n

theorem isBoundary_size (s : List Char) : IsBoundary s (size s) :=
  ⟨s, [], (List.append_nil s).symm, rfl⟩

theorem IsBoundary.le_size (h : IsBoundary s n) : n ≤ size s := by
  obtain ⟨front, back, rfl, rfl⟩ := h
  rw [size_append]
  exact Nat.le_add_right _ _

end Utf8
end Text

open Text (isBlank)
open Text.Utf8

/-- Whether a place in a text begins and ends at boundaries of the text. -/
structure Span.IsWithin (span : Span) (s : List Char) : Prop where
  start_le_stop : span.start ≤ span.stop
  stop_le_size : span.stop ≤ size s
  isBoundary_start : IsBoundary s span.start
  isBoundary_stop : IsBoundary s span.stop

theorem isWithin_of_eq_append {s front word back : List Char}
    (hs : s = front ++ (word ++ back)) :
    Span.IsWithin ⟨size front, size front + size word⟩ s := by
  have hstop : IsBoundary s (size front + size word) :=
    ⟨front ++ word, back, by rw [hs, List.append_assoc], size_append front word⟩
  exact ⟨Nat.le_add_right _ _, hstop.le_size, ⟨front, word ++ back, hs, rfl⟩, hstop⟩

namespace Token

variable {position : Nat} {s : List Char} {tokens : List PlacedToken}

/-! ## Words and white space -/

/-- Whether tokens stand at the words of a text that begins at byte `position`, one behind the
other and with nothing but white space around them. -/
inductive Tiles : Nat → List Char → List PlacedToken → Prop
  | nil (position : Nat) : Tiles position [] []
  | blank {position : Nat} {c : Char} {s : List Char} {tokens : List PlacedToken}
    (hc : isBlank c) (h : Tiles (position + c.utf8Size) s tokens) :
    Tiles position (c :: s) tokens
  | word {position : Nat} {t : Token} {word s : List Char} {tokens : List PlacedToken}
    (ht : t ≠ finish) (hword : word ≠ []) (h : Tiles (position + size word) s tokens) :
    Tiles position (word ++ s) (⟨t, ⟨position, position + size word⟩⟩ :: tokens)

/-- The tokens of a text stand at its words, and behind them there is its end. -/
theorem exists_tiles_lexFrom (position : Nat) (s : List Char) :
    ∃ front, lexFrom position s =
        front ++ [⟨finish, ⟨position + size s, position + size s⟩⟩] ∧
      Tiles position s front := by
  fun_induction lexFrom position s with
  | case1 position => exact ⟨[], rfl, .nil position⟩
  | case2 position c s hblank ih =>
    obtain ⟨front, hlex, htiles⟩ := ih
    refine ⟨front, ?_, .blank hblank htiles⟩
    rw [hlex, size, Nat.add_assoc]
  | case3 position c s hblank token count hread stop ih =>
    obtain ⟨front, hlex, htiles⟩ := ih
    have htoken : token ≠ finish := by
      have h := Parser.read_ne_finish c s
      rwa [hread] at h
    have hstop : stop = position + size (c :: s.take count) := Nat.add_assoc _ _ _
    have hsize : stop + size (s.drop count) = position + size (c :: s) := by
      rw [hstop, Nat.add_assoc, ← size_append, List.cons_append, List.take_append_drop]
    rw [hstop] at htiles
    have hword := htiles.word htoken (List.cons_ne_nil c _)
    rw [List.cons_append, List.take_append_drop] at hword
    exact ⟨_ :: front, by rw [hlex, hsize, List.cons_append], hstop ▸ hword⟩

namespace Tiles

theorem exists_word (h : Tiles position s tokens) {t : PlacedToken} (ht : t ∈ tokens) :
    t.token ≠ finish ∧ ∃ front word back, s = front ++ (word ++ back) ∧ word ≠ [] ∧
      t.span = ⟨position + size front, position + size front + size word⟩ := by
  induction h with
  | nil => cases ht
  | @blank position c s tokens _ _ ih =>
    obtain ⟨hfinish, front, word, back, rfl, hword, hspan⟩ := ih ht
    rw [Nat.add_assoc] at hspan
    exact ⟨hfinish, c :: front, word, back, rfl, hword, hspan⟩
  | @word position token first s tokens hfinish hfirst _ ih =>
    rcases List.mem_cons.mp ht with rfl | ht
    · exact ⟨hfinish, [], first, s, rfl, hfirst, rfl⟩
    · obtain ⟨hfinish, front, word, back, rfl, hword, hspan⟩ := ih ht
      rw [Nat.add_assoc position, ← size_append] at hspan
      exact ⟨hfinish, first ++ front, word, back, (List.append_assoc _ _ _).symm, hword, hspan⟩

theorem le_start (h : Tiles position s tokens) : ∀ t ∈ tokens, position ≤ t.span.start := by
  intro t ht
  obtain ⟨-, front, _, _, -, -, hspan⟩ := h.exists_word ht
  rw [hspan]
  exact Nat.le_add_right _ _

/-- Tokens stand behind one another. -/
theorem pairwise (h : Tiles position s tokens) :
    tokens.Pairwise fun t u => t.span.stop ≤ u.span.start := by
  induction h with
  | nil => exact .nil
  | blank _ _ ih => exact ih
  | word _ _ h ih => exact .cons h.le_start ih

/-- A character outside of all tokens is white space. -/
theorem isBlank_of_outside (h : Tiles position s tokens) {front back : List Char} {c : Char}
    (hs : s = front ++ c :: back)
    (hout : ∀ t ∈ tokens,
      ¬(t.span.start ≤ position + size front ∧ position + size front < t.span.stop)) :
    isBlank c := by
  induction h generalizing front with
  | nil => simp at hs
  | @blank position d s tokens hd _ ih =>
    cases front with
    | nil => exact (List.cons.inj hs).1 ▸ hd
    | cons e front =>
      obtain ⟨rfl, hrest⟩ := List.cons.inj hs
      rw [size, ← Nat.add_assoc] at hout
      exact ih hrest hout
  | @word position token word s tokens _ _ _ ih =>
    obtain ⟨hfirst, hothers⟩ := List.forall_mem_cons.mp hout
    rcases List.append_eq_append_iff.mp hs with ⟨between, rfl, hrest⟩ | ⟨between, rfl, hrest⟩
    · rw [size_append, ← Nat.add_assoc] at hothers
      exact ih hrest hothers
    · -- the character is part of the word, unless nothing is left of the word
      cases between with
      | nil =>
        have hs : s = [] ++ c :: back := hrest.symm
        rw [List.append_nil] at ih
        exact ih hs hothers
      | cons d between =>
        refine absurd ⟨Nat.le_add_right _ _, ?_⟩ hfirst
        rw [size_append]
        have hpos := size_pos (List.cons_ne_nil d between)
        dsimp only
        omega

end Tiles

/-! ## All tokens of a text -/

/-- The last token stands at the end of the text. -/
theorem exists_tiles_lex (s : List Char) :
    ∃ front, lex s = front ++ [⟨finish, ⟨size s, size s⟩⟩] ∧ Tiles 0 s front := by
  obtain ⟨front, hlex, htiles⟩ := exists_tiles_lexFrom 0 s
  rw [Nat.zero_add] at hlex
  exact ⟨front, hlex, htiles⟩

theorem Tiles.isWithin (h : Tiles 0 s tokens) {t : PlacedToken} (ht : t ∈ tokens) :
    t.token ≠ finish ∧ t.span.start < t.span.stop ∧ t.span.IsWithin s := by
  obtain ⟨hfinish, front, word, back, hs, hword, hspan⟩ := h.exists_word ht
  rw [Nat.zero_add] at hspan
  rw [hspan]
  exact ⟨hfinish, Nat.lt_add_of_pos_right (size_pos hword), isWithin_of_eq_append hs⟩

theorem isWithin_of_mem_lex {t : PlacedToken} (ht : t ∈ lex s) : t.span.IsWithin s := by
  obtain ⟨front, hlex, htiles⟩ := exists_tiles_lex s
  rw [hlex] at ht
  rcases List.mem_append.mp ht with ht | ht
  · exact (htiles.isWithin ht).2.2
  · rw [List.mem_singleton.mp ht]
    exact ⟨Nat.le_refl _, Nat.le_refl _, isBoundary_size s, isBoundary_size s⟩

end Token
end TableQuery
