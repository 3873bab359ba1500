import Mathlib.Data.List.Forall2
import TableQuery.Expression.Builtin

/-!
# Patterns

A text matches a pattern exactly if it can be cut into consecutive pieces, one for each
character of the pattern, where each piece is one that its character stands for.  The matcher
tries the ends of the text for a percent sign, so it finds such a cut if there is one.  The
pieces of two patterns that are put together are those of the one before those of the other.
-/

namespace TableQuery
namespace Builtin

variable {c : Char} {pattern p q s piece rest : List Char}

/-! ## Pieces -/

/-- The texts that a character of a pattern stands for. -/
inductive IsPiece : Char → List Char → Prop
  | any (piece : List Char) : IsPiece '%' piece
  | one (c : Char) : IsPiece '_' [c]
  | itself {c : Char} (hany : c ≠ '%') (hone : c ≠ '_') : IsPiece c [c]

/-- Whether a text can be cut into pieces for the characters of a pattern. -/
def IsCut (pattern s : List Char) : Prop :=
  ∃ pieces : List (List Char), pieces.flatten = s ∧ List.Forall₂ IsPiece pattern pieces

theorem isPiece_percent : IsPiece '%' piece :=
  .any piece

theorem isPiece_underscore_iff : IsPiece '_' piece ↔ ∃ c, piece = [c] := by
  constructor
  · rintro (_ | c | ⟨-, hone⟩)
    · exact ⟨c, rfl⟩
    · exact absurd rfl hone
  · rintro ⟨c, rfl⟩
    exact .one c

theorem isPiece_iff_of_ne (hany : c ≠ '%') (hone : c ≠ '_') : IsPiece c piece ↔ piece = [c] := by
  constructor
  · rintro (_ | _ | _)
    · exact absurd rfl hany
    · exact absurd rfl hone
    · rfl
  · rintro rfl
    exact .itself hany hone

theorem isCut_nil_iff : IsCut [] s ↔ s = [] := by
  constructor
  · rintro ⟨pieces, rfl, ⟨⟩⟩
    rfl
  · rintro rfl
    exact ⟨[], rfl, .nil⟩

/-- Cutting for a longer pattern begins with a piece for its first character. -/
theorem isCut_cons_iff :
    IsCut (c :: pattern) s ↔ ∃ piece rest, s = piece ++ rest ∧ IsPiece c piece ∧
      IsCut pattern rest := by
  constructor
  · rintro ⟨pieces, rfl, hpieces⟩
    obtain ⟨piece, others, hpiece, hothers, rfl⟩ := List.forall₂_cons_left_iff.mp hpieces
    exact ⟨piece, others.flatten, List.flatten_cons, hpiece, others, rfl, hothers⟩
  · rintro ⟨piece, rest, rfl, hpiece, others, rfl, hothers⟩
    exact ⟨piece :: others, List.flatten_cons, .cons hpiece hothers⟩

/-- The pieces for two patterns one after the other are pieces for the one, then pieces for the
other one. -/
theorem isCut_append_iff :
    IsCut (p ++ q) s ↔ ∃ s₁ s₂, s = s₁ ++ s₂ ∧ IsCut p s₁ ∧ IsCut q s₂ := by
  constructor
  · rintro ⟨pieces, rfl, hpieces⟩
    have hsplit := List.take_append_drop p.length pieces
    refine ⟨(pieces.take p.length).flatten, (pieces.drop p.length).flatten, ?_, ⟨_, rfl, ?_⟩,
      ⟨_, rfl, ?_⟩⟩
    · rw [← List.flatten_append, hsplit]
    · simpa using List.forall₂_take p.length hpieces
    · simpa using List.forall₂_drop p.length hpieces
  · rintro ⟨_, _, rfl, ⟨pieces, rfl, hpieces⟩, ⟨others, rfl, hothers⟩⟩
    exact ⟨pieces ++ others, List.flatten_append, List.rel_append hpieces hothers⟩

/-! ## Matching -/

theorem mem_suffixes_iff : rest ∈ suffixes s ↔ rest <:+ s := by
  induction s with
  | nil => simp [suffixes]
  | cons c s ih => rw [suffixes, List.mem_cons, ih, List.suffix_cons_iff]

/-- A character that stands for itself is matched by the first character of the text. -/
theorem matchesPattern_cons_of_ne (hany : c ≠ '%') (hone : c ≠ '_') :
    matchesPattern (c :: pattern) s = true ↔
      ∃ rest, s = c :: rest ∧ matchesPattern pattern rest = true := by
  cases s with
  | nil => simp [matchesPattern]
  | cons d s =>
    rw [matchesPattern, Bool.and_eq_true, beq_iff_eq]
    · constructor
      · rintro ⟨rfl, hrest⟩
        exact ⟨s, rfl, hrest⟩
      · rintro ⟨_, ⟨⟩, hrest⟩
        exact ⟨rfl, hrest⟩
    · exact hany
    · exact hone

/-- The matcher finds a cut exactly if there is one. -/
theorem matchesPattern_iff_isCut : matchesPattern pattern s = true ↔ IsCut pattern s := by
  induction pattern generalizing s with
  | nil => rw [matchesPattern, isCut_nil_iff, List.isEmpty_iff]
  | cons c pattern ih =>
    rw [isCut_cons_iff]
    by_cases hany : c = '%'
    · subst hany
      rw [matchesPattern, List.any_eq_true]
      constructor
      · rintro ⟨rest, hmem, hrest⟩
        obtain ⟨piece, rfl⟩ := mem_suffixes_iff.mp hmem
        exact ⟨piece, rest, rfl, isPiece_percent, ih.mp hrest⟩
      · rintro ⟨piece, rest, rfl, -, hrest⟩
        exact ⟨rest, mem_suffixes_iff.mpr (List.suffix_append piece rest), ih.mpr hrest⟩
    by_cases hone : c = '_'
    · subst hone
      cases s with
      | nil => simp [matchesPattern, isPiece_underscore_iff]
      | cons d s => simp [matchesPattern, isPiece_underscore_iff, ih]
    · simp [matchesPattern_cons_of_ne hany hone, isPiece_iff_of_ne hany hone, ih]

/-- Whether the function that compares a text with a pattern says that it matches. -/
def Likes (s p : String) : Prop :=
  apply .like [.text s, .text p] = .ok (.bool true)

theorem apply_like (s p : String) :
    apply .like [.text s, .text p] = .ok (.bool (matchesPattern p.toList s.toList)) :=
  rfl

theorem likes_iff_isCut {s p : String} : Likes s p ↔ IsCut p.toList s.toList := by
  rw [Likes, apply_like, Except.ok.injEq, Value.bool.injEq, matchesPattern_iff_isCut]

/-- The function always answers, and says that a text matches a pattern exactly if the text can
be cut into a piece for each character of the pattern.  So a text matches two patterns that are
put together exactly if it consists of a text that matches the first one and a text that matches
the second one. -/
theorem apply_like_iff (s p q : String) :
    (∃ found, apply .like [.text s, .text p] = .ok (.bool found) ∧
      (found = true ↔ IsCut p.toList s.toList)) ∧
    (Likes s (p ++ q) ↔ ∃ s₁ s₂, s = s₁ ++ s₂ ∧ Likes s₁ p ∧ Likes s₂ q) := by
  refine ⟨⟨_, apply_like s p, matchesPattern_iff_isCut⟩, ?_⟩
  simp only [likes_iff_isCut, String.toList_append, isCut_append_iff]
  constructor
  · rintro ⟨s₁, s₂, hs, h₁, h₂⟩
    refine ⟨String.ofList s₁, String.ofList s₂, ?_, ?_, ?_⟩
    · rw [← String.ofList_append, ← hs, String.ofList_toList]
    · rwa [String.toList_ofList]
    · rwa [String.toList_ofList]
  · rintro ⟨s₁, s₂, rfl, h₁, h₂⟩
    exact ⟨s₁.toList, s₂.toList, String.toList_append, h₁, h₂⟩

/-- A percent sign may stand for nothing, and characters may be left for a later one. -/
example : Likes "banana" "%an%_" ∧ ¬Likes "banana" "b_n" := by
  simp only [likes_iff_isCut, ← matchesPattern_iff_isCut]
  decide

end Builtin
end TableQuery
