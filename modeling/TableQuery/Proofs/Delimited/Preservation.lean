import TableQuery.Delimited.Join
import TableQuery.Proofs.Delimited.RoundTrip

/-!
# Putting a divided line together again

If fields keep their quotes and the spaces around them, a line can be put together from
its fields, whether or not it follows its policy.  Under each policy every character of the
line belongs to a field or to a delimiter that has been taken off: quoted fields are taken
from the front one by one, and of the spaces that divide a line one at the end of each
piece is left to the joiner.
-/

namespace TableQuery
namespace Delimited

/-! ## Quoted fields -/

/-- The first field of a text, its delimiter and the text after it, if there is one, are the
text. -/
def NextField.Covers (next : NextField) (delimiter s : List Char) : Prop :=
  match next.rest with
  | none => s = next.field
  | some rest => s = next.field ++ delimiter ++ rest

theorem covers_plainField (delimiter : List Char) (irregular : Bool) (s : List Char) :
    (plainField delimiter irregular s).Covers delimiter s := by
  unfold plainField
  cases hcut : Text.cut? delimiter s with
  | none => rfl
  | some parts => exact Text.eq_of_cut? hcut

/-- A first field that keeps its quotes covers the start of the text, quoted or not. -/
theorem covers_nextField (delimiter : List Char) (padded : Bool) (s : List Char) :
    (nextField delimiter true padded s).Covers delimiter s := by
  unfold nextField
  cases hquoted : quotedField? padded s with
  | none => exact covers_plainField delimiter false s
  | some q =>
    have hwhole : s = q.whole ++ q.rest := (eq_of_quotedField? hquoted).1
    dsimp only
    split
    · next hend =>
      show s = q.whole
      rw [hwhole, List.isEmpty_iff.mp hend, List.append_nil]
    · cases hprefix : delimiter.isPrefixOf? q.rest with
      | none => exact covers_plainField delimiter true s
      | some rest =>
        show s = q.whole ++ delimiter ++ rest
        rw [List.append_assoc, ← Text.eq_append_of_isPrefixOf? hprefix]
        exact hwhole

theorem joinWith_quotedFields {delimiter : List Char} (hd : delimiter ≠ []) (padded : Bool)
    (s : List Char) :
    Text.joinWith delimiter (quotedFields delimiter true padded hd s).fields = s := by
  generalize hlength : s.length = n
  induction n using Nat.strongRecOn generalizing s with
  | _ n ih =>
    have hcovers := covers_nextField delimiter padded s
    rcases hnext : nextField delimiter true padded s with ⟨field, irregular, _ | rest⟩
    · rw [hnext] at hcovers
      rw [quotedFields_eq_singleton hd hnext]
      exact hcovers.symm
    · rw [hnext] at hcovers
      have hshorter : rest.length < s.length :=
        length_lt_of_nextField hd (congrArg NextField.rest hnext)
      have hrest := ih rest.length (hlength ▸ hshorter) rest rfl
      have hne : (quotedFields delimiter true padded hd rest).fields ≠ [] := by
        rw [quotedFields]
        split <;> simp
      rw [quotedFields_eq_cons hd hnext, Text.joinWith_cons hne, hrest]
      exact hcovers.symm

theorem joinWith_splitQuoted {delimiter : List Char} (hd : delimiter ≠ []) (padded : Bool)
    (line : List Char) :
    Text.joinWith delimiter (splitQuoted delimiter true padded line).fields = line := by
  unfold splitQuoted
  split
  · exact Text.joinWith_split hd line
  · exact joinWith_quotedFields hd padded line

/-! ## Pieces that end in spaces -/

/-- Every piece but the last one ends in a space. -/
def EndInSpace : List (List Char) → Prop
  | piece :: next :: others => piece.getLast? = some ' ' ∧ EndInSpace (next :: others)
  | _ => True

/-- The pieces of a line are the line. -/
theorem flatten_spacedPieces (line : List Char) : (spacedPieces line).flatten = line := by
  induction line with
  | nil => rfl
  | cons c line ih =>
    rw [spacedPieces]
    cases hpieces : spacedPieces line with
    | nil => simpa [hpieces] using ih
    | cons piece others =>
      rw [hpieces] at ih
      dsimp only
      split <;> simp [← ih]

theorem EndInSpace.append {first : List Char} {others : List (List Char)}
    (h : EndInSpace (first :: others)) (lead : List Char) :
    EndInSpace ((lead ++ first) :: others) := by
  cases others with
  | nil => trivial
  | cons next others =>
    obtain ⟨hlast, hothers⟩ := h
    refine ⟨?_, hothers⟩
    rw [List.getLast?_append, hlast, Option.some_or]

theorem endInSpace_spacedPieces (line : List Char) : EndInSpace (spacedPieces line) := by
  induction line with
  | nil => trivial
  | cons c line ih =>
    rw [spacedPieces]
    cases hpieces : spacedPieces line with
    | nil => trivial
    | cons piece others =>
      rw [hpieces] at ih
      dsimp only
      split
      · next hspace =>
        -- A new piece begins behind a space only.
        have hc : c = ' ' := by
          rw [Bool.and_eq_true] at hspace
          exact eq_of_beq hspace.1
        exact ⟨by rw [hc]; rfl, ih⟩
      · exact ih.append [c]

/-- The spaces that have been taken off the pieces are those that the joiner puts back. -/
theorem joinWith_dropSeparators {pieces : List (List Char)} (h : EndInSpace pieces) :
    Text.joinWith [' '] (dropSeparators pieces) = pieces.flatten := by
  induction pieces with
  | nil => rfl
  | cons piece pieces ih =>
    cases pieces with
    | nil => simp [dropSeparators, Text.joinWith]
    | cons next others =>
      obtain ⟨hlast, hothers⟩ := h
      obtain ⟨start, rfl⟩ := List.getLast?_eq_some_iff.mp hlast
      have hne : dropSeparators (next :: others) ≠ [] := by
        cases others <;> simp [dropSeparators]
      rw [dropSeparators, List.dropLast_concat, Text.joinWith_cons hne, ih hothers,
        ← List.flatten_cons]

theorem joinWith_paddedFields (line : List Char) :
    Text.joinWith [' '] (paddedFields line) = line := by
  unfold paddedFields
  have hflatten := flatten_spacedPieces (line.dropWhile (· == ' '))
  have hspaces := endInSpace_spacedPieces (line.dropWhile (· == ' '))
  cases hpieces : spacedPieces (line.dropWhile (· == ' ')) with
  | nil => rfl
  | cons first others =>
    rw [hpieces] at hflatten hspaces
    dsimp only
    rw [joinWith_dropSeparators (hspaces.append _), List.flatten_cons,
      List.append_assoc, ← List.flatten_cons, hflatten, List.takeWhile_append_dropWhile]

/-! ## All policies -/

theorem normalize?_of_validate {dialect accepted : Dialect} (h : dialect.validate = .ok accepted) :
    dialect.normalize? = some accepted := by
  unfold Dialect.validate at h
  split at h
  · next heq =>
    cases h
    exact heq
  · cases h

/-- An accepted dialect has a delimiter, which is a space if lines are divided at runs of
spaces, unless lines are not divided at all. -/
theorem accepted_cases {dialect accepted : Dialect} (h : dialect.validate = .ok accepted) :
    accepted.policy = .monocolumn ∨ accepted = ⟨[' '], .whitespace⟩ ∨
      accepted.delimiter ≠ [] ∧ accepted.policy ≠ .whitespace := by
  have hnormal := normalize?_of_validate h
  obtain ⟨delimiter, policy⟩ := dialect
  cases policy with
  | monocolumn =>
    cases hnormal
    exact .inl rfl
  | whitespace =>
    cases hnormal
    exact .inr (.inl rfl)
  | simple | quoted | quotedRfc =>
    obtain ⟨hdelimiter, heq⟩ := Option.ite_none_left_eq_some.mp hnormal
    cases heq
    refine .inr (.inr ⟨?_, by simp⟩)
    rintro rfl
    simp at hdelimiter

/-- Under a dialect that is accepted, the fields of a line that have kept their quotes and
spaces are put together to the line, also if it does not follow its policy. -/
theorem joinPreserved_split {dialect accepted : Dialect}
    (haccepted : dialect.validate = .ok accepted) (line : List Char) :
    joinPreserved accepted.delimiter (split accepted true line).fields = line := by
  obtain hpolicy | rfl | ⟨hd, hpolicy⟩ := accepted_cases haccepted
  · simp [split, hpolicy, joinPreserved, Text.joinWith]
  · exact joinWith_paddedFields line
  · obtain ⟨delimiter, policy⟩ := accepted
    cases policy with
    | simple => exact Text.joinWith_split hd line
    | quoted => exact joinWith_splitQuoted hd (delimiter != [' ']) line
    | quotedRfc => exact joinWith_splitQuoted hd false line
    | whitespace => exact absurd rfl hpolicy
    | monocolumn => rfl

/-- A quoted field, one whose quote is never closed, and a delimiter of two characters at
the end of the line. -/
theorem joinPreserved_split_unclosed :
    let line := "  \"a::b\" ::\"c d::".toList
    Dialect.validate ⟨"::".toList, .quoted⟩ = .ok ⟨"::".toList, .quoted⟩ ∧
      (split ⟨"::".toList, .quoted⟩ true line).irregular = true ∧
      joinPreserved "::".toList (split ⟨"::".toList, .quoted⟩ true line).fields = line := by
  have haccepted : Dialect.validate ⟨"::".toList, .quoted⟩ = .ok ⟨"::".toList, .quoted⟩ := rfl
  exact ⟨haccepted, by decide +kernel, joinPreserved_split haccepted _⟩

end Delimited
end TableQuery
