import Mathlib.Data.List.Forall2
import TableQuery.Proofs.Delimited.Grammar
import TableQuery.Proofs.Delimited.Preservation
import TableQuery.Proofs.Delimited.Rereading

/-!
# Plain fields and preserved fields

A line is divided at the same places whether its fields keep their quotes and the spaces around
them or not.  Where fields may be quoted, what is read next does not depend on it.  Where lines
are divided at runs of spaces, the two ways are different walks through the line: the plain
fields are the words of the line, and the preserved ones are pieces that hold one word each.
-/

namespace TableQuery
namespace Delimited

/-! ## Quoted fields -/

/-- A field that keeps its quotes and spaces, and the plain field.  Either the one is a quoted
field and the other is the text that it stands for, or the two are the same.  In a regular line
they are the same only without quotes.  In an irregular line they are so also if quotes stand
elsewhere in the field, and for a quoted field if spaces of the delimiter behind it have been
taken for its own. -/
inductive PlainOf (delimiter : List Char) (padded irregular : Bool) :
    List Char → List Char → Prop where
  | same {field : List Char} (hquote : '"' ∈ field → irregular = true)
      (hspaces : (∃ text, QuotedOf padded field text) → LosesSpaces padded delimiter) :
      PlainOf delimiter padded irregular field field
  | opened {field text : List Char} (hfield : QuotedOf padded field text) :
      PlainOf delimiter padded irregular field text

theorem PlainOf.mono {delimiter : List Char} {padded irregular irregular' : Bool}
    {kept plain : List Char} (h : PlainOf delimiter padded irregular kept plain)
    (himp : irregular = true → irregular' = true) :
    PlainOf delimiter padded irregular' kept plain := by
  cases h with
  | same hquote hspaces => exact .same (fun hmem => himp (hquote hmem)) hspaces
  | opened hfield => exact .opened hfield

theorem irregular_plainField {delimiter s : List Char} {irregular : Bool}
    (h : '"' ∈ (plainField delimiter irregular s).field) :
    (plainField delimiter irregular s).irregular = true := by
  unfold plainField at h ⊢
  split at h <;> simp [h]

/-- The end of the text or a delimiter stands behind a plain field. -/
theorem exists_behind_plainField (delimiter : List Char) (irregular : Bool) (s : List Char) :
    ∃ behind, s = (plainField delimiter irregular s).field ++ behind ∧
      (behind = [] ∨ delimiter <+: behind) := by
  have hcovers := covers_plainField delimiter irregular s
  unfold NextField.Covers at hcovers
  split at hcovers
  · exact ⟨[], by rw [List.append_nil]; exact hcovers, .inl rfl⟩
  · next rest _ =>
    exact ⟨delimiter ++ rest, by rw [← List.append_assoc]; exact hcovers,
      .inr (List.prefix_append _ _)⟩

section

variable {delimiter : List Char} (hd : delimiter ≠ []) (hquote : '"' ∉ delimiter)

include hd hquote

/-- A quoted field is taken verbatim only if the delimiter behind it has lost spaces to it. -/
theorem losesSpaces_of_plainField {padded irregular : Bool} {s : List Char}
    (hread : ∀ q, quotedField? padded s = some q →
      q.rest ≠ [] ∧ delimiter.isPrefixOf? q.rest = none)
    (hfield : ∃ text, QuotedOf padded (plainField delimiter irregular s).field text) :
    LosesSpaces padded delimiter := by
  obtain ⟨text, hfield⟩ := hfield
  obtain ⟨behind, hline, hbehind⟩ := exists_behind_plainField delimiter irregular s
  have hhead : ∀ c rest, behind = c :: rest → delimiter.head? = some c := by
    rintro c rest rfl
    obtain ⟨after, hafter⟩ := hbehind.resolve_left (List.cons_ne_nil c rest)
    obtain ⟨d, others, rfl⟩ := List.exists_cons_of_ne_nil hd
    rw [(List.cons.inj hafter).1, List.head?_cons]
  by_contra hspaces
  have hnoQuote : ∀ rest, behind ≠ '"' :: rest :=
    fun rest heq => hquote (List.mem_of_head? (hhead _ rest heq))
  have hnoSpace : ∀ rest, padded = true → behind ≠ ' ' :: rest :=
    fun rest hpadded heq => hspaces ⟨hpadded, hhead _ rest heq⟩
  generalize (plainField delimiter irregular s).field = field at hfield hline
  obtain ⟨hbefore, hbody, hafter⟩ := hfield
  have hquoted := quotedField?_quoted hbefore hbody hafter behind hnoQuote hnoSpace
  rw [← hline] at hquoted
  obtain ⟨hne, hprefix⟩ := hread _ hquoted
  exact Text.isPrefixOf?_eq_none_iff.mp hprefix (hbehind.resolve_left hne)

/-- The first field of a text ends at the same place. -/
theorem nextField_preserve (padded : Bool) (s : List Char) :
    (nextField delimiter true padded s).rest = (nextField delimiter false padded s).rest ∧
      (nextField delimiter true padded s).irregular =
        (nextField delimiter false padded s).irregular ∧
      PlainOf delimiter padded (nextField delimiter false padded s).irregular
        (nextField delimiter true padded s).field (nextField delimiter false padded s).field := by
  unfold nextField
  cases hquoted : quotedField? padded s with
  | none =>
    have hread : ∀ q, quotedField? padded s = some q →
        q.rest ≠ [] ∧ delimiter.isPrefixOf? q.rest = none := by simp [hquoted]
    exact ⟨rfl, rfl, .same irregular_plainField (losesSpaces_of_plainField hd hquote hread)⟩
  | some q =>
    have hopened := quotedOf_of_quotedField? hquoted
    dsimp only
    split
    · exact ⟨rfl, rfl, .opened hopened⟩
    · next hrest =>
      cases hprefix : delimiter.isPrefixOf? q.rest with
      | some rest => exact ⟨rfl, rfl, .opened hopened⟩
      | none =>
        have hread : ∀ q, quotedField? padded s = some q →
            q.rest ≠ [] ∧ delimiter.isPrefixOf? q.rest = none := by
          intro q' hq'
          rw [hquoted] at hq'
          cases hq'
          exact ⟨fun hnil => hrest (List.isEmpty_iff.mpr hnil), hprefix⟩
        exact ⟨rfl, rfl, .same irregular_plainField (losesSpaces_of_plainField hd hquote hread)⟩

theorem quotedFields_preserve (padded : Bool) (s : List Char) :
    (quotedFields delimiter true padded hd s).irregular =
        (quotedFields delimiter false padded hd s).irregular ∧
      List.Forall₂ (PlainOf delimiter padded (quotedFields delimiter false padded hd s).irregular)
        (quotedFields delimiter true padded hd s).fields
        (quotedFields delimiter false padded hd s).fields := by
  generalize hlength : s.length = n
  induction n using Nat.strongRecOn generalizing s with
  | _ n ih =>
    obtain ⟨hrest, hirregular, hfield⟩ := nextField_preserve hd hquote padded s
    rcases hkept : nextField delimiter true padded s with ⟨kept, irregular, rest⟩
    rcases hplain : nextField delimiter false padded s with ⟨plain, irregular', rest'⟩
    simp only [hkept, hplain] at hrest hirregular hfield
    subst hrest hirregular
    cases rest with
    | none =>
      rw [quotedFields_eq_singleton hd hkept, quotedFields_eq_singleton hd hplain]
      exact ⟨rfl, .cons hfield .nil⟩
    | some rest =>
      have hshorter : rest.length < s.length :=
        length_lt_of_nextField hd (congrArg NextField.rest hplain)
      obtain ⟨hothersIrregular, hothers⟩ := ih rest.length (hlength ▸ hshorter) rest rfl
      rw [quotedFields_eq_cons hd hkept, quotedFields_eq_cons hd hplain, hothersIrregular]
      refine ⟨rfl, .cons (hfield.mono fun h => by simp [h]) ?_⟩
      exact hothers.imp fun _ _ hother => hother.mono fun h => by simp [h]

end

/-! ## Words and the spaces behind them -/

/-- A piece of a line is a word and the spaces behind it. -/
def IsPieceOf (piece word : List Char) : Prop :=
  ' ' ∉ word ∧ ∃ spaces, piece = word ++ spaces ∧ ∀ c ∈ spaces, c = ' '

theorem IsPieceOf.eq_nil_of_head? {piece word : List Char} (h : IsPieceOf piece word)
    (hhead : piece.head? = some ' ') : word = [] := by
  obtain ⟨hword, spaces, rfl, -⟩ := h
  cases word with
  | nil => rfl
  | cons c word =>
    rw [List.cons_append, List.head?_cons, Option.some.injEq] at hhead
    exact absurd (hhead ▸ List.mem_cons_self) hword

theorem IsPieceOf.ne_nil_of_head? {piece word : List Char} (h : IsPieceOf piece word)
    (hne : piece ≠ []) (hhead : piece.head? ≠ some ' ') : word ≠ [] := by
  obtain ⟨-, spaces, rfl, hspaces⟩ := h
  rintro rfl
  obtain ⟨c, spaces, rfl⟩ := List.exists_cons_of_ne_nil hne
  rw [hspaces c List.mem_cons_self] at hhead
  exact hhead rfl

theorem IsPieceOf.cons_space {piece : List Char} (h : IsPieceOf piece []) :
    IsPieceOf (' ' :: piece) [] := by
  obtain ⟨-, spaces, hpiece, hspaces⟩ := h
  exact ⟨List.not_mem_nil, ' ' :: spaces, congrArg (' ' :: ·) hpiece,
    List.forall_mem_cons.mpr ⟨rfl, hspaces⟩⟩

theorem IsPieceOf.cons {piece word : List Char} (h : IsPieceOf piece word) {c : Char}
    (hc : c ≠ ' ') : IsPieceOf (c :: piece) (c :: word) := by
  obtain ⟨hword, spaces, rfl, hspaces⟩ := h
  exact ⟨by simp [hc.symm, hword], spaces, rfl, hspaces⟩

theorem isPieceOf_nil : IsPieceOf [] [] :=
  ⟨List.not_mem_nil, [], rfl, List.forall_mem_nil _⟩

/-- The pieces of a text hold the parts between its spaces, without the empty ones behind the
first. -/
theorem forall₂_spacedPieces {s piece : List Char} {others : List (List Char)}
    (h : spacedPieces s = piece :: others) :
    piece.head? = s.head? ∧ ∃ word words, Text.split [' '] s = word :: words ∧
      IsPieceOf piece word ∧
      List.Forall₂ (fun other word => IsPieceOf other word ∧ word ≠ []) others
        (words.filter fun word => !word.isEmpty) := by
  induction s generalizing piece others with
  | nil => cases h
  | cons c s ih =>
    rw [spacedPieces] at h
    cases hpieces : spacedPieces s with
    | nil =>
      have hs : s = [] := by
        rw [← flatten_spacedPieces s, hpieces, List.flatten_nil]
      subst hs
      rw [hpieces] at h
      cases h
      refine ⟨rfl, ?_⟩
      have hempty : Text.split [' '] [] = [[]] :=
        Text.split_eq_singleton (by simp) (Text.cut?_singleton_eq_none List.not_mem_nil)
      by_cases hc : c = ' '
      · subst hc
        refine ⟨[], [[]], ?_, isPieceOf_nil.cons_space, .nil⟩
        rw [Text.split_singleton_cons_self, hempty]
      · exact ⟨[c], [], Text.split_singleton_cons_of_ne (Ne.symm hc) hempty,
          isPieceOf_nil.cons hc, .nil⟩
    | cons next rest =>
      obtain ⟨hhead, word, words, hsplit, hpiece, hothers⟩ := ih hpieces
      rw [hpieces] at h
      dsimp only at h
      have hne : next ≠ [] := by
        rintro rfl
        cases s with
        | nil => cases hpieces
        | cons d s => cases hhead
      split at h
      · next hbegins =>
        -- A space in front of a word stands alone.
        rw [Bool.and_eq_true, beq_iff_eq, bne_iff_ne] at hbegins
        obtain ⟨rfl, hword⟩ := hbegins
        cases h
        refine ⟨rfl, [], word :: words, ?_, isPieceOf_nil.cons_space, ?_⟩
        · rw [Text.split_singleton_cons_self, hsplit]
        · have hwordNe := hpiece.ne_nil_of_head? hne hword
          rw [List.filter_cons_of_pos (by simpa using hwordNe)]
          exact .cons ⟨hpiece, hwordNe⟩ hothers
      · next hbegins =>
        cases h
        refine ⟨rfl, ?_⟩
        by_cases hc : c = ' '
        · subst hc
          have hspace : next.head? = some ' ' := by simpa using hbegins
          obtain rfl := hpiece.eq_nil_of_head? hspace
          refine ⟨[], [] :: words, ?_, hpiece.cons_space, ?_⟩
          · rw [Text.split_singleton_cons_self, hsplit]
          · rwa [List.filter_cons_of_neg (by simp)]
        · exact ⟨c :: word, words, Text.split_singleton_cons_of_ne (Ne.symm hc) hsplit,
            hpiece.cons hc, hothers⟩

/-! ## Trimmed pieces -/

/-- A field without the spaces at its two ends. -/
def trimSpaces (field : List Char) : List Char :=
  Text.trimBy (· == ' ') field

theorem trimSpaces_concat (field : List Char) : trimSpaces (field ++ [' ']) = trimSpaces field :=
  Text.trimBy_concat (by rfl) field

theorem IsPieceOf.trimSpaces_eq {piece word : List Char} (h : IsPieceOf piece word)
    (hne : word ≠ []) : trimSpaces piece = word := by
  obtain ⟨hword, spaces, rfl, hspaces⟩ := h
  have hkeeps : ∀ c ∈ word, (c == ' ') = false := by
    intro c hc
    simpa using ne_of_mem_of_not_mem hc hword
  have hblank : ∀ c ∈ spaces, (c == ' ') = true := by simpa using hspaces
  exact Text.trimBy_append (List.forall_mem_nil _) hkeeps hne hblank

/-- The pieces of a text that begins with a word are trimmed to its words. -/
theorem map_trimSpaces_spacedPieces {s : List Char} (hs : s.head? ≠ some ' ') :
    (spacedPieces s).map trimSpaces =
      (Text.split [' '] s).filter fun word => !word.isEmpty := by
  cases hpieces : spacedPieces s with
  | nil =>
    have hempty : s = [] := by
      rw [← flatten_spacedPieces s, hpieces, List.flatten_nil]
    subst hempty
    rw [Text.split_eq_singleton (by simp) (Text.cut?_singleton_eq_none List.not_mem_nil)]
    rfl
  | cons piece others =>
    obtain ⟨hhead, word, words, hsplit, hpiece, hothers⟩ := forall₂_spacedPieces hpieces
    have hne : piece ≠ [] := by
      rintro rfl
      cases s with
      | nil => cases hpieces
      | cons c s => cases hhead
    have hword : word ≠ [] := hpiece.ne_nil_of_head? hne (hhead ▸ hs)
    have hwords : others.map trimSpaces = words.filter fun word => !word.isEmpty := by
      rw [← List.forall₂_eq_eq_eq, List.forall₂_map_left_iff]
      exact hothers.imp fun _ _ hother => hother.1.trimSpaces_eq hother.2
    rw [hsplit, List.filter_cons_of_pos (by simpa using hword), List.map_cons,
      hpiece.trimSpaces_eq hword, hwords]

/-- The space that has been taken off a piece makes no difference. -/
theorem map_trimSpaces_dropSeparators {pieces : List (List Char)} (h : EndInSpace pieces) :
    (dropSeparators pieces).map trimSpaces = pieces.map trimSpaces := by
  induction pieces with
  | nil => rfl
  | cons piece pieces ih =>
    cases pieces with
    | nil => rfl
    | cons next others =>
      obtain ⟨hlast, hothers⟩ := h
      obtain ⟨start, rfl⟩ := List.getLast?_eq_some_iff.mp hlast
      rw [dropSeparators, List.dropLast_concat, List.map_cons, ih hothers]
      simp only [List.map_cons, trimSpaces_concat]

theorem filter_split_dropWhile (line : List Char) :
    ((Text.split [' '] (line.dropWhile (· == ' '))).filter fun word => !word.isEmpty) =
      (Text.split [' '] line).filter fun word => !word.isEmpty := by
  induction line with
  | nil => rfl
  | cons c line ih =>
    by_cases hc : c = ' '
    · subst hc
      rw [List.dropWhile_cons_of_pos (by rfl), ih, Text.split_singleton_cons_self,
        List.filter_cons_of_neg (by simp)]
    · rw [List.dropWhile_cons_of_neg (by simpa using hc)]

/-- Fields that have kept their spaces are trimmed to the plain fields. -/
theorem map_trimSpaces_paddedFields (line : List Char) :
    (paddedFields line).map trimSpaces = spacedFields line := by
  have hlead : ∀ c ∈ line.takeWhile (· == ' '), (c == ' ') = true :=
    List.all_eq_true.mp List.all_takeWhile
  have hstart : (line.dropWhile (· == ' ')).head? ≠ some ' ' := by
    intro hhead
    have hstop := List.head?_dropWhile_not (· == ' ') line
    simp [hhead] at hstop
  have hwords := map_trimSpaces_spacedPieces hstart
  rw [filter_split_dropWhile] at hwords
  have hpadded := endInSpace_spacedPieces (line.dropWhile (· == ' '))
  have hflatten := flatten_spacedPieces (line.dropWhile (· == ' '))
  unfold paddedFields spacedFields
  cases hpieces : spacedPieces (line.dropWhile (· == ' ')) with
  | nil =>
    have hblank : line.dropWhile (· == ' ') = [] := by
      rw [← hflatten, hpieces, List.flatten_nil]
    rw [hpieces, List.map_nil] at hwords
    simp [← hwords, trimSpaces, Text.trimBy, Text.trimEndBy, hblank]
  | cons first others =>
    rw [hpieces] at hwords hpadded
    dsimp only
    rw [← hwords, map_trimSpaces_dropSeparators (hpadded.append _), List.map_cons, List.map_cons,
      trimSpaces, Text.trimBy_append_left hlead]
    rfl

/-! ## All policies -/

/-- Under a dialect that is accepted, a line has as many fields, and is as regular, whether its
fields keep their quotes and spaces or not.  Where lines are divided at runs of spaces, a plain
field lacks the spaces around it; where fields may be quoted, it is the text that a quoted field
stands for; and it is the same field otherwise. -/
theorem split_preserve {dialect accepted : Dialect} (haccepted : dialect.validate = .ok accepted)
    (line : List Char) :
    let kept := split accepted true line
    let plain := split accepted false line
    kept.fields.length = plain.fields.length ∧ kept.irregular = plain.irregular ∧
      match accepted.policy with
      | .simple | .monocolumn => plain.fields = kept.fields
      | .whitespace => plain.fields = kept.fields.map trimSpaces
      | .quoted | .quotedRfc =>
        List.Forall₂ (PlainOf accepted.delimiter (allowsSpaces accepted) plain.irregular)
          kept.fields plain.fields := by
  intro kept plain
  have hquoted : accepted.policy.isQuoted = true → kept.irregular = plain.irregular ∧
      List.Forall₂ (PlainOf accepted.delimiter (allowsSpaces accepted) plain.irregular)
        kept.fields plain.fields := by
    intro hpolicy
    obtain ⟨hd, hquote⟩ := quote_not_mem_of_validate haccepted hpolicy
    simp only [kept, plain, split_eq_quotedFields hpolicy hd]
    exact quotedFields_preserve hd hquote _ line
  cases hpolicy : accepted.policy with
  | monocolumn | simple => simp [kept, plain, split, hpolicy]
  | whitespace =>
    have htrim : plain.fields = kept.fields.map trimSpaces := by
      simp [kept, plain, split, hpolicy, map_trimSpaces_paddedFields]
    refine ⟨?_, by simp [kept, plain, split, hpolicy], htrim⟩
    rw [htrim, List.length_map]
  | quoted | quotedRfc =>
    obtain ⟨hirregular, hfields⟩ := hquoted (by rw [hpolicy]; rfl)
    exact ⟨hfields.length_eq, hirregular, hfields⟩

/-- A quoted field with spaces around it, and a field with a quote that makes the line
irregular. -/
theorem split_preserve_comma :
    let dialect : Dialect := ⟨",".toList, .quoted⟩
    let line := " \"a\"\"b\" ,c\"d".toList
    let kept := [" \"a\"\"b\" ".toList, "c\"d".toList]
    let plain := ["a\"b".toList, "c\"d".toList]
    dialect.validate = .ok dialect ∧ split dialect true line = ⟨kept, true⟩ ∧
      split dialect false line = ⟨plain, true⟩ ∧
      List.Forall₂ (PlainOf dialect.delimiter true true) kept plain := by
  intro dialect line kept plain
  have haccepted : dialect.validate = .ok dialect := rfl
  have hkept : split dialect true line = ⟨kept, true⟩ := by decide +kernel
  have hplain : split dialect false line = ⟨plain, true⟩ := by decide +kernel
  have hfields := (split_preserve haccepted line).2.2
  rw [hkept, hplain] at hfields
  exact ⟨haccepted, hkept, hplain, hfields⟩

end Delimited
end TableQuery
