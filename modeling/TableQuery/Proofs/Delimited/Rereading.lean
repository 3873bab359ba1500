import Mathlib.Data.List.Infix
import TableQuery.Proofs.Delimited.Preservation
import TableQuery.Proofs.Delimited.RoundTrip

/-!
# Reading back lines with delimiters of any length

A field is put between quotes if it holds a quote or the delimiter, whatever stands behind it.
With a delimiter of several characters that is not enough.  The end of a field and the
delimiter behind it may hold an earlier occurrence of the delimiter.  And where spaces may stand
around a quoted field, the spaces at the start of a delimiter are taken for such.  Fields come
back from their line exactly if neither of the two happens.
-/

namespace TableQuery
namespace Delimited

/-! ## Written fields -/

/-- Whether a field is written between quotes. -/
def IsEnclosed (dialect : Dialect) (field : List Char) : Prop :=
  '"' ∈ field ∨ dialect.delimiter <:+: field ∨
    dialect.policy = .quotedRfc ∧ ('\n' ∈ field ∨ '\r' ∈ field)

instance (dialect : Dialect) (field : List Char) : Decidable (IsEnclosed dialect field) :=
  inferInstanceAs (Decidable (_ ∨ _))

/-- A field as it is written under a policy with quotes. -/
def written (dialect : Dialect) (field : List Char) : List Char :=
  if IsEnclosed dialect field then enclose field else field

/-- The line of fields under a policy with quotes. -/
def quotedLine (dialect : Dialect) (fields : List (List Char)) : List Char :=
  Text.joinWith dialect.delimiter (fields.map (written dialect))

/-- Whether spaces may surround a quoted field. -/
def allowsSpaces (dialect : Dialect) : Bool :=
  dialect.policy = .quoted && dialect.delimiter != [' ']

/-- An occurrence of the delimiter begins in the field, once a delimiter stands behind it. -/
def BeginsDelimiter (delimiter field : List Char) : Prop :=
  delimiter <:+: field ++ delimiter.dropLast

instance (delimiter field : List Char) : Decidable (BeginsDelimiter delimiter field) :=
  inferInstanceAs (Decidable (_ <:+: _))

/-- The start of the delimiter is taken for spaces behind a quoted field. -/
def LosesSpaces (padded : Bool) (delimiter : List Char) : Prop :=
  padded = true ∧ delimiter.head? = some ' '

instance (padded : Bool) (delimiter : List Char) : Decidable (LosesSpaces padded delimiter) :=
  inferInstanceAs (Decidable (_ ∧ _))

/-- The last field is a quoted one behind an empty field and a delimiter of spaces. -/
def QuotedBehindSpaces (dialect : Dialect) (fields : List (List Char)) : Prop :=
  (∀ c ∈ dialect.delimiter, c = ' ') ∧
    ∃ last, IsEnclosed dialect last ∧ [[], last] <:+ fields

theorem quotedBehindSpaces_cons_cons_iff {dialect : Dialect} {field next : List Char}
    {fields : List (List Char)} :
    QuotedBehindSpaces dialect (field :: next :: fields) ↔
      QuotedBehindSpaces dialect (next :: fields) ∨
        field = [] ∧ (∀ c ∈ dialect.delimiter, c = ' ') ∧ fields = [] ∧
          IsEnclosed dialect next := by
  unfold QuotedBehindSpaces
  constructor
  · rintro ⟨hdelimiter, last, hlast, hsuffix⟩
    obtain heq | hsuffix := List.suffix_cons_iff.mp hsuffix
    · simp only [List.cons.injEq] at heq
      obtain ⟨rfl, rfl, rfl⟩ := heq
      exact .inr ⟨rfl, hdelimiter, rfl, hlast⟩
    · exact .inl ⟨hdelimiter, last, hlast, hsuffix⟩
  · rintro (⟨hdelimiter, last, hlast, hsuffix⟩ | ⟨rfl, hdelimiter, rfl, hlast⟩)
    · exact ⟨hdelimiter, last, hlast, hsuffix.trans (List.suffix_cons _ _)⟩
    · exact ⟨hdelimiter, next, hlast, List.suffix_refl _⟩

theorem quoteField_eq_ite (delimiter field : List Char) :
    quoteField delimiter field =
      if '"' ∈ field ∨ delimiter <:+: field then enclose field else field := by
  simp only [quoteField, Bool.or_eq_true, List.contains_iff_mem, Text.contains_iff_infix]

theorem written_of_quoted {dialect : Dialect} (hpolicy : dialect.policy = .quoted) :
    written dialect = quoteField dialect.delimiter := by
  funext field
  simp [written, IsEnclosed, hpolicy, quoteField_eq_ite]

theorem written_of_quotedRfc {dialect : Dialect} (hpolicy : dialect.policy = .quotedRfc) :
    written dialect = quoteFieldRfc dialect.delimiter := by
  funext field
  simp only [written, IsEnclosed, hpolicy, true_and, quoteFieldRfc, quoteField_eq_ite,
    Bool.or_eq_true, List.contains_iff_mem]
  by_cases hbreak : '\n' ∈ field ∨ '\r' ∈ field
  · simp [hbreak]
  · simp [hbreak]

theorem join_eq_quotedLine {dialect : Dialect} (hpolicy : dialect.policy.isQuoted = true)
    (fields : List (List Char)) :
    join dialect fields = .ok ⟨quotedLine dialect fields, false⟩ := by
  cases hcase : dialect.policy with
  | quoted => simp [join, hcase, quotedLine, written_of_quoted hcase]
  | quotedRfc => simp [join, hcase, quotedLine, written_of_quotedRfc hcase]
  | _ => simp [hcase, Policy.isQuoted] at hpolicy

theorem split_eq_quotedFields {dialect : Dialect} (hpolicy : dialect.policy.isQuoted = true)
    (hd : dialect.delimiter ≠ []) (preserve : Bool) (line : List Char) :
    split dialect preserve line =
      quotedFields dialect.delimiter preserve (allowsSpaces dialect) hd line := by
  rw [← splitQuoted_eq_quotedFields]
  cases hcase : dialect.policy with
  | quoted => simp [split, hcase, allowsSpaces]
  | quotedRfc => simp [split, hcase, allowsSpaces]
  | _ => simp [hcase, Policy.isQuoted] at hpolicy

theorem not_mem_of_not_isEnclosed {dialect : Dialect} {field : List Char}
    (h : ¬IsEnclosed dialect field) : '"' ∉ field ∧ ¬dialect.delimiter <:+: field := by
  unfold IsEnclosed at h
  simp only [not_or] at h
  exact ⟨h.1, h.2.1⟩

theorem quotedLine_singleton (dialect : Dialect) (field : List Char) :
    quotedLine dialect [field] = written dialect field :=
  rfl

theorem quotedLine_cons_cons (dialect : Dialect) (field next : List Char)
    (fields : List (List Char)) :
    quotedLine dialect (field :: next :: fields) =
      written dialect field ++ (dialect.delimiter ++ quotedLine dialect (next :: fields)) := by
  rw [quotedLine, List.map_cons, List.map_cons, Text.joinWith_cons_cons, List.append_assoc]
  rfl

/-- A field of spaces in front of a delimiter of spaces begins a delimiter. -/
theorem beginsDelimiter_of_spaces {delimiter field : List Char} (hfield : ∀ c ∈ field, c = ' ')
    (hdelimiter : ∀ c ∈ delimiter, c = ' ') (hne : field ≠ []) :
    BeginsDelimiter delimiter field := by
  have hlength : delimiter.length ≤ field.length + (delimiter.length - 1) := by
    have := List.length_pos_iff.mpr hne
    omega
  rw [BeginsDelimiter, List.eq_replicate_of_mem hfield, List.eq_replicate_of_mem hdelimiter,
    List.dropLast_replicate, List.replicate_append_replicate]
  have hprefix : List.replicate delimiter.length ' ' <+:
      List.replicate (field.length + (delimiter.length - 1)) ' ' := by
    rw [List.prefix_replicate_iff, List.length_replicate]
    exact ⟨hlength, rfl⟩
  exact hprefix.isInfix

/-! ## Quoted fields behind spaces -/

theorem quotedField?_eq_none_iff {padded : Bool} {s : List Char} :
    quotedField? padded s = none ↔
      ∀ opened, s.dropWhile (fun c => padded && c == ' ') = '"' :: opened →
        closeQuote? opened = none := by
  unfold quotedField?
  dsimp only
  split
  · next opened hopened => simp [hopened]
  · next hopened =>
    simp only [true_iff]
    intro opened heq
    exact absurd heq (hopened opened)

/-- A quoted field begins in a text without quotes in front only if it is all spaces, which
then belong to the field. -/
theorem quotedField?_append_eq_none_iff {padded : Bool} {front : List Char}
    (hquote : '"' ∉ front) (rest : List Char) :
    quotedField? padded (front ++ rest) = none ↔
      ((∀ c ∈ front, (padded && c == ' ') = true) → quotedField? padded rest = none) := by
  simp only [quotedField?_eq_none_iff]
  induction front with
  | nil => simp
  | cons c front ih =>
    obtain ⟨hc, hquote⟩ := not_or.mp (mt List.mem_cons.mpr hquote)
    rw [List.cons_append, List.dropWhile_cons, List.forall_mem_cons]
    by_cases hspace : (padded && c == ' ') = true
    · simpa [hspace] using ih hquote
    · simp only [hspace, Bool.false_eq_true, if_false, List.cons.injEq, false_and, false_implies,
        iff_true]
      rintro opened ⟨rfl, -⟩
      exact absurd rfl hc

theorem quotedField?_written_eq_none_iff {dialect : Dialect} {padded : Bool} (field : List Char) :
    quotedField? padded (written dialect field) = none ↔ ¬IsEnclosed dialect field := by
  by_cases henclosed : IsEnclosed dialect field
  · have hquoted := quotedField?_enclose padded field [] (by simp) (by simp)
    rw [List.append_nil] at hquoted
    simp [written, henclosed, hquoted]
  · have hfield := (not_mem_of_not_isEnclosed henclosed).1
    simp [written, henclosed, quotedField?_of_not_mem hfield]

/-- What follows a quoted field does not begin with the spaces that belong to it. -/
theorem head?_rest_of_quotedField? {s : List Char} {q : QuotedField}
    (h : quotedField? true s = some q) : q.rest.head? ≠ some ' ' := by
  unfold quotedField? at h
  dsimp only at h
  split at h
  · obtain ⟨⟨body, rest⟩, -, rfl⟩ := Option.map_eq_some_iff.mp h
    intro hhead
    have hstop := List.head?_dropWhile_not (fun c => true && c == ' ') rest
    simp only [hhead] at hstop
    exact absurd hstop (by decide)
  · cases h

/-! ## The first field of a line -/

section

variable {delimiter : List Char} {padded : Bool}

/-- The first field of a text of several regular fields, and what they are read from. -/
theorem exists_nextField_of_quotedFields (hd : delimiter ≠ []) {s field : List Char}
    {fields : List (List Char)} (hfields : fields ≠ [])
    (h : quotedFields delimiter false padded hd s = ⟨field :: fields, false⟩) :
    ∃ rest, nextField delimiter false padded s = ⟨field, false, some rest⟩ ∧
      quotedFields delimiter false padded hd rest = ⟨fields, false⟩ := by
  rcases hnext : nextField delimiter false padded s with ⟨first, irregular, _ | rest⟩
  · rw [quotedFields_eq_singleton hd hnext] at h
    simp only [Split.mk.injEq, List.cons.injEq] at h
    exact absurd h.1.2.symm hfields
  · rcases hrest : quotedFields delimiter false padded hd rest with ⟨others, irregular'⟩
    rw [quotedFields_eq_cons hd hnext, hrest] at h
    simp only [Split.mk.injEq, List.cons.injEq, Bool.or_eq_false_iff] at h
    obtain ⟨⟨rfl, rfl⟩, rfl, rfl⟩ := h
    exact ⟨rest, rfl, hrest⟩

/-- A plain field ends at the delimiter behind it unless an occurrence begins in it. -/
theorem nextField_plain_iff (hd : delimiter ≠ []) {field rest after : List Char}
    (hquote : '"' ∉ field) (hnone : quotedField? padded (field ++ (delimiter ++ rest)) = none) :
    nextField delimiter false padded (field ++ (delimiter ++ rest)) =
        ⟨field, false, some after⟩ ↔
      after = rest ∧ ¬BeginsDelimiter delimiter field := by
  rw [nextField_eq_plainField false hnone, BeginsDelimiter, ← Text.cut?_append_iff hd field rest]
  unfold plainField
  constructor
  · intro h
    split at h
    · next before behind hcut =>
      simp only [NextField.mk.injEq, Option.some.injEq] at h
      obtain ⟨rfl, -, rfl⟩ := h
      have hline := Text.eq_of_cut? hcut
      rw [List.append_assoc] at hline
      have hrest : rest = behind := List.append_cancel_left (List.append_cancel_left hline)
      exact ⟨hrest.symm, hrest ▸ hcut⟩
    · simp at h
  · rintro ⟨rfl, hcut⟩
    simp [hcut, hquote]

/-- Where the delimiter begins with a space that may belong to a quoted field, a field that
the delimiter ends has not been read as a quoted one. -/
theorem eq_of_nextField_of_losesSpaces (hspaces : LosesSpaces padded delimiter)
    {s field after : List Char}
    (h : nextField delimiter false padded s = ⟨field, false, some after⟩) :
    quotedField? padded s = none ∧ '"' ∉ field ∧ s = field ++ (delimiter ++ after) := by
  obtain ⟨rfl, hhead⟩ := hspaces
  cases hquoted : quotedField? true s with
  | none =>
    rw [nextField_eq_plainField false hquoted, plainField] at h
    split at h
    · next before behind hcut =>
      simp only [NextField.mk.injEq, Option.some.injEq, Bool.false_or] at h
      obtain ⟨rfl, hquote, rfl⟩ := h
      refine ⟨rfl, by simpa using hquote, ?_⟩
      rw [← List.append_assoc]
      exact Text.eq_of_cut? hcut
    · simp at h
  | some q =>
    -- The rest begins with no space, and the delimiter with one.
    have hprefix : delimiter.isPrefixOf? q.rest = none := by
      rw [Text.isPrefixOf?_eq_none_iff]
      rintro ⟨behind, hbehind⟩
      apply head?_rest_of_quotedField? hquoted
      rw [← hbehind, List.head?_append, hhead, Option.some_or]
    simp only [nextField, hquoted, hprefix] at h
    split at h
    · simp at h
    · have hirregular := congrArg NextField.irregular h
      unfold plainField at hirregular
      split at hirregular <;> simp at hirregular

/-- A quoted field is read from a plain field on only if that field is empty and the delimiter
is spaces. -/
theorem quotedField?_plain_iff (hquote : '"' ∉ delimiter)
    (hspaces : LosesSpaces padded delimiter) {field : List Char} (hfield : '"' ∉ field)
    (hbegins : ¬BeginsDelimiter delimiter field) (rest : List Char) :
    quotedField? padded (field ++ (delimiter ++ rest)) = none ↔
      (field = [] → (∀ c ∈ delimiter, c = ' ') → quotedField? padded rest = none) := by
  have hfront : '"' ∉ field ++ delimiter := by simp [hfield, hquote]
  rw [← List.append_assoc, quotedField?_append_eq_none_iff hfront]
  simp only [hspaces.1, Bool.true_and, beq_iff_eq, List.forall_mem_append]
  constructor
  · rintro h rfl hdelimiter
    exact h ⟨List.forall_mem_nil _, hdelimiter⟩
  · rintro h ⟨hblank, hdelimiter⟩
    refine h ?_ hdelimiter
    exact Classical.byContradiction fun hne =>
      hbegins (beginsDelimiter_of_spaces hblank hdelimiter hne)

end

/-! ## The fields of a line -/

/-- The last field of a line always comes back. -/
theorem nextField_written_last (dialect : Dialect) (padded : Bool) (field : List Char) :
    nextField dialect.delimiter false padded (written dialect field) = ⟨field, false, none⟩ := by
  unfold written
  split
  · have hquoted := quotedField?_enclose padded field [] (by simp) (by simp)
    rw [List.append_nil] at hquoted
    simp [nextField, hquoted, halveQuotes_doubleQuotes]
  · next hplain =>
    obtain ⟨hfield, hdelimiter⟩ := not_mem_of_not_isEnclosed hplain
    rw [nextField_eq_plainField false (quotedField?_of_not_mem hfield), plainField,
      Text.cut?_eq_none_iff.mpr hdelimiter]
    simp [hfield]

theorem quotedFields_singleton {dialect : Dialect} {padded : Bool}
    (hd : dialect.delimiter ≠ []) (field : List Char) :
    quotedFields dialect.delimiter false padded hd (quotedLine dialect [field]) =
      ⟨[field], false⟩ :=
  quotedFields_eq_singleton hd (nextField_written_last dialect padded field)

/-- Fields come back if the first one does, on a condition of its own, and the others do. -/
theorem quotedFields_cons_cons_iff {dialect : Dialect} {padded : Bool}
    (hd : dialect.delimiter ≠ []) {field next : List Char} {fields : List (List Char)}
    {condition : Prop}
    (hfirst : ∀ after, nextField dialect.delimiter false padded
        (written dialect field ++ (dialect.delimiter ++ quotedLine dialect (next :: fields))) =
          ⟨field, false, some after⟩ ↔
        after = quotedLine dialect (next :: fields) ∧ condition) :
    quotedFields dialect.delimiter false padded hd (quotedLine dialect (field :: next :: fields)) =
        ⟨field :: next :: fields, false⟩ ↔
      condition ∧
        quotedFields dialect.delimiter false padded hd (quotedLine dialect (next :: fields)) =
          ⟨next :: fields, false⟩ := by
  rw [quotedLine_cons_cons]
  constructor
  · intro h
    obtain ⟨rest, hnext, hothers⟩ := exists_nextField_of_quotedFields hd (by simp) h
    obtain ⟨rfl, hcondition⟩ := (hfirst rest).mp hnext
    exact ⟨hcondition, hothers⟩
  · rintro ⟨hcondition, hothers⟩
    rw [quotedFields_eq_cons hd ((hfirst _).mpr ⟨rfl, hcondition⟩), hothers]
    rfl

/-- A line of fields that come back begins as a quoted field only if it is one. -/
theorem quotedField?_quotedLine_eq_none_iff {dialect : Dialect} {padded : Bool}
    (hd : dialect.delimiter ≠ []) (hspaces : LosesSpaces padded dialect.delimiter)
    {field : List Char} {fields : List (List Char)}
    (h : quotedFields dialect.delimiter false padded hd (quotedLine dialect (field :: fields)) =
      ⟨field :: fields, false⟩) :
    quotedField? padded (quotedLine dialect (field :: fields)) = none ↔
      (fields = [] → ¬IsEnclosed dialect field) := by
  cases fields with
  | nil => simpa [quotedLine_singleton] using quotedField?_written_eq_none_iff field
  | cons next fields =>
    obtain ⟨rest, hnext, -⟩ := exists_nextField_of_quotedFields hd (by simp) h
    simp [(eq_of_nextField_of_losesSpaces hspaces hnext).1]

section

variable {dialect : Dialect} {padded : Bool} (hd : dialect.delimiter ≠ [])
  (hquote : '"' ∉ dialect.delimiter)

include hd hquote

/-- Where no space of the delimiter is lost, a field in front of it comes back if it is
quoted, or if no delimiter begins in it. -/
theorem nextField_written_iff (hspaces : ¬LosesSpaces padded dialect.delimiter)
    (field rest after : List Char) :
    nextField dialect.delimiter false padded
        (written dialect field ++ (dialect.delimiter ++ rest)) = ⟨field, false, some after⟩ ↔
      after = rest ∧
        (IsEnclosed dialect field ∨ ¬BeginsDelimiter dialect.delimiter field) := by
  obtain ⟨d, others, hdelimiter⟩ := List.exists_cons_of_ne_nil hd
  have hne : d ≠ '"' := by
    rintro rfl
    exact hquote (hdelimiter ▸ List.mem_cons_self)
  have hpad : padded = true → d ≠ ' ' := by
    rintro hpadded rfl
    exact hspaces ⟨hpadded, by rw [hdelimiter]; rfl⟩
  have hbehind : dialect.delimiter ++ rest = d :: (others ++ rest) := by
    rw [hdelimiter, List.cons_append]
  by_cases henclosed : IsEnclosed dialect field
  · have hquoted := quotedField?_enclose padded field (dialect.delimiter ++ rest)
      (by simp [hbehind, hne]) (by simpa [hbehind] using hpad)
    have hnext : nextField dialect.delimiter false padded
        (enclose field ++ (dialect.delimiter ++ rest)) = ⟨field, false, some rest⟩ := by
      simp [nextField, hquoted, halveQuotes_doubleQuotes, Text.isPrefixOf?_append, hd]
    rw [written, if_pos henclosed, hnext]
    simp only [NextField.mk.injEq, Option.some.injEq, henclosed, true_and, true_or, and_true]
    exact eq_comm
  · obtain ⟨hfield, -⟩ := not_mem_of_not_isEnclosed henclosed
    have hnone : quotedField? padded (field ++ (dialect.delimiter ++ rest)) = none :=
      quotedField?_eq_none hne hpad hfield _ (.inr ⟨_, hbehind⟩)
    rw [written, if_neg henclosed, nextField_plain_iff hd hfield hnone]
    simp [henclosed]

/-- Where a space of the delimiter may be lost, a field in front of it comes back only if it is
plain and nothing is read as a quoted field. -/
theorem nextField_written_iff_of_losesSpaces (hspaces : LosesSpaces padded dialect.delimiter)
    (field rest after : List Char) :
    nextField dialect.delimiter false padded
        (written dialect field ++ (dialect.delimiter ++ rest)) = ⟨field, false, some after⟩ ↔
      after = rest ∧ (¬IsEnclosed dialect field ∧ ¬BeginsDelimiter dialect.delimiter field) ∧
        quotedField? padded (field ++ (dialect.delimiter ++ rest)) = none := by
  by_cases henclosed : IsEnclosed dialect field
  · -- The line begins with a quote, and neither the field nor the delimiter does.
    simp only [henclosed, not_true_eq_false, false_and, and_false, iff_false]
    intro h
    obtain ⟨-, hfield, hline⟩ := eq_of_nextField_of_losesSpaces hspaces h
    have hmem : '"' ∈ field ++ dialect.delimiter := by
      obtain ⟨c, front, hfront⟩ := List.exists_cons_of_ne_nil
        (List.append_ne_nil_of_right_ne_nil field hd)
      rw [← List.append_assoc field, hfront, written, if_pos henclosed] at hline
      rw [hfront, ← (List.cons.inj hline).1]
      exact List.mem_cons_self
    exact (List.mem_append.mp hmem).elim hfield hquote
  · obtain ⟨hfield, -⟩ := not_mem_of_not_isEnclosed henclosed
    rw [written, if_neg henclosed]
    constructor
    · intro h
      obtain ⟨hnone, -, -⟩ := eq_of_nextField_of_losesSpaces hspaces h
      obtain ⟨hafter, hbegins⟩ := (nextField_plain_iff hd hfield hnone).mp h
      exact ⟨hafter, ⟨henclosed, hbegins⟩, hnone⟩
    · rintro ⟨hafter, ⟨-, hbegins⟩, hnone⟩
      exact (nextField_plain_iff hd hfield hnone).mpr ⟨hafter, hbegins⟩

/-- Where no space of the delimiter is lost, fields come back exactly if no delimiter begins in
one that is written as it is. -/
theorem quotedFields_quotedLine_iff (hspaces : ¬LosesSpaces padded dialect.delimiter)
    {fields : List (List Char)} (hne : fields ≠ []) :
    quotedFields dialect.delimiter false padded hd (quotedLine dialect fields) =
        ⟨fields, false⟩ ↔
      ∀ field ∈ fields.dropLast,
        IsEnclosed dialect field ∨ ¬BeginsDelimiter dialect.delimiter field := by
  induction fields with
  | nil => exact absurd rfl hne
  | cons field fields ih =>
    cases fields with
    | nil => simpa using quotedFields_singleton hd field
    | cons next fields =>
      rw [quotedFields_cons_cons_iff hd (nextField_written_iff hd hquote hspaces field _),
        ih (by simp), List.dropLast_cons_cons, List.forall_mem_cons]

/-- Where a space of the delimiter may be lost, fields come back exactly if all but the last one
are plain, no delimiter begins in them, and the last one is not a quoted field behind spaces. -/
theorem quotedFields_quotedLine_iff_of_losesSpaces
    (hspaces : LosesSpaces padded dialect.delimiter) {fields : List (List Char)}
    (hne : fields ≠ []) :
    quotedFields dialect.delimiter false padded hd (quotedLine dialect fields) =
        ⟨fields, false⟩ ↔
      (∀ field ∈ fields.dropLast,
        ¬IsEnclosed dialect field ∧ ¬BeginsDelimiter dialect.delimiter field) ∧
      ¬QuotedBehindSpaces dialect fields := by
  induction fields with
  | nil => exact absurd rfl hne
  | cons field fields ih =>
    cases fields with
    | nil =>
      have hsingle : ¬QuotedBehindSpaces dialect [field] := by
        rintro ⟨-, last, -, hsuffix⟩
        exact absurd hsuffix.length_le (by simp)
      simpa [hsingle] using quotedFields_singleton hd field
    | cons next fields =>
      rw [quotedFields_cons_cons_iff hd
        (nextField_written_iff_of_losesSpaces hd hquote hspaces field _),
        List.dropLast_cons_cons, List.forall_mem_cons, quotedBehindSpaces_cons_cons_iff]
      -- What may be read as a quoted field at the first one depends on the line of the others.
      have hfirst : ∀ hplain : ¬IsEnclosed dialect field ∧ ¬BeginsDelimiter dialect.delimiter field,
          quotedFields dialect.delimiter false padded hd (quotedLine dialect (next :: fields)) =
            ⟨next :: fields, false⟩ →
          (quotedField? padded
              (field ++ (dialect.delimiter ++ quotedLine dialect (next :: fields))) = none ↔
            (field = [] → (∀ c ∈ dialect.delimiter, c = ' ') →
              fields = [] → ¬IsEnclosed dialect next)) := by
        intro hplain hothers
        rw [quotedField?_plain_iff hquote hspaces (not_mem_of_not_isEnclosed hplain.1).1 hplain.2,
          quotedField?_quotedLine_eq_none_iff hd hspaces hothers]
      have hothers := ih (by simp)
      constructor
      · rintro ⟨⟨hplain, hnone⟩, hrest⟩
        obtain ⟨hplains, hspaced⟩ := hothers.mp hrest
        refine ⟨⟨hplain, hplains⟩, not_or.mpr ⟨hspaced, ?_⟩⟩
        rintro ⟨hempty, hdelimiter, hlast, henclosed⟩
        exact (hfirst hplain hrest).mp hnone hempty hdelimiter hlast henclosed
      · rintro ⟨⟨hplain, hplains⟩, hspaced⟩
        obtain ⟨hspaced, hgap⟩ := not_or.mp hspaced
        have hrest := hothers.mpr ⟨hplains, hspaced⟩
        refine ⟨⟨hplain, (hfirst hplain hrest).mpr ?_⟩, hrest⟩
        intro hempty hdelimiter hlast henclosed
        exact hgap ⟨hempty, hdelimiter, hlast, henclosed⟩

end

/-! ## Accepted dialects -/

/-- Where an accepted dialect has quoted fields, its delimiter is not empty and holds no quote. -/
theorem quote_not_mem_of_validate {dialect accepted : Dialect}
    (h : dialect.validate = .ok accepted) (hpolicy : accepted.policy.isQuoted = true) :
    accepted.delimiter ≠ [] ∧ '"' ∉ accepted.delimiter := by
  have hnormal := normalize?_of_validate h
  obtain ⟨delimiter, policy⟩ := dialect
  cases policy with
  | monocolumn | whitespace =>
    cases hnormal
    cases hpolicy
  | simple | quoted | quotedRfc =>
    obtain ⟨hdelimiter, heq⟩ := Option.ite_none_left_eq_some.mp hnormal
    cases heq
    simpa [Policy.isQuoted] using And.intro hpolicy hdelimiter

/-- The fields of a line end where they were joined, and quoted ones are read as such. -/
structure KeepsApart (dialect : Dialect) (fields : List (List Char)) : Prop where
  /-- No delimiter begins in a field that is written as it is, unless it is the last one. -/
  separate : ∀ field ∈ fields.dropLast,
    IsEnclosed dialect field ∨ ¬BeginsDelimiter dialect.delimiter field
  /-- No delimiter whose first space is lost stands behind a quoted field. -/
  plain : LosesSpaces (allowsSpaces dialect) dialect.delimiter →
    ∀ field ∈ fields.dropLast, ¬IsEnclosed dialect field
  /-- No delimiter belongs to a quoted field behind it. -/
  last : LosesSpaces (allowsSpaces dialect) dialect.delimiter → ¬QuotedBehindSpaces dialect fields

/-- No part at the start of a delimiter, but all of it, is a part at its end too. -/
def Unbordered (delimiter : List Char) : Prop :=
  ∀ part, part ≠ [] → part <+: delimiter → part <:+ delimiter → part = delimiter

/-- Such a delimiter begins in no field that it does not end in as well. -/
theorem infix_of_beginsDelimiter {delimiter field : List Char} (hd : delimiter ≠ [])
    (hborder : Unbordered delimiter) (h : BeginsDelimiter delimiter field) :
    delimiter <:+: field := by
  obtain ⟨before, after, heq⟩ := h
  obtain ⟨rest, hfield, -⟩ | ⟨part, hfront, hrest⟩ := List.append_eq_append_iff.mp heq
  · exact ⟨before, rest, hfield.symm⟩
  · -- The occurrence goes on into the delimiter behind the field by a part of it.
    obtain ⟨front, hfield, hdelimiter⟩ | ⟨rest, -, hpart⟩ := List.append_eq_append_iff.mp hfront
    · by_cases hempty : part = []
      · subst hempty
        exact ⟨before, [], by simp_all⟩
      · have hprefix : part <+: delimiter :=
          List.IsPrefix.trans ⟨after, hrest.symm⟩ (List.dropLast_prefix delimiter)
        have hwhole := hborder part hempty hprefix ⟨front, hdelimiter.symm⟩
        have hlength := congrArg List.length hrest
        have hpos := List.length_pos_iff.mpr hd
        simp only [List.length_dropLast, List.length_append, hwhole] at hlength
        omega
    · have hlength := congrArg List.length hrest
      have hpos := List.length_pos_iff.mpr hd
      simp only [hpart, List.length_dropLast, List.length_append] at hlength
      omega

/-- A delimiter without a border that begins with no space to be lost keeps all fields apart. -/
theorem keepsApart_of_unbordered {dialect : Dialect} (hd : dialect.delimiter ≠ [])
    (hborder : Unbordered dialect.delimiter)
    (hspaces : ¬LosesSpaces (allowsSpaces dialect) dialect.delimiter)
    (fields : List (List Char)) : KeepsApart dialect fields := by
  refine ⟨fun field _ => ?_, fun h => absurd h hspaces, fun h => absurd h hspaces⟩
  by_cases hbegins : BeginsDelimiter dialect.delimiter field
  · exact .inl (.inr (.inl (infix_of_beginsDelimiter hd hborder hbegins)))
  · exact .inr hbegins

theorem quotedFields_quotedLine_eq_iff {dialect : Dialect} (hd : dialect.delimiter ≠ [])
    (hquote : '"' ∉ dialect.delimiter) {fields : List (List Char)} (hne : fields ≠ []) :
    quotedFields dialect.delimiter false (allowsSpaces dialect) hd (quotedLine dialect fields) =
        ⟨fields, false⟩ ↔ KeepsApart dialect fields := by
  by_cases hspaces : LosesSpaces (allowsSpaces dialect) dialect.delimiter
  · rw [quotedFields_quotedLine_iff_of_losesSpaces hd hquote hspaces hne]
    constructor
    · rintro ⟨hplain, hlast⟩
      exact ⟨fun field hfield => .inr (hplain field hfield).2,
        fun _ field hfield => (hplain field hfield).1, fun _ => hlast⟩
    · rintro ⟨hseparate, hplain, hlast⟩
      refine ⟨fun field hfield => ?_, hlast hspaces⟩
      have hfieldPlain := hplain hspaces field hfield
      exact ⟨hfieldPlain, (hseparate field hfield).resolve_left hfieldPlain⟩
  · rw [quotedFields_quotedLine_iff hd hquote hspaces hne]
    exact ⟨fun hseparate => ⟨hseparate, fun h => absurd h hspaces, fun h => absurd h hspaces⟩,
      KeepsApart.separate⟩

/-- Under an accepted dialect with quoted fields, whatever its delimiter, fields come back from
their line exactly if the dialect keeps them apart.  All fields come back if the delimiter has no
border and begins with no space to be lost. -/
theorem split_join_eq_iff {dialect accepted : Dialect} (haccepted : dialect.validate = .ok accepted)
    (hpolicy : accepted.policy.isQuoted = true) {fields : List (List Char)} (hne : fields ≠ []) :
    ∃ line, join accepted fields = .ok ⟨line, false⟩ ∧
      (split accepted false line = ⟨fields, false⟩ ↔ KeepsApart accepted fields) ∧
      (Unbordered accepted.delimiter →
        ¬LosesSpaces (allowsSpaces accepted) accepted.delimiter →
          split accepted false line = ⟨fields, false⟩) := by
  obtain ⟨hd, hquote⟩ := quote_not_mem_of_validate haccepted hpolicy
  have hback : split accepted false (quotedLine accepted fields) = ⟨fields, false⟩ ↔
      KeepsApart accepted fields := by
    rw [split_eq_quotedFields hpolicy hd, quotedFields_quotedLine_eq_iff hd hquote hne]
  refine ⟨_, join_eq_quotedLine hpolicy fields, hback, ?_⟩
  intro hborder hspaces
  exact hback.mpr (keepsApart_of_unbordered hd hborder hspaces fields)

/-- Fields that hold the delimiter, a quote or a part of the delimiter come back. -/
theorem split_join_eq_iff_colons :
    let dialect : Dialect := ⟨"::".toList, .quoted⟩
    let fields := ["a:b".toList, "x::y".toList, "\"".toList, ":".toList]
    (dialect.validate = .ok dialect ∧ dialect.policy.isQuoted = true ∧ fields ≠ []) ∧
      ∃ line, join dialect fields = .ok ⟨line, false⟩ ∧
        split dialect false line = ⟨fields, false⟩ := by
  intro dialect fields
  have haccepted : dialect.validate = .ok dialect := rfl
  have hne : fields ≠ [] := by simp [fields]
  have hspaces : ¬LosesSpaces (allowsSpaces dialect) dialect.delimiter := by decide
  have hseparate : ∀ field ∈ fields.dropLast,
      IsEnclosed dialect field ∨ ¬BeginsDelimiter dialect.delimiter field := by decide
  obtain ⟨line, hjoin, hback, -⟩ := split_join_eq_iff haccepted rfl hne
  exact ⟨⟨haccepted, rfl, hne⟩, line, hjoin,
    hback.mpr ⟨hseparate, fun h => absurd h hspaces, fun h => absurd h hspaces⟩⟩

/-- A colon in front of a delimiter of two makes the field end one colon too early, and the
space of a delimiter behind a quoted field is lost. -/
theorem split_join_longDelimiter :
    (let dialect : Dialect := ⟨"::".toList, .quoted⟩
      let fields := ["a:".toList, "b".toList]
      let line := "a:::b".toList
      dialect.validate = .ok dialect ∧ join dialect fields = .ok ⟨line, false⟩ ∧
        split dialect false line = ⟨["a".toList, ":b".toList], false⟩) ∧
      let dialect : Dialect := ⟨" :".toList, .quoted⟩
      let fields := ["x :y".toList, "z".toList]
      let line := "\"x :y\" :z".toList
      dialect.validate = .ok dialect ∧ join dialect fields = .ok ⟨line, false⟩ ∧
        split dialect false line = ⟨["\"x".toList, "y\"".toList, "z".toList], true⟩ :=
  ⟨⟨rfl, rfl, by decide +kernel⟩, rfl, rfl, by decide +kernel⟩

end Delimited
end TableQuery
