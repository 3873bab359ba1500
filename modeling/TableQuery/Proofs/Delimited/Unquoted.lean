import TableQuery.Delimited.Join
import TableQuery.Delimited.Split
import TableQuery.Proofs.Text.Search

/-!
# Lines without quotes and the ambiguity warning

Where nothing is quoted, a line is ambiguous if a field holds the delimiter.  If lines are
divided at every delimiter, the warning says exactly which lines cannot be read back.  If they
are divided at runs of spaces, a line without a warning still loses its empty fields, since
nothing is left of them but longer runs.
-/

namespace TableQuery
namespace Delimited

/-- The fields that can be seen in a line that is divided at runs of spaces: all that are not
empty, or one empty field if there are no others. -/
def visibleFields (fields : List (List Char)) : List (List Char) :=
  let visible := fields.filter fun field => !field.isEmpty
  if visible.isEmpty then [[]] else visible

theorem spacedFields_eq (line : List Char) :
    spacedFields line = visibleFields (Text.split [' '] line) :=
  rfl

theorem eq_or_mem_of_mem_visibleFields {fields : List (List Char)} {field : List Char}
    (h : field ∈ visibleFields fields) : field = [] ∨ field ∈ fields := by
  unfold visibleFields at h
  dsimp only at h
  split at h
  · exact .inl (List.mem_singleton.mp h)
  · exact .inr (List.mem_filter.mp h).1

theorem filter_eq_self_iff_nil_not_mem {fields : List (List Char)} :
    (fields.filter fun field => !field.isEmpty) = fields ↔ [] ∉ fields := by
  rw [List.filter_eq_self]
  constructor
  · intro hfilled hempty
    exact absurd (hfilled [] hempty) (by decide)
  · rintro hempty (_ | ⟨c, field⟩) hfield
    · exact absurd hfield hempty
    · rfl

/-- All fields can be seen exactly if none is empty, or if there is only one. -/
theorem visibleFields_eq_self_iff {fields : List (List Char)} (hne : fields ≠ []) :
    visibleFields fields = fields ↔ fields = [[]] ∨ [] ∉ fields := by
  unfold visibleFields
  dsimp only
  split
  · next hvisible =>
    have hempty : ∀ field ∈ fields, field = [] := by simpa using hvisible
    constructor
    · intro heq
      exact .inl heq.symm
    · rintro (heq | hfilled)
      · exact heq.symm
      · obtain ⟨field, others, rfl⟩ := List.exists_cons_of_ne_nil hne
        exact absurd (hempty field List.mem_cons_self ▸ List.mem_cons_self) hfilled
  · next hvisible =>
    rw [filter_eq_self_iff_nil_not_mem]
    constructor
    · exact .inr
    · rintro (rfl | hfilled)
      · exact absurd rfl hvisible
      · exact hfilled

/-! ## The warning -/

theorem any_contains_eq_false_iff {d : Char} {fields : List (List Char)} :
    fields.any (Text.contains [d]) = false ↔ ∀ field ∈ fields, d ∉ field := by
  simp only [List.any_eq_false, Text.contains_singleton_iff]

/-- Fields come back from a line that is divided at every delimiter exactly if none of them
holds it. -/
theorem split_joinWith_eq_iff {d : Char} {fields : List (List Char)} (hne : fields ≠ []) :
    Text.split [d] (Text.joinWith [d] fields) = fields ↔ ∀ field ∈ fields, d ∉ field := by
  constructor
  · intro heq field hfield
    rw [← heq] at hfield
    exact Text.not_mem_of_mem_split hfield
  · exact Text.split_joinWith_singleton hne

theorem space_not_mem_of_mem_spacedFields {line field : List Char}
    (h : field ∈ spacedFields line) : ' ' ∉ field := by
  obtain rfl | hfield := eq_or_mem_of_mem_visibleFields h
  · exact List.not_mem_nil
  · exact Text.not_mem_of_mem_split hfield

/-- Fields without spaces come back from a line that is divided at runs of spaces as far as
they can be seen. -/
theorem spacedFields_joinWith {fields : List (List Char)} (hne : fields ≠ [])
    (hspace : ∀ field ∈ fields, ' ' ∉ field) :
    spacedFields (Text.joinWith [' '] fields) = visibleFields fields := by
  rw [spacedFields_eq, (split_joinWith_eq_iff hne).mpr hspace]

theorem spacedFields_joinWith_eq_iff {fields : List (List Char)} (hne : fields ≠ []) :
    spacedFields (Text.joinWith [' '] fields) = fields ↔
      (∀ field ∈ fields, ' ' ∉ field) ∧ (fields = [[]] ∨ [] ∉ fields) := by
  constructor
  · intro heq
    have hspace : ∀ field ∈ fields, ' ' ∉ field := by
      intro field hfield
      rw [← heq] at hfield
      exact space_not_mem_of_mem_spacedFields hfield
    rw [spacedFields_joinWith hne hspace] at heq
    exact ⟨hspace, (visibleFields_eq_self_iff hne).mp heq⟩
  · rintro ⟨hspace, hvisible⟩
    rw [spacedFields_joinWith hne hspace, (visibleFields_eq_self_iff hne).mpr hvisible]

/-- Where lines are divided at every delimiter, the fields of a line come back exactly if there
is no warning.  Where lines are divided at runs of spaces, the visible ones come back if there is
no warning, and these are all fields unless one of several is empty. -/
theorem split_join_unquoted {fields : List (List Char)} (hne : fields ≠ []) :
    (∀ d : Char, ∃ joined, join ⟨[d], .simple⟩ fields = .ok joined ∧
        (joined.ambiguous = false ↔
          split ⟨[d], .simple⟩ false joined.line = ⟨fields, false⟩)) ∧
      ∃ joined, join ⟨[' '], .whitespace⟩ fields = .ok joined ∧
        (joined.ambiguous = false →
          split ⟨[' '], .whitespace⟩ false joined.line = ⟨visibleFields fields, false⟩) ∧
        (split ⟨[' '], .whitespace⟩ false joined.line = ⟨fields, false⟩ ↔
          joined.ambiguous = false ∧ (fields = [[]] ∨ [] ∉ fields)) := by
  refine ⟨fun d => ⟨_, rfl, ?_⟩, _, rfl, ?_, ?_⟩
  · simp only [split, joinPreserved, Split.mk.injEq, and_true, any_contains_eq_false_iff,
      split_joinWith_eq_iff hne]
  · intro hambiguous
    rw [any_contains_eq_false_iff] at hambiguous
    simp [split, joinPreserved, spacedFields_joinWith hne hambiguous]
  · simp only [split, joinPreserved, Bool.false_eq_true, if_false, Split.mk.injEq, and_true,
      any_contains_eq_false_iff, spacedFields_joinWith_eq_iff hne]

/-- An empty field is lost at runs of spaces.  A tabulator in a field is warned of where
tabulators divide. -/
theorem split_join_unquoted_tabulator :
    let fields := ["a".toList, [], "\t\"".toList]
    fields ≠ [] ∧
      (∃ joined, join ⟨[' '], .whitespace⟩ fields = .ok joined ∧ joined.ambiguous = false ∧
        split ⟨[' '], .whitespace⟩ false joined.line = ⟨["a".toList, "\t\"".toList], false⟩) ∧
      ∃ joined, join ⟨['\t'], .simple⟩ fields = .ok joined ∧ joined.ambiguous = true ∧
        split ⟨['\t'], .simple⟩ false joined.line ≠ ⟨fields, false⟩ := by
  intro fields
  have hne : fields ≠ [] := by simp [fields]
  obtain ⟨hsimple, joined, hjoin, hvisible, -⟩ := split_join_unquoted hne
  refine ⟨hne, ⟨joined, hjoin, ?_⟩, ?_⟩
  · have hambiguous : joined.ambiguous = false := by
      cases hjoin
      decide
    exact ⟨hambiguous, hvisible hambiguous⟩
  · obtain ⟨joined, hjoin, hexact⟩ := hsimple '\t'
    have hambiguous : joined.ambiguous = true := by
      cases hjoin
      decide
    refine ⟨joined, hjoin, hambiguous, ?_⟩
    rw [Ne, ← hexact, hambiguous]
    decide

/-- An empty field between two others is lost without a warning. -/
theorem split_join_emptyField :
    let fields := ["a".toList, [], "b".toList]
    let line := "a  b".toList
    join ⟨[' '], .whitespace⟩ fields = .ok ⟨line, false⟩ ∧
      split ⟨[' '], .whitespace⟩ false line = ⟨["a".toList, "b".toList], false⟩ ∧
      split ⟨[' '], .whitespace⟩ false line ≠ ⟨fields, false⟩ :=
  ⟨rfl, by decide +kernel, by decide +kernel⟩

end Delimited
end TableQuery
