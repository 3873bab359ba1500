import TableQuery.Proofs.Expression.Parts
import TableQuery.Proofs.Query.AggregateFree
import TableQuery.Proofs.Query.ColumnMaps
import TableQuery.Proofs.Query.Pieces

/-!
# Spellings of fields

A field of an input record is spelled by the number or by the name of its column.  Wherever
such a spelling is bound, outside of functions, it means the field that it names.
-/

namespace TableQuery

/-- The columns that a spelling names: by name, the first one with this name, and by number.
A number of more than sixty-four bits behind the letter is no column number, so it is a
spelling only where it is no constant. -/
inductive Expr.NamesField (header : List String) (scope : Scope) : Expr → Nat → Prop
  | named {n : String} (hbare : ColumnMap.isBareName n) (hmem : n ∈ header) :
    NamesField header scope (.attribute (.name "a") n) (header.idxOf n)
  | keyed {n : String} (hbare : ColumnMap.isBareName n) (hmem : n ∈ header) :
    NamesField header scope (.index (.name "a") (.text n)) (header.idxOf n)
  | bare {n : String} (hbare : ColumnMap.isBareName n) (hmem : n ∈ header) :
    NamesField header scope (.name n) (header.idxOf n)
  | numbered {k : Nat} (hk : 1 ≤ k)
    (hconstant : k < UInt64.size ∨ scope.constant? s!"a{k}" = none) :
    NamesField header scope (.name s!"a{k}") (k - 1)
  | subscript {k : Int64} (hk : 1 ≤ k.toInt) :
    NamesField header scope (.index (.name "a") (.int k)) (k.toInt - 1).toNat

/-! ## Parts keep their meaning -/

namespace Expr

variable {names : Names}

theorem MeanAll.exists_means {es : List Expr} {bs : List Bound} {n n' : Nat} {e : Expr}
    {b : Bound} : MeanAll names es n bs n' → (e, b) ∈ es.zip bs → ∃ m m', Means names e m b m'
  | .nil _ _, hmem => by cases hmem
  | .cons h hs, hmem => by
    rcases List.mem_cons.mp hmem with heq | hmem
    · cases heq
      exact ⟨_, _, h⟩
    · exact hs.exists_means hmem

/-- The arguments of a call that has a meaning have theirs. -/
theorem Means.exists_means_of_mem_zip_arguments {f : String} {args : List Expr} {whole : Bound}
    {n n' : Nat} (h : Means names (.call f args) n whole n') {e : Expr} {b : Bound}
    (hmem : (e, b) ∈ args.zip whole.arguments) : ∃ m m', Means names e m b m' := by
  cases h with
  | unfold _ harg | aggregate _ harg | gathered _ _ harg =>
    cases List.mem_singleton.mp hmem
    exact ⟨_, _, harg⟩
  | user _ _ hargs | builtin _ _ hargs => exact hargs.exists_means hmem

theorem exists_field_of_subscriptOf {side : Side} {i : Expr} {b : Bound}
    (h : names.subscriptOf side i = .ok b) : ∃ index spelling, b = .field side index spelling := by
  unfold Names.subscriptOf at h
  split at h
  · dsimp only at h
    split at h
    · cases h
    · split at h
      · exact ⟨_, _, (Names.readingOf_eq_ok h).1⟩
      · cases h
  · split at h
    · exact ⟨_, _, (Names.readingOf_eq_ok h).1⟩
    · cases h
  · cases h

/-- A subscript that does not stand for a field is one of a list. -/
theorem Means.of_index {base i : Expr} {base' i' : Bound} {n n' : Nat}
    (h : Means names (.index base i) n (.index base' i') n') :
    ∃ m, Means names base n base' m ∧ Means names i m i' n' := by
  cases h with
  | subscript _ hi =>
    obtain ⟨_, _, heq⟩ := exists_field_of_subscriptOf hi
    cases heq
  | index _ hbase hi => exact ⟨_, hbase, hi⟩

/-- A part of an expression has its meaning wherever the expression has its own. -/
theorem Part.exists_means {part e : Expr} {meaning b : Bound} (hpart : Part part meaning e b)
    {n n' : Nat} (h : Means names e n b n') : ∃ m m', Means names part m meaning m' := by
  induction hpart generalizing n n' with
  | self => exact ⟨_, _, h⟩
  | item hmem _ ih =>
    cases h with
    | list hitems =>
      obtain ⟨_, _, hitem⟩ := hitems.exists_means hmem
      exact ih hitem
  | argument f hmem _ ih =>
    obtain ⟨_, _, hargument⟩ := h.exists_means_of_mem_zip_arguments hmem
    exact ih hargument
  | base i i' _ ih =>
    obtain ⟨_, hbase, -⟩ := h.of_index
    exact ih hbase
  | subscript base base' _ ih =>
    obtain ⟨_, -, hi⟩ := h.of_index
    exact ih hi
  | left right right' _ ih =>
    cases h with
    | binary _ hleft _ => exact ih hleft
  | right left left' _ ih =>
    cases h with
    | binary _ _ hright => exact ih hright
  | operand _ ih =>
    cases h with
    | unary _ hoperand => exact ih hoperand
  | tested _ ih =>
    cases h with
    | isNull _ hoperand => exact ih hoperand
  | condition _ _ _ _ _ ih =>
    cases h with
    | choice _ hcondition _ => exact ih hcondition
  | chosen _ _ _ _ _ ih =>
    cases h with
    | choice hchosen _ _ => exact ih hchosen
  | otherwise _ _ _ _ _ ih =>
    cases h with
    | choice _ _ hotherwise => exact ih hotherwise

/-! ## Parts have a meaning -/

theorem MeanAll.exists_mem_zip {es : List Expr} {bs : List Bound} {n n' : Nat}
    (h : MeanAll names es n bs n') {e : Expr} (he : e ∈ es) : ∃ b, (e, b) ∈ es.zip bs := by
  rw [← List.map_fst_zip h.length_eq.ge] at he
  obtain ⟨⟨_, b⟩, hmem, rfl⟩ := List.mem_map.mp he
  exact ⟨b, hmem⟩

/-- No reference stands in the name of a record. -/
theorem Contains.record?_eq_none {part e : Expr} (hpart : part.isReference)
    (h : part.Contains e) : names.record? e = none := by
  cases h with
  | self =>
    cases part with
    | name s =>
      simp only [isReference, Bool.and_eq_true, bne_iff_ne, ne_eq] at hpart
      simp [Names.record?, Side.letter, hpart]
    | _ => rfl
  | _ => rfl

/-- No reference stands in the subscript of a record, which is a text or an integer. -/
theorem not_contains_of_subscriptOf {side : Side} {part i : Expr} {b : Bound}
    (hpart : part.isReference) (h : names.subscriptOf side i = .ok b) : ¬part.Contains i := by
  intro hcontains
  obtain ⟨s, rfl⟩ | ⟨k, rfl⟩ := cases_of_subscriptOf h <;> cases hcontains <;> cases hpart

/-- An argument that a reference stands in has a meaning of its own. -/
theorem Means.exists_mem_zip_arguments {f : String} {args : List Expr} {whole : Bound}
    {n n' : Nat} (h : Means names (.call f args) n whole n') {part e : Expr}
    (hpart : part.isReference) (he : e ∈ args) (hcontains : part.Contains e) :
    ∃ b, (e, b) ∈ args.zip whole.arguments := by
  cases h with
  | unfold _ harg | aggregate _ harg =>
    rw [List.mem_singleton.mp he]
    exact ⟨_, List.mem_cons_self⟩
  | gathered _ hpost harg =>
    rcases List.mem_pair.mp he with rfl | rfl
    · exact ⟨_, List.mem_cons_self⟩
    · -- What becomes of an aggregate is a function, in which nothing stands.
      cases hpost
      cases hcontains
      cases hpart
  | user _ _ hargs | builtin _ _ hargs => exact hargs.exists_mem_zip he

/-- A reference that stands in an expression with a meaning has its place in the meaning. -/
theorem Contains.exists_part {part e : Expr} (hpart : part.isReference) (h : part.Contains e)
    {b : Bound} {n n' : Nat} (hmeans : Means names e n b n') :
    ∃ meaning, Part part meaning e b := by
  induction h generalizing b n n' with
  | self => exact ⟨b, .self⟩
  | item hmem _ ih =>
    cases hmeans with
    | list hitems =>
      obtain ⟨b, hzip⟩ := hitems.exists_mem_zip hmem
      obtain ⟨_, _, hitem⟩ := hitems.exists_means hzip
      exact (ih hitem).imp fun _ => .item hzip
  | owner name h _ =>
    match hmeans with
    | .attribute hrecord _ _ =>
      rw [h.record?_eq_none hpart] at hrecord
      cases hrecord
  | base i h ih =>
    cases hmeans with
    | subscript hrecord _ =>
      rw [h.record?_eq_none hpart] at hrecord
      cases hrecord
    | index _ hbase _ => exact (ih hbase).imp fun _ => .base _ _
  | subscript base h ih =>
    cases hmeans with
    | subscript _ hi => exact absurd h (not_contains_of_subscriptOf hpart hi)
    | index _ _ hi => exact (ih hi).imp fun _ => .subscript _ _
  | argument f hmem h ih =>
    obtain ⟨b, hzip⟩ := hmeans.exists_mem_zip_arguments hpart hmem h
    obtain ⟨_, _, hargument⟩ := hmeans.exists_means_of_mem_zip_arguments hzip
    exact (ih hargument).imp fun _ => .argument f hzip
  | left right _ ih =>
    cases hmeans with
    | binary _ hleft _ => exact (ih hleft).imp fun _ => .left _ _
  | right left _ ih =>
    cases hmeans with
    | binary _ _ hright => exact (ih hright).imp fun _ => .right _ _
  | operand _ ih =>
    cases hmeans with
    | unary _ hoperand => exact (ih hoperand).imp fun _ => .operand
  | tested _ ih =>
    cases hmeans with
    | isNull _ hoperand => exact (ih hoperand).imp fun _ => .tested
  | condition chosen otherwise _ ih =>
    cases hmeans with
    | choice _ hcondition _ => exact (ih hcondition).imp fun _ => .condition _ _ _ _
  | chosen condition otherwise _ ih =>
    cases hmeans with
    | choice hchosen _ _ => exact (ih hchosen).imp fun _ => .chosen _ _ _ _
  | otherwise condition chosen _ ih =>
    cases hmeans with
    | choice _ _ hotherwise => exact (ih hotherwise).imp fun _ => .otherwise _ _ _ _

end Expr

/-! ## What spellings of fields mean -/

namespace Names

variable {query : IsolatedQuery} {header : List String} {columns : QueryColumns} {scope : Scope}
  {n : String} {b : Bound}

theorem notMem_reserved_of_isBareName (h : ColumnMap.isBareName n) : n ∉ ColumnMap.reserved := by
  simp only [ColumnMap.isBareName, Bool.and_eq_true, Bool.not_eq_true'] at h
  simpa using h.1.1.2

theorem isIdentifier_of_isBareName (h : ColumnMap.isBareName n) :
    ColumnMap.isIdentifier n.toList := by
  simp only [ColumnMap.isBareName, Bool.and_eq_true] at h
  exact h.1.1.1

theorem property?_eq_none (side : Side) (h : n ∉ ColumnMap.reserved) :
    property? side n = none := by
  unfold property?
  split
  · exact absurd (by decide) h
  · exact absurd (by decide) h
  · rfl

theorem sidedProperty?_eq_none (h : n ∉ ColumnMap.reserved) : sidedProperty? n = none := by
  unfold sidedProperty?
  split
  all_goals first | exact absurd (by decide) h | rfl

theorem table?_input : (ofQuery columns scope).table? .input = some columns.input :=
  rfl

theorem eq_of_attributeOf (hn : n ∉ ColumnMap.reserved)
    (h : (ofQuery columns scope).attributeOf .input n = .ok b) :
    ∃ index, columns.input.get? s!"{Side.input.letter}.{n}" = some index ∧
      ∃ spelling, b = .field .input index spelling := by
  rw [attributeOf, property?_eq_none .input hn, table?_input] at h
  dsimp only at h
  split at h
  · next index hindex => exact ⟨index, hindex, _, (readingOf_eq_ok h).1⟩
  · cases h

theorem eq_of_subscriptOf_text
    (h : (ofQuery columns scope).subscriptOf .input (.text n) = .ok b) :
    ∃ index, ((columns.input.get? (ColumnMap.keyedSpelling .input n)).or
        (ColumnMap.position? columns.input.header n)) = some index ∧
      ∃ spelling, b = .field .input index spelling := by
  rw [subscriptOf, table?_input] at h
  dsimp only at h
  split at h
  · next index hindex => exact ⟨index, hindex, _, (readingOf_eq_ok h).1⟩
  · cases h

theorem eq_of_identifier (hn : n ∉ ColumnMap.reserved)
    (h : (ofQuery columns scope).identifier n = .ok b) :
    (∃ side index, (ofQuery columns scope).column? n = some (side, index) ∧
        ∃ spelling, b = .field side index spelling) ∨
      (ofQuery columns scope).column? n = none ∧ scope.constant? n ≠ none := by
  have hvisible : (ofQuery columns scope).visible? n =
      ((ofQuery columns scope).column? n).map fun found =>
        (ofQuery columns scope).field found.1 found.2 n := by
    rw [visible?, sidedProperty?_eq_none hn]
  have hslot : (ofQuery columns scope).slot? n = none := rfl
  have hcolumns : (ofQuery columns scope).columns.isSome := rfl
  have hscope : (ofQuery columns scope).scope = scope := rfl
  rw [identifier, hslot] at h
  dsimp only at h
  rw [if_pos hcolumns, hvisible, hscope] at h
  cases hcolumn : (ofQuery columns scope).column? n with
  | none =>
    rw [hcolumn] at h
    refine .inr ⟨rfl, fun hconstant => ?_⟩
    rw [hconstant] at h
    cases h
  | some found =>
    rw [hcolumn] at h
    exact .inl ⟨found.1, found.2, rfl, _, (readingOf_eq_ok h).1⟩

theorem column?_eq (n : String) :
    (ofQuery columns scope).column? n =
      ((columns.input.get? n).map fun index => (Side.input, index)).or
        (((columns.join.bind fun join => join.get? n).map fun index => (Side.join, index)).or
          (numbered? n)) :=
  rfl

theorem head?_toDigits_ne_zero {k : Nat} (hk : 1 ≤ k) :
    (Nat.toDigits 10 k).head? ≠ some '0' := by
  have hdigit : ∀ d < 10, 1 ≤ d → some d.digitChar ≠ some '0' := by decide
  induction k using Nat.strongRecOn with
  | ind k ih =>
    rw [Nat.toDigits_eq_if (by decide)]
    split
    · next hsmall => exact hdigit k hsmall hk
    · next hlarge =>
      rw [List.head?_append_of_ne_nil _ Nat.toDigits_ne_nil]
      exact ih (k / 10) (by omega) (by omega)

theorem readCount?_toDigits_eq_none {k : Nat} (h : UInt64.size ≤ k) :
    Text.readCount? (Nat.toDigits 10 k) = none := by
  unfold Text.readCount?
  split
  · next heq =>
    exact absurd (Token.isDigit_of_mem_toDigits (heq ▸ List.mem_cons_self)) (by decide)
  · simp [Token.readDigits?_toDigits, Nat.not_lt.mpr h]

theorem toList_numbered (k : Nat) : (s!"a{k}").toList = 'a' :: Nat.toDigits 10 k :=
  ColumnMap.toList_plain .input k

theorem notMem_reserved_numbered (k : Nat) : s!"a{k}" ∉ ColumnMap.reserved := by
  intro hmem
  have hletters : ColumnMap.reserved.all fun s => !(s.toList.drop 1).any Char.isDigit := by decide
  have hany := List.all_eq_true.mp hletters _ hmem
  rw [toList_numbered, List.drop_one, List.tail_cons] at hany
  obtain ⟨c, digits, hdigits⟩ := List.exists_cons_of_ne_nil (Nat.toDigits_ne_nil (n := k) (b := 10))
  have hc : c.isDigit := Token.isDigit_of_mem_toDigits (hdigits ▸ List.mem_cons_self)
  simp [hdigits, hc] at hany

/-- A number behind the letter of the input table is that of a column, if it has sixty-four
bits. -/
theorem numbered?_eq {k : Nat} (hk : 1 ≤ k) :
    numbered? s!"a{k}" = if k < UInt64.size then some (.input, k - 1) else none := by
  have hempty : (Nat.toDigits 10 k).isEmpty = false := by simp [Nat.toDigits_ne_nil]
  have hzero : ((Nat.toDigits 10 k).head? == some '0') = false :=
    beq_eq_false_iff_ne.mpr (head?_toDigits_ne_zero hk)
  have hdigits : (Nat.toDigits 10 k).all Char.isDigit :=
    List.all_eq_true.mpr fun c => Token.isDigit_of_mem_toDigits
  rw [numbered?, toList_numbered]
  dsimp only
  rw [hempty, hzero, hdigits]
  by_cases hfits : k < UInt64.size
  · rw [IsolatedQuery.readCount?_toDigits hfits, if_pos hfits]
    rfl
  · rw [readCount?_toDigits_eq_none (Nat.not_lt.mp hfits), if_neg hfits]
    rfl

section

variable (hinput : ColumnMap.ofIsolated query .input (some header) = .ok columns.input)

include hinput

/-- An attribute with the bare name of a column means this column. -/
theorem eq_field_of_attributeOf (hbare : ColumnMap.isBareName n) (hmem : n ∈ header)
    (h : (ofQuery columns scope).attributeOf .input n = .ok b) :
    ∃ spelling, b = .field .input (header.idxOf n) spelling := by
  obtain ⟨index, hget, spelling, rfl⟩ :=
    eq_of_attributeOf (notMem_reserved_of_isBareName hbare) h
  have hsided := ColumnMap.sided_of_get? hinput hget
    (ColumnMap.isBareName_eq_false_of_toList (by decide) (ColumnMap.toList_named _ n))
  have hposition := hsided.of_named
  rw [ColumnMap.position?_of_mem hmem] at hposition
  exact ⟨spelling, Option.some.inj hposition ▸ rfl⟩

/-- A subscript with the bare name of a column means this column. -/
theorem eq_field_of_subscriptOf_text (hbare : ColumnMap.isBareName n) (hmem : n ∈ header)
    (h : (ofQuery columns scope).subscriptOf .input (.text n) = .ok b) :
    ∃ spelling, b = .field .input (header.idxOf n) spelling := by
  obtain ⟨index, hfield, spelling, rfl⟩ := eq_of_subscriptOf_text h
  obtain ⟨hheader, -⟩ := ColumnMap.exists_found_of_ofIsolated hinput
  rw [hheader, ColumnMap.position?_of_mem hmem] at hfield
  refine ⟨spelling, ?_⟩
  cases hget : columns.input.get? (ColumnMap.keyedSpelling .input n) with
  | none =>
    rw [hget] at hfield
    exact Option.some.inj hfield ▸ rfl
  | some found =>
    have hsided := ColumnMap.sided_of_get? hinput hget
      (ColumnMap.isBareName_eq_false_of_toList (by decide) (ColumnMap.toList_keyedSpelling _ n))
    have hposition := hsided.of_keyed
      (ColumnMap.chars_of_isIdentifier (isIdentifier_of_isBareName hbare)).2.1
    rw [ColumnMap.position?_of_mem hmem] at hposition
    rw [hget] at hfield
    exact Option.some.inj hposition ▸ Option.some.inj hfield ▸ rfl

/-- The bare name of a column that is found in the text of a query means this column. -/
theorem eq_field_of_identifier (hbare : ColumnMap.isBareName n) (hmem : n ∈ header)
    (hfound : ColumnMap.mentions n.toList none (ColumnMap.maskJoinTable true query.text))
    (h : (ofQuery columns scope).identifier n = .ok b) :
    ∃ spelling, b = .field .input (header.idxOf n) spelling := by
  have hget := ColumnMap.get?_of_isBareName hinput hbare hmem hfound
  have hcolumn : (ofQuery columns scope).column? n = some (.input, header.idxOf n) := by
    rw [column?_eq, hget]
    rfl
  rcases eq_of_identifier (notMem_reserved_of_isBareName hbare) h with
    ⟨side, index, hfield, spelling, rfl⟩ | ⟨hnone, -⟩
  · rw [hcolumn] at hfield
    cases hfield
    exact ⟨spelling, rfl⟩
  · rw [hcolumn] at hnone
    cases hnone

variable (hjoin : ∀ join ∈ columns.join, ∃ names, ColumnMap.ofIsolated query .join names = .ok join)

include hjoin

/-- A number behind the letter of the input table is found as the column of the input table
with this number, or it has more than sixty-four bits and is not found. -/
theorem column?_numbered (scope : Scope) {k : Nat} (hk : 1 ≤ k) :
    (ofQuery columns scope).column? s!"a{k}" = some (.input, k - 1) ∨
      UInt64.size ≤ k ∧ (ofQuery columns scope).column? s!"a{k}" = none := by
  have hplain : ColumnMap.Sided .input (some header) s!"a{k}" (k - 1) :=
    ⟨_, toList_numbered k, .plain k⟩
  have hjoined : (columns.join.bind fun join => join.get? s!"a{k}") = none := by
    refine Option.eq_none_iff_forall_not_mem.mpr fun index hindex => ?_
    obtain ⟨join, hmem, hget⟩ := Option.bind_eq_some_iff.mp hindex
    obtain ⟨names, hscan⟩ := hjoin join hmem
    obtain ⟨s, hs, -⟩ := ColumnMap.sided_of_get? hscan hget hplain.isBareName_eq_false
    exact absurd ((toList_numbered k).symm.trans hs) (by simp [Side.letter])
  rw [column?_eq, hjoined, numbered?_eq hk]
  cases hget : columns.input.get? s!"a{k}" with
  | some index =>
    have hindex : index = k - 1 :=
      (ColumnMap.sided_of_get? hinput hget hplain.isBareName_eq_false).of_plain
    rw [hindex]
    exact .inl rfl
  | none =>
    by_cases hfits : k < UInt64.size
    · rw [if_pos hfits]
      exact .inl rfl
    · rw [if_neg hfits]
      exact .inr ⟨Nat.not_lt.mp hfits, rfl⟩

/-- A number behind the letter of the input table means the column with this number, unless
it has more than sixty-four bits and is a constant. -/
theorem eq_field_of_identifier_numbered {k : Nat} (hk : 1 ≤ k)
    (hconstant : k < UInt64.size ∨ scope.constant? s!"a{k}" = none)
    (h : (ofQuery columns scope).identifier s!"a{k}" = .ok b) :
    ∃ spelling, b = .field .input (k - 1) spelling := by
  rcases eq_of_identifier (notMem_reserved_numbered k) h with
    ⟨side, index, hsome, spelling, rfl⟩ | ⟨hnone, hdefined⟩
  · rcases column?_numbered hinput hjoin scope hk with hcolumn | ⟨-, hcolumn⟩
    · rw [hcolumn] at hsome
      cases hsome
      exact ⟨spelling, rfl⟩
    · rw [hcolumn] at hsome
      cases hsome
  · rcases column?_numbered hinput hjoin scope hk with hcolumn | ⟨hlarge, -⟩
    · rw [hcolumn] at hnone
      cases hnone
    · rcases hconstant with hfits | hconstant
      · exact absurd hfits (Nat.not_lt.mpr hlarge)
      · exact absurd hconstant hdefined

end

end Names

/-- Where columns are those of a query, a spelling of a field means this field.  A bare name
does if it is found in the text of the query. -/
theorem Expr.NamesField.eq_field {query : IsolatedQuery} {header : List String}
    {columns : QueryColumns} {scope : Scope} {part : Expr} {index : Nat}
    (hpart : part.NamesField header scope index)
    (hinput : ColumnMap.ofIsolated query .input (some header) = .ok columns.input)
    (hjoin : ∀ join ∈ columns.join, ∃ names, ColumnMap.ofIsolated query .join names = .ok join)
    (hfound : ∀ n, part = .name n →
      ColumnMap.isBareName n →
        ColumnMap.mentions n.toList none (ColumnMap.maskJoinTable true query.text))
    {meaning : Bound} {n n' : Nat}
    (h : Means (Names.ofQuery columns scope) part n meaning n') :
    ∃ spelling, meaning = .field .input index spelling := by
  cases hpart with
  | named hbare hmem =>
    match h with
    | .attribute hrecord hattribute _ =>
      cases hrecord
      exact Names.eq_field_of_attributeOf hinput hbare hmem hattribute
  | keyed hbare hmem =>
    cases h with
    | subscript hrecord hi =>
      cases hrecord
      exact Names.eq_field_of_subscriptOf_text hinput hbare hmem hi
    | index hrecord _ _ => cases hrecord
  | bare hbare hmem =>
    cases h with
    | name hname => exact Names.eq_field_of_identifier hinput hbare hmem (hfound _ rfl hbare) hname
  | numbered hk hconstant =>
    cases h with
    | name hname => exact Names.eq_field_of_identifier_numbered hinput hjoin hk hconstant hname
  | subscript hk =>
    cases h with
    | subscript hrecord hi =>
      cases hrecord
      rw [Names.subscriptOf, if_pos hk] at hi
      exact ⟨_, (Names.readingOf_eq_ok hi).1⟩
    | index hrecord _ _ => cases hrecord

end TableQuery
