import TableQuery.Proofs.Query.FieldSpellings
import TableQuery.Proofs.Query.JoinMasks
import TableQuery.Proofs.Query.Variables

/-!
# Columns by number

In a query over a table without a header columns are referred to by their numbers, as `a7` or
as `a[7]`.  The search for variables finds one of them exactly where its letter and its number
stand in the text of the query as a word of their own, whatever stands around them, and it
enters nothing else.
-/

namespace TableQuery

variable {s t digits rest : List Char} {side : Side} {k : Nat}

namespace ColumnMap

/-! ## Column numbers -/

theorem isColumnNumber_toDigits (hk : 1 ≤ k) : IsColumnNumber (Nat.toDigits 10 k) where
  ne_nil := Nat.toDigits_ne_nil
  isDigit _ := Token.isDigit_of_mem_toDigits
  head_ne_zero := Names.head?_toDigits_ne_zero hk

theorem digitChar_of_isDigit {c : Char} (hc : c.isDigit) :
    c.toNat - '0'.toNat < 10 ∧ Nat.digitChar (c.toNat - '0'.toNat) = c := by
  obtain ⟨hlow, hhigh⟩ := Char.isDigit_iff_toNat.mp hc
  have hlt : c.toNat - '0'.toNat < 10 := by
    rw [show '9'.toNat = '0'.toNat + 9 from rfl] at hhigh
    omega
  refine ⟨hlt, Char.toNat_inj.mp ?_⟩
  rw [Nat.toNat_digitChar_of_lt_ten hlt]
  exact Nat.add_sub_cancel' hlow

/-- The digits of a column number are those of exactly one positive number. -/
theorem IsColumnNumber.exists_toDigits (h : IsColumnNumber digits) :
    ∃ k, 1 ≤ k ∧ digits = Nat.toDigits 10 k := by
  induction digits using List.reverseRecOn with
  | nil => exact absurd rfl h.ne_nil
  | append_singleton front c ih =>
    obtain ⟨hlt, hchar⟩ := digitChar_of_isDigit (h.isDigit c (by simp))
    by_cases hfront : front = []
    · subst hfront
      have hc : c ≠ '0' := fun hzero => h.head_ne_zero (by simp [hzero])
      refine ⟨c.toNat - '0'.toNat, Nat.one_le_iff_ne_zero.mpr fun hzero => hc ?_, ?_⟩
      · rw [← hchar, hzero]
        rfl
      · rw [Nat.toDigits_of_lt_base hlt, hchar]
        rfl
    · obtain ⟨k, hk, rfl⟩ := ih ⟨hfront, fun d hd => h.isDigit d (by simp [hd]), by
        rw [← List.head?_append_of_ne_nil _ hfront]
        exact h.head_ne_zero⟩
      refine ⟨10 * k + (c.toNat - '0'.toNat), by omega, ?_⟩
      rw [← Nat.toDigits_append_toDigits (by decide) hk hlt, Nat.toDigits_of_lt_base hlt, hchar]

/-! ## Where columns are referred to by number -/

/-- Whether `a7` stands in a text: the letter of the table and the number of the column, where
a variable can begin and no name goes on behind it. -/
def OccursPlain (side : Side) (k : Nat) (s : List Char) : Prop :=
  ∃ before after, s = before ++ side.letter :: (Nat.toDigits 10 k ++ after) ∧
    (∀ c ∈ before.getLast?, opensName c) ∧ ∀ c ∈ after.head?, Token.isNamePart c = false

/-- Whether `a[7]` stands in a text, perhaps with spaces around the number, where a variable
can begin. -/
def OccursSubscripted (side : Side) (k : Nat) (s : List Char) : Prop :=
  ∃ before m n after, s = before ++ side.letter :: '[' :: (List.replicate m ' ' ++
      (Nat.toDigits 10 k ++ (List.replicate n ' ' ++ ']' :: after))) ∧
    ∀ c ∈ before.getLast?, opensName c

theorem mem_overlapping_numbered?_iff :
    digits ∈ overlapping side numbered? true s ↔
      ∃ k, 1 ≤ k ∧ digits = Nat.toDigits 10 k ∧ OccursPlain side k s := by
  rw [mem_overlapping_iff covers_numbered?]
  constructor
  · rintro ⟨before, _, n, rfl, hbefore, hfound⟩
    obtain ⟨hdigits, -, rest, rfl, hrest⟩ := numbered?_eq_some_iff.mp hfound
    obtain ⟨k, hk, rfl⟩ := hdigits.exists_toDigits
    exact ⟨k, hk, rfl, before, rest, rfl, hbefore, hrest⟩
  · rintro ⟨k, hk, rfl, before, rest, rfl, hbefore, hrest⟩
    exact ⟨before, _, _, rfl, hbefore,
      numbered?_eq_some_iff.mpr ⟨isColumnNumber_toDigits hk, rfl, rest, rfl, hrest⟩⟩

theorem mem_overlapping_subscripted?_iff :
    digits ∈ overlapping side subscripted? true s ↔
      ∃ k, 1 ≤ k ∧ digits = Nat.toDigits 10 k ∧ OccursSubscripted side k s := by
  rw [mem_overlapping_iff covers_subscripted?]
  constructor
  · rintro ⟨before, _, _, rfl, hbefore, hfound⟩
    obtain ⟨hdigits, m, n, rest, rfl, -⟩ := subscripted?_eq_some_iff.mp hfound
    obtain ⟨k, hk, rfl⟩ := hdigits.exists_toDigits
    exact ⟨k, hk, rfl, before, m, n, rest, rfl, hbefore⟩
  · rintro ⟨k, hk, rfl, before, m, n, rest, rfl, hbefore⟩
    exact ⟨before, _, _, rfl, hbefore,
      subscripted?_eq_some_iff.mpr ⟨isColumnNumber_toDigits hk, m, n, rest, rfl, rfl⟩⟩

/-! ## Columns that are entered by number -/

theorem readCount?_toDigits_iff {n : Nat} :
    Text.readCount? (Nat.toDigits 10 k) = some n ↔ k < UInt64.size ∧ n = k := by
  by_cases hfits : k < UInt64.size
  · simp [IsolatedQuery.readCount?_toDigits hfits, hfits, eq_comm]
  · simp [Names.readCount?_toDigits_eq_none (Nat.not_lt.mp hfits), hfits]

/-- What is found by number is entered for every number that is found, if it has sixty-four
bits. -/
theorem mem_filterMap_numbers_iff {found : List (List Char)} {occurs : Nat → Prop}
    (hfound : ∀ digits, digits ∈ found ↔ ∃ k, 1 ≤ k ∧ digits = Nat.toDigits 10 k ∧ occurs k)
    (spelling : Nat → String) {key : String} {index : Nat} :
    (key, index) ∈ (found.filterMap fun digits =>
        (Text.readCount? digits).map fun n => (spelling n, n - 1)) ↔
      ∃ k, (1 ≤ k ∧ k < UInt64.size ∧ occurs k ∧ index = k - 1) ∧ key = spelling k := by
  simp only [List.mem_filterMap, Option.map_eq_some_iff, hfound]
  constructor
  · rintro ⟨_, ⟨k, hk, rfl, hoccurs⟩, n, hread, heq⟩
    obtain ⟨hfits, rfl⟩ := readCount?_toDigits_iff.mp hread
    cases heq
    exact ⟨n, ⟨hk, hfits, hoccurs, rfl⟩, rfl⟩
  · rintro ⟨k, ⟨hk, hfits, hoccurs, rfl⟩, rfl⟩
    exact ⟨_, ⟨k, hk, rfl, hoccurs⟩, k, readCount?_toDigits_iff.mpr ⟨hfits, rfl⟩, rfl⟩

theorem mem_numberedVariables_iff {key : String} {index : Nat} :
    (key, index) ∈ numberedVariables side s ↔
      (∃ k, (1 ≤ k ∧ k < UInt64.size ∧ OccursPlain side k s ∧ index = k - 1) ∧
        key = s!"{side.letter}{k}") ∨
      ∃ k, (1 ≤ k ∧ k < UInt64.size ∧ OccursSubscripted side k s ∧ index = k - 1) ∧
        key = s!"{side.letter}[{k}]" := by
  unfold numberedVariables
  rw [List.mem_append, mem_filterMap_numbers_iff fun _ => mem_overlapping_numbered?_iff,
    mem_filterMap_numbers_iff fun _ => mem_overlapping_subscripted?_iff]

/-! ## The spellings of a column by number -/

theorem plain_inj {m n : Nat} : s!"{side.letter}{m}" = s!"{side.letter}{n}" ↔ m = n := by
  constructor
  · intro h
    have hchars := congrArg String.toList h
    rw [toList_plain, toList_plain] at hchars
    exact toDigits_inj (List.cons.inj hchars).2
  · rintro rfl
    rfl

theorem subscript_inj {m n : Nat} :
    s!"{side.letter}[{m}]" = s!"{side.letter}[{n}]" ↔ m = n := by
  constructor
  · intro h
    have hchars := congrArg String.toList h
    rw [toList_subscript, toList_subscript] at hchars
    simp only [List.cons.injEq, List.append_cancel_right_eq, true_and] at hchars
    exact toDigits_inj hchars
  · rintro rfl
    rfl

theorem plain_ne_subscript {m n : Nat} :
    s!"{side.letter}{m}" ≠ s!"{side.letter}[{n}]" := by
  intro h
  have hchars := congrArg String.toList h
  rw [toList_plain, toList_subscript] at hchars
  exact toDigits_ne_cons (by decide) m _ (List.cons.inj hchars).2

theorem mem_numberedVariables_plain_iff {index : Nat} :
    (s!"{side.letter}{k}", index) ∈ numberedVariables side s ↔
      1 ≤ k ∧ k < UInt64.size ∧ OccursPlain side k s ∧ index = k - 1 := by
  simp only [mem_numberedVariables_iff, plain_inj, plain_ne_subscript, and_false, exists_false,
    or_false, exists_eq_right']

theorem mem_numberedVariables_subscript_iff {index : Nat} :
    (s!"{side.letter}[{k}]", index) ∈ numberedVariables side s ↔
      1 ≤ k ∧ k < UInt64.size ∧ OccursSubscripted side k s ∧ index = k - 1 := by
  simp only [mem_numberedVariables_iff, subscript_inj, plain_ne_subscript.symm, and_false,
    exists_false, false_or, exists_eq_right']

/-- A spelling is entered with one index. -/
theorem index_unique_of_mem {key : String} {i j : Nat}
    (hi : (key, i) ∈ numberedVariables side s) (hj : (key, j) ∈ numberedVariables side s) :
    i = j := by
  rcases mem_numberedVariables_iff.mp hi with ⟨k, ⟨-, -, -, rfl⟩, rfl⟩ | ⟨k, ⟨-, -, -, rfl⟩, rfl⟩
  · exact (mem_numberedVariables_plain_iff.mp hj).2.2.2.symm
  · exact (mem_numberedVariables_subscript_iff.mp hj).2.2.2.symm

/-! ## The columns of a table without a header -/

variable {query : IsolatedQuery} {columns : ColumnMap}

/-- Without a header no column has a name, so that only numbers are entered. -/
theorem get?_of_ofIsolated_none (h : ofIsolated query side none = .ok columns) (key : String)
    (index : Nat) : columns.get? key = some index ↔
      (key, index) ∈ numberedVariables side (maskJoinTable true query.text) := by
  obtain ⟨named, hnamed, h⟩ := bind_eq_ok_iff.mp h
  cases h
  have hnil : named = [] := by
    generalize namedVariables query side (maskJoinTable true query.text) = found at hnamed
    cases found with
    | nil =>
      cases hnamed
      rfl
    | cons first others =>
      obtain ⟨_, hfirst, -⟩ := bind_eq_ok_iff.mp hnamed
      cases hfirst
  subst hnil
  rw [List.append_nil]
  exact lookup_foldl_insert_iff fun _ _ => index_unique_of_mem

/-- Without a join and without a header, a query has exactly the columns that it refers to by
number.  Each of them has the index before its number, which has sixty-four bits. -/
theorem get?_iff_occurs {query : List Char} {isolated : IsolatedQuery}
    (hisolated : IsolatedQuery.ofQuery query = .ok isolated)
    (hjoin : ∀ n, ¬JoinAt isolated.text n) (h : ofQuery query side none = .ok columns) :
    (∀ k index, columns.get? s!"{side.letter}{k}" = some index ↔
      1 ≤ k ∧ k < UInt64.size ∧ OccursPlain side k isolated.text ∧ index = k - 1) ∧
    (∀ k index, columns.get? s!"{side.letter}[{k}]" = some index ↔
      1 ≤ k ∧ k < UInt64.size ∧ OccursSubscripted side k isolated.text ∧ index = k - 1) ∧
    ∀ key index, columns.get? key = some index →
      ∃ k : Nat, key = s!"{side.letter}{k}" ∨ key = s!"{side.letter}[{k}]" := by
  rw [ofQuery, hisolated] at h
  have hget := get?_of_ofIsolated_none h
  rw [maskJoinTable_of_not_joinAt hjoin] at hget
  refine ⟨?_, ?_, ?_⟩
  · intro k index
    exact (hget _ index).trans mem_numberedVariables_plain_iff
  · intro k index
    exact (hget _ index).trans mem_numberedVariables_subscript_iff
  · intro key index hkey
    rcases mem_numberedVariables_iff.mp ((hget key index).mp hkey) with
      ⟨k, -, hplain⟩ | ⟨k, -, hsubscript⟩
    · exact ⟨k, .inl hplain⟩
    · exact ⟨k, .inr hsubscript⟩

/-- Two variables with one comma between them are both found, and so is a number with spaces
around it.  A longer name and a literal are no variables. -/
theorem get?_iff_occurs_comma :
    ∃ isolated columns,
      IsolatedQuery.ofQuery "select a1,a12,a[ 3 ] where xa4 > 'a5'".toList = .ok isolated ∧
      (∀ n, ¬JoinAt isolated.text n) ∧
      ofQuery "select a1,a12,a[ 3 ] where xa4 > 'a5'".toList .input none = .ok columns ∧
      columns.get? "a12" = some 11 ∧ columns.get? "a[3]" = some 2 ∧
      ¬OccursPlain .input 4 isolated.text := by
  have hisolated : IsolatedQuery.ofQuery "select a1,a12,a[ 3 ] where xa4 > 'a5'".toList =
      .ok ⟨"select a1,a12,a[ 3 ] where xa4 > ###RBQL_STRING_LITERAL0###".toList,
        ["'a5'".toList]⟩ := by
    decide +kernel
  have hcolumns : ofQuery "select a1,a12,a[ 3 ] where xa4 > 'a5'".toList .input none =
      .ok ⟨[("a1", 0), ("a12", 11), ("a[3]", 2)], none⟩ := by
    decide +kernel
  have hjoin : ∀ n, ¬JoinAt
      "select a1,a12,a[ 3 ] where xa4 > ###RBQL_STRING_LITERAL0###".toList n :=
    fun _ => not_joinAt rfl
  obtain ⟨hplain, hsubscript, -⟩ := get?_iff_occurs hisolated hjoin hcolumns
  refine ⟨_, _, hisolated, hjoin, hcolumns, ?_, ?_, ?_⟩
  · refine (hplain 12 11).mpr ⟨by decide, by decide, ?_, rfl⟩
    refine ⟨"select a1,".toList, ",a[ 3 ] where xa4 > ###RBQL_STRING_LITERAL0###".toList,
      by decide, ?_, ?_⟩
    · rintro c ⟨⟩
      decide
    · rintro c ⟨⟩
      decide
  · refine (hsubscript 3 2).mpr ⟨by decide, by decide, ?_, rfl⟩
    refine ⟨"select a1,a12,".toList, 1, 1, " where xa4 > ###RBQL_STRING_LITERAL0###".toList,
      by decide, ?_⟩
    rintro c ⟨⟩
    decide
  · intro hoccurs
    have hfound := (hplain 4 3).mpr ⟨by decide, by decide, hoccurs, rfl⟩
    exact absurd hfound (by decide)

end ColumnMap
end TableQuery
