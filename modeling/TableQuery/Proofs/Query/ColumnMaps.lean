import TableQuery.Proofs.Except
import TableQuery.Proofs.Expression.Spelling
import TableQuery.Query.Columns

/-!
# What spellings of columns stand for

The spellings of a column with the letter of its table differ in their second character, a
bare name is none of them, and each spelling is entered with one index.  So a spelling that
is found stands for the column that it names, and a name stands for the first column with it.
-/

namespace TableQuery
namespace ColumnMap

variable {entries : List (String × Nat)} {key spelling : String} {index : Nat}

/-! ## Entering spellings -/

theorem lookup_insert (entries : List (String × Nat)) (key spelling : String) (index : Nat) :
    (insert entries spelling index).lookup key =
      if key = spelling then some index else entries.lookup key := by
  induction entries with
  | nil =>
    by_cases hkey : key = spelling
    · simp [insert, hkey]
    · have hne : (key == spelling) = false := beq_eq_false_iff_ne.mpr hkey
      simp [insert, List.lookup_cons, hkey, hne]
  | cons entry entries ih =>
    obtain ⟨s, i⟩ := entry
    rw [insert]
    by_cases hs : s = spelling
    · subst hs
      by_cases hkey : key = s
      · simp [hkey]
      · have hne : (key == s) = false := beq_eq_false_iff_ne.mpr hkey
        simp [List.lookup_cons, hkey, hne]
    · rw [if_neg (by simpa using hs)]
      by_cases hkey : key = s
      · subst hkey
        simp [hs]
      · rw [List.lookup_cons, List.lookup_cons, ih, beq_eq_false_iff_ne.mpr hkey]

/-- What is found among entered spellings has been entered. -/
theorem mem_of_lookup_foldl_insert {found : List (String × Nat)}
    (h : (found.foldl (fun entries (s, i) => insert entries s i) entries).lookup key =
      some index) : (key, index) ∈ found ∨ entries.lookup key = some index := by
  induction found generalizing entries with
  | nil => exact .inr h
  | cons entry found ih =>
    rcases ih h with hmem | hlookup
    · exact .inl (List.mem_cons_of_mem _ hmem)
    · rw [lookup_insert] at hlookup
      split at hlookup
      · next hkey =>
        cases hlookup
        exact .inl (hkey ▸ List.mem_cons_self)
      · exact .inr hlookup

theorem isSome_lookup_foldl_insert {found : List (String × Nat)}
    (h : key ∈ found.map Prod.fst ∨ (entries.lookup key).isSome) :
    ((found.foldl (fun entries (s, i) => insert entries s i) entries).lookup key).isSome := by
  induction found generalizing entries with
  | nil => exact h.resolve_left List.not_mem_nil
  | cons entry found ih =>
    refine ih ?_
    rw [lookup_insert]
    by_cases hkey : key = entry.1
    · exact .inr (by simp [hkey])
    · rw [if_neg hkey]
      refine h.imp_left fun hmem => ?_
      exact (List.mem_cons.mp hmem).resolve_left hkey

/-- A spelling that is always entered with the same index is found with it. -/
theorem lookup_foldl_insert_iff {found : List (String × Nat)}
    (hone : ∀ i j, (key, i) ∈ found → (key, j) ∈ found → i = j) :
    (found.foldl (fun entries (s, i) => insert entries s i) []).lookup key = some index ↔
      (key, index) ∈ found := by
  constructor
  · intro h
    exact (mem_of_lookup_foldl_insert h).resolve_right (by simp)
  · intro hmem
    have hsome : ((found.foldl (fun entries (s, i) => insert entries s i) []).lookup key).isSome :=
      isSome_lookup_foldl_insert (.inl (List.mem_map_of_mem (f := Prod.fst) hmem))
    obtain ⟨i, hi⟩ := Option.isSome_iff_exists.mp hsome
    rw [hi, hone i index ((mem_of_lookup_foldl_insert hi).resolve_right (by simp)) hmem]

/-- Spellings that are entered where they are absent stand for what comes first. -/
theorem lookup_foldl_absent (entries found : List (String × Nat)) (key : String) :
    (found.foldl (fun entries (s, i) =>
      if (entries.lookup s).isSome then entries else insert entries s i) entries).lookup key =
      (entries.lookup key).or (found.lookup key) := by
  induction found generalizing entries with
  | nil => simp
  | cons entry found ih =>
    obtain ⟨s, i⟩ := entry
    rw [List.foldl_cons, ih, List.lookup_cons]
    by_cases hkey : key = s
    · subst hkey
      cases hlookup : entries.lookup key with
      | none => simp [hlookup, lookup_insert]
      | some j => simp [hlookup]
    · rw [beq_eq_false_iff_ne.mpr hkey]
      dsimp only
      split
      · rfl
      · rw [lookup_insert, if_neg hkey]

theorem lookup_zipIdx_filter {header : List String} {name : String} {p : String × Nat → Bool}
    (hp : ∀ i, p (name, i)) (hmem : name ∈ header) (start : Nat) :
    ((header.zipIdx start).filter p).lookup name = some (start + header.idxOf name) := by
  induction header generalizing start with
  | nil => cases hmem
  | cons first header ih =>
    rw [List.zipIdx_cons, List.idxOf_cons]
    by_cases hfirst : first = name
    · subst hfirst
      simp [hp]
    · have hne : (name == first) = false := beq_eq_false_iff_ne.mpr (Ne.symm hfirst)
      have hne' : (first == name) = false := beq_eq_false_iff_ne.mpr hfirst
      have hother := ih ((List.mem_cons.mp hmem).resolve_left (Ne.symm hfirst)) (start + 1)
      rw [hne', cond_false, ← Nat.add_assoc, Nat.add_right_comm, ← hother, List.filter_cons]
      split
      · rw [List.lookup_cons, hne]
      · rfl

/-- A bare name that occurs in a text stands for the first column with this name. -/
theorem lookup_bareVariables {header : List String} {name : String} {text : List Char}
    (hbare : isBareName name) (hmem : name ∈ header)
    (hmentions : mentions name.toList none text) :
    (bareVariables header text).lookup name = some (header.idxOf name) := by
  rw [bareVariables, lookup_zipIdx_filter (by simp [hbare, hmentions]) hmem, Nat.zero_add]

/-- No other name stands on its own. -/
theorem lookup_bareVariables_eq_none {header : List String} {name : String} {text : List Char}
    (hbare : isBareName name = false) : (bareVariables header text).lookup name = none := by
  rw [List.lookup_eq_none_iff]
  intro entry hentry
  obtain ⟨-, hp⟩ := List.mem_filter.mp hentry
  have hne : name ≠ entry.1 := by
    rintro rfl
    simp [hbare] at hp
  simpa using hne

/-! ## The characters of spellings -/

theorem toList_plain (side : Side) (n : Nat) :
    (s!"{side.letter}{n}").toList = side.letter :: Nat.toDigits 10 n := by
  simp [toString, Nat.repr]

theorem toList_subscript (side : Side) (n : Nat) :
    (s!"{side.letter}[{n}]").toList = side.letter :: '[' :: (Nat.toDigits 10 n ++ [']']) := by
  simp [toString, Nat.repr]

theorem toList_named (side : Side) (name : String) :
    (s!"{side.letter}.{name}").toList = side.letter :: '.' :: name.toList := by
  simp [toString]

theorem toList_keyedSpelling (side : Side) (name : String) :
    (keyedSpelling side name).toList =
      side.letter :: '[' :: '"' :: (name.toList.flatMap Text.quotedChar ++ ['"', ']']) := by
  simp [toString, keyedSpelling, Text.quotedString, Text.quoted]

theorem toDigits_inj {m n : Nat} (h : Nat.toDigits 10 m = Nat.toDigits 10 n) : m = n := by
  have hread := Token.readDigits?_toDigits m
  rw [h, Token.readDigits?_toDigits] at hread
  exact (Option.some.inj hread).symm

theorem toDigits_ne_cons {c : Char} (hc : c.isDigit = false) (n : Nat) (s : List Char) :
    Nat.toDigits 10 n ≠ c :: s := by
  intro h
  have hdigit := Token.isDigit_of_mem_toDigits (h ▸ List.mem_cons_self : c ∈ Nat.toDigits 10 n)
  rw [hc] at hdigit
  cases hdigit

/-- The characters of a name. -/
theorem chars_of_isIdentifier {name : List Char} (h : isIdentifier name) :
    name ≠ [] ∧ (∀ c ∈ name, Token.isNamePart c) ∧ name.head? ≠ some '1' := by
  cases name with
  | nil => cases h
  | cons c name =>
    rw [isIdentifier, Bool.and_eq_true, List.all_eq_true] at h
    refine ⟨List.cons_ne_nil _ _,
      List.forall_mem_cons.mpr ⟨Token.isNamePart_of_isNameStart h.1, h.2⟩, ?_⟩
    rintro ⟨⟩
    exact absurd h.1 (by decide)

theorem inRanges_hiddenRanges_of_isNamePart {c : Char} (hc : Token.isNamePart c) :
    Text.inRanges Text.hiddenRanges c = false := by
  have hranges : ∀ range ∈ Text.hiddenRanges, range.2 < 48 ∨ 122 < range.1 := by
    decide +kernel
  have hrange := Token.toNat_of_isNamePart hc
  rw [Text.inRanges, List.any_eq_false]
  intro range hmem hin
  obtain ⟨hfirst, hlast⟩ := Bool.and_eq_true_iff.mp hin
  have hfirst := of_decide_eq_true hfirst
  have hlast := of_decide_eq_true hlast
  have hapart := hranges range hmem
  omega

theorem quotedChar_of_isNamePart {c : Char} (hc : Token.isNamePart c) :
    Text.quotedChar c = [c] := by
  have hne : ∀ d : Char, Token.isNamePart d = false → (c == d) = false := by
    intro d hd
    refine beq_eq_false_iff_ne.mpr ?_
    rintro rfl
    rw [hc] at hd
    cases hd
  simp only [Text.quotedChar, hne '\x00' (by decide), hne '\t' (by decide),
    hne '\n' (by decide), hne '\r' (by decide), hne '"' (by decide), hne '\\' (by decide),
    inRanges_hiddenRanges_of_isNamePart hc, Bool.false_eq_true, if_false]

theorem quotedChar_cases (c : Char) : Text.quotedChar c = [c] ∨ '\\' ∈ Text.quotedChar c := by
  unfold Text.quotedChar
  iterate 7
    split
    · exact .inr (by simp)
  exact .inl rfl

theorem flatMap_quotedChar_eq_self {s : List Char} (hs : ∀ c ∈ s, Text.quotedChar c = [c]) :
    s.flatMap Text.quotedChar = s := by
  induction s with
  | nil => rfl
  | cons c s ih =>
    obtain ⟨hc, hs⟩ := List.forall_mem_cons.mp hs
    rw [List.flatMap_cons, hc, ih hs]
    rfl

/-- A quoted text looks like a name only if it is this name. -/
theorem eq_of_flatMap_quotedChar {s t : List Char} (ht : ∀ c ∈ t, Token.isNamePart c)
    (h : s.flatMap Text.quotedChar = t.flatMap Text.quotedChar) : s = t := by
  rw [flatMap_quotedChar_eq_self fun c hc => quotedChar_of_isNamePart (ht c hc)] at h
  have hs : ∀ c ∈ s, Text.quotedChar c = [c] := by
    intro c hc
    refine (quotedChar_cases c).resolve_right fun hslash => ?_
    have hpart := ht _ (h ▸ List.mem_flatMap.mpr ⟨c, hc, hslash⟩)
    exact absurd hpart (by decide)
  rw [← h, flatMap_quotedChar_eq_self hs]

/-! ## Spellings with the letter of a table -/

section

variable {query : IsolatedQuery} {side : Side} {header : Option (List String)}
  {columns : ColumnMap} {n : Nat} {name : String}

/-- What a spelling stands for, by the text behind the letter of its table. -/
inductive Stands (header : Option (List String)) : List Char → Nat → Prop
  | plain (n : Nat) : Stands header (Nat.toDigits 10 n) (n - 1)
  | subscript (n : Nat) : Stands header ('[' :: (Nat.toDigits 10 n ++ [']'])) (n - 1)
  | named (name : String) {index : Nat} (h : position? header name = some index) :
    Stands header ('.' :: name.toList) index
  | keyed (name : String) {index : Nat} (h : position? header name = some index) :
    Stands header ('[' :: '"' :: (name.toList.flatMap Text.quotedChar ++ ['"', ']'])) index

/-- Whether a spelling with the letter of a table stands for a column. -/
def Sided (side : Side) (header : Option (List String)) (key : String) (index : Nat) : Prop :=
  ∃ s, key.toList = side.letter :: s ∧ Stands header s index

theorem sided_of_mem_numberedVariables {text : List Char}
    (h : (key, index) ∈ numberedVariables side text) : Sided side header key index := by
  rcases List.mem_append.mp h with h | h
  · obtain ⟨digits, -, h⟩ := List.mem_filterMap.mp h
    obtain ⟨n, -, heq⟩ := Option.map_eq_some_iff.mp h
    cases heq
    exact ⟨_, toList_plain side n, .plain n⟩
  · obtain ⟨digits, -, h⟩ := List.mem_filterMap.mp h
    obtain ⟨n, -, heq⟩ := Option.map_eq_some_iff.mp h
    cases heq
    exact ⟨_, toList_subscript side n, .subscript n⟩

theorem sided_of_mem_namedVariables {text : List Char}
    (h : (key, name) ∈ namedVariables query side text)
    (hposition : position? header name = some index) : Sided side header key index := by
  rcases List.mem_append.mp h with h | h
  · obtain ⟨chars, -, h⟩ := List.mem_filterMap.mp h
    dsimp only at h
    split at h <;> cases h
    exact ⟨_, toList_named side _, .named _ hposition⟩
  · obtain ⟨digits, -, h⟩ := List.mem_filterMap.mp h
    obtain ⟨name, -, heq⟩ := Option.map_eq_some_iff.mp h
    cases heq
    exact ⟨_, toList_keyedSpelling side _, .keyed _ hposition⟩

theorem Sided.of_plain (h : Sided side header s!"{side.letter}{n}" index) : index = n - 1 := by
  obtain ⟨s, hs, h⟩ := h
  obtain rfl := (List.cons.inj ((toList_plain side n).symm.trans hs)).2
  generalize hdigits : Nat.toDigits 10 n = s at h
  cases h with
  | plain m => rw [toDigits_inj hdigits]
  | subscript | named | keyed => exact absurd hdigits (toDigits_ne_cons (by decide) n _)

theorem Sided.of_named (h : Sided side header s!"{side.letter}.{name}" index) :
    position? header name = some index := by
  obtain ⟨s, hs, h⟩ := h
  obtain rfl := (List.cons.inj ((toList_named side name).symm.trans hs)).2
  generalize hdot : '.' :: name.toList = s at h
  cases h with
  | plain m => exact absurd hdot.symm (toDigits_ne_cons (by decide) m _)
  | named other h => rwa [String.toList_inj.mp (List.cons.inj hdot).2]
  | subscript | keyed => simp at hdot

theorem Sided.of_keyed (hname : ∀ c ∈ name.toList, Token.isNamePart c)
    (h : Sided side header (keyedSpelling side name) index) :
    position? header name = some index := by
  obtain ⟨s, hs, h⟩ := h
  obtain rfl := (List.cons.inj ((toList_keyedSpelling side name).symm.trans hs)).2
  generalize hbracket : '[' :: '"' :: (name.toList.flatMap Text.quotedChar ++ ['"', ']']) = s at h
  cases h with
  | plain m => exact absurd hbracket.symm (toDigits_ne_cons (by decide) m _)
  | subscript m =>
    have hhead := congrArg List.head? (List.cons.inj hbracket).2
    cases hdigits : Nat.toDigits 10 m with
    | nil => exact absurd hdigits Nat.toDigits_ne_nil
    | cons c digits =>
      rw [hdigits] at hhead
      exact absurd (Option.some.inj hhead ▸ hdigits) (toDigits_ne_cons (by decide) m _)
  | named other h => simp at hbracket
  | keyed other h =>
    simp only [List.cons.injEq, List.append_cancel_right_eq, true_and] at hbracket
    rwa [String.toList_inj.mp (eq_of_flatMap_quotedChar hname hbracket.symm).symm]

theorem isBareName_eq_false_of_toList {c d : Char} {s : List Char} (hd : Token.isNamePart d = false)
    (h : key.toList = c :: d :: s) : isBareName key = false := by
  simp [isBareName, h, isIdentifier, hd]

/-- A spelling with the letter of a table is no bare name. -/
theorem Sided.isBareName_eq_false (h : Sided side header name index) :
    isBareName name = false := by
  obtain ⟨s, hs, h⟩ := h
  cases h with
  | plain m =>
    have hnumbered : isNumbered name.toList := by
      rw [hs, isNumbered, List.all_eq_true.mpr fun c => Token.isDigit_of_mem_toDigits]
      cases side <;> rfl
    simp [isBareName, hnumbered]
  | subscript | named | keyed => exact isBareName_eq_false_of_toList (by decide) hs

/-! ## The columns of a query -/

theorem position?_of_mem {header : List String} (h : name ∈ header) :
    position? (some header) name = some (header.idxOf name) :=
  List.findIdx?_eq_some_of_exists ⟨name, h, beq_self_eq_true name⟩

/-- What a spelling stands for in the columns of a query is said by its form, or it is a bare
name. -/
theorem exists_found_of_ofIsolated (h : ofIsolated query side header = .ok columns) :
    columns.header = header ∧ ∃ found : List (String × Nat),
      (∀ key index, found.lookup key = some index → Sided side header key index) ∧
      ∀ key, columns.get? key = (found.lookup key).or
        ((bareVariables (header.getD []) (maskJoinTable true query.text)).lookup key) := by
  obtain ⟨named, hnamed, h⟩ := bind_eq_ok_iff.mp h
  cases h
  refine ⟨rfl, _, fun key index hlookup => ?_, fun key => lookup_foldl_absent _ _ key⟩
  rcases mem_of_lookup_foldl_insert hlookup with hmem | hlookup
  · rcases List.mem_append.mp hmem with hmem | hmem
    · exact sided_of_mem_numberedVariables hmem
    · obtain ⟨table, hfst, rfl, htable⟩ := exists_zip_of_mapM_eq_ok hnamed
      obtain ⟨⟨⟨spelling, name⟩, entry⟩, hentry, rfl⟩ := List.mem_map.mp hmem
      have hread := htable _ hentry
      have hvariable : (spelling, name) ∈
          namedVariables query side (maskJoinTable true query.text) :=
        hfst ▸ List.mem_map_of_mem (f := Prod.fst) hentry
      dsimp only at hread
      split at hread
      · next hposition =>
        cases hread
        exact sided_of_mem_namedVariables hvariable hposition
      · cases hread
  · cases hlookup

/-- What is found is a spelling with the letter of the table, or a bare name. -/
theorem sided_of_get? (h : ofIsolated query side header = .ok columns)
    (hget : columns.get? key = some index) (hbare : isBareName key = false) :
    Sided side header key index := by
  obtain ⟨-, found, hsided, hfound⟩ := exists_found_of_ofIsolated h
  rw [hfound, lookup_bareVariables_eq_none hbare, Option.or_none] at hget
  exact hsided key index hget

/-- A bare name that occurs in a query is found, and stands for the first column with it. -/
theorem get?_of_isBareName {header : List String}
    (h : ofIsolated query side (some header) = .ok columns) (hbare : isBareName name)
    (hmem : name ∈ header)
    (hmentions : mentions name.toList none (maskJoinTable true query.text)) :
    columns.get? name = some (header.idxOf name) := by
  obtain ⟨-, found, hsided, hfound⟩ := exists_found_of_ofIsolated h
  have hnone : found.lookup name = none := by
    cases hlookup : found.lookup name with
    | none => rfl
    | some index =>
      rw [(hsided name index hlookup).isBareName_eq_false] at hbare
      cases hbare
  rw [hfound, hnone, Option.none_or]
  exact lookup_bareVariables hbare hmem hmentions

end

end ColumnMap
end TableQuery
