import TableQuery.Proofs.Text.Search
import TableQuery.Text.Fold

/-!
# Words of capital letters

A keyword stands between spaces and counts in any letter case, so that what matters of a
text are its words in capital letters.  Everything about them follows from one equation:
a space divides them.
-/

namespace TableQuery
namespace Text

variable {s t word rest : List Char} {c : Char}

/-- The words of a text between its spaces, in capital letters. -/
def capitalWords (s : List Char) : List (List Char) :=
  ((s.splitOnP (· == ' ')).filter fun word => !word.isEmpty).map (List.map foldToCapital)

@[simp] theorem capitalWords_nil : capitalWords [] = [] :=
  rfl

/-- A space divides the words. -/
theorem capitalWords_append_cons (s t : List Char) :
    capitalWords (s ++ ' ' :: t) = capitalWords s ++ capitalWords t := by
  unfold capitalWords
  rw [List.splitOnP_append_cons s t (by rfl), List.filter_append, List.map_append]

@[simp] theorem capitalWords_cons_space (t : List Char) :
    capitalWords (' ' :: t) = capitalWords t :=
  capitalWords_append_cons [] t

theorem capitalWords_of_notMem (hne : word ≠ []) (hword : ' ' ∉ word) :
    capitalWords word = [word.map foldToCapital] := by
  unfold capitalWords
  rw [List.splitOnP_eq_singleton fun c hc => beq_false_of_ne (ne_of_mem_of_not_mem hc hword)]
  simp [hne]

theorem capitalWords_append (s : List Char) (ht : atDelimiter t = true) :
    capitalWords (s ++ t) = capitalWords s ++ capitalWords t := by
  cases t with
  | nil => simp
  | cons c t =>
    obtain rfl : c = ' ' := by simpa [atDelimiter] using ht
    rw [capitalWords_append_cons, capitalWords_cons_space]

theorem capitalWords_word_append (hne : word ≠ []) (hword : ' ' ∉ word)
    (ht : atDelimiter t = true) :
    capitalWords (word ++ t) = word.map foldToCapital :: capitalWords t := by
  rw [capitalWords_append word ht, capitalWords_of_notMem hne hword, List.singleton_append]

theorem space_notMem_firstWord (hc : c ≠ ' ') (s : List Char) :
    ' ' ∉ c :: s.takeWhile (· != ' ') := by
  intro hmem
  rcases List.mem_cons.mp hmem with h | h
  · exact hc h.symm
  · have htake := List.all_eq_true.mp List.all_takeWhile ' ' h
    simp at htake

theorem atDelimiter_dropWhile (s : List Char) : atDelimiter (s.dropWhile (· != ' ')) = true := by
  cases hdrop : s.dropWhile (· != ' ') with
  | nil => rfl
  | cons d rest =>
    have hd := List.head?_dropWhile_not (· != ' ') s
    rw [hdrop] at hd
    simpa [atDelimiter] using hd

/-- The first word of a text that does not begin with a space. -/
theorem capitalWords_cons_of_ne (hc : c ≠ ' ') (s : List Char) :
    capitalWords (c :: s) = (c :: s.takeWhile (· != ' ')).map foldToCapital ::
      capitalWords (s.dropWhile (· != ' ')) := by
  have happend := capitalWords_word_append (List.cons_ne_nil c _) (space_notMem_firstWord hc s)
    (atDelimiter_dropWhile s)
  rwa [List.cons_append, List.takeWhile_append_dropWhile] at happend

/-- The words behind the first part of a text are the last ones of the text. -/
theorem capitalWords_suffix (s : List Char) :
    capitalWords (s.dropWhile (· != ' ')) <:+ capitalWords s := by
  cases s with
  | nil => exact List.suffix_rfl
  | cons c s =>
    by_cases hc : c = ' '
    · subst hc
      exact List.suffix_rfl
    · rw [capitalWords_cons_of_ne hc, List.dropWhile_cons_of_pos (by simpa using hc)]
      exact List.suffix_cons _ _

@[simp] theorem capitalWords_dropWhile (s : List Char) :
    capitalWords (s.dropWhile (· == ' ')) = capitalWords s := by
  induction s with
  | nil => rfl
  | cons c s ih =>
    by_cases hc : c = ' '
    · subst hc
      simpa using ih
    · rw [List.dropWhile_cons_of_neg (by simpa using hc)]

/-! ## Reading words -/

theorem notMem_of_map_foldToCapital (hword : word.map foldToCapital = t) (ht : ' ' ∉ t) :
    ' ' ∉ word := by
  intro hmem
  rw [← hword] at ht
  exact ht (List.mem_map_of_mem hmem)

theorem dropWord?_eq_some_iff {letters : List Char} :
    dropWord? letters s = some rest ↔
      ∃ word, word.map foldToCapital = letters ∧ s = word ++ rest := by
  induction letters generalizing s with
  | nil =>
    constructor
    · intro h
      cases h
      exact ⟨[], rfl, rfl⟩
    · rintro ⟨word, hword, rfl⟩
      rw [List.map_eq_nil_iff.mp hword]
      rfl
  | cons letter letters ih =>
    cases s with
    | nil =>
      refine ⟨nofun, ?_⟩
      rintro ⟨word, hword, h⟩
      obtain ⟨rfl, -⟩ := List.append_eq_nil_iff.mp h.symm
      cases hword
    | cons c s =>
      rw [dropWord?]
      constructor
      · intro h
        split at h
        · next hc =>
          obtain ⟨word, rfl, rfl⟩ := ih.mp h
          exact ⟨c :: word, by rw [List.map_cons, eq_of_beq hc], rfl⟩
        · cases h
      · rintro ⟨word, hword, h⟩
        cases word with
        | nil => cases hword
        | cons d word =>
          obtain ⟨rfl, rfl⟩ := List.cons.inj h
          obtain ⟨hletter, hletters⟩ := List.cons.inj hword
          rw [if_pos (beq_of_eq hletter)]
          exact ih.mpr ⟨word, hletters, rfl⟩

/-- A word that has been read is the first one of the text. -/
theorem capitalWords_of_dropWord? {letters : List Char} (hne : letters ≠ [])
    (hletters : ' ' ∉ letters) (h : dropWord? letters s = some rest)
    (hrest : atDelimiter rest = true) : capitalWords s = letters :: capitalWords rest := by
  obtain ⟨word, rfl, rfl⟩ := dropWord?_eq_some_iff.mp h
  exact capitalWords_word_append (fun hnil => hne (by rw [hnil]; rfl))
    (notMem_of_map_foldToCapital rfl hletters) hrest

/-- No word begins with a space. -/
theorem dropWord?_cons_space {letters : List Char} (hne : letters ≠ []) (hletters : ' ' ∉ letters)
    (s : List Char) : dropWord? letters (' ' :: s) = none := by
  obtain ⟨letter, letters, rfl⟩ := List.exists_cons_of_ne_nil hne
  have hletter : ' ' ≠ letter := fun h => hletters (h ▸ List.mem_cons_self)
  exact if_neg (by simpa [foldToCapital] using hletter)

theorem dropSpaces?_eq_some_iff :
    dropSpaces? s = some rest ↔ ∃ t, s = ' ' :: t ∧ t.dropWhile (· == ' ') = rest := by
  constructor
  · intro h
    unfold dropSpaces? at h
    split at h
    · exact ⟨_, rfl, Option.some.inj h⟩
    · cases h
  · rintro ⟨t, rfl, rfl⟩
    rfl

theorem dropWords?_cons_space {words : List (List Char)} (hne : words ≠ [])
    (hwords : ∀ word ∈ words, word ≠ [] ∧ ' ' ∉ word) (s : List Char) :
    dropWords? words (' ' :: s) = none := by
  obtain ⟨word, words, rfl⟩ := List.exists_cons_of_ne_nil hne
  obtain ⟨hword, hspace⟩ := hwords word List.mem_cons_self
  cases words <;> rw [dropWords?, dropWord?_cons_space hword hspace]
  rfl

/-- Words that have been read are the first ones of the text. -/
theorem capitalWords_of_dropWords? {words : List (List Char)} (hne : words ≠ [])
    (hwords : ∀ word ∈ words, word ≠ [] ∧ ' ' ∉ word) (h : dropWords? words s = some rest)
    (hrest : atDelimiter rest = true) : capitalWords s = words ++ capitalWords rest := by
  induction words generalizing s with
  | nil => exact absurd rfl hne
  | cons word words ih =>
    obtain ⟨⟨hword, hspace⟩, hwords⟩ := List.forall_mem_cons.mp hwords
    cases words with
    | nil => exact capitalWords_of_dropWord? hword hspace h hrest
    | cons next words =>
      obtain ⟨behind, hbehind, h⟩ := Option.bind_eq_some_iff.mp h
      obtain ⟨after, hafter, h⟩ := Option.bind_eq_some_iff.mp h
      obtain ⟨t, rfl, rfl⟩ := dropSpaces?_eq_some_iff.mp hafter
      have hlater := ih (List.cons_ne_nil _ _) hwords h
      rw [capitalWords_dropWhile] at hlater
      rw [capitalWords_of_dropWord? hword hspace hbehind (by rfl), capitalWords_cons_space,
        hlater]
      rfl

/-- Words in any letter case with a space between every two of them are read. -/
theorem dropWords?_joinWith {words : List (List Char)} (hne : words ≠ [])
    (hwords : ∀ word ∈ words, word ≠ [] ∧ ' ' ∉ word) (t : List Char) :
    dropWords? (words.map (List.map foldToCapital)) (joinWith [' '] words ++ t) = some t := by
  induction words with
  | nil => exact absurd rfl hne
  | cons word words ih =>
    obtain ⟨-, hothers⟩ := List.forall_mem_cons.mp hwords
    cases words with
    | nil => exact dropWord?_eq_some_iff.mpr ⟨word, rfl, rfl⟩
    | cons next words =>
      have hword : dropWord? (word.map foldToCapital)
          (joinWith [' '] (word :: next :: words) ++ t) =
          some (' ' :: (joinWith [' '] (next :: words) ++ t)) := by
        refine dropWord?_eq_some_iff.mpr ⟨word, rfl, ?_⟩
        simp [joinWith_cons_cons]
      -- The next word does not begin with a space, so that one space is dropped.
      have hspaces : (joinWith [' '] (next :: words) ++ t).dropWhile (· == ' ') =
          joinWith [' '] (next :: words) ++ t := by
        obtain ⟨hnext, hspace⟩ := hothers next List.mem_cons_self
        obtain ⟨c, next, rfl⟩ := List.exists_cons_of_ne_nil hnext
        rw [joinWith_cons_eq_append_flatMap, List.append_assoc, List.cons_append]
        exact List.dropWhile_cons_of_neg fun h => hspace (eq_of_beq h ▸ List.mem_cons_self)
      rw [List.map_cons, List.map_cons, dropWords?, hword, Option.bind_eq_bind, Option.bind_some,
        dropSpaces?, hspaces]
      exact ih (List.cons_ne_nil _ _) hothers

/-! ## Where words end -/

theorem eq_space_of_capitalWords_eq_nil (h : capitalWords s = []) : ∀ c ∈ s, c = ' ' := by
  induction s with
  | nil => exact nofun
  | cons c s ih =>
    by_cases hc : c = ' '
    · subst hc
      rw [capitalWords_cons_space] at h
      exact List.forall_mem_cons.mpr ⟨rfl, ih h⟩
    · rw [capitalWords_cons_of_ne hc] at h
      cases h

/-- Spaces before a text make no difference to its words. -/
theorem capitalWords_spaces_append {spaces : List Char} (h : ∀ c ∈ spaces, (c == ' ') = true)
    (s : List Char) : capitalWords (spaces ++ s) = capitalWords s := by
  rw [← capitalWords_dropWhile, List.dropWhile_append_of_pos h, capitalWords_dropWhile]

/-- Spaces do not stand at the ends of a text. -/
def IsTight (s : List Char) : Prop :=
  (∀ c ∈ s.head?, c ≠ ' ') ∧ ∀ c ∈ s.getLast?, c ≠ ' '

theorem isTight_of_notMem (h : ' ' ∉ s) : IsTight s :=
  ⟨fun _ hc => ne_of_mem_of_not_mem (List.mem_of_head? hc) h,
    fun _ hc => ne_of_mem_of_not_mem (List.mem_of_getLast? hc) h⟩

theorem not_isTight_append_spaces {spaces : List Char}
    (hspaces : ∀ c ∈ spaces, (c == ' ') = true) (s : List Char) :
    ¬IsTight (s ++ ' ' :: spaces) := by
  intro h
  obtain ⟨c, hc⟩ := Option.isSome_iff_exists.mp
    (List.getLast?_isSome.mpr (List.cons_ne_nil ' ' spaces))
  have hspace : c = ' ' := by
    rcases List.mem_cons.mp (List.mem_of_getLast? hc) with rfl | hmem
    · rfl
    · exact eq_of_beq (hspaces c hmem)
  refine h.2 c ?_ hspace
  rw [List.getLast?_append, hc]
  rfl

theorem IsTight.of_append (h : IsTight (t ++ c :: s)) (hc : c ≠ ' ') : IsTight (c :: s) := by
  constructor
  · rintro d ⟨⟩
    exact hc
  · intro d hd
    refine h.2 d ?_
    rw [List.getLast?_append, Option.mem_def.mp hd]
    rfl

/-- A text that has these words in any letter case, with spaces only between them. -/
inductive JoinsWords : List (List Char) → List Char → Prop
  | last {word : List Char} (hne : word ≠ []) (hword : ' ' ∉ word) :
    JoinsWords [word.map foldToCapital] word
  | cons {word spaces s : List Char} {words : List (List Char)} (hne : word ≠ [])
    (hword : ' ' ∉ word) (hspaces : ∀ c ∈ spaces, (c == ' ') = true) (h : JoinsWords words s) :
    JoinsWords (word.map foldToCapital :: words) (word ++ ' ' :: (spaces ++ s))

namespace JoinsWords

variable {words : List (List Char)}

theorem exists_cons (h : JoinsWords words s) : ∃ word others, words = word :: others := by
  cases h with
  | last | cons => exact ⟨_, _, rfl⟩

theorem ne_nil (h : JoinsWords words s) : s ≠ [] := by
  cases h with
  | last hne => exact hne
  | cons hne => exact List.append_ne_nil_of_left_ne_nil hne _

theorem capitalWords_eq (h : JoinsWords words s) : capitalWords s = words := by
  induction h with
  | last hne hword => exact capitalWords_of_notMem hne hword
  | cons hne hword hspaces _ ih =>
    rw [capitalWords_append_cons, capitalWords_of_notMem hne hword,
      capitalWords_spaces_append hspaces, ih]
    rfl

theorem isTight (h : JoinsWords words s) : IsTight s := by
  induction h with
  | last _ hword => exact isTight_of_notMem hword
  | @cons word spaces s _ hne hword _ h ih =>
    constructor
    · intro c hc
      obtain ⟨d, word, rfl⟩ := List.exists_cons_of_ne_nil hne
      exact (isTight_of_notMem hword).1 c hc
    · intro c hc
      obtain ⟨d, s, rfl⟩ := List.exists_cons_of_ne_nil h.ne_nil
      refine ih.2 c ?_
      simpa [List.getLast?_append, List.getLast?_cons] using hc

/-- Words with spaces only between them are read. -/
theorem dropWords?_append (h : JoinsWords words s) (rest : List Char) :
    dropWords? words (s ++ rest) = some rest := by
  induction h with
  | last => exact dropWord?_eq_some_iff.mpr ⟨_, rfl, rfl⟩
  | @cons word spaces s words _ _ hspaces h ih =>
    obtain ⟨next, others, rfl⟩ := h.exists_cons
    have hword : dropWord? (word.map foldToCapital) (word ++ ' ' :: (spaces ++ s) ++ rest) =
        some (' ' :: (spaces ++ (s ++ rest))) := by
      refine dropWord?_eq_some_iff.mpr ⟨word, rfl, ?_⟩
      simp
    have hbetween : dropSpaces? (' ' :: (spaces ++ (s ++ rest))) = some (s ++ rest) := by
      obtain ⟨c, s, rfl⟩ := List.exists_cons_of_ne_nil h.ne_nil
      refine dropSpaces?_eq_some_iff.mpr ⟨_, rfl, ?_⟩
      rw [List.dropWhile_append_of_pos hspaces, List.cons_append,
        List.dropWhile_cons_of_neg (by simpa using h.isTight.1 c rfl)]
    rw [dropWords?, hword, Option.bind_eq_bind, Option.bind_some, hbetween]
    exact ih

/-- A text without spaces at its ends has spaces only between its words. -/
theorem of_isTight (hne : words ≠ []) (h : capitalWords s = words) (htight : IsTight s) :
    JoinsWords words s := by
  induction words generalizing s with
  | nil => exact absurd rfl hne
  | cons letters words ih =>
    obtain ⟨c, s, rfl⟩ : ∃ c others, s = c :: others :=
      List.exists_cons_of_ne_nil (by rintro rfl; cases h)
    have hc : c ≠ ' ' := htight.1 c rfl
    have hword := space_notMem_firstWord hc s
    have hsplit := List.takeWhile_append_dropWhile (p := (· != ' ')) (l := s)
    have hdelimiter := atDelimiter_dropWhile s
    rw [capitalWords_cons_of_ne hc] at h
    obtain ⟨rfl, hlater⟩ := List.cons.inj h
    generalize s.takeWhile (· != ' ') = word at hword hsplit
    generalize s.dropWhile (· != ' ') = behind at hlater hsplit hdelimiter
    subst hsplit
    cases behind with
    | nil =>
      obtain rfl := hlater
      rw [List.append_nil]
      exact .last (List.cons_ne_nil _ _) hword
    | cons d behind =>
      obtain rfl : d = ' ' := by simpa [atDelimiter] using hdelimiter
      have hnext := List.takeWhile_append_dropWhile (p := (· == ' ')) (l := behind)
      have hspaces : ∀ d ∈ behind.takeWhile (· == ' '), (d == ' ') = true :=
        List.all_eq_true.mp List.all_takeWhile
      have hstart := List.head?_dropWhile_not (· == ' ') behind
      rw [capitalWords_cons_space, ← capitalWords_dropWhile] at hlater
      generalize behind.takeWhile (· == ' ') = spaces at hnext hspaces
      generalize behind.dropWhile (· == ' ') = next at hlater hnext hstart
      subst hnext
      cases next with
      | nil =>
        rw [List.append_nil, ← List.cons_append] at htight
        exact absurd htight (not_isTight_append_spaces hspaces _)
      | cons d next =>
        have hd : d ≠ ' ' := by simpa using hstart
        have hwords : words ≠ [] := by
          rw [← hlater, capitalWords_cons_of_ne hd]
          exact List.cons_ne_nil _ _
        have hothers : IsTight (d :: next) :=
          .of_append (t := c :: (word ++ ' ' :: spaces)) (by simpa using htight) hd
        exact .cons (List.cons_ne_nil _ _) hword hspaces (ih hwords hlater hothers)

/-- Words that have been read have spaces only between them. -/
theorem of_dropWords? (hne : words ≠ []) (hwords : ∀ word ∈ words, word ≠ [] ∧ ' ' ∉ word)
    (h : dropWords? words s = some rest) : ∃ front, s = front ++ rest ∧ JoinsWords words front := by
  induction words generalizing s with
  | nil => exact absurd rfl hne
  | cons letters words ih =>
    obtain ⟨⟨hletters, hspace⟩, hothers⟩ := List.forall_mem_cons.mp hwords
    have hread : ∀ {after}, dropWord? letters s = some after →
        ∃ word, s = word ++ after ∧ word.map foldToCapital = letters ∧ word ≠ [] ∧ ' ' ∉ word := by
      intro after h
      obtain ⟨word, hmap, hs⟩ := dropWord?_eq_some_iff.mp h
      refine ⟨word, hs, hmap, ?_, notMem_of_map_foldToCapital hmap hspace⟩
      rintro rfl
      exact hletters hmap.symm
    cases words with
    | nil =>
      obtain ⟨word, rfl, rfl, hnil, hword⟩ := hread h
      exact ⟨word, rfl, .last hnil hword⟩
    | cons next words =>
      obtain ⟨behind, hbehind, h⟩ := Option.bind_eq_some_iff.mp h
      obtain ⟨after, hafter, hlater⟩ := Option.bind_eq_some_iff.mp h
      obtain ⟨t, rfl, rfl⟩ := dropSpaces?_eq_some_iff.mp hafter
      obtain ⟨word, rfl, rfl, hnil, hword⟩ := hread hbehind
      obtain ⟨front, hfront, hnext⟩ := ih (List.cons_ne_nil _ _) hothers hlater
      have ht := List.takeWhile_append_dropWhile (p := (· == ' ')) (l := t)
      rw [hfront] at ht
      refine ⟨word ++ ' ' :: (t.takeWhile (· == ' ') ++ front), ?_,
        .cons hnil hword (List.all_eq_true.mp List.all_takeWhile) hnext⟩
      simp [ht]

end JoinsWords

/-- Words that have been read are a part of the text with spaces only between them. -/
theorem exists_of_dropWords? {words : List (List Char)} (hne : words ≠ [])
    (hwords : ∀ word ∈ words, word ≠ [] ∧ ' ' ∉ word) (h : dropWords? words s = some rest) :
    ∃ front, s = front ++ rest ∧ capitalWords front = words ∧ IsTight front := by
  obtain ⟨front, hs, hjoins⟩ := JoinsWords.of_dropWords? hne hwords h
  exact ⟨front, hs, hjoins.capitalWords_eq, hjoins.isTight⟩

/-- A part of a text with spaces only between its words is read as these words. -/
theorem dropWords?_append {front : List Char} (hne : capitalWords front ≠ [])
    (htight : IsTight front) (rest : List Char) :
    dropWords? (capitalWords front) (front ++ rest) = some rest :=
  (JoinsWords.of_isTight hne rfl htight).dropWords?_append rest

end Text
end TableQuery
