import TableQuery.Proofs.Query.Placement
import TableQuery.Proofs.Query.RowCounts

/-!
# The masked table of a join

The table of a join clause is masked before columns are looked for.  A query with clauses has
the word `JOIN` at one place at most, apart from one right behind it, so that nothing else is
masked: every name that an expression of a clause mentions is found in the masked text.
-/

namespace TableQuery

variable {query s t a b front word name : List Char} {position : Nat} {clauses : Clauses}

/-- Whether the word `JOIN` stands at a position of a text. -/
def JoinAt (query : List Char) (position : Nat) : Prop :=
  ∃ before word after, query = before ++ (word ++ after) ∧ before.length = position ∧
    word.map Text.foldToCapital = "JOIN".toList ∧ (∀ c ∈ before.getLast?, c = ' ') ∧
      Text.atDelimiter after = true

theorem notMem_of_join (h : word.map Text.foldToCapital = "JOIN".toList) : ' ' ∉ word :=
  Text.notMem_of_map_foldToCapital h (by decide)

theorem length_of_join (h : word.map Text.foldToCapital = "JOIN".toList) : word.length = 4 := by
  simpa using congrArg List.length h

theorem JoinAt.standsIn (h : JoinAt query position) :
    KeywordPlace.StandsIn ⟨.join, .inner, position, position + 4⟩ query := by
  obtain ⟨before, word, after, rfl, rfl, hword, hbefore, hafter⟩ := h
  have hne : word ≠ [] := by
    rintro rfl
    cases hword
  refine ⟨before, word, after, rfl, rfl, by rw [length_of_join hword], hbefore, hafter,
    Text.isTight_of_notMem (notMem_of_join hword), ?_⟩
  rw [Text.capitalWords_of_notMem hne (notMem_of_join hword), hword]
  exact (by decide : (JoinKind.inner, ["JOIN".toList]) ∈ ClauseKind.join.forms)

/-! ## Masking -/

theorem joinAt_of_joinTable? {found : List Char × Nat}
    (h : ColumnMap.joinTable? s = some found) (hfront : ∀ c ∈ front.getLast?, c = ' ') :
    JoinAt (front ++ s) front.length := by
  obtain ⟨behind, hword, h⟩ := Option.bind_eq_some_iff.mp h
  obtain ⟨rest, hspaces, -⟩ := Option.bind_eq_some_iff.mp h
  obtain ⟨word, hletters, rfl⟩ := Text.dropWord?_eq_some_iff.mp hword
  obtain ⟨t, rfl, -⟩ := Text.dropSpaces?_eq_some_iff.mp hspaces
  exact ⟨front, word, ' ' :: t, rfl, rfl, hletters, hfront, rfl⟩

/-- Where the word `JOIN` does not stand nothing is masked. -/
theorem maskJoinTable_append {delimited : Bool} (hquery : query = front ++ (a ++ b))
    (hfree : ∀ n, JoinAt query n → front.length ≤ n → (front ++ a).length ≤ n)
    (hdelimited : delimited = true → ∀ c ∈ front.getLast?, c = ' ') :
    ColumnMap.maskJoinTable delimited (a ++ b) =
      a ++ ColumnMap.maskJoinTable (a.getLast?.elim delimited (· == ' ')) b := by
  induction a generalizing front delimited with
  | nil => rfl
  | cons c a ih =>
    have hquery' : query = (front ++ [c]) ++ (a ++ b) := by rw [hquery]; simp
    have hnone : (if delimited then ColumnMap.joinTable? (c :: (a ++ b)) else none) = none := by
      split
      · next hopen =>
        by_contra hsome
        obtain ⟨found, hfound⟩ := Option.ne_none_iff_exists'.mp hsome
        have hjoin := joinAt_of_joinTable? hfound (hdelimited hopen)
        have hle := hfree _ (hquery ▸ hjoin) (Nat.le_refl _)
        simp only [List.length_append, List.length_cons] at hle
        omega
      · rfl
    rw [List.cons_append, ColumnMap.maskJoinTable, hnone]
    refine congrArg (c :: ·) ((ih hquery' ?_ ?_).trans ?_)
    · intro n hn hle
      simp only [List.length_append, List.length_cons, List.length_nil] at hle ⊢
      have hfar := hfree n hn (by omega)
      simp only [List.length_append, List.length_cons] at hfar
      omega
    · intro hspace d hd
      rw [List.getLast?_concat] at hd
      cases hd
      exact eq_of_beq hspace
    · cases a with
      | nil => rfl
      | cons d a => rw [List.getLast?_cons_cons]; rfl

/-- Without the word `JOIN` nothing is masked. -/
theorem maskJoinTable_of_not_joinAt (h : ∀ n, ¬JoinAt s n) :
    ColumnMap.maskJoinTable true s = s := by
  have hquery : s = [] ++ (s ++ []) := by simp
  have hmask : ColumnMap.maskJoinTable true (s ++ []) = _ :=
    maskJoinTable_append hquery (fun n hn _ => absurd hn (h n)) fun _ c hc => by cases hc
  rwa [List.append_nil, ColumnMap.maskJoinTable, List.append_nil] at hmask

/-- What stands behind the first word of a text that may begin with spaces. -/
def behindWord (s : List Char) : List Char :=
  (s.dropWhile (· == ' ')).dropWhile (· != ' ')

/-- The table behind a word `JOIN` is masked. -/
theorem exists_maskJoinTable_word (hword : word.map Text.foldToCapital = "JOIN".toList)
    (hne : behindWord (' ' :: s) ≠ []) :
    ∃ opening, ColumnMap.maskJoinTable true (word ++ ' ' :: s) =
      opening ++ '_' :: ColumnMap.maskJoinTable false (behindWord (' ' :: s)) := by
  obtain ⟨spaces, rest, hsplit, hrest⟩ : ∃ spaces rest, s = spaces ++ rest ∧
      s.dropWhile (· == ' ') = rest :=
    ⟨_, _, List.takeWhile_append_dropWhile.symm, rfl⟩
  have hbehind : behindWord (' ' :: s) = rest.dropWhile (· != ' ') := by
    rw [behindWord, List.dropWhile_cons_of_pos (by rfl), hrest]
  rw [hbehind] at hne ⊢
  have htable : rest.takeWhile (· != ' ') ≠ [] := by
    cases rest with
    | nil => exact absurd rfl hne
    | cons c rest =>
      have hc := List.head?_dropWhile_not (· == ' ') s
      rw [hrest] at hc
      rw [List.takeWhile_cons_of_pos (by simpa using hc)]
      exact List.cons_ne_nil _ _
  have hfound : ColumnMap.joinTable? (word ++ ' ' :: s) = some (word ++ ' ' :: spaces,
      (word ++ ' ' :: spaces).length + (rest.takeWhile (· != ' ')).length) := by
    have hspaces : Text.dropSpaces? (' ' :: s) = some rest :=
      Text.dropSpaces?_eq_some_iff.mpr ⟨s, rfl, hrest⟩
    rw [ColumnMap.joinTable?, Text.dropWord?_eq_some_iff.mpr ⟨word, hword, rfl⟩]
    simp only [Option.bind_eq_bind, Option.bind_some, hspaces]
    rw [if_neg (by simpa using htable), hsplit]
    have hlength : (word ++ ' ' :: (spaces ++ rest)).length - rest.length =
        (word ++ ' ' :: spaces).length := by
      simp only [List.length_append, List.length_cons]
      omega
    rw [hlength, ← List.cons_append, ← List.append_assoc, List.take_left]
  obtain ⟨c, letters, rfl⟩ : ∃ c others, word = c :: others := by
    refine List.exists_cons_of_ne_nil ?_
    rintro rfl
    cases hword
  refine ⟨c :: letters ++ ' ' :: spaces, ?_⟩
  rw [List.cons_append] at hfound ⊢
  rw [ColumnMap.maskJoinTable, if_pos rfl, hfound]
  have hdrop : (letters ++ ' ' :: s).drop ((c :: letters ++ ' ' :: spaces).length +
      (rest.takeWhile (· != ' ')).length - 1) = rest.dropWhile (· != ' ') := by
    have hfront : letters ++ ' ' :: s =
        (letters ++ ' ' :: spaces ++ rest.takeWhile (· != ' ')) ++ rest.dropWhile (· != ' ') := by
      rw [List.append_assoc, List.takeWhile_append_dropWhile, hsplit]
      simp
    have hlength : (c :: letters ++ ' ' :: spaces).length + (rest.takeWhile (· != ' ')).length - 1 =
        (letters ++ ' ' :: spaces ++ rest.takeWhile (· != ' ')).length := by
      simp only [List.length_append, List.length_cons]
      omega
    rw [hlength, hfront, List.drop_left]
  dsimp only
  rw [hdrop]

/-! ## The one word of a query with clauses -/

theorem getLast?_of_mem_forms :
    ∀ form ∈ ClauseKind.join.forms, form.2.getLast? = some "JOIN".toList := by
  decide

/-- A text is its last word behind a space, or nothing but this word. -/
theorem exists_lastWord (h : ∀ c ∈ s.getLast?, c ≠ ' ') (hne : s ≠ []) :
    ∃ before word, s = before ++ word ∧ word ≠ [] ∧ ' ' ∉ word ∧
      ∀ c ∈ before.getLast?, c = ' ' := by
  have hsplit := List.takeWhile_append_dropWhile (p := (· != ' ')) (l := s.reverse)
  refine ⟨(s.reverse.dropWhile (· != ' ')).reverse, (s.reverse.takeWhile (· != ' ')).reverse, ?_,
    ?_, ?_, ?_⟩
  · rw [← List.reverse_append, hsplit, List.reverse_reverse]
  · rcases List.eq_nil_or_concat s with rfl | ⟨front, c, rfl⟩
    · exact absurd rfl hne
    · have hc : c ≠ ' ' := h c (by simp)
      simp [hc]
  · intro hmem
    have hspace := List.all_eq_true.mp List.all_takeWhile ' ' (List.mem_reverse.mp hmem)
    simp at hspace
  · intro c hc
    rw [List.getLast?_reverse] at hc
    have hspace := List.head?_dropWhile_not (· != ' ') s.reverse
    rw [Option.mem_def.mp hc] at hspace
    simpa using hspace

/-- In a query whose keyword for joins is found once the word `JOIN` stands at the end of this
keyword. -/
theorem exists_joinAt {found : KeywordPlace}
    (h : KeywordPlace.one? query .join = .ok (some found)) :
    ∃ before word after, query = before ++ (word ++ after) ∧
      word.map Text.foldToCapital = "JOIN".toList ∧ (∀ c ∈ before.getLast?, c = ' ') ∧
      Text.atDelimiter after = true ∧ found.start ≤ before.length ∧
      found.stop = before.length + 4 := by
  obtain ⟨-, hkind, before, keyword, after, rfl, hstart, hstop, hlast, hafter, hkeyword⟩ :=
    KeywordPlace.exists_of_one? h
  obtain ⟨front, word, rfl, hne, hspace, hfront⟩ :=
    exists_lastWord hkeyword.tight.2 hkeyword.ne_nil
  have hword : word.map Text.foldToCapital = "JOIN".toList := by
    have hforms := getLast?_of_mem_forms _ (hkind ▸ hkeyword.spells)
    have hwords : Text.capitalWords (front ++ word) =
        Text.capitalWords front ++ [word.map Text.foldToCapital] := by
      rcases List.eq_nil_or_concat front with rfl | ⟨front, c, rfl⟩
      · exact Text.capitalWords_of_notMem hne hspace
      · obtain rfl : c = ' ' := hfront c (by simp)
        simp [Text.capitalWords_append_cons, Text.capitalWords_of_notMem hne hspace]
    rw [hwords, List.getLast?_concat] at hforms
    exact Option.some.inj hforms
  refine ⟨before ++ front, word, after, by simp, hword, ?_, hafter, ?_, ?_⟩
  · exact forall_getLast?_append hlast hfront
  · rw [hstart, List.length_append]
    exact Nat.le_add_right _ _
  · rw [hstop, List.length_append, List.length_append, length_of_join hword, Nat.add_assoc]

/-- It stands at no other place, apart from one right behind that place. -/
theorem le_of_joinAt {found : KeywordPlace}
    (h : KeywordPlace.one? query .join = .ok (some found)) (hjoin : JoinAt query position) :
    found.stop ≤ position + 4 ∧ position ≤ found.stop + 1 := by
  obtain ⟨hall, hkind, hfound⟩ := KeywordPlace.exists_of_one? h
  have hstands := hjoin.standsIn
  have hzero : KeywordPlace.nextStart 0 0 true ≤ position := Nat.zero_le _
  obtain ⟨first, rest, hfirst, hle⟩ := KeywordPlace.exists_allFrom_eq_cons hstands rfl
    (List.nil_append query).symm List.length_nil.symm hzero
  obtain ⟨rfl, -⟩ := List.cons.inj (hall.symm.trans hfirst)
  refine ⟨KeywordPlace.stop_le_stop hfound hstands hkind hle, ?_⟩
  by_contra hfar
  have herror := KeywordPlace.one?_eq_error_iff.mpr
    ⟨rfl, found, _, hfound, hstands, hkind, rfl, Nat.not_le.mp hfar⟩
  rw [h] at herror
  cases herror

theorem not_joinAt (h : KeywordPlace.one? query .join = .ok none) : ¬JoinAt query position := by
  intro hjoin
  have hzero : KeywordPlace.nextStart 0 0 true ≤ position := Nat.zero_le _
  obtain ⟨first, rest, hfirst, -⟩ := KeywordPlace.exists_allFrom_eq_cons hjoin.standsIn rfl
    (List.nil_append query).symm List.length_nil.symm hzero
  unfold KeywordPlace.one? at h
  split at h
  · next hnil =>
    rw [hnil] at hfirst
    cases hfirst
  · cases h
  · cases h

/-! ## Names in the masked text -/

theorem space_notMem_of_isIdentifier (h : ColumnMap.isIdentifier name) :
    name ≠ [] ∧ ' ' ∉ name := by
  obtain ⟨hne, hparts, -⟩ := ColumnMap.chars_of_isIdentifier h
  exact ⟨hne, fun hspace => absurd (hparts ' ' hspace) (by decide)⟩

theorem Mentions.ne_nil (h : Mentions name s) (hname : ColumnMap.isIdentifier name) : s ≠ [] := by
  obtain ⟨before, after, rfl, -⟩ := h
  simp [(ColumnMap.chars_of_isIdentifier hname).1]

theorem Mentions.append_left (h : Mentions name s) (hs : Text.atDelimiter s = true)
    (hname : ColumnMap.isIdentifier name) (front : List Char) : Mentions name (front ++ s) := by
  obtain ⟨hne, hspace⟩ := space_notMem_of_isIdentifier hname
  obtain ⟨before, after, rfl, hbefore, hafter⟩ := h
  obtain ⟨c, others, rfl⟩ : ∃ c others, before = c :: others := by
    refine List.exists_cons_of_ne_nil ?_
    rintro rfl
    obtain ⟨c, others, rfl⟩ := List.exists_cons_of_ne_nil hne
    obtain rfl : c = ' ' := by simpa [Text.atDelimiter] using hs
    exact hspace List.mem_cons_self
  refine ⟨front ++ c :: others, after, by simp, fun d hd => hbefore d ?_, hafter⟩
  rwa [List.getLast?_append_of_ne_nil _ (List.cons_ne_nil _ _)] at hd

theorem Mentions.append_right (h : Mentions name s) (hs : ∀ c ∈ s.getLast?, c = ' ')
    (hname : ColumnMap.isIdentifier name) (rest : List Char) : Mentions name (s ++ rest) := by
  obtain ⟨hne, hspace⟩ := space_notMem_of_isIdentifier hname
  obtain ⟨before, after, rfl, hbefore, hafter⟩ := h
  obtain ⟨c, others, rfl⟩ : ∃ c others, after = c :: others := by
    refine List.exists_cons_of_ne_nil ?_
    rintro rfl
    obtain ⟨c, hc⟩ := Option.isSome_iff_exists.mp (List.getLast?_isSome.mpr hne)
    obtain rfl : c = ' ' := hs c (by simp [hc])
    exact hspace (List.mem_of_getLast? hc)
  exact ⟨before, c :: others ++ rest, by simp, hbefore, hafter⟩

theorem atDelimiter_behindWord (s : List Char) : Text.atDelimiter (behindWord s) = true := by
  have hhead := List.head?_dropWhile_not (· != ' ') (s.dropWhile (· == ' '))
  cases hrest : behindWord s with
  | nil => rfl
  | cons c rest =>
    rw [behindWord] at hrest
    rw [hrest] at hhead
    simpa [Text.atDelimiter] using hhead

/-- What stands behind a word of a text stands behind the first one. -/
theorem exists_behindWord_append (ha : ∃ c ∈ a, c ≠ ' ') (hb : Text.atDelimiter b = true) :
    ∃ front, behindWord (a ++ b) = front ++ b := by
  induction a with
  | nil =>
    obtain ⟨c, hc, -⟩ := ha
    cases hc
  | cons c a ih =>
    by_cases hc : c = ' '
    · subst hc
      obtain ⟨d, hd, hne⟩ := ha
      rcases List.mem_cons.mp hd with rfl | hd
      · exact absurd rfl hne
      · exact ih ⟨d, hd, hne⟩
    · have hfirst : behindWord (c :: a ++ b) = (a ++ b).dropWhile (· != ' ') := by
        rw [behindWord, List.cons_append, List.dropWhile_cons_of_neg (by simpa using hc),
          List.dropWhile_cons_of_pos (by simpa using hc)]
      rw [hfirst, List.dropWhile_append]
      split
      · refine ⟨[], ?_⟩
        cases b with
        | nil => rfl
        | cons d b =>
          obtain rfl : d = ' ' := by simpa [Text.atDelimiter] using hb
          rfl
      · exact ⟨_, rfl⟩

theorem CountsRows.mentions_behindWord (h : CountsRows s t) (hname : ColumnMap.isIdentifier name)
    (ht : Mentions name (behindWord t)) : Mentions name (behindWord s) := by
  obtain ⟨front, rest, hsplit, hrest⟩ := h.dropSpaces.exists_dropWord
  have hmention := (hrest.mentions hname ht).append_left
    (hrest.atDelimiter_eq ▸ atDelimiter_behindWord t) hname front
  rwa [← hsplit] at hmention

/-- The word `JOIN` stands at a place that the rewriting keeps. -/
theorem CountsRows.exists_joinAt (h : CountsRows (a ++ (word ++ b)) t)
    (hword : word.map Text.foldToCapital = "JOIN".toList) (ha : ∀ c ∈ a.getLast?, c = ' ')
    (hb : Text.atDelimiter b = true) :
    ∃ a' b', t = a' ++ (word ++ b') ∧ CountsRows a a' ∧ CountsRows b b' ∧ JoinAt t a'.length := by
  obtain ⟨a', b', rfl, hfront, hback⟩ := h.word_join_left hword
  exact ⟨a', b', rfl, hfront, hback, a', word, b', rfl, rfl, hword, hfront.getLast?_eq ▸ ha,
    hback.atDelimiter_eq ▸ hb⟩

theorem maskJoinTable_eq_self (h : CountsRows s t)
    (hone : KeywordPlace.one? t .join = .ok none) : ColumnMap.maskJoinTable true s = s := by
  refine maskJoinTable_of_not_joinAt ?_
  rintro n ⟨before, word, after, rfl, -, hword, hbefore, hafter⟩
  obtain ⟨_, _, -, -, -, hjoin⟩ := h.exists_joinAt hword hbefore hafter
  exact absurd hjoin (not_joinAt hone)

section

variable {before after before' after' : List Char}

/-- Before the word `JOIN` nothing is masked. -/
theorem maskJoinTable_before (hbefore : CountsRows before before')
    (hlast : ∀ c ∈ before.getLast?, c = ' ')
    (hplaces : ∀ n, JoinAt (before' ++ b) n → before'.length ≤ n) :
    ColumnMap.maskJoinTable true (before ++ a) =
      before ++ ColumnMap.maskJoinTable true a := by
  have hsplit : before ++ a = [] ++ (before ++ a) := rfl
  have hmask : ColumnMap.maskJoinTable true (before ++ a) = _ :=
    maskJoinTable_append hsplit (fun n hn _ => ?_) fun _ c hc => by cases hc
  · rw [hmask]
    cases hlast? : before.getLast? with
    | none => rfl
    | some c => rw [hlast c hlast?]; rfl
  · by_contra hlt
    obtain ⟨front, word, rest, hquery, rfl, hword, hfront, hrest⟩ := hn
    have hspace := notMem_of_join hword
    obtain ⟨inner, rfl⟩ : front <+: before := by
      refine List.prefix_of_prefix_length_le ⟨_, hquery.symm⟩ (List.prefix_append before a) ?_
      simpa using Nat.le_of_lt (Nat.not_le.mp hlt)
    obtain ⟨c, hc⟩ : ∃ c, inner.getLast? = some c := by
      refine Option.isSome_iff_exists.mp (List.getLast?_isSome.mpr ?_)
      rintro rfl
      simp at hlt
    obtain rfl : c = ' ' := hlast c (by rw [List.getLast?_append, hc]; rfl)
    rw [List.append_assoc, List.append_cancel_left_eq] at hquery
    rcases List.append_eq_append_iff.mp hquery with ⟨behind, rfl, -⟩ | ⟨behind, rfl, rfl⟩
    · exact hspace (List.mem_append_left _ (List.mem_of_getLast? hc))
    · obtain ⟨d, others, rfl⟩ : ∃ d others, behind = d :: others := by
        refine List.exists_cons_of_ne_nil ?_
        rintro rfl
        rw [List.append_nil] at hc
        exact hspace (List.mem_of_getLast? hc)
      obtain rfl : d = ' ' := by simpa [Text.atDelimiter] using hrest
      obtain ⟨front', behind', rfl, hfront', hbehind⟩ := hbefore.word_join_left hword
      obtain ⟨others', rfl, -⟩ := hbehind.space_left
      have hle := hplaces front'.length ⟨front', word, ' ' :: (others' ++ b), by simp, rfl, hword,
        hfront'.getLast?_eq ▸ hfront, rfl⟩
      simp only [List.length_append, List.length_cons] at hle
      omega

/-- Between a space and what stands behind the next word there is this word. -/
theorem exists_of_behindWord (hne : behindWord (' ' :: s) ≠ []) :
    ∃ c front, s = c :: front ++ behindWord (' ' :: s) := by
  have hspaces := List.takeWhile_append_dropWhile (p := (· == ' ')) (l := s)
  have htable := List.takeWhile_append_dropWhile (p := (· != ' ')) (l := s.dropWhile (· == ' '))
  have hsplit : s = s.takeWhile (· == ' ') ++ (s.dropWhile (· == ' ')).takeWhile (· != ' ') ++
      behindWord (' ' :: s) := by
    rw [behindWord, List.dropWhile_cons_of_pos (by rfl), List.append_assoc, htable, hspaces]
  cases s with
  | nil => exact absurd rfl hne
  | cons c s =>
    refine ⟨c, (c :: s).takeWhile (· == ' ') ++
      ((c :: s).dropWhile (· == ' ')).takeWhile (· != ' ') |>.tail, ?_⟩
    by_cases hc : c = ' '
    · subst hc
      exact hsplit
    · rw [List.takeWhile_cons_of_neg (by simpa using hc),
        List.dropWhile_cons_of_neg (by simpa using hc),
        List.takeWhile_cons_of_pos (by simpa using hc)] at hsplit ⊢
      exact hsplit

/-- Behind the table of the join nothing is masked. -/
theorem maskJoinTable_behind (hword : word.map Text.foldToCapital = "JOIN".toList)
    (hafter : CountsRows (' ' :: after) after')
    (hplaces : ∀ n, JoinAt (before' ++ (word ++ after')) n → n ≤ before'.length + 5) :
    ColumnMap.maskJoinTable false (behindWord (' ' :: after)) = behindWord (' ' :: after) := by
  by_cases hne : behindWord (' ' :: after) = []
  · rw [hne, ColumnMap.maskJoinTable]
  · obtain ⟨c, front, hsplit⟩ := exists_of_behindWord hne
    generalize hrest : behindWord (' ' :: after) = rest at hsplit
    have hquery : ' ' :: after = ' ' :: c :: front ++ (rest ++ []) := by simp [hsplit]
    have hmask : ColumnMap.maskJoinTable false (rest ++ []) = _ :=
      maskJoinTable_append hquery (fun n hn hle => ?_) fun h => by cases h
    · rwa [List.append_nil, ColumnMap.maskJoinTable, List.append_nil] at hmask
    · exfalso
      obtain ⟨u, word', v, hquery, rfl, hword', hlast, hv⟩ := hn
      obtain ⟨inner, rfl⟩ : ' ' :: c :: front <+: u := by
        refine List.prefix_of_prefix_length_le ⟨rest, ?_⟩ ⟨_, hquery.symm⟩ hle
        rw [hsplit]
        rfl
      rw [hquery] at hafter
      obtain ⟨u', v', rfl, hu, hv'⟩ := hafter.word_join_left hword'
      have hgetLast := hu.getLast?_eq
      obtain ⟨others', rfl, hothers⟩ := hu.space_left
      have hne' : others' ≠ [] := by
        rintro rfl
        have hnone := hothers.getLast?_eq
        rw [List.getLast?_nil, List.getLast?_eq_none_iff] at hnone
        cases hnone
      have hle' := hplaces (before' ++ (word ++ ' ' :: others')).length
        ⟨_, word', v', by simp, rfl, hword', ?_, hv'.atDelimiter_eq ▸ hv⟩
      · have hpos := List.length_pos_iff.mpr hne'
        simp only [List.length_append, List.length_cons, length_of_join hword] at hle'
        omega
      · rw [List.getLast?_append_of_ne_nil _ (by simp), List.getLast?_append_of_ne_nil _ (by simp),
          ← hgetLast]
        exact hlast

theorem mentions_maskJoinTable_before (hname : ColumnMap.isIdentifier name)
    (hbefore : CountsRows before before') (hlast : ∀ c ∈ before.getLast?, c = ' ')
    (hplaces : ∀ n, JoinAt (before' ++ b) n → before'.length ≤ n) (h : Mentions name before') :
    Mentions name (ColumnMap.maskJoinTable true (before ++ a)) := by
  rw [maskJoinTable_before hbefore hlast hplaces]
  exact (hbefore.mentions hname h).append_right hlast hname _

theorem mentions_maskJoinTable_behind (hname : ColumnMap.isIdentifier name)
    (hword : word.map Text.foldToCapital = "JOIN".toList)
    (hbefore : CountsRows before before') (hafter : CountsRows after after')
    (hlast : ∀ c ∈ before.getLast?, c = ' ') (hdelimiter : Text.atDelimiter after' = true)
    (hplaces : ∀ n, JoinAt (before' ++ (word ++ after')) n →
      before'.length ≤ n ∧ n ≤ before'.length + 5)
    (h : Mentions name (behindWord after')) :
    Mentions name (ColumnMap.maskJoinTable true (before ++ (word ++ after))) := by
  have hfound := hafter.mentions_behindWord hname h
  have hne := hfound.ne_nil hname
  cases after' with
  | nil =>
    cases hafter
    exact absurd rfl hne
  | cons c rest' =>
    obtain rfl : c = ' ' := by simpa [Text.atDelimiter] using hdelimiter
    obtain ⟨rest, rfl, -⟩ := hafter.space_right
    obtain ⟨opening, hmask⟩ := exists_maskJoinTable_word hword hne
    rw [maskJoinTable_behind hword hafter fun n hn => (hplaces n hn).2] at hmask
    have hbehind := hfound.append_left (atDelimiter_behindWord _) hname (before ++ opening ++ ['_'])
    rw [maskJoinTable_before hbefore hlast fun n hn => (hplaces n hn).1, hmask]
    simpa using hbehind

end

/-! ## Names in the clauses of a query -/

/-- The texts of clauses in which expressions are looked for. -/
inductive Clauses.Reads (clauses : Clauses) : List Char → Prop
  | text (kind : ClauseKind) {t : List Char} (hkind : kind ≠ .join)
    (ht : clauses.text? kind = some t) : Reads clauses t
  | condition {t table condition : List Char} (ht : clauses.text? .join = some t)
    (hdivide : JoinSpec.divide? t = some (table, condition)) : Reads clauses condition

theorem Clauses.Reads.isSection (h : clauses.Reads t)
    (hlocate : Clauses.locate query = .ok clauses) : IsSection t query := by
  obtain ⟨places, -, hprecedes⟩ := Clauses.exists_precedes_of_locate hlocate
  cases h with
  | text kind hkind ht =>
    obtain ⟨place, -, -, hplace⟩ := hprecedes ht
    exact hplace.behind 0 (Nat.zero_le _)
  | condition ht hdivide =>
    obtain ⟨place, -, -, hplace⟩ := hprecedes ht
    obtain ⟨front, back, rfl, -, hcondition⟩ := JoinSpec.exists_of_divide? hdivide
    exact (hcondition.trans (isSection_append_cons edge_space front back)).trans
      (hplace.behind 0 (Nat.zero_le _))

/-- What stands behind a later keyword stands behind the first word. -/
theorem mentions_behindWord_of_standsIn {place : KeywordPlace}
    (hname : ColumnMap.isIdentifier name) (hplace : place.StandsIn query) {n : Nat}
    (hn : n ≤ place.start) (h : Mentions name (query.drop place.stop)) :
    Mentions name (behindWord (query.drop n)) := by
  obtain ⟨before, keyword, after, rfl, hstart, hstop, -, hafter, hkeyword⟩ := hplace
  have hdrop : (before ++ (keyword ++ after)).drop place.stop = after := by
    rw [hstop, ← List.append_assoc, ← List.length_append, List.drop_left]
  have hfront : (before ++ (keyword ++ after)).drop n = (before.drop n ++ keyword) ++ after := by
    rw [List.drop_append_of_le_length (hstart ▸ hn), List.append_assoc]
  obtain ⟨c, others, rfl⟩ := List.exists_cons_of_ne_nil hkeyword.ne_nil
  obtain ⟨front, hbehind⟩ := exists_behindWord_append
    ⟨c, List.mem_append_right (before.drop n) List.mem_cons_self, hkeyword.tight.1 c rfl⟩ hafter
  rw [hdrop] at h
  rw [hfront, hbehind]
  exact h.append_left hafter hname front

/-- So does the condition of a join. -/
theorem mentions_behindWord_of_divide? {text table condition : List Char}
    (hname : ColumnMap.isIdentifier name) (htext : IsSection text query)
    (hdivide : JoinSpec.divide? text = some (table, condition)) (h : Mentions name condition) :
    Mentions name (behindWord query) := by
  obtain ⟨hne, -⟩ := ColumnMap.chars_of_isIdentifier hname
  obtain ⟨front, back, rfl, ⟨c, hc, hspace⟩, hcondition⟩ := JoinSpec.exists_of_divide? hdivide
  obtain ⟨before, after, rfl, -, hafter⟩ := htext (by simp)
  obtain ⟨opening, hbehind⟩ := exists_behindWord_append (a := before ++ front)
    (b := ' ' :: (back ++ after)) ⟨c, List.mem_append_right _ hc, hspace⟩ rfl
  have hback : IsSection back (opening ++ ' ' :: (back ++ after)) :=
    IsSection.trans (fun _ => ⟨[], after, rfl, nofun, hafter⟩)
      (isSection_append_cons edge_space opening (back ++ after))
  have hquery : before ++ (front ++ ' ' :: back ++ after) =
      before ++ front ++ ' ' :: (back ++ after) := by simp
  rw [hquery, hbehind]
  exact h.of_isSection hne (hcondition.trans hback)

/-- A name that an expression of a clause mentions is mentioned in the masked text. -/
theorem Clauses.Reads.mentions_maskJoinTable (hname : ColumnMap.isIdentifier name)
    (hlocate : Clauses.locate (Plan.countRows s) = .ok clauses) (hread : clauses.Reads t)
    (h : Mentions name t) : Mentions name (ColumnMap.maskJoinTable true s) := by
  obtain ⟨hne, -⟩ := ColumnMap.chars_of_isIdentifier hname
  obtain ⟨places, hplaces, hprecedes⟩ := Clauses.exists_precedes_of_locate hlocate
  have hcounts := countsRows_countRows s
  generalize Plan.countRows s = query at hplaces hprecedes hcounts
  obtain ⟨found, hone, hmem⟩ := KeywordPlace.exists_one?_of_all hplaces .join
  cases found with
  | none =>
    rw [maskJoinTable_eq_self hcounts hone]
    cases hread with
    | text kind hkind ht =>
      obtain ⟨place, -, -, hplace⟩ := hprecedes ht
      exact hcounts.mentions hname (h.of_isSection hne (hplace.behind 0 (Nat.zero_le _)))
    | condition ht hdivide =>
      obtain ⟨place, hp, hkind, -⟩ := hprecedes ht
      obtain ⟨hsome, -⟩ := KeywordPlace.one?_of_mem_all hplaces hp
      rw [hkind, hone] at hsome
      cases hsome
  | some found =>
    obtain ⟨-, hkindFound, hfound⟩ := KeywordPlace.exists_of_one? hone
    obtain ⟨before', word, after', hquery, hword, hlast, hdelimiter, hstart, hstop⟩ :=
      exists_joinAt hone
    have hjoins : ∀ n, JoinAt (before' ++ (word ++ after')) n →
        before'.length ≤ n ∧ n ≤ before'.length + 5 := by
      intro n hn
      obtain ⟨hle, hge⟩ := le_of_joinAt hone (hquery ▸ hn)
      omega
    have hafter : query.drop found.stop = after' := by
      rw [hstop, hquery, ← length_of_join hword, ← List.length_append, ← List.append_assoc,
        List.drop_left]
    obtain ⟨before, after, rfl, hbefore, hbehind⟩ := (hquery ▸ hcounts).word_join_right hword
    have hlast' : ∀ c ∈ before.getLast?, c = ' ' := hbefore.getLast?_eq ▸ hlast
    have hright : Mentions name (behindWord after') →
        Mentions name (ColumnMap.maskJoinTable true (before ++ (word ++ after))) :=
      mentions_maskJoinTable_behind hname hword hbefore hbehind hlast' hdelimiter hjoins
    cases hread with
    | text kind hkind ht =>
      obtain ⟨place, hp, rfl, hplace⟩ := hprecedes ht
      obtain ⟨-, hstands⟩ := KeywordPlace.one?_of_mem_all hplaces hp
      by_cases hlt : place.start < found.start
      · obtain ⟨-, hsection⟩ := hplace.before found (hmem found rfl) hlt
        have hmention := h.of_isSection hne (hsection before'.length hstart)
        rw [hquery, List.take_left] at hmention
        exact mentions_maskJoinTable_before hname hbefore hlast' (fun n hn => (hjoins n hn).1)
          hmention
      · have hge : found.stop ≤ place.start := by
          by_contra hinside
          exact hkind (hkindFound ▸ (KeywordPlace.kind_eq_of_start_lt_stop hfound hstands
            (Nat.not_lt.mp hlt) (Nat.not_le.mp hinside)).symm)
        have hmention := h.of_isSection hne (hplace.behind place.stop (Nat.le_refl _))
        exact hright (hafter ▸ mentions_behindWord_of_standsIn hname hstands hge hmention)
    | condition ht hdivide =>
      obtain ⟨place, hp, hkind, hplace⟩ := hprecedes ht
      obtain ⟨hsome, -⟩ := KeywordPlace.one?_of_mem_all hplaces hp
      rw [hkind, hone] at hsome
      cases hsome
      exact hright (mentions_behindWord_of_divide? hname
        (hafter ▸ hplace.behind found.stop (Nat.le_refl _)) hdivide h)

end TableQuery
