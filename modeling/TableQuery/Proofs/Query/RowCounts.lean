import TableQuery.Proofs.Query.ColumnMaps
import TableQuery.Proofs.Query.Mentions
import TableQuery.Proofs.Text.CapitalWords
import TableQuery.Query.Plan

/-!
# Texts that count rows

Before its clauses are found, a query has `COUNT(1)` in place of `COUNT(*)`.  The two texts
stand beside each other piece by piece.  A name that is not called is mentioned in the first
one only if it is in the second, and a word that begins with another letter stands in both.
-/

namespace TableQuery

variable {s t a b word name : List Char}

/-- Whether a text is `COUNT(*)`, in any letter case, with spaces before and inside of the
brackets. -/
structure IsRowCount (s : List Char) : Prop where
  last : s.getLast? = some ')'
  head : ∀ c ∈ s.head?, Text.foldToCapital c = 'C'
  tail : ∀ c ∈ s.tail, Text.foldToCapital c ≠ 'C' ∧ Text.foldToCapital c ≠ 'J'

/-- How a query counts rows after the rewriting. -/
def rowCount : List Char :=
  "COUNT(1)".toList

/-- Whether a text becomes another one when it counts rows. -/
inductive CountsRows : List Char → List Char → Prop
  | nil : CountsRows [] []
  | char (c : Char) {s t : List Char} (h : CountsRows s t) : CountsRows (c :: s) (c :: t)
  | rows {call s t : List Char} (hcall : IsRowCount call) (h : CountsRows s t) :
    CountsRows (call ++ s) (rowCount ++ t)

theorem exists_of_mark {mark : Char} {rest : List Char}
    (h : [mark].isPrefixOf? (s.dropWhile (· == ' ')) = some rest) :
    ∃ spaces, s = spaces ++ mark :: rest ∧ ∀ c ∈ spaces, c = ' ' := by
  refine ⟨s.takeWhile (· == ' '), ?_, fun c hc => ?_⟩
  · have hsplit := List.takeWhile_append_dropWhile (p := (· == ' ')) (l := s)
    rw [Text.eq_append_of_isPrefixOf? h] at hsplit
    exact hsplit.symm
  · exact eq_of_beq (List.all_eq_true.mp List.all_takeWhile c hc)

theorem exists_of_dropCountStar? {rest : List Char} (h : Plan.dropCountStar? s = some rest) :
    ∃ call, s = call ++ rest ∧ IsRowCount call := by
  obtain ⟨behind, hword, h⟩ := Option.bind_eq_some_iff.mp h
  obtain ⟨opened, hopen, h⟩ := Option.bind_eq_some_iff.mp h
  obtain ⟨starred, hstar, hclose⟩ := Option.bind_eq_some_iff.mp h
  obtain ⟨word, hletters, rfl⟩ := Text.dropWord?_eq_some_iff.mp hword
  obtain ⟨before, rfl, hbefore⟩ := exists_of_mark hopen
  obtain ⟨inside, rfl, hinside⟩ := exists_of_mark hstar
  obtain ⟨behind, rfl, hbehind⟩ := exists_of_mark hclose
  obtain ⟨d, letters, rfl, hd, hletters⟩ : ∃ d letters, word = d :: letters ∧
      Text.foldToCapital d = 'C' ∧ letters.map Text.foldToCapital = "OUNT".toList :=
    List.map_eq_cons_iff.mp hletters
  refine ⟨d :: letters ++ (before ++ '(' :: (inside ++ '*' :: (behind ++ [')']))), by simp, ?_, ?_,
    fun c hc => ?_⟩
  · simp [List.getLast?_append, List.getLast?_cons]
  · rintro c ⟨⟩
    exact hd
  · have hfold : Text.foldToCapital c ∈ "OUNT".toList ∨ c ∈ [' ', '(', '*', ')'] := by
      simp only [List.cons_append, List.tail_cons, List.mem_append, List.mem_cons,
        List.not_mem_nil, or_false] at hc
      rcases hc with hc | hc | rfl | hc | rfl | hc | rfl
      · exact .inl (hletters ▸ List.mem_map_of_mem hc)
      · exact .inr (by simp [hbefore c hc])
      · exact .inr (by simp)
      · exact .inr (by simp [hinside c hc])
      · exact .inr (by simp)
      · exact .inr (by simp [hbehind c hc])
      · exact .inr (by simp)
    rcases hfold with hfold | hmem
    · constructor <;> (intro heq; rw [heq] at hfold; exact absurd hfold (by decide))
    · simp only [List.mem_cons, List.not_mem_nil, or_false] at hmem
      rcases hmem with rfl | rfl | rfl | rfl <;> decide

theorem countsRows_countRowsFrom (inWord : Bool) (skip : Nat) (s : List Char) :
    CountsRows (s.drop skip) (Plan.countRowsFrom inWord skip s) := by
  induction s generalizing inWord skip with
  | nil =>
    rw [List.drop_nil]
    exact .nil
  | cons c s ih =>
    rw [Plan.countRowsFrom]
    split
    · next hskip =>
      obtain ⟨skip, rfl⟩ := Nat.exists_eq_add_one.mpr hskip
      exact ih false skip
    · next hskip =>
      obtain rfl : skip = 0 := by omega
      rw [List.drop_zero]
      split
      · next rest hrest =>
        have hfound : Plan.dropCountStar? (c :: s) = some rest := by
          split at hrest
          · cases hrest
          · exact hrest
        obtain ⟨call, heq, hcall⟩ := exists_of_dropCountStar? hfound
        obtain ⟨d, call, rfl⟩ : ∃ d others, call = d :: others := by
          refine List.exists_cons_of_ne_nil ?_
          rintro rfl
          cases hcall.last
        have hlater := ih false (s.length - rest.length)
        obtain ⟨rfl, rfl⟩ := List.cons.inj heq
        rw [heq]
        refine .rows hcall ?_
        have hdrop :
            ((call.append rest).drop ((call.append rest).length - rest.length)) = rest := by
          simp
        rwa [hdrop] at hlater
      · exact (ih _ 0).char c

theorem countsRows_countRows (s : List Char) : CountsRows s (Plan.countRows s) :=
  countsRows_countRowsFrom false 0 s

/-! ## Pieces of both texts -/

theorem isRowCount_rowCount : IsRowCount rowCount where
  last := rfl
  head := by
    rintro c ⟨⟩
    rfl
  tail c hc := by
    have hall : rowCount.tail.all fun c =>
        Text.foldToCapital c != 'C' && Text.foldToCapital c != 'J' := by decide
    simpa using List.all_eq_true.mp hall c hc

theorem IsRowCount.exists_cons {call : List Char} (h : IsRowCount call) :
    ∃ c others, call = c :: others ∧ c ≠ ' ' := by
  cases call with
  | nil => cases h.last
  | cons c call =>
    refine ⟨c, call, rfl, ?_⟩
    rintro rfl
    exact absurd (h.head ' ' rfl) (by decide)

/-- A text that begins with the letter J does not begin inside of a count of rows. -/
theorem IsRowCount.eq_append {call : List Char} (hcall : IsRowCount call)
    (hb : ∀ c ∈ b.head?, Text.foldToCapital c = 'J') (h : a ++ b = call ++ t) :
    a = [] ∨ ∃ a', a = call ++ a' ∧ t = a' ++ b := by
  rcases List.append_eq_append_iff.mp h with ⟨inner, rfl, rfl⟩ | ⟨a', rfl, rfl⟩
  · cases a with
    | nil => exact .inl rfl
    | cons c a =>
      cases inner with
      | nil => exact .inr ⟨[], by simp, by simp⟩
      | cons d inner =>
        exact absurd (hb d rfl) (hcall.tail d (by simp)).2
  · exact .inr ⟨a', rfl, rfl⟩

theorem head?_word_append (hword : word.map Text.foldToCapital = "JOIN".toList) (s : List Char) :
    ∀ c ∈ (word ++ s).head?, Text.foldToCapital c = 'J' := by
  obtain ⟨d, letters, rfl, hd, -⟩ : ∃ d letters, word = d :: letters ∧
      Text.foldToCapital d = 'J' ∧ letters.map Text.foldToCapital = "OIN".toList :=
    List.map_eq_cons_iff.mp hword
  rintro c ⟨⟩
  exact hd

theorem ne_of_mem_word (hword : word.map Text.foldToCapital = "JOIN".toList) :
    ∀ c ∈ word, Text.foldToCapital c ≠ 'C' := by
  intro c hc heq
  have hmem : Text.foldToCapital c ∈ "JOIN".toList := hword ▸ List.mem_map_of_mem hc
  rw [heq] at hmem
  exact absurd hmem (by decide)

namespace CountsRows

theorem isQuote_eq_false (h : CountsRows s t) (hs : ∀ c ∈ s, Token.isQuote c = false) :
    ∀ c ∈ t, Token.isQuote c = false := by
  induction h with
  | nil => exact hs
  | char c h ih =>
    obtain ⟨hc, hs⟩ := List.forall_mem_cons.mp hs
    exact List.forall_mem_cons.mpr ⟨hc, ih hs⟩
  | rows hcall h ih =>
    have hcount : rowCount.all (!Token.isQuote ·) := rfl
    obtain ⟨-, hs⟩ := List.forall_mem_append.mp hs
    refine List.forall_mem_append.mpr ⟨fun c hc => ?_, ih hs⟩
    simpa using List.all_eq_true.mp hcount c hc

theorem getLast?_eq (h : CountsRows s t) : s.getLast? = t.getLast? := by
  induction h with
  | nil => rfl
  | char c h ih => rw [List.getLast?_cons, List.getLast?_cons, ih]
  | rows hcall h ih =>
    rw [List.getLast?_append, List.getLast?_append, ih, hcall.last, isRowCount_rowCount.last]

theorem split_left (h : CountsRows s t) (hs : s = a ++ b)
    (hb : ∀ c ∈ b.head?, Text.foldToCapital c = 'J') :
    ∃ u v, t = u ++ v ∧ CountsRows a u ∧ CountsRows b v := by
  induction h generalizing a with
  | nil =>
    obtain ⟨rfl, rfl⟩ := List.append_eq_nil_iff.mp hs.symm
    exact ⟨[], [], rfl, .nil, .nil⟩
  | @char c s t h ih =>
    cases a with
    | nil =>
      obtain rfl : b = c :: s := hs.symm
      exact ⟨[], c :: t, rfl, .nil, h.char c⟩
    | cons d a =>
      obtain ⟨rfl, rfl⟩ := List.cons.inj hs
      obtain ⟨u, v, rfl, ha, hv⟩ := ih rfl
      exact ⟨c :: u, v, rfl, ha.char c, hv⟩
  | @rows call s t hcall h ih =>
    rcases hcall.eq_append hb hs.symm with rfl | ⟨a, rfl, rfl⟩
    · obtain rfl : b = call ++ s := hs.symm
      exact ⟨[], _, rfl, .nil, h.rows hcall⟩
    · obtain ⟨u, v, rfl, ha, hv⟩ := ih rfl
      exact ⟨_, v, (List.append_assoc _ _ _).symm, ha.rows hcall, hv⟩

theorem split_right (h : CountsRows s t) (ht : t = a ++ b)
    (hb : ∀ c ∈ b.head?, Text.foldToCapital c = 'J') :
    ∃ u v, s = u ++ v ∧ CountsRows u a ∧ CountsRows v b := by
  induction h generalizing a with
  | nil =>
    obtain ⟨rfl, rfl⟩ := List.append_eq_nil_iff.mp ht.symm
    exact ⟨[], [], rfl, .nil, .nil⟩
  | @char c s t h ih =>
    cases a with
    | nil =>
      obtain rfl : b = c :: t := ht.symm
      exact ⟨[], c :: s, rfl, .nil, h.char c⟩
    | cons d a =>
      obtain ⟨rfl, rfl⟩ := List.cons.inj ht
      obtain ⟨u, v, rfl, ha, hv⟩ := ih rfl
      exact ⟨c :: u, v, rfl, ha.char c, hv⟩
  | @rows call s t hcall h ih =>
    rcases isRowCount_rowCount.eq_append hb ht.symm with rfl | ⟨a, rfl, rfl⟩
    · obtain rfl : b = rowCount ++ t := ht.symm
      exact ⟨[], _, rfl, .nil, h.rows hcall⟩
    · obtain ⟨u, v, rfl, ha, hv⟩ := ih rfl
      exact ⟨_, v, (List.append_assoc _ _ _).symm, ha.rows hcall, hv⟩

theorem word_left (h : CountsRows (word ++ s) t)
    (hword : ∀ c ∈ word, Text.foldToCapital c ≠ 'C') :
    ∃ t', t = word ++ t' ∧ CountsRows s t' := by
  induction word generalizing t with
  | nil => exact ⟨t, rfl, h⟩
  | cons c word ih =>
    obtain ⟨hc, hword⟩ := List.forall_mem_cons.mp hword
    generalize hwhole : c :: word ++ s = whole at h
    cases h with
    | nil => cases hwhole
    | char d h =>
      obtain ⟨rfl, rfl⟩ := List.cons.inj hwhole
      obtain ⟨t', rfl, ht⟩ := ih h hword
      exact ⟨t', rfl, ht⟩
    | @rows call _ _ hcall h =>
      cases call with
      | nil => cases hcall.last
      | cons d call =>
        obtain ⟨rfl, -⟩ := List.cons.inj hwhole
        exact absurd (hcall.head c rfl) hc

theorem word_right (h : CountsRows s (word ++ t))
    (hword : ∀ c ∈ word, Text.foldToCapital c ≠ 'C') :
    ∃ s', s = word ++ s' ∧ CountsRows s' t := by
  induction word generalizing s with
  | nil => exact ⟨s, rfl, h⟩
  | cons c word ih =>
    obtain ⟨hc, hword⟩ := List.forall_mem_cons.mp hword
    generalize hwhole : c :: word ++ t = whole at h
    cases h with
    | nil => cases hwhole
    | char d h =>
      obtain ⟨rfl, rfl⟩ := List.cons.inj hwhole
      obtain ⟨s', rfl, hs⟩ := ih h hword
      exact ⟨s', rfl, hs⟩
    | rows hcall h =>
      obtain rfl : c = 'C' := (List.cons.inj hwhole).1
      exact absurd rfl hc

theorem space_left (h : CountsRows (' ' :: s) t) : ∃ t', t = ' ' :: t' ∧ CountsRows s t' := by
  have hspace : CountsRows ([' '] ++ s) t := h
  exact hspace.word_left (List.forall_mem_singleton.mpr (by decide))

theorem space_right (h : CountsRows s (' ' :: t)) : ∃ s', s = ' ' :: s' ∧ CountsRows s' t := by
  have hspace : CountsRows s ([' '] ++ t) := h
  exact hspace.word_right (List.forall_mem_singleton.mpr (by decide))

theorem word_join_left {u v : List Char} (h : CountsRows (u ++ (word ++ v)) t)
    (hword : word.map Text.foldToCapital = "JOIN".toList) :
    ∃ u' v', t = u' ++ (word ++ v') ∧ CountsRows u u' ∧ CountsRows v v' := by
  obtain ⟨u', rest, rfl, hu, hrest⟩ := h.split_left rfl (head?_word_append hword v)
  obtain ⟨v', rfl, hv⟩ := hrest.word_left (ne_of_mem_word hword)
  exact ⟨u', v', rfl, hu, hv⟩

theorem word_join_right {u v : List Char} (h : CountsRows s (u ++ (word ++ v)))
    (hword : word.map Text.foldToCapital = "JOIN".toList) :
    ∃ u' v', s = u' ++ (word ++ v') ∧ CountsRows u' u ∧ CountsRows v' v := by
  obtain ⟨u', rest, rfl, hu, hrest⟩ := h.split_right rfl (head?_word_append hword v)
  obtain ⟨v', rfl, hv⟩ := hrest.word_right (ne_of_mem_word hword)
  exact ⟨u', v', rfl, hu, hv⟩

/-! ## Spaces -/

theorem atDelimiter_eq (h : CountsRows s t) : Text.atDelimiter s = Text.atDelimiter t := by
  cases h with
  | nil => rfl
  | char c h => rfl
  | rows hcall h =>
    obtain ⟨c, call, rfl, hc⟩ := hcall.exists_cons
    exact beq_eq_false_iff_ne.mpr hc

theorem dropSpaces (h : CountsRows s t) :
    CountsRows (s.dropWhile (· == ' ')) (t.dropWhile (· == ' ')) := by
  induction h with
  | nil => exact .nil
  | @char c s t h ih =>
    by_cases hc : c = ' '
    · subst hc
      exact ih
    · rw [List.dropWhile_cons_of_neg (by simpa using hc),
        List.dropWhile_cons_of_neg (by simpa using hc)]
      exact h.char c
  | @rows call s t hcall h ih =>
    obtain ⟨c, call, rfl, hc⟩ := hcall.exists_cons
    rw [List.cons_append, List.dropWhile_cons_of_neg (by simpa using hc), ← List.cons_append]
    exact h.rows hcall

/-- What stands behind the first word of the new text stands at the end of what stands behind
that of the old one. -/
theorem exists_dropWord (h : CountsRows s t) :
    ∃ front rest, s.dropWhile (· != ' ') = front ++ rest ∧
      CountsRows rest (t.dropWhile (· != ' ')) := by
  induction h with
  | nil => exact ⟨[], [], rfl, .nil⟩
  | @char c s t h ih =>
    by_cases hc : c = ' '
    · subst hc
      exact ⟨[], ' ' :: s, rfl, h.char ' '⟩
    · rw [List.dropWhile_cons_of_pos (by simpa using hc),
        List.dropWhile_cons_of_pos (by simpa using hc)]
      exact ih
  | @rows call s t hcall h ih =>
    obtain ⟨front, rest, hdrop, hrest⟩ := ih
    have hcount : (rowCount ++ t).dropWhile (· != ' ') = t.dropWhile (· != ' ') :=
      List.dropWhile_append_of_pos (List.all_eq_true.mp (by decide))
    rw [hcount]
    by_cases hspace : ' ' ∈ call
    · have hne : (call.dropWhile (· != ' ')).isEmpty = false := by
        rw [List.isEmpty_eq_false_iff, Ne, List.dropWhile_eq_nil_iff]
        exact fun hall => absurd (hall ' ' hspace) (by decide)
      refine ⟨call.dropWhile (· != ' ') ++ (s.takeWhile (· != ' ') ++ front), rest, ?_, hrest⟩
      rw [List.dropWhile_append, hne]
      simp only [Bool.false_eq_true, if_false, List.append_assoc, ← hdrop,
        List.takeWhile_append_dropWhile]
    · refine ⟨front, rest, ?_, hrest⟩
      rw [List.dropWhile_append_of_pos, hdrop]
      exact fun c hc => bne_iff_ne.mpr (ne_of_mem_of_not_mem hc hspace)

/-! ## Names -/

theorem closesName_drop_rowCount : ∀ n < 9, 0 < n → (rowCount.take n).all Token.isNamePart →
    (rowCount.drop n).head?.all closesName = false := by
  decide

theorem opensName_take_rowCount : ∀ n < 8, 0 < n → (rowCount.take n).getLast?.all opensName →
    (rowCount.drop n).head? = some '1' := by
  decide

/-- No name ends inside of a count of rows, unless it is called. -/
theorem append_ne_rowCount_append {after : List Char} (hne : name ≠ [])
    (hparts : ∀ c ∈ name, Token.isNamePart c) (hafter : ∀ c ∈ after.head?, closesName c)
    (t : List Char) : name ++ after ≠ rowCount ++ t := by
  intro h
  rcases List.append_eq_append_iff.mp h with ⟨inner, hcount, rfl⟩ | ⟨name', rfl, -⟩
  · have hle : name.length < 9 := by
      have hlength := congrArg List.length hcount
      rw [List.length_append] at hlength
      exact Nat.lt_succ_of_le (Nat.le.intro hlength.symm)
    have hcloses := closesName_drop_rowCount name.length hle (List.length_pos_iff.mpr hne)
    rw [hcount, List.take_left, List.drop_left, List.all_eq_true] at hcloses
    have hfalse := hcloses hparts
    cases inner with
    | nil => cases hfalse
    | cons c inner => exact absurd (hafter c rfl) (by simpa using hfalse)
  · have hparen : '(' ∈ rowCount := by decide
    exact absurd (hparts '(' (List.mem_append_left _ hparen)) (by decide)

/-- A name stands in both texts. -/
theorem name_right {after : List Char} (h : CountsRows s (name ++ after))
    (hparts : ∀ c ∈ name, Token.isNamePart c) (hafter : ∀ c ∈ after.head?, closesName c) :
    ∃ after', s = name ++ after' ∧ ∀ c ∈ after'.head?, closesName c := by
  induction name generalizing s with
  | nil =>
    refine ⟨s, rfl, ?_⟩
    cases h with
    | nil => exact hafter
    | char c h => exact hafter
    | rows hcall h => exact absurd (hafter 'C' rfl) (by decide)
  | cons c name ih =>
    have hcount := append_ne_rowCount_append (List.cons_ne_nil c name) hparts hafter
    generalize hwhole : c :: name ++ after = whole at h hcount
    cases h with
    | nil => cases hwhole
    | char d h =>
      obtain ⟨rfl, rfl⟩ := List.cons.inj hwhole
      obtain ⟨after', rfl, hcloses⟩ := ih h (List.forall_mem_cons.mp hparts).2
      exact ⟨after', rfl, hcloses⟩
    | rows hcall h => exact absurd rfl (hcount _)

/-- A name does not begin inside of a count of rows. -/
theorem exists_append_of_rowCount {before after : List Char} (hne : name ≠ [])
    (hparts : ∀ c ∈ name, Token.isNamePart c) (hdigit : name.head? ≠ some '1')
    (hbefore : ∀ c ∈ before.getLast?, opensName c) (hafter : ∀ c ∈ after.head?, closesName c)
    (h : rowCount ++ t = before ++ (name ++ after)) :
    ∃ before', before = rowCount ++ before' ∧ t = before' ++ (name ++ after) := by
  rcases List.append_eq_append_iff.mp h with hsplit | ⟨inner, hcount, hrest⟩
  · exact hsplit
  · cases before with
    | nil => exact absurd h.symm (append_ne_rowCount_append hne hparts hafter t)
    | cons c before =>
      cases inner with
      | nil => exact ⟨[], by simpa using hcount.symm, hrest.symm⟩
      | cons d inner =>
        have hle : (c :: before).length < 8 := by
          have hlength := congrArg List.length hcount
          rw [List.length_append] at hlength
          exact Nat.lt_of_lt_of_eq (Nat.lt_add_of_pos_right (Nat.succ_pos _)) hlength.symm
        have hhead := opensName_take_rowCount (c :: before).length hle (Nat.succ_pos _)
        rw [hcount, List.take_left, List.drop_left, Option.all_eq_true] at hhead
        have hd := hhead hbefore
        obtain ⟨first, others, rfl⟩ := List.exists_cons_of_ne_nil hne
        obtain ⟨rfl, -⟩ := List.cons.inj hrest
        exact absurd hd hdigit

/-- A name that is mentioned, and not called, is mentioned before the rewriting. -/
theorem exists_mention {before after : List Char} (h : CountsRows s t)
    (ht : t = before ++ (name ++ after)) (hne : name ≠ [])
    (hparts : ∀ c ∈ name, Token.isNamePart c) (hdigit : name.head? ≠ some '1')
    (hbefore : ∀ c ∈ before.getLast?, opensName c) (hafter : ∀ c ∈ after.head?, closesName c) :
    ∃ before' after', s = before' ++ (name ++ after') ∧ before'.getLast? = before.getLast? ∧
      ∀ c ∈ after'.head?, closesName c := by
  induction h generalizing before with
  | nil => simp [hne] at ht
  | @char c s t h ih =>
    cases before with
    | nil =>
      obtain ⟨after', hs, hcloses⟩ := name_right (ht ▸ h.char c) hparts hafter
      exact ⟨[], after', hs, rfl, hcloses⟩
    | cons d before =>
      obtain ⟨rfl, rfl⟩ := List.cons.inj ht
      obtain ⟨before', after', rfl, hlast, hcloses⟩ := ih rfl
        fun d hd => hbefore d (by rw [List.getLast?_cons, Option.mem_def.mp hd]; rfl)
      exact ⟨c :: before', after', rfl, by rw [List.getLast?_cons, List.getLast?_cons, hlast],
        hcloses⟩
  | @rows call s t hcall h ih =>
    obtain ⟨before, rfl, rfl⟩ := exists_append_of_rowCount hne hparts hdigit hbefore hafter ht
    obtain ⟨before', after', rfl, hlast, hcloses⟩ := ih rfl
      fun d hd => hbefore d (by rw [List.getLast?_append, Option.mem_def.mp hd]; rfl)
    refine ⟨call ++ before', after', by simp, ?_, hcloses⟩
    rw [List.getLast?_append, List.getLast?_append, hlast, hcall.last, isRowCount_rowCount.last]

theorem mentions (h : CountsRows s t) (hname : ColumnMap.isIdentifier name)
    (ht : Mentions name t) : Mentions name s := by
  obtain ⟨hne, hparts, hdigit⟩ := ColumnMap.chars_of_isIdentifier hname
  obtain ⟨before, after, heq, hbefore, hafter⟩ := ht
  obtain ⟨before', after', rfl, hlast, hcloses⟩ :=
    h.exists_mention heq hne hparts hdigit hbefore hafter
  exact ⟨before', after', rfl, hlast ▸ hbefore, hcloses⟩

end CountsRows
end TableQuery
