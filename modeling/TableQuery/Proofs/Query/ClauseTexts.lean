import TableQuery.Proofs.Expression.Lexing
import TableQuery.Proofs.Query.WrittenClauses

/-!
# Words beside the text of a clause

A row limit, the word `distinct` and the direction of an order stand in a clause beside its
text.  They are not part of any keyword, so that they do not disturb the scans, and they are
told from the text by its first or its last word.
-/

namespace TableQuery

/-! ## Words that are not part of a keyword -/

theorem ne_space_of_isBlank_eq_false {c : Char} (h : Text.isBlank c = false) : c ≠ ' ' := by
  rintro rfl
  revert h
  decide

/-- A word that is not part of a keyword in any letter case. -/
structure IsNeutral (word : List Char) : Prop where
  ne_nil : word ≠ []
  unblank : ∀ c ∈ word, Text.isBlank c = false
  notMem_forms : ∀ kind : ClauseKind, ∀ form ∈ kind.forms, word.map Text.foldToCapital ∉ form.2

namespace IsNeutral

variable {word text : List Char}

theorem space_notMem (h : IsNeutral word) : ' ' ∉ word :=
  fun hspace => ne_space_of_isBlank_eq_false (h.unblank ' ' hspace) rfl

theorem capitalWords_append (h : IsNeutral word) (text : List Char) :
    Text.capitalWords (word ++ ' ' :: text) =
      word.map Text.foldToCapital :: Text.capitalWords text := by
  rw [Text.capitalWords_word_append h.ne_nil h.space_notMem rfl, Text.capitalWords_cons_space]

theorem capitalWords_eq (h : IsNeutral word) :
    Text.capitalWords word = [word.map Text.foldToCapital] :=
  Text.capitalWords_of_notMem h.ne_nil h.space_notMem

/-- The words that a keyword can go on from are parts of keywords. -/
theorem notMem_openWords (h : IsNeutral word) :
    word.map Text.foldToCapital ∉ ClauseKind.openWords := by
  have hopen : ∀ word ∈ ClauseKind.openWords, ∃ form ∈ ClauseKind.join.forms, word ∈ form.2 := by
    decide
  intro hmem
  obtain ⟨form, hform, hword⟩ := hopen _ hmem
  exact h.notMem_forms .join form hform hword

theorem trim_eq (h : IsNeutral word) : Text.trim word = word :=
  Text.trim_eq_self_iff.mpr ⟨fun c hc => h.unblank c (List.mem_of_mem_head? hc),
    fun c hc => h.unblank c (List.mem_of_mem_getLast? hc)⟩

/-- Such a word is a clause text. -/
theorem isClauseText (h : IsNeutral word) : IsClauseText word where
  ne_nil := h.ne_nil
  trimmed := h.trim_eq
  keywordless kind form hform hwithin := by
    obtain ⟨first, hfirst⟩ := List.exists_mem_of_ne_nil _ (kind.words_of_mem_forms form hform).1
    rw [h.capitalWords_eq] at hwithin
    refine h.notMem_forms kind form hform ?_
    rwa [← List.mem_singleton.mp (hwithin.subset hfirst)]
  closed last hlast := by
    rw [h.capitalWords_eq] at hlast
    obtain rfl := Option.mem_some.mp hlast
    exact h.notMem_openWords

/-- A clause text with such a word in front of it is a clause text. -/
theorem isClauseText_append (h : IsNeutral word) (htext : IsClauseText text) :
    IsClauseText (word ++ ' ' :: text) where
  ne_nil := List.append_ne_nil_of_left_ne_nil h.ne_nil _
  trimmed := Text.trim_append_cons h.trim_eq htext.trimmed h.ne_nil htext.ne_nil ' '
  keywordless kind form hform hwithin := by
    rw [h.capitalWords_append] at hwithin
    rcases List.infix_cons_iff.mp hwithin with hfront | hwithin
    · obtain ⟨first, others, hfirst⟩ :=
        List.exists_cons_of_ne_nil (kind.words_of_mem_forms form hform).1
      rw [hfirst, List.cons_prefix_cons] at hfront
      refine h.notMem_forms kind form hform ?_
      rw [hfirst, hfront.1]
      exact List.mem_cons_self
    · exact htext.keywordless kind form hform hwithin
  closed last hlast := by
    rw [h.capitalWords_append, List.getLast?_cons] at hlast
    obtain rfl := Option.some.inj hlast
    cases hwords : (Text.capitalWords text).getLast? with
    | none => exact h.notMem_openWords
    | some last => exact htext.closed last hwords

/-- A clause text with such a word behind it is a clause text. -/
theorem isClauseText_concat (h : IsNeutral word) (htext : IsClauseText text) :
    IsClauseText (text ++ ' ' :: word) where
  ne_nil := List.append_ne_nil_of_left_ne_nil htext.ne_nil _
  trimmed := Text.trim_append_cons htext.trimmed h.trim_eq htext.ne_nil h.ne_nil ' '
  keywordless kind form hform hwithin := by
    rw [Text.capitalWords_append_cons, h.capitalWords_eq] at hwithin
    rcases List.infix_concat_iff.mp hwithin with hsuffix | hwithin
    · rcases List.suffix_concat_iff.mp hsuffix with hnil | ⟨before, hbefore, -⟩
      · exact (kind.words_of_mem_forms form hform).1 hnil
      · refine h.notMem_forms kind form hform ?_
        rw [hbefore]
        exact List.mem_append_right before List.mem_cons_self
    · exact htext.keywordless kind form hform hwithin
  closed last hlast := by
    rw [Text.capitalWords_append_cons, h.capitalWords_eq, List.getLast?_concat] at hlast
    obtain rfl := Option.some.inj hlast
    exact h.notMem_openWords

theorem head_append_ne_space (h : IsNeutral word) (text : List Char) :
    ∀ c ∈ (word ++ text).head?, c ≠ ' ' := by
  intro c hc hspace
  rw [List.head?_append_of_ne_nil _ h.ne_nil] at hc
  exact h.space_notMem (hspace ▸ List.mem_of_mem_head? hc)

end IsNeutral

/-- Characters that are no letters of keywords in some letter case stay as they are. -/
theorem foldToCapital_eq_self {c : Char} (hlower : ¬(97 ≤ c.toNat ∧ c.toNat ≤ 122))
    (hlong : c.toNat ≠ 0x17f) (hkelvin : c.toNat ≠ 0x212a) : Text.foldToCapital c = c := by
  unfold Text.foldToCapital
  rw [if_neg, if_neg]
  · exact dif_neg hlower
  · intro hc
    rw [eq_of_beq hc] at hkelvin
    exact hkelvin rfl
  · intro hc
    rw [eq_of_beq hc] at hlong
    exact hlong rfl

theorem foldToCapital_of_isBlank {c : Char} (h : Text.isBlank c = true) :
    Text.foldToCapital c = c := by
  simp only [Text.isBlank, Text.inRanges, Text.blankRanges, List.any_cons, List.any_nil,
    Bool.or_eq_true, Bool.and_eq_true, decide_eq_true_eq, Bool.or_false] at h
  refine foldToCapital_eq_self ?_ ?_ ?_ <;> omega

/-- A word in some letter case that is not part of a keyword. -/
theorem isNeutral_of_map_foldToCapital {word letters : List Char} (hne : letters ≠ [])
    (hunblank : ∀ c ∈ letters, Text.isBlank c = false)
    (hforms : ∀ kind : ClauseKind, ∀ form ∈ kind.forms, letters ∉ form.2)
    (hword : word.map Text.foldToCapital = letters) : IsNeutral word where
  ne_nil hnil := hne (by rw [← hword, hnil]; rfl)
  unblank c hc := by
    refine Bool.eq_false_iff.mpr fun hblank => ?_
    have hletter : c ∈ letters := by
      rw [← hword, ← foldToCapital_of_isBlank hblank]
      exact List.mem_map_of_mem hc
    rw [hunblank c hletter] at hblank
    cases hblank
  notMem_forms kind form hform := by
    rw [hword]
    exact hforms kind form hform

/-- A word in some letter case. -/
def Spelling (word : String) : Type :=
  {letters : List Char // letters.map Text.foldToCapital = word.toList}

/-- The words beside the text of a clause. -/
def besideWords : List String :=
  ["TOP", "DISTINCT", "COUNT", "ASC", "DESC"]

/-- They are not part of keywords. -/
theorem Spelling.isNeutral {word : String} (hword : word ∈ besideWords)
    (spelling : Spelling word) : IsNeutral spelling.1 := by
  have hne : ∀ word ∈ besideWords, word.toList ≠ [] := by decide
  have hunblank : ∀ word ∈ besideWords, (word.toList.all fun c => !Text.isBlank c) = true := by
    decide
  have hforms : ∀ word ∈ besideWords, ∀ kind ∈ ClauseKind.all, ∀ form ∈ kind.forms,
      word.toList ∉ form.2 := by
    decide
  exact isNeutral_of_map_foldToCapital (hne word hword)
    (by simpa using hunblank word hword)
    (fun kind => hforms word hword kind kind.mem_all) spelling.2

/-- The digits of a row limit of sixty-four bits. -/
structure LimitText where
  /-- The digits. -/
  digits : List Char
  ne_nil : digits ≠ []
  isDigits : digits.all Char.isDigit = true
  small : Double.digitsValue digits < UInt64.size

namespace LimitText

/-- The row limit. -/
def value (limit : LimitText) : Nat :=
  Double.digitsValue limit.digits

theorem isDigit (limit : LimitText) : ∀ c ∈ limit.digits, c.isDigit = true :=
  List.all_eq_true.mp limit.isDigits

theorem foldToCapital_of_isDigit {c : Char} (h : c.isDigit = true) :
    Text.foldToCapital c = c := by
  obtain ⟨-, hupper⟩ := Char.isDigit_iff_toNat.mp h
  have hnine : '9'.toNat = 57 := rfl
  refine foldToCapital_eq_self ?_ ?_ ?_ <;> omega

/-- Digits are not part of keywords. -/
theorem isNeutral (limit : LimitText) : IsNeutral limit.digits := by
  have hforms : ∀ kind ∈ ClauseKind.all, ∀ form ∈ kind.forms, ∀ word ∈ form.2,
      word.any Char.isDigit = false := by
    decide
  have hfold : limit.digits.map Text.foldToCapital = limit.digits :=
    (List.map_congr_left fun c hc => foldToCapital_of_isDigit (limit.isDigit c hc)).trans
      (List.map_id' _)
  refine isNeutral_of_map_foldToCapital limit.ne_nil
    (fun c hc => Token.isBlank_of_isDigit (limit.isDigit c hc)) (fun kind form hform hmem => ?_)
    hfold
  obtain ⟨c, hc⟩ := List.exists_mem_of_ne_nil _ limit.ne_nil
  exact List.any_eq_false.mp (hforms kind kind.mem_all form hform _ hmem) c hc
    (limit.isDigit c hc)

theorem readLimit_digits (limit : LimitText) :
    Clauses.readLimit limit.digits = .ok limit.value := by
  have hread : Text.readDigits? limit.digits = some limit.value := by
    rw [Text.readDigits?, if_neg]
    · rfl
    · simp [limit.ne_nil, limit.isDigits]
  have hcount : Text.readCount? limit.digits = some limit.value := by
    unfold Text.readCount?
    split
    · next rest hplus =>
      exact absurd (limit.isDigit '+' (by rw [hplus]; exact List.mem_cons_self)) (by decide)
    · dsimp only
      rw [hread, Option.bind_some]
      exact if_pos limit.small
  rw [Clauses.readLimit, hcount]

end LimitText

/-! ## Texts -/

/-- A text that can stand in a clause. -/
abbrev ClauseText : Type :=
  {text : List Char // IsClauseText text}

namespace IsClauseText

variable {text : List Char}

theorem head_ne_space (h : IsClauseText text) : ∀ c ∈ text.head?, c ≠ ' ' :=
  fun c hc => ne_space_of_isBlank_eq_false ((Text.trim_eq_self_iff.mp h.trimmed).1 c hc)

theorem getLast_ne_space (h : IsClauseText text) : ∀ c ∈ text.getLast?, c ≠ ' ' :=
  fun c hc => ne_space_of_isBlank_eq_false ((Text.trim_eq_self_iff.mp h.trimmed).2 c hc)

theorem dropWhile_space (h : IsClauseText text) : text.dropWhile (· == ' ') = text :=
  Text.dropWhile_eq_self_iff_head?.mpr fun c hc => beq_false_of_ne (h.head_ne_space c hc)

theorem nonEmpty_eq_ok (h : IsClauseText text) (kind : ClauseKind) :
    Clauses.nonEmpty kind text = .ok text := by
  rw [Clauses.nonEmpty, h.trimmed, if_neg (by simpa using h.ne_nil)]

end IsClauseText

/-! ## The select list -/

/-- What a select clause says of equal rows. -/
inductive DistinctText where
  /-- Nothing. -/
  | no
  /-- The word `distinct`. -/
  | yes (word : Spelling "DISTINCT")
  /-- The words `distinct count`. -/
  | counted (word : Spelling "DISTINCT") (count : Spelling "COUNT")

/-- A select clause as it is written. -/
structure SelectText where
  /-- The word `top` and the row limit. -/
  top : Option (Spelling "TOP" × LimitText)
  /-- What happens to equal rows. -/
  distinct : DistinctText
  /-- The select list. -/
  list : ClauseText
  opening : ∀ word ∈ (Text.capitalWords list.1).head?,
    word ≠ "TOP".toList ∧ word ≠ "DISTINCT".toList ∧ word ≠ "COUNT".toList

namespace DistinctText

/-- What happens to equal rows. -/
def value : DistinctText → Distinct
  | no => .no
  | yes _ => .yes
  | counted _ _ => .counted

/-- A text with these words in front of it. -/
def before (text : List Char) : DistinctText → List Char
  | no => text
  | yes word => word.1 ++ ' ' :: text
  | counted word count => word.1 ++ ' ' :: (count.1 ++ ' ' :: text)

theorem isClauseText_before {text : List Char} (h : IsClauseText text)
    (distinct : DistinctText) : IsClauseText (distinct.before text) := by
  cases distinct with
  | no => exact h
  | yes word => exact (word.isNeutral (by decide)).isClauseText_append h
  | counted word count =>
    exact (word.isNeutral (by decide)).isClauseText_append
      ((count.isNeutral (by decide)).isClauseText_append h)

end DistinctText

namespace SelectText

/-- The text of a select clause. -/
def body (select : SelectText) : List Char :=
  match select.top with
  | none => select.distinct.before select.list.1
  | some (word, limit) =>
    word.1 ++ ' ' :: (limit.digits ++ ' ' :: select.distinct.before select.list.1)

theorem isClauseText_body (select : SelectText) : IsClauseText select.body := by
  have hlist := select.distinct.isClauseText_before select.list.2
  unfold body
  split
  · exact hlist
  · next word limit _ =>
    exact (word.isNeutral (by decide)).isClauseText_append
      (limit.isNeutral.isClauseText_append hlist)

/-- What is read of a select clause. -/
def clause (select : SelectText) : SelectClause :=
  ⟨select.list.1, select.top.map fun top => top.2.value, select.distinct.value⟩

end SelectText

namespace Clauses

variable {s rest : List Char}

theorem dropSpaces?_cons_space (h : ∀ c ∈ s.head?, c ≠ ' ') :
    Text.dropSpaces? (' ' :: s) = some s :=
  congrArg some (Text.dropWhile_eq_self_iff_head?.mpr fun c hc => beq_false_of_ne (h c hc))

theorem dropWord?_spelling {word : String} (spelling : Spelling word) (s : List Char) :
    Text.dropWord? word.toList (spelling.1 ++ s) = some s :=
  Text.dropWord?_eq_some_iff.mpr ⟨spelling.1, spelling.2, rfl⟩

/-- A word that has been read up to a space, or up to the end, is the first one. -/
theorem head_capitalWords_of_dropWord? {word : String} (hword : word ∈ besideWords)
    (h : Text.dropWord? word.toList s = some rest) (hrest : Text.atDelimiter rest = true) :
    (Text.capitalWords s).head? = some word.toList := by
  obtain ⟨letters, hletters, rfl⟩ := Text.dropWord?_eq_some_iff.mp h
  have hneutral := Spelling.isNeutral hword ⟨letters, hletters⟩
  rw [Text.capitalWords_word_append hneutral.ne_nil hneutral.space_notMem hrest, hletters]
  rfl

/-- A row limit begins with the word `top`. -/
theorem takeTop?_eq_none (h : (Text.capitalWords s).head? ≠ some "TOP".toList) :
    takeTop? s = .none := by
  refine Option.eq_none_iff_forall_ne_some.mpr fun found hfound => h ?_
  obtain ⟨rest, hrest, hfound⟩ := Option.bind_eq_some_iff.mp hfound
  obtain ⟨numbered, hnumbered, -⟩ := Option.bind_eq_some_iff.mp hfound
  obtain ⟨t, rfl, -⟩ := Text.dropSpaces?_eq_some_iff.mp hnumbered
  exact head_capitalWords_of_dropWord? (by decide) hrest rfl

theorem takeTop?_append (word : Spelling "TOP") (limit : LimitText) (h : IsClauseText s) :
    takeTop? (word.1 ++ ' ' :: (limit.digits ++ ' ' :: s)) = some (limit.digits, s) := by
  have htake : (limit.digits ++ ' ' :: s).takeWhile Char.isDigit = limit.digits := by
    rw [List.takeWhile_append_of_pos limit.isDigit]
    simp
  have hdrop : (limit.digits ++ ' ' :: s).dropWhile Char.isDigit = ' ' :: s := by
    rw [List.dropWhile_append_of_pos limit.isDigit]
    rfl
  have hspaces := dropSpaces?_cons_space (limit.isNeutral.head_append_ne_space (' ' :: s))
  rw [takeTop?, dropWord?_spelling, Option.bind_eq_bind, Option.bind_some, hspaces,
    Option.bind_some]
  dsimp only
  rw [htake, hdrop, if_neg]
  · exact congrArg (fun rest => some (limit.digits, rest)) h.dropWhile_space
  · simp [limit.ne_nil, Text.atDelimiter]

theorem takeDistinct_eq_no (h : (Text.capitalWords s).head? ≠ some "DISTINCT".toList) :
    takeDistinct s = (.no, s) := by
  unfold takeDistinct
  split
  · rfl
  · next rest hrest =>
    have hdelimiter : ¬Text.atDelimiter rest = true :=
      fun hdelimiter => h (head_capitalWords_of_dropWord? (by decide) hrest hdelimiter)
    have hspaces : Text.dropSpaces? rest = .none := by
      refine Option.eq_none_iff_forall_ne_some.mpr fun t ht => hdelimiter ?_
      obtain ⟨t, rfl, -⟩ := Text.dropSpaces?_eq_some_iff.mp ht
      rfl
    rw [hspaces, Option.bind_none]
    exact if_neg hdelimiter

/-- The words for equal rows are told from the select list. -/
theorem takeDistinct_before (distinct : DistinctText) (htext : IsClauseText s)
    (hdistinct : (Text.capitalWords s).head? ≠ some "DISTINCT".toList)
    (hcount : (Text.capitalWords s).head? ≠ some "COUNT".toList) :
    takeDistinct (distinct.before s) = (distinct.value, s) := by
  cases distinct with
  | no => exact takeDistinct_eq_no hdistinct
  | yes word =>
    have hspaces := dropSpaces?_cons_space htext.head_ne_space
    rw [DistinctText.before, takeDistinct, dropWord?_spelling]
    dsimp only
    rw [hspaces, Option.bind_some]
    split
    · next counted hcounted =>
      rw [if_neg fun hdelimiter =>
        hcount (head_capitalWords_of_dropWord? (by decide) hcounted hdelimiter)]
      exact congrArg (Prod.mk _) htext.dropWhile_space
    · exact congrArg (Prod.mk _) htext.dropWhile_space
  | counted word count =>
    have hneutral := count.isNeutral (by decide)
    have hspaces := dropSpaces?_cons_space (hneutral.head_append_ne_space (' ' :: s))
    rw [DistinctText.before, takeDistinct, dropWord?_spelling]
    dsimp only
    rw [hspaces, Option.bind_some, dropWord?_spelling]
    exact congrArg (Prod.mk _) htext.dropWhile_space

/-- The words for equal rows do not begin with the word `top`. -/
theorem head_capitalWords_before (distinct : DistinctText)
    (htop : (Text.capitalWords s).head? ≠ some "TOP".toList) :
    (Text.capitalWords (distinct.before s)).head? ≠ some "TOP".toList := by
  have hne : "DISTINCT".toList ≠ "TOP".toList := by decide
  cases distinct with
  | no => exact htop
  | yes word =>
    rw [DistinctText.before, (word.isNeutral (by decide)).capitalWords_append, word.2]
    exact fun h => hne (Option.some.inj h)
  | counted word count =>
    rw [DistinctText.before, (word.isNeutral (by decide)).capitalWords_append, word.2]
    exact fun h => hne (Option.some.inj h)

/-- A select clause is read as it is written. -/
theorem readSelect_body (select : SelectText) : readSelect select.body = .ok select.clause := by
  obtain ⟨top, distinct, ⟨list, hlist⟩, hopening⟩ := select
  have htop : (Text.capitalWords list).head? ≠ some "TOP".toList :=
    fun h => (hopening _ h).1 rfl
  have hdistinct := takeDistinct_before distinct hlist (fun h => (hopening _ h).2.1 rfl)
    fun h => (hopening _ h).2.2 rfl
  have hempty := hlist.nonEmpty_eq_ok .select
  cases top with
  | none =>
    rw [SelectText.body, readSelect, takeTop?_eq_none (head_capitalWords_before distinct htop)]
    simp only [ok_bind, hdistinct, hempty]
    rfl
  | some top =>
    obtain ⟨word, limit⟩ := top
    rw [SelectText.body, readSelect]
    dsimp only
    rw [takeTop?_append word limit (distinct.isClauseText_before hlist)]
    simp only [limit.readLimit_digits, Except.map, ok_bind, hdistinct, hempty]
    rfl

end Clauses

/-! ## The order -/

/-- The direction of an order.  Descending is spelled in plain letters. -/
inductive DirectionText where
  /-- The word `asc` in some letter case. -/
  | ascending (word : Spelling "ASC")
  /-- The word `desc`, in some letter case of its plain letters. -/
  | descending (letters : List Char) (spells : letters.map Char.toUpper = "DESC".toList)

namespace DirectionText

/-- The word for the direction. -/
def letters : DirectionText → List Char
  | ascending word => word.1
  | descending letters _ => letters

/-- Whether the order is descending. -/
def reverse : DirectionText → Bool
  | ascending _ => false
  | descending _ _ => true

/-- Plain letters are letters of a keyword. -/
theorem map_foldToCapital_of_map_toUpper {letters : List Char}
    (h : letters.map Char.toUpper = "DESC".toList) :
    letters.map Text.foldToCapital = "DESC".toList := by
  rw [← h]
  refine List.map_congr_left fun c hc => ?_
  have hupper : c.toUpper ∈ "DESC".toList := h ▸ List.mem_map_of_mem hc
  unfold Text.foldToCapital
  rw [if_neg, if_neg]
  · intro hkelvin
    rw [eq_of_beq hkelvin] at hupper
    exact absurd hupper (by decide)
  · intro hlong
    rw [eq_of_beq hlong] at hupper
    exact absurd hupper (by decide)

theorem isNeutral (direction : DirectionText) : IsNeutral direction.letters := by
  cases direction with
  | ascending word => exact word.isNeutral (by decide)
  | descending letters h =>
    exact Spelling.isNeutral (by decide)
      (⟨letters, map_foldToCapital_of_map_toUpper h⟩ : Spelling "DESC")

end DirectionText

/-- An order clause as it is written. -/
structure OrderText where
  /-- The expressions that rows are ordered by. -/
  list : ClauseText
  /-- The direction, if there is one. -/
  direction : Option DirectionText
  closing : ∀ word ∈ (Text.capitalWords list.1).getLast?,
    word ≠ "ASC".toList ∧ word ≠ "DESC".toList

namespace OrderText

/-- The text of an order clause. -/
def body (order : OrderText) : List Char :=
  match order.direction with
  | none => order.list.1
  | some direction => order.list.1 ++ ' ' :: direction.letters

theorem isClauseText_body (order : OrderText) : IsClauseText order.body := by
  unfold body
  split
  · exact order.list.2
  · next direction _ => exact direction.isNeutral.isClauseText_concat order.list.2

/-- What is read of an order clause. -/
def clause (order : OrderText) : OrderClause :=
  ⟨order.list.1, order.direction.any DirectionText.reverse⟩

end OrderText

namespace Clauses

variable {text word : List Char}

theorem isWord_iff {letters : List Char} :
    isWord letters text = true ↔ text.map Text.foldToCapital = letters := by
  rw [isWord, beq_iff_eq, Text.dropWord?_eq_some_iff]
  constructor
  · rintro ⟨word, hword, rfl⟩
    rwa [List.append_nil]
  · exact fun h => ⟨text, h, (List.append_nil text).symm⟩

theorem isWord_letters (direction : DirectionText) :
    (isWord "ASC".toList direction.letters || isWord "DESC".toList direction.letters) = true := by
  rw [Bool.or_eq_true, isWord_iff, isWord_iff]
  cases direction with
  | ascending word => exact .inl word.2
  | descending letters h => exact .inr (DirectionText.map_foldToCapital_of_map_toUpper h)

/-- The direction is read from its plain letters. -/
theorem beq_map_toUpper_letters (direction : DirectionText) :
    (direction.letters.map Char.toUpper == "DESC".toList) = direction.reverse := by
  cases direction with
  | ascending word =>
    refine beq_false_of_ne fun h => ?_
    have hasc := congrArg List.length word.2
    have hdesc := congrArg List.length h
    rw [List.length_map] at hasc hdesc
    exact absurd (hasc.symm.trans hdesc) (by decide)
  | descending letters h => exact beq_of_eq h

theorem lastWord_append (htext : IsClauseText text) (hword : ' ' ∉ word) :
    lastWord (text ++ ' ' :: word) = (text, word) := by
  have hspaced : ∀ c ∈ word.reverse, (c != ' ') = true := by
    intro c hc
    simpa using ne_of_mem_of_not_mem (List.mem_reverse.mp hc) hword
  have hlast : text.reverse.dropWhile (· == ' ') = text.reverse := by
    refine Text.dropWhile_eq_self_iff_head?.mpr fun c hc => beq_false_of_ne ?_
    rw [List.head?_reverse] at hc
    exact htext.getLast_ne_space c hc
  unfold lastWord
  rw [List.reverse_append, List.reverse_cons, List.append_assoc, List.singleton_append]
  dsimp only
  rw [List.takeWhile_append_of_pos hspaced, List.dropWhile_append_of_pos hspaced,
    List.takeWhile_cons_of_neg (by simp), List.dropWhile_cons_of_neg (by simp),
    List.dropWhile_cons_of_pos (by simp), hlast]
  simp

/-- The last word of a text is the last of its words. -/
theorem getLast?_capitalWords_of_lastWord (hne : (lastWord text).2 ≠ []) :
    (Text.capitalWords text).getLast? = some ((lastWord text).2.map Text.foldToCapital) := by
  have hspace : ' ' ∉ (lastWord text).2 := by
    intro hmem
    have htake := List.all_eq_true.mp List.all_takeWhile ' ' (List.mem_reverse.mp hmem)
    simp at htake
  have hword := Text.capitalWords_of_notMem hne hspace
  have hdivided : (text.reverse.dropWhile (· != ' ')).reverse ++ (lastWord text).2 = text := by
    rw [lastWord, ← List.reverse_append, List.takeWhile_append_dropWhile, List.reverse_reverse]
  cases hbefore : text.reverse.dropWhile (· != ' ') with
  | nil =>
    have hwhole : (lastWord text).2 = text := by simpa [hbefore] using hdivided
    rw [hwhole] at hword ⊢
    rw [hword]
    rfl
  | cons c before =>
    obtain rfl : c = ' ' := by
      have hhead := List.head?_dropWhile_not (· != ' ') text.reverse
      rw [hbefore] at hhead
      simpa using hhead
    rw [hbefore, List.reverse_cons, List.append_assoc, List.singleton_append] at hdivided
    have hwords := Text.capitalWords_append_cons before.reverse (lastWord text).2
    rw [hdivided, hword] at hwords
    rw [hwords, List.getLast?_concat]

/-- An order clause is read as it is written. -/
theorem readOrder_body (order : OrderText) : readOrder order.body = .ok order.clause := by
  obtain ⟨⟨list, hlist⟩, direction, hclosing⟩ := order
  have hempty := hlist.nonEmpty_eq_ok .orderBy
  cases direction with
  | none =>
    have hword : ∀ letters, letters ≠ [] → (Text.capitalWords list).getLast? ≠ some letters →
        isWord letters (lastWord list).2 = false := by
      intro letters hne hlast
      refine Bool.eq_false_iff.mpr fun hword => hlast ?_
      have hletters := isWord_iff.mp hword
      rw [getLast?_capitalWords_of_lastWord fun hnil => hne (by rw [← hletters, hnil]; rfl),
        hletters]
    have hasc := hword "ASC".toList (by decide) fun h => (hclosing _ h).1 rfl
    have hdesc := hword "DESC".toList (by decide) fun h => (hclosing _ h).2 rfl
    rw [OrderText.body, readOrder]
    simp only [hasc, hdesc, Bool.or_self, Bool.and_false, Bool.false_eq_true, if_false, hempty,
      ok_bind]
    rfl
  | some direction =>
    have hlast := lastWord_append hlist direction.isNeutral.space_notMem
    have hcontains : (list ++ ' ' :: direction.letters).contains ' ' = true := by simp
    rw [OrderText.body, readOrder]
    dsimp only
    rw [hlast, hcontains, isWord_letters, beq_map_toUpper_letters, hempty]
    rfl

end Clauses
end TableQuery
