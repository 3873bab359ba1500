import Mathlib.Data.List.Infix
import TableQuery.Proofs.Text.CapitalWords
import TableQuery.Proofs.Text.Search
import TableQuery.Query.Clauses

/-!
# Scanning a text for keywords

Whether a keyword begins at a place depends on the words of the text from there on.  A scan
goes over a part of a text without finding anything if no keyword begins at one of its
words, and it stops at a keyword that stands where it begins.
-/

namespace TableQuery

/-! ## Forms of keywords -/

namespace ClauseKind

theorem mem_all (kind : ClauseKind) : kind ∈ all := by
  cases kind <;> decide

/-- The forms of keywords are made of words. -/
theorem words_of_mem_forms (kind : ClauseKind) :
    ∀ form ∈ kind.forms, form.2 ≠ [] ∧ ∀ word ∈ form.2, word ≠ [] ∧ ' ' ∉ word := by
  cases kind <;> decide

/-- So is a keyword in any letter case. -/
theorem words_of_spells {kind : ClauseKind} {joinKind : JoinKind} {words : List (List Char)}
    (h : (joinKind, words.map (List.map Text.foldToCapital)) ∈ kind.forms) :
    words ≠ [] ∧ ∀ word ∈ words, word ≠ [] ∧ ' ' ∉ word := by
  obtain ⟨hne, hcapitals⟩ := kind.words_of_mem_forms _ h
  refine ⟨fun hnil => hne (by rw [hnil]; rfl), fun word hword => ?_⟩
  obtain ⟨hnil, hspace⟩ := hcapitals _ (List.mem_map_of_mem hword)
  exact ⟨fun h => hnil (by rw [h]; rfl), Text.notMem_of_map_foldToCapital rfl hspace⟩

/-- No form of a keyword is the beginning of another one. -/
theorem pairwise_forms (kind : ClauseKind) :
    kind.forms.Pairwise fun f g => ¬f.2 <+: g.2 ∧ ¬g.2 <+: f.2 := by
  cases kind <;> decide

/-- The first word of a keyword is in no keyword of another kind. -/
theorem head_notMem_forms {kind kind' : ClauseKind} (hne : kind ≠ kind') :
    ∀ f ∈ kind.forms, ∀ g ∈ kind'.forms, ∀ word ∈ f.2.head?, word ∉ g.2 := by
  revert hne
  cases kind <;> cases kind' <;> decide

/-- The words before the last one of a keyword, apart from the orders. -/
def openWords : List (List Char) :=
  ["STRICT".toList, "LEFT".toList, "INNER".toList, "OUTER".toList]

/-- A keyword that is divided has one of these words in front, or the word `by` behind. -/
theorem divided_forms (kind : ClauseKind) :
    ∀ form ∈ kind.forms, ∀ n < form.2.length, 0 < n →
      (∀ word ∈ (form.2.take n).getLast?, word ∈ openWords) ∨ form.2.drop n = ["BY".toList] := by
  cases kind <;> decide

/-- No keyword begins with the word `by`. -/
theorem head_ne_by (kind : ClauseKind) :
    ∀ form ∈ kind.forms, form.2.head? ≠ some "BY".toList := by
  cases kind <;> decide

/-- No keyword of a kind begins at one of the words `words` where the words `next`
follow. -/
def Quiet (kind : ClauseKind) (words next : List (List Char)) : Prop :=
  ∀ later, later <:+ words → later ≠ [] → ∀ form ∈ kind.forms, ¬form.2 <+: later ++ next

theorem Quiet.mono {kind : ClauseKind} {words words' next : List (List Char)}
    (h : kind.Quiet words next) (hsuffix : words' <:+ words) : kind.Quiet words' next :=
  fun later hlater => h later (hlater.trans hsuffix)

/-- A word that no keyword begins with keeps the words behind it quiet. -/
theorem Quiet.cons {kind : ClauseKind} {word : List Char} {words next : List (List Char)}
    (hword : ∀ form ∈ kind.forms, form.2.head? ≠ some word) (h : kind.Quiet words next) :
    kind.Quiet (word :: words) next := by
  intro later hlater hne form hform hfront
  rcases List.suffix_cons_iff.mp hlater with rfl | hlater
  · obtain ⟨first, others, hfirst⟩ :=
      List.exists_cons_of_ne_nil (kind.words_of_mem_forms form hform).1
    rw [hfirst, List.cons_append, List.cons_prefix_cons] at hfront
    refine hword form hform ?_
    rw [hfirst, hfront.1]
    rfl
  · exact h later hlater hne form hform hfront

theorem Quiet.append {kind : ClauseKind} {words words' next : List (List Char)}
    (hwords : ∀ form ∈ kind.forms, ∀ word ∈ form.2.head?, word ∉ words)
    (h : kind.Quiet words' next) : kind.Quiet (words ++ words') next := by
  induction words with
  | nil => exact h
  | cons word words ih =>
    refine Quiet.cons (fun form hform hhead => ?_) (ih fun form hform first hfirst hmem => ?_)
    · exact hwords form hform word hhead List.mem_cons_self
    · exact hwords form hform first hfirst (List.mem_cons_of_mem _ hmem)

end ClauseKind

namespace KeywordPlace

variable {kind : ClauseKind} {joinKind : JoinKind} {forms : KeywordForms JoinKind}
  {s t rest : List Char} {position n : Nat}

theorem exists_of_form? (h : form? s forms = some (joinKind, n)) :
    ∃ form ∈ forms, ∃ rest, Text.dropWords? form.2 s = some rest ∧
      Text.atDelimiter rest = true ∧ form.1 = joinKind ∧ s.length - rest.length = n := by
  induction forms with
  | nil => cases h
  | cons form forms ih =>
    rw [form?] at h
    split at h
    · next rest hrest =>
      split at h
      · next hdelimiter =>
        cases h
        exact ⟨form, List.mem_cons_self, rest, hrest, hdelimiter, rfl, rfl⟩
      · obtain ⟨form', hform', hfound⟩ := ih h
        exact ⟨form', List.mem_cons_of_mem _ hform', hfound⟩
    · obtain ⟨form', hform', hfound⟩ := ih h
      exact ⟨form', List.mem_cons_of_mem _ hform', hfound⟩

/-- A keyword is found only at its words. -/
theorem isPrefix_of_form? (h : form? s kind.forms = some (joinKind, n)) :
    ∃ form ∈ kind.forms, form.2 <+: Text.capitalWords s := by
  obtain ⟨form, hform, rest, hrest, hdelimiter, -⟩ := exists_of_form? h
  obtain ⟨hne, hwords⟩ := kind.words_of_mem_forms form hform
  exact ⟨form, hform, _, (Text.capitalWords_of_dropWords? hne hwords hrest hdelimiter).symm⟩

/-- Of the forms of a keyword at most one stands where a text begins. -/
theorem form?_eq_some {form : JoinKind × List (List Char)}
    (hpairwise : forms.Pairwise fun f g => ¬f.2 <+: g.2 ∧ ¬g.2 <+: f.2)
    (hwords : ∀ f ∈ forms, f.2 ≠ [] ∧ ∀ word ∈ f.2, word ≠ [] ∧ ' ' ∉ word)
    (hform : form ∈ forms) (hrest : Text.dropWords? form.2 s = some rest)
    (hdelimiter : Text.atDelimiter rest = true) :
    form? s forms = some (form.1, s.length - rest.length) := by
  -- Any other form that stands there is the beginning of this one, or this one of it.
  have hfront : ∀ f ∈ forms, ∀ rest, Text.dropWords? f.2 s = some rest →
      Text.atDelimiter rest = true → f.2 <+: Text.capitalWords s := by
    intro f hf rest hrest hdelimiter
    obtain ⟨hne, hspaced⟩ := hwords f hf
    exact ⟨_, (Text.capitalWords_of_dropWords? hne hspaced hrest hdelimiter).symm⟩
  induction forms with
  | nil => cases hform
  | cons first forms ih =>
    obtain ⟨hfirst, hothers⟩ := List.pairwise_cons.mp hpairwise
    rw [form?]
    rcases List.mem_cons.mp hform with rfl | hform'
    · rw [hrest]
      exact if_pos hdelimiter
    · have hlater := ih hothers (fun f hf => hwords f (List.mem_cons_of_mem _ hf)) hform'
        fun f hf => hfront f (List.mem_cons_of_mem _ hf)
      have hnot : ∀ rest, Text.dropWords? first.2 s = some rest →
          ¬Text.atDelimiter rest = true := by
        intro rest' hrest' hdelimiter'
        rcases List.prefix_or_prefix_of_prefix
          (hfront first List.mem_cons_self rest' hrest' hdelimiter')
          (hfront form hform rest hrest hdelimiter) with h | h
        · exact (hfirst form hform').1 h
        · exact (hfirst form hform').2 h
      split
      · next rest' hrest' => rw [if_neg (hnot rest' hrest'), hlater]
      · exact hlater

/-! ## Scanning -/

theorem form?_cons_space (kind : ClauseKind) (s : List Char) :
    form? (' ' :: s) kind.forms = none := by
  refine Option.eq_none_iff_forall_ne_some.mpr fun found hfound => ?_
  obtain ⟨form, hform, rest, hrest, -⟩ := exists_of_form? hfound
  obtain ⟨hne, hwords⟩ := kind.words_of_mem_forms form hform
  rw [Text.dropWords?_cons_space hne hwords] at hrest
  cases hrest

/-- What follows a space is scanned from its start. -/
theorem allFrom_cons_space (kind : ClauseKind) (position : Nat) (delimited : Bool)
    (s : List Char) :
    allFrom kind position 0 delimited (' ' :: s) = allFrom kind (position + 1) 0 true s := by
  rw [allFrom, if_neg (Nat.lt_irrefl 0), form?_cons_space, ite_self]
  rfl

theorem allFrom_skip (kind : ClauseKind) (position : Nat) (delimited : Bool) {skip : Nat}
    (hpos : 0 < skip) (hskip : skip ≤ s.length) :
    allFrom kind position skip delimited s =
      allFrom kind (position + skip) 0 false (s.drop skip) := by
  induction s generalizing position skip delimited with
  | nil => exact absurd (Nat.le_zero.mp hskip) (Nat.ne_of_gt hpos)
  | cons c s ih =>
    rw [allFrom, if_pos hpos]
    obtain ⟨skip, rfl⟩ := Nat.exists_eq_succ_of_ne_zero (Nat.ne_of_gt hpos)
    rw [List.drop_succ_cons]
    cases skip with
    | zero => rfl
    | succ skip =>
      have hlater := ih (position + 1) false (Nat.succ_pos skip) (Nat.le_of_succ_le_succ hskip)
      rw [Nat.succ_eq_add_one, Nat.add_sub_cancel, hlater]
      congr 1
      omega

/-- A scan goes over a part of a text that is quiet.  In the middle of a word no keyword
begins. -/
theorem exists_allFrom_append {delimited : Bool} (htail : Text.atDelimiter t = true)
    (hquiet : kind.Quiet (Text.capitalWords (if delimited then s else s.dropWhile (· != ' ')))
      (Text.capitalWords t)) :
    ∃ delimited', allFrom kind position 0 delimited (s ++ t) =
      allFrom kind (position + s.length) 0 delimited' t := by
  induction s generalizing position delimited with
  | nil => exact ⟨delimited, rfl⟩
  | cons c s ih =>
    rw [List.length_cons, Nat.add_comm s.length 1, ← Nat.add_assoc, List.cons_append]
    by_cases hc : c = ' '
    · subst hc
      rw [allFrom_cons_space]
      refine ih ?_
      cases delimited <;> simpa using hquiet
    · have hnone : (if delimited then form? (c :: (s ++ t)) kind.forms else none) = none := by
        cases delimited with
        | false => rfl
        | true =>
          refine Option.eq_none_iff_forall_ne_some.mpr fun found hfound => ?_
          obtain ⟨form, hform, hfront⟩ := isPrefix_of_form? hfound
          rw [← List.cons_append, Text.capitalWords_append _ htail] at hfront
          refine hquiet _ List.suffix_rfl ?_ form hform hfront
          rw [if_pos rfl, Text.capitalWords_cons_of_ne hc]
          exact List.cons_ne_nil _ _
      rw [allFrom, if_neg (Nat.lt_irrefl 0), hnone, beq_false_of_ne hc]
      refine ih (hquiet.mono ?_)
      cases delimited with
      | false => rw [if_neg Bool.false_ne_true, if_neg Bool.false_ne_true,
          List.dropWhile_cons_of_pos (by simpa using hc)]
      | true =>
        rw [if_neg Bool.false_ne_true, if_pos rfl, Text.capitalWords_cons_of_ne hc]
        exact List.suffix_cons _ _

theorem exists_allFrom_append_of_quiet (position : Nat) (delimited : Bool)
    (htail : Text.atDelimiter t = true)
    (hquiet : kind.Quiet (Text.capitalWords s) (Text.capitalWords t)) :
    ∃ delimited', allFrom kind position 0 delimited (s ++ t) =
      allFrom kind (position + s.length) 0 delimited' t := by
  refine exists_allFrom_append htail (hquiet.mono ?_)
  cases delimited
  · exact Text.capitalWords_suffix s
  · exact List.suffix_rfl

/-- A scan stops at a keyword, in any letter case, and goes on after the space behind it. -/
theorem allFrom_keyword (position : Nat) (s : List Char) {words : List (List Char)}
    (hspells : (joinKind, words.map (List.map Text.foldToCapital)) ∈ kind.forms) :
    allFrom kind position 0 true (Text.joinWith [' '] words ++ ' ' :: s) =
      ⟨kind, joinKind, position, position + (Text.joinWith [' '] words).length⟩ ::
        allFrom kind (position + (Text.joinWith [' '] words).length + 1) 0 false s := by
  obtain ⟨hne, hwords⟩ := ClauseKind.words_of_spells hspells
  have hform : form? (Text.joinWith [' '] words ++ ' ' :: s) kind.forms =
      some (joinKind, (Text.joinWith [' '] words).length) := by
    rw [form?_eq_some kind.pairwise_forms kind.words_of_mem_forms hspells
      (Text.dropWords?_joinWith hne hwords _) rfl, List.length_append, Nat.add_sub_cancel]
  obtain ⟨c, keyword, hkeyword⟩ : ∃ c keyword, Text.joinWith [' '] words = c :: keyword := by
    obtain ⟨word, words, rfl⟩ := List.exists_cons_of_ne_nil hne
    obtain ⟨c, word, rfl⟩ := List.exists_cons_of_ne_nil (hwords word List.mem_cons_self).1
    rw [Text.joinWith_cons_eq_append_flatMap]
    exact ⟨c, _, rfl⟩
  rw [hkeyword] at hform ⊢
  rw [List.cons_append] at hform ⊢
  rw [allFrom, if_neg (Nat.lt_irrefl 0), if_pos rfl, hform]
  -- The letters behind the first one are skipped, and so is the space.
  have hlength : (c :: keyword).length ≤ (keyword ++ ' ' :: s).length := by
    simp only [List.length_append, List.length_cons]
    omega
  have hskip := allFrom_skip kind (position + 1) false (Nat.lt_of_lt_of_eq (Nat.succ_pos _)
    List.length_cons.symm) hlength
  have hdrop : (keyword ++ ' ' :: s).drop (c :: keyword).length = s := by simp
  rw [hdrop, Nat.add_right_comm] at hskip
  exact congrArg (List.cons _) hskip

end KeywordPlace
end TableQuery
