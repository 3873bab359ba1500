import TableQuery.Proofs.Query.AssignmentLists
import TableQuery.Proofs.Query.Mentions
import TableQuery.Proofs.Text.CapitalWords
import TableQuery.Query.JoinSpec

/-!
# Sections of clauses

The text of a clause is taken apart at white space, commas, equals signs and words with
spaces around them.  The parts that are read as expressions are sections of the text, so that
the names that they mention are mentioned by the clause.
-/

namespace TableQuery

variable {s t rest : List Char}

theorem edge_space : opensName ' ' ∧ closesName ' ' :=
  opensName_of_isBlank (by decide)

/-- White space around a text belongs to no name. -/
theorem isSection_trim (s : List Char) : IsSection (Text.trim s) s := by
  obtain ⟨front, back, hs, hfront, hback⟩ := Assignment.exists_trim s
  exact fun _ => ⟨front, back, hs,
    fun c hc => opensName_of_isBlank (hfront c (List.mem_of_getLast? hc)),
    fun c hc => opensName_of_isBlank (hback c (List.mem_of_head? hc))⟩

/-! ## Lists of assignments and columns -/

namespace Assignment

theorem isSection_of_mem_partsFrom {depth : Int} {part p : List Char}
    (h : p ∈ partsFrom depth part s) : IsSection p (part ++ s) := by
  induction s generalizing depth part with
  | nil =>
    rw [partsFrom, List.mem_singleton] at h
    rw [h, List.append_nil]
    exact IsSection.refl part
  | cons c s ih =>
    rw [partsFrom] at h
    split at h
    · next hcomma =>
      obtain rfl : c = ',' := by simpa using (Bool.and_eq_true_iff.mp hcomma).1
      rcases List.mem_cons.mp h with rfl | h
      · exact isSection_append_left (by decide) p s
      · exact (ih h).trans (isSection_append_cons (by decide) part s)
    · have hmore := ih h
      rwa [List.append_assoc] at hmore

theorem isSection_of_mem_parts {p : List Char} (h : p ∈ parts s) : IsSection p s :=
  isSection_of_mem_partsFrom h

theorem eq_of_divideFrom {before target value : List Char}
    (h : divideFrom before s = some (target, value)) :
    before.reverse ++ s = target ++ '=' :: value := by
  induction s generalizing before with
  | nil => cases h
  | cons c s ih =>
    rw [divideFrom] at h
    split at h
    · next hequals =>
      cases h
      simp only [Bool.and_eq_true, beq_iff_eq] at hequals
      rw [hequals.1.1]
    · have hmore := ih h
      rwa [List.reverse_cons, List.append_assoc] at hmore

theorem isSection_of_divide? {target value : List Char}
    (h : divide? s = some (target, value)) : IsSection target s ∧ IsSection value s := by
  have hs : s = target ++ '=' :: value := eq_of_divideFrom h
  rw [hs]
  exact ⟨isSection_append_left (by decide) _ _, isSection_append_cons (by decide) _ _⟩

end Assignment

/-! ## Conditions of joins -/

/-- The parts of a text between occurrences of a pattern of no names are sections. -/
theorem isSection_of_mem_split {p part : List Char} (hp : p ≠ [])
    (hedge : ∀ c ∈ p, opensName c ∧ closesName c) (h : part ∈ Text.split p s) :
    IsSection part s := by
  induction hlength : s.length using Nat.strongRecOn generalizing s with
  | ind length ih =>
    cases hcut : Text.cut? p s with
    | none =>
      rw [Text.split_eq_singleton hp hcut, List.mem_singleton] at h
      exact h ▸ IsSection.refl s
    | some found =>
      obtain ⟨before, after⟩ := found
      rw [Text.split_eq_cons hp hcut] at h
      have hs := Text.eq_of_cut? hcut
      have hlater := Text.length_lt_of_cut? hcut hp
      rw [hs]
      rcases List.mem_cons.mp h with rfl | h
      · obtain ⟨c, others, rfl⟩ := List.exists_cons_of_ne_nil hp
        rw [List.append_assoc]
        exact isSection_append_left (hedge c List.mem_cons_self) _ _
      · obtain ⟨front, c, rfl⟩ := List.eq_nil_or_concat p |>.resolve_left hp
        have hafter := isSection_append_cons (hedge c (by simp)) (before ++ front) after
        rw [List.concat_eq_append, ← List.append_assoc, List.append_assoc _ [c]]
        exact (ih _ (hlength ▸ hlater) h rfl).trans hafter

/-- Spaces that are dropped stand before the rest. -/
theorem exists_of_dropSpaces? (h : Text.dropSpaces? s = some rest) :
    ∃ front, s = front ++ ' ' :: rest := by
  obtain ⟨t, rfl, rfl⟩ := Text.dropSpaces?_eq_some_iff.mp h
  have hspaces : ∀ c ∈ t.takeWhile (· == ' '), c = ' ' := fun c hc =>
    eq_of_beq (List.all_eq_true.mp List.all_takeWhile c hc)
  have hsplit := List.takeWhile_append_dropWhile (p := (· == ' ')) (l := t)
  rcases List.eq_nil_or_concat (t.takeWhile (· == ' ')) with hnil | ⟨front, c, hfront⟩
  · rw [hnil, List.nil_append] at hsplit
    exact ⟨[], by rw [hsplit]; rfl⟩
  · have hc : c = ' ' := hspaces c (by simp [hfront])
    subst hc
    rw [hfront, List.concat_eq_append, List.append_assoc] at hsplit
    exact ⟨' ' :: front, congrArg (' ' :: ·) hsplit.symm⟩

namespace JoinSpec

/-- A word that is dropped stands between spaces. -/
theorem exists_of_dropSpacedWord? {word : List Char} (h : dropSpacedWord? word s = some rest) :
    ∃ t front, s = ' ' :: t ∧ t = front ++ ' ' :: rest := by
  obtain ⟨spaced, hspaced, h⟩ := Option.bind_eq_some_iff.mp h
  obtain ⟨behind, hbehind, hrest⟩ := Option.bind_eq_some_iff.mp h
  obtain ⟨t, rfl, hdrop⟩ := Text.dropSpaces?_eq_some_iff.mp hspaced
  obtain ⟨word', -, hword⟩ := Text.dropWord?_eq_some_iff.mp hbehind
  obtain ⟨front, rfl⟩ := exists_of_dropSpaces? hrest
  refine ⟨t, t.takeWhile (· == ' ') ++ (word' ++ front), rfl, ?_⟩
  have hsplit := List.takeWhile_append_dropWhile (p := (· == ' ')) (l := t)
  rw [hdrop, hword] at hsplit
  simpa using hsplit.symm

theorem isSection_of_mem_conjunctsFrom {part p : List Char} {skip : Nat}
    (h : p ∈ conjunctsFrom part skip s) : IsSection p (part ++ s.drop skip) := by
  induction s generalizing part skip with
  | nil =>
    rw [conjunctsFrom, List.mem_singleton] at h
    rw [h, List.drop_nil, List.append_nil]
    exact IsSection.refl part
  | cons c s ih =>
    rw [conjunctsFrom] at h
    split at h
    · next hskip =>
      obtain ⟨skip, rfl⟩ := Nat.exists_eq_add_one.mpr hskip
      exact ih h
    · next hskip =>
      obtain rfl : skip = 0 := by omega
      split at h
      · next rest hrest =>
        obtain ⟨t, front, heq, rfl⟩ := exists_of_dropSpacedWord? hrest
        obtain ⟨rfl, rfl⟩ := List.cons.inj heq
        rcases List.mem_cons.mp h with rfl | h
        · exact isSection_append_left edge_space p _
        · have hlater := ih h
          have hdrop : (front ++ ' ' :: rest).length - rest.length = front.length + 1 := by
            simp
            omega
          rw [hdrop, ← List.drop_drop, List.drop_left] at hlater
          have hrest := isSection_append_cons edge_space (part ++ ' ' :: front) rest
          rw [List.append_assoc] at hrest
          exact hlater.trans hrest
      · have hmore := ih h
        rwa [List.append_assoc] at hmore

/-- The condition stands behind a space that is behind the table. -/
theorem exists_of_divide? {table condition : List Char}
    (h : divide? s = some (table, condition)) :
    ∃ front back, s = front ++ ' ' :: back ∧ (∃ c ∈ front, c ≠ ' ') ∧
      IsSection condition back := by
  unfold divide? at h
  obtain ⟨condition', hword, h⟩ := Option.bind_eq_some_iff.mp h
  split at h
  · cases h
  · next hne =>
    cases h
    simp only [Bool.or_eq_true, List.isEmpty_iff, not_or] at hne
    obtain ⟨t, front, hspaced, rfl⟩ := exists_of_dropSpacedWord? hword
    have hspaces := List.takeWhile_append_dropWhile (p := (· == ' ')) (l := s)
    have htable := List.takeWhile_append_dropWhile (p := (· != ' ')) (l := s.dropWhile (· == ' '))
    rw [hspaced] at htable
    refine ⟨s.takeWhile (· == ' ') ++ (s.dropWhile (· == ' ')).takeWhile (· != ' '),
      front ++ ' ' :: condition, ?_, ?_, isSection_append_cons edge_space front condition⟩
    · rw [List.append_assoc, htable, hspaces]
    · obtain ⟨c, hc⟩ := List.exists_mem_of_ne_nil _ hne.1
      have hspace := List.all_eq_true.mp List.all_takeWhile c hc
      exact ⟨c, List.mem_append_right _ hc, by simpa using hspace⟩

end JoinSpec

/-! ## Clauses -/

namespace Clauses

/-- The text of a clause that holds expressions. -/
def text? (clauses : Clauses) : ClauseKind → Option (List Char)
  | .select => clauses.select.map SelectClause.text
  | .update => clauses.update
  | .condition => clauses.condition
  | .orderBy => clauses.orderBy.map OrderClause.text
  | .groupBy => clauses.groupBy
  | .join => clauses.join.map JoinClause.text
  | .exclusion => clauses.exclusion
  | .limit => .none

variable {clauses clauses' : Clauses} {kind : ClauseKind} {text : List Char}

theorem isSection_of_nonEmpty (h : nonEmpty kind text = .ok t) : IsSection t text ∧ t ≠ [] := by
  unfold nonEmpty at h
  dsimp only at h
  split at h
  · cases h
  · next hne =>
    cases h
    exact ⟨isSection_trim text, by simpa using hne⟩

theorem isSection_of_atDelimiter (front : List Char) (h : Text.atDelimiter rest = true) :
    IsSection (rest.dropWhile (· == ' ')) (front ++ rest) := by
  cases rest with
  | nil => exact fun hne => absurd rfl hne
  | cons c rest =>
    obtain rfl : c = ' ' := by simpa [Text.atDelimiter] using h
    obtain ⟨spaces, hspaces⟩ := exists_of_dropSpaces? (s := ' ' :: rest) rfl
    have hsection := isSection_append_cons edge_space (front ++ spaces)
      (rest.dropWhile (· == ' '))
    rw [List.append_assoc, ← hspaces] at hsection
    rwa [List.dropWhile_cons_of_pos (by rfl)]

theorem isSection_of_takeTop? {digits : List Char} (h : takeTop? text = some (digits, rest)) :
    IsSection rest text := by
  unfold takeTop? at h
  obtain ⟨behind, hword, h⟩ := Option.bind_eq_some_iff.mp h
  obtain ⟨numbered, hspaces, h⟩ := Option.bind_eq_some_iff.mp h
  dsimp only at h
  split at h
  · cases h
  · next hdelimiter =>
    cases h
    obtain ⟨word, -, rfl⟩ := Text.dropWord?_eq_some_iff.mp hword
    obtain ⟨front, rfl⟩ := exists_of_dropSpaces? hspaces
    have hsplit := List.takeWhile_append_dropWhile (p := Char.isDigit) (l := numbered)
    have hrest : Text.atDelimiter (numbered.dropWhile Char.isDigit) = true := by simp_all
    have hsection := isSection_of_atDelimiter
      (word ++ front ++ ' ' :: numbered.takeWhile Char.isDigit) hrest
    simpa [hsplit] using hsection

theorem isSection_takeDistinct (text : List Char) : IsSection (takeDistinct text).2 text := by
  unfold takeDistinct
  split
  · exact IsSection.refl text
  · next rest hword =>
    obtain ⟨word, -, rfl⟩ := Text.dropWord?_eq_some_iff.mp hword
    split
    · next counted hcounted =>
      obtain ⟨spaced, hspaced, hcounted⟩ := Option.bind_eq_some_iff.mp hcounted
      obtain ⟨count, -, rfl⟩ := Text.dropWord?_eq_some_iff.mp hcounted
      obtain ⟨front, rfl⟩ := exists_of_dropSpaces? hspaced
      split
      · next hdelimiter =>
        have hsection := isSection_of_atDelimiter (word ++ front ++ ' ' :: count) hdelimiter
        simpa using hsection
      · obtain ⟨t, ht, -⟩ := Text.dropSpaces?_eq_some_iff.mp hspaced
        exact isSection_of_atDelimiter word (by rw [ht]; rfl)
    · split
      · next hdelimiter => exact isSection_of_atDelimiter word hdelimiter
      · exact IsSection.refl _

theorem isSection_of_readSelect {select : SelectClause} (h : readSelect text = .ok select) :
    IsSection select.text text ∧ select.text ≠ [] := by
  have hlater : ∀ {rest top}, IsSection rest text → (do
      return (⟨← nonEmpty .select (takeDistinct rest).2, top, (takeDistinct rest).1⟩ :
        SelectClause)) = .ok select → IsSection select.text text ∧ select.text ≠ [] := by
    intro rest top hrest h
    obtain ⟨t, hnonEmpty, h⟩ := bind_eq_ok_iff.mp h
    cases h
    obtain ⟨hsection, hne⟩ := isSection_of_nonEmpty hnonEmpty
    exact ⟨(hsection.trans (isSection_takeDistinct rest)).trans hrest, hne⟩
  unfold readSelect at h
  split at h
  · next htake =>
    obtain ⟨_, hlimit, h⟩ := bind_eq_ok_iff.mp h
    obtain ⟨n, -, rfl⟩ := map_eq_ok_iff.mp hlimit
    exact hlater (isSection_of_takeTop? htake) h
  · exact hlater (IsSection.refl text) h

theorem isSection_dropSet (text : List Char) : IsSection (dropSet text) text := by
  unfold dropSet
  cases hset : (Text.dropWord? "SET".toList text).bind Text.dropSpaces? with
  | none => exact IsSection.refl text
  | some rest =>
    obtain ⟨behind, hword, hspaces⟩ := Option.bind_eq_some_iff.mp hset
    obtain ⟨word, -, rfl⟩ := Text.dropWord?_eq_some_iff.mp hword
    obtain ⟨front, rfl⟩ := exists_of_dropSpaces? hspaces
    rw [← List.append_assoc]
    exact isSection_append_cons edge_space _ rest

/-- What stands before the last word of a text with spaces. -/
theorem isSection_lastWord (h : ' ' ∈ text) : IsSection (lastWord text).1 text := by
  have hsplit := List.takeWhile_append_dropWhile (p := (· != ' ')) (l := text.reverse)
  cases hbefore : text.reverse.dropWhile (· != ' ') with
  | nil =>
    have hspace := List.dropWhile_eq_nil_iff.mp hbefore ' ' (List.mem_reverse.mpr h)
    simp at hspace
  | cons c before =>
    have hc := List.head?_dropWhile_not (· != ' ') text.reverse
    rw [hbefore] at hc
    obtain rfl : c = ' ' := by simpa using hc
    obtain ⟨spaces, hspaces⟩ := exists_of_dropSpaces? (s := ' ' :: before) rfl
    have hfirst : (lastWord text).1 = (before.dropWhile (· == ' ')).reverse := by
      rw [lastWord]
      dsimp only
      rw [hbefore, List.dropWhile_cons_of_pos (by rfl)]
    have htext : text = (before.dropWhile (· == ' ')).reverse ++
        ' ' :: (spaces.reverse ++ (text.reverse.takeWhile (· != ' ')).reverse) := by
      rw [hbefore, hspaces] at hsplit
      simpa using (congrArg List.reverse hsplit).symm
    have hsection := isSection_append_left edge_space (before.dropWhile (· == ' ')).reverse
      (spaces.reverse ++ (text.reverse.takeWhile (· != ' ')).reverse)
    rwa [← htext, ← hfirst] at hsection

theorem isSection_of_readOrder {order : OrderClause} (h : readOrder text = .ok order) :
    IsSection order.text text ∧ order.text ≠ [] := by
  unfold readOrder at h
  dsimp only at h
  split at h
  · next hdirected =>
    obtain ⟨t, hnonEmpty, h⟩ := bind_eq_ok_iff.mp h
    cases h
    obtain ⟨hsection, hne⟩ := isSection_of_nonEmpty hnonEmpty
    rw [Bool.and_eq_true, List.contains_iff_mem] at hdirected
    exact ⟨hsection.trans (isSection_lastWord hdirected.1), hne⟩
  · obtain ⟨t, hnonEmpty, h⟩ := bind_eq_ok_iff.mp h
    cases h
    exact isSection_of_nonEmpty hnonEmpty

/-- A clause leaves the texts of all other ones as they are. -/
theorem text?_of_add_of_ne {place : KeywordPlace} (h : clauses.add place text = .ok clauses')
    (hne : place.kind ≠ kind) : clauses'.text? kind = clauses.text? kind := by
  unfold add at h
  split at h
  all_goals rename_i hplace
  case' h_1 | h_2 =>
    split at h
    · cases h
  all_goals
    obtain ⟨added, -, h⟩ := bind_eq_ok_iff.mp h
    cases h
    cases kind <;> first | rfl | exact absurd hplace hne

/-- What a clause adds is a section of its text. -/
theorem isSection_of_add {place : KeywordPlace} (h : clauses.add place text = .ok clauses')
    (ht : clauses'.text? kind = some t) :
    clauses.text? kind = some t ∨ place.kind = kind ∧ IsSection t text ∧ t ≠ [] := by
  by_cases hkind : place.kind = kind
  · subst hkind
    refine .inr ⟨rfl, ?_⟩
    unfold add at h
    split at h
    all_goals
      rename_i hplace
      rw [hplace] at ht
    case' h_1 | h_2 =>
      split at h
      · cases h
    all_goals
      obtain ⟨added, hadded, h⟩ := bind_eq_ok_iff.mp h
      cases h
      cases ht
    · exact isSection_of_readSelect hadded
    · obtain ⟨hsection, hne⟩ := isSection_of_nonEmpty hadded
      exact ⟨hsection.trans (isSection_dropSet text), hne⟩
    · exact isSection_of_nonEmpty hadded
    · exact isSection_of_readOrder hadded
    · exact isSection_of_nonEmpty hadded
    · exact isSection_of_nonEmpty hadded
    · exact isSection_of_nonEmpty hadded
  · exact .inl ((text?_of_add_of_ne h hkind).symm.trans ht)

end Clauses
end TableQuery
