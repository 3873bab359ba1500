import TableQuery.Text.Search

/-!
# Cutting and splitting text

The equations of splitting.  A text is cut where the pattern occurs first, so a part in front
of the pattern is cut off as it is unless an occurrence already begins in it.  For a pattern
of one character, a text is cut at the first such character, and parts without it that have
been joined by it are the parts that splitting gives.
-/

namespace TableQuery
namespace Text

theorem split_eq_singleton {p s : List Char} (hp : p ≠ []) (hcut : cut? p s = none) :
    split p s = [s] := by
  rw [split, dif_neg hp]
  split <;> simp_all

theorem split_eq_cons {p s before after : List Char} (hp : p ≠ [])
    (hcut : cut? p s = some (before, after)) : split p s = before :: split p after := by
  rw [split, dif_neg hp]
  split <;> simp_all

theorem joinWith_cons_cons (p part next : List Char) (parts : List (List Char)) :
    joinWith p (part :: next :: parts) = part ++ p ++ joinWith p (next :: parts) :=
  rfl

theorem joinWith_cons {p part : List Char} {parts : List (List Char)} (hparts : parts ≠ []) :
    joinWith p (part :: parts) = part ++ p ++ joinWith p parts := by
  cases parts with
  | nil => exact absurd rfl hparts
  | cons next parts => rfl

theorem joinWith_cons_eq_append_flatMap (p part : List Char) (parts : List (List Char)) :
    joinWith p (part :: parts) = part ++ parts.flatMap (p ++ ·) := by
  induction parts generalizing part with
  | nil => exact (List.append_nil part).symm
  | cons next parts ih =>
    rw [joinWith_cons_cons, ih, List.flatMap_cons, List.append_assoc, List.append_assoc]

theorem joinWith_append_cons (p front part : List Char) (parts : List (List Char)) :
    joinWith p ((front ++ part) :: parts) = front ++ joinWith p (part :: parts) := by
  cases parts with
  | nil => rfl
  | cons next parts => simp only [joinWith_cons_cons, List.append_assoc]

theorem joinWith_concat {p : List Char} {parts : List (List Char)} (hparts : parts ≠ [])
    (last : List Char) : joinWith p (parts ++ [last]) = joinWith p parts ++ (p ++ last) := by
  induction parts with
  | nil => exact absurd rfl hparts
  | cons part parts ih =>
    cases parts with
    | nil => exact List.append_assoc part p last
    | cons next parts =>
      rw [List.cons_append, joinWith_cons (by simp), ih (List.cons_ne_nil next parts),
        joinWith_cons_cons, ← List.append_assoc]

theorem split_ne_nil {p s : List Char} (hp : p ≠ []) : split p s ≠ [] := by
  cases hcut : cut? p s with
  | none => simp [split_eq_singleton hp hcut]
  | some parts => simp [split_eq_cons hp hcut]

/-- The parts of a text put together again are the text. -/
theorem joinWith_split {p : List Char} (hp : p ≠ []) (s : List Char) :
    joinWith p (split p s) = s := by
  generalize hlength : s.length = n
  induction n using Nat.strongRecOn generalizing s with
  | _ n ih =>
    cases hcut : cut? p s with
    | none => rw [split_eq_singleton hp hcut, joinWith]
    | some parts =>
      obtain ⟨before, after⟩ := parts
      have hafter : joinWith p (split p after) = after :=
        ih after.length (hlength ▸ length_lt_of_cut? hcut hp) after rfl
      rw [split_eq_cons hp hcut, joinWith_cons (split_ne_nil hp), hafter, eq_of_cut? hcut]

theorem isPrefixOf?_append (p s : List Char) : p.isPrefixOf? (p ++ s) = some s := by
  induction p with
  | nil => rfl
  | cons c p ih =>
    rw [List.cons_append]
    exact (if_pos (beq_self_eq_true c)).trans ih

/-! ## Occurrences -/

theorem isPrefixOf?_eq_none_iff {p s : List Char} : p.isPrefixOf? s = none ↔ ¬p <+: s := by
  constructor
  · rintro hnone ⟨after, rfl⟩
    rw [isPrefixOf?_append] at hnone
    cases hnone
  · intro hprefix
    cases hafter : p.isPrefixOf? s with
    | none => rfl
    | some after => exact absurd ⟨after, (eq_append_of_isPrefixOf? hafter).symm⟩ hprefix

theorem cut?_cons_of_isPrefix {p : List Char} {c : Char} {s : List Char} (h : p <+: c :: s) :
    ∃ after, cut? p (c :: s) = some ([], after) := by
  obtain ⟨after, hafter⟩ := h
  exact ⟨after, by rw [cut?, ← hafter, isPrefixOf?_append]⟩

theorem cut?_cons_of_not_isPrefix {p : List Char} {c : Char} {s : List Char} (h : ¬p <+: c :: s) :
    cut? p (c :: s) = (cut? p s).map fun (before, after) => (c :: before, after) := by
  rw [cut?, isPrefixOf?_eq_none_iff.mpr h]

/-- A text is cut exactly if the pattern occurs in it. -/
theorem cut?_eq_none_iff {p s : List Char} : cut? p s = none ↔ ¬p <:+: s := by
  induction s with
  | nil => cases p <;> simp [cut?]
  | cons c s ih =>
    rw [List.infix_cons_iff]
    by_cases hprefix : p <+: c :: s
    · obtain ⟨after, hcut⟩ := cut?_cons_of_isPrefix hprefix
      simp [hcut, hprefix]
    · simp [cut?_cons_of_not_isPrefix hprefix, hprefix, ih]

theorem contains_iff_infix {p s : List Char} : contains p s = true ↔ p <:+: s := by
  rw [contains, Option.isSome_iff_ne_none, Ne, cut?_eq_none_iff, Classical.not_not]

/-- A cut is at the first occurrence of the pattern. -/
theorem length_le_of_cut? {p x y before after : List Char}
    (h : cut? p (x ++ (p ++ y)) = some (before, after)) : before.length ≤ x.length := by
  induction x generalizing before with
  | nil =>
    rw [List.nil_append] at h
    cases hs : p ++ y with
    | nil =>
      obtain ⟨rfl, rfl⟩ := List.append_eq_nil_iff.mp hs
      cases h
      exact Nat.le_refl 0
    | cons c s =>
      obtain ⟨rest, hcut⟩ := cut?_cons_of_isPrefix (hs ▸ List.prefix_append p y)
      rw [hs, hcut] at h
      cases h
      exact Nat.le_refl 0
  | cons c x ih =>
    rw [List.cons_append, cut?] at h
    split at h
    · cases h
      exact Nat.zero_le _
    · obtain ⟨⟨b, a⟩, hcut, heq⟩ := Option.map_eq_some_iff.mp h
      cases heq
      exact Nat.succ_le_succ (ih hcut)

/-- A part is cut off at the pattern behind it exactly if the pattern does not begin in the
part.  One that does ends before the last character of the pattern behind the part. -/
theorem cut?_append_iff {p : List Char} (hp : p ≠ []) (part rest : List Char) :
    cut? p (part ++ (p ++ rest)) = some (part, rest) ↔ ¬p <:+: part ++ p.dropLast := by
  have hlength : p.length = p.dropLast.length + 1 := by
    rw [List.length_dropLast, Nat.sub_add_cancel (List.length_pos_iff.mpr hp)]
  induction part with
  | nil =>
    have hshort : ¬p <:+: p.dropLast := fun hinfix => by
      have := hinfix.length_le
      omega
    obtain ⟨c, p, rfl⟩ := List.exists_cons_of_ne_nil hp
    simp only [List.nil_append, hshort, not_false_eq_true, iff_true]
    rw [List.cons_append, cut?, ← List.cons_append, isPrefixOf?_append]
  | cons c part ih =>
    have hfront : (c :: part) ++ p.dropLast <+: (c :: part) ++ (p ++ rest) :=
      (List.prefix_append_right_inj _).mpr
        ((List.dropLast_prefix p).trans (List.prefix_append p rest))
    simp only [List.cons_append, List.infix_cons_iff] at hfront ⊢
    by_cases hprefix : p <+: c :: (part ++ (p ++ rest))
    · have hpart : p <+: c :: (part ++ p.dropLast) := by
        refine List.prefix_of_prefix_length_le hprefix hfront ?_
        simp only [List.length_cons, List.length_append]
        omega
      obtain ⟨after, hcut⟩ := cut?_cons_of_isPrefix hprefix
      simp [hcut, hpart]
    · have hpart : ¬p <+: c :: (part ++ p.dropLast) := fun h => hprefix (h.trans hfront)
      rw [cut?_cons_of_not_isPrefix hprefix]
      simpa [hpart] using ih

/-! ## Patterns of one character -/

theorem isPrefixOf?_singleton_self (d : Char) (s : List Char) :
    [d].isPrefixOf? (d :: s) = some s :=
  if_pos (beq_self_eq_true d)

theorem isPrefixOf?_singleton_of_ne {d c : Char} (hne : d ≠ c) (s : List Char) :
    [d].isPrefixOf? (c :: s) = none :=
  if_neg (by simpa using hne)

theorem cut?_singleton_cons_self (d : Char) (s : List Char) :
    cut? [d] (d :: s) = some ([], s) := by
  rw [cut?, isPrefixOf?_singleton_self]

theorem cut?_singleton_cons_of_ne {d c : Char} (hne : d ≠ c) (s : List Char) :
    cut? [d] (c :: s) = (cut? [d] s).map fun (before, after) => (c :: before, after) := by
  rw [cut?, isPrefixOf?_singleton_of_ne hne]

/-- A part without the character is cut off at the character behind it. -/
theorem cut?_singleton_append {d : Char} {part : List Char} (hpart : d ∉ part)
    (rest : List Char) : cut? [d] (part ++ d :: rest) = some (part, rest) := by
  induction part with
  | nil => exact cut?_singleton_cons_self d rest
  | cons c part ih =>
    obtain ⟨hne, hmem⟩ := not_or.mp (mt List.mem_cons.mpr hpart)
    rw [List.cons_append, cut?_singleton_cons_of_ne hne, ih hmem]
    rfl

theorem cut?_singleton_eq_none {d : Char} {s : List Char} (hs : d ∉ s) :
    cut? [d] s = none := by
  induction s with
  | nil => rfl
  | cons c s ih =>
    obtain ⟨hne, hmem⟩ := not_or.mp (mt List.mem_cons.mpr hs)
    rw [cut?_singleton_cons_of_ne hne, ih hmem]
    rfl

/-- A text contains a character as a pattern exactly if it is one of its characters. -/
theorem contains_singleton_iff {d : Char} {s : List Char} :
    contains [d] s = true ↔ d ∈ s := by
  induction s with
  | nil => simp [contains, cut?]
  | cons c s ih =>
    by_cases hne : d = c
    · subst hne
      simp [contains, cut?_singleton_cons_self]
    · rw [contains, cut?_singleton_cons_of_ne hne, Option.isSome_map]
      simpa [contains, hne] using ih

/-- Parts without the character are what splitting gives back. -/
theorem split_joinWith_singleton {d : Char} {parts : List (List Char)} (hne : parts ≠ [])
    (hparts : ∀ part ∈ parts, d ∉ part) : split [d] (joinWith [d] parts) = parts := by
  induction parts with
  | nil => exact absurd rfl hne
  | cons part parts ih =>
    have hpart : d ∉ part := hparts part List.mem_cons_self
    cases parts with
    | nil => exact split_eq_singleton (by simp) (cut?_singleton_eq_none hpart)
    | cons next parts =>
      have hrest := ih (by simp) fun other hother => hparts other (List.mem_cons_of_mem _ hother)
      have hcut : cut? [d] (joinWith [d] (part :: next :: parts)) =
          some (part, joinWith [d] (next :: parts)) := by
        rw [joinWith_cons_cons, List.append_assoc]
        exact cut?_singleton_append hpart _
      rw [split_eq_cons (by simp) hcut, hrest]

theorem split_singleton_cons_self (d : Char) (s : List Char) :
    split [d] (d :: s) = [] :: split [d] s :=
  split_eq_cons (by simp) (cut?_singleton_cons_self d s)

theorem split_singleton_cons_of_ne {d c : Char} (hne : d ≠ c) {s part : List Char}
    {parts : List (List Char)} (h : split [d] s = part :: parts) :
    split [d] (c :: s) = (c :: part) :: parts := by
  have hcons := cut?_singleton_cons_of_ne hne s
  cases hcut : cut? [d] s with
  | none =>
    rw [hcut] at hcons
    rw [split_eq_singleton (by simp) hcut] at h
    rw [split_eq_singleton (by simp) hcons]
    cases h
    rfl
  | some pair =>
    rw [hcut] at hcons
    rw [split_eq_cons (by simp) hcut] at h
    rw [split_eq_cons (by simp) hcons]
    cases h
    rfl

/-- The parts that a text is split into at a character do without it. -/
theorem not_mem_of_mem_split {d : Char} {s part : List Char} (h : part ∈ split [d] s) :
    d ∉ part := by
  generalize hlength : s.length = n
  induction n using Nat.strongRecOn generalizing s with
  | _ n ih =>
    by_cases hmem : d ∈ s
    · obtain ⟨before, after, rfl, hbefore⟩ := List.eq_append_cons_of_mem hmem
      rw [split_eq_cons (by simp) (cut?_singleton_append hbefore after)] at h
      obtain rfl | h := List.mem_cons.mp h
      · exact hbefore
      · refine ih after.length ?_ h rfl
        rw [← hlength, List.length_append, List.length_cons]
        omega
    · rw [split_eq_singleton (by simp) (cut?_singleton_eq_none hmem), List.mem_singleton] at h
      exact h ▸ hmem

/-! ## Trimmed texts -/

/-- A text is what is left of it between characters that are taken off. -/
theorem trimBy_append {strip : Char → Bool} {front s back : List Char}
    (hfront : ∀ c ∈ front, strip c) (hs : ∀ c ∈ s, strip c = false) (hne : s ≠ [])
    (hback : ∀ c ∈ back, strip c) : trimBy strip (front ++ (s ++ back)) = s := by
  have hback' : ∀ c ∈ back.reverse, strip c := fun c hc => hback c (List.mem_reverse.mp hc)
  have hlast : s.reverse.dropWhile strip = s.reverse := by
    cases hreverse : s.reverse with
    | nil => rfl
    | cons c rest =>
      have hmem : c ∈ s := List.mem_reverse.mp (hreverse ▸ List.mem_cons_self)
      exact List.dropWhile_cons_of_neg (by simp [hs c hmem])
  obtain ⟨c, rest, rfl⟩ := List.exists_cons_of_ne_nil hne
  have hc : ¬strip c := by simp [hs c List.mem_cons_self]
  rw [trimBy, trimEndBy, List.dropWhile_append_of_pos hfront, List.cons_append,
    List.dropWhile_cons_of_neg hc, ← List.cons_append, List.reverse_append,
    List.dropWhile_append_of_pos hback', hlast, List.reverse_reverse]

theorem trimBy_append_left {strip : Char → Bool} {front : List Char}
    (hfront : ∀ c ∈ front, strip c) (s : List Char) :
    trimBy strip (front ++ s) = trimBy strip s := by
  rw [trimBy, List.dropWhile_append_of_pos hfront, trimBy]

theorem trimBy_concat {strip : Char → Bool} {c : Char} (hc : strip c) (s : List Char) :
    trimBy strip (s ++ [c]) = trimBy strip s := by
  have hend : ∀ s, trimEndBy strip (s ++ [c]) = trimEndBy strip s := by
    intro s
    simp [trimEndBy, hc]
  rw [trimBy, List.dropWhile_append]
  split
  · next hempty =>
    rw [trimBy, List.isEmpty_iff.mp hempty, List.dropWhile_cons_of_pos hc]
    rfl
  · exact hend _

/-! ## Lines -/

theorem length_joinWith_cons_le (d : Char) (part : List Char) (parts : List (List Char)) :
    (joinWith [d] (part :: parts)).length ≤ part.length + 1 + (joinWith [d] parts).length := by
  cases parts with
  | nil => simp [joinWith]
  | cons next parts =>
    simp only [joinWith_cons_cons, List.length_append, List.length_singleton]
    exact Nat.le_refl _

theorem length_chomp_le (line : List Char) : (chomp line).length ≤ line.length := by
  have hlength : line.length = line.reverse.length := List.length_reverse.symm
  rw [chomp]
  split
  case h_1 rest hline =>
    simp only [hlength, hline, List.length_reverse, List.length_cons]
    omega
  case h_2 rest _ hline => simp [hlength, hline]
  case h_3 => exact Nat.le_refl _

/-- A line loses its line feed. -/
theorem length_chomp_concat_le (line : List Char) :
    (chomp (line ++ ['\n'])).length ≤ line.length := by
  have hlength : line.reverse.length = line.length := List.length_reverse
  rw [← hlength, chomp, List.reverse_concat]
  split
  case h_1 rest heq => simp [(List.cons.inj heq).2]
  case h_2 rest _ heq => simp [(List.cons.inj heq).2]
  case h_3 hother => exact absurd rfl (hother _)

/-- All pieces but the last one are ended. -/
theorem exists_of_mem_dropLast_pieces {α : Type} {stop : α → Bool} {s piece : List α}
    (h : piece ∈ (pieces stop s).dropLast) : ∃ before a, piece = before ++ [a] ∧ stop a := by
  induction s generalizing piece with
  | nil => cases h
  | cons a s ih =>
    rw [pieces] at h
    cases hpieces : pieces stop s with
    | nil => simp [hpieces] at h
    | cons first others =>
      rw [hpieces] at h ih
      split at h
      · obtain rfl | h := List.mem_cons.mp h
        · exact ⟨[], a, rfl, ‹_›⟩
        · exact ih h
      · cases others with
        | nil => cases h
        | cons next others =>
          obtain rfl | h := List.mem_cons.mp h
          · obtain ⟨before, b, rfl, hb⟩ := ih List.mem_cons_self
            exact ⟨a :: before, b, rfl, hb⟩
          · exact ih (List.mem_cons_of_mem first h)

/-- Lines that are joined again are no longer than the pieces they have been made of. -/
theorem length_joinWith_chomp_le (keep : List Char → Bool) {lines : List (List Char)}
    (h : ∀ line ∈ lines.dropLast, ∃ text, line = text ++ ['\n']) :
    (joinWith ['\n'] ((lines.map chomp).filter keep)).length ≤ lines.flatten.length := by
  induction lines with
  | nil => exact Nat.le_refl 0
  | cons line lines ih =>
    rw [List.map_cons, List.filter_cons, List.flatten_cons, List.length_append]
    cases lines with
    | nil =>
      have hchomp := length_chomp_le line
      split <;> simp [joinWith, hchomp]
    | cons next lines =>
      obtain ⟨⟨text, rfl⟩, hlines⟩ := List.forall_mem_cons.mp h
      have hrest := ih hlines
      have hchomp := length_chomp_concat_le text
      split
      · have hjoin := length_joinWith_cons_le '\n' (chomp (text ++ ['\n']))
          (((next :: lines).map chomp).filter keep)
        rw [List.length_append, List.length_singleton]
        omega
      · omega

/-- Lines that are joined again are no longer than the text. -/
theorem length_joinWith_lines_le (keep : List Char → Bool) (s : List Char) :
    (joinWith ['\n'] ((lines s).filter keep)).length ≤ s.length := by
  have hends : ∀ line ∈ (pieces (· == '\n') s).dropLast, ∃ text, line = text ++ ['\n'] := by
    intro line hline
    obtain ⟨text, c, rfl, hc⟩ := exists_of_mem_dropLast_pieces hline
    exact ⟨text, by rw [eq_of_beq hc]⟩
  have hlength := length_joinWith_chomp_le keep hends
  rwa [flatten_pieces] at hlength

end Text
end TableQuery
