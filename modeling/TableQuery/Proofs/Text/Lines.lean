import TableQuery.Proofs.Text.Search

/-!
# Lines of joined texts

Parts without line feeds that have been joined by line feeds are the lines of the result,
except that a line loses a carriage return before its line feed.  Over a whole text this
comes to dropping each carriage return that a line feed follows.
-/

namespace TableQuery
namespace Text

/-! ## Pieces -/

section

variable {α : Type} {stop : α → Bool} {part : List α}

theorem pieces_append_cons (hpart : ∀ b ∈ part, stop b = false) {a : α} (ha : stop a = true)
    (rest : List α) : pieces stop (part ++ a :: rest) = (part ++ [a]) :: pieces stop rest := by
  induction part with
  | nil => rw [List.nil_append, pieces, if_pos ha, List.nil_append]
  | cons b part ih =>
    obtain ⟨hb, hothers⟩ := List.forall_mem_cons.mp hpart
    rw [List.cons_append, pieces, if_neg (by simp [hb]), ih hothers]
    rfl

/-- A part in which nothing stops belongs to the piece behind it. -/
theorem pieces_append_of_forall (hpart : ∀ b ∈ part, stop b = false) (hne : part ≠ [])
    (rest : List α) :
    pieces stop (part ++ rest) =
      match pieces stop rest with
      | [] => [part]
      | piece :: others => (part ++ piece) :: others := by
  induction part with
  | nil => exact absurd rfl hne
  | cons b part ih =>
    obtain ⟨hb, hothers⟩ := List.forall_mem_cons.mp hpart
    rw [List.cons_append, pieces, if_neg (by simp [hb])]
    -- Only the last element of the part meets the pieces of the rest.
    cases part with
    | nil => rfl
    | cons c part =>
      rw [ih hothers (List.cons_ne_nil c part)]
      cases pieces stop rest <;> rfl

theorem pieces_of_forall (hpart : ∀ b ∈ part, stop b = false) (hne : part ≠ []) :
    pieces stop part = [part] := by
  have hpieces := pieces_append_of_forall hpart hne []
  rwa [List.append_nil] at hpieces

end

/-! ## Ends of lines -/

/-- A line that a line feed ends, without a carriage return before it. -/
def lineBefore (line : List Char) : List Char :=
  if line.getLast? = some '\r' then line.dropLast else line

/-- A text with a line feed in place of every carriage return and line feed. -/
def dropReturns : List Char → List Char
  | [] => []
  | c :: s => if c = '\r' ∧ s.head? = some '\n' then dropReturns s else c :: dropReturns s

theorem lineBefore_concat_return (line : List Char) : lineBefore (line ++ ['\r']) = line := by
  rw [lineBefore, List.getLast?_concat, if_pos rfl, List.dropLast_concat]

theorem lineBefore_concat_of_ne {c : Char} (hc : c ≠ '\r') (line : List Char) :
    lineBefore (line ++ [c]) = line ++ [c] := by
  rw [lineBefore, List.getLast?_concat, if_neg (by simpa using hc)]

theorem not_mem_lineBefore {c : Char} {line : List Char} (h : c ∉ line) : c ∉ lineBefore line := by
  rw [lineBefore]
  split
  · exact fun hmem => h ((List.dropLast_sublist line).subset hmem)
  · exact h

theorem chomp_concat (line : List Char) : chomp (line ++ ['\n']) = lineBefore line := by
  obtain rfl | ⟨before, c, rfl⟩ := List.eq_nil_or_concat line
  · rfl
  · rw [List.concat_eq_append, lineBefore, List.getLast?_concat, List.dropLast_concat, chomp,
      List.reverse_append, List.reverse_append, List.reverse_singleton, List.reverse_singleton,
      List.singleton_append, List.singleton_append]
    by_cases hc : c = '\r'
    · subst hc
      simp
    · rw [if_neg (by simpa using hc)]
      split
      · next heq => simp_all
      · next heq =>
        cases heq
        simp
      · next hother => exact absurd rfl (hother _)

theorem chomp_of_not_mem {line : List Char} (h : '\n' ∉ line) : chomp line = line := by
  have hlast : ∀ rest, line.reverse ≠ '\n' :: rest := by
    intro rest hrest
    have hmem : '\n' ∈ line.reverse := hrest ▸ List.mem_cons_self
    exact h (List.mem_reverse.mp hmem)
  rw [chomp]
  split
  · next heq => exact absurd heq (hlast _)
  · next heq => exact absurd heq (hlast _)
  · rfl

theorem beq_of_not_mem {a : Char} {s : List Char} (h : a ∉ s) : ∀ c ∈ s, (c == a) = false := by
  intro c hc
  rw [beq_eq_false_iff_ne]
  rintro rfl
  exact h hc

theorem lines_append_cons {line : List Char} (h : '\n' ∉ line) (rest : List Char) :
    lines (line ++ '\n' :: rest) = lineBefore line :: lines rest := by
  rw [lines, pieces_append_cons (beq_of_not_mem h) rfl, List.map_cons, chomp_concat, lines]

theorem lines_of_not_mem {line : List Char} (h : '\n' ∉ line) (hne : line ≠ []) :
    lines line = [line] := by
  rw [lines, pieces_of_forall (beq_of_not_mem h) hne, List.map_singleton, chomp_of_not_mem h]

/-- The lines of parts that have been joined by line feeds come before those of the text
behind them. -/
theorem lines_joinWith_append {parts : List (List Char)} (hne : parts ≠ [])
    (hparts : ∀ part ∈ parts, '\n' ∉ part) (rest : List Char) :
    lines (joinWith ['\n'] parts ++ '\n' :: rest) = parts.map lineBefore ++ lines rest := by
  induction parts with
  | nil => exact absurd rfl hne
  | cons part parts ih =>
    obtain ⟨hpart, hothers⟩ := List.forall_mem_cons.mp hparts
    cases parts with
    | nil => exact lines_append_cons hpart rest
    | cons next parts =>
      rw [joinWith_cons_cons, List.append_assoc, List.append_assoc, List.singleton_append,
        lines_append_cons hpart, ih (List.cons_ne_nil next parts) hothers]
      rfl

theorem lines_joinWith {parts : List (List Char)} {last : List Char}
    (hparts : ∀ part ∈ parts, '\n' ∉ part) (hlast : '\n' ∉ last) (hne : last ≠ []) :
    lines (joinWith ['\n'] (parts ++ [last])) = parts.map lineBefore ++ [last] := by
  cases parts with
  | nil => exact lines_of_not_mem hlast hne
  | cons part parts =>
    rw [joinWith_concat (by simp), List.singleton_append, lines_joinWith_append (by simp) hparts,
      lines_of_not_mem hlast hne]

/-! ## Carriage returns -/

theorem dropReturns_of_not_mem {s : List Char} (h : '\n' ∉ s) : dropReturns s = s := by
  induction s with
  | nil => rfl
  | cons c s ih =>
    obtain ⟨-, hs⟩ := not_or.mp (mt List.mem_cons.mpr h)
    have hhead : s.head? ≠ some '\n' := fun hhead => hs (List.mem_of_mem_head? hhead)
    rw [dropReturns, if_neg fun hand => hhead hand.2, ih hs]

/-- A text can be divided wherever no carriage return and line feed are divided. -/
theorem dropReturns_append {s t : List Char}
    (h : s.getLast? ≠ some '\r' ∨ t.head? ≠ some '\n') :
    dropReturns (s ++ t) = dropReturns s ++ dropReturns t := by
  induction s with
  | nil => rfl
  | cons c s ih =>
    rw [List.cons_append, dropReturns, dropReturns]
    -- Only the last character of the first text has its successor in the second one.
    cases s with
    | nil =>
      have hnot : ¬(c = '\r' ∧ t.head? = some '\n') := by
        rintro ⟨rfl, hhead⟩
        exact h.elim (fun hne => hne rfl) fun hne => hne hhead
      rw [List.nil_append, if_neg hnot, if_neg (by simp)]
      rfl
    | cons d s =>
      rw [List.getLast?_cons_cons] at h
      rw [ih h, List.cons_append, List.head?_cons, List.head?_cons]
      split <;> rfl

theorem head?_dropReturns {s : List Char} {c : Char} (hc : c ≠ '\n') (h : s.head? ≠ some c) :
    (dropReturns s).head? ≠ some c := by
  cases s with
  | nil => exact h
  | cons b s =>
    rw [dropReturns]
    split
    · next hreturn =>
      obtain ⟨t, rfl⟩ := List.head?_eq_some_iff.mp hreturn.2
      rw [dropReturns, if_neg (fun hand => absurd hand.1 (by decide)), List.head?_cons]
      simpa using Ne.symm hc
    · exact h

theorem dropReturns_append_cons {line : List Char} (h : '\n' ∉ line) (rest : List Char) :
    dropReturns (line ++ '\n' :: rest) = lineBefore line ++ '\n' :: dropReturns rest := by
  have hrest : dropReturns ('\n' :: rest) = '\n' :: dropReturns rest :=
    if_neg fun hand => absurd hand.1 (by decide)
  by_cases hlast : line.getLast? = some '\r'
  · obtain ⟨before, rfl⟩ := List.getLast?_eq_some_iff.mp hlast
    have hbefore : '\n' ∉ before := fun hmem => h (List.mem_append_left _ hmem)
    have hreturn : dropReturns ('\r' :: '\n' :: rest) = dropReturns ('\n' :: rest) :=
      if_pos ⟨rfl, rfl⟩
    rw [lineBefore, if_pos hlast, List.dropLast_concat, List.append_assoc, List.singleton_append,
      dropReturns_append (.inr (by simp)), hreturn, hrest, dropReturns_of_not_mem hbefore]
  · rw [lineBefore, if_neg hlast, dropReturns_append (.inl hlast), hrest,
      dropReturns_of_not_mem h]

/-- Lines without their carriage returns, put together again. -/
theorem dropReturns_joinWith {parts : List (List Char)} (hne : parts ≠ [])
    (hparts : ∀ part ∈ parts, '\n' ∉ part) (rest : List Char) :
    dropReturns (joinWith ['\n'] parts ++ '\n' :: rest) =
      joinWith ['\n'] (parts.map lineBefore) ++ '\n' :: dropReturns rest := by
  induction parts with
  | nil => exact absurd rfl hne
  | cons part parts ih =>
    obtain ⟨hpart, hothers⟩ := List.forall_mem_cons.mp hparts
    cases parts with
    | nil => exact dropReturns_append_cons hpart rest
    | cons next parts =>
      have hnext := ih (List.cons_ne_nil next parts) hothers
      rw [List.map_cons, List.map_cons, joinWith_cons_cons, joinWith_cons_cons, List.append_assoc,
        List.append_assoc, List.append_assoc, List.append_assoc, List.singleton_append,
        List.singleton_append, dropReturns_append_cons hpart, hnext]
      rfl

/-- A text that ends in no carriage return and stands before a line feed has as its lines
what it is cut into at its line feeds without the carriage returns before them. -/
theorem lines_append_cons_of_getLast? {text : List Char} (h : text.getLast? ≠ some '\r')
    (rest : List Char) :
    lines (text ++ '\n' :: rest) = split ['\n'] (dropReturns text) ++ lines rest := by
  have hne : split ['\n'] text ≠ [] := split_ne_nil (by simp)
  have hparts : ∀ part ∈ split ['\n'] text, '\n' ∉ part := fun part => not_mem_of_mem_split
  have hbefore : ∀ part ∈ (split ['\n'] text).map lineBefore, '\n' ∉ part := by
    intro part hpart
    obtain ⟨line, hline, rfl⟩ := List.mem_map.mp hpart
    exact not_mem_lineBefore (hparts line hline)
  have hlines := lines_joinWith_append hne hparts rest
  have hdrop := dropReturns_joinWith hne hparts []
  rw [joinWith_split (by simp)] at hlines hdrop
  rw [dropReturns_append (.inl h)] at hdrop
  have hjoin : dropReturns text = joinWith ['\n'] ((split ['\n'] text).map lineBefore) :=
    List.append_cancel_right hdrop
  rw [hlines, hjoin, split_joinWith_singleton (by simpa using hne) hbefore]

theorem mem_dropReturns {c : Char} (hc : c ≠ '\r') {s : List Char} (h : c ∈ s) :
    c ∈ dropReturns s := by
  induction s with
  | nil => exact h
  | cons b s ih =>
    rw [dropReturns]
    obtain rfl | hs := List.mem_cons.mp h
    · rw [if_neg fun hand => hc hand.1]
      exact List.mem_cons_self
    · split
      · exact ih hs
      · exact List.mem_cons_of_mem b (ih hs)

theorem length_dropReturns_le (s : List Char) : (dropReturns s).length ≤ s.length := by
  induction s with
  | nil => exact Nat.le_refl 0
  | cons c s ih =>
    rw [dropReturns]
    split
    · exact Nat.le_succ_of_le ih
    · exact Nat.succ_le_succ ih

/-- A text is kept exactly if no carriage return in it stands before a line feed. -/
theorem dropReturns_eq_self_iff {s : List Char} : dropReturns s = s ↔ ¬['\r', '\n'] <:+: s := by
  induction s with
  | nil => simp [dropReturns]
  | cons c s ih =>
    have hpair : ['\r', '\n'] <+: c :: s ↔ c = '\r' ∧ s.head? = some '\n' := by
      cases s <;> simp [List.cons_prefix_cons, eq_comm]
    rw [dropReturns, List.infix_cons_iff, hpair, not_or]
    split
    · next hreturn =>
      -- A text that has lost a character is too short.
      have hne : dropReturns s ≠ c :: s := by
        intro heq
        have hlength := length_dropReturns_le s
        rw [heq, List.length_cons] at hlength
        omega
      exact iff_of_false hne fun hand => hand.1 hreturn
    · next hreturn => simp [hreturn, ih]

end Text
end TableQuery
