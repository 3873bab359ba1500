import TableQuery.Proofs.Expression.Spelling
import TableQuery.Proofs.Text.Lines

/-!
# Comments inside of a literal

A query loses its comments and the ends of its lines before its literals are looked for, and
so does a literal with several lines: a line of it that begins with a number sign is
dropped, and a line feed stands for every carriage return and line feed.  Nothing else in
the literal is touched, since neither escapes nor quotes make a comment of a line.
-/

namespace TableQuery

open Token (escaped escapedChar)

/-! ## Lines inside of a literal -/

/-- What is left of a text in a literal when the comments of the query are dropped.  Nothing
is left of a literal whose last line is dropped, since its closing quote is lost. -/
def remainingText? (s : List Char) : Option (List Char) :=
  match Text.split ['\n'] s with
  | [] => none
  | first :: others =>
    if others.getLast?.any IsolatedQuery.isComment then none
    else
      let kept := others.filter fun line => !IsolatedQuery.isComment line
      some (Text.dropReturns (Text.joinWith ['\n'] (first :: kept)))

/-- The query that selects one literal. -/
def selectLiteral (s : List Char) : List Char :=
  "select ".toList ++ Token.literal s

namespace IsolatedQuery

/-! ## Comments -/

theorem isComment_cons (c : Char) (line : List Char) :
    isComment (c :: line) = if Text.isBlank c then isComment line else c == '#' := by
  by_cases hc : Text.isBlank c
  · rw [if_pos hc, isComment, Text.trimStart, List.dropWhile_cons_of_pos hc]
    rfl
  · rw [if_neg hc, isComment, Text.trimStart, List.dropWhile_cons_of_neg hc]
    rfl

/-- What stands behind a line without being a comment does not make it one. -/
theorem isComment_append {tail : List Char} (h : isComment tail = false) (line : List Char) :
    isComment (line ++ tail) = isComment line := by
  induction line with
  | nil => exact h
  | cons c line ih => rw [List.cons_append, isComment_cons, isComment_cons, ih]

theorem isComment_lineBefore (line : List Char) :
    isComment (Text.lineBefore line) = isComment line := by
  rw [Text.lineBefore]
  split
  · next hlast =>
    obtain ⟨before, rfl⟩ := List.getLast?_eq_some_iff.mp hlast
    rw [List.dropLast_concat, isComment_append (by decide)]
  · rfl

/-- Escapes do not make a comment of a line. -/
theorem isComment_escaped (line : List Char) : isComment (escaped line) = isComment line := by
  induction line with
  | nil => rfl
  | cons c line ih =>
    rw [Token.escaped_cons, Token.escapedChar]
    by_cases hc : c = '\\' ∨ c = '\''
    · have hescape : (c == '\\' || c == '\'') = true := by simpa using hc
      rw [if_pos hescape, List.cons_append, isComment_cons, isComment_cons]
      obtain rfl | rfl := hc <;> rfl
    · have hescape : (c == '\\' || c == '\'') = false := by simpa using hc
      rw [hescape, if_neg Bool.false_ne_true, List.singleton_append, isComment_cons,
        isComment_cons, ih]

/-! ## The query without its comments -/

theorem lineBefore_escaped (line : List Char) :
    Text.lineBefore (escaped line) = escaped (Text.lineBefore line) := by
  obtain rfl | ⟨before, c, rfl⟩ := List.eq_nil_or_concat line
  · rfl
  · rw [List.concat_eq_append, Token.escaped_append, Token.escaped_cons, Token.escaped_nil,
      List.append_nil]
    by_cases hc : c = '\r'
    · subst hc
      exact (Text.lineBefore_concat_return _).trans (congrArg escaped
        (Text.lineBefore_concat_return before).symm)
    · -- Escaped or not, the last character stays the last one.
      obtain ⟨front, hfront⟩ : ∃ front, escapedChar c = front ++ [c] := by
        rw [escapedChar]
        split
        · exact ⟨['\\'], rfl⟩
        · exact ⟨[], rfl⟩
      rw [hfront, ← List.append_assoc, Text.lineBefore_concat_of_ne hc,
        Text.lineBefore_concat_of_ne hc, List.append_assoc, ← hfront]
      simp

theorem lineBefore_opening (line : List Char) :
    Text.lineBefore ("select '".toList ++ line) = "select '".toList ++ Text.lineBefore line := by
  obtain rfl | ⟨before, c, rfl⟩ := List.eq_nil_or_concat line
  · decide
  · rw [List.concat_eq_append, ← List.append_assoc]
    by_cases hc : c = '\r'
    · subst hc
      rw [Text.lineBefore_concat_return, Text.lineBefore_concat_return]
    · rw [Text.lineBefore_concat_of_ne hc, Text.lineBefore_concat_of_ne hc, List.append_assoc]

theorem escaped_joinWith (parts : List (List Char)) :
    escaped (Text.joinWith ['\n'] parts) = Text.joinWith ['\n'] (parts.map escaped) := by
  induction parts with
  | nil => rfl
  | cons part parts ih =>
    cases parts with
    | nil => rfl
    | cons next parts =>
      rw [List.map_cons, List.map_cons, Text.joinWith_cons_cons, Text.joinWith_cons_cons,
        Token.escaped_append, Token.escaped_append, ih]
      rfl

/-- The lines of a query up to one within its literal, put together again. -/
theorem joinWith_lineBefore (first : List Char) (middle : List (List Char)) :
    Text.joinWith ['\n']
        ((("select '".toList ++ escaped first) :: middle.map escaped).map Text.lineBefore) =
      "select '".toList ++
        escaped (Text.joinWith ['\n'] ((first :: middle).map Text.lineBefore)) := by
  have hmiddle : (middle.map escaped).map Text.lineBefore =
      (middle.map Text.lineBefore).map escaped := by
    rw [List.map_map, List.map_map]
    exact List.map_congr_left fun line _ => lineBefore_escaped line
  rw [List.map_cons, List.map_cons, hmiddle, lineBefore_opening, lineBefore_escaped,
    escaped_joinWith, List.map_cons]
  cases middle.map Text.lineBefore with
  | nil => rfl
  | cons next lines =>
    rw [List.map_cons, Text.joinWith_cons_cons, Text.joinWith_cons_cons]
    simp only [List.append_assoc]

theorem selectLiteral_eq (s : List Char) :
    selectLiteral s = "select '".toList ++ escaped s ++ ['\''] :=
  rfl

theorem not_mem_escaped {line : List Char} (h : '\n' ∉ line) : '\n' ∉ escaped line := by
  induction line with
  | nil => exact h
  | cons c line ih =>
    obtain ⟨hc, hline⟩ := not_or.mp (mt List.mem_cons.mpr h)
    rw [Token.escaped_cons, List.mem_append, not_or]
    refine ⟨?_, ih hline⟩
    rw [escapedChar]
    split
    · simpa using hc
    · simpa using hc

section

variable {s first last : List Char} {middle kept : List (List Char)}

/-- The lines of a query whose literal has several lines. -/
theorem lines_selectLiteral (hsplit : Text.split ['\n'] s = first :: (middle ++ [last])) :
    Text.lines (selectLiteral s) =
      (("select '".toList ++ escaped first) :: middle.map escaped).map Text.lineBefore ++
        [escaped last ++ ['\'']] := by
  have hjoin := Text.joinWith_split (List.cons_ne_nil '\n' []) s
  have hquery : selectLiteral s =
      Text.joinWith ['\n']
        ((("select '".toList ++ escaped first) :: middle.map escaped) ++
          [escaped last ++ ['\'']]) := by
    rw [Text.joinWith_concat (by simp), Text.joinWith_append_cons, selectLiteral_eq, ← hjoin,
      hsplit, escaped_joinWith, List.map_cons, List.map_append, List.map_singleton,
      ← List.cons_append, Text.joinWith_concat (by simp)]
    simp only [List.append_assoc]
  have hparts : ∀ part ∈ first :: (middle ++ [last]), '\n' ∉ part := fun part hpart =>
    Text.not_mem_of_mem_split (hsplit ▸ hpart)
  obtain ⟨hfirst, hothers⟩ := List.forall_mem_cons.mp hparts
  obtain ⟨hmiddle, hlast⟩ := List.forall_mem_append.mp hothers
  rw [hquery, Text.lines_joinWith]
  · refine List.forall_mem_cons.mpr ⟨?_, ?_⟩
    · rw [List.mem_append, not_or]
      exact ⟨by decide, not_mem_escaped hfirst⟩
    · rintro _ hline
      obtain ⟨line, hmem, rfl⟩ := List.mem_map.mp hline
      exact not_mem_escaped (hmiddle line hmem)
  · rw [List.mem_append, not_or]
    exact ⟨not_mem_escaped (hlast last List.mem_cons_self), by decide⟩
  · simp

/-- The comments among the lines of a literal are those of its content. -/
theorem filter_lineBefore_escaped (hkept : middle.filter (fun line => !isComment line) = kept) :
    ((middle.map escaped).map Text.lineBefore).filter (fun line => !isComment line) =
      (kept.map escaped).map Text.lineBefore := by
  rw [← hkept, List.map_map, List.map_map, List.filter_map]
  refine congrArg _ (List.filter_congr fun line _ => ?_)
  simp only [Function.comp_apply, isComment_lineBefore, isComment_escaped]

theorem dropComments_of_split (hsplit : Text.split ['\n'] s = first :: (middle ++ [last]))
    (hkept : middle.filter (fun line => !isComment line) = kept) :
    dropComments (selectLiteral s) =
      "select '".toList ++ escaped (Text.joinWith ['\n'] ((first :: kept).map Text.lineBefore)) ++
        if isComment last then [] else '\n' :: (escaped last ++ ['\'']) := by
  have hopening : isComment (Text.lineBefore ("select '".toList ++ escaped first)) = false := by
    rw [isComment_lineBefore]
    exact isComment_cons 's' _
  have hend : isComment (escaped last ++ ['\'']) = isComment last := by
    rw [isComment_append (by decide), isComment_escaped]
  rw [dropComments, lines_selectLiteral hsplit, List.map_cons, List.filter_append,
    List.filter_cons_of_pos (by rw [hopening]; rfl), filter_lineBefore_escaped hkept,
    ← joinWith_lineBefore, List.map_cons]
  cases hlast : isComment last with
  | true => rw [List.filter_cons_of_neg (by simp [hend, hlast])]; simp
  | false =>
    rw [List.filter_cons_of_pos (by simp [hend, hlast]), List.filter_nil,
      Text.joinWith_concat (by simp)]
    rfl

/-- The lines of a text that are kept, and its last line, have no line feeds in them. -/
theorem not_mem_of_kept (hsplit : Text.split ['\n'] s = first :: (middle ++ [last]))
    (hkept : middle.filter (fun line => !isComment line) = kept) :
    (∀ line ∈ first :: kept, '\n' ∉ line) ∧ '\n' ∉ last := by
  have hparts : ∀ line ∈ first :: (middle ++ [last]), '\n' ∉ line := fun line hline =>
    Text.not_mem_of_mem_split (hsplit ▸ hline)
  obtain ⟨hfirst, hothers⟩ := List.forall_mem_cons.mp hparts
  obtain ⟨hmiddle, hlast⟩ := List.forall_mem_append.mp hothers
  refine ⟨List.forall_mem_cons.mpr ⟨hfirst, fun line hline => ?_⟩, hlast last List.mem_cons_self⟩
  rw [← hkept] at hline
  exact hmiddle line (List.mem_filter.mp hline).1

theorem remainingText?_of_split (hsplit : Text.split ['\n'] s = first :: (middle ++ [last]))
    (hkept : middle.filter (fun line => !isComment line) = kept) :
    remainingText? s =
      if isComment last then none
      else some (Text.joinWith ['\n'] ((first :: kept).map Text.lineBefore ++ [last])) := by
  obtain ⟨hlines, hend⟩ := not_mem_of_kept hsplit hkept
  rw [remainingText?, hsplit]
  simp only [List.getLast?_concat, Option.any_some, List.filter_append, hkept]
  cases hlast : isComment last with
  | true => rfl
  | false =>
    rw [if_neg Bool.false_ne_true, if_neg Bool.false_ne_true,
      List.filter_cons_of_pos (by rw [hlast]; rfl), List.filter_nil, ← List.cons_append,
      Text.joinWith_concat (by simp), Text.joinWith_concat (by simp), List.singleton_append,
      Text.dropReturns_joinWith (by simp) hlines, Text.dropReturns_of_not_mem hend]

end

theorem remainingText?_of_not_mem {s : List Char} (h : '\n' ∉ s) : remainingText? s = some s := by
  rw [remainingText?, Text.split_eq_singleton (by simp) (Text.cut?_singleton_eq_none h)]
  exact congrArg some (Text.dropReturns_of_not_mem h)

/-- Without comments in it a text loses at most carriage returns. -/
theorem remainingText?_of_no_comments {s : List Char}
    (h : ∀ line ∈ (Text.split ['\n'] s).tail, isComment line = false) :
    remainingText? s = some (Text.dropReturns s) := by
  have hjoin := Text.joinWith_split (List.cons_ne_nil '\n' []) s
  rw [remainingText?]
  cases hsplit : Text.split ['\n'] s with
  | nil => exact absurd hsplit (Text.split_ne_nil (by simp))
  | cons first others =>
    rw [hsplit] at hjoin h
    have hlast : others.getLast?.any isComment = false := by
      cases hget : others.getLast? with
      | none => rfl
      | some last => exact h last (List.mem_of_getLast? hget)
    have hkept : others.filter (fun line => !isComment line) = others :=
      List.filter_eq_self.mpr fun line hline => by rw [h line hline]; rfl
    simp only [hlast, hkept, hjoin]
    rfl

/-- A text that is left as it is has no comments in it. -/
theorem isComment_of_remainingText?_eq_self {s : List Char} (h : remainingText? s = some s) :
    ∀ line ∈ (Text.split ['\n'] s).tail, isComment line = false := by
  cases hsplit : Text.split ['\n'] s with
  | nil => exact nofun
  | cons first others =>
    obtain rfl | ⟨middle, last, rfl⟩ := List.eq_nil_or_concat others
    · exact nofun
    · rw [List.concat_eq_append] at hsplit
      obtain ⟨hlines, hend⟩ := not_mem_of_kept hsplit rfl
      rw [remainingText?_of_split hsplit rfl] at h
      cases hlast : isComment last with
      | true =>
        rw [hlast] at h
        cases h
      | false =>
        rw [hlast, if_neg Bool.false_ne_true, Option.some.injEq] at h
        have hparts : ∀ line ∈ (first :: middle.filter fun line => !isComment line).map
            Text.lineBefore ++ [last], '\n' ∉ line := by
          refine List.forall_mem_append.mpr ⟨fun part hpart => ?_, by simpa using hend⟩
          obtain ⟨line, hline, rfl⟩ := List.mem_map.mp hpart
          exact Text.not_mem_lineBefore (hlines line hline)
        -- Splitting what is left gives as many lines as the text has, so none was dropped.
        have hlength : (middle.filter fun line => !isComment line).length = middle.length := by
          have hresplit := Text.split_joinWith_singleton (by simp) hparts
          rw [h, hsplit] at hresplit
          simpa using (congrArg List.length hresplit).symm
        have hmiddle := List.length_filter_eq_length_iff.mp hlength
        rw [List.concat_eq_append, List.tail_cons]
        refine List.forall_mem_append.mpr ⟨fun line hline => ?_, by simpa using hlast⟩
        simpa using hmiddle line hline

/-- A text is left as it is exactly if no line of it behind the first one is a comment and no
carriage return in it stands before a line feed. -/
theorem remainingText?_eq_self_iff {s : List Char} :
    remainingText? s = some s ↔
      (∀ line ∈ (Text.split ['\n'] s).tail, isComment line = false) ∧ ¬['\r', '\n'] <:+: s := by
  rw [← Text.dropReturns_eq_self_iff]
  constructor
  · intro h
    have hcomments := isComment_of_remainingText?_eq_self h
    rw [remainingText?_of_no_comments hcomments] at h
    exact ⟨hcomments, Option.some.inj h⟩
  · rintro ⟨hcomments, hreturns⟩
    rw [remainingText?_of_no_comments hcomments, hreturns]

/-- A query loses its comments inside of its literal, and with the last line of the literal
its closing quote. -/
theorem dropComments_selectLiteral (s : List Char) :
    (∀ t, remainingText? s = some t → dropComments (selectLiteral s) = selectLiteral t) ∧
      (remainingText? s = none →
        ∃ t, dropComments (selectLiteral s) = "select '".toList ++ escaped t) := by
  cases hsplit : Text.split ['\n'] s with
  | nil => exact absurd hsplit (Text.split_ne_nil (by simp))
  | cons first others =>
    obtain rfl | ⟨middle, last, rfl⟩ := List.eq_nil_or_concat others
    · have hs : '\n' ∉ s := by
        have hjoin := Text.joinWith_split (List.cons_ne_nil '\n' []) s
        rw [hsplit] at hjoin
        exact hjoin ▸ Text.not_mem_of_mem_split (hsplit ▸ List.mem_cons_self)
      have hquery : '\n' ∉ selectLiteral s := by
        rw [selectLiteral_eq, List.mem_append, List.mem_append, not_or, not_or]
        exact ⟨⟨by decide, not_mem_escaped hs⟩, by decide⟩
      have hcomment : isComment (selectLiteral s) = false := isComment_cons 's' _
      rw [remainingText?_of_not_mem hs, dropComments,
        Text.lines_of_not_mem hquery (List.cons_ne_nil _ _),
        List.filter_cons_of_pos (by rw [hcomment]; rfl)]
      exact ⟨fun t ht => congrArg selectLiteral (Option.some.inj ht), nofun⟩
    · rw [List.concat_eq_append] at hsplit
      rw [remainingText?_of_split hsplit rfl, dropComments_of_split hsplit rfl]
      cases isComment last with
      | true => exact ⟨nofun, fun _ => ⟨_, List.append_nil _⟩⟩
      | false =>
        refine ⟨fun t ht => ?_, nofun⟩
        obtain rfl := Option.some.inj ht
        rw [Text.joinWith_concat (by simp)]
        simp [selectLiteral_eq, escapedChar]

end IsolatedQuery
end TableQuery
