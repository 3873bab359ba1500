import TableQuery.Proofs.Delimited.RoundTrip

/-!
# The grammar of lines with quotes

Under the policies with quotes a line is divided by a search that never fails: a field that
does not follow its policy is taken up to the next delimiter and makes the line irregular.
The grammar below says which lines are regular, without a search, and what their fields are.
A regular line is read in only one way, since a closing quote is one that no other quote
follows.
-/

namespace TableQuery
namespace Delimited

/-! ## The grammar -/

/-- A body between quotes, and the text that it stands for: quotes occur in pairs only, and
each pair stands for one quote. -/
inductive BodyOf : List Char → List Char → Prop where
  | nil : BodyOf [] []
  | char {c : Char} {body text : List Char} (hc : c ≠ '"') (hbody : BodyOf body text) :
      BodyOf (c :: body) (c :: text)
  | pair {body text : List Char} (hbody : BodyOf body text) :
      BodyOf ('"' :: '"' :: body) ('"' :: text)

/-- Any number of spaces, or nothing where a quoted field has no spaces around it. -/
def IsPadding (padded : Bool) (s : List Char) : Prop :=
  ∀ c ∈ s, padded = true ∧ c = ' '

/-- A quoted field with the spaces around it, and the text that it stands for. -/
inductive QuotedOf (padded : Bool) : List Char → List Char → Prop where
  | intro {before body text after : List Char} (hbefore : IsPadding padded before)
      (hbody : BodyOf body text) (hafter : IsPadding padded after) :
      QuotedOf padded (before ++ '"' :: (body ++ '"' :: after)) text

/-- A field as it may be written, and the text that it stands for. -/
inductive FieldOf (d : Char) (padded : Bool) : List Char → List Char → Prop where
  | plain {field : List Char} (hquote : '"' ∉ field) (hdelimiter : d ∉ field) :
      FieldOf d padded field field
  | quoted {before body text after : List Char} (hbefore : IsPadding padded before)
      (hbody : BodyOf body text) (hafter : IsPadding padded after) :
      FieldOf d padded (before ++ '"' :: (body ++ '"' :: after)) text

/-- A line of fields with a delimiter between every two of them, and their texts. -/
inductive LineOf (d : Char) (padded : Bool) : List Char → List (List Char) → Prop where
  | last {written field : List Char} (hfield : FieldOf d padded written field) :
      LineOf d padded written [field]
  | cons {written field line : List Char} {fields : List (List Char)}
      (hfield : FieldOf d padded written field) (hline : LineOf d padded line fields) :
      LineOf d padded (written ++ d :: line) (field :: fields)

/-- Whether spaces may surround a quoted field. -/
def allowsPadding (policy : Policy) (d : Char) : Bool :=
  policy = .quoted && d != ' '

/-! ## Bodies -/

theorem bodyOf_doubleQuotes (text : List Char) : BodyOf (doubleQuotes text) text := by
  induction text with
  | nil => exact .nil
  | cons c text ih =>
    by_cases hc : c = '"'
    · subst hc
      exact .pair ih
    · have hdouble : doubleQuotes (c :: text) = c :: doubleQuotes text := by
        simp [doubleQuotes, hc]
      rw [hdouble]
      exact .char hc ih

theorem BodyOf.eq_doubleQuotes {body text : List Char} (h : BodyOf body text) :
    body = doubleQuotes text := by
  induction h with
  | nil => rfl
  | char hc _ ih => simp [doubleQuotes, hc, ih]
  | pair _ ih =>
    rw [ih]
    rfl

theorem BodyOf.halveQuotes_eq {body text : List Char} (h : BodyOf body text) :
    halveQuotes body = text := by
  rw [h.eq_doubleQuotes, halveQuotes_doubleQuotes]

/-- A text is divided at a quote before which quotes occur in pairs. -/
theorem bodyOf_of_closeQuote? {s body rest : List Char}
    (h : closeQuote? s = some (body, rest)) : BodyOf body (halveQuotes body) := by
  fun_induction closeQuote? s generalizing body rest with
  | case1 => cases h
  | case2 s others rest' heq ih =>
    simp only [Option.some.injEq, Prod.mk.injEq] at h
    obtain ⟨rfl, rfl⟩ := h
    exact .pair (ih heq)
  | case3 s heq ih =>
    simp only [Option.some.injEq, Prod.mk.injEq] at h
    obtain ⟨rfl, rfl⟩ := h
    exact .nil
  | case4 s hs =>
    simp only [Option.some.injEq, Prod.mk.injEq] at h
    obtain ⟨rfl, rfl⟩ := h
    exact .nil
  | case5 c s hpair hquote ih =>
    obtain ⟨⟨others, rest'⟩, heq, hparts⟩ := Option.map_eq_some_iff.mp h
    simp only [Prod.mk.injEq] at hparts
    obtain ⟨rfl, rfl⟩ := hparts
    have hbody : BodyOf (c :: others) (c :: halveQuotes others) := .char hquote (ih heq)
    rwa [← hbody.halveQuotes_eq] at hbody

/-! ## Quoted fields -/

theorem IsPadding.forall_beq {padded : Bool} {s : List Char} (h : IsPadding padded s) :
    ∀ c ∈ s, (padded && c == ' ') = true := by
  intro c hc
  obtain ⟨hpadded, rfl⟩ := h c hc
  simp [hpadded]

theorem isPadding_takeWhile (padded : Bool) (s : List Char) :
    IsPadding padded (s.takeWhile fun c => padded && c == ' ') := by
  intro c hc
  have hpad := List.all_takeWhile (l := s) (p := fun c => padded && c == ' ')
  rw [List.all_eq_true] at hpad
  simpa using hpad c hc

/-- What has been read as a quoted field is one, with the spaces around it. -/
theorem quotedOf_of_quotedField? {padded : Bool} {s : List Char} {q : QuotedField}
    (h : quotedField? padded s = some q) : QuotedOf padded q.whole (halveQuotes q.body) := by
  unfold quotedField? at h
  dsimp only at h
  split at h
  · obtain ⟨⟨body, rest⟩, hclose, rfl⟩ := Option.map_eq_some_iff.mp h
    dsimp only
    rw [List.append_assoc, List.cons_append]
    exact .intro (isPadding_takeWhile padded s) (bodyOf_of_closeQuote? hclose)
      (isPadding_takeWhile padded rest)
  · cases h

theorem QuotedOf.fieldOf {d : Char} {padded : Bool} {written text : List Char}
    (h : QuotedOf padded written text) : FieldOf d padded written text := by
  cases h with
  | intro hbefore hbody hafter => exact .quoted hbefore hbody hafter

/-- A quoted field is read with the spaces around it if neither a quote nor a space that may
belong to it stands behind it. -/
theorem quotedField?_quoted {padded : Bool} {before body text after : List Char}
    (hbefore : IsPadding padded before) (hbody : BodyOf body text)
    (hafter : IsPadding padded after) (rest : List Char) (hquote : ∀ s, rest ≠ '"' :: s)
    (hpad : ∀ s, padded = true → rest ≠ ' ' :: s) :
    quotedField? padded (before ++ '"' :: (body ++ '"' :: after) ++ rest) =
      some ⟨before ++ '"' :: body ++ '"' :: after, body, rest⟩ := by
  obtain ⟨htake, hdrop⟩ := padding_eq_nil hpad
  have hquote' : ∀ s, after ++ rest ≠ '"' :: s := by
    intro s heq
    cases after with
    | nil => exact hquote s heq
    | cons c after =>
      have hc : c = ' ' := (hafter c List.mem_cons_self).2
      rw [List.cons_append, hc] at heq
      exact absurd (List.cons.inj heq).1 (by decide)
  have hclose := closeQuote?_doubleQuotes text hquote'
  rw [← hbody.eq_doubleQuotes] at hclose
  have hline : before ++ '"' :: (body ++ '"' :: after) ++ rest =
      before ++ '"' :: (body ++ '"' :: (after ++ rest)) := by
    simp
  rw [hline, quotedField?]
  simp only [List.takeWhile_append_of_pos hbefore.forall_beq,
    List.dropWhile_append_of_pos hbefore.forall_beq]
  simp [hclose, List.takeWhile_append_of_pos hafter.forall_beq,
    List.dropWhile_append_of_pos hafter.forall_beq, htake, hdrop]

/-! ## The first field -/

section

variable {d : Char} {padded : Bool} (hd : d ≠ '"') (hpad : padded = true → d ≠ ' ')

include hd hpad

/-- The first field of a line is read up to the delimiter behind it. -/
theorem nextField_fieldOf_append {written field : List Char}
    (h : FieldOf d padded written field) (rest : List Char) :
    nextField [d] false padded (written ++ d :: rest) = ⟨field, false, some rest⟩ := by
  cases h with
  | plain hquote hdelimiter =>
    exact nextField_append hd hpad false (.plain hquote hdelimiter) rest
  | quoted hbefore hbody hafter =>
    have hquote : ∀ s, d :: rest ≠ '"' :: s := fun s heq => hd (List.cons.inj heq).1
    have hspace : ∀ s, padded = true → d :: rest ≠ ' ' :: s :=
      fun s hpadded heq => hpad hpadded (List.cons.inj heq).1
    rw [nextField, quotedField?_quoted hbefore hbody hafter (d :: rest) hquote hspace]
    simp [hbody.halveQuotes_eq, Text.isPrefixOf?_singleton_self]

/-- The last one is read up to the end. -/
theorem nextField_fieldOf {written field : List Char} (h : FieldOf d padded written field) :
    nextField [d] false padded written = ⟨field, false, none⟩ := by
  cases h with
  | plain hquote hdelimiter => exact nextField_last hd hpad false (.plain hquote hdelimiter)
  | quoted hbefore hbody hafter =>
    have hquoted := quotedField?_quoted hbefore hbody hafter [] (by simp) (by simp)
    rw [List.append_nil] at hquoted
    rw [nextField, hquoted]
    simp [hbody.halveQuotes_eq]

end

/-- The first field of a text, and what is left behind its delimiter, are written in the
grammar. -/
def NextField.IsWritten (next : NextField) (d : Char) (padded : Bool) (s : List Char) : Prop :=
  match next.rest with
  | none => FieldOf d padded s next.field
  | some rest => ∃ written, s = written ++ d :: rest ∧ FieldOf d padded written next.field

theorem isWritten_plainField {d : Char} (padded : Bool) {irregular : Bool} {s : List Char}
    (h : (plainField [d] irregular s).irregular = false) :
    (plainField [d] irregular s).IsWritten d padded s := by
  unfold plainField at h ⊢
  by_cases hmem : d ∈ s
  · obtain ⟨before, after, rfl, hbefore⟩ := List.eq_append_cons_of_mem hmem
    rw [Text.cut?_singleton_append hbefore after] at h ⊢
    simp only [Bool.or_eq_false_iff, List.contains_eq_mem, decide_eq_false_iff_not] at h
    exact ⟨before, rfl, .plain h.2 hbefore⟩
  · rw [Text.cut?_singleton_eq_none hmem] at h ⊢
    simp only [Bool.or_eq_false_iff, List.contains_eq_mem, decide_eq_false_iff_not] at h
    exact .plain h.2 hmem

/-- A regular first field is one of the grammar. -/
theorem isWritten_nextField {d : Char} {padded : Bool} {s : List Char}
    (h : (nextField [d] false padded s).irregular = false) :
    (nextField [d] false padded s).IsWritten d padded s := by
  unfold nextField at h ⊢
  cases hquoted : quotedField? padded s with
  | none =>
    rw [hquoted] at h
    exact isWritten_plainField padded h
  | some q =>
    simp only [hquoted] at h ⊢
    have hwhole : s = q.whole ++ q.rest := (eq_of_quotedField? hquoted).1
    by_cases hend : q.rest.isEmpty
    · have hrest : q.rest = [] := List.isEmpty_iff.mp hend
      have hfield : FieldOf d padded q.whole (halveQuotes q.body) :=
        (quotedOf_of_quotedField? hquoted).fieldOf
      rw [if_pos hend]
      rw [hrest, List.append_nil] at hwhole
      rw [hwhole]
      exact hfield
    · rw [if_neg hend] at h ⊢
      cases hcut : [d].isPrefixOf? q.rest with
      | none =>
        simp only [hcut] at h ⊢
        exact isWritten_plainField padded h
      | some rest =>
        have hrest : q.rest = d :: rest := Text.eq_append_of_isPrefixOf? hcut
        refine ⟨q.whole, ?_, (quotedOf_of_quotedField? hquoted).fieldOf⟩
        rw [← hrest]
        exact hwhole

/-! ## Lines -/

/-- A line that is divided without irregularity is one of the grammar. -/
theorem lineOf_quotedFields {d : Char} {padded : Bool} {s : List Char}
    (h : (quotedFields [d] false padded (by simp) s).irregular = false) :
    LineOf d padded s (quotedFields [d] false padded (by simp) s).fields := by
  generalize hlength : s.length = n
  induction n using Nat.strongRecOn generalizing s with
  | _ n ih =>
    rcases hnext : nextField [d] false padded s with ⟨field, irregular, _ | rest⟩
    · rw [quotedFields_eq_singleton (by simp) hnext] at h ⊢
      have hfirst := isWritten_nextField (by rw [hnext]; exact h)
      rw [hnext] at hfirst
      exact .last hfirst
    · have hshorter : rest.length < s.length :=
        length_lt_of_nextField (by simp) (congrArg NextField.rest hnext)
      rw [quotedFields_eq_cons (by simp) hnext] at h ⊢
      obtain ⟨hregular, hothers⟩ := Bool.or_eq_false_iff.mp h
      have hfirst := isWritten_nextField (by rw [hnext]; exact hregular)
      rw [hnext] at hfirst
      obtain ⟨written, rfl, hfield⟩ := hfirst
      have hline := ih rest.length (hlength ▸ hshorter) hothers rfl
      exact .cons hfield hline

section

variable {d : Char} {padded : Bool} (hd : d ≠ '"') (hpad : padded = true → d ≠ ' ')

include hd hpad

/-- A line of the grammar is divided into the texts of its fields. -/
theorem LineOf.quotedFields_eq {line : List Char} {fields : List (List Char)}
    (h : LineOf d padded line fields) :
    quotedFields [d] false padded (by simp) line = ⟨fields, false⟩ := by
  induction h with
  | last hfield => exact quotedFields_eq_singleton (by simp) (nextField_fieldOf hd hpad hfield)
  | cons hfield _ ih =>
    rw [quotedFields_eq_cons (by simp) (nextField_fieldOf_append hd hpad hfield _), ih]
    rfl

end

/-- A line is divided as one whose quoted fields may have spaces around them under the policy
that allows it. -/
theorem split_eq_splitQuoted {policy : Policy} (hpolicy : policy.isQuoted = true) (d : Char)
    (line : List Char) :
    split ⟨[d], policy⟩ false line = splitQuoted [d] false (allowsPadding policy d) line := by
  cases policy with
  | quoted => simp [split, allowsPadding, bne]
  | quotedRfc => rfl
  | _ => cases hpolicy

/-- Under a policy with quotes, a line is regular exactly if it is written in the grammar, and
is then divided into the texts of its fields. -/
theorem split_regular_iff {policy : Policy} (hpolicy : policy.isQuoted = true) {d : Char}
    (hd : d ≠ '"') (line : List Char) :
    ((split ⟨[d], policy⟩ false line).irregular = false ↔
        ∃ fields, LineOf d (allowsPadding policy d) line fields) ∧
      ∀ fields, LineOf d (allowsPadding policy d) line fields →
        split ⟨[d], policy⟩ false line = ⟨fields, false⟩ := by
  have hpad : allowsPadding policy d = true → d ≠ ' ' := by
    simp [allowsPadding]
  have hsplit : split ⟨[d], policy⟩ false line =
      quotedFields [d] false (allowsPadding policy d) (by simp) line := by
    rw [split_eq_splitQuoted hpolicy, splitQuoted_eq_quotedFields false _ (by simp)]
  have hread : ∀ fields, LineOf d (allowsPadding policy d) line fields →
      split ⟨[d], policy⟩ false line = ⟨fields, false⟩ := by
    intro fields hline
    rw [hsplit, hline.quotedFields_eq hd hpad]
  refine ⟨⟨?_, ?_⟩, hread⟩
  · intro hregular
    rw [hsplit] at hregular
    exact ⟨_, lineOf_quotedFields hregular⟩
  · rintro ⟨fields, hline⟩
    rw [hread fields hline]

theorem isPadding_space : IsPadding true [' '] := by
  simp [IsPadding]

/-- A quoted field with spaces around it, then an empty field.  The line is irregular under
the policy that allows no such spaces, and hence not in its grammar. -/
theorem split_regular_iff_padded :
    let line := " \"a,\"\"b\" ,".toList
    (Policy.quoted.isQuoted = true ∧ Policy.quotedRfc.isQuoted = true ∧ ',' ≠ '"') ∧
      split ⟨[','], .quoted⟩ false line = ⟨["a,\"b".toList, []], false⟩ ∧
      ¬∃ fields, LineOf ',' (allowsPadding .quotedRfc ',') line fields := by
  refine ⟨⟨rfl, rfl, by decide⟩, ?_, ?_⟩
  · apply (split_regular_iff rfl (by decide) _).2
    have hfirst : FieldOf ',' true " \"a,\"\"b\" ".toList "a,\"b".toList :=
      .quoted isPadding_space (bodyOf_doubleQuotes "a,\"b".toList) isPadding_space
    have hlast : FieldOf ',' true [] [] := .plain List.not_mem_nil List.not_mem_nil
    exact .cons hfirst (.last hlast)
  · intro hline
    have hregular := (split_regular_iff rfl (by decide) _).1.mpr hline
    exact absurd hregular (by decide +kernel)

end Delimited
end TableQuery
