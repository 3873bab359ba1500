import TableQuery.Proofs.Delimited.RoundTrip
import TableQuery.Proofs.Text.Lines
import TableQuery.Table.Reader

/-!
# Line breaks in quoted fields

Where quoted fields may hold line breaks, a line of fields has line feeds only between
quotes.  So the number of quotes before a line feed is odd, and it is even at the end of the
line, which is how a reader finds the end.  Dropping carriage returns before line feeds
comes to the same in the line and in its fields.
-/

namespace TableQuery

/-! ## Quotes -/

namespace DelimitedReader

theorem isOpen_append (s t : List Char) : isOpen (s ++ t) = (isOpen s != isOpen t) := by
  have hparity := Nat.mod_two_eq_zero_or_one (s.count '"')
  have hparity' := Nat.mod_two_eq_zero_or_one (t.count '"')
  rcases hparity with hs | hs <;> rcases hparity' with ht | ht <;>
    simp [isOpen, List.count_append, Nat.add_mod, hs, ht]

theorem isOpen_cons_quote (s : List Char) : isOpen ('"' :: s) = !isOpen s := by
  have happend := isOpen_append ['"'] s
  rw [show isOpen ['"'] = true from rfl, Bool.true_bne] at happend
  exact happend

theorem isOpen_cons_of_ne {c : Char} (hc : c ≠ '"') (s : List Char) :
    isOpen (c :: s) = isOpen s := by
  rw [isOpen, List.count_cons_of_ne (by simpa using hc), isOpen]

theorem isOpen_of_not_mem {s : List Char} (hquote : '"' ∉ s) : isOpen s = false := by
  rw [isOpen, List.count_eq_zero.mpr hquote]
  rfl

end DelimitedReader

namespace Delimited

/-- Whether all line feeds of a text stand between quotes and no quotes are open at its end.
`opened` says whether they are open before it. -/
def breaksQuoted (opened : Bool) : List Char → Bool
  | [] => !opened
  | c :: s =>
    if c == '"' then breaksQuoted (!opened) s
    else (opened || c != '\n') && breaksQuoted opened s

/-- Over a part without line feeds only the number of its quotes counts. -/
theorem breaksQuoted_append {part : List Char} (hbreak : '\n' ∉ part) (opened : Bool)
    (rest : List Char) :
    breaksQuoted opened (part ++ rest) =
      breaksQuoted (opened != DelimitedReader.isOpen part) rest := by
  induction part generalizing opened with
  | nil => cases opened <;> rfl
  | cons c part ih =>
    obtain ⟨hc, hbreaks⟩ := not_or.mp (mt List.mem_cons.mpr hbreak)
    rw [List.cons_append, breaksQuoted]
    by_cases hquote : c = '"'
    · subst hquote
      rw [if_pos (beq_self_eq_true _), ih hbreaks, DelimitedReader.isOpen_cons_quote]
      cases opened <;> cases DelimitedReader.isOpen part <;> rfl
    · rw [if_neg (by simpa using hquote), ih hbreaks, DelimitedReader.isOpen_cons_of_ne hquote]
      simp [Ne.symm hc]

theorem breaksQuoted_append_of_plain {part : List Char} (hquote : '"' ∉ part) (hbreak : '\n' ∉ part)
    (opened : Bool) (rest : List Char) :
    breaksQuoted opened (part ++ rest) = breaksQuoted opened rest := by
  rw [breaksQuoted_append hbreak, DelimitedReader.isOpen_of_not_mem hquote, Bool.bne_false]

theorem breaksQuoted_doubleQuotes (field rest : List Char) :
    breaksQuoted true (doubleQuotes field ++ rest) = breaksQuoted true rest := by
  induction field with
  | nil => rfl
  | cons c field ih =>
    by_cases hc : c = '"'
    · subst hc
      exact ih
    · have hdouble : doubleQuotes (c :: field) = c :: doubleQuotes field := by
        simp [doubleQuotes, hc]
      rw [hdouble, List.cons_append, breaksQuoted, if_neg (by simpa using hc), ih]
      rfl

theorem breaksQuoted_enclose (field rest : List Char) :
    breaksQuoted false (enclose field ++ rest) = breaksQuoted false rest := by
  have hopen : enclose field ++ rest = '"' :: (doubleQuotes field ++ '"' :: rest) := by
    simp [enclose]
  rw [hopen]
  exact breaksQuoted_doubleQuotes field ('"' :: rest)

/-- A field is written between quotes, or it holds neither quotes nor the delimiter nor line
breaks. -/
theorem quoteFieldRfc_cases (d : Char) (field : List Char) :
    quoteFieldRfc [d] field = enclose field ∨
      quoteFieldRfc [d] field = field ∧ '"' ∉ field ∧ d ∉ field ∧ '\n' ∉ field ∧ '\r' ∉ field := by
  unfold quoteFieldRfc quoteField
  split
  · exact .inl rfl
  · next hbreaks =>
    split
    · exact .inl rfl
    · next hquotes =>
      simp only [Bool.or_eq_true, not_or, List.contains_iff_mem, Text.contains_singleton_iff]
        at hbreaks hquotes
      exact .inr ⟨rfl, hquotes.1, hquotes.2, hbreaks.1, hbreaks.2⟩

theorem breaksQuoted_quoteFieldRfc (d : Char) (field rest : List Char) :
    breaksQuoted false (quoteFieldRfc [d] field ++ rest) = breaksQuoted false rest := by
  obtain hwritten | ⟨hwritten, hquote, -, hbreak, -⟩ := quoteFieldRfc_cases d field
  · rw [hwritten, breaksQuoted_enclose]
  · rw [hwritten, breaksQuoted_append_of_plain hquote hbreak]

/-- The line of fields that may hold line breaks. -/
def rfcLine (d : Char) (fields : List (List Char)) : List Char :=
  Text.joinWith [d] (fields.map (quoteFieldRfc [d]))

theorem join_rfc (d : Char) (fields : List (List Char)) :
    join ⟨[d], .quotedRfc⟩ fields = .ok ⟨rfcLine d fields, false⟩ :=
  rfl

theorem rfcLine_cons_cons (d : Char) (field next : List Char) (fields : List (List Char)) :
    rfcLine d (field :: next :: fields) =
      quoteFieldRfc [d] field ++ d :: rfcLine d (next :: fields) := by
  rw [rfcLine, List.map_cons, List.map_cons, Text.joinWith_cons_cons, List.append_assoc]
  rfl

/-- A line of fields has line feeds only between quotes. -/
theorem breaksQuoted_rfcLine {d : Char} (hquote : d ≠ '"') (hbreak : d ≠ '\n')
    (fields : List (List Char)) : breaksQuoted false (rfcLine d fields) = true := by
  induction fields with
  | nil => rfl
  | cons field fields ih =>
    cases fields with
    | nil =>
      have hfield := breaksQuoted_quoteFieldRfc d field []
      rwa [List.append_nil] at hfield
    | cons next fields =>
      have hdelimiter : breaksQuoted false ([d] ++ rfcLine d (next :: fields)) =
          breaksQuoted false (rfcLine d (next :: fields)) :=
        breaksQuoted_append_of_plain (by simpa using hquote.symm) (by simpa using hbreak.symm) _ _
      rw [List.singleton_append] at hdelimiter
      rw [rfcLine_cons_cons, breaksQuoted_quoteFieldRfc, hdelimiter, ih]

/-! ## Carriage returns -/

theorem getLast?_quoteFieldRfc (d : Char) (field : List Char) :
    (quoteFieldRfc [d] field).getLast? ≠ some '\r' := by
  obtain hwritten | ⟨hwritten, -, -, -, hreturn⟩ := quoteFieldRfc_cases d field
  · rw [hwritten, enclose, List.getLast?_concat]
    decide
  · rw [hwritten]
    exact fun hlast => hreturn (List.mem_of_getLast? hlast)

/-- No line of fields ends with a carriage return. -/
theorem getLast?_rfcLine {d : Char} (hd : d ≠ '\r') (fields : List (List Char)) :
    (rfcLine d fields).getLast? ≠ some '\r' := by
  induction fields with
  | nil => exact nofun
  | cons field fields ih =>
    cases fields with
    | nil => exact getLast?_quoteFieldRfc d field
    | cons next fields =>
      rw [rfcLine_cons_cons, List.append_cons, List.getLast?_append]
      cases hline : (rfcLine d (next :: fields)).getLast? with
      | none => simpa using hd
      | some c => rwa [Option.some_or, ← hline]

theorem head?_doubleQuotes (field : List Char) :
    (doubleQuotes field).head? = field.head? := by
  cases field with
  | nil => rfl
  | cons c field =>
    by_cases hc : c = '"'
    · subst hc
      rfl
    · simp [doubleQuotes, hc]

theorem dropReturns_doubleQuotes (field : List Char) :
    Text.dropReturns (doubleQuotes field) = doubleQuotes (Text.dropReturns field) := by
  induction field with
  | nil => rfl
  | cons c field ih =>
    by_cases hc : c = '"'
    · subst hc
      exact congrArg (fun s => '"' :: '"' :: s) ih
    · have hdouble : ∀ s, doubleQuotes (c :: s) = c :: doubleQuotes s := by
        intro s
        simp [doubleQuotes, hc]
      rw [hdouble, Text.dropReturns, Text.dropReturns, head?_doubleQuotes, ih]
      split
      · rfl
      · rw [hdouble]

theorem dropReturns_enclose (field : List Char) :
    Text.dropReturns (enclose field) = enclose (Text.dropReturns field) := by
  rw [enclose, Text.dropReturns_append (.inr (by simp)), Text.dropReturns,
    if_neg fun hand => absurd hand.1 (by decide), dropReturns_doubleQuotes]
  rfl

/-- A field with a line feed keeps it, so it is written between quotes either way. -/
theorem dropReturns_quoteFieldRfc (d : Char) (field : List Char) :
    Text.dropReturns (quoteFieldRfc [d] field) = quoteFieldRfc [d] (Text.dropReturns field) := by
  have henclosed : ∀ field : List Char, '\n' ∈ field → quoteFieldRfc [d] field = enclose field := by
    intro field hbreak
    rw [quoteFieldRfc, if_pos (by simp [hbreak])]
  by_cases hbreak : '\n' ∈ field
  · have hbreak' : '\n' ∈ Text.dropReturns field := Text.mem_dropReturns (by decide) hbreak
    rw [henclosed field hbreak, henclosed _ hbreak', dropReturns_enclose]
  · rw [Text.dropReturns_of_not_mem hbreak]
    obtain hwritten | ⟨hwritten, -⟩ := quoteFieldRfc_cases d field
    · rw [hwritten, dropReturns_enclose, Text.dropReturns_of_not_mem hbreak]
    · rw [hwritten, Text.dropReturns_of_not_mem hbreak]

/-- A line without carriage returns before line feeds is the line of the fields without
them. -/
theorem dropReturns_rfcLine {d : Char} (hbreak : d ≠ '\n') (hreturn : d ≠ '\r')
    (fields : List (List Char)) :
    Text.dropReturns (rfcLine d fields) = rfcLine d (fields.map Text.dropReturns) := by
  induction fields with
  | nil => rfl
  | cons field fields ih =>
    cases fields with
    | nil => exact dropReturns_quoteFieldRfc d field
    | cons next fields =>
      have hdelimiter : ∀ s, Text.dropReturns (d :: s) = d :: Text.dropReturns s := by
        intro s
        rw [Text.dropReturns, if_neg fun hand => hreturn hand.1]
      rw [rfcLine_cons_cons, Text.dropReturns_append (.inr (by simpa using hbreak)),
        dropReturns_quoteFieldRfc, hdelimiter, ih]
      exact (rfcLine_cons_cons d _ _ _).symm

end Delimited
end TableQuery
