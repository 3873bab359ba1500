import TableQuery.Delimited.Join
import TableQuery.Delimited.Split
import TableQuery.Proofs.Text.Search

/-!
# Dividing a line that has been put together

Under the two policies with quotes, the fields of a line can be read back as they were,
if the delimiter is one character and no quote.  A field is written in one of two ways,
between quotes or as it is, and either way the first field of the line ends where it was
joined to the next one.
-/

namespace TableQuery
namespace Delimited

/-! ## Quotes -/

/-- Halving undoes doubling. -/
theorem halveQuotes_doubleQuotes (field : List Char) :
    halveQuotes (doubleQuotes field) = field := by
  induction field with
  | nil => rfl
  | cons c field ih =>
    by_cases hc : c = '"'
    · subst hc
      exact congrArg (List.cons '"') ih
    · have hdouble : doubleQuotes (c :: field) = c :: doubleQuotes field := by
        simp [doubleQuotes, hc]
      rw [hdouble, halveQuotes]
      · rw [ih]
      · rintro s rfl
        exact absurd rfl hc

/-- A body whose quotes are doubled is closed by the next quote that stands alone. -/
theorem closeQuote?_doubleQuotes (field : List Char) {rest : List Char}
    (hrest : ∀ s, rest ≠ '"' :: s) :
    closeQuote? (doubleQuotes field ++ '"' :: rest) = some (doubleQuotes field, rest) := by
  induction field with
  | nil =>
    cases rest with
    | nil => rfl
    | cons c s =>
      show closeQuote? ('"' :: c :: s) = some ([], c :: s)
      rw [closeQuote?]
      rintro t ht
      exact hrest t ht
  | cons c field ih =>
    by_cases hc : c = '"'
    · subst hc
      show closeQuote? ('"' :: '"' :: (doubleQuotes field ++ '"' :: rest)) = _
      rw [closeQuote?, ih]
      rfl
    · have hdouble : doubleQuotes (c :: field) = c :: doubleQuotes field := by
        simp [doubleQuotes, hc]
      rw [hdouble, List.cons_append, closeQuote?, ih]
      · rfl
      · rintro s rfl
        exact absurd rfl hc
      · rintro rfl
        exact absurd rfl hc

/-! ## Written fields -/

/-- The two ways in which a field is written: between quotes, or as it is if it holds
neither a quote nor the delimiter. -/
inductive Written (d : Char) (field : List Char) : List Char → Prop where
  | enclosed : Written d field (enclose field)
  | plain (hquote : '"' ∉ field) (hdelimiter : d ∉ field) : Written d field field

theorem written_quoteField (d : Char) (field : List Char) :
    Written d field (quoteField [d] field) := by
  unfold quoteField
  split
  · exact .enclosed
  · next h =>
    simp only [Bool.or_eq_true, not_or, Text.contains_singleton_iff] at h
    exact .plain (by simpa using h.1) h.2

theorem written_quoteFieldRfc (d : Char) (field : List Char) :
    Written d field (quoteFieldRfc [d] field) := by
  unfold quoteFieldRfc
  split
  · exact .enclosed
  · exact written_quoteField d field

/-- Nothing of a text that begins with no space belongs to the field in front of it. -/
theorem padding_eq_nil {padded : Bool} {rest : List Char}
    (hpad : ∀ s, padded = true → rest ≠ ' ' :: s) :
    rest.takeWhile (fun c => padded && c == ' ') = [] ∧
      rest.dropWhile (fun c => padded && c == ' ') = rest := by
  cases rest with
  | nil => exact ⟨rfl, rfl⟩
  | cons c s =>
    have hc : (padded && c == ' ') = false := by
      cases padded with
      | false => rfl
      | true =>
        have hne : c ≠ ' ' := by
          rintro rfl
          exact hpad s rfl rfl
        simpa using hne
    simp [hc]

/-- The field that is written between quotes at the start of a text. -/
theorem quotedField?_enclose (padded : Bool) (field rest : List Char)
    (hquote : ∀ s, rest ≠ '"' :: s) (hpad : ∀ s, padded = true → rest ≠ ' ' :: s) :
    quotedField? padded (enclose field ++ rest) =
      some ⟨enclose field, doubleQuotes field, rest⟩ := by
  have hopen : enclose field ++ rest = '"' :: (doubleQuotes field ++ '"' :: rest) := by
    simp [enclose]
  obtain ⟨htake, hdrop⟩ := padding_eq_nil hpad
  rw [hopen, quotedField?, List.takeWhile_cons, List.dropWhile_cons]
  simp [closeQuote?_doubleQuotes field hquote, htake, hdrop, enclose]

theorem quotedField?_of_not_mem {padded : Bool} {s : List Char} (hs : '"' ∉ s) :
    quotedField? padded s = none := by
  unfold quotedField?
  dsimp only
  split
  · next opened hopened =>
    have hmem : '"' ∈ s := (List.dropWhile_sublist _).subset (hopened ▸ List.mem_cons_self)
    exact absurd hmem hs
  · rfl

/-- No quoted field begins a text in which a delimiter, or the end, comes before all
quotes. -/
theorem quotedField?_eq_none {d : Char} {padded : Bool} (hd : d ≠ '"')
    (hpad : padded = true → d ≠ ' ') {field : List Char} (hfield : '"' ∉ field)
    (rest : List Char) (hrest : rest = [] ∨ ∃ s, rest = d :: s) :
    quotedField? padded (field ++ rest) = none := by
  have hdrop : ∀ opened,
      (field ++ rest).dropWhile (fun c => padded && c == ' ') ≠ '"' :: opened := by
    intro opened
    induction field with
    | nil =>
      rcases hrest with rfl | ⟨s, rfl⟩
      · simp
      · have hstop : (padded && d == ' ') = false := by
          cases padded <;> simp_all
        simp [hstop, hd]
    | cons c field ih =>
      obtain ⟨hc, hfield⟩ := not_or.mp (mt List.mem_cons.mpr hfield)
      by_cases hskip : (padded && c == ' ') = true
      · simpa [hskip] using ih hfield
      · simp [hskip, Ne.symm hc]
  unfold quotedField?
  dsimp only
  split
  · next opened heq => exact absurd heq (hdrop opened)
  · rfl

/-! ## The fields of a line -/

theorem quotedFields_eq_singleton {delimiter s field : List Char} {preserve padded : Bool}
    {irregular : Bool} (hd : delimiter ≠ [])
    (h : nextField delimiter preserve padded s = ⟨field, irregular, none⟩) :
    quotedFields delimiter preserve padded hd s = ⟨[field], irregular⟩ := by
  rw [quotedFields]
  split
  · rw [h]
  · next heq =>
    rw [h] at heq
    simp at heq

theorem quotedFields_eq_cons {delimiter s field rest : List Char} {preserve padded : Bool}
    {irregular : Bool} (hd : delimiter ≠ [])
    (h : nextField delimiter preserve padded s = ⟨field, irregular, some rest⟩) :
    quotedFields delimiter preserve padded hd s =
      ⟨field :: (quotedFields delimiter preserve padded hd rest).fields,
        irregular || (quotedFields delimiter preserve padded hd rest).irregular⟩ := by
  rw [quotedFields]
  split
  · next heq =>
    rw [h] at heq
    simp at heq
  · next rest' heq =>
    obtain rfl : rest' = rest := by
      rw [h] at heq
      exact (Option.some.inj heq).symm
    simp only [h]

theorem nextField_eq_plainField {delimiter s : List Char} {padded : Bool} (preserve : Bool)
    (hs : quotedField? padded s = none) :
    nextField delimiter preserve padded s = plainField delimiter false s := by
  rw [nextField, hs]

/-- A text without quotes is divided at every delimiter. -/
theorem quotedFields_of_not_mem {delimiter s : List Char} (preserve padded : Bool)
    (hd : delimiter ≠ []) (hs : '"' ∉ s) :
    quotedFields delimiter preserve padded hd s = ⟨Text.split delimiter s, false⟩ := by
  generalize hlength : s.length = n
  induction n using Nat.strongRecOn generalizing s with
  | _ n ih =>
    have hnext : nextField delimiter preserve padded s = plainField delimiter false s :=
      nextField_eq_plainField preserve (quotedField?_of_not_mem hs)
    cases hcut : Text.cut? delimiter s with
    | none =>
      have hlast : plainField delimiter false s = ⟨s, false, none⟩ := by
        simp [plainField, hcut, hs]
      rw [quotedFields_eq_singleton hd (hnext.trans hlast), Text.split_eq_singleton hd hcut]
    | some parts =>
      obtain ⟨before, after⟩ := parts
      have hparts : '"' ∉ before ∧ '"' ∉ after := by
        rw [Text.eq_of_cut? hcut] at hs
        simp only [List.mem_append, not_or] at hs
        exact ⟨hs.1.1, hs.2⟩
      have hfirst : plainField delimiter false s = ⟨before, false, some after⟩ := by
        simp [plainField, hcut, hparts.1]
      have hrest := ih after.length (hlength ▸ Text.length_lt_of_cut? hcut hd) hparts.2 rfl
      rw [quotedFields_eq_cons hd (hnext.trans hfirst), hrest, Text.split_eq_cons hd hcut]
      rfl

/-- Lines without quotes are no special case. -/
theorem splitQuoted_eq_quotedFields {delimiter : List Char} (preserve padded : Bool)
    (hd : delimiter ≠ []) (line : List Char) :
    splitQuoted delimiter preserve padded line =
      quotedFields delimiter preserve padded hd line := by
  unfold splitQuoted
  split
  · next hline =>
    have hquote : '"' ∉ line := by simpa using hline
    rw [quotedFields_of_not_mem preserve padded hd hquote]
  · rfl

section

variable {d : Char} {padded : Bool} (hd : d ≠ '"') (hpad : padded = true → d ≠ ' ')

include hd hpad

/-- The first field of a line ends at the delimiter that was written behind it. -/
theorem nextField_append (preserve : Bool) {field written : List Char} (h : Written d field written)
    (rest : List Char) :
    nextField [d] preserve padded (written ++ d :: rest) =
      ⟨if preserve then written else field, false, some rest⟩ := by
  cases h with
  | enclosed =>
    have hquoted := quotedField?_enclose padded field (d :: rest)
      (by simp [hd]) (by intro s hp; simp [hpad hp])
    simp [nextField, hquoted, halveQuotes_doubleQuotes, Text.isPrefixOf?_singleton_self]
  | plain hquote hdelimiter =>
    have hplain := quotedField?_eq_none hd hpad hquote (d :: rest) (Or.inr ⟨rest, rfl⟩)
    simp [nextField, hplain, plainField, Text.cut?_singleton_append hdelimiter, hquote]

/-- The last field ends with the line. -/
theorem nextField_last (preserve : Bool) {field written : List Char} (h : Written d field written) :
    nextField [d] preserve padded written = ⟨if preserve then written else field, false, none⟩ := by
  cases h with
  | enclosed =>
    have hquoted := quotedField?_enclose padded field []
      (by simp) (by simp)
    rw [List.append_nil] at hquoted
    simp [nextField, hquoted, halveQuotes_doubleQuotes]
  | plain hquote hdelimiter =>
    have hplain := quotedField?_eq_none hd hpad hquote [] (Or.inl rfl)
    rw [List.append_nil] at hplain
    simp [nextField, hplain, plainField, Text.cut?_singleton_eq_none hdelimiter, hquote]

theorem quotedFields_joinWith (preserve : Bool) {write : List Char → List Char}
    (hwrite : ∀ field, Written d field (write field)) {fields : List (List Char)}
    (hne : fields ≠ []) :
    quotedFields [d] preserve padded (by simp) (Text.joinWith [d] (fields.map write)) =
      ⟨fields.map fun field => if preserve then write field else field, false⟩ := by
  induction fields with
  | nil => exact absurd rfl hne
  | cons field fields ih =>
    cases fields with
    | nil =>
      exact quotedFields_eq_singleton (by simp) (nextField_last hd hpad preserve (hwrite field))
    | cons next fields =>
      have hfirst := nextField_append hd hpad preserve (hwrite field)
        (Text.joinWith [d] ((next :: fields).map write))
      have hrest := ih (by simp)
      have hline : Text.joinWith [d] ((field :: next :: fields).map write) =
          write field ++ d :: Text.joinWith [d] ((next :: fields).map write) := by
        simp [Text.joinWith_cons_cons]
      rw [hline, quotedFields_eq_cons (by simp) hfirst, hrest]
      rfl

/-- Fields that keep their quotes come back as they have been written, others as they
were. -/
theorem splitQuoted_joinWith_of_written (preserve : Bool) {write : List Char → List Char}
    (hwrite : ∀ field, Written d field (write field)) {fields : List (List Char)}
    (hne : fields ≠ []) :
    splitQuoted [d] preserve padded (Text.joinWith [d] (fields.map write)) =
      ⟨fields.map fun field => if preserve then write field else field, false⟩ := by
  rw [splitQuoted_eq_quotedFields preserve padded (by simp)]
  exact quotedFields_joinWith hd hpad preserve hwrite hne

theorem splitQuoted_joinWith {write : List Char → List Char}
    (hwrite : ∀ field, Written d field (write field)) {fields : List (List Char)}
    (hne : fields ≠ []) :
    splitQuoted [d] false padded (Text.joinWith [d] (fields.map write)) =
      ⟨fields, false⟩ := by
  have hsplit := splitQuoted_joinWith_of_written hd hpad false hwrite hne
  simpa using hsplit

end

/-- A line that has been put together under a policy with quotes is divided into the
fields that it was put together from. -/
theorem split_join {policy : Policy} (hpolicy : policy.isQuoted = true) {d : Char}
    (hd : d ≠ '"') {fields : List (List Char)} (hne : fields ≠ []) :
    ∃ line, join ⟨[d], policy⟩ fields = .ok ⟨line, false⟩ ∧
      split ⟨[d], policy⟩ false line = ⟨fields, false⟩ := by
  cases policy with
  | quoted =>
    refine ⟨_, rfl, splitQuoted_joinWith hd ?_ (written_quoteField d) hne⟩
    rintro hpadded rfl
    exact absurd hpadded (by decide)
  | quotedRfc =>
    refine ⟨_, rfl, splitQuoted_joinWith hd ?_ (written_quoteFieldRfc d) hne⟩
    simp
  | _ => simp [Policy.isQuoted] at hpolicy

/-- Fields that hold the delimiter, quotes, line breaks or nothing. -/
theorem split_join_comma :
    let fields := ["a,b".toList, " \"".toList, "\n".toList, "".toList]
    Policy.quotedRfc.isQuoted = true ∧ ',' ≠ '"' ∧ fields ≠ [] ∧
      ∃ line, join ⟨[','], .quotedRfc⟩ fields = .ok ⟨line, false⟩ ∧
        split ⟨[','], .quotedRfc⟩ false line = ⟨fields, false⟩ :=
  ⟨rfl, by decide, by simp, split_join rfl (by decide) (by simp)⟩

end Delimited
end TableQuery
