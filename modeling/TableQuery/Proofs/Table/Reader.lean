import TableQuery.Proofs.Delimited.LineBreaks

/-!
# Reading records that span lines

The reader counts quotes to find the end of a record.  It stops at the first line feed that
does not stand between quotes, so that a line of fields is read as one record however many
line feeds there are in it, and with the fields that were put together in it.
-/

namespace TableQuery
namespace DelimitedReader

/-! ## Lines -/

/-- The reader when it has read some lines and these are left. -/
def after (reader : DelimitedReader) (count : Nat) (lines : List InputLine) : DelimitedReader :=
  { reader with lines, linesRead := reader.linesRead + count }

theorem after_after (reader : DelimitedReader) (m n : Nat) (lines lines' : List InputLine) :
    (reader.after m lines).after n lines' = reader.after (m + n) lines' := by
  simp [after, Nat.add_assoc]

theorem dropMark_of_head?_ne {line : List Char} (h : line.head? ≠ some '\ufeff') :
    dropMark line = line := by
  unfold dropMark
  split
  · exact absurd rfl h
  · rfl

theorem readLine_cons {reader : DelimitedReader} {line : List Char} {lines : List InputLine}
    (hlines : reader.lines = .ok line :: lines)
    (hmark : reader.linesRead = 0 → line.head? ≠ some '\ufeff') :
    reader.readLine = (.ok (some line), reader.after 1 lines) := by
  have hline : (if reader.linesRead = 0 then dropMark line else line) = line := by
    split
    · next hfirst => exact dropMark_of_head?_ne (hmark hfirst)
    · rfl
  simp only [readLine, hlines, hline, after]

theorem readRest_of_not_isOpen {reader : DelimitedReader} {text : List Char}
    (hopen : isOpen text = false) : reader.readRest text = (.ok text, reader) := by
  rw [readRest, if_neg (by simp [hopen])]

theorem readRest_of_isOpen {reader reader' : DelimitedReader} {text line : List Char}
    (hopen : isOpen text = true) (hline : reader.readLine = (.ok (some line), reader')) :
    reader.readRest text = reader'.readRest (text ++ '\n' :: line) := by
  rw [readRest, if_pos hopen]
  split <;> simp_all

theorem readText_of_readRest {reader reader' last : DelimitedReader} {line text : List Char}
    (hline : reader.readLine = (.ok (some line), reader'))
    (hpolicy : reader'.dialect.policy = .quotedRfc)
    (hrest : reader'.readRest line = (.ok text, last)) :
    reader.readText = (.ok (some text), last) := by
  simp only [readText, hline, hpolicy, if_true, hrest]
  rfl

/-- The lines behind a text are read as long as its quotes are open. -/
theorem readRest_of_breaksQuoted {reader : DelimitedReader} {parts : List (List Char)}
    {others : List InputLine} (hlines : reader.lines = parts.map .ok ++ others)
    (hread : reader.linesRead ≠ 0) (hparts : ∀ part ∈ parts, '\n' ∉ part) {text : List Char}
    (hclosed : Delimited.breaksQuoted (isOpen text) (parts.flatMap (['\n'] ++ ·)) = true) :
    reader.readRest text =
      (.ok (text ++ parts.flatMap (['\n'] ++ ·)), reader.after parts.length others) := by
  induction parts generalizing reader text with
  | nil =>
    have hopen : isOpen text = false := by simpa [Delimited.breaksQuoted] using hclosed
    obtain rfl : reader.lines = others := hlines
    rw [readRest_of_not_isOpen hopen, List.flatMap_nil, List.append_nil]
    rfl
  | cons part parts ih =>
    obtain ⟨hpart, hothers⟩ := List.forall_mem_cons.mp hparts
    rw [List.flatMap_cons, List.append_assoc, List.singleton_append, Delimited.breaksQuoted,
      if_neg (by decide), Delimited.breaksQuoted_append hpart] at hclosed
    obtain ⟨hopen, hclosed⟩ : isOpen text = true ∧ Delimited.breaksQuoted
        (isOpen text != isOpen part) (parts.flatMap (['\n'] ++ ·)) = true := by
      simpa using hclosed
    have hline := readLine_cons hlines fun hfirst => absurd hfirst hread
    have hopen' : isOpen (text ++ '\n' :: part) = (isOpen text != isOpen part) := by
      rw [isOpen_append, isOpen_cons_of_ne (by decide)]
    rw [← hopen'] at hclosed
    rw [readRest_of_isOpen hopen hline, ih rfl (Nat.succ_ne_zero _) hothers hclosed, after_after,
      Nat.add_comm, List.flatMap_cons, List.append_assoc, List.append_assoc]
    rfl

/-- A text whose line feeds all stand between quotes is read as the text of one record. -/
theorem readText_of_breaksQuoted {reader : DelimitedReader} {text : List Char}
    {others : List InputLine} (hpolicy : reader.dialect.policy = .quotedRfc)
    (hlines : reader.lines = (Text.split ['\n'] text).map .ok ++ others)
    (hmark : reader.linesRead = 0 → text.head? ≠ some '\ufeff')
    (hclosed : Delimited.breaksQuoted false text = true) :
    ∃ count, reader.readText = (.ok (some text), reader.after (count + 1) others) := by
  have hparts : ∀ part ∈ Text.split ['\n'] text, '\n' ∉ part :=
    fun part => Text.not_mem_of_mem_split
  have hjoin := Text.joinWith_split (p := ['\n']) (by simp) text
  cases hsplit : Text.split ['\n'] text with
  | nil => exact absurd hsplit (Text.split_ne_nil (by simp))
  | cons first parts =>
    rw [hsplit] at hlines hparts hjoin
    rw [List.map_cons, List.cons_append] at hlines
    obtain ⟨hfirst, hothers⟩ := List.forall_mem_cons.mp hparts
    rw [Text.joinWith_cons_eq_append_flatMap] at hjoin
    have hline := readLine_cons hlines fun hzero hhead => by
      refine hmark hzero ?_
      rw [← hjoin, List.head?_append, hhead, Option.some_or]
    rw [← hjoin, Delimited.breaksQuoted_append hfirst, Bool.false_bne] at hclosed
    have hleft : (reader.after 1 (parts.map .ok ++ others)).lines = parts.map .ok ++ others := rfl
    have hrest := readRest_of_breaksQuoted hleft (Nat.succ_ne_zero _) hothers hclosed
    refine ⟨parts.length, ?_⟩
    rw [hjoin, after_after, Nat.add_comm] at hrest
    exact readText_of_readRest hline hpolicy hrest

/-! ## Records -/

/-- A reader of fields that may hold line breaks, when no record so far was irregular. -/
structure Regular (d : Char) (preserve : Bool) (reader : DelimitedReader) : Prop where
  dialect : reader.dialect = ⟨[d], .quotedRfc⟩
  preserve : reader.preserve = preserve
  pulls : reader.closed = false
  irregular : reader.irregular = none

/-- The next record has the fields of the next text. -/
theorem Regular.next_of_readText {d : Char} {preserve : Bool} {reader : DelimitedReader}
    (h : reader.Regular d preserve) {count : Nat} {others : List InputLine} {text : List Char}
    (htext : reader.readText = (.ok (some text), reader.after count others))
    {fields : List (List Char)}
    (hsplit : Delimited.split ⟨[d], .quotedRfc⟩ preserve text = ⟨fields, false⟩) :
    reader.next = (.ok (some (fields.map fun field => .text (String.ofList field))),
      { reader.after count others with
        recordsRead := reader.recordsRead + 1
        fieldCounts := reader.fieldCounts.observe ⟨reader.recordsRead + 1, fields.length⟩ }) := by
  have hfields : reader.readFields = (.ok (some fields), reader.after count others) := by
    simp only [readFields, h.pulls, htext, h.dialect, h.preserve, hsplit]
    rfl
  rw [next, hfields]
  rfl

/-- What a field is read as: without the carriage returns before its line feeds, and with
its quotes if fields keep them. -/
def readBack (d : Char) (preserve : Bool) (field : List Char) : List Char :=
  let kept := Text.dropReturns field
  if preserve then Delimited.quoteFieldRfc [d] kept else kept

section

variable {d : Char} (hquote : d ≠ '"')

include hquote

theorem split_rfcLine (preserve : Bool) {fields : List (List Char)} (hne : fields ≠ []) :
    Delimited.split ⟨[d], .quotedRfc⟩ preserve
        (Delimited.rfcLine d (fields.map Text.dropReturns)) =
      ⟨fields.map (readBack d preserve), false⟩ := by
  have hne' : fields.map Text.dropReturns ≠ [] := by simpa using hne
  have hpad : false = true → d ≠ ' ' := nofun
  have hsplit := Delimited.splitQuoted_joinWith_of_written hquote hpad preserve
    (Delimited.written_quoteFieldRfc d) hne'
  simp only [Delimited.split, Delimited.rfcLine]
  rw [hsplit, List.map_map]
  rfl

variable (hbreak : d ≠ '\n') (hreturn : d ≠ '\r')

include hbreak hreturn

/-- A line of fields is read as the record of these fields. -/
theorem next_rfcLine {preserve : Bool} {reader : DelimitedReader}
    (hregular : reader.Regular d preserve) {fields : List (List Char)} (hne : fields ≠ [])
    {rest : List Char}
    (hlines : reader.lines = InputLine.ofText (Delimited.rfcLine d fields ++ '\n' :: rest))
    (hmark : reader.linesRead = 0 →
      (Delimited.rfcLine d fields ++ '\n' :: rest).head? ≠ some '\ufeff') :
    ∃ reader', reader.next =
        (.ok (some ((fields.map (readBack d preserve)).map fun field => .text (String.ofList field))),
          reader') ∧
      reader'.Regular d preserve ∧ reader'.lines = InputLine.ofText rest ∧
      reader'.linesRead ≠ 0 := by
  have hlast := Delimited.getLast?_rfcLine hreturn fields
  rw [InputLine.ofText, Text.lines_append_cons_of_getLast? hlast, List.map_append,
    Delimited.dropReturns_rfcLine hbreak hreturn] at hlines
  obtain ⟨count, htext⟩ := readText_of_breaksQuoted (by rw [hregular.dialect]) hlines
    (fun hzero => by
      rw [← Delimited.dropReturns_rfcLine hbreak hreturn]
      refine Text.head?_dropReturns (by decide) fun hhead => hmark hzero ?_
      rw [List.head?_append, hhead, Option.some_or])
    (Delimited.breaksQuoted_rfcLine hquote hbreak _)
  exact ⟨_, hregular.next_of_readText htext (split_rfcLine hquote preserve hne),
    ⟨hregular.dialect, hregular.preserve, hregular.pulls, hregular.irregular⟩, rfl,
    Nat.succ_ne_zero _⟩

end

end DelimitedReader
end TableQuery
