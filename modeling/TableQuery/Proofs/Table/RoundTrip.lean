import TableQuery.Proofs.Run.Emission
import TableQuery.Proofs.Table.Reader
import TableQuery.Proofs.Text.Utf8
import TableQuery.Table.Writer

/-!
# Reading delimited text that has been written

Text written with quoted fields that may hold line breaks is read back as the records that
were written, except that a carriage return before a line feed is lost even between quotes,
since lines are cut before quotes are looked at.  A byte order mark at the start of the
output is taken for no part of it, wherever it comes from.
-/

namespace TableQuery

/-- The lines of records, each of them ended by a line feed. -/
def Delimited.rfcText (d : Char) : List (List (List Char)) → List Char
  | [] => []
  | fields :: records => rfcLine d fields ++ '\n' :: rfcText d records

theorem Dialect.validate_rfc {d : Char} (hquote : d ≠ '"') :
    Dialect.validate ⟨[d], .quotedRfc⟩ = .ok ⟨[d], .quotedRfc⟩ := by
  simp [Dialect.validate, Dialect.normalize?, Policy.isQuoted, Ne.symm hquote]

/-! ## Writing -/

namespace DelimitedWriter

/-- Output in which fields may hold line breaks, for which no header is known. -/
structure Headerless (d : Char) (writer : DelimitedWriter) : Prop where
  dialect : writer.joiner.dialect = ⟨[d], .quotedRfc⟩
  header : writer.header = none

/-- The fields of a record as they are written. -/
def fieldsOf (record : Record) : List (List Char) :=
  (record.map Value.toText).map String.toList

variable {d : Char} {writer : DelimitedWriter}

theorem Headerless.writeHeader (h : writer.Headerless d) :
    ∃ writer', writer.writeHeader = (.ok (), writer') ∧ writer'.Headerless d ∧
      writer'.latest = writer.latest := by
  unfold DelimitedWriter.writeHeader
  split
  · exact ⟨writer, rfl, h, rfl⟩
  · rw [h.header]
    exact ⟨_, rfl, ⟨h.dialect, rfl⟩, rfl⟩

theorem Headerless.step (h : writer.Headerless d) (fields : List (List Char)) :
    ∃ joiner, writer.joiner.step fields = (.ok (Delimited.rfcLine d fields), joiner) ∧
      joiner.dialect = ⟨[d], .quotedRfc⟩ := by
  refine ⟨{ writer.joiner with decided := true }, ?_, h.dialect⟩
  simp [Delimited.Joiner.step, Delimited.Joiner.joinPlain, h.dialect, Delimited.join_rfc]

/-- Every record is taken and becomes the next line. -/
theorem Headerless.write (h : writer.Headerless d) (record : Record) :
    ∃ writer', writer.write record = (.ok .more, writer') ∧ writer'.Headerless d ∧
      writer'.latest = Delimited.rfcLine d (fieldsOf record) :: writer.latest := by
  obtain ⟨started, hstarted, hheadless, hlatest⟩ := h.writeHeader
  obtain ⟨joiner, hjoiner, hdialect⟩ := hheadless.step (fieldsOf record)
  simp only [fieldsOf] at hjoiner
  simp only [DelimitedWriter.write, hstarted, writeLine, hjoiner, Except.map, hlatest]
  exact ⟨_, rfl, ⟨hdialect, hheadless.header⟩, rfl⟩

theorem Headerless.writeAll (h : writer.Headerless d) (records : List Record) :
    (RecordSink.writeAll writer records).Headerless d ∧
      (RecordSink.writeAll writer records).text =
        writer.text ++ Delimited.rfcText d (records.map fieldsOf) := by
  induction records generalizing writer with
  | nil => exact ⟨h, (List.append_nil _).symm⟩
  | cons record records ih =>
    obtain ⟨writer', hwrite, hheadless, hlatest⟩ := h.write record
    have hfirst : RecordSink.writeAll writer (record :: records) =
        RecordSink.writeAll writer' records :=
      congrArg (fun step => RecordSink.writeAll step.2 records) hwrite
    rw [hfirst]
    obtain ⟨hall, htext⟩ := ih hheadless
    refine ⟨hall, ?_⟩
    rw [htext, text, text, hlatest]
    simp [Delimited.rfcText]

theorem Headerless.willing (h : writer.Headerless d) : RecordSink.Willing writer := by
  intro records record
  obtain ⟨writer', hwrite, -⟩ := (h.writeAll records).1.write record
  exact congrArg Prod.fst hwrite

/-- Output without a header holds a line for each record, and nothing else. -/
theorem Headerless.finish (h : writer.Headerless d) (records : List Record) :
    ∃ ended, RecordSink.finish (RecordSink.writeAll writer records) = (.ok (), ended) ∧
      ended.text = writer.text ++ Delimited.rfcText d (records.map fieldsOf) := by
  obtain ⟨hall, htext⟩ := h.writeAll records
  obtain ⟨ended, hended, -, hlatest⟩ := hall.writeHeader
  refine ⟨ended, hended, ?_⟩
  rw [← htext, text, text, hlatest]

theorem exists_start {format : TableFormat} (hquote : d ≠ '"')
    (hdialect : format.dialect = ⟨[d], .quotedRfc⟩) :
    ∃ writer, start format = .ok writer ∧ writer.Headerless d ∧ writer.text = [] := by
  refine ⟨⟨.start ⟨[d], .quotedRfc⟩ format.dynamicOutput, format.hasHeader, none, false, false, []⟩,
    ?_, ⟨rfl, rfl⟩, rfl⟩
  rw [start, hdialect, Dialect.validate_rfc hquote]
  rfl

end DelimitedWriter

/-! ## Reading -/

/-- A source yields these records up to its end, and is then the last source. -/
def RecordSource.YieldsTo {σ : Type} [RecordSource σ] : σ → List Record → σ → Prop
  | source, [], last => RecordSource.next source = (.ok none, last)
  | source, record :: records, last =>
    ∃ rest, RecordSource.next source = (.ok (some record), rest) ∧
      RecordSource.YieldsTo rest records last

theorem RecordSource.YieldsTo.unique {σ : Type} [RecordSource σ] {source last last' : σ}
    {records records' : List Record} (h : RecordSource.YieldsTo source records last)
    (h' : RecordSource.YieldsTo source records' last') : records = records' := by
  induction records generalizing source records' with
  | nil =>
    cases records' with
    | nil => rfl
    | cons record records' =>
      obtain ⟨rest, hnext, -⟩ := h'
      cases h.symm.trans hnext
  | cons record records ih =>
    obtain ⟨rest, hnext, hrest⟩ := h
    cases records' with
    | nil => cases hnext.symm.trans h'
    | cons record' records' =>
      obtain ⟨rest', hnext', hrest'⟩ := h'
      cases hnext.symm.trans hnext'
      rw [ih hrest hrest']

namespace DelimitedReader

variable {d : Char} {reader : DelimitedReader} {preserve : Bool}

theorem Regular.warnings (h : reader.Regular d preserve) :
    RecordSource.warnings reader = reader.fieldCounts.warning?.toList := by
  show (_ : Option String).toList ++ _ = _
  rw [h.irregular]
  rfl

theorem Regular.next_nil (h : reader.Regular d preserve) (hlines : reader.lines = []) :
    reader.next = (.ok none, reader) := by
  simp [next, readFields, h.pulls, readText, readLine, hlines]

theorem Regular.yieldsTo (hquote : d ≠ '"') (hbreak : d ≠ '\n') (hreturn : d ≠ '\r')
    {records : List (List (List Char))} (hne : ∀ fields ∈ records, fields ≠ [])
    (h : reader.Regular d preserve)
    (hlines : reader.lines = InputLine.ofText (Delimited.rfcText d records))
    (hmark : reader.linesRead = 0 → (Delimited.rfcText d records).head? ≠ some '\ufeff') :
    ∃ last : DelimitedReader, last.Regular d preserve ∧ RecordSource.YieldsTo reader
      (records.map fun fields =>
        (fields.map (readBack d preserve)).map fun field => .text (String.ofList field)) last := by
  induction records generalizing reader with
  | nil => exact ⟨reader, h, h.next_nil hlines⟩
  | cons fields records ih =>
    obtain ⟨hfields, hothers⟩ := List.forall_mem_cons.mp hne
    obtain ⟨reader', hnext, hregular, hlines', hread⟩ :=
      next_rfcLine hquote hbreak hreturn h hfields hlines hmark
    obtain ⟨last, hlast, hyields⟩ := ih hothers hregular hlines' fun hzero => absurd hzero hread
    exact ⟨last, hlast, reader', hnext, hyields⟩

theorem exists_start {format : TableFormat} (hquote : d ≠ '"')
    (hdialect : format.dialect = ⟨[d], .quotedRfc⟩) (hheader : format.hasHeader = false)
    (lines : List InputLine) :
    ∃ reader, start format lines = .ok reader ∧ reader.Regular d format.preserveQuotes ∧
      reader.lines = lines ∧ reader.linesRead = 0 := by
  refine ⟨⟨⟨[d], .quotedRfc⟩, format.preserveQuotes, none, lines, 0, 0, none, .none, false⟩,
    ?_, ⟨rfl, rfl, rfl, rfl⟩, rfl, rfl⟩
  rw [start, hdialect, Dialect.validate_rfc hquote, hheader]
  rfl

end DelimitedReader

/-! ## Writing and reading -/

/-- A record of texts. -/
def Record.ofTexts (fields : List String) : Record :=
  fields.map .text

theorem DelimitedWriter.fieldsOf_ofTexts (fields : List String) :
    fieldsOf (Record.ofTexts fields) = fields.map String.toList := by
  rw [fieldsOf, Record.ofTexts, List.map_map, List.map_map]
  rfl

/-- Output in the format takes all records, these come to the text, and the reader reads the
bytes of the text in the same format. -/
def TableFormat.Rereads (format : TableFormat) (records : List Record) (text : List Char)
    (reader : DelimitedReader) : Prop :=
  ∃ writer ended, DelimitedWriter.start format = .ok writer ∧ RecordSink.Willing writer ∧
    RecordSink.finish (RecordSink.writeAll writer records) = (.ok (), ended) ∧
    ended.text = text ∧
    DelimitedReader.start format (InputLine.ofBytes (Text.Utf8.encode text)) = .ok reader

/-- The text of records of texts. -/
def Delimited.rfcOutput (d : Char) (records : List (List String)) : List Char :=
  rfcText d (records.map (List.map String.toList))

theorem DelimitedReader.Regular.yieldsTo_rfcOutput {d : Char} {preserve : Bool}
    {reader : DelimitedReader} (hregular : reader.Regular d preserve) (hquote : d ≠ '"')
    (hbreak : d ≠ '\n') (hreturn : d ≠ '\r') {records : List (List String)}
    (hne : ∀ fields ∈ records, fields ≠ [])
    (hlines : reader.lines = InputLine.ofText (Delimited.rfcOutput d records))
    (hmark : (Delimited.rfcOutput d records).head? ≠ some '\ufeff') :
    ∃ last : DelimitedReader, last.Regular d preserve ∧ RecordSource.YieldsTo reader
      (records.map fun fields => Record.ofTexts (fields.map fun field =>
        String.ofList (DelimitedReader.readBack d preserve field.toList))) last := by
  obtain ⟨last, hlast, hyields⟩ := hregular.yieldsTo hquote hbreak hreturn
    (by simpa using hne) hlines fun _ => hmark
  refine ⟨last, hlast, ?_⟩
  simpa [Record.ofTexts, Function.comp_def] using hyields

section

variable {d : Char} {format : TableFormat} (hquote : d ≠ '"')
  (hdialect : format.dialect = ⟨[d], .quotedRfc⟩) (hheader : format.hasHeader = false)

include hquote hdialect hheader

theorem TableFormat.exists_rereads (records : List (List String)) :
    ∃ reader, format.Rereads (records.map Record.ofTexts) (Delimited.rfcOutput d records) reader ∧
      reader.Regular d format.preserveQuotes ∧ reader.linesRead = 0 ∧
      reader.lines = InputLine.ofText (Delimited.rfcOutput d records) := by
  obtain ⟨writer, hwriter, hheadless, hempty⟩ := DelimitedWriter.exists_start hquote hdialect
  obtain ⟨ended, hended, htext⟩ := hheadless.finish (records.map Record.ofTexts)
  have hfields : (records.map Record.ofTexts).map DelimitedWriter.fieldsOf =
      records.map (List.map String.toList) := by
    rw [List.map_map]
    exact List.map_congr_left fun fields _ => DelimitedWriter.fieldsOf_ofTexts fields
  rw [hempty, List.nil_append, hfields] at htext
  obtain ⟨reader, hreader, hregular, hlines, hread⟩ :=
    DelimitedReader.exists_start hquote hdialect hheader
      (InputLine.ofBytes (Text.Utf8.encode (Delimited.rfcOutput d records)))
  rw [InputLine.ofBytes_encode] at hlines
  exact ⟨reader, ⟨writer, ended, hwriter, hheadless.willing, hended, htext, hreader⟩, hregular,
    hread, hlines⟩

/-- Records of texts that are written, and read again in the same format, come back with
the same fields, but for the carriage returns before their line feeds, unless the output
begins with a byte order mark.  No record is reported for its quotes. -/
theorem TableFormat.yieldsTo_of_rereads (hbreak : d ≠ '\n') (hreturn : d ≠ '\r')
    {records : List (List String)} (hne : ∀ fields ∈ records, fields ≠ [])
    (hmark : (Delimited.rfcOutput d records).head? ≠ some '\ufeff') :
    ∃ reader last : DelimitedReader,
      format.Rereads (records.map Record.ofTexts) (Delimited.rfcOutput d records) reader ∧
      RecordSource.YieldsTo reader (records.map fun fields => Record.ofTexts (fields.map fun field =>
        String.ofList (DelimitedReader.readBack d format.preserveQuotes field.toList))) last ∧
      RecordSource.warnings last = last.fieldCounts.warning?.toList := by
  obtain ⟨reader, hrereads, hregular, -, hlines⟩ :=
    TableFormat.exists_rereads hquote hdialect hheader records
  obtain ⟨last, hlast, hyields⟩ :=
    hregular.yieldsTo_rfcOutput hquote hbreak hreturn hne hlines hmark
  exact ⟨reader, last, hrereads, hyields, hlast.warnings⟩

end

/-- Fields with the delimiter, quotes, line breaks of two kinds and nothing in them. -/
theorem TableFormat.yieldsTo_of_rereads_comma :
    let format : TableFormat := ⟨⟨[','], .quotedRfc⟩, false, false, false⟩
    let records := [["a,\"b\"", "x\ny\r\n\r", ""], ["c"]]
    format.hasHeader = false ∧ (∀ fields ∈ records, fields ≠ []) ∧
      (Delimited.rfcOutput ',' records).head? ≠ some '\ufeff' ∧
      ∃ reader last : DelimitedReader,
        format.Rereads (records.map Record.ofTexts) (Delimited.rfcOutput ',' records) reader ∧
        RecordSource.YieldsTo reader
          (records.map fun fields => Record.ofTexts (fields.map fun field =>
            String.ofList (DelimitedReader.readBack ',' false field.toList))) last ∧
        RecordSource.warnings last = last.fieldCounts.warning?.toList := by
  have hmark : (Delimited.rfcOutput ',' [["a,\"b\"", "x\ny\r\n\r", ""], ["c"]]).head? ≠
      some '\ufeff' := by decide +kernel
  exact ⟨rfl, by simp, hmark, TableFormat.yieldsTo_of_rereads (by decide) rfl rfl (by decide)
    (by decide) (by simp) hmark⟩

theorem TableFormat.Rereads.unique {format : TableFormat} {records records' : List Record}
    {text : List Char} {reader reader' : DelimitedReader} (h : format.Rereads records text reader)
    (h' : format.Rereads records' text reader') : reader = reader' := by
  obtain ⟨-, -, -, -, -, -, hstart⟩ := h
  obtain ⟨-, -, -, -, -, -, hstart'⟩ := h'
  exact Except.ok.inj (hstart.symm.trans hstart')

/-- A record whose fields are read as others is not read as it was written. -/
theorem TableFormat.Rereads.not_yieldsTo {format : TableFormat} {d : Char} {fields : List String}
    {reader last : DelimitedReader} (hquote : d ≠ '"')
    (hdialect : format.dialect = ⟨[d], .quotedRfc⟩) (hheader : format.hasHeader = false)
    (hbreak : d ≠ '\n') (hreturn : d ≠ '\r') (hne : fields ≠ [])
    (hmark : (Delimited.rfcOutput d [fields]).head? ≠ some '\ufeff')
    (hchange : fields.map (fun field => String.ofList
      (DelimitedReader.readBack d format.preserveQuotes field.toList)) ≠ fields)
    (h : format.Rereads [Record.ofTexts fields] (Delimited.rfcOutput d [fields]) reader) :
    ¬RecordSource.YieldsTo reader [Record.ofTexts fields] last := by
  intro hyields
  obtain ⟨reader', hrereads, hregular, -, hlines⟩ :=
    TableFormat.exists_rereads hquote hdialect hheader [fields]
  obtain rfl := h.unique hrereads
  obtain ⟨last', -, hyields'⟩ := hregular.yieldsTo_rfcOutput hquote hbreak hreturn
    (by simpa using hne) hlines hmark
  have hrecord := List.singleton_inj.mp (hyields'.unique hyields)
  exact hchange ((List.map_inj_right fun _ _ => Value.text.inj).mp hrecord)

/-- A carriage return before a line feed in a field, a byte order mark as the delimiter
behind an empty first field, and a quoted field that is read with its quotes do not come
back as they were written. -/
theorem TableFormat.not_yieldsTo_of_rereads :
    let same := fun (format : TableFormat) (fields : List String) (text : String) =>
      ∃ reader last : DelimitedReader,
        format.Rereads [Record.ofTexts fields] text.toList reader ∧
        RecordSource.YieldsTo reader [Record.ofTexts fields] last
    ¬same ⟨⟨[','], .quotedRfc⟩, false, false, false⟩ ["a\r\nb"] "\"a\r\nb\"\n" ∧
      ¬same ⟨⟨['\ufeff'], .quotedRfc⟩, false, false, false⟩ ["", "x"] "\ufeffx\n" ∧
      ¬same ⟨⟨[','], .quotedRfc⟩, false, true, false⟩ ["a,b"] "\"a,b\"\n" := by
  refine ⟨?_, ?_, ?_⟩
  · rintro ⟨reader, last, hrereads, hyields⟩
    exact hrereads.not_yieldsTo (d := ',') (by decide) rfl rfl (by decide) (by decide) (by simp)
      (by decide +kernel) (by decide +kernel) hyields
  · rintro ⟨reader, last, hrereads, hyields⟩
    have hdialect : (⟨⟨['\ufeff'], .quotedRfc⟩, false, false, false⟩ : TableFormat).dialect =
      ⟨['\ufeff'], .quotedRfc⟩ := rfl
    obtain ⟨reader', hrereads', hregular, hread, hlines⟩ :=
      TableFormat.exists_rereads (by decide) hdialect rfl [["", "x"]]
    obtain rfl := hrereads.unique hrereads'
    have hline : Text.lines (Delimited.rfcOutput '\ufeff' [["", "x"]]) = ["\ufeffx".toList] := by
      decide +kernel
    rw [InputLine.ofText, hline] at hlines
    obtain ⟨rest, hnext, -⟩ := hyields
    have hsplit : Delimited.split ⟨['\ufeff'], .quotedRfc⟩ false
        (Delimited.rfcLine '\ufeff' [['x']]) = ⟨[['x']], false⟩ :=
      DelimitedReader.split_rfcLine (d := '\ufeff') (by decide) false (List.cons_ne_nil ['x'] [])
    have hread' : reader.readLine = (.ok (some ['x']), reader.after 1 []) := by
      simp [DelimitedReader.readLine, hlines, hread, DelimitedReader.dropMark,
        DelimitedReader.after]
    have hrest : (reader.after 1 []).readRest ['x'] = (.ok ['x'], reader.after 1 []) :=
      DelimitedReader.readRest_of_not_isOpen rfl
    have htext := DelimitedReader.readText_of_readRest hread'
      (congrArg Dialect.policy hregular.dialect) hrest
    have hrecord := congrArg Prod.fst (hnext.symm.trans (hregular.next_of_readText htext hsplit))
    simp [Record.ofTexts] at hrecord
  · rintro ⟨reader, last, hrereads, hyields⟩
    exact hrereads.not_yieldsTo (d := ',') (by decide) rfl rfl (by decide) (by decide) (by simp)
      (by decide +kernel) (by decide +kernel) hyields

end TableQuery
