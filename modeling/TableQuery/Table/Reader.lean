import TableQuery.Delimited.Split
import TableQuery.Settings
import TableQuery.Table.Basic
import TableQuery.Table.FieldCounts

/-!
# Reading delimited text

Each line is a record, except that a quoted field may hold line breaks under the policy
that allows it: lines are put together until they hold an even number of quotes. A byte
order mark at the start of the first line is no part of it.
-/

namespace TableQuery

/-- A line of input, without its end, or the reason why it cannot be read. -/
abbrev InputLine := Except TableError (List Char)

/-- The lines of a text. -/
def InputLine.ofText (text : List Char) : List InputLine :=
  (Text.lines text).map .ok

/-- The lines that a sequence of bytes spells. Each is decoded by itself. -/
def InputLine.ofBytes (bytes : List UInt8) : List InputLine :=
  (Text.pieces (· == 10) bytes).map fun line =>
    ((Text.Utf8.decode line).map Text.chomp).mapError .undecodable

/-- A table in delimited text. -/
structure DelimitedReader where
  /-- How records stand on lines. -/
  dialect : Dialect
  /-- Whether fields keep the quotes and spaces around them. -/
  preserve : Bool
  /-- The names of the columns. -/
  header : Option (List String)
  /-- The lines that have not been read. -/
  lines : List InputLine
  /-- The number of lines that have been read. -/
  linesRead : Nat
  /-- The number of records that have been pulled. -/
  recordsRead : Nat
  /-- The line at which the first record with malformed quotes begins. -/
  irregular : Option Nat
  /-- The numbers of fields of the records. -/
  fieldCounts : FieldCounts
  /-- Whether no more records are to be pulled. -/
  closed : Bool

namespace DelimitedReader

/-- The text without a byte order mark at its start. -/
def dropMark : List Char → List Char
  | '\ufeff' :: s => s
  | s => s

/-- The next line, or none at the end of the input, and the reader after it. -/
def readLine (reader : DelimitedReader) :
    Except TableError (Option (List Char)) × DelimitedReader :=
  match reader.lines with
  | [] => (.ok none, reader)
  | .error e :: lines => (.error e, { reader with lines })
  | .ok line :: lines =>
    let line := if reader.linesRead = 0 then dropMark line else line
    (.ok (some line), { reader with lines, linesRead := reader.linesRead + 1 })

theorem length_lines_of_readLine {reader reader' : DelimitedReader} {line : List Char}
    (h : reader.readLine = (.ok (some line), reader')) :
    reader'.lines.length < reader.lines.length := by
  unfold readLine at h
  split at h <;> simp_all
  simp [← h.2]

/-- Whether a text holds an odd number of quotes. -/
def isOpen (text : List Char) : Bool :=
  text.count '"' % 2 = 1

/-- A text and the lines after it that belong to its record: those up to the first one
with which the number of quotes is even. -/
def readRest (reader : DelimitedReader) (text : List Char) :
    Except TableError (List Char) × DelimitedReader :=
  if isOpen text then
    match _ : reader.readLine with
    | (.error e, reader) => (.error e, reader)
    | (.ok none, reader) => (.ok text, reader)
    | (.ok (some line), reader') => readRest reader' (text ++ '\n' :: line)
  else
    (.ok text, reader)
termination_by reader.lines.length
decreasing_by exact length_lines_of_readLine (by assumption)

theorem length_lines_of_readRest {reader reader' : DelimitedReader} {text text' : List Char}
    (h : reader.readRest text = (.ok text', reader')) :
    reader'.lines.length ≤ reader.lines.length := by
  fun_induction readRest reader text with
  | case1 => simp at h
  | case2 reader text hopen reader'' heq =>
    unfold readLine at heq
    split at heq <;> simp_all
  | case3 reader text hopen line reader'' heq ih =>
    have := length_lines_of_readLine heq
    have := ih h
    omega
  | case4 => simp_all

/-- The text of the next record, or none at the end of the input. -/
def readText (reader : DelimitedReader) :
    Except TableError (Option (List Char)) × DelimitedReader :=
  match reader.readLine with
  | (.ok (some line), reader) =>
    if reader.dialect.policy = .quotedRfc then
      let (outcome, reader) := reader.readRest line
      (outcome.map some, reader)
    else
      (.ok (some line), reader)
  | other => other

theorem length_lines_of_readText {reader reader' : DelimitedReader} {text : List Char}
    (h : reader.readText = (.ok (some text), reader')) :
    reader'.lines.length < reader.lines.length := by
  unfold readText at h
  split at h
  · next line reader'' heq =>
    have hlt := length_lines_of_readLine heq
    split at h
    · simp only [Prod.mk.injEq] at h
      obtain ⟨h₁, rfl⟩ := h
      cases hrest : reader''.readRest line with
      | mk outcome rest =>
        rw [hrest] at h₁
        cases outcome with
        | error e => simp [Except.map] at h₁
        | ok t =>
          have := length_lines_of_readRest hrest
          simp only
          omega
    · simp_all
  · next other hne => exact absurd h (hne text reader')

/-- The fields of the next record, or none at the end of the input. -/
def readFields (reader : DelimitedReader) :
    Except TableError (Option (List (List Char))) × DelimitedReader :=
  if reader.closed then
    (.ok none, reader)
  else
    match reader.readText with
    | (.error e, after) => (.error e, after)
    | (.ok none, after) => (.ok none, after)
    | (.ok (some text), after) =>
      let split := Delimited.split reader.dialect reader.preserve text
      let irregular :=
        if split.irregular then reader.irregular.or (some (reader.linesRead + 1))
        else reader.irregular
      (.ok (some split.fields), { after with irregular })

theorem length_lines_of_readFields {reader reader' : DelimitedReader}
    {fields : List (List Char)} (h : reader.readFields = (.ok (some fields), reader')) :
    reader'.lines.length < reader.lines.length := by
  unfold readFields at h
  split at h
  · simp at h
  · split at h
    · simp at h
    · simp at h
    · next heq =>
      simp only [Prod.mk.injEq] at h
      obtain ⟨-, rfl⟩ := h
      have hlt := length_lines_of_readText heq
      exact hlt

/-- The next record, or none at the end of the input. -/
def next (reader : DelimitedReader) : Except TableError (Option Record) × DelimitedReader :=
  match reader.readFields with
  | (.error e, reader) => (.error e, reader)
  | (.ok none, reader) => (.ok none, reader)
  | (.ok (some fields), reader) =>
    let number := reader.recordsRead + 1
    (.ok (some (fields.map fun field => .text (String.ofList field))),
      { reader with
        recordsRead := number
        fieldCounts := reader.fieldCounts.observe ⟨number, fields.length⟩ })

theorem length_lines_of_next {reader reader' : DelimitedReader} {record : Record}
    (h : reader.next = (.ok (some record), reader')) :
    reader'.lines.length < reader.lines.length := by
  unfold next at h
  split at h
  · simp at h
  · simp at h
  · next heq =>
    simp only [Prod.mk.injEq] at h
    obtain ⟨-, rfl⟩ := h
    have hlt := length_lines_of_readFields heq
    exact hlt

/-- The flaws of the records so far. -/
def warnings (reader : DelimitedReader) : List String :=
  let quoting := reader.irregular.map fun line =>
    let policy := reader.dialect.policy.name
    s!"inconsistent double quote escaping in \"{policy}\" input, e.g. at line {line}"
  quoting.toList ++ reader.fieldCounts.warning?.toList

instance : RecordSource DelimitedReader where
  header := header
  next := next
  close reader := { reader with closed := true }
  warnings := warnings
  remaining reader := reader.lines.length
  remaining_lt := length_lines_of_next

/-- Starts to read lines. A header is read at once; input without lines has none. -/
def start (format : TableFormat) (lines : List InputLine) :
    Except TableError DelimitedReader := do
  let dialect ← format.dialect.validate
  let reader : DelimitedReader :=
    ⟨dialect, format.preserveQuotes, none, lines, 0, 0, none, .none, false⟩
  if format.hasHeader then
    match reader.readFields with
    | (.error e, _) => throw e
    | (.ok fields, reader) =>
      return { reader with header := fields.map fun names => names.map String.ofList }
  else
    return reader

end DelimitedReader
end TableQuery
