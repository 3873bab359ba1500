import TableQuery.Delimited.Joiner
import TableQuery.Settings
import TableQuery.Table.Basic

/-!
# Writing delimited text

Each record becomes a line. The header, if one is wanted and known, goes before the first
record, or at the end if there is none. Absent values become empty fields, and a warning
says so.
-/

namespace TableQuery

/-- Output of delimited text. -/
structure DelimitedWriter where
  /-- How records are joined to lines. -/
  joiner : Delimited.Joiner
  /-- Whether a header is wanted. -/
  wantsHeader : Bool
  /-- The names of the columns, until they are written. -/
  header : Option (List String)
  /-- Whether the place of the header has passed. -/
  headerDone : Bool
  /-- Whether an absent value has been written. -/
  nullWritten : Bool
  /-- The lines so far, latest first. -/
  latest : List (List Char)

namespace DelimitedWriter

/-- Output without lines. -/
def start (format : TableFormat) : Except TableError DelimitedWriter := do
  let dialect ← format.dialect.validate
  return ⟨.start dialect format.dynamicOutput, format.hasHeader, none, false, false, []⟩

/-- The text of the output. -/
def text (writer : DelimitedWriter) : List Char :=
  (writer.latest.reverse.map fun line => line ++ ['\n']).flatten

/-- Tells the names of the columns, unless the first line has been written. -/
def announce (names : List String) (writer : DelimitedWriter) : DelimitedWriter :=
  if writer.wantsHeader && !writer.headerDone then { writer with header := some names }
  else writer

/-- Writes a line. -/
def writeLine (fields : List String) (writer : DelimitedWriter) :
    Except TableError Unit × DelimitedWriter :=
  match writer.joiner.step (fields.map String.toList) with
  | (.error e, joiner) => (.error e, { writer with joiner })
  | (.ok line, joiner) => (.ok (), { writer with joiner, latest := line :: writer.latest })

/-- Writes the header, if its place has not passed. -/
def writeHeader (writer : DelimitedWriter) : Except TableError Unit × DelimitedWriter :=
  if writer.headerDone then
    (.ok (), writer)
  else
    match writer.header with
    | none => (.ok (), { writer with headerDone := true })
    | some names => { writer with headerDone := true, header := none }.writeLine names

/-- Writes a record. -/
def write (record : Record) (writer : DelimitedWriter) :
    Except TableError Demand × DelimitedWriter :=
  match writer.writeHeader with
  | (.error e, writer) => (.error e, writer)
  | (.ok _, writer) =>
    let nullWritten := writer.nullWritten || record.any Value.isNull
    let (outcome, writer) := { writer with nullWritten }.writeLine (record.map Value.toText)
    (outcome.map fun _ => .more, writer)

/-- The flaws of the output so far. -/
def warnings (writer : DelimitedWriter) : List String :=
  let nulls := "NULL values in output were replaced by empty strings"
  writer.joiner.warnings ++ if writer.nullWritten then [nulls] else []

instance : RecordSink DelimitedWriter where
  announce := announce
  write := write
  finish := writeHeader
  warnings := warnings

end DelimitedWriter
end TableQuery
