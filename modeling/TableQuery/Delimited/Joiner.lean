import TableQuery.Delimited.Join

/-!
# Joining the records of one output

The records of an output are joined one after the other. Each kind of warning is
given once. Output of one field a line may be allowed to give way: if the first
record does not have exactly one field the whole output is written with commas,
and if only a later record does not, that record is.
-/

namespace TableQuery
namespace Delimited

/-- The state of joining the records of one output. -/
structure Joiner where
  /-- The dialect in use. -/
  dialect : Dialect
  /-- Whether output of one field a line may give way to commas. -/
  dynamic : Bool
  /-- Whether a record has been joined. -/
  decided : Bool
  /-- Whether an ambiguous line has been reported. -/
  ambiguitySeen : Bool
  /-- Whether a record without exactly one field has been reported. -/
  overflowSeen : Bool
  /-- The warnings given so far. -/
  warnings : List String

namespace Joiner

/-- The state before the first record. -/
def start (dialect : Dialect) (dynamic : Bool) : Joiner :=
  ⟨dialect, dynamic, false, false, false, []⟩

/-- The state after one more warning. -/
def warn (joiner : Joiner) (warning : String) : Joiner :=
  { joiner with warnings := joiner.warnings ++ [warning] }

/-- Joins a record in the dialect in use and reports the first ambiguous line. -/
def joinPlain (joiner : Joiner) (fields : List (List Char)) :
    Except TableError (List Char) × Joiner :=
  let joiner := { joiner with decided := true }
  match join joiner.dialect fields with
  | .error e => (.error e, joiner)
  | .ok joined =>
    if joined.ambiguous && !joiner.ambiguitySeen then
      let delimiter := String.ofList (Text.quoted joiner.dialect.delimiter)
      (.ok joined.line,
        { joiner with ambiguitySeen := true }.warn
          s!"some output fields contain the {delimiter} delimiter; output is ambiguous")
    else
      (.ok joined.line, joiner)

/-- The state after the first record has made the output give way to commas. -/
def switchToComma (joiner : Joiner) (fields : Nat) : Joiner :=
  let policy := Dialect.comma.policy.name
  let delimiter := String.ofList Dialect.comma.delimiter
  { joiner with dialect := Dialect.comma }.warn
    s!"output switched to \"{policy}\" format with \"{delimiter}\" delimiter: first record has {fields} fields"

/-- The state after a later record without exactly one field. -/
def noteOverflow (joiner : Joiner) (fields : Nat) : Joiner :=
  if joiner.overflowSeen then
    joiner
  else
    { joiner with overflowSeen := true }.warn
      s!"monocolumn output received a record with {fields} fields; writing it as csv"

/-- Joins one record. A record that cannot be joined changes nothing. -/
def step (joiner : Joiner) (fields : List (List Char)) :
    Except TableError (List Char) × Joiner :=
  if joiner.dialect.policy = .monocolumn ∧ fields.length ≠ 1 then
    if !joiner.dynamic then
      (.error (.monocolumnOverflow fields.length), joiner)
    else if !joiner.decided then
      (joiner.switchToComma fields.length).joinPlain fields
    else
      ((join Dialect.comma fields).map Joined.line, joiner.noteOverflow fields.length)
  else
    joiner.joinPlain fields

end Joiner
end Delimited
end TableQuery
