import TableQuery.Delimited.Dialect
import TableQuery.Text.Quoted
import TableQuery.Text.Utf8

/-!
# Errors of tables

What can go wrong in reading or writing a table, or in finding a join table.
-/

namespace TableQuery

/-- Why no table can be read at a path. -/
inductive PathFault where
  /-- The path leads to a directory. -/
  | directory
  /-- The path goes on after the name of a file. -/
  | notDirectory
  /-- The path holds the null character. -/
  | nullCharacter
  /-- A name in the path is longer than 255 bytes. -/
  | longName
deriving DecidableEq

/-- A fault of a path in words. -/
def PathFault.message : PathFault → String
  | directory => "Is a directory (os error 21)"
  | notDirectory => "Not a directory (os error 20)"
  | nullCharacter => "file name contained an unexpected NUL byte"
  | longName => "File name too long (os error 36)"

/-- Why a table cannot be read, written or found. -/
inductive TableError where
  /-- No table has the name given in the join clause. -/
  | missingJoinTable (name : String)
  /-- The query joins, but there is no table to join with. -/
  | noJoinTable
  /-- The policy cannot work with the delimiter. -/
  | incompatibleDelimiter (dialect : Dialect)
  /-- A record without exactly one field goes to output of one field a line. -/
  | monocolumnOverflow (fields : Nat)
  /-- The bytes of a line are not text. -/
  | undecodable (fault : Text.Utf8.Fault)
  /-- No table can be read at a path. -/
  | unreadable (fault : PathFault)
deriving DecidableEq

/-- An error of a table in words. -/
def TableError.message : TableError → String
  | missingJoinTable name => s!"unable to find join table \"{name}\""
  | noJoinTable => "query contains a JOIN but no join table was provided"
  | incompatibleDelimiter dialect =>
    let delimiter := String.ofList (Text.quoted dialect.delimiter)
    s!"delimiter {delimiter} is incompatible with \"{dialect.policy.name}\" policy"
  | monocolumnOverflow fields =>
    s!"unable to use \"monocolumn\" output format: record has {fields} fields"
  | undecodable fault => s!"i/o error: {fault.message}"
  | unreadable fault => s!"i/o error: {fault.message}"

/-- The dialect in the form in which it is used. -/
def Dialect.validate (d : Dialect) : Except TableError Dialect :=
  match d.normalize? with
  | some dialect => .ok dialect
  | none => .error (.incompatibleDelimiter d)

end TableQuery
