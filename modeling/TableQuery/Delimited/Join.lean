import TableQuery.TableError
import TableQuery.Text.Search

/-!
# Putting fields together into a line

Where fields may be quoted, a field that holds a quote or the delimiter is
quoted and its quotes are doubled, so that the line can be divided again. The
other policies write fields as they are, and the line is ambiguous if one of them
holds the delimiter.
-/

namespace TableQuery
namespace Delimited

/-- Every quote written twice. -/
def doubleQuotes (field : List Char) : List Char :=
  field.flatMap fun c => if c == '"' then ['"', '"'] else [c]

/-- A field between quotes. -/
def enclose (field : List Char) : List Char :=
  '"' :: doubleQuotes field ++ ['"']

/-- A field as it is written where quoted fields stay on one line. -/
def quoteField (delimiter field : List Char) : List Char :=
  if field.contains '"' || Text.contains delimiter field then enclose field else field

/-- A field as it is written where quoted fields may hold line breaks. -/
def quoteFieldRfc (delimiter field : List Char) : List Char :=
  if field.contains '\n' || field.contains '\r' then enclose field
  else quoteField delimiter field

/-- A line put together from fields. -/
structure Joined where
  /-- The line. -/
  line : List Char
  /-- Whether some field holds the delimiter and nothing shows it. -/
  ambiguous : Bool
deriving DecidableEq

/-- Puts fields together that have kept their quotes and spaces. -/
def joinPreserved (delimiter : List Char) (fields : List (List Char)) : List Char :=
  Text.joinWith delimiter fields

/-- Puts fields together into a line. One field a line needs exactly one. -/
def join (dialect : Dialect) (fields : List (List Char)) : Except TableError Joined :=
  let delimiter := dialect.delimiter
  match dialect.policy with
  | .monocolumn =>
    match fields with
    | [field] => .ok ⟨field, false⟩
    | _ => .error (.monocolumnOverflow fields.length)
  | .quoted => .ok ⟨Text.joinWith delimiter (fields.map (quoteField delimiter)), false⟩
  | .quotedRfc => .ok ⟨Text.joinWith delimiter (fields.map (quoteFieldRfc delimiter)), false⟩
  | .simple | .whitespace =>
    .ok ⟨joinPreserved delimiter fields, fields.any (Text.contains delimiter)⟩

end Delimited
end TableQuery
