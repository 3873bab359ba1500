/-!
# Dialects of delimited text

A dialect says how the fields of a record stand on a line: the delimiter between
them and the policy for fields that contain it.
-/

namespace TableQuery

/-- How a line is divided into fields. -/
inductive Policy where
  /-- At every delimiter. -/
  | simple
  /-- At delimiters outside quoted fields; spaces may surround a quoted field
  unless the delimiter is a space. -/
  | quoted
  /-- At delimiters outside quoted fields, which may contain line breaks. -/
  | quotedRfc
  /-- At runs of spaces. -/
  | whitespace
  /-- Not at all: the line is the only field. -/
  | monocolumn
deriving DecidableEq

namespace Policy

/-- The name of a policy. -/
def name : Policy → String
  | simple => "simple"
  | quoted => "quoted"
  | quotedRfc => "quoted_rfc"
  | whitespace => "whitespace"
  | monocolumn => "monocolumn"

/-- Whether fields may be quoted. -/
def isQuoted : Policy → Bool
  | quoted | quotedRfc => true
  | _ => false

/-- All policies. -/
def all : List Policy :=
  [simple, quoted, quotedRfc, whitespace, monocolumn]

/-- The policy with the given name. -/
def ofName? (name : String) : Option Policy :=
  all.find? fun policy => policy.name == name

/-- The policy with the given name or other accepted spelling. -/
def ofSpelling? (spelling : String) : Option Policy :=
  if spelling == "csv" then some quoted
  else if spelling == "rfc_csv" then some quotedRfc
  else ofName? spelling

/-- What is reported of a spelling that names no policy. -/
def unknownMessage (spelling : String) : String :=
  s!"unknown policy \"{spelling}\""

end Policy

/-- A delimiter and a policy. -/
structure Dialect where
  /-- What stands between fields. One field a line needs none. -/
  delimiter : List Char
  /-- How lines are divided. -/
  policy : Policy
deriving DecidableEq

namespace Dialect

/-- Commas and quoted fields. -/
def comma : Dialect :=
  ⟨[','], .quoted⟩

/-- The dialect in the form in which it is used, unless the policy cannot work
with the delimiter: a delimiter is not empty, and where fields may be quoted it
holds no quote. -/
def normalize? (d : Dialect) : Option Dialect :=
  match d.policy with
  | .monocolumn => some { d with delimiter := [] }
  | .whitespace => some { d with delimiter := [' '] }
  | policy =>
    if d.delimiter.isEmpty || (policy.isQuoted && d.delimiter.contains '"') then none else some d

end Dialect
end TableQuery
