import TableQuery.Delimited.Dialect

/-!
# Settings

Settings are loaded from a document of nested values. A record of settings is
given by name or by position; settings that are not given take their defaults, and
names that are not settings are ignored. A value of the wrong kind is refused.
-/

namespace TableQuery

/-- A document of nested values. The value of a number does not matter to any
setting. -/
inductive Document where
  /-- The absent value. -/
  | null
  /-- A truth value. -/
  | bool (b : Bool)
  /-- Some number. -/
  | number
  /-- Text. -/
  | text (s : String)
  /-- Values by position. -/
  | array (items : List Document)
  /-- Values by name. -/
  | object (fields : List (String × Document))
deriving Inhabited

namespace Document

/-- The settings of a record with the given names, in order. There may be fewer
values by position than names, but not more. -/
def members? (names : List String) : Document → Option (List (String × Document))
  | object fields => some fields
  | array items => if items.length ≤ names.length then some (names.zip items) else none
  | _ => none

/-- The setting `name` among `members`, read by `load`, or its default. -/
def setting? {α : Type}
    (members : List (String × Document)) (name : String) (load : Document → Option α)
    (default : α) : Option α :=
  match members.lookup name with
  | none => some default
  | some value => load value

/-- A truth value. -/
def toBool? : Document → Option Bool
  | bool b => some b
  | _ => none

/-- A text. -/
def toText? : Document → Option String
  | text s => some s
  | _ => none

/-- A text or the absent value. -/
def toOptionalText? : Document → Option (Option String)
  | null => some none
  | text s => some (some s)
  | _ => none

/-- A policy: its name, alone or as the one field of an object without a value. -/
def toPolicy? : Document → Option Policy
  | text name => Policy.ofName? name
  | object [(name, null)] => Policy.ofName? name
  | _ => none

/-- A dialect. -/
def toDialect? (d : Document) : Option Dialect := do
  let members ← d.members? ["delim", "policy"]
  let delimiter ← setting? members "delim" (fun v => v.toText?.map String.toList)
    Dialect.comma.delimiter
  let policy ← setting? members "policy" toPolicy? Dialect.comma.policy
  return ⟨delimiter, policy⟩

end Document

/-- How a table stands in delimited text. -/
structure TableFormat where
  /-- How records stand on lines. -/
  dialect : Dialect
  /-- Whether the first line names the columns. -/
  hasHeader : Bool
  /-- Whether fields keep the quotes and spaces around them. -/
  preserveQuotes : Bool
  /-- Whether output of one field a line may give way to commas. -/
  dynamicOutput : Bool

/-- Commas, quoted fields and no header. -/
def TableFormat.default : TableFormat :=
  ⟨Dialect.comma, false, false, false⟩

/-- A table format loaded from a document. -/
def Document.toTableFormat? (d : Document) : Option TableFormat := do
  let members ← d.members? ["dialect", "has_header", "preserve_quotes", "allow_dynamic_output"]
  let dialect ← setting? members "dialect" toDialect? TableFormat.default.dialect
  let hasHeader ← setting? members "has_header" toBool? TableFormat.default.hasHeader
  let preserveQuotes ←
    setting? members "preserve_quotes" toBool? TableFormat.default.preserveQuotes
  let dynamicOutput ←
    setting? members "allow_dynamic_output" toBool? TableFormat.default.dynamicOutput
  return ⟨dialect, hasHeader, preserveQuotes, dynamicOutput⟩

/-- Settings of one query. -/
structure QuerySettings where
  /-- Definitions that the query may use. -/
  initCode : Option String
  /-- The name of the input table in its warnings. -/
  inputName : String

/-- No definitions, and an input table named after its role. -/
def QuerySettings.default : QuerySettings :=
  ⟨none, "input"⟩

/-- Query settings loaded from a document. -/
def Document.toQuerySettings? (d : Document) : Option QuerySettings := do
  let members ← d.members? ["init_code", "input_name"]
  let initCode ← setting? members "init_code" toOptionalText? QuerySettings.default.initCode
  let inputName ← setting? members "input_name" toText? QuerySettings.default.inputName
  return ⟨initCode, inputName⟩

end TableQuery
