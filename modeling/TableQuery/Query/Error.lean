import TableQuery.Expression.Token
import TableQuery.Query.Basic

/-!
# Errors of queries

Why a query is refused before any record is read.
-/

namespace TableQuery

/-- Why a join clause is refused. -/
inductive JoinFault where
  /-- It does not name a table and a condition. -/
  | shape
  /-- A part of its condition is not one equation. -/
  | equation (text : String)
  /-- An equation does not compare a field of each table. -/
  | sides (text : String)
  /-- There is no table to join with. -/
  | unavailable
deriving DecidableEq

/-- A fault of a join clause in words. -/
def JoinFault.message : JoinFault → String
  | shape => "expected \"JOIN <table> ON <a-var> == <b-var>\""
  | equation text => s!"expected \"<a-var> == <b-var>\", got \"{text}\""
  | sides text =>
    s!"each key pair must compare an input variable with a join variable, got \"{text}\""
  | unavailable => "join table is not available"

/-- Why an update clause is refused. -/
inductive UpdateFault where
  /-- A part of it is not an assignment. -/
  | shape (text : String)
  /-- An assignment lacks one of its sides. -/
  | incomplete (text : String)
  /-- An assignment is not to an input column. -/
  | target (text : String)
deriving DecidableEq

/-- A fault of an update clause in words. -/
def UpdateFault.message : UpdateFault → String
  | shape text => s!"expected \"<column> = <expression>\", got \"{text}\""
  | incomplete text => s!"incomplete assignment \"{text}\""
  | target text => s!"assignment target must be an input column, got \"{text}\""

/-- Why an except clause is refused. -/
inductive ExclusionFault where
  /-- The query selects something else than everything. -/
  | selection
  /-- A part of it is not an input column. -/
  | column (text : String)
deriving DecidableEq

/-- A fault of an except clause in words. -/
def ExclusionFault.message : ExclusionFault → String
  | selection => "EXCEPT requires \"SELECT *\""
  | column text => s!"\"{text}\" is not an input column"

/-- Expressions that can be read but have no meaning. -/
inductive Unsupported where
  /-- A function where a value is wanted. -/
  | lambda
  /-- A value where a function is wanted. -/
  | notLambda
  /-- An attribute of something else than a record. -/
  | attributeAccess (name : String)
  /-- A record subscript that is neither a column number nor a column name. -/
  | subscript (shown : String)
deriving DecidableEq

/-- An expression without meaning in words. -/
def Unsupported.message : Unsupported → String
  | lambda => "lambda is only allowed as the second argument of ARRAY_AGG"
  | notLambda => "second argument of ARRAY_AGG must be a lambda"
  | attributeAccess name => s!"attribute access \".{name}\""
  | subscript shown =>
    s!"record subscript must be a positive integer or a column name literal, got {shown}"

/-- Why a query is refused. -/
inductive QueryFault where
  /-- The text of a clause is not what its grammar asks for. -/
  | grammar (clause : ClauseKind) (e : SyntaxError)
  /-- A string literal has no closing quote. -/
  | unterminatedLiteral (position : Nat)
  /-- There are several clauses of one kind. -/
  | repeated (kind : ClauseKind)
  /-- The query neither selects nor updates. -/
  | noStatement
  /-- The query selects and updates. -/
  | selectAndUpdate
  /-- A clause is not the first one. -/
  | misplaced (kind : ClauseKind)
  /-- Two clauses exclude each other. -/
  | incompatible (first second : ClauseKind)
  /-- A clause has no text. -/
  | empty (kind : ClauseKind)
  /-- A row limit is not a count. -/
  | limit (text : String)
  /-- The join clause is refused. -/
  | join (fault : JoinFault)
  /-- A column name is not in the header. -/
  | unknownColumn (name : String) (side : Side)
  /-- A variable is a column of both tables. -/
  | ambiguousVariable (name : String)
  /-- A name stands for nothing. -/
  | unknownVariable (name : String)
  /-- A variable of the join table is used without a join clause. -/
  | noJoin (name : String)
  /-- A called name is not a function. -/
  | unknownFunction (name : String)
  /-- A function is called with the wrong number of arguments. -/
  | arity (name expected : String) (found : Nat)
  /-- The update clause is refused. -/
  | update (fault : UpdateFault)
  /-- The except clause is refused. -/
  | exclusion (fault : ExclusionFault)
  /-- An expression has no meaning. -/
  | unsupported (what : Unsupported)
deriving DecidableEq

/-- An error of a query in words. -/
def QueryFault.message : QueryFault → String
  | grammar clause e => s!"{clause.keyword}: {e.message}"
  | unterminatedLiteral position =>
    s!"unterminated string literal starting at position {position}"
  | repeated kind => s!"more than one \"{kind.keyword}\" statement found"
  | noStatement => "query must contain a SELECT or UPDATE statement"
  | selectAndUpdate => "query cannot contain both SELECT and UPDATE statements"
  | misplaced kind => s!"\"{kind.keyword}\" must be the first statement of the query"
  | incompatible first second =>
    s!"\"{first.keyword}\" is not allowed together with \"{second.keyword}\""
  | empty kind => s!"\"{kind.keyword}\" statement is empty"
  | limit text => s!"unable to parse LIMIT value \"{text}\""
  | join fault => s!"invalid join syntax: {fault.message}"
  | unknownColumn name side =>
    s!"unable to find column \"{name}\" in the {side.tableName} table header"
  | ambiguousVariable name =>
    s!"ambiguous variable name \"{name}\" is present both in input and in join tables"
  | unknownVariable name => s!"unknown variable \"{name}\""
  | noJoin name => s!"join table variable \"{name}\" used in a query without JOIN"
  | unknownFunction name => s!"unknown function \"{name}\""
  | arity name expected found => s!"{name}() takes {expected} argument(s), {found} given"
  | update fault => s!"invalid UPDATE expression: {fault.message}"
  | exclusion fault => s!"invalid EXCEPT expression: {fault.message}"
  | unsupported what => s!"unsupported expression: {what.message}"

end TableQuery
