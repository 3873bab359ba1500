/-!
# The parts of a query

A query reads an input table, whose records are called `a`, and may join it with a
second table, whose records are called `b`. It consists of clauses, each opened by
its keyword.
-/

namespace TableQuery

/-- One of the two tables of a query. -/
inductive Side where
  /-- The table that is read record by record. -/
  | input
  /-- The table that is joined with it. -/
  | join
deriving DecidableEq

namespace Side

/-- The name of a record of the table. -/
def letter : Side → Char
  | input => 'a'
  | join => 'b'

/-- The name of the table in messages. -/
def tableName : Side → String
  | input => "input"
  | join => "join"

end Side

/-- The kinds of clauses. -/
inductive ClauseKind where
  | join
  | select
  | orderBy
  | condition
  | update
  | groupBy
  | limit
  | exclusion
deriving DecidableEq

namespace ClauseKind

/-- The keyword of a clause in messages. -/
def keyword : ClauseKind → String
  | join => "JOIN"
  | select => "SELECT"
  | orderBy => "ORDER BY"
  | condition => "WHERE"
  | update => "UPDATE"
  | groupBy => "GROUP BY"
  | limit => "LIMIT"
  | exclusion => "EXCEPT"

/-- All kinds of clauses, in the order in which they are looked for. -/
def all : List ClauseKind :=
  [join, select, orderBy, condition, update, groupBy, limit, exclusion]

end ClauseKind

/-- What happens to input records without a join record. -/
inductive JoinKind where
  /-- They are left out. -/
  | inner
  /-- They are joined with absent values. -/
  | left
  /-- They are an error, and so are records with several join records. -/
  | strictLeft
deriving DecidableEq

/-- What happens to equal output records. -/
inductive Distinct where
  /-- They are all kept. -/
  | no
  /-- The first is kept. -/
  | yes
  /-- The first is kept, after the number of them. -/
  | counted
deriving DecidableEq

end TableQuery
