import TableQuery.Expression.Token

/-!
# Expression trees

Expressions as they are written, before names have a meaning. Method calls
`x.f(y)` are calls `f(x, y)` already.
-/

namespace TableQuery

/-- An operator between two operands. -/
inductive BinaryOp where
  | add
  | sub
  | mul
  | div
  | floorDiv
  | mod
  | eq
  | ne
  | lt
  | le
  | gt
  | ge
  | member
  | notMember
  | and
  | or
deriving DecidableEq

/-- The spelling of an operator in messages. -/
def BinaryOp.spelling : BinaryOp → String
  | add => "+"
  | sub => "-"
  | mul => "*"
  | div => "/"
  | floorDiv => "//"
  | mod => "%"
  | eq => "=="
  | ne => "!="
  | lt => "<"
  | le => "<="
  | gt => ">"
  | ge => ">="
  | member => "in"
  | notMember => "not in"
  | and => "and"
  | or => "or"

/-- An operator before its operand. -/
inductive UnaryOp where
  | not
  | minus
  | plus
deriving DecidableEq

/-- The spelling of an operator in messages. -/
def UnaryOp.spelling : UnaryOp → String
  | not => "not"
  | minus => "-"
  | plus => "+"

/-- An expression as it is written. -/
inductive Expr where
  /-- The absent value. -/
  | null
  /-- A truth value. -/
  | bool (b : Bool)
  /-- An integer literal. -/
  | int (n : Int64)
  /-- A double-precision literal. -/
  | float (x : Double)
  /-- A string literal. -/
  | text (s : String)
  /-- A name on its own. -/
  | name (s : String)
  /-- A list `[x, y]`. -/
  | list (items : List Expr)
  /-- An attribute `base.name`. -/
  | attribute (base : Expr) (name : String)
  /-- A subscript `base[index]`. -/
  | index (base index : Expr)
  /-- A call `name(x, y)`. -/
  | call (name : String) (args : List Expr)
  /-- An operator between two operands. -/
  | binary (op : BinaryOp) (left right : Expr)
  /-- An operator before its operand. -/
  | unary (op : UnaryOp) (operand : Expr)
  /-- The test `operand is None`, or `operand is not None` if negated. -/
  | isNull (negated : Bool) (operand : Expr)
  /-- The choice `chosen if condition else otherwise`. -/
  | choice (condition chosen otherwise : Expr)
  /-- A function `lambda x, y: body`. -/
  | lambda (params : List String) (body : Expr)
deriving Inhabited

/-- Which records a star stands for. -/
inductive Star where
  /-- The input record, and the join record after it. -/
  | all
  /-- The input record. -/
  | input
  /-- The join record. -/
  | join
deriving DecidableEq

/-- The spelling of a star. -/
def Star.spelling : Star → String
  | all => "*"
  | input => "a.*"
  | join => "b.*"

/-- An item of a select list. -/
inductive SelectItem where
  /-- All fields of a record. -/
  | star (source : Star)
  /-- An expression, and the name given to its column. -/
  | column (expr : Expr) (columnName : Option String)

/-- A definition `name = body`, or `name(x, y) = body` with parameters. -/
structure Definition where
  /-- The defined name. -/
  name : String
  /-- The parameters of a function; a constant has none at all. -/
  params : Option (List String)
  /-- What the name stands for. -/
  body : Expr

end TableQuery
