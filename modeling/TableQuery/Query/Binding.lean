import TableQuery.Expression.Outline
import TableQuery.Query.Columns
import TableQuery.Query.Scope

/-!
# Binding

Gives the names of an expression their meaning. In a clause of a query the columns of
its tables are visible; in the body of a function they are not, but its parameters
are. Defined names come last among the values, and before the built-in functions
among the functions.
-/

namespace TableQuery

/-- The columns of the tables of a query. -/
structure QueryColumns where
  /-- The columns of the input table. -/
  input : ColumnMap
  /-- The columns of the join table, in a query that joins. -/
  join : Option ColumnMap

/-- What the names of an expression can stand for. -/
structure Names where
  /-- The columns, where they are visible. -/
  columns : Option QueryColumns
  /-- The defined names. -/
  scope : Scope
  /-- The parameters of the enclosing function. -/
  params : List String

/-- What the name of a called function stands for. -/
inductive Callable where
  /-- The items of a list go to rows of their own. -/
  | unfold
  /-- An aggregate function. -/
  | aggregate (f : Aggregate)
  /-- A defined function. -/
  | user (f : Lambda)
  /-- A built-in function. -/
  | builtin (f : Builtin)

/-- The wanted number of arguments in words. -/
def Callable.arityText : Callable → String
  | unfold => "1"
  | aggregate .arrayAgg => "1 to 2"
  | aggregate _ => "1"
  | user f => toString f.arity
  | builtin f => f.arityText

namespace Names

/-- The names that a clause of a query can use. -/
def ofQuery (columns : QueryColumns) (scope : Scope) : Names :=
  ⟨some columns, scope, []⟩

/-- The names that the body of a function can use. -/
def ofFunction (scope : Scope) (params : List String) : Names :=
  ⟨none, scope, params⟩

/-- The columns of one table. -/
def table? (names : Names) (side : Side) : Option ColumnMap :=
  names.columns.bind fun columns =>
    match side with
    | .input => some columns.input
    | .join => columns.join

/-- The slot of a parameter. Of parameters with the same name the last one counts. -/
def slot? (names : Names) (name : String) : Option Nat :=
  (names.params.reverse.findIdx? (· == name)).map fun i => names.params.length - 1 - i

/-- What a called name stands for. -/
def callable? (names : Names) (name : String) : Option Callable :=
  if name == "UNFOLD" || name == "UNNEST" then some .unfold
  else
    ((Aggregate.ofName? name).map .aggregate).or
      (((names.scope.function? name).map .user).or ((Builtin.ofName? name).map .builtin))

/-- The expression `e`, which reads a record of the given side. -/
def readingOf (names : Names) (side : Side) (spelling : String) (e : Bound) :
    Except QueryFault Bound :=
  match names.table? side with
  | some _ => .ok e
  | none => .error (.noJoin spelling)

/-- A field of a record. -/
def field (names : Names) (side : Side) (index : Nat) (spelling : String) :
    Except QueryFault Bound :=
  names.readingOf side spelling (.field side index spelling)

/-- The number of a record or of its fields, by the name of this number. -/
def property? (side : Side) (name : String) : Option Bound :=
  match name with
  | "NR" => some (.recordNumber side)
  | "NF" => some (.fieldCount side)
  | _ => none

/-- The number of a record or of its fields, by a name that says which record. -/
def sidedProperty? (name : String) : Option (Side × Bound) :=
  match name with
  | "NR" | "aNR" => some (.input, .recordNumber .input)
  | "NF" | "aNF" => some (.input, .fieldCount .input)
  | "bNR" => some (.join, .recordNumber .join)
  | "bNF" => some (.join, .fieldCount .join)
  | _ => none

/-- The side and the index of a field that is named by its number, such as `a7`. -/
def numbered? (name : String) : Option (Side × Nat) :=
  match name.toList with
  | letter :: digits =>
    let side? := [Side.input, Side.join].find? fun side => side.letter == letter
    if digits.isEmpty || digits.head? == some '0' || !digits.all Char.isDigit then none
    else
      match side?, Text.readCount? digits with
      | some side, some n => some (side, n - 1)
      | _, _ => none
  | [] => none

/-- The column that a name stands for, by its spelling in one of the tables or by its
number. -/
def column? (names : Names) (name : String) : Option (Side × Nat) :=
  let inTable := fun side =>
    ((names.table? side).bind fun columns => columns.get? name).map fun index => (side, index)
  (inTable .input).or ((inTable .join).or (numbered? name))

/-- The meaning of a name that stands on its own where columns are visible. -/
def visible? (names : Names) (name : String) : Option (Except QueryFault Bound) :=
  match sidedProperty? name with
  | some (side, e) => some (names.readingOf side name e)
  | none => (names.column? name).map fun (side, index) => names.field side index name

/-- The meaning of a name that stands on its own. -/
def identifier (names : Names) (name : String) : Except QueryFault Bound :=
  match names.slot? name with
  | some slot => .ok (.param slot)
  | none =>
    match if names.columns.isSome then names.visible? name else none with
    | some meaning => meaning
    | none =>
      match names.scope.constant? name with
      | some v => .ok (.literal v)
      | none => .error (.unknownVariable name)

/-- The side of a record that is named as a whole. -/
def record? (names : Names) : Expr → Option Side
  | .name s =>
    let side? := [Side.input, Side.join].find? fun side => s == String.singleton side.letter
    if names.columns.isSome && (names.slot? s).isNone then side? else none
  | _ => none

/-- The meaning of `a.name`. -/
def attributeOf (names : Names) (side : Side) (name : String) : Except QueryFault Bound :=
  let spelling := s!"{side.letter}.{name}"
  match property? side name, names.table? side with
  | some e, _ => names.readingOf side spelling e
  | none, none => .error (.noJoin spelling)
  | none, some columns =>
    match columns.get? spelling with
    | some index => names.field side index spelling
    | none => .error (.unknownVariable spelling)

/-- The meaning of `a[subscript]`. -/
def subscriptOf (names : Names) (side : Side) : Expr → Except QueryFault Bound
  | .text name =>
    let spelling := ColumnMap.keyedSpelling side name
    match names.table? side with
    | none => .error (.noJoin spelling)
    | some columns =>
      match (columns.get? spelling).or (ColumnMap.position? columns.header name) with
      | some index => names.field side index spelling
      | none => .error (.unknownColumn name side)
  | .int n =>
    if 1 ≤ n.toInt then
      names.field side (n.toInt - 1).toNat s!"{side.letter}[{n.toInt}]"
    else
      .error (.unsupported (.subscript (Expr.int n).outline))
  | e => .error (.unsupported (.subscript e.outline))

end Names

/-- Binding counts the aggregates that it has met. -/
abbrev Binding := StateT Nat (Except QueryFault)

namespace Expr

mutual

/-- An expression with the meaning of its names. -/
def bind (names : Names) : Expr → Binding Bound
  | null => return .literal .null
  | bool b => return .literal (.bool b)
  | int n => return .literal (.int n)
  | float x => return .literal (.float x)
  | text s => return .literal (.text s)
  | name s => names.identifier s
  | list items => return .list (← bindAll names items)
  | .attribute base part =>
    match names.record? base with
    | some side => names.attributeOf side part
    | none => throw (.unsupported (.attributeAccess part))
  | index base i =>
    match names.record? base with
    | some side => names.subscriptOf side i
    | none => return .index (← bind names base) (← bind names i)
  | call f args =>
    match names.callable? f, args with
    | none, _ => throw (.unknownFunction f)
    | some .unfold, [arg] => return .unfold (← bind names arg)
    | some (.aggregate aggregate), [arg] => do
      let site ← getModify (· + 1)
      return .aggregate site aggregate (← bind names arg) none
    | some (.aggregate .arrayAgg), [arg, post] => do
      let post ← bindLambda names post
      let site ← getModify (· + 1)
      return .aggregate site .arrayAgg (← bind names arg) (some post)
    | some (.user g), args =>
      if args.length = g.arity then return .userCall f g (← bindAll names args)
      else throw (.arity f (Callable.user g).arityText args.length)
    | some (.builtin g), args =>
      if g.accepts args.length then return .call g (← bindAll names args)
      else throw (.arity f (Callable.builtin g).arityText args.length)
    | some callable, args => throw (.arity f callable.arityText args.length)
  | binary op left right => return .binary op (← bind names left) (← bind names right)
  | unary op operand => return .unary op (← bind names operand)
  | isNull negated operand => return .isNull negated (← bind names operand)
  | choice condition chosen otherwise => do
    let chosen ← bind names chosen
    let condition ← bind names condition
    return .choice condition chosen (← bind names otherwise)
  | lambda _ _ => throw (.unsupported .lambda)

/-- Some expressions with the meaning of their names, from left to right. -/
def bindAll (names : Names) : List Expr → Binding (List Bound)
  | [] => return []
  | e :: es => return (← bind names e) :: (← bindAll names es)

/-- A function with the meaning of the names in its body. Aggregates in a body are
numbered by themselves. -/
def bindLambda (names : Names) : Expr → Binding Lambda
  | lambda params body => do
    let (body, _) ← (bind (Names.ofFunction names.scope params) body).run 0
    return .mk params.length body
  | _ => throw (.unsupported .notLambda)

end

/-- The body of a function with the meaning of its names. -/
def bindBody (scope : Scope) (params : List String) (body : Expr) : Except QueryFault Bound :=
  (body.bind (Names.ofFunction scope params)).run' 0

end Expr
end TableQuery
