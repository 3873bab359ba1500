import TableQuery.Aggregate.Function
import TableQuery.Expression.Builtin
import TableQuery.Query.Basic

/-!
# Bound expressions

Expressions whose names have a meaning: fields are found by side and index,
parameters by slot, and a call of a defined function carries the function. Only the
body of a function has parameters, and nothing outside of it does.
-/

namespace TableQuery

mutual

/-- An expression whose names have a meaning. -/
inductive Bound where
  /-- A fixed value. -/
  | literal (v : Value)
  /-- A field of a record, with the spelling that the query uses for it. -/
  | field (side : Side) (index : Nat) (spelling : String)
  /-- The number of a record, counted from one. -/
  | recordNumber (side : Side)
  /-- The number of fields of a record. -/
  | fieldCount (side : Side)
  /-- A parameter of the enclosing function. -/
  | param (slot : Nat)
  /-- A list. -/
  | list (items : List Bound)
  /-- An operator between two operands. -/
  | binary (op : BinaryOp) (left right : Bound)
  /-- An operator before its operand. -/
  | unary (op : UnaryOp) (operand : Bound)
  /-- The test for the absent value, or for any other if negated. -/
  | isNull (negated : Bool) (operand : Bound)
  /-- A choice between two values. -/
  | choice (condition chosen otherwise : Bound)
  /-- An item of a list or a character of a text. -/
  | index (base index : Bound)
  /-- A call of a built-in function. -/
  | call (f : Builtin) (args : List Bound)
  /-- A call of a defined function. -/
  | userCall (name : String) (f : Lambda) (args : List Bound)
  /-- An aggregate over a group, and what becomes of its value. Aggregates are numbered
  in the order of the query. -/
  | aggregate (site : Nat) (f : Aggregate) (arg : Bound) (post : Option Lambda)
  /-- A list whose items go to rows of their own. -/
  | unfold (operand : Bound)

/-- A function of some number of parameters. -/
inductive Lambda where
  /-- The function with the given body. -/
  | mk (arity : Nat) (body : Bound)

end

instance : Inhabited Bound := ⟨.literal .null⟩

instance : Inhabited Lambda := ⟨.mk 0 default⟩

namespace Lambda

/-- The number of parameters. -/
def arity : Lambda → Nat
  | mk arity _ => arity

/-- The body. -/
def body : Lambda → Bound
  | mk _ body => body

end Lambda

namespace Bound

/-- Whether an expression is an aggregate. -/
def isAggregate : Bound → Bool
  | aggregate .. => true
  | _ => false

/-- Whether an expression is a list to unfold. -/
def isUnfold : Bound → Bool
  | unfold _ => true
  | _ => false

/-- The side and the index of a field. -/
def field? : Bound → Option (Side × Nat)
  | field side position _ => some (side, position)
  | _ => none

mutual

/-- Whether a part of an expression reads the record of the given side. The bodies of
functions read no record. -/
def references (side : Side) : Bound → Bool
  | field s _ _ => s == side
  | recordNumber s => s == side
  | fieldCount s => s == side
  | literal _ => false
  | param _ => false
  | list items => anyReferences side items
  | binary _ left right => left.references side || right.references side
  | unary _ operand => operand.references side
  | isNull _ operand => operand.references side
  | choice condition chosen otherwise =>
    chosen.references side || condition.references side || otherwise.references side
  | index base i => base.references side || i.references side
  | call _ args => anyReferences side args
  | userCall _ _ args => anyReferences side args
  | aggregate _ _ arg _ => arg.references side
  | unfold operand => operand.references side

/-- Whether any of some expressions reads the record of the given side. -/
def anyReferences (side : Side) : List Bound → Bool
  | [] => false
  | e :: es => e.references side || anyReferences side es

end

end Bound
end TableQuery
