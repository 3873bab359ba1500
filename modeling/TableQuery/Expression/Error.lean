import TableQuery.Value

/-!
# Errors of evaluation

Why an expression has no value for a record. The errors do not say which record it
was; that is added where records are counted.
-/

namespace TableQuery

/-- Why a function cannot use an argument. -/
inductive ArgumentFault where
  /-- A text does not spell a number. -/
  | notFloat (text : String)
  /-- A text does not spell an integer. -/
  | notInteger (text : String)
  /-- A value of this type stands for no number. -/
  | unsupportedType (typeName : String)
  /-- A value of this type has no length. -/
  | noLength (typeName : String)
  /-- A value of this type is wanted as text. -/
  | notText (typeName : String)
  /-- A value is wanted as a number. -/
  | notNumber (typeName shown : String)
  /-- A value to aggregate stands for no number. -/
  | notSummable (typeName shown : String)
  /-- A number has no integer near it. -/
  | notIntegral (x : Double)
  /-- The number of digits is not an integer. -/
  | digits
  /-- Text is to be divided at nothing. -/
  | emptySeparator
  /-- Neither argument is a list. -/
  | noList
  /-- There is nothing to choose from. -/
  | emptySequence
  /-- A function of one arity is given another number of arguments. -/
  | arity (wanted given : Nat)
  /-- A value of this type is wanted as a list. -/
  | notList (typeName : String)
deriving DecidableEq

/-- A fault of an argument in words. -/
def ArgumentFault.message : ArgumentFault → String
  | notFloat text => s!"could not convert string to float: '{text}'"
  | notInteger text => s!"invalid literal for int(): '{text}'"
  | unsupportedType typeName => s!"unsupported argument type {typeName}"
  | noLength typeName => s!"object of type {typeName} has no len()"
  | notText typeName => s!"expected a string, got {typeName}"
  | notNumber typeName shown => s!"expected a number, got {typeName} \"{shown}\""
  | notSummable typeName shown =>
    s!"unable to convert {typeName} value \"{shown}\" to a number"
  | notIntegral x => s!"cannot convert float {x.render .message} to integer"
  | digits => "ndigits must be an integer"
  | emptySeparator => "empty separator"
  | noList => "expected a list and a separator"
  | emptySequence => "arg is an empty sequence"
  | arity wanted given => s!"takes {wanted} argument(s), {given} given"
  | notList typeName => s!"expected a list, got {typeName}"

/-- Why an expression has no value. -/
inductive EvalError where
  /-- The record has no such field. -/
  | noSuchColumn (name : String)
  /-- An operator does not apply to operands of these types. -/
  | typeMismatch (op left right : String)
  /-- An operator does not apply to an operand of this type. -/
  | badOperand (op typeName : String)
  /-- The divisor is zero. -/
  | divisionByZero
  /-- An integer is out of range. -/
  | integerOverflow
  /-- A function cannot use an argument. -/
  | invalidArgument (function : String) (fault : ArgumentFault)
  /-- A subscript is outside of the list or text. -/
  | indexOutOfRange (index : Int64)
  /-- An aggregate is not an item of the select list. -/
  | misplacedAggregate (function : String)
  /-- An unfolded list is not an item of the select list. -/
  | misplacedUnfold
deriving DecidableEq

/-- An error of evaluation in words. -/
def EvalError.message : EvalError → String
  | noSuchColumn name => s!"no such column {name}"
  | typeMismatch op left right => s!"unsupported operand types for {op}: {left} and {right}"
  | badOperand op typeName => s!"bad operand type for unary {op}: {typeName}"
  | divisionByZero => "division by zero"
  | integerOverflow => "integer overflow"
  | invalidArgument function fault => s!"{function}(): {fault.message}"
  | indexOutOfRange index => s!"index {index.toInt} out of range"
  | misplacedAggregate function =>
    s!"aggregate function {function} can only be used as a top-level SELECT expression"
  | misplacedUnfold => "UNFOLD can only be used as a top-level SELECT expression"

end TableQuery
