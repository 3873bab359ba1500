import TableQuery.Expression.Bound

/-!
# Scopes

A scope holds what has been defined before a query is read: constants, which are
values already, and functions.
-/

namespace TableQuery

/-- Defined names. -/
structure Scope where
  /-- The constants. -/
  constants : List (String × Value)
  /-- The functions. -/
  functions : List (String × Lambda)

namespace Scope

/-- The scope without names. -/
def empty : Scope :=
  ⟨[], []⟩

/-- Whether nothing is defined. -/
def isEmpty (scope : Scope) : Bool :=
  scope.constants.isEmpty && scope.functions.isEmpty

/-- The constant with the given name. -/
def constant? (scope : Scope) (name : String) : Option Value :=
  scope.constants.lookup name

/-- The function with the given name. -/
def function? (scope : Scope) (name : String) : Option Lambda :=
  scope.functions.lookup name

/-- Whether a name is defined. -/
def defines (scope : Scope) (name : String) : Bool :=
  (scope.constant? name).isSome || (scope.function? name).isSome

/-- Adds a constant. -/
def addConstant (scope : Scope) (name : String) (v : Value) : Scope :=
  { scope with constants := scope.constants ++ [(name, v)] }

/-- Adds a function. -/
def addFunction (scope : Scope) (name : String) (f : Lambda) : Scope :=
  { scope with functions := scope.functions ++ [(name, f)] }

end Scope
end TableQuery
