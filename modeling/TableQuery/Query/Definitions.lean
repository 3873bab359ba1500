import TableQuery.Expression.Evaluation
import TableQuery.Expression.Fragment
import TableQuery.Query.Binding

/-!
# Definitions

Before a query is read, names may be defined for it: constants, whose values are found
at once, and functions. A definition can use the definitions before it, so that no
function calls itself, and no name is defined twice.
-/

namespace TableQuery

/-- Why definitions are refused. -/
inductive DefinitionFault where
  /-- The text is not a sequence of definitions. -/
  | grammar (e : SyntaxError)
  /-- A definition is not a meaningful expression. -/
  | meaning (fault : QueryFault)
  /-- A constant has no value. -/
  | evaluation (name : String) (e : EvalError)
  /-- A name is defined twice. -/
  | redefinition (name : String)
deriving DecidableEq

/-- A fault of definitions in words. -/
def DefinitionFault.message : DefinitionFault → String
  | grammar e => s!"init code syntax error: {e.message}"
  | meaning fault => s!"init code error: {fault.message}"
  | evaluation name e => s!"init code: unable to evaluate \"{name}\": {e.message}"
  | redefinition name => s!"init code: \"{name}\" is defined more than once"

namespace Scope

/-- The bound body of a definition. -/
def bindDefinition (scope : Scope) (params : List String) (body : Expr) :
    Except DefinitionFault Bound :=
  (body.bindBody scope params).mapError .meaning

/-- Adds a definition. -/
def define (scope : Scope) (definition : Definition) : Except DefinitionFault Scope := do
  let name := definition.name
  if scope.defines name then throw (.redefinition name)
  match definition.params with
  | none =>
    let body ← scope.bindDefinition [] definition.body
    let v ← (body.eval Row.empty []).mapError (.evaluation name)
    return scope.addConstant name v
  | some params =>
    let body ← scope.bindDefinition params definition.body
    return scope.addFunction name (.mk params.length body)

/-- The names that a text defines. -/
def ofCode (code : List Char) : Except DefinitionFault Scope := do
  let definitions ← (Parser.parseDefinitions code).mapError .grammar
  definitions.foldlM define empty

end Scope
end TableQuery
