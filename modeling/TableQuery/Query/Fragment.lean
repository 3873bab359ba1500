import TableQuery.Expression.Fragment
import TableQuery.Query.Binding

/-!
# The texts of clauses

The text of a clause is read as an expression after its literals have been put back.
-/

namespace TableQuery
namespace IsolatedQuery

/-- Reads a part of a query after its literals have been put back. Errors of grammar
are errors of the clause. -/
def read {α : Type} (query : IsolatedQuery) (parse : List Char → Except SyntaxError α)
    (clause : ClauseKind) (text : List Char) : Except QueryFault α :=
  (parse (query.restore text)).mapError (.grammar clause)

/-- The expression that a part of a query spells. -/
def readExpr (query : IsolatedQuery) : ClauseKind → List Char → Except QueryFault Expr :=
  query.read Parser.parseExpr

/-- The expressions that a part of a query spells. -/
def readExprs (query : IsolatedQuery) : ClauseKind → List Char → Except QueryFault (List Expr) :=
  query.read Parser.parseExprs

/-- The select list that a part of a query spells. -/
def readSelect (query : IsolatedQuery) (text : List Char) :
    Except QueryFault (List SelectItem) :=
  query.read Parser.parseSelect .select text

/-- A part of a query as it is shown in messages. -/
def shown (query : IsolatedQuery) (text : List Char) : String :=
  String.ofList (query.restore text)

/-- Reads an expression and binds its names. -/
def bindExpr (query : IsolatedQuery) (names : Names) (clause : ClauseKind)
    (text : List Char) : Binding Bound := do
  (← query.readExpr clause text).bind names

end IsolatedQuery
end TableQuery
