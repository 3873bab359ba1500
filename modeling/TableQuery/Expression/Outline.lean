import TableQuery.Expression.Tree
import TableQuery.Text.Quoted

/-!
# Outlines of expressions

An outline shows how an expression has been read: each node under its name, with its
parts under theirs. Messages show it where the way an expression is written would not
tell why it is refused.
-/

namespace TableQuery

/-- The name of an operator in outlines. -/
def BinaryOp.outline : BinaryOp → String
  | add => "Add"
  | sub => "Sub"
  | mul => "Mul"
  | div => "Div"
  | floorDiv => "FloorDiv"
  | mod => "Mod"
  | eq => "Eq"
  | ne => "Neq"
  | lt => "Lt"
  | le => "LtEq"
  | gt => "Gt"
  | ge => "GtEq"
  | member => "In"
  | notMember => "NotIn"
  | and => "And"
  | or => "Or"

/-- The name of an operator in outlines. -/
def UnaryOp.outline : UnaryOp → String
  | not => "Not"
  | minus => "Minus"
  | plus => "Plus"

/-- The outline of a truth value. -/
def boolOutline (b : Bool) : String :=
  if b then "true" else "false"

/-- The outline of a list with the given items. -/
def listOutline (items : List String) : String :=
  "[" ++ String.intercalate ", " items ++ "]"

/-- The outline of a node with the given parts. -/
def nodeOutline (name : String) (parts : List (String × String)) : String :=
  let shown := parts.map fun (part, content) => part ++ ": " ++ content
  name ++ " \x7b " ++ String.intercalate ", " shown ++ " \x7d"

namespace Expr

mutual

/-- The outline of an expression. -/
def outline : Expr → String
  | null => "Null"
  | bool b => s!"Boolean({boolOutline b})"
  | int n => s!"Integer({n.toInt})"
  | float x => s!"Float({x.text})"
  | text s => s!"String({Text.quotedString s})"
  | name s => s!"Identifier({Text.quotedString s})"
  | list items => s!"List({listOutline (outlines items)})"
  | .attribute base part =>
    nodeOutline "Attribute" [("base", base.outline), ("name", Text.quotedString part)]
  | index base i => nodeOutline "Index" [("base", base.outline), ("index", i.outline)]
  | call f args =>
    nodeOutline "Function"
      [("name", Text.quotedString f), ("args", listOutline (outlines args))]
  | binary op left right =>
    nodeOutline "BinaryOp"
      [("left", left.outline), ("op", op.outline), ("right", right.outline)]
  | unary op operand => nodeOutline "UnaryOp" [("op", op.outline), ("operand", operand.outline)]
  | isNull negated operand =>
    nodeOutline "IsNull" [("expr", operand.outline), ("negated", boolOutline negated)]
  | choice condition chosen otherwise =>
    nodeOutline "Conditional"
      [("then", chosen.outline), ("condition", condition.outline),
        ("otherwise", otherwise.outline)]
  | lambda params body =>
    nodeOutline "Lambda"
      [("params", listOutline (params.map Text.quotedString)), ("body", body.outline)]

/-- The outlines of some expressions. -/
def outlines : List Expr → List String
  | [] => []
  | e :: es => e.outline :: outlines es

end

end Expr
end TableQuery
