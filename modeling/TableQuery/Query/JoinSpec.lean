import TableQuery.Query.Clauses
import TableQuery.Query.Fragment

/-!
# Joins

A join clause names a table and says which fields of both tables have to be equal:
`prices on a1 == b2 and a.day == b.day`. Each equation compares a field of an input
record, or its number, with one of a join record, in either order.
-/

namespace TableQuery

/-- Expressions of the two tables whose values have to be equal. -/
structure KeyPair where
  /-- The expression of the input table. -/
  input : Bound
  /-- The expression of the join table. -/
  join : Bound

/-- What a query is joined with. -/
structure JoinSpec where
  /-- The name of the join table. -/
  table : String
  /-- What happens to records without a partner. -/
  kind : JoinKind
  /-- What has to be equal. -/
  keys : List KeyPair

namespace JoinSpec

/-- The text after the word `word` and the spaces around it, at the start of a text. -/
def dropSpacedWord? (word s : List Char) : Option (List Char) := do
  Text.dropSpaces? (← Text.dropWord? word (← Text.dropSpaces? s))

/-- The word that names the table, and the text of the condition. -/
def divide? (text : List Char) : Option (List Char × List Char) := do
  let text := text.dropWhile (· == ' ')
  let table := text.takeWhile (· != ' ')
  let condition ← dropSpacedWord? "ON".toList (text.dropWhile (· != ' '))
  if table.isEmpty || condition.isEmpty then none else some (table, condition)

/-- The name of the table and the text of the condition. The name may be a literal. -/
def readTable (query : IsolatedQuery) (text : List Char) :
    Except QueryFault (String × List Char) :=
  match divide? text with
  | none => .error (.join .shape)
  | some (word, condition) =>
    .ok ((query.wholeLiteral? word).getD (query.shown word), condition)

/-- The parts of a condition between the words `and`, the first of which begins with
`part`. The first `skip` characters belong to such a word or to the spaces around
it. -/
def conjunctsFrom (part : List Char) (skip : Nat) : List Char → List (List Char)
  | [] => [part]
  | c :: s =>
    if 0 < skip then
      conjunctsFrom part (skip - 1) s
    else
      match dropSpacedWord? "AND".toList (c :: s) with
      | some rest => part :: conjunctsFrom [] (s.length - rest.length) s
      | none => conjunctsFrom (part ++ [c]) 0 s

/-- The parts of a condition between the words `and`. -/
def conjuncts (condition : List Char) : List (List Char) :=
  conjunctsFrom [] 0 condition

/-- The side that a field, or the number of a record, belongs to. -/
def keySide? : Bound → Option Side
  | .field side _ _ => some side
  | .recordNumber side => some side
  | _ => none

/-- The two sides of an equation, each with its table. -/
def pair? (left right : Bound) : Option KeyPair :=
  match keySide? left, keySide? right with
  | some .input, some .join => some ⟨left, right⟩
  | some .join, some .input => some ⟨right, left⟩
  | _, _ => none

/-- Reads an equation. -/
def readPair (query : IsolatedQuery) (names : Names) (text : List Char) : Binding KeyPair :=
  match Text.split "==".toList text with
  | [left, right] => do
    let left ← query.bindExpr names .join (Text.trim left)
    let right ← query.bindExpr names .join (Text.trim right)
    match pair? left right with
    | some pair => return pair
    | none => throw (.join (.sides (query.shown (Text.trim text))))
  | _ => throw (.join (.equation (query.shown text)))

/-- Reads a join clause. -/
def read (query : IsolatedQuery) (names : Names) (clause : JoinClause) : Binding JoinSpec := do
  let (name, condition) ← readTable query clause.text
  return ⟨name, clause.kind, ← (conjuncts condition).mapM (readPair query names)⟩

end JoinSpec
end TableQuery
