import TableQuery.Query.Fragment

/-!
# Assignments and column lists

An update clause is a list of assignments, and an except clause a list of columns.
Commas inside brackets do not divide a list, and an equals sign that is part of a
comparison assigns nothing.
-/

namespace TableQuery

/-- An assignment to a field of the input record. -/
structure Assignment where
  /-- The index of the field. -/
  index : Nat
  /-- The expression for its new value. -/
  value : Bound

namespace Assignment

/-- How much deeper in brackets a text is after a character. -/
def nesting (c : Char) : Int :=
  if c == '(' || c == '[' || c == '\x7b' then 1
  else if c == ')' || c == ']' || c == '\x7d' then -1
  else 0

/-- The parts of a text between the commas outside of brackets, the first of which
begins with `part`. -/
def partsFrom (depth : Int) (part : List Char) : List Char → List (List Char)
  | [] => [part]
  | c :: s =>
    if c == ',' && depth == 0 then part :: partsFrom depth [] s
    else partsFrom (depth + nesting c) (part ++ [c]) s

/-- The parts of a text between the commas outside of brackets. -/
def parts (text : List Char) : List (List Char) :=
  partsFrom 0 [] text

/-- Whether an equals sign after this character belongs to a comparison. -/
def isComparing (c : Char) : Bool :=
  c == '=' || c == '!' || c == '<' || c == '>'

/-- The texts before and after the equals sign of an assignment. `before` stands before
the text, in reverse order. -/
def divideFrom (before : List Char) : List Char → Option (List Char × List Char)
  | [] => none
  | c :: s =>
    if c == '=' && !before.head?.any isComparing && s.head? != some '=' then
      some (before.reverse, s)
    else
      divideFrom (c :: before) s

/-- The target and the value of an assignment. -/
def divide? (text : List Char) : Option (List Char × List Char) :=
  divideFrom [] text

/-- Reads an assignment. -/
def read (query : IsolatedQuery) (names : Names) (text : List Char) : Binding Assignment := do
  let fault := fun (fault : String → UpdateFault) (part : List Char) =>
    QueryFault.update (fault (query.shown (Text.trim part)))
  match divide? text with
  | none => throw (fault .shape text)
  | some (target, value) =>
    if (Text.trim target).isEmpty || (Text.trim value).isEmpty then
      throw (fault .incomplete text)
    match (← query.bindExpr names .update (Text.trim target)).field? with
    | some (.input, index) =>
      return ⟨index, ← query.bindExpr names .update (Text.trim value)⟩
    | _ => throw (fault .target target)

/-- Reads an update clause. -/
def readAll (query : IsolatedQuery) (names : Names) (text : List Char) :
    Binding (List Assignment) :=
  (parts text).mapM (read query names)

/-- Reads a column of an except clause. -/
def readColumn (query : IsolatedQuery) (names : Names) (text : List Char) : Binding Nat := do
  match (← query.bindExpr names .exclusion (Text.trim text)).field? with
  | some (.input, index) => return index
  | _ => throw (.exclusion (.column (query.shown (Text.trim text))))

/-- Reads an except clause: the indices of its columns in ascending order, each once. -/
def readColumns (query : IsolatedQuery) (names : Names) (text : List Char) :
    Binding (List Nat) := do
  return (← (parts text).mapM (readColumn query names)).mergeSort.eraseReps

end Assignment
end TableQuery
