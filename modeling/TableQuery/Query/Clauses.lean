import TableQuery.Query.Error
import TableQuery.Text.Fold
import TableQuery.Text.Integer

/-!
# Finding the clauses of a query

A clause begins at its keyword, delimited by spaces or the ends of the text, and
ends where the next one begins. The space that delimits a keyword on the right does
not delimit another one on the left.
-/

namespace TableQuery

/-- The keywords of a clause with a meaning for each, tried in order. -/
abbrev KeywordForms (α : Type) := List (α × List (List Char))

namespace ClauseKind

/-- The forms of a keyword that consists of the given words. -/
def oneForm (words : List String) : KeywordForms JoinKind :=
  [(.inner, words.map String.toList)]

/-- The forms of the keyword of a clause. The kind of join matters only for join
clauses. -/
def forms : ClauseKind → KeywordForms JoinKind
  | join =>
    [(.strictLeft, ["STRICT".toList, "LEFT".toList, "JOIN".toList]),
      (.left, ["LEFT".toList, "OUTER".toList, "JOIN".toList]),
      (.left, ["LEFT".toList, "JOIN".toList]),
      (.inner, ["INNER".toList, "JOIN".toList]),
      (.inner, ["JOIN".toList])]
  | select => oneForm ["SELECT"]
  | orderBy => oneForm ["ORDER", "BY"]
  | condition => oneForm ["WHERE"]
  | update => oneForm ["UPDATE"]
  | groupBy => oneForm ["GROUP", "BY"]
  | limit => oneForm ["LIMIT"]
  | exclusion => oneForm ["EXCEPT"]

end ClauseKind

/-- The keyword of a clause in a query. -/
structure KeywordPlace where
  /-- The kind of clause. -/
  kind : ClauseKind
  /-- The kind of join, for a join clause. -/
  joinKind : JoinKind
  /-- The number of characters before the keyword. -/
  start : Nat
  /-- The number of characters up to the end of the keyword. -/
  stop : Nat
deriving DecidableEq

namespace KeywordPlace

/-- The first of the forms that a text begins with, and its length. -/
def form? (s : List Char) : KeywordForms JoinKind → Option (JoinKind × Nat)
  | [] => none
  | (joinKind, words) :: forms =>
    match Text.dropWords? words s with
    | some rest =>
      if Text.atDelimiter rest then some (joinKind, s.length - rest.length) else form? s forms
    | none => form? s forms

/-- The places of the keyword of a clause in a text that begins at `position`. The
first `skip` characters belong to a keyword or to the space after it; `delimited`
says whether a keyword can begin after them. -/
def allFrom (kind : ClauseKind) (position skip : Nat) (delimited : Bool) :
    List Char → List KeywordPlace
  | [] => []
  | c :: s =>
    if 0 < skip then
      allFrom kind (position + 1) (skip - 1) false s
    else
      match if delimited then form? (c :: s) kind.forms else none with
      | some (joinKind, length) =>
        ⟨kind, joinKind, position, position + length⟩ ::
          allFrom kind (position + 1) length false s
      | none => allFrom kind (position + 1) 0 (c == ' ') s

/-- The one place of the keyword of a clause, if it occurs. -/
def one? (query : List Char) (kind : ClauseKind) : Except QueryFault (Option KeywordPlace) :=
  match allFrom kind 0 0 true query with
  | [] => .ok none
  | [place] => .ok (some place)
  | _ => .error (.repeated kind)

/-- The places of all keywords, from left to right. -/
def all (query : List Char) : Except QueryFault (List KeywordPlace) := do
  let places ← ClauseKind.all.mapM (one? query)
  return (places.filterMap id).mergeSort fun p q => p.start ≤ q.start

end KeywordPlace

/-- The select clause. -/
structure SelectClause where
  /-- The select list. -/
  text : List Char
  /-- The row limit given before it. -/
  top : Option Nat
  /-- What happens to equal rows. -/
  distinct : Distinct
deriving DecidableEq

/-- The order clause. -/
structure OrderClause where
  /-- The expressions that rows are ordered by. -/
  text : List Char
  /-- Whether the order is descending. -/
  reverse : Bool
deriving DecidableEq

/-- The join clause. -/
structure JoinClause where
  /-- What happens to records without a partner. -/
  kind : JoinKind
  /-- The table and the condition. -/
  text : List Char
deriving DecidableEq

/-- The clauses of a query. -/
structure Clauses where
  /-- The select clause. -/
  select : Option SelectClause
  /-- The assignments of an update clause. -/
  update : Option (List Char)
  /-- The condition that records have to meet. -/
  condition : Option (List Char)
  /-- The order clause. -/
  orderBy : Option OrderClause
  /-- The expressions that rows are grouped by. -/
  groupBy : Option (List Char)
  /-- The join clause. -/
  join : Option JoinClause
  /-- The row limit. -/
  limit : Option Nat
  /-- The columns that are left out. -/
  exclusion : Option (List Char)
deriving DecidableEq

namespace Clauses

/-- No clauses. -/
def none : Clauses :=
  ⟨.none, .none, .none, .none, .none, .none, .none, .none⟩

/-- The number of rows that may be written. The limit clause goes before the limit
of the select clause. -/
def rowLimit (clauses : Clauses) : Option Nat :=
  clauses.limit.or (clauses.select.bind SelectClause.top)

/-- The text of a clause, which must have one. -/
def nonEmpty (kind : ClauseKind) (text : List Char) : Except QueryFault (List Char) :=
  let text := Text.trim text
  if text.isEmpty then .error (.empty kind) else .ok text

/-- The digits of the row limit at the start of a select clause, and the text after
it. -/
def takeTop? (text : List Char) : Option (List Char × List Char) := do
  let numbered ← Text.dropSpaces? (← Text.dropWord? "TOP".toList text)
  let digits := numbered.takeWhile Char.isDigit
  let rest := numbered.dropWhile Char.isDigit
  if digits.isEmpty || !Text.atDelimiter rest then .none
  else some (digits, rest.dropWhile (· == ' '))

/-- What a select clause says of equal rows, and the text after it. -/
def takeDistinct (text : List Char) : Distinct × List Char :=
  match Text.dropWord? "DISTINCT".toList text with
  | .none => (.no, text)
  | some rest =>
    match (Text.dropSpaces? rest).bind (Text.dropWord? "COUNT".toList) with
    | some counted =>
      if Text.atDelimiter counted then (.counted, counted.dropWhile (· == ' '))
      else (.yes, rest.dropWhile (· == ' '))
    | .none =>
      if Text.atDelimiter rest then (.yes, rest.dropWhile (· == ' ')) else (.no, text)

/-- The row limit that digits spell. -/
def readLimit (digits : List Char) : Except QueryFault Nat :=
  match Text.readCount? digits with
  | some n => .ok n
  | .none => .error (.limit (String.ofList digits))

/-- Reads a select clause. -/
def readSelect (text : List Char) : Except QueryFault SelectClause := do
  let (top, rest) ←
    match takeTop? text with
    | some (digits, rest) => (readLimit digits).map fun n => (some n, rest)
    | .none => .ok (.none, text)
  let (distinct, rest) := takeDistinct rest
  return ⟨← nonEmpty .select rest, top, distinct⟩

/-- The assignments of an update clause, after the word that may introduce them. -/
def dropSet (text : List Char) : List Char :=
  ((Text.dropWord? "SET".toList text).bind Text.dropSpaces?).getD text

/-- Divides the text of an order clause at its last space: the expressions, without
the spaces after them, and the last word. -/
def lastWord (text : List Char) : List Char × List Char :=
  let backwards := text.reverse
  let word := backwards.takeWhile (· != ' ')
  let before := backwards.dropWhile (· != ' ')
  ((before.dropWhile (· == ' ')).reverse, word.reverse)

/-- Whether a text is a word in some letter case. -/
def isWord (word text : List Char) : Bool :=
  Text.dropWord? word text == some []

/-- Reads an order clause. The direction is its last word; only its plain spelling
reverses the order. -/
def readOrder (text : List Char) : Except QueryFault OrderClause := do
  let (exprs, word) := lastWord text
  let directed :=
    text.contains ' ' && (isWord "ASC".toList word || isWord "DESC".toList word)
  if directed then
    return ⟨← nonEmpty .orderBy exprs, word.map Char.toUpper == "DESC".toList⟩
  else
    return ⟨← nonEmpty .orderBy text, false⟩

/-- Adds the clause with the given keyword and text. -/
def add (clauses : Clauses) (place : KeywordPlace) (text : List Char) :
    Except QueryFault Clauses := do
  match place.kind with
  | .select =>
    if place.start ≠ 0 then throw (.misplaced .select)
    return { clauses with select := some (← readSelect text) }
  | .update =>
    if place.start ≠ 0 then throw (.misplaced .update)
    return { clauses with update := some (← nonEmpty .update (dropSet text)) }
  | .condition => return { clauses with condition := some (← nonEmpty .condition text) }
  | .orderBy => return { clauses with orderBy := some (← readOrder text) }
  | .groupBy => return { clauses with groupBy := some (← nonEmpty .groupBy text) }
  | .join => return { clauses with join := some ⟨place.joinKind, ← nonEmpty .join text⟩ }
  | .limit => return { clauses with limit := some (← readLimit text) }
  | .exclusion => return { clauses with exclusion := some (← nonEmpty .exclusion text) }

/-- Adds the clauses with the given keywords, each with the text up to the next
keyword. -/
def addAll (query : List Char) (clauses : Clauses) :
    List KeywordPlace → Except QueryFault Clauses
  | [] => .ok clauses
  | place :: places => do
    let stop :=
      match places with
      | next :: _ => next.start
      | [] => query.length
    let text := (query.drop place.stop).take (stop - place.stop)
    addAll query (← clauses.add place (Text.trim text)) places

/-- The first pair of clauses, out of some pairs, that are both present. -/
def firstConflict : List (Bool × ClauseKind × Bool × ClauseKind) → Except QueryFault Unit
  | [] => .ok ()
  | (hasFirst, first, hasSecond, second) :: pairs =>
    if hasFirst && hasSecond then .error (.incompatible first second) else firstConflict pairs

/-- Refuses clauses that do not go together. -/
def check (clauses : Clauses) : Except QueryFault Unit := do
  let updates := clauses.update.isSome
  if !clauses.select.isSome && !updates then throw .noStatement
  firstConflict
    [(clauses.orderBy.isSome, .orderBy, updates, .update),
      (clauses.groupBy.isSome, .groupBy, updates, .update),
      (clauses.limit.isSome, .limit, updates, .update),
      (clauses.exclusion.isSome, .exclusion, updates, .update),
      (clauses.orderBy.isSome, .orderBy, clauses.groupBy.isSome, .groupBy),
      (clauses.exclusion.isSome, .exclusion, clauses.join.isSome, .join)]

/-- The clauses of a query whose literals have been set aside. -/
def locate (query : List Char) : Except QueryFault Clauses := do
  let places ← KeywordPlace.all query
  let has := fun kind => places.any fun place => place.kind == kind
  if has .select && has .update then throw .selectAndUpdate
  let clauses ← addAll query none places
  clauses.check
  return clauses

end Clauses
end TableQuery
