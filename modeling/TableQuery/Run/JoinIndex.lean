import TableQuery.Expression.Evaluation
import TableQuery.Keyed
import TableQuery.Query.JoinSpec
import TableQuery.Run.Feed

/-!
# Join indexes

Before the first input record is read, the join table is read to its end and its records
are gathered by key. The partners of an input record are those with its key, in the
order of the join table. Whether none or several of them are allowed depends on the kind
of join.
-/

namespace TableQuery

/-- The records of a join table, by key. -/
structure JoinIndex where
  /-- The join that the index is for. -/
  spec : JoinSpec
  /-- The records with each key. -/
  partners : Keyed (List Partner)
  /-- The number of records. -/
  size : Nat
  /-- The number of fields of the longest record. -/
  width : Nat

namespace JoinIndex

variable [Hashing]

/-- The index of no records. -/
def empty (spec : JoinSpec) : JoinIndex :=
  ⟨spec, [], 0, 0⟩

/-- The key of a join record. -/
def joinKey (spec : JoinSpec) (partner : Partner) : Except EvalError (List Value) :=
  Bound.evalAll ⟨[], 0, some partner⟩ [] (spec.keys.map KeyPair.join)

/-- Adds a record with the given key. -/
def add (index : JoinIndex) (key : List Value) (partner : Partner) : JoinIndex :=
  { index with
    partners := index.partners.alter key fun others => others.getD [] ++ [partner]
    size := index.size + 1
    width := max index.width partner.fields.length }

/-- Takes a record of the join table. -/
def insert : Consumer JoinIndex := fun number record index =>
  let partner : Partner := ⟨some number, record⟩
  match joinKey index.spec partner with
  | .error e => (.error (.data (.joinKey number e)), index)
  | .ok key => (.ok .more, index.add key partner)

/-- Reads a join table to its end. -/
def build {σ : Type} [RecordSource σ] (spec : JoinSpec) (table : σ) : Fed σ JoinIndex :=
  feed insert 1 table (empty spec)

/-- The key of an input record. -/
def inputKey (index : JoinIndex) (record : Record) (number : Nat) :
    Except DataFault (List Value) :=
  (Bound.evalAll ⟨record, number, none⟩ [] (index.spec.keys.map KeyPair.input)).mapError
    (.atRecord number)

/-- The join records with the given key. -/
def find (index : JoinIndex) (key : List Value) : List Partner :=
  (index.partners.find? key).getD []

/-- The absent values that stand in for a missing partner. -/
def absent (index : JoinIndex) : Partner :=
  ⟨none, List.replicate index.width .null⟩

/-- The partners of an input record with the given key. -/
def partnersOf (index : JoinIndex) (key : List Value) (number : Nat) :
    Except DataFault (List Partner) :=
  let found := index.find key
  match index.spec.kind with
  | .inner => .ok found
  | .left => .ok (if found.isEmpty then [index.absent] else found)
  | .strictLeft =>
    if found.length = 1 then .ok found
    else .error (.strictJoin (shownKey key) found.length number)

/-- The partners of an input record. -/
def lookup (index : JoinIndex) (record : Record) (number : Nat) :
    Except DataFault (List Partner) := do
  index.partnersOf (← index.inputKey record number) number

/-- The partner of an input record that is to be updated, of which there may not be
several. -/
def lookupOne (index : JoinIndex) (record : Record) (number : Nat) :
    Except DataFault (Option Partner) := do
  let key ← index.inputKey record number
  match ← index.partnersOf key number with
  | [] => return none
  | [partner] => return some partner
  | _ => throw (.ambiguousUpdate (shownKey key) number)

end JoinIndex
end TableQuery
