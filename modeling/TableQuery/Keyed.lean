import TableQuery.Value.Hash
import TableQuery.Value.Order

/-!
# Tables keyed by lists of values

Groups, distinct rows and the records of a join table are found by a list of values. The
entries stand in the order in which their keys were first used, and a key gets an entry of
its own if the search for it finds no other one.

A search is certain to find an equal key that is hashed alike. Equal keys can be hashed
apart, when one of them has an integer where the other one has the double that it is rounded
to. Whether a search comes upon such a key depends on the places of the entries and on the
seed, which is another one in each run.
-/

namespace TableQuery

/-- How tables are searched. -/
class Hashing where
  /-- The place that the search for a key ends at in a table with the given keys. -/
  locate : List (List Value) → List Value → Option Nat
  /-- Only an equal key is found. -/
  exists_same : ∀ {keys key i}, locate keys key = some i →
    ∃ k, keys[i]? = some k ∧ Value.sameList k key = true
  /-- An equal key that is hashed alike is not missed. -/
  isSome_locate : ∀ {keys key k}, k ∈ keys → Value.sameList k key = true →
    Value.hashedAll k = Value.hashedAll key → (locate keys key).isSome = true

namespace Hashing

/-- The first key that is equal and, if the search is `strict`, hashed alike. -/
def first (strict : Bool) (keys : List (List Value)) (key : List Value) : Option Nat :=
  keys.findIdx? fun k =>
    Value.sameList k key && (!strict || Value.hashedAll k == Value.hashedAll key)

/-- Tables in which the first such key is found. -/
@[reducible] def ofFirst (strict : Bool) : Hashing where
  locate := first strict
  exists_same h := by
    obtain ⟨hlt, hfound, -⟩ := List.findIdx?_eq_some_iff_getElem.mp h
    exact ⟨_, List.getElem?_eq_getElem hlt, (Bool.and_eq_true_iff.mp hfound).1⟩
  isSome_locate hmem hsame hhashed := by
    rw [first, List.findIdx?_isSome, List.any_eq_true]
    exact ⟨_, hmem, by simp [hsame, hhashed]⟩

/-- Unless something else is said, keys that are hashed apart do not meet. -/
instance instFirst : Hashing :=
  ofFirst true

end Hashing

/-- Entries found by a list of values, in the order of the first use of their
keys. -/
abbrev Keyed (α : Type) := List (List Value × α)

/-- A key in print. -/
def shownKey (key : List Value) : String :=
  (Value.list key).display

namespace Keyed

variable {α : Type}

/-- The keys of a table, in the order of their first use. -/
def keys (table : Keyed α) : List (List Value) :=
  table.map Prod.fst

variable [Hashing]

/-- The entry for a key. -/
def find? (key : List Value) (table : Keyed α) : Option α := do
  let place ← Hashing.locate table.keys key
  (table[place]?).map Prod.snd

/-- Replaces the entry for a key by `change` of it. A new key gets `change none`
at the end. -/
def alter (key : List Value) (change : Option α → α) (table : Keyed α) : Keyed α :=
  match Hashing.locate table.keys key with
  | none => table ++ [(key, change none)]
  | some place => table.modify place fun (k, entry) => (k, change (some entry))

/-- Whether a key has an entry. -/
def contains (key : List Value) (table : Keyed α) : Bool :=
  (table.find? key).isSome

end Keyed
end TableQuery
