import TableQuery.Delimited.Split

/-!
# Guessing a dialect

The dialect of a table is guessed from its first lines that are not empty. A
candidate fits if it divides all of them, without irregularities, into the same
number of fields, at least two; the first candidate that fits is the guess.
-/

namespace TableQuery
namespace Delimited

/-- The number of lines that are looked at. -/
def sampleSize : Nat :=
  10

/-- The dialects that are tried, in order. -/
def candidates : List Dialect :=
  [⟨['\t'], .simple⟩, ⟨[','], .quoted⟩, ⟨[';'], .quoted⟩, ⟨['|'], .simple⟩]

/-- Whether a dialect divides all lines alike. -/
def fits (lines : List (List Char)) (dialect : Dialect) : Bool :=
  let splits := lines.map (split dialect false)
  match splits with
  | [] => false
  | first :: _ =>
    splits.all fun s =>
      !s.irregular && 2 ≤ s.fields.length && s.fields.length == first.fields.length

/-- The guess for a table with the given lines. -/
def sniff? (lines : List (List Char)) : Option Dialect :=
  let sample := (lines.filter fun line => !line.isEmpty).take sampleSize
  candidates.find? (fits sample)

end Delimited
end TableQuery
