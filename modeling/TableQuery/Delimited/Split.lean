import TableQuery.Delimited.Dialect
import TableQuery.Text.Search

/-!
# Dividing a line into fields

Every line is divided somehow; a line that does not follow its policy is divided
as well as it can be and marked as irregular. Fields can be given plain, or
preserved with the quotes and spaces around them so that the line can be put
together again.
-/

namespace TableQuery
namespace Delimited

/-- The fields of a line. -/
structure Split where
  /-- The fields from left to right. -/
  fields : List (List Char)
  /-- Whether the line does not follow its policy. -/
  irregular : Bool
deriving DecidableEq

/-- Divides the text after an opening quote at the closing quote. Quotes of the
body occur in pairs; if every quote has a partner, the first of the last pair
closes the body. -/
def closeQuote? : List Char → Option (List Char × List Char)
  | [] => none
  | '"' :: '"' :: s =>
    match closeQuote? s with
    | some (body, rest) => some ('"' :: '"' :: body, rest)
    | none => some ([], '"' :: s)
  | '"' :: s => some ([], s)
  | c :: s => (closeQuote? s).map fun (body, rest) => (c :: body, rest)

/-- Closing a body loses nothing. -/
theorem eq_of_closeQuote? {s body rest : List Char}
    (h : closeQuote? s = some (body, rest)) : s = body ++ '"' :: rest := by
  fun_induction closeQuote? s generalizing body rest with
  | case1 => simp at h
  | case2 s b r heq ih =>
    simp only [Option.some.injEq, Prod.mk.injEq] at h
    obtain ⟨rfl, rfl⟩ := h
    simp [ih heq]
  | case3 s heq ih =>
    simp only [Option.some.injEq, Prod.mk.injEq] at h
    obtain ⟨rfl, rfl⟩ := h
    rfl
  | case4 s hs =>
    simp only [Option.some.injEq, Prod.mk.injEq] at h
    obtain ⟨rfl, rfl⟩ := h
    rfl
  | case5 c s h1 h2 ih =>
    obtain ⟨⟨b, r⟩, hb, heq⟩ := Option.map_eq_some_iff.1 h
    simp only [Prod.mk.injEq] at heq
    obtain ⟨rfl, rfl⟩ := heq
    simp [ih hb]

/-- A quoted field at the start of a text. -/
structure QuotedField where
  /-- The field with its quotes and the spaces around them. -/
  whole : List Char
  /-- The text between the quotes. -/
  body : List Char
  /-- The text after the field. -/
  rest : List Char

/-- The quoted field at the start of a text. Spaces around the quotes belong to
it if `padded` holds. -/
def quotedField? (padded : Bool) (s : List Char) : Option QuotedField :=
  let isPad := fun c => padded && c == ' '
  let lead := s.takeWhile isPad
  match s.dropWhile isPad with
  | '"' :: opened =>
    (closeQuote? opened).map fun (body, rest) =>
      { whole := lead ++ '"' :: body ++ '"' :: rest.takeWhile isPad
        body := body
        rest := rest.dropWhile isPad }
  | _ => none

/-- A quoted field and the text after it are the text, and the field is not
empty. -/
theorem eq_of_quotedField? {padded : Bool} {s : List Char} {q : QuotedField}
    (h : quotedField? padded s = some q) : s = q.whole ++ q.rest ∧ q.whole ≠ [] := by
  unfold quotedField? at h
  generalize hpad : (fun c => padded && c == ' ') = isPad at h
  dsimp only at h
  split at h
  · rename_i opened hs
    obtain ⟨⟨body, rest⟩, hclose, rfl⟩ := Option.map_eq_some_iff.1 h
    refine ⟨?_, by simp⟩
    calc
      s = s.takeWhile isPad ++ s.dropWhile isPad := List.takeWhile_append_dropWhile.symm
      _ = s.takeWhile isPad ++ '"' :: (body ++ '"' :: rest) := by
        rw [hs, eq_of_closeQuote? hclose]
      _ = _ := by simp [List.takeWhile_append_dropWhile]
  · simp at h

/-- Each pair of quotes halved. -/
def halveQuotes : List Char → List Char
  | [] => []
  | '"' :: '"' :: s => '"' :: halveQuotes s
  | c :: s => c :: halveQuotes s

/-- The field at the start of a text. -/
structure NextField where
  /-- The field as it is asked for. -/
  field : List Char
  /-- Whether it does not follow the policy. -/
  irregular : Bool
  /-- The text after the delimiter that ends the field, if one does. -/
  rest : Option (List Char)

/-- The field that ends at the first delimiter, whatever it holds. -/
def plainField (delimiter : List Char) (irregular : Bool) (s : List Char) : NextField :=
  match Text.cut? delimiter s with
  | some (field, rest) => ⟨field, irregular || field.contains '"', some rest⟩
  | none => ⟨s, irregular || s.contains '"', none⟩

/-- The first field of a text. A quoted field counts only if the line or a
delimiter ends it. -/
def nextField (delimiter : List Char) (preserve padded : Bool) (s : List Char) : NextField :=
  match quotedField? padded s with
  | none => plainField delimiter false s
  | some q =>
    let field := if preserve then q.whole else halveQuotes q.body
    if q.rest.isEmpty then
      ⟨field, false, none⟩
    else
      match delimiter.isPrefixOf? q.rest with
      | some rest => ⟨field, false, some rest⟩
      | none => plainField delimiter true s

theorem length_lt_of_plainField
    {delimiter s rest : List Char} {irregular : Bool} (hd : delimiter ≠ [])
    (h : (plainField delimiter irregular s).rest = some rest) : rest.length < s.length := by
  unfold plainField at h
  split at h
  · rename_i field after hcut
    simp only [Option.some.injEq] at h
    subst h
    exact Text.length_lt_of_cut? hcut hd
  · simp at h

/-- What follows the first field and its delimiter is shorter than the text. -/
theorem length_lt_of_nextField
    {delimiter s rest : List Char} {preserve padded : Bool} (hd : delimiter ≠ [])
    (h : (nextField delimiter preserve padded s).rest = some rest) : rest.length < s.length := by
  unfold nextField at h
  split at h
  · exact length_lt_of_plainField hd h
  · rename_i q hq
    obtain ⟨hs, hne⟩ := eq_of_quotedField? hq
    generalize (if preserve then q.whole else halveQuotes q.body) = field at h
    dsimp only at h
    split at h
    · simp at h
    · split at h
      · rename_i after hafter
        simp only [Option.some.injEq] at h
        subst h
        have hpos := List.length_pos_iff.2 hne
        rw [hs, Text.eq_append_of_isPrefixOf? hafter]
        simp only [List.length_append]
        omega
      · exact length_lt_of_plainField hd h

/-- The fields of a text in which fields may be quoted. -/
def quotedFields
    (delimiter : List Char) (preserve padded : Bool) (hd : delimiter ≠ []) (s : List Char) :
    Split :=
  let next := nextField delimiter preserve padded s
  match h : next.rest with
  | none => ⟨[next.field], next.irregular⟩
  | some rest =>
    have := length_lt_of_nextField hd h
    let others := quotedFields delimiter preserve padded hd rest
    ⟨next.field :: others.fields, next.irregular || others.irregular⟩
termination_by s.length

/-- Divides a line in which fields may be quoted. An empty delimiter ends no
quoted field, so a line with a quote is then one irregular field. -/
def splitQuoted
    (delimiter : List Char) (preserve padded : Bool) (line : List Char) : Split :=
  if !line.contains '"' then ⟨Text.split delimiter line, false⟩
  else if hd : delimiter = [] then ⟨[line], true⟩
  else quotedFields delimiter preserve padded hd line

/-- The pieces of a line that begin where a space ends: each is a run of other
characters and the spaces after it, and spaces at the start of the line belong to
the first. -/
def spacedPieces : List Char → List (List Char)
  | [] => []
  | c :: s =>
    match spacedPieces s with
    | [] => [[c]]
    | piece :: others =>
      if c == ' ' && piece.head? != some ' ' then [c] :: piece :: others
      else (c :: piece) :: others

/-- The pieces without the one space at the end of each that separates it from
the next. -/
def dropSeparators : List (List Char) → List (List Char)
  | [] => []
  | [piece] => [piece]
  | piece :: next :: others => piece.dropLast :: dropSeparators (next :: others)

/-- The fields of a line with the spaces around them. Spaces at its start belong to
the first field. -/
def paddedFields (line : List Char) : List (List Char) :=
  let lead := line.takeWhile (· == ' ')
  match spacedPieces (line.dropWhile (· == ' ')) with
  | [] => [line]
  | first :: others => dropSeparators ((lead ++ first) :: others)

/-- The fields of a line at runs of spaces. A line of spaces is one empty field. -/
def spacedFields (line : List Char) : List (List Char) :=
  let fields := (Text.split [' '] line).filter fun field => !field.isEmpty
  if fields.isEmpty then [[]] else fields

/-- Divides a line into fields. With `preserve`, quoted fields keep their quotes
and all fields the spaces around them. -/
def split (dialect : Dialect) (preserve : Bool) (line : List Char) : Split :=
  match dialect.policy with
  | .monocolumn => ⟨[line], false⟩
  | .simple => ⟨Text.split dialect.delimiter line, false⟩
  | .whitespace => ⟨if preserve then paddedFields line else spacedFields line, false⟩
  | .quoted => splitQuoted dialect.delimiter preserve (dialect.delimiter != [' ']) line
  | .quotedRfc => splitQuoted dialect.delimiter preserve false line

end Delimited
end TableQuery
