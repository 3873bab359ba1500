import TableQuery.Query.Literals
import TableQuery.Text.Fold
import TableQuery.Text.Quoted

/-!
# Column variables

A query refers to the fields of a record by number, `a7` or `a[7]`, by name,
`a.price` or `a["unit price"]`, and by a bare name if the table has a header. The
spellings that occur in a query are found in its text before any of it is read as an
expression, and each is mapped to the index of its column.
-/

namespace TableQuery

/-- The spellings of columns of one table that occur in a query. -/
structure ColumnMap where
  /-- Each spelling with the index of its column. -/
  entries : List (String × Nat)
  /-- The names of the columns, if the table has a header. -/
  header : Option (List String)
deriving DecidableEq

namespace ColumnMap

/-- The index of the column with the given spelling. -/
def get? (columns : ColumnMap) (spelling : String) : Option Nat :=
  columns.entries.lookup spelling

/-- The name of the column with the given index. -/
def columnName? (columns : ColumnMap) (index : Nat) : Option String :=
  columns.header.bind fun names => names[index]?

/-- All spellings in ascending order. -/
def spellings (columns : ColumnMap) : List String :=
  (columns.entries.map fun (spelling, _) => spelling).mergeSort fun s t => compare s t != .gt

/-- The index of the first column with the given name. -/
def position? (header : Option (List String)) (name : String) : Option Nat :=
  header.bind fun names => names.findIdx? (· == name)

/-- Names that never stand for columns. -/
def reserved : List String :=
  ["NR", "NF", "aNR", "aNF", "bNR", "bNF", "a", "b"]

/-- Whether a text has the shape of a name. -/
def isIdentifier : List Char → Bool
  | [] => false
  | c :: s => Token.isNameStart c && s.all Token.isNamePart

/-- Whether a text is `a` or `b` and digits. -/
def isNumbered : List Char → Bool
  | [] => false
  | c :: s => (c == 'a' || c == 'b') && s.all Char.isDigit

/-- Whether a column name can stand on its own in a query. -/
def isBareName (name : String) : Bool :=
  let chars := name.toList
  isIdentifier chars && !reserved.contains name && !isNumbered chars &&
    (Keyword.ofWord? chars).isNone

/-- Whether a variable can begin behind a character. -/
def separates (c : Char) : Bool :=
  !(Token.isNamePart c || c == '.')

/-- Whether a variable that ends before a text is not continued by it. -/
def endsName : List Char → Bool
  | [] => true
  | c :: _ => !Token.isNamePart c

/-- The digits at the start of a text, unless they begin with zero, and the text after
them. -/
def takeNumber? (s : List Char) : Option (List Char × List Char) :=
  let digits := s.takeWhile Char.isDigit
  if digits.isEmpty || digits.head? == some '0' then none
  else some (digits, s.dropWhile Char.isDigit)

/-- The text without spaces at its start. -/
def skipSpaces (s : List Char) : List Char :=
  s.dropWhile (· == ' ')

/-! Each pattern for variables says what may stand behind the letter of a table, which part
of it is captured, and how many characters there are up to the end of that part. -/

/-- The column number of `a7` behind the letter. -/
def numbered? (s : List Char) : Option (List Char × Nat) := do
  let (digits, rest) ← takeNumber? s
  if endsName rest then some (digits, s.length - rest.length) else none

/-- The column number of `a[7]` behind the letter. -/
def subscripted? (s : List Char) : Option (List Char × Nat) := do
  let (digits, rest) ← takeNumber? (skipSpaces (← ['['].isPrefixOf? s))
  if (skipSpaces rest).head? == some ']' then some (digits, s.length - rest.length) else none

/-- The column name of `a.name` behind the letter, unless it is called. -/
def named? (s : List Char) : Option (List Char × Nat) := do
  let rest ← ['.'].isPrefixOf? s
  let name := rest.takeWhile Token.isNamePart
  let rest := rest.dropWhile Token.isNamePart
  if isIdentifier name && rest.head? != some '(' then some (name, s.length - rest.length)
  else none

/-- The number of the literal in `a["name"]` behind the letter. -/
def keyed? (s : List Char) : Option (List Char × Nat) := do
  let rest := skipSpaces (← ['['].isPrefixOf? s)
  let (digits, n) ← IsolatedQuery.placeholder? rest
  let rest := rest.drop n
  if (skipSpaces rest).head? == some ']' then
    some (digits, s.length - rest.length - IsolatedQuery.placeholderClose.length)
  else
    none

/-- What a pattern captures at the start of a text, with the letter of the table before it. -/
def lettered? (side : Side) (pattern : List Char → Option (List Char × Nat)) :
    List Char → Option (List Char × Nat)
  | [] => none
  | c :: s =>
    if c == side.letter then (pattern s).map fun (part, n) => (part, n + 1) else none

/-- A match at the start of a text: a variable, if the whole text begins there, or else a
separating character and a variable behind it. -/
def matchHere? (side : Side) (pattern : List Char → Option (List Char × Nat)) (whole : Bool)
    (c : Char) (s : List Char) : Option (List Char × Nat) :=
  (if whole then lettered? side pattern (c :: s) else none).or
    (if separates c then (lettered? side pattern s).map fun (part, n) => (part, n + 1) else none)

/-- The first match in a text. -/
def firstMatch? (side : Side) (pattern : List Char → Option (List Char × Nat)) (whole : Bool) :
    List Char → Option (List Char × Nat)
  | [] => none
  | c :: s =>
    (matchHere? side pattern whole c s).or
      ((firstMatch? side pattern false s).map fun (part, n) => (part, n + 1))

section

variable {side : Side} {pattern : List Char → Option (List Char × Nat)} {whole : Bool}
  {c : Char} {s part : List Char} {n : Nat}

theorem pos_of_lettered? (h : lettered? side pattern s = some (part, n)) : 0 < n := by
  unfold lettered? at h
  split at h
  · cases h
  · obtain ⟨-, h⟩ := Option.ite_none_right_eq_some.mp h
    obtain ⟨_, -, heq⟩ := Option.map_eq_some_iff.mp h
    cases heq
    exact Nat.succ_pos _

theorem pos_of_matchHere? (h : matchHere? side pattern whole c s = some (part, n)) : 0 < n := by
  rcases Option.or_eq_some_iff.mp h with h | ⟨-, h⟩
  · split at h
    · exact pos_of_lettered? h
    · cases h
  · obtain ⟨-, h⟩ := Option.ite_none_right_eq_some.mp h
    obtain ⟨_, -, heq⟩ := Option.map_eq_some_iff.mp h
    cases heq
    exact Nat.succ_pos _

/-- What is captured ends behind the start of the text. -/
theorem length_sub_lt_of_firstMatch? (h : firstMatch? side pattern whole s = some (part, n)) :
    s.length - n < s.length := by
  cases s with
  | nil => cases h
  | cons c s =>
    have hpos : 0 < n := by
      rcases Option.or_eq_some_iff.mp h with h | ⟨-, h⟩
      · exact pos_of_matchHere? h
      · obtain ⟨_, -, heq⟩ := Option.map_eq_some_iff.mp h
        cases heq
        exact Nat.succ_pos _
    rw [List.length_cons]
    omega

end

/-- What is captured by all matches in a text, from left to right. The search goes on right
behind a captured part, so that what follows it can come before the next variable. -/
def overlapping (side : Side) (pattern : List Char → Option (List Char × Nat)) (whole : Bool)
    (s : List Char) : List (List Char) :=
  match h : firstMatch? side pattern whole s with
  | none => []
  | some (part, n) =>
    have := length_sub_lt_of_firstMatch? h
    part :: overlapping side pattern false (s.drop n)
termination_by s.length

/-- Whether a name occurs in a text as a word of its own. Its occurrences are taken from the
left and do not overlap; `before` is the character before the text. -/
def mentions (name : List Char) (before : Option Char) (s : List Char) : Bool :=
  if hname : name = [] then
    false
  else
    match h : Text.cut? name s with
    | none => false
    | some (front, after) =>
      have := Text.length_lt_of_cut? h hname
      (front.getLast?.or before).all separates && endsName after ||
        mentions name name.getLast? after
termination_by s.length

/-- The start of a join clause up to its table, at the start of a text, and the length
of this part together with the table. -/
def joinTable? (s : List Char) : Option (List Char × Nat) := do
  let rest ← Text.dropSpaces? (← Text.dropWord? "JOIN".toList s)
  let table := rest.takeWhile (· != ' ')
  if table.isEmpty then none
  else
    let opening := s.length - rest.length
    some (s.take opening, opening + table.length)

/-- The text with an underscore in place of the table of a join clause, so that a
table such as `b.csv` is not taken for a column. -/
def maskJoinTable (delimited : Bool) : List Char → List Char
  | [] => []
  | c :: s =>
    match if delimited then joinTable? (c :: s) else none with
    | some (opening, n) => opening ++ '_' :: maskJoinTable false (s.drop (n - 1))
    | none => c :: maskJoinTable (c == ' ') s
termination_by s => s.length

/-- The spelling of a column that is named by a text. -/
def keyedSpelling (side : Side) (name : String) : String :=
  s!"{side.letter}[{Text.quotedString name}]"

/-- Adds a spelling, or changes the column that it stands for. -/
def insert (entries : List (String × Nat)) (spelling : String) (index : Nat) :
    List (String × Nat) :=
  match entries with
  | [] => [(spelling, index)]
  | (s, i) :: rest =>
    if s == spelling then (s, index) :: rest else (s, i) :: insert rest spelling index

/-- The spellings of columns by number that occur in a text. -/
def numberedVariables (side : Side) (text : List Char) : List (String × Nat) :=
  let plain := (overlapping side numbered? true text).filterMap fun digits =>
    (Text.readCount? digits).map fun n => (s!"{side.letter}{n}", n - 1)
  let subscripts := (overlapping side subscripted? true text).filterMap fun digits =>
    (Text.readCount? digits).map fun n => (s!"{side.letter}[{n}]", n - 1)
  plain ++ subscripts

/-- The spellings of columns by name that occur in a text, with the names. -/
def namedVariables (query : IsolatedQuery) (side : Side) (text : List Char) :
    List (String × String) :=
  let attributes := (overlapping side named? true text).filterMap fun chars =>
    let name := String.ofList chars
    if name == "NR" || name == "NF" then none else some (s!"{side.letter}.{name}", name)
  let keyed := (overlapping side keyed? true text).filterMap fun digits =>
    ((Text.readCount? digits).bind query.literalValue?).map fun name =>
      (keyedSpelling side name, name)
  attributes ++ keyed

/-- The bare names of columns that occur in a text. -/
def bareVariables (header : List String) (text : List Char) : List (String × Nat) :=
  header.zipIdx.filter fun (name, _) =>
    isBareName name && mentions name.toList none text

/-- The columns of one table that a query refers to, in its cleaned text. -/
def ofIsolated (query : IsolatedQuery) (side : Side) (header : Option (List String)) :
    Except QueryFault ColumnMap := do
  let text := maskJoinTable true query.text
  let named ← (namedVariables query side text).mapM fun (spelling, name) =>
    match position? header name with
    | some index => Except.ok (spelling, index)
    | none => Except.error (QueryFault.unknownColumn name side)
  let found := (numberedVariables side text ++ named).foldl
    (fun entries (spelling, index) => insert entries spelling index) []
  let bare := bareVariables (header.getD []) text
  let all := bare.foldl
    (fun entries (name, index) =>
      if (entries.lookup name).isSome then entries else insert entries name index)
    found
  return ⟨all, header⟩

/-- The columns of one table that a query refers to. -/
def ofQuery (query : List Char) (side : Side) (header : Option (List String)) :
    Except QueryFault ColumnMap := do
  ofIsolated (← IsolatedQuery.ofQuery query) side header

/-- Refuses spellings that stand for columns of both tables. -/
def checkAmbiguity (a b : ColumnMap) : Except QueryFault Unit :=
  match a.spellings.filter fun spelling => (b.get? spelling).isSome with
  | [] => .ok ()
  | spelling :: _ => .error (.ambiguousVariable spelling)

end ColumnMap
end TableQuery
