import TableQuery.Text.Blank
import TableQuery.Text.Integer

/-!
# Values

A field of a table or the value of an expression. Delimited text yields text
fields only; tables in memory may hold any value. Text that spells a number
counts as that number wherever a number is wanted.
-/

namespace TableQuery

/-- A field of a table or the value of an expression. -/
inductive Value where
  /-- The absent value. -/
  | null
  /-- A truth value. -/
  | bool (b : Bool)
  /-- A sixty-four-bit integer. -/
  | int (n : Int64)
  /-- A double-precision number. -/
  | float (x : Double)
  /-- Text. -/
  | text (s : String)
  /-- A list of values. -/
  | list (items : List Value)
deriving Inhabited

/-- The fields of one row, in order. -/
abbrev Record := List Value

/-- An integer or a double-precision number. -/
inductive Number where
  /-- A sixty-four-bit integer. -/
  | int (n : Int64)
  /-- A double-precision number. -/
  | float (x : Double)
deriving DecidableEq

/-- The number that a text spells between white space: an integer if it is one in
range, otherwise a decimal. -/
def Number.read? (s : List Char) : Option Number :=
  let s := Text.trim s
  match Text.readInt? s with
  | some n => some (.int n)
  | none => (Double.read? s).map .float

/-- The double nearest to a number. -/
def Number.toDouble : Number → Double
  | .int n => Double.ofInt n.toInt
  | .float x => x

/-- A number as a value. -/
def Number.toValue : Number → Value
  | .int n => .int n
  | .float x => .float x

namespace Value

/-- Whether the value is absent. -/
def isNull : Value → Bool
  | null => true
  | _ => false

/-- The name of a value's type in messages. -/
def typeName : Value → String
  | null => "None"
  | bool _ => "bool"
  | int _ => "int"
  | float _ => "float"
  | text _ => "str"
  | list _ => "list"

/-- Whether a value counts as true in a condition. -/
def isTruthy : Value → Bool
  | null => false
  | bool b => b
  | int n => n != 0
  | float x => !x.isZero
  | text s => !s.isEmpty
  | list items => !items.isEmpty

/-- The number that a value stands for. Truth values count as one and zero. -/
def toNumber? : Value → Option Number
  | null => none
  | bool b => some (.int (if b then 1 else 0))
  | int n => some (.int n)
  | float x => some (.float x)
  | text s => Number.read? s.toList
  | list _ => none

/-- A text inside a printed list: in single quotes, with a backslash before each
single quote of its own. -/
def quotedItem (s : String) : String :=
  String.ofList ('\'' :: Text.replace ['\''] ['\\', '\''] s.toList ++ ['\''])

mutual

/-- A value in print. -/
def display : Value → String
  | null => "None"
  | bool b => if b then "True" else "False"
  | int n => toString n.toInt
  | float x => x.text
  | text s => s
  | list items => "[" ++ String.intercalate ", " (displayItems items) ++ "]"

/-- The items of a list in print. -/
def displayItems : List Value → List String
  | [] => []
  | item :: items =>
    let shown :=
      match item with
      | text s => quotedItem s
      | other => display other
    shown :: displayItems items

end

/-- The text of a field in delimited output. The absent value is empty. -/
def toText : Value → String
  | null => ""
  | value => value.display

end Value
end TableQuery
