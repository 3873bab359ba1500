import TableQuery.Expression.Operators
import TableQuery.Text.Case

/-!
# Built-in functions

The functions that every query may call. Arguments that are not given count as
absent; text arguments may be numbers and truth values, which are taken as they are
printed.
-/

namespace TableQuery

/-- A built-in function. -/
inductive Builtin where
  | int
  | float
  | str
  | bool
  | len
  | abs
  | round
  | min
  | max
  | lower
  | upper
  | strip
  | lstrip
  | rstrip
  | split
  | join
  | replace
  | startswith
  | endswith
  | find
  | like
  | coalesce
deriving DecidableEq

namespace Builtin

/-- All built-in functions. -/
def all : List Builtin :=
  [int, float, str, bool, len, abs, round, min, max, lower, upper, strip, lstrip, rstrip, split,
    join, replace, startswith, endswith, find, like, coalesce]

/-- The name of a function. -/
def name : Builtin → String
  | int => "int"
  | float => "float"
  | str => "str"
  | bool => "bool"
  | len => "len"
  | abs => "abs"
  | round => "round"
  | min => "min"
  | max => "max"
  | lower => "lower"
  | upper => "upper"
  | strip => "strip"
  | lstrip => "lstrip"
  | rstrip => "rstrip"
  | split => "split"
  | join => "join"
  | replace => "replace"
  | startswith => "startswith"
  | endswith => "endswith"
  | find => "find"
  | like => "like"
  | coalesce => "coalesce"

/-- The function with the given name. -/
def ofName? (name : String) : Option Builtin :=
  all.find? fun f => f.name == name

/-- The least and the greatest number of arguments; some functions have no
greatest. -/
def arity : Builtin → Nat × Option Nat
  | int | float | str | bool | len | abs | lower | upper => (1, some 1)
  | round | strip | lstrip | rstrip | split => (1, some 2)
  | join | startswith | endswith | find | like => (2, some 2)
  | replace => (3, some 3)
  | min | max | coalesce => (1, none)

/-- The number of arguments in words. -/
def arityText (f : Builtin) : String :=
  match f.arity with
  | (least, some greatest) =>
    if least = greatest then toString least else s!"{least} to {greatest}"
  | (least, none) => s!"at least {least}"

/-- Whether a function takes the given number of arguments. -/
def accepts (f : Builtin) (count : Nat) : Bool :=
  let (least, greatest) := f.arity
  least ≤ count && greatest.all (count ≤ ·)

/-- The error for an argument that a function cannot use. -/
def invalid {α : Type} (f : Builtin) (fault : ArgumentFault) : Except EvalError α :=
  .error (.invalidArgument f.name fault)

/-- An argument as text. -/
def textOf (f : Builtin) : Value → Except EvalError (List Char)
  | .text s => .ok s.toList
  | .null => invalid f (.notText Value.null.typeName)
  | .list items => invalid f (.notText (Value.list items).typeName)
  | value => .ok value.display.toList

/-- An argument as a number. -/
def numberOf (f : Builtin) (value : Value) : Except EvalError Number :=
  match value.toNumber? with
  | some n => .ok n
  | none => invalid f (.notNumber value.typeName value.display)

/-- The text result with the given characters. -/
def ofChars (s : List Char) : Value :=
  .text (String.ofList s)

/-- The integer part of a double. The first power of two beyond the range stands for
the greatest integer. -/
def truncated (f : Builtin) (x : Double) : Except EvalError Value :=
  let n := x.truncate
  let greatest := Int64.maxValue
  if x.isFinite ∧ Int64.minValue.toInt ≤ n ∧ n ≤ greatest.toInt + 1 then
    .ok (.int (if n = greatest.toInt + 1 then greatest else Int64.ofInt n))
  else
    invalid f (.notIntegral x)

/-- A value as an integer. -/
def toInteger (f : Builtin) : Value → Except EvalError Value
  | .int n => .ok (.int n)
  | .float x => truncated f x
  | .bool b => .ok (.int (if b then 1 else 0))
  | .text s =>
    match Number.read? s.toList with
    | some (.int n) => .ok (.int n)
    | some (.float x) => truncated f x
    | none => invalid f (.notInteger s)
  | value => invalid f (.unsupportedType value.typeName)

/-- A value as a double. -/
def toFloat (f : Builtin) (value : Value) : Except EvalError Value :=
  match value.toNumber?, value with
  | some n, _ => .ok (.float n.toDouble)
  | none, .text s => invalid f (.notFloat s)
  | none, value => invalid f (.unsupportedType value.typeName)

/-- The length of a text or list. -/
def lengthOf (f : Builtin) : Value → Except EvalError Value
  | .text s => .ok (.int (Int64.ofNat s.length))
  | .list items => .ok (.int (Int64.ofNat items.length))
  | value => invalid f (.noLength value.typeName)

/-- A number without its sign. -/
def magnitude (f : Builtin) (value : Value) : Except EvalError Value := do
  match ← numberOf f value with
  | .int n => Value.exactly n.toInt.natAbs
  | .float x => return .float x.abs

/-- The number of digits to round to, if it is given. -/
def digitsOf (f : Builtin) : Value → Except EvalError (Option Int)
  | .null => .ok none
  | value =>
    match value.toNumber? with
    | some (.int n) => .ok (some n.toInt)
    | _ => invalid f .digits

/-- A number rounded to a number of digits after the point. Without that number the
result is an integer. -/
def rounded (f : Builtin) (value digits : Value) : Except EvalError Value := do
  let number ← numberOf f value
  let digits ← digitsOf f digits
  match number, digits with
  | .int n, _ => return .int n
  | .float x, none => truncated f x.round
  | .float x, some d =>
    let factor := (Double.ofNat 10).pow (Max.max (-308) (Min.min d 308))
    return .float ((x.mul factor).round.div factor)

/-- The last of some values that comes in the given order before all earlier ones,
when `best` is the best of those before them. -/
def extremumFrom (f : Builtin) (keep : Ordering) (best : Value) :
    List Value → Except EvalError Value
  | [] => .ok best
  | item :: items => do
    let order ← Value.compareBy f.name item best
    extremumFrom f keep (if order = keep then item else best) items

/-- The least or greatest of the arguments, or of the items of a single list. -/
def extremum (f : Builtin) (keep : Ordering) (args : List Value) : Except EvalError Value :=
  let items :=
    match args with
    | [.list items] => items
    | _ => args
  match items with
  | [] => invalid f .emptySequence
  | first :: others => extremumFrom f keep first others

/-- Whether a character is to be stripped: white space, or one of the given
characters. -/
def strippable (f : Builtin) : Value → Except EvalError (Char → Bool)
  | .null => .ok Text.isBlank
  | value => do
    let chars ← textOf f value
    return chars.contains

/-- A text divided at white space or at a separator. -/
def parts (f : Builtin) (value separator : Value) : Except EvalError Value := do
  let s ← textOf f value
  match separator with
  | .null => return .list ((Text.words s).map ofChars)
  | separator =>
    let p ← textOf f separator
    if p.isEmpty then invalid f .emptySeparator
    else return .list ((Text.split p s).map ofChars)

/-- The items of a list with a separator between them. The two arguments may stand in
either order. -/
def joined (f : Builtin) (first second : Value) : Except EvalError Value :=
  let together := fun (items : List Value) (separator : Value) => do
    let p ← textOf f separator
    return ofChars (Text.joinWith p (items.map fun item => item.toText.toList))
  match first, second with
  | .list items, separator => together items separator
  | separator, .list items => together items separator
  | _, _ => invalid f .noList

/-- All ends of a text, the text itself first. -/
def suffixes : List Char → List (List Char)
  | [] => [[]]
  | c :: s => (c :: s) :: suffixes s

/-- Whether a text matches a pattern, in which `%` stands for any text and `_` for any
character. -/
def matchesPattern : (pattern s : List Char) → Bool
  | [], s => s.isEmpty
  | '%' :: pattern, s => (suffixes s).any (matchesPattern pattern)
  | '_' :: pattern, s =>
    match s with
    | [] => false
    | _ :: s => matchesPattern pattern s
  | p :: pattern, s =>
    match s with
    | [] => false
    | c :: s => c == p && matchesPattern pattern s

/-- Whether a text ends with another one. -/
def endsWith (suffix s : List Char) : Bool :=
  suffix.isSuffixOf s

/-- The result of a function for some arguments. -/
def apply (f : Builtin) (args : List Value) : Except EvalError Value :=
  let arg := fun (i : Nat) => args[i]?.getD .null
  match f with
  | int => toInteger f (arg 0)
  | float => toFloat f (arg 0)
  | str => .ok (.text (arg 0).display)
  | bool => .ok (.bool (arg 0).isTruthy)
  | len => lengthOf f (arg 0)
  | abs => magnitude f (arg 0)
  | round => rounded f (arg 0) (arg 1)
  | min => extremum f .lt args
  | max => extremum f .gt args
  | lower => (textOf f (arg 0)).map fun s => ofChars (Text.lower s)
  | upper => (textOf f (arg 0)).map fun s => ofChars (Text.upper s)
  | strip => do
    let s ← textOf f (arg 0)
    return ofChars (Text.trimBy (← strippable f (arg 1)) s)
  | lstrip => do
    let s ← textOf f (arg 0)
    return ofChars (s.dropWhile (← strippable f (arg 1)))
  | rstrip => do
    let s ← textOf f (arg 0)
    return ofChars (Text.trimEndBy (← strippable f (arg 1)) s)
  | split => parts f (arg 0) (arg 1)
  | join => joined f (arg 0) (arg 1)
  | replace => do
    let s ← textOf f (arg 0)
    let p ← textOf f (arg 1)
    return ofChars (Text.replace p (← textOf f (arg 2)) s)
  | startswith => do
    let s ← textOf f (arg 0)
    return .bool ((← textOf f (arg 1)).isPrefixOf s)
  | endswith => do
    let s ← textOf f (arg 0)
    return .bool (endsWith (← textOf f (arg 1)) s)
  | find => do
    let s ← textOf f (arg 0)
    match Text.find? (← textOf f (arg 1)) s with
    | some index => return .int (Int64.ofNat index)
    | none => return .int (-1)
  | like => do
    let s ← textOf f (arg 0)
    return .bool (matchesPattern (← textOf f (arg 1)) s)
  | coalesce => .ok ((args.find? fun v => !v.isNull).getD .null)

end Builtin
end TableQuery
