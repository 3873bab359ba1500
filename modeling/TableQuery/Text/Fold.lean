import TableQuery.Text.Blank

/-!
# Words in any letter case

Keywords of queries are words of capital ASCII letters that are recognised in any
letter case. Under simple case folding two characters beyond ASCII count as
letters of keywords too: the long s and the Kelvin sign.
-/

namespace TableQuery
namespace Text

/-- A letter of a keyword as a capital letter. -/
def foldToCapital (c : Char) : Char :=
  if c == 'ſ' then 'S' else if c == '\u212a' then 'K' else c.toUpper

/-- The text after the word `word` at the start of `s`. -/
def dropWord? : (word s : List Char) → Option (List Char)
  | [], s => some s
  | _ :: _, [] => none
  | w :: word, c :: s => if foldToCapital c == w then dropWord? word s else none

/-- The text after the spaces at the start of `s`, of which there is at least
one. -/
def dropSpaces? : List Char → Option (List Char)
  | ' ' :: s => some (s.dropWhile (· == ' '))
  | _ => none

/-- The text after words with spaces between them. -/
def dropWords? : (words : List (List Char)) → (s : List Char) → Option (List Char)
  | [], s => some s
  | [word], s => dropWord? word s
  | word :: next :: words, s => do
    let s ← dropSpaces? (← dropWord? word s)
    dropWords? (next :: words) s

/-- Whether a word that ends here is delimited: by a space or by the end of the
text. -/
def atDelimiter : List Char → Bool
  | [] => true
  | c :: _ => c == ' '

end Text
end TableQuery
