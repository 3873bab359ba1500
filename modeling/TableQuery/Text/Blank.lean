import TableQuery.Text.Search

/-!
# White space

The characters with the Unicode property `White_Space`. They separate words,
are trimmed from the ends of text, and are skipped between tokens.
-/

namespace TableQuery
namespace Text

/-- Whether a character lies in one of the given closed ranges of code points. -/
def inRanges (ranges : List (Nat × Nat)) (c : Char) : Bool :=
  ranges.any fun (first, last) => first ≤ c.toNat && c.toNat ≤ last

/-- The code points with the property `White_Space`. -/
def blankRanges : List (Nat × Nat) :=
  [(0x9, 0xd), (0x20, 0x20), (0x85, 0x85), (0xa0, 0xa0), (0x1680, 0x1680), (0x2000, 0x200a),
    (0x2028, 0x2029), (0x202f, 0x202f), (0x205f, 0x205f), (0x3000, 0x3000)]

/-- Whether a character is white space. -/
def isBlank (c : Char) : Bool :=
  inRanges blankRanges c

/-- The text without white space at its start. -/
def trimStart (s : List Char) : List Char :=
  s.dropWhile isBlank

/-- The text without white space at its end. -/
def trimEnd (s : List Char) : List Char :=
  trimEndBy isBlank s

/-- The text without white space at its ends. -/
def trim (s : List Char) : List Char :=
  trimBy isBlank s

/-- The words of `s` when the characters of `word`, latest first, precede it. -/
def wordsFrom (word : List Char) : List Char → List (List Char)
  | [] => if word.isEmpty then [] else [word.reverse]
  | c :: s =>
    if isBlank c then
      if word.isEmpty then wordsFrom [] s else word.reverse :: wordsFrom [] s
    else
      wordsFrom (c :: word) s

/-- The longest runs of characters that are not white space. -/
def words (s : List Char) : List (List Char) :=
  wordsFrom [] s

/-- The text with every run of white space replaced by one space. `inRun` says
whether the character before it was white space. -/
def collapseFrom (inRun : Bool) : List Char → List Char
  | [] => []
  | c :: s =>
    if isBlank c then
      if inRun then collapseFrom true s else ' ' :: collapseFrom true s
    else
      c :: collapseFrom false s

/-- The text with every run of white space replaced by one space. -/
def collapseBlanks (s : List Char) : List Char :=
  collapseFrom false s

end Text
end TableQuery
