import Mathlib.Data.List.TakeWhile
import TableQuery.Expression.Fragment
import TableQuery.Proofs.Query.Pieces
import TableQuery.Query.Columns

/-!
# Spelling tokens

Tokens are spelled with a space between every two of them, and they are found again in the
text.  In a string literal the quotes and the backslashes of its content are escaped, so
that the literal ends at its last quote whatever its content is.
-/

namespace TableQuery
namespace Token

/-! ## String literals -/

/-- A character inside of single quotes. -/
def escapedChar (c : Char) : List Char :=
  if c == '\\' || c == '\'' then ['\\', c] else [c]

/-- A text inside of single quotes. -/
def escaped (s : List Char) : List Char :=
  s.flatMap escapedChar

/-- A text as a string literal between single quotes. -/
def literal (s : List Char) : List Char :=
  '\'' :: (escaped s ++ ['\''])

@[simp] theorem escaped_nil : escaped [] = [] :=
  rfl

@[simp] theorem escaped_cons (c : Char) (s : List Char) :
    escaped (c :: s) = escapedChar c ++ escaped s :=
  List.flatMap_cons

@[simp] theorem escaped_append (s t : List Char) : escaped (s ++ t) = escaped s ++ escaped t :=
  List.flatMap_append

theorem escapedChar_of_ne {c : Char} (hslash : c ≠ '\\') (hquote : c ≠ '\'') :
    escapedChar c = [c] := by
  simp [escapedChar, hslash, hquote]

/-- Reading passes over one character of the content at a time. -/
theorem readString?_escapedChar (c : Char) (s : List Char) :
    readString? '\'' (escapedChar c ++ s) =
      (readString? '\'' s).map fun (content, count) =>
        (c :: content, count + (escapedChar c).length) := by
  by_cases hslash : c = '\\'
  · subst hslash
    exact readString?_escape (by decide) (by decide) '\\' s
  by_cases hquote : c = '\''
  · subst hquote
    exact readString?_escape (by decide) (by decide) '\'' s
  rw [escapedChar_of_ne hslash hquote, List.singleton_append,
    readString?_char (by simpa using hquote) (by simpa using hslash)]
  rfl

/-- A literal is read up to its closing quote, whatever follows it. -/
theorem readString?_escaped_append (s rest : List Char) :
    readString? '\'' (escaped s ++ '\'' :: rest) = some (s, (escaped s).length + 1) := by
  induction s with
  | nil => exact readString?_close (by decide) rest
  | cons c s ih =>
    rw [escaped_cons, List.append_assoc, readString?_escapedChar, ih, Option.map_some,
      List.length_append]
    simp only [Option.some.injEq, Prod.mk.injEq, true_and]
    omega

theorem readString?_escaped_eq_none (s : List Char) : readString? '\'' (escaped s) = none := by
  induction s with
  | nil => exact readString?.eq_1 '\''
  | cons c s ih => rw [escaped_cons, readString?_escapedChar, ih, Option.map_none]

/-! ## Spellings -/

/-- A word that stands for itself as a name. -/
def IsName (s : String) : Prop :=
  ColumnMap.isIdentifier s.toList = true ∧ Keyword.ofWord? s.toList = none

instance (s : String) : Decidable (IsName s) :=
  inferInstanceAs (Decidable (_ ∧ _))

/-- A token as it is written. -/
def spelling : Token → List Char
  | int n => (toString n.toInt).toList
  | float x => x.text.toList
  | text s => literal s.toList
  | name s => s.toList
  | keyword k => k.spelling.toList
  | symbol s => s.spelling.toList
  | fault _ => []
  | finish => []

/-- A token that is read back from its spelling. -/
def IsSpellable : Token → Prop
  | int n => 0 ≤ n.toInt
  | name s => IsName s
  | text _ | keyword _ | symbol _ => True
  | float _ | fault _ | finish => False

/-- Tokens that are read back from their spellings. -/
def AreSpellable (tokens : List Token) : Prop :=
  ∀ t ∈ tokens, t.IsSpellable

@[simp] theorem areSpellable_nil : AreSpellable [] :=
  nofun

@[simp] theorem areSpellable_cons {t : Token} {tokens : List Token} :
    AreSpellable (t :: tokens) ↔ t.IsSpellable ∧ AreSpellable tokens :=
  List.forall_mem_cons

@[simp] theorem areSpellable_append {tokens tokens' : List Token} :
    AreSpellable (tokens ++ tokens') ↔ AreSpellable tokens ∧ AreSpellable tokens' :=
  List.forall_mem_append

@[simp] theorem isSpellable_keyword (k : Keyword) : (keyword k).IsSpellable :=
  trivial

@[simp] theorem isSpellable_symbol (s : Symbol) : (symbol s).IsSpellable :=
  trivial

/-- Tokens with a space between every two of them. -/
def spaced (tokens : List Token) : List Char :=
  Text.joinWith [' '] (tokens.map spelling)

/-- A token that is found at the front of its spelling, whatever follows a break behind
it. -/
def IsReadBack (t : Token) : Prop :=
  ∃ c s, t.spelling = c :: s ∧ Text.isBlank c = false ∧
    ∀ r, StartsAtBreak r → read c (s ++ r) = (t, s.length)

theorem isReadBack_of_read {t : Token} {c : Char} {s : List Char} (hspelling : t.spelling = c :: s)
    (hblank : Text.isBlank c = false) (hquote : isQuote c = false)
    (hread : read c s = (t, s.length)) : t.IsReadBack :=
  ⟨c, s, hspelling, hblank, fun _ hr => (read_append hquote hr s).trans hread⟩

theorem isReadBack_keyword (k : Keyword) : (keyword k).IsReadBack := by
  cases k <;> exact isReadBack_of_read rfl (by decide) (by decide) (by decide)

theorem isReadBack_symbol (s : Symbol) : (symbol s).IsReadBack := by
  cases s <;> exact isReadBack_of_read rfl (by decide) (by decide) (by decide)

theorem isReadBack_text (s : String) : (text s).IsReadBack := by
  refine ⟨'\'', escaped s.toList ++ ['\''], rfl, by decide, fun r _ => ?_⟩
  have hread := readString?_escaped_append s.toList r
  rw [List.append_assoc, List.singleton_append, read, if_pos (by decide), hread]
  simp

theorem isQuote_of_isNamePart {c : Char} (h : isNamePart c) : isQuote c = false := by
  rw [← Bool.not_eq_true]
  intro hquote
  rw [isNamePart_of_isBreak (isBreak_of_isQuote hquote)] at h
  cases h

theorem isBlank_of_isNamePart {c : Char} (h : isNamePart c) : Text.isBlank c = false := by
  rw [← Bool.not_eq_true]
  intro hblank
  rw [isNamePart_of_isBreak (isBreak_of_isBlank hblank)] at h
  cases h

theorem isNamePart_of_isNameStart {c : Char} (h : isNameStart c) : isNamePart c := by
  simp only [isNameStart, isNamePart, Char.isAlphanum, Bool.or_eq_true] at h ⊢
  obtain h | h := h
  · exact .inl (.inl h)
  · exact .inr h

theorem isDigit_of_isNameStart {c : Char} (h : isNameStart c) : c.isDigit = false := by
  have hupper : c.isUpper → 65 ≤ c.toNat := fun h => (of_decide_eq_true h).1
  have hlower : c.isLower → 97 ≤ c.toNat := fun h =>
    UInt32.le_iff_toNat_le.mp (of_decide_eq_true (Bool.and_eq_true_iff.mp h).1)
  have hrange : 65 ≤ c.toNat := by
    rw [isNameStart, Bool.or_eq_true, beq_iff_eq] at h
    obtain h | rfl := h
    · obtain h | h := Bool.or_eq_true_iff.mp h
      · exact hupper h
      · exact Nat.le_trans (by decide) (hlower h)
    · decide
  rw [← Bool.not_eq_true]
  intro hdigit
  have hle : c.toNat ≤ 57 := (Char.isDigit_iff_toNat.mp hdigit).2
  omega

theorem isReadBack_name {s : String} (h : IsName s) : (name s).IsReadBack := by
  obtain ⟨hshape, hword⟩ := h
  cases hchars : s.toList with
  | nil =>
    rw [hchars] at hshape
    cases hshape
  | cons c rest =>
    rw [hchars] at hshape hword
    obtain ⟨hstart, hrest⟩ := Bool.and_eq_true_iff.mp hshape
    have hpart := isNamePart_of_isNameStart hstart
    have hfraction : startsFraction (c :: rest) = false := by
      have hne : c ≠ '.' := by
        rintro rfl
        revert hstart
        decide
      simp [startsFraction, hne]
    have htake : rest.takeWhile isNamePart = rest :=
      List.takeWhile_eq_self_iff.mpr (List.all_eq_true.mp hrest)
    have hname : String.ofList (c :: rest) = s := by rw [← hchars, String.ofList_toList]
    refine isReadBack_of_read hchars (isBlank_of_isNamePart hpart) (isQuote_of_isNamePart hpart) ?_
    rw [read_of_not_isQuote (isQuote_of_isNamePart hpart), isDigit_of_isNameStart hstart,
      hfraction]
    simp only [Bool.or_self, Bool.false_eq_true, if_false, hstart, if_true, readWord, htake, hword,
      hname]

/-! ## Numbers -/

theorem numberParts_toDigits (n : Nat) :
    numberParts (Nat.toDigits 10 n) = ⟨Nat.toDigits 10 n, [], [], [], []⟩ := by
  have htake : (Nat.toDigits 10 n).takeWhile Char.isDigit = Nat.toDigits 10 n :=
    List.takeWhile_eq_self_iff.mpr fun _ => isDigit_of_mem_toDigits
  simp [numberParts, htake, takeFraction, startsFraction, takeMark, takePowerSign, takePower]

theorem token_numberParts_toDigits {n : Nat} (h : n ≤ Int64.maxValue.toInt) :
    (numberParts (Nat.toDigits 10 n)).token = int (Int64.ofInt n) := by
  have hsign : Double.takeSign (Nat.toDigits 10 n) = (false, Nat.toDigits 10 n) := by
    unfold Double.takeSign
    split
    · next heq => exact absurd (isDigit_of_mem_toDigits (heq ▸ List.mem_cons_self)) (by decide)
    · next heq => exact absurd (isDigit_of_mem_toDigits (heq ▸ List.mem_cons_self)) (by decide)
    · rfl
  have hread : Text.readInt? (Nat.toDigits 10 n) = some (Int64.ofInt n) := by
    simp [Text.readInt?, hsign, readDigits?_toDigits, int64?, h]
  simp [numberParts_toDigits, NumberParts.token, NumberParts.lexeme, hread]

theorem isReadBack_int {n : Int64} (h : 0 ≤ n.toInt) : (int n).IsReadBack := by
  obtain ⟨m, hm⟩ := Int.eq_ofNat_of_zero_le h
  have hspelling : (int n).spelling = Nat.toDigits 10 m := by
    rw [spelling, hm]
    exact Nat.toList_repr
  have htoken : (numberParts (Nat.toDigits 10 m)).token = int n := by
    rw [token_numberParts_toDigits (hm ▸ Int64.toInt_le n), ← hm, Int64.ofInt_toInt]
  have hlexeme : (numberParts (Nat.toDigits 10 m)).lexeme = Nat.toDigits 10 m := by
    simp [numberParts_toDigits, NumberParts.lexeme]
  cases hdigits : Nat.toDigits 10 m with
  | nil => exact absurd hdigits Nat.toDigits_ne_nil
  | cons c s =>
    have hc : c.isDigit = true := isDigit_of_mem_toDigits (hdigits ▸ List.mem_cons_self)
    have hpart : isNamePart c := by simp [isNamePart, Char.isAlphanum, hc]
    rw [hdigits] at htoken hlexeme
    refine isReadBack_of_read (hspelling.trans hdigits) (isBlank_of_isNamePart hpart)
      (isQuote_of_isNamePart hpart) ?_
    rw [read_of_not_isQuote (isQuote_of_isNamePart hpart), hc, Bool.true_or, if_pos rfl,
      readNumber_eq, htoken, hlexeme]
    rfl

/-! ## Texts -/

theorem isReadBack_of_isSpellable {t : Token} (h : t.IsSpellable) : t.IsReadBack := by
  cases t with
  | int n => exact isReadBack_int h
  | text s => exact isReadBack_text s
  | name s => exact isReadBack_name h
  | keyword k => exact isReadBack_keyword k
  | symbol s => exact isReadBack_symbol s
  | float x => cases h
  | fault f => cases h
  | finish => cases h

/-- Spaced tokens are found again in their text. -/
theorem kinds_spaced {tokens : List Token} (h : AreSpellable tokens) :
    kinds (spaced tokens) = tokens := by
  induction tokens with
  | nil => exact kinds_nil
  | cons t tokens ih =>
    obtain ⟨ht, htokens⟩ := areSpellable_cons.mp h
    obtain ⟨c, s, hspelling, hblank, hread⟩ := isReadBack_of_isSpellable ht
    cases tokens with
    | nil =>
      have hlast := hread [] nofun
      rw [List.append_nil] at hlast
      rw [spaced, List.map_singleton, Text.joinWith, hspelling, kinds_cons hblank, hlast,
        List.drop_length, kinds_nil]
    | cons next tokens =>
      -- The space is the break that a token needs behind it to be read in full.
      have hbreak : StartsAtBreak (' ' :: spaced (next :: tokens)) :=
        startsAtBreak_cons (by decide) _
      have hjoin : spaced (t :: next :: tokens) = c :: (s ++ ' ' :: spaced (next :: tokens)) := by
        simp [spaced, Text.joinWith, hspelling]
      rw [hjoin, kinds_cons hblank, hread _ hbreak, List.drop_left,
        kinds_cons_of_isBlank (by decide), ih htokens]

theorem getLast?_map_token_lexFrom (position : Nat) (s : List Char) :
    ((lexFrom position s).map PlacedToken.token).getLast? = some finish := by
  fun_induction lexFrom position s with
  | case1 position => rfl
  | case2 position c s hblank ih => exact ih
  | case3 position c s hblank token count hread stop ih =>
    rw [List.map_cons, List.getLast?_cons, ih]
    rfl

/-- The tokens of a text are those of its kinds, and the end of the text. -/
theorem map_token_lex (s : List Char) : (lex s).map PlacedToken.token = kinds s ++ [finish] := by
  obtain ⟨front, hfront⟩ := List.getLast?_eq_some_iff.mp (getLast?_map_token_lexFrom 0 s)
  rw [kinds, lex, hfront, List.dropLast_concat]

/-- Spaced tokens are a text without faults. -/
theorem tokens_spaced {tokens : List Token} (h : AreSpellable tokens) :
    Parser.tokens (spaced tokens) = .ok (lex (spaced tokens)) ∧
      (lex (spaced tokens)).map PlacedToken.token = tokens ++ [finish] := by
  have hplaced : (lex (spaced tokens)).map PlacedToken.token = tokens ++ [finish] := by
    rw [map_token_lex, kinds_spaced h]
  refine ⟨?_, hplaced⟩
  have hfaults : ∀ t ∈ lex (spaced tokens), ∀ f, t.token ≠ fault f := by
    intro t ht f hfault
    have hmem : t.token ∈ tokens ++ [finish] := hplaced ▸ List.mem_map_of_mem ht
    rw [hfault, List.mem_append, List.mem_singleton] at hmem
    obtain hmem | hmem := hmem
    · exact h _ hmem
    · cases hmem
  rw [Parser.tokens, List.filterMap_eq_nil_iff.mpr]
  intro t ht
  split
  · next f hfault => exact absurd hfault (hfaults t ht f)
  · rfl

end Token
end TableQuery
