import TableQuery.Expression.Lexer

/-!
# Where tokens end

White space, quotes, semicolons and number signs are no part of any token that begins
before them, string literals apart.  Hence a token is read alike whatever follows such a
character, and a text can be divided into tokens part by part.
-/

namespace TableQuery
namespace Token

/-! ## Breaks -/

/-- Whether a character is no part of a token that begins before it and is no string
literal. -/
def isBreak (c : Char) : Bool :=
  Text.isBlank c || isQuote c || c == ';' || c == '#'

/-- A text that is empty or begins with a break. -/
def StartsAtBreak (s : List Char) : Prop :=
  ∀ c ∈ s.head?, isBreak c

theorem startsAtBreak_cons {c : Char} (h : isBreak c) (s : List Char) :
    StartsAtBreak (c :: s) := by
  rintro _ ⟨⟩
  exact h

theorem isBlank_of_isQuote {c : Char} (h : isQuote c) : Text.isBlank c = false := by
  simp only [isQuote, Bool.or_eq_true, beq_iff_eq] at h
  obtain (rfl | rfl) | rfl := h <;> decide

theorem isQuote_of_not_isBreak {c : Char} (h : isBreak c = false) : isQuote c = false := by
  simp only [isBreak, Bool.or_eq_false_iff] at h
  exact h.1.1.2

theorem isBreak_of_isQuote {c : Char} (h : isQuote c) : isBreak c := by
  simp [isBreak, h]

theorem isBreak_of_isBlank {c : Char} (h : Text.isBlank c) : isBreak c := by
  simp [isBreak, h]

/-- The code points of letters, digits and the underscore. -/
theorem toNat_of_isNamePart {c : Char} (h : isNamePart c) :
    48 ≤ c.toNat ∧ c.toNat ≤ 57 ∨ 65 ≤ c.toNat ∧ c.toNat ≤ 90 ∨ c.toNat = 95 ∨
      97 ≤ c.toNat ∧ c.toNat ≤ 122 := by
  change ((decide (65 ≤ c.val ∧ c.val ≤ 90) || 97 ≤ c.val && c.val ≤ 122) ||
    48 ≤ c.val && c.val ≤ 57) || c == '_' at h
  simp only [Bool.or_eq_true, Bool.and_eq_true, decide_eq_true_eq, beq_iff_eq,
    UInt32.le_iff_toNat_le] at h
  change ((65 ≤ c.toNat ∧ c.toNat ≤ 90 ∨ 97 ≤ c.toNat ∧ c.toNat ≤ 122) ∨
    48 ≤ c.toNat ∧ c.toNat ≤ 57) ∨ c = '_' at h
  obtain ((h | h) | h) | rfl := h
  · omega
  · omega
  · omega
  · decide

theorem isNamePart_of_isBreak {c : Char} (h : isBreak c) : isNamePart c = false := by
  rw [← Bool.not_eq_true]
  intro hname
  have hrange := toNat_of_isNamePart hname
  simp only [isBreak, isQuote, Bool.or_eq_true, beq_iff_eq] at h
  obtain ((hblank | (rfl | rfl) | rfl) | rfl) | rfl := h
  · simp [Text.isBlank, Text.blankRanges, Text.inRanges] at hblank
    omega
  all_goals
    revert hrange
    decide

theorem isDigit_of_isBreak {c : Char} (h : isBreak c) : c.isDigit = false := by
  have hname := isNamePart_of_isBreak h
  simp only [isNamePart, Char.isAlphanum, Bool.or_eq_false_iff] at hname
  exact hname.1.2

theorem isBlank_of_isDigit {c : Char} (h : c.isDigit) : Text.isBlank c = false := by
  rw [← Bool.not_eq_true]
  intro hblank
  rw [isDigit_of_isBreak (isBreak_of_isBlank hblank)] at h
  cases h

theorem doubleSymbol?_of_isBreak (c : Char) {d : Char} (h : isBreak d) :
    doubleSymbol? c d = none := by
  unfold doubleSymbol?
  split <;> first | rfl | exact absurd h (by decide)

variable {r : List Char}

/-- Taking characters of which none is a break stops at a break. -/
theorem takeWhile_append_of_startsAtBreak {p : Char → Bool}
    (hp : ∀ c, isBreak c → p c = false) (hr : StartsAtBreak r) (s : List Char) :
    (s ++ r).takeWhile p = s.takeWhile p := by
  induction s with
  | nil =>
    cases r with
    | nil => rfl
    | cons c r =>
      have hc := hp c (hr c rfl)
      simp [hc]
  | cons c s ih =>
    rw [List.cons_append, List.takeWhile_cons, List.takeWhile_cons, ih]

theorem head?_append_beq_of_startsAtBreak {c : Char} (hc : isBreak c = false)
    (hr : StartsAtBreak r) (s : List Char) :
    ((s ++ r).head? == some c) = (s.head? == some c) := by
  cases s with
  | cons d s => rfl
  | nil =>
    cases r with
    | nil => rfl
    | cons d r =>
      have hne : d ≠ c := by
        rintro rfl
        simp [hr d rfl] at hc
      simpa using hne

theorem startsFraction_append (hr : StartsAtBreak r) (s : List Char) :
    startsFraction (s ++ r) = startsFraction s := by
  match s with
  | [] =>
    cases r with
    | nil => rfl
    | cons d r =>
      have hne : d ≠ '.' := by
        rintro rfl
        exact absurd (hr '.' rfl) (by decide)
      simp [startsFraction, hne]
  | [c] =>
    cases r with
    | nil => rfl
    | cons d r =>
      have hd := isDigit_of_isBreak (hr d rfl)
      by_cases hc : c = '.'
      · simp [startsFraction, hc, hd]
      · simp [startsFraction, hc]
  | c :: d :: s =>
    by_cases hc : c = '.'
    · simp [startsFraction, hc]
    · simp [startsFraction, hc]

/-! ## Reading from the front of a text -/

/-- A reader of characters from the front of a text that does not look past a break. -/
structure StopsAtBreak (read : List Char → List Char) : Prop where
  length_le : ∀ s, (read s).length ≤ s.length
  append : ∀ {r}, StartsAtBreak r → ∀ s, read (s ++ r) = read s

theorem StopsAtBreak.drop_append {read : List Char → List Char} (h : StopsAtBreak read)
    (s : List Char) : (s ++ r).drop (read s).length = s.drop (read s).length ++ r :=
  List.drop_append_of_le_length (h.length_le s)

theorem StopsAtBreak.length_add {read : List Char → List Char} (h : StopsAtBreak read)
    (s : List Char) : (read s).length + (s.drop (read s).length).length = s.length := by
  rw [List.length_drop]
  exact Nat.add_sub_cancel' (h.length_le s)

theorem stopsAtBreak_takeWhile {p : Char → Bool} (hp : ∀ c, isBreak c → p c = false) :
    StopsAtBreak (List.takeWhile p) where
  length_le _ := (List.takeWhile_sublist p).length_le
  append hr := takeWhile_append_of_startsAtBreak hp hr

/-! ## Numbers -/

theorem isDigit_of_mem_toDigits {n : Nat} {c : Char} (hc : c ∈ Nat.toDigits 10 n) :
    c.isDigit = true :=
  Nat.isDigit_of_mem_toDigits (by decide) (by decide) hc

theorem readDigits?_toDigits (n : Nat) : Text.readDigits? (Nat.toDigits 10 n) = some n := by
  have hvalue : Double.digitsValue (Nat.toDigits 10 n) = n :=
    Nat.ofDigitChars_toDigits (by decide) (by decide)
  have hdigits : ∀ c ∈ Nat.toDigits 10 n, c.isDigit = true := fun _ => isDigit_of_mem_toDigits
  rw [Text.readDigits?, if_neg, hvalue]
  simpa [Nat.toDigits_ne_nil] using hdigits

/-- The fraction at the front of a text, with its point. -/
def takeFraction (s : List Char) : List Char :=
  if startsFraction s then '.' :: (s.drop 1).takeWhile Char.isDigit else []

/-- The mark of a power of ten at the front of a text. -/
def takeMark (s : List Char) : List Char :=
  s.take (if s.head? == some 'e' || s.head? == some 'E' then 1 else 0)

/-- The sign of a power of ten at the front of a text, behind its mark. -/
def takePowerSign (mark s : List Char) : List Char :=
  s.take (if !mark.isEmpty && (s.head? == some '+' || s.head? == some '-') then 1 else 0)

/-- The digits of a power of ten at the front of a text, behind its mark. -/
def takePower (mark s : List Char) : List Char :=
  if mark.isEmpty then [] else s.takeWhile Char.isDigit

theorem stopsAtBreak_takeFraction : StopsAtBreak takeFraction where
  length_le s := by
    unfold takeFraction
    split
    · next h =>
      cases s with
      | nil => cases h
      | cons c rest => exact Nat.succ_le_succ (List.takeWhile_sublist _).length_le
    · exact Nat.zero_le _
  append hr s := by
    unfold takeFraction
    rw [startsFraction_append hr]
    split
    · next h =>
      cases s with
      | nil => cases h
      | cons c s =>
        rw [List.cons_append, List.drop_one, List.tail_cons, List.drop_one, List.tail_cons,
          takeWhile_append_of_startsAtBreak (fun _ => isDigit_of_isBreak) hr]
    · rfl

theorem stopsAtBreak_takeMark : StopsAtBreak takeMark where
  length_le s := List.length_take_le' _ s
  append hr s := by
    unfold takeMark
    rw [head?_append_beq_of_startsAtBreak (by decide) hr,
      head?_append_beq_of_startsAtBreak (by decide) hr]
    cases s with
    | nil => simp
    | cons c s => split <;> simp

theorem stopsAtBreak_takePowerSign (mark : List Char) : StopsAtBreak (takePowerSign mark) where
  length_le s := List.length_take_le' _ s
  append hr s := by
    unfold takePowerSign
    rw [head?_append_beq_of_startsAtBreak (by decide) hr,
      head?_append_beq_of_startsAtBreak (by decide) hr]
    cases s with
    | nil => simp
    | cons c s => split <;> simp

theorem stopsAtBreak_takePower (mark : List Char) : StopsAtBreak (takePower mark) := by
  cases mark with
  | nil => exact ⟨fun s => Nat.zero_le _, fun _ _ => rfl⟩
  | cons c mark => exact stopsAtBreak_takeWhile fun _ => isDigit_of_isBreak

/-- The parts of a number, from front to back. -/
structure NumberParts where
  whole : List Char
  fraction : List Char
  mark : List Char
  sign : List Char
  power : List Char

/-- The parts of the number at the front of a text. -/
def numberParts (s : List Char) : NumberParts :=
  let whole := s.takeWhile Char.isDigit
  let s := s.drop whole.length
  let fraction := takeFraction s
  let s := s.drop fraction.length
  let mark := takeMark s
  let s := s.drop mark.length
  let sign := takePowerSign mark s
  let s := s.drop sign.length
  ⟨whole, fraction, mark, sign, takePower mark s⟩

/-- A number as it is written. -/
def NumberParts.lexeme (parts : NumberParts) : List Char :=
  parts.whole ++ parts.fraction ++ parts.mark ++ parts.sign ++ parts.power

/-- The token that a number is. -/
def NumberParts.token (parts : NumberParts) : Token :=
  if !parts.mark.isEmpty && parts.power.isEmpty then
    fault .invalidNumber
  else
    let whole? :=
      if parts.fraction.isEmpty && parts.mark.isEmpty then Text.readInt? parts.lexeme else none
    match whole?, Double.read? parts.lexeme with
    | some n, _ => int n
    | none, some x => float x
    | none, none => fault .invalidNumber

/-- A number is read off its parts. -/
theorem readNumber_eq (c : Char) (s : List Char) :
    readNumber c s =
      ((numberParts (c :: s)).token, (numberParts (c :: s)).lexeme.length - 1) := by
  unfold readNumber
  rfl

theorem numberParts_append (hr : StartsAtBreak r) (s : List Char) :
    numberParts (s ++ r) = numberParts s := by
  have hdigits := stopsAtBreak_takeWhile fun c => isDigit_of_isBreak (c := c)
  simp only [numberParts, hdigits.append hr, hdigits.drop_append,
    stopsAtBreak_takeFraction.append hr, stopsAtBreak_takeFraction.drop_append,
    stopsAtBreak_takeMark.append hr, stopsAtBreak_takeMark.drop_append,
    (stopsAtBreak_takePowerSign _).append hr, (stopsAtBreak_takePowerSign _).drop_append,
    (stopsAtBreak_takePower _).append hr]

theorem length_lexeme_numberParts_le (s : List Char) :
    (numberParts s).lexeme.length ≤ s.length := by
  have hdigits := stopsAtBreak_takeWhile fun c => isDigit_of_isBreak (c := c)
  simp only [NumberParts.lexeme, numberParts, List.length_append]
  have hwhole := hdigits.length_add s
  generalize s.drop (s.takeWhile Char.isDigit).length = afterWhole at *
  have hfraction := stopsAtBreak_takeFraction.length_add afterWhole
  generalize afterWhole.drop (takeFraction afterWhole).length = afterFraction at *
  have hmark := stopsAtBreak_takeMark.length_add afterFraction
  generalize afterFraction.drop (takeMark afterFraction).length = afterMark at *
  have hsign := (stopsAtBreak_takePowerSign (takeMark afterFraction)).length_add afterMark
  generalize afterMark.drop (takePowerSign (takeMark afterFraction) afterMark).length =
    afterSign at *
  have hpower := (stopsAtBreak_takePower (takeMark afterFraction)).length_le afterSign
  omega

/-! ## Tokens -/

/-- A character that is no quote begins a number, a word or a symbol. -/
theorem read_of_not_isQuote {c : Char} (hc : isQuote c = false) (s : List Char) :
    read c s =
      if c.isDigit || startsFraction (c :: s) then readNumber c s
      else if isNameStart c then readWord c s
      else readSymbol c s := by
  rw [read, if_neg (by simp [hc])]

/-- A token that is no string literal is read alike whatever follows a break behind it. -/
theorem read_append {c : Char} (hc : isQuote c = false) (hr : StartsAtBreak r)
    (s : List Char) : read c (s ++ r) = read c s := by
  have hfraction : startsFraction (c :: (s ++ r)) = startsFraction (c :: s) :=
    startsFraction_append hr (c :: s)
  have hnumber : readNumber c (s ++ r) = readNumber c s := by
    rw [readNumber_eq, readNumber_eq, ← List.cons_append, numberParts_append hr]
  have hword : readWord c (s ++ r) = readWord c s := by
    rw [readWord, takeWhile_append_of_startsAtBreak (fun _ => isNamePart_of_isBreak) hr]
    rfl
  have hsymbol : readSymbol c (s ++ r) = readSymbol c s := by
    cases s with
    | cons d s => rfl
    | nil =>
      cases r with
      | nil => rfl
      | cons d r => simp [readSymbol, doubleSymbol?_of_isBreak c (hr d rfl)]
  rw [read_of_not_isQuote hc, read_of_not_isQuote hc, hfraction, hnumber, hword, hsymbol]

theorem readSymbol_count_le (c : Char) (s : List Char) : (readSymbol c s).2 ≤ s.length := by
  cases s with
  | nil =>
    rw [readSymbol]
    split <;> simp_all
  | cons d s =>
    rw [readSymbol]
    split <;> simp

/-- A token that is no string literal is part of its text. -/
theorem read_count_le {c : Char} (hc : isQuote c = false) (s : List Char) :
    (read c s).2 ≤ s.length := by
  rw [read_of_not_isQuote hc]
  split
  · rw [readNumber_eq]
    exact Nat.sub_le_of_le_add (length_lexeme_numberParts_le (c :: s))
  · split
    · exact (List.takeWhile_sublist _).length_le
    · exact readSymbol_count_le c s

/-- A text goes up to its first break. -/
theorem exists_append_startsAtBreak (s : List Char) :
    ∃ front rest, s = front ++ rest ∧ (∀ d ∈ front, isBreak d = false) ∧
      StartsAtBreak rest := by
  refine ⟨s.takeWhile fun d => !isBreak d, s.dropWhile fun d => !isBreak d,
    List.takeWhile_append_dropWhile.symm, fun d hd => ?_, fun d hd => ?_⟩
  · have hall := List.all_takeWhile (p := fun d => !isBreak d) (l := s)
    simpa using List.all_eq_true.mp hall d hd
  · have hhead := List.head?_dropWhile_not (fun d => !isBreak d) s
    rw [Option.mem_def.mp hd] at hhead
    simpa using hhead

/-- A token that is no string literal takes characters from the front of its text, none of
which is a break. -/
theorem exists_append_of_read {c : Char} (hc : isQuote c = false) (s : List Char) :
    ∃ taken rest, s = taken ++ rest ∧ (read c s).2 = taken.length ∧
      ∀ d ∈ taken, isBreak d = false := by
  obtain ⟨front, rest, rfl, hfront, hrest⟩ := exists_append_startsAtBreak s
  have hcount := read_count_le hc front
  refine ⟨front.take (read c front).2, front.drop (read c front).2 ++ rest, ?_, ?_, ?_⟩
  · rw [← List.append_assoc, List.take_append_drop]
  · rw [read_append hc hrest, List.length_take_of_le hcount]
  · exact fun d hd => hfront d (List.mem_of_mem_take hd)

/-- Only string literals lack an end. -/
theorem read_ne_unterminatedString {c : Char} (hc : isQuote c = false) (s : List Char) :
    (read c s).1 ≠ fault .unterminatedString := by
  rw [read_of_not_isQuote hc]
  split
  · simp only [readNumber_eq, NumberParts.token]
    split
    · simp
    · split <;> simp
  · split
    · simp only [readWord]
      split <;> simp
    · simp only [readSymbol]
      split <;> simp

/-- A break that is no quote is read as a symbol, whatever follows it. -/
theorem read_of_isBreak {c : Char} (hbreak : isBreak c) (hc : isQuote c = false)
    (s : List Char) : read c s = readSymbol c [] := by
  have hname := isNamePart_of_isBreak hbreak
  have hfraction : startsFraction (c :: s) = false :=
    (startsFraction_append (startsAtBreak_cons hbreak s) []).trans rfl
  have hstart : isNameStart c = false := by
    simp only [isNamePart, Char.isAlphanum, Bool.or_eq_false_iff] at hname
    rw [isNameStart, hname.1.1, hname.2]
    rfl
  have hdouble : ∀ d, doubleSymbol? c d = none := by
    intro d
    unfold doubleSymbol?
    split <;> first | rfl | exact absurd hbreak (by decide)
  rw [read_of_not_isQuote hc, isDigit_of_isBreak hbreak, hfraction, hstart]
  cases s with
  | nil => rfl
  | cons d s => simp [readSymbol, hdouble]

/-- Only a semicolon is read as one. -/
theorem eq_of_read_eq_semicolon {c : Char} (hc : isQuote c = false) {s : List Char}
    (h : (read c s).1 = symbol .semicolon) : c = ';' := by
  rw [read_of_not_isQuote hc] at h
  split at h
  · simp only [readNumber_eq, NumberParts.token] at h
    split at h
    · cases h
    · split at h <;> cases h
  · split at h
    · simp only [readWord] at h
      split at h <;> cases h
    · simp only [readSymbol] at h
      split at h
      · next two _ hdouble =>
        obtain ⟨d, -, hdouble⟩ := Option.bind_eq_some_iff.mp hdouble
        cases h
        unfold doubleSymbol? at hdouble
        split at hdouble <;> cases hdouble
      · next one _ hsingle =>
        cases h
        unfold singleSymbol? at hsingle
        split at hsingle <;> first | rfl | cases hsingle
      · cases h

/-! ## String literals -/

theorem readString?_close {quote c : Char} (hquote : c == quote) (s : List Char) :
    readString? quote (c :: s) = some ([], 1) := by
  rw [readString?.eq_def]
  simp [hquote]

theorem readString?_escape {quote c : Char} (hquote : ¬(c == quote)) (hescape : c == '\\')
    (d : Char) (s : List Char) :
    readString? quote (c :: d :: s) =
      (readString? quote s).map fun (content, count) => (unescape d ++ content, count + 2) := by
  rw [readString?.eq_def]
  simp [hquote, hescape]

theorem readString?_char {quote c : Char} (hquote : ¬(c == quote)) (hescape : ¬(c == '\\'))
    (s : List Char) :
    readString? quote (c :: s) =
      (readString? quote s).map fun (content, count) => (c :: content, count + 1) := by
  rw [readString?.eq_def]
  simp [hquote, hescape]

/-- A string literal is read off its own characters, whatever follows them. -/
theorem readString?_take {quote : Char} {s content : List Char} {count : Nat}
    (h : readString? quote s = some (content, count)) :
    count ≤ s.length ∧
      ∀ rest, readString? quote (s.take count ++ rest) = some (content, count) := by
  fun_induction readString? quote s generalizing content count with
  | case1 => cases h
  | case2 c s hquote =>
    cases h
    exact ⟨Nat.le_add_left 1 s.length, readString?_close hquote⟩
  | case3 c hquote hescape => cases h
  | case4 c hquote hescape d s ih =>
    obtain ⟨⟨inner, n⟩, hinner, heq⟩ := Option.map_eq_some_iff.mp h
    cases heq
    obtain ⟨hle, htake⟩ := ih hinner
    refine ⟨Nat.succ_le_succ (Nat.succ_le_succ hle), fun rest => ?_⟩
    rw [List.take_succ_cons, List.take_succ_cons, List.cons_append, List.cons_append,
      readString?_escape hquote hescape, htake]
    rfl
  | case5 c s hquote hescape ih =>
    obtain ⟨⟨inner, n⟩, hinner, heq⟩ := Option.map_eq_some_iff.mp h
    cases heq
    obtain ⟨hle, htake⟩ := ih hinner
    refine ⟨Nat.succ_le_succ hle, fun rest => ?_⟩
    rw [List.take_succ_cons, List.cons_append, readString?_char hquote hescape, htake]
    rfl

/-! ## Kinds of tokens -/

/-- The tokens of a text without their places, and without the end of the text. -/
def kinds (s : List Char) : List Token :=
  ((lex s).map PlacedToken.token).dropLast

theorem map_token_lexFrom_eq (p q : Nat) (s : List Char) :
    (lexFrom p s).map PlacedToken.token = (lexFrom q s).map PlacedToken.token := by
  fun_induction lexFrom p s generalizing q with
  | case1 p => simp [lexFrom]
  | case2 p c s hblank ih =>
    rw [lexFrom, if_pos hblank]
    exact ih _
  | case3 p c s hblank token count hread stop ih =>
    conv => rhs; rw [lexFrom, if_neg hblank]
    simp only [hread, List.map_cons]
    exact congrArg (token :: ·) (ih _)

theorem lexFrom_ne_nil (position : Nat) (s : List Char) : lexFrom position s ≠ [] := by
  fun_induction lexFrom position s <;> simp_all

/-- The kinds of tokens do not depend on the place of their text. -/
theorem kinds_eq (position : Nat) (s : List Char) :
    kinds s = ((lexFrom position s).map PlacedToken.token).dropLast := by
  rw [kinds, lex, map_token_lexFrom_eq 0 position]

theorem kinds_nil : kinds [] = [] := by
  simp [kinds, lex, lexFrom]

theorem kinds_cons_of_isBlank {c : Char} (hc : Text.isBlank c) (s : List Char) :
    kinds (c :: s) = kinds s := by
  rw [kinds, lex, lexFrom, if_pos hc, ← kinds_eq]

theorem kinds_cons {c : Char} (hc : Text.isBlank c = false) (s : List Char) :
    kinds (c :: s) = (read c s).1 :: kinds (s.drop (read c s).2) := by
  rw [kinds, lex, lexFrom, if_neg (by simp [hc])]
  dsimp only
  rw [List.map_cons, List.dropLast_cons_of_ne_nil (by simpa using lexFrom_ne_nil _ _), ← kinds_eq]

end Token
end TableQuery
