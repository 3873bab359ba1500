import TableQuery.Proofs.Expression.Spelling

/-!
# The characters of tokens

A token that is no string literal is a symbol of one or two characters, or else it consists
of the characters of numbers and words.  The characters of a name are the name, and it goes
on as far as it can.
-/

namespace TableQuery
namespace Token

variable {c : Char} {run rest : List Char} {token : Token}

/-- Whether a character can be part of a number or a word. -/
def isPlainPart (c : Char) : Bool :=
  isNamePart c || c == '.' || c == '+' || c == '-'

theorem isPlainPart_of_isNamePart {d : Char} (h : isNamePart d) : isPlainPart d := by
  simp [isPlainPart, h]

theorem isPlainPart_of_isDigit {d : Char} (h : d.isDigit) : isPlainPart d :=
  isPlainPart_of_isNamePart (by simp [isNamePart, Char.isAlphanum, h])

/-! ## Numbers -/

theorem exists_of_startsFraction {s : List Char} (h : startsFraction s) :
    ∃ d others, s = '.' :: d :: others := by
  unfold startsFraction at h
  split at h
  · exact ⟨_, _, rfl⟩
  · cases h

theorem isPrefix_takeFraction (s : List Char) : takeFraction s <+: s := by
  unfold takeFraction
  split
  · next h =>
    obtain ⟨d, others, rfl⟩ := exists_of_startsFraction h
    exact List.cons_prefix_cons.mpr ⟨rfl, List.takeWhile_prefix _⟩
  · exact List.nil_prefix

theorem isPrefix_takePower (mark s : List Char) : takePower mark s <+: s := by
  unfold takePower
  split
  · exact List.nil_prefix
  · exact List.takeWhile_prefix _

/-- A number stands at the front of its text. -/
theorem isPrefix_lexeme (s : List Char) : (numberParts s).lexeme <+: s := by
  have hcons : ∀ {front others s : List Char}, front <+: s → others <+: s.drop front.length →
      front ++ others <+: s := by
    intro front others s hfront hothers
    obtain ⟨rest, rfl⟩ := hfront
    rw [List.drop_left] at hothers
    exact (List.prefix_append_right_inj front).mpr hothers
  simp only [NumberParts.lexeme, numberParts, List.append_assoc]
  refine hcons (List.takeWhile_prefix _) (hcons (isPrefix_takeFraction _) (hcons ?_ (hcons ?_ ?_)))
  · exact List.take_prefix _ _
  · exact List.take_prefix _ _
  · exact isPrefix_takePower _ _

theorem isPlainPart_of_mem_takeDigits {s : List Char} :
    ∀ d ∈ s.takeWhile Char.isDigit, isPlainPart d := fun d hd =>
  isPlainPart_of_isDigit (List.all_eq_true.mp List.all_takeWhile d hd)

theorem isPlainPart_of_mem_takeFraction {s : List Char} : ∀ d ∈ takeFraction s, isPlainPart d := by
  unfold takeFraction
  split
  · exact List.forall_mem_cons.mpr ⟨rfl, isPlainPart_of_mem_takeDigits⟩
  · exact nofun

/-- A character that is taken on a condition on the first one. -/
theorem isPlainPart_of_mem_take {s : List Char} {p : Bool}
    (hp : p → ∀ d ∈ s.head?, isPlainPart d) : ∀ d ∈ s.take (if p then 1 else 0), isPlainPart d := by
  cases p with
  | false => exact nofun
  | true =>
    cases s with
    | nil => exact nofun
    | cons d s => simpa using hp rfl

/-- The characters of a number. -/
theorem isPlainPart_of_mem_lexeme (s : List Char) :
    ∀ d ∈ (numberParts s).lexeme, isPlainPart d := by
  simp only [NumberParts.lexeme, numberParts, List.forall_mem_append]
  refine ⟨⟨⟨⟨isPlainPart_of_mem_takeDigits, isPlainPart_of_mem_takeFraction⟩, ?_⟩, ?_⟩, ?_⟩
  · refine isPlainPart_of_mem_take fun h d hd => ?_
    rw [Option.mem_def] at hd
    simp only [hd, Bool.or_eq_true, beq_iff_eq, Option.some.injEq] at h
    obtain rfl | rfl := h <;> rfl
  · refine isPlainPart_of_mem_take fun h d hd => ?_
    rw [Option.mem_def] at hd
    simp only [hd, Bool.and_eq_true, Bool.or_eq_true, beq_iff_eq, Option.some.injEq] at h
    rcases h.2 with rfl | rfl <;> rfl
  · unfold takePower
    split
    · intro d hd
      cases hd
    · exact isPlainPart_of_mem_takeDigits

/-- A number is not empty. -/
theorem lexeme_ne_nil {s : List Char} (h : c.isDigit || startsFraction (c :: s)) :
    (numberParts (c :: s)).lexeme ≠ [] := by
  cases hc : c.isDigit with
  | true => simp [NumberParts.lexeme, numberParts, hc]
  | false =>
    rw [hc, Bool.false_or] at h
    simp [NumberParts.lexeme, numberParts, hc, takeFraction, h]

/-! ## All tokens -/

/-- Whether a symbol begins with `c` and goes on with `run`. -/
def IsSpelling (sy : Symbol) (c : Char) (run : List Char) : Prop :=
  run = [] ∧ singleSymbol? c = some sy ∨ ∃ d, run = [d] ∧ doubleSymbol? c d = some sy

/-- A number is no symbol. -/
theorem token_ne_symbol (parts : NumberParts) (sy : Symbol) : parts.token ≠ symbol sy := by
  unfold NumberParts.token
  split
  · exact nofun
  · dsimp only
    split <;> exact nofun

theorem eq_of_prefix_append (rest : List Char) {front : List Char} (h : front <+: run ++ rest)
    (hlength : front.length = run.length) : front = run := by
  obtain ⟨others, h⟩ := h
  exact (List.append_inj h hlength).1

/-- What is no string literal is a symbol, a fault, or has characters of numbers and words. -/
theorem chars_of_read (hc : isQuote c = false)
    (hread : read c (run ++ rest) = (token, run.length)) :
    (∃ sy, token = symbol sy ∧ IsSpelling sy c run) ∨ (∃ f, token = fault f) ∨
      (∀ sy, token ≠ symbol sy) ∧ ∀ d ∈ c :: run, isPlainPart d := by
  rw [read_of_not_isQuote hc] at hread
  split at hread
  · next hnumber =>
    rw [readNumber_eq] at hread
    obtain ⟨rfl, hlength⟩ := Prod.mk.inj hread
    have hpos := List.length_pos_iff.mpr (lexeme_ne_nil hnumber)
    have hlexeme : (numberParts (c :: (run ++ rest))).lexeme = c :: run :=
      eq_of_prefix_append rest (isPrefix_lexeme _) (by
        simp only [List.length_cons]
        omega)
    exact .inr (.inr ⟨token_ne_symbol _, hlexeme ▸ isPlainPart_of_mem_lexeme _⟩)
  · split at hread
    · next hstart =>
      have hrun : (run ++ rest).takeWhile isNamePart = run :=
        eq_of_prefix_append rest (List.takeWhile_prefix _) (Prod.ext_iff.mp hread).2
      refine .inr (.inr ⟨fun sy => ?_, List.forall_mem_cons.mpr ⟨?_, fun d hd => ?_⟩⟩)
      · obtain ⟨rfl, -⟩ := Prod.mk.inj hread
        split <;> exact nofun
      · exact isPlainPart_of_isNamePart (isNamePart_of_isNameStart hstart)
      · rw [← hrun] at hd
        exact isPlainPart_of_isNamePart (List.all_eq_true.mp List.all_takeWhile d hd)
    · unfold readSymbol at hread
      split at hread
      · next _ _ two hdouble =>
        obtain ⟨rfl, hlength⟩ := Prod.ext_iff.mp hread
        obtain ⟨d, rfl⟩ := List.length_eq_one_iff.mp hlength.symm
        exact .inl ⟨two, rfl, .inr ⟨d, rfl, hdouble⟩⟩
      · next _ _ _ one _ hsingle =>
        obtain ⟨rfl, hlength⟩ := Prod.ext_iff.mp hread
        exact .inl ⟨one, rfl, .inl ⟨List.length_eq_zero_iff.mp hlength.symm, hsingle⟩⟩
      · exact .inr (.inl ⟨_, (Prod.ext_iff.mp hread).1.symm⟩)

/-- Whether a token is a name or a reserved word. -/
def isWord : Token → Bool
  | name _ => true
  | keyword _ => true
  | _ => false

/-- A number is no word. -/
theorem isWord_token (parts : NumberParts) : parts.token.isWord = false := by
  unfold NumberParts.token
  split
  · rfl
  · dsimp only
    split <;> rfl

/-- A word is as long as possible. -/
theorem chars_of_read_word (hc : isQuote c = false) (hword : token.isWord)
    (hread : read c (run ++ rest) = (token, run.length)) :
    isNameStart c ∧ (∀ d ∈ run, isNamePart d) ∧ (∀ d ∈ rest.head?, isNamePart d = false) ∧
      ∀ s, token = name s → c :: run = s.toList := by
  rw [read_of_not_isQuote hc] at hread
  split at hread
  · rw [readNumber_eq] at hread
    obtain ⟨rfl, -⟩ := Prod.mk.inj hread
    rw [isWord_token] at hword
    cases hword
  · split at hread
    · next hstart =>
      have hrun : (run ++ rest).takeWhile isNamePart = run :=
        eq_of_prefix_append rest (List.takeWhile_prefix _) (Prod.ext_iff.mp hread).2
      have hparts : ∀ d ∈ run, isNamePart d := fun d hd =>
        List.all_eq_true.mp List.all_takeWhile d (hrun ▸ hd)
      refine ⟨hstart, hparts, fun d hd => ?_, fun s hs => ?_⟩
      · obtain ⟨others, rfl⟩ := List.head?_eq_some_iff.mp hd
        by_contra hpart
        rw [List.takeWhile_append_of_pos hparts, List.takeWhile_cons_of_pos (by simpa using hpart)]
          at hrun
        simp at hrun
      · have htoken := (Prod.ext_iff.mp hread).1
        rw [hs, readWord, hrun] at htoken
        dsimp only at htoken
        split at htoken
        · cases htoken
        · cases htoken
          exact String.toList_ofList.symm
    · unfold readSymbol at hread
      split at hread <;> obtain ⟨rfl, -⟩ := Prod.mk.inj hread <;> cases hword

end Token
end TableQuery
