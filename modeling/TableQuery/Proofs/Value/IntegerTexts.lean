import Mathlib.Data.List.TakeWhile
import TableQuery.Expression.Builtin
import TableQuery.Proofs.Double.Nearest
import TableQuery.Proofs.Expression.Lexing
import TableQuery.Proofs.Text.Integer
import TableQuery.Proofs.Text.Search

/-!
# Integers in texts

A text that spells an integer in range stands for this integer.  Otherwise it stands for the
nearest double, and `int` cuts that back to an integer.  The doubles next to the two ends of
the range are the ends themselves, or one more, so that integers a little beyond the ends
become the ends.  Those that are further away are refused.
-/

namespace TableQuery

/-- The parts of a text that spells an integer: digits behind an optional sign, between white
space. -/
structure IntegerText where
  /-- The white space before the sign. -/
  front : List Char
  /-- The sign, `true` for minus, if there is one. -/
  sign : Option Bool
  /-- The digits. -/
  digits : List Char
  /-- The white space behind the digits. -/
  back : List Char
  isBlank_of_mem_front : ∀ c ∈ front, Text.isBlank c
  digits_ne_nil : digits ≠ []
  isDigit_of_mem_digits : ∀ c ∈ digits, c.isDigit
  isBlank_of_mem_back : ∀ c ∈ back, Text.isBlank c

namespace IntegerText

variable (t : IntegerText)

/-- Whether there is a minus sign. -/
def isNegative : Bool :=
  t.sign == some true

/-- The sign in the text. -/
def signText : List Char :=
  match t.sign with
  | none => []
  | some false => ['+']
  | some true => ['-']

/-- The text. -/
def text : String :=
  String.ofList (t.front ++ (t.signText ++ t.digits ++ t.back))

/-- The integer that the text spells. -/
def value : Int :=
  if t.isNegative then -(Double.digitsValue t.digits : Int) else Double.digitsValue t.digits

/-! ## Reading the text -/

theorem isBlank_of_mem_signText {c : Char} (hc : c ∈ t.signText) : Text.isBlank c = false := by
  rw [signText] at hc
  split at hc
  · cases hc
  · obtain rfl := List.mem_singleton.mp hc
    rfl
  · obtain rfl := List.mem_singleton.mp hc
    rfl

theorem trim_text : Text.trim t.text.toList = t.signText ++ t.digits := by
  rw [text, String.toList_ofList]
  refine Text.trimBy_append t.isBlank_of_mem_front (fun c hc => ?_) ?_ t.isBlank_of_mem_back
  · rcases List.mem_append.mp hc with hc | hc
    · exact t.isBlank_of_mem_signText hc
    · exact Token.isBlank_of_isDigit (t.isDigit_of_mem_digits c hc)
  · exact List.append_ne_nil_of_right_ne_nil _ t.digits_ne_nil

theorem takeSign_text : Double.takeSign (t.signText ++ t.digits) = (t.isNegative, t.digits) := by
  obtain ⟨d, digits, hdigits⟩ := List.exists_cons_of_ne_nil t.digits_ne_nil
  have hd := t.isDigit_of_mem_digits d (hdigits ▸ List.mem_cons_self)
  unfold isNegative signText
  cases t.sign with
  | none =>
    rw [hdigits, List.nil_append, Double.takeSign.eq_def]
    split
    · next heq =>
      obtain rfl := (List.cons.inj heq).1
      cases hd
    · next heq =>
      obtain rfl := (List.cons.inj heq).1
      cases hd
    · rfl
  | some negative => cases negative <;> rfl

theorem all_isDigit : t.digits.all Char.isDigit = true :=
  List.all_eq_true.mpr t.isDigit_of_mem_digits

theorem readInt?_text : Text.readInt? (t.signText ++ t.digits) = int64? t.value := by
  have hdigits : Text.readDigits? t.digits = some (Double.digitsValue t.digits) := by
    rw [Text.readDigits?, all_isDigit, List.isEmpty_eq_false_iff.mpr t.digits_ne_nil]
    rfl
  rw [Text.readInt?, takeSign_text]
  dsimp only
  rw [hdigits]
  rfl

theorem readDouble?_text :
    Double.read? (t.signText ++ t.digits) =
      some (Double.nearest t.isNegative t.digits 0) := by
  have htake : t.digits.takeWhile Char.isDigit = t.digits :=
    List.takeWhile_eq_self_iff.mpr t.isDigit_of_mem_digits
  have hdrop : t.digits.dropWhile Char.isDigit = [] :=
    List.dropWhile_eq_nil_iff.mpr t.isDigit_of_mem_digits
  rw [Double.read?, takeSign_text]
  simp only [htake, hdrop]
  rw [List.isEmpty_eq_false_iff.mpr t.digits_ne_nil]
  simp

/-- The number that the text stands for. -/
theorem read?_text : Number.read? t.text.toList =
    match int64? t.value with
    | some n => some (.int n)
    | none => some (.float (Double.nearest t.isNegative t.digits 0)) := by
  rw [Number.read?, trim_text, readInt?_text, readDouble?_text]
  rfl

end IntegerText

/-! ## Cutting back -/

namespace Builtin

variable {f : Builtin} {x : Double}

theorem truncated_boundary (f : Builtin) (negative : Bool) :
    truncated f (Double.ofMagnitude negative Double.boundaryMagnitude) =
      .ok (.int (if negative then Int64.minValue else Int64.maxValue)) := by
  have hmin : Int64.minValue.toInt = -2 ^ 63 := rfl
  have hmax : Int64.maxValue.toInt = 2 ^ 63 - 1 := rfl
  have hfinite : (Double.ofMagnitude negative Double.boundaryMagnitude).isFinite := by
    cases negative <;> decide
  obtain ⟨hpositive, hnegative⟩ := Double.truncate_boundary
  cases negative with
  | true => simp [truncated, hfinite, hnegative, hmin, hmax]; rfl
  | false => simp [truncated, hfinite, hpositive, hmin, hmax]

theorem truncated_of_lt (h : Double.boundaryMagnitude < x.magnitude) :
    truncated f x = invalid f (.notIntegral x) := by
  have hmin : Int64.minValue.toInt = -2 ^ 63 := rfl
  have hmax : Int64.maxValue.toInt = 2 ^ 63 - 1 := rfl
  have hlong := Double.lt_natAbs_truncate h
  refine if_neg ?_
  rintro ⟨-, hlow, hhigh⟩
  omega

theorem apply_int_text_eq (t : IntegerText) :
    apply .int [.text t.text] = match int64? t.value with
      | some n => .ok (.int n)
      | none => truncated .int (Double.nearest t.isNegative t.digits 0) := by
  change toInteger .int (.text t.text) = _
  rw [toInteger, t.read?_text]
  cases int64? t.value with
  | none => rfl
  | some n => rfl

/-- The integer function reads a text that spells an integer in range.  Up to 1025 beyond the
greatest integer and up to 1024 beyond the least one it gives these integers instead, and
everything further away is refused. -/
theorem apply_int_text (t : IntegerText) :
    (∀ n : Int64, n.toInt = t.value → apply .int [.text t.text] = .ok (.int n)) ∧
    (Int64.maxValue.toInt < t.value → t.value ≤ Int64.maxValue.toInt + 1025 →
      apply .int [.text t.text] = .ok (.int Int64.maxValue)) ∧
    (t.value < Int64.minValue.toInt → Int64.minValue.toInt - 1024 ≤ t.value →
      apply .int [.text t.text] = .ok (.int Int64.minValue)) ∧
    (Int64.maxValue.toInt + 1025 < t.value ∨ t.value < Int64.minValue.toInt - 1024 →
      ∃ x, apply .int [.text t.text] = .error (.invalidArgument "int" (.notIntegral x))) := by
  have hmin : Int64.minValue.toInt = -2 ^ 63 := rfl
  have hmax : Int64.maxValue.toInt = 2 ^ 63 - 1 := rfl
  have hvalue : t.value = if t.isNegative then -(Double.digitsValue t.digits : Int)
      else Double.digitsValue t.digits := rfl
  -- An integer out of range is read as a double.
  have hout : ¬(Int64.minValue.toInt ≤ t.value ∧ t.value ≤ Int64.maxValue.toInt) →
      apply .int [.text t.text] =
        truncated .int (Double.nearest t.isNegative t.digits 0) := by
    intro hrange
    rw [apply_int_text_eq, int64?_eq_none_iff_range.mpr hrange]
  refine ⟨fun n hn => ?_, fun hlow hhigh => ?_, fun hhigh hlow => ?_, fun hfar => ?_⟩
  · rw [apply_int_text_eq, ← hn, int64?_toInt]
  · rw [hout (by omega)]
    cases hsign : t.isNegative with
    | true =>
      rw [hsign, if_pos rfl] at hvalue
      omega
    | false =>
      rw [hsign, if_neg Bool.false_ne_true] at hvalue
      rw [Double.nearest_of_le (by omega) (by omega)]
      exact truncated_boundary .int false
  · rw [hout (by omega)]
    cases hsign : t.isNegative with
    | true =>
      rw [hsign, if_pos rfl] at hvalue
      rw [Double.nearest_of_le (by omega) (by omega)]
      exact truncated_boundary .int true
    | false =>
      rw [hsign, if_neg Bool.false_ne_true] at hvalue
      omega
  · rw [hout (by omega)]
    refine ⟨_, truncated_of_lt (Double.lt_magnitude_nearest ?_)⟩
    split at hvalue <;> omega

/-- A text with white space around it, a sign and zeros in front. -/
theorem apply_int_text_minusFortyTwo :
    let t : IntegerText := ⟨[' '], some true, ['0', '0', '4', '2'], [' ', '\n'],
      List.all_eq_true.mp rfl, by decide, List.all_eq_true.mp rfl, List.all_eq_true.mp rfl⟩
    t.value = -42 ∧ apply .int [.text t.text] = .ok (.int (-42)) := by
  intro t
  have hvalue : t.value = -42 := by decide
  exact ⟨hvalue, (apply_int_text t).1 (-42) hvalue.symm⟩

/-- The text of the number after the greatest integer is read as the greatest integer. -/
theorem apply_int_text_beyond :
    let t : IntegerText := ⟨[], none, "9223372036854775808".toList, [],
      List.all_eq_true.mp rfl, by decide, List.all_eq_true.mp rfl, List.all_eq_true.mp rfl⟩
    t.value = Int64.maxValue.toInt + 1 ∧
      apply .int [.text t.text] = .ok (.int Int64.maxValue) := by
  intro t
  have hvalue : t.value = Int64.maxValue.toInt + 1 := by decide
  refine ⟨hvalue, ?_⟩
  have hnone : int64? t.value = none := by
    rw [hvalue]
    decide
  have hboundary : Double.nearest t.isNegative t.digits 0 =
      Double.ofMagnitude false Double.boundaryMagnitude :=
    Double.nearest_of_le (by decide) (by decide)
  rw [apply_int_text_eq, hnone, hboundary]
  exact truncated_boundary .int false

end Builtin
end TableQuery
