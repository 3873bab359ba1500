/-!
# Searching and cutting text

Text is worked on as a list of characters. Everything here rests on one
operation, `cut?`, which divides a text at the first occurrence of a pattern:
finding, containing, splitting and replacing go from one cut to the next. The lemmas say
that a cut loses nothing and that splitting makes progress.
-/

namespace TableQuery
namespace Text

/-- The text before the first occurrence of `p` in `s`, and the text after it. -/
def cut? (p : List Char) : List Char → Option (List Char × List Char)
  | [] => if p.isEmpty then some ([], []) else none
  | c :: s =>
    match p.isPrefixOf? (c :: s) with
    | some after => some ([], after)
    | none => (cut? p s).map fun (before, after) => (c :: before, after)

theorem eq_append_of_isPrefixOf? {p s after : List Char}
    (h : p.isPrefixOf? s = some after) : s = p ++ after := by
  induction p generalizing s with
  | nil =>
    change some s = some after at h
    simpa using h
  | cons a p ih =>
    cases s with
    | nil =>
      change none = some after at h
      simp at h
    | cons b s =>
      change (if a == b then p.isPrefixOf? s else none) = some after at h
      by_cases hab : a = b
      · rw [if_pos (by simpa using hab)] at h
        simp [hab, ih h]
      · rw [if_neg (by simpa using hab)] at h
        simp at h

/-- A cut loses nothing: the pattern stands between the two parts. -/
theorem eq_of_cut? {p s before after : List Char}
    (h : cut? p s = some (before, after)) : s = before ++ p ++ after := by
  induction s generalizing before with
  | nil =>
    cases p <;> simp_all [cut?]
  | cons c s ih =>
    rw [cut?] at h
    split at h
    · rename_i rest hrest
      simp only [Option.some.injEq, Prod.mk.injEq] at h
      obtain ⟨rfl, rfl⟩ := h
      simpa using eq_append_of_isPrefixOf? hrest
    · obtain ⟨⟨b, a⟩, hcut, heq⟩ := Option.map_eq_some_iff.1 h
      simp only [Prod.mk.injEq] at heq
      obtain ⟨rfl, rfl⟩ := heq
      simp [ih hcut]

/-- What follows an occurrence of a pattern that is not empty is shorter than the
text. -/
theorem length_lt_of_cut? {p s before after : List Char}
    (h : cut? p s = some (before, after)) (hp : p ≠ []) : after.length < s.length := by
  have hlen : 0 < p.length := List.length_pos_iff.2 hp
  simp only [eq_of_cut? h, List.length_append]
  omega

/-- Whether `p` occurs in `s`. -/
def contains (p s : List Char) : Bool :=
  (cut? p s).isSome

/-- The number of characters before the first occurrence of `p` in `s`. -/
def find? (p s : List Char) : Option Nat :=
  (cut? p s).map fun (before, _) => before.length

/-- The parts of `s` between the occurrences of `p`, taken from the left. The
empty pattern occurs before every character and at the end. -/
def split (p s : List Char) : List (List Char) :=
  if hp : p = [] then
    [] :: s.map (fun c => [c]) ++ [[]]
  else
    match h : cut? p s with
    | none => [s]
    | some (before, after) =>
      have := length_lt_of_cut? h hp
      before :: split p after
termination_by s.length

/-- The parts in order, with `p` between every two of them. -/
def joinWith (p : List Char) : List (List Char) → List Char
  | [] => []
  | [part] => part
  | part :: next :: parts => part ++ p ++ joinWith p (next :: parts)

/-- Every occurrence of `p` in `s`, taken from the left, replaced by `t`. -/
def replace (p t s : List Char) : List Char :=
  if hp : p = [] then
    t ++ s.flatMap fun c => c :: t
  else
    match h : cut? p s with
    | none => s
    | some (before, after) =>
      have := length_lt_of_cut? h hp
      before ++ t ++ replace p t after
termination_by s.length

/-- The text without the characters at its end that satisfy `strip`. -/
def trimEndBy (strip : Char → Bool) (s : List Char) : List Char :=
  (s.reverse.dropWhile strip).reverse

/-- The text without the characters at its two ends that satisfy `strip`. -/
def trimBy (strip : Char → Bool) (s : List Char) : List Char :=
  trimEndBy strip (s.dropWhile strip)

/-- Consecutive pieces of a sequence, each ended by an element that satisfies
`stop`; elements after the last such element form one more piece. -/
def pieces {α : Type} (stop : α → Bool) : List α → List (List α)
  | [] => []
  | a :: rest =>
    if stop a then
      [a] :: pieces stop rest
    else
      match pieces stop rest with
      | [] => [[a]]
      | piece :: others => (a :: piece) :: others

/-- The pieces put together again are the sequence. -/
theorem flatten_pieces {α : Type} (stop : α → Bool) (s : List α) :
    (pieces stop s).flatten = s := by
  induction s with
  | nil => rfl
  | cons a rest ih =>
    by_cases ha : stop a
    · simp [pieces, ha, ih]
    · cases hp : pieces stop rest with
      | nil => simpa [pieces, ha, hp] using ih
      | cons piece others => simpa [pieces, ha, hp] using ih

/-- A line without its line feed and without the carriage return right before
that line feed. -/
def chomp (line : List Char) : List Char :=
  match line.reverse with
  | '\n' :: '\r' :: rest => rest.reverse
  | '\n' :: rest => rest.reverse
  | _ => line

/-- The lines of a text, without their ends. A line feed ends a line, so none
follows a line feed that is the last character. -/
def lines (s : List Char) : List (List Char) :=
  (pieces (· == '\n') s).map chomp

end Text
end TableQuery
