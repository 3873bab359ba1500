import TableQuery.Proofs.Query.Mentions

/-!
# Searching a text for variables

A match takes the separating character before a variable with it, and sometimes the one
behind it.  Since the search goes on right behind the captured part, which holds no place where
a variable of the same table could begin, it misses none: what it captures is what stands at
the places where a variable can begin.
-/

namespace TableQuery
namespace ColumnMap

variable {side : Side} {pattern : List Char → Option (List Char × Nat)} {whole free : Bool}
  {c letter : Char} {s run rest part digits : List Char} {n : Nat}

/-! ## Places where a variable can begin -/

/-- What `item` finds at the places of a text where a variable can begin: at its start and
behind every character that opens a name.  `free` says whether one can begin at the start. -/
def scan {α : Type} (item : List Char → Option α) (free : Bool) : List Char → List α
  | [] => []
  | c :: s =>
    let later := scan item (opensName c) s
    match if free then item (c :: s) else none with
    | some found => found :: later
    | none => later

theorem mem_getLast?_cons_iff {c d : Char} {before : List Char} :
    d ∈ (c :: before).getLast? ↔ (before = [] ∧ d = c) ∨ d ∈ before.getLast? := by
  cases before with
  | nil => simp [eq_comm]
  | cons e before => simp [List.getLast?_cons_cons]

/-- What is found in a text stands at a place where a variable can begin. -/
theorem mem_scan_iff {α : Type} {item : List Char → Option α} {found : α} :
    found ∈ scan item free s ↔ ∃ before after, s = before ++ after ∧ after ≠ [] ∧
      (before = [] → free = true) ∧ (∀ c ∈ before.getLast?, opensName c) ∧
      item after = some found := by
  induction s generalizing free with
  | nil => simp [scan]
  | cons c s ih =>
    have hstep : found ∈ scan item free (c :: s) ↔
        free = true ∧ item (c :: s) = some found ∨ found ∈ scan item (opensName c) s := by
      rw [scan]
      cases free with
      | false => simp
      | true => cases hitem : item (c :: s) <;> simp [eq_comm]
    rw [hstep, ih]
    constructor
    · rintro (⟨hfree, hitem⟩ | ⟨before, after, rfl, hne, hopen, hbefore, hitem⟩)
      · exact ⟨[], c :: s, rfl, List.cons_ne_nil c s, fun _ => hfree, nofun, hitem⟩
      · refine ⟨c :: before, after, rfl, hne, nofun, fun d hd => ?_, hitem⟩
        rcases mem_getLast?_cons_iff.mp hd with ⟨hnil, rfl⟩ | hd
        · exact hopen hnil
        · exact hbefore d hd
    · rintro ⟨before, after, heq, hne, hfree, hbefore, hitem⟩
      cases before with
      | nil => exact .inl ⟨hfree rfl, heq ▸ hitem⟩
      | cons d before =>
        obtain ⟨rfl, rfl⟩ := List.cons.inj heq
        refine .inr ⟨before, after, rfl, hne, fun hnil => ?_, fun d hd => ?_, hitem⟩
        · exact hbefore c (mem_getLast?_cons_iff.mpr (.inl ⟨hnil, rfl⟩))
        · exact hbefore d (mem_getLast?_cons_iff.mpr (.inr hd))

/-! ## Captured parts -/

/-- Whether no variable with the given letter begins in a run of characters or right behind
it.  `free` says whether one can begin at the start of the run. -/
def IsBarren (letter : Char) : Bool → List Char → Prop
  | free, [] => free = false
  | free, c :: run => (free = true → c ≠ letter) ∧ IsBarren letter (opensName c) run

theorem isBarren_of_forall (hrun : ∀ c ∈ run, opensName c = false) :
    IsBarren letter false run := by
  induction run with
  | nil => rfl
  | cons c run ih =>
    obtain ⟨hc, hothers⟩ := List.forall_mem_cons.mp hrun
    refine ⟨nofun, ?_⟩
    rw [hc]
    exact ih hothers

/-- What is captured behind the letter of a table holds no place where a variable begins. -/
def Covers (letter : Char) (pattern : List Char → Option (List Char × Nat)) : Prop :=
  ∀ s part n, pattern s = some (part, n) → IsBarren letter false (s.take n)

/-- The part that is captured of the variable at the start of a text. -/
def captured? (side : Side) (pattern : List Char → Option (List Char × Nat)) (s : List Char) :
    Option (List Char) :=
  (lettered? side pattern s).map fun (part, _) => part

theorem captured?_of_ne (hc : c ≠ side.letter) : captured? side pattern (c :: s) = none := by
  rw [captured?, lettered?, if_neg (by simpa using hc), Option.map_none]

theorem captured?_eq_some_iff : captured? side pattern s = some part ↔
    ∃ after n, s = side.letter :: after ∧ pattern after = some (part, n) := by
  unfold captured? lettered?
  cases s with
  | nil => simp
  | cons c s =>
    by_cases hc : c = side.letter
    · simp [hc]
    · simp [hc]

/-! ## The search for the next variable -/

theorem scan_append_of_isBarren (h : IsBarren side.letter free run) (rest : List Char) :
    scan (captured? side pattern) free (run ++ rest) =
      scan (captured? side pattern) false rest := by
  induction run generalizing free with
  | nil => rw [List.nil_append, show free = false from h]
  | cons c run ih =>
    obtain ⟨hc, hothers⟩ := h
    have hnone : (if free then captured? side pattern (c :: (run ++ rest)) else none) = none := by
      split
      · next hfree => exact captured?_of_ne (hc hfree)
      · rfl
    rw [List.cons_append, scan, hnone]
    exact ih hothers

/-- A variable at the start of a text is found, and the search goes on behind what it
captures. -/
theorem scan_of_lettered?_eq_some (hcovers : Covers side.letter pattern)
    (h : lettered? side pattern s = some (part, n)) :
    scan (captured? side pattern) true s =
      part :: scan (captured? side pattern) false (s.drop n) := by
  cases s with
  | nil => cases h
  | cons c s =>
    have hcaptured : captured? side pattern (c :: s) = some part := by
      rw [captured?, h, Option.map_some]
    obtain ⟨hc, h⟩ := Option.ite_none_right_eq_some.mp h
    obtain ⟨⟨_, m⟩, hpattern, heq⟩ := Option.map_eq_some_iff.mp h
    cases heq
    have hletter : opensName c = false := by
      rw [eq_of_beq hc]
      cases side <;> rfl
    have hbehind : scan (captured? side pattern) false s =
        scan (captured? side pattern) false (s.drop m) := by
      calc scan (captured? side pattern) false s
          = scan (captured? side pattern) false (s.take m ++ s.drop m) := by
            rw [List.take_append_drop]
        _ = scan (captured? side pattern) false (s.drop m) :=
            scan_append_of_isBarren (hcovers s part m hpattern) (s.drop m)
    rw [scan, if_pos rfl, hcaptured, hletter, hbehind, List.drop_succ_cons]

theorem scan_of_lettered?_eq_none (h : lettered? side pattern s = none) :
    scan (captured? side pattern) true s = scan (captured? side pattern) false s := by
  have hcaptured : captured? side pattern s = none := by
    rw [captured?, h, Option.map_none]
  cases s with
  | nil => rfl
  | cons c s => rw [scan, scan, if_pos rfl, hcaptured, if_neg Bool.false_ne_true]

/-- What is captured from a match on. -/
def capturedFrom (side : Side) (pattern : List Char → Option (List Char × Nat)) (s : List Char) :
    Option (List Char × Nat) → List (List Char)
  | none => []
  | some (part, n) => part :: scan (captured? side pattern) false (s.drop n)

theorem capturedFrom_cons (c : Char) (s : List Char) (found : Option (List Char × Nat)) :
    capturedFrom side pattern (c :: s) (found.map fun (part, n) => (part, n + 1)) =
      capturedFrom side pattern s found := by
  cases found <;> rfl

/-- The first match is the one that a visit of all places finds first, whether it begins with
the variable or with the character before it. -/
theorem scan_eq_capturedFrom (hcovers : Covers side.letter pattern) :
    scan (captured? side pattern) whole s =
      capturedFrom side pattern s (firstMatch? side pattern whole s) := by
  induction s generalizing whole with
  | nil => rfl
  | cons c s ih =>
    have hbehind : scan (captured? side pattern) (opensName c) s =
        capturedFrom side pattern (c :: s)
          ((if separates c then (lettered? side pattern s).map fun (part, n) => (part, n + 1)
            else none).or
          ((firstMatch? side pattern false s).map fun (part, n) => (part, n + 1))) := by
      rw [separates_eq_opensName]
      cases opensName c with
      | false => rw [if_neg Bool.false_ne_true, Option.none_or, capturedFrom_cons, ih]
      | true =>
        rw [if_pos rfl]
        cases hlettered : lettered? side pattern s with
        | none =>
          rw [Option.map_none, Option.none_or, capturedFrom_cons, ← ih,
            scan_of_lettered?_eq_none hlettered]
        | some found =>
          rw [Option.map_some, Option.some_or, scan_of_lettered?_eq_some hcovers hlettered]
          rfl
    rw [firstMatch?, matchHere?, Option.or_assoc]
    cases whole with
    | false => rw [if_neg Bool.false_ne_true, Option.none_or, ← hbehind, scan,
        if_neg Bool.false_ne_true]
    | true =>
      rw [if_pos rfl]
      cases hlettered : lettered? side pattern (c :: s) with
      | none =>
        rw [Option.none_or, ← hbehind, scan_of_lettered?_eq_none hlettered, scan,
          if_neg Bool.false_ne_true]
      | some found =>
        rw [Option.some_or, scan_of_lettered?_eq_some hcovers hlettered]
        rfl

/-- The search captures what stands at the places where a variable can begin. -/
theorem overlapping_eq_scan (hcovers : Covers side.letter pattern) (s : List Char) :
    overlapping side pattern whole s = scan (captured? side pattern) whole s := by
  fun_induction overlapping side pattern whole s with
  | case1 whole s hfirst => rw [scan_eq_capturedFrom hcovers, hfirst, capturedFrom]
  | case2 whole s part n hfirst _ ih => rw [scan_eq_capturedFrom hcovers, hfirst, ih, capturedFrom]

/-- A part is captured exactly if its variable stands at a place where one can begin. -/
theorem mem_overlapping_iff (hcovers : Covers side.letter pattern) :
    part ∈ overlapping side pattern true s ↔ ∃ before after n,
      s = before ++ side.letter :: after ∧ (∀ c ∈ before.getLast?, opensName c) ∧
        pattern after = some (part, n) := by
  rw [overlapping_eq_scan hcovers, mem_scan_iff]
  constructor
  · rintro ⟨before, _, rfl, -, -, hbefore, hcaptured⟩
    obtain ⟨after, n, rfl, hpattern⟩ := captured?_eq_some_iff.mp hcaptured
    exact ⟨before, after, n, rfl, hbefore, hpattern⟩
  · rintro ⟨before, after, n, rfl, hbefore, hpattern⟩
    exact ⟨before, _, rfl, List.cons_ne_nil _ _, fun _ => rfl, hbefore,
      captured?_eq_some_iff.mpr ⟨after, n, rfl, hpattern⟩⟩

/-! ## The patterns -/

/-- Whether some characters are the digits of a column number: at least one, of which the
first one is not zero. -/
structure IsColumnNumber (digits : List Char) : Prop where
  ne_nil : digits ≠ []
  isDigit : ∀ c ∈ digits, c.isDigit
  head_ne_zero : digits.head? ≠ some '0'

/-- A column number is at the front of a text that does not go on with a digit behind it. -/
theorem takeNumber?_eq_some_iff :
    takeNumber? s = some (digits, rest) ↔
      s = digits ++ rest ∧ IsColumnNumber digits ∧ ∀ c ∈ rest.head?, c.isDigit = false := by
  have hsplit := List.takeWhile_append_dropWhile (p := Char.isDigit) (l := s)
  constructor
  · intro h
    unfold takeNumber? at h
    dsimp only at h
    split at h
    · cases h
    · next hnumber =>
      cases h
      simp only [Bool.or_eq_true, List.isEmpty_iff, beq_iff_eq, not_or] at hnumber
      refine ⟨hsplit.symm, ⟨hnumber.1, ?_, hnumber.2⟩, ?_⟩
      · intro c hc
        exact List.mem_takeWhile_imp hc
      · intro c hc
        have hhead := List.head?_dropWhile_not Char.isDigit s
        rw [Option.mem_def.mp hc] at hhead
        simpa using hhead
  · rintro ⟨rfl, hnumber, hrest⟩
    have htake : (digits ++ rest).takeWhile Char.isDigit = digits := by
      rw [List.takeWhile_append_of_pos hnumber.isDigit]
      cases rest with
      | nil => simp
      | cons c rest => rw [List.takeWhile_cons_of_neg (by simp [hrest c rfl]), List.append_nil]
    have hdrop : (digits ++ rest).dropWhile Char.isDigit = rest := by
      rw [htake] at hsplit
      exact List.append_cancel_left hsplit
    unfold takeNumber?
    dsimp only
    rw [htake, hdrop, if_neg]
    simp [hnumber.ne_nil, hnumber.head_ne_zero]

theorem endsName_iff : endsName s ↔ ∀ c ∈ s.head?, Token.isNamePart c = false := by
  cases s with
  | nil => simp [endsName]
  | cons c s => simp [endsName]

theorem isDigit_of_isNamePart_eq_false {c : Char} (hc : Token.isNamePart c = false) :
    c.isDigit = false := by
  simp only [Token.isNamePart, Char.isAlphanum, Bool.or_eq_false_iff] at hc
  exact hc.1.2

theorem exists_skipSpaces (s : List Char) :
    ∃ n, s = List.replicate n ' ' ++ skipSpaces s := by
  have hspaces : s.takeWhile (· == ' ') = List.replicate (s.takeWhile (· == ' ')).length ' ' := by
    refine List.eq_replicate_iff.mpr ⟨rfl, fun c hc => ?_⟩
    have hspace := List.all_eq_true.mp List.all_takeWhile c hc
    exact eq_of_beq hspace
  refine ⟨(s.takeWhile (· == ' ')).length, ?_⟩
  rw [← hspaces]
  exact List.takeWhile_append_dropWhile.symm

theorem skipSpaces_replicate_append (n : Nat) (hs : s.head? ≠ some ' ') :
    skipSpaces (List.replicate n ' ' ++ s) = s := by
  rw [skipSpaces, List.dropWhile_append_of_pos (by simp)]
  cases s with
  | nil => rfl
  | cons c s => exact List.dropWhile_cons_of_neg (by simpa using hs)

/-- The variable `a7` has a number behind its letter, and no name goes on behind it. -/
theorem numbered?_eq_some_iff :
    numbered? s = some (digits, n) ↔ IsColumnNumber digits ∧ n = digits.length ∧
      ∃ rest, s = digits ++ rest ∧ ∀ c ∈ rest.head?, Token.isNamePart c = false := by
  unfold numbered?
  constructor
  · intro h
    obtain ⟨⟨number, rest⟩, hnumber, hfound⟩ := Option.bind_eq_some_iff.mp h
    obtain ⟨rfl, hdigits, -⟩ := takeNumber?_eq_some_iff.mp hnumber
    obtain ⟨hends, hsome⟩ := Option.ite_none_right_eq_some.mp hfound
    cases hsome
    exact ⟨hdigits, by simp, rest, rfl, endsName_iff.mp hends⟩
  · rintro ⟨hdigits, rfl, rest, rfl, hrest⟩
    have hnumber : takeNumber? (digits ++ rest) = some (digits, rest) :=
      takeNumber?_eq_some_iff.mpr
        ⟨rfl, hdigits, fun c hc => isDigit_of_isNamePart_eq_false (hrest c hc)⟩
    simp [hnumber, endsName_iff.mpr hrest]

/-- The variable `a[7]` has a number in brackets behind its letter, with spaces around it
perhaps. -/
theorem subscripted?_eq_some_iff :
    subscripted? s = some (digits, n) ↔ IsColumnNumber digits ∧
      ∃ before after rest, s = '[' :: (List.replicate before ' ' ++
        (digits ++ (List.replicate after ' ' ++ ']' :: rest))) ∧
      n = before + digits.length + 1 := by
  unfold subscripted?
  constructor
  · intro h
    obtain ⟨behind, hopening, hbehind⟩ := Option.bind_eq_some_iff.mp h
    obtain ⟨⟨number, closing⟩, hnumber, hfound⟩ := Option.bind_eq_some_iff.mp hbehind
    obtain ⟨hskip, hdigits, -⟩ := takeNumber?_eq_some_iff.mp hnumber
    obtain ⟨hbracket, hsome⟩ := Option.ite_none_right_eq_some.mp hfound
    cases hsome
    obtain ⟨before, hbefore⟩ := exists_skipSpaces behind
    obtain ⟨after, hafter⟩ := exists_skipSpaces closing
    obtain ⟨rest, hrest⟩ := List.head?_eq_some_iff.mp (eq_of_beq hbracket)
    rw [hrest] at hafter
    rw [hskip] at hbefore
    have hs := Text.eq_append_of_isPrefixOf? hopening
    refine ⟨hdigits, before, after, rest, ?_, ?_⟩
    · rw [hs, hbefore, hafter]
      rfl
    · rw [hs, hbefore]
      simp only [List.length_append, List.length_replicate, List.length_singleton]
      omega
  · rintro ⟨hdigits, before, after, rest, rfl, rfl⟩
    obtain ⟨d, others, rfl⟩ := List.exists_cons_of_ne_nil hdigits.ne_nil
    have hfirst : d ≠ ' ' := by
      rintro rfl
      exact absurd (hdigits.isDigit ' ' List.mem_cons_self) (by decide)
    have hbehind : ∀ c ∈ (List.replicate after ' ' ++ ']' :: rest).head?, c.isDigit = false := by
      intro c hc
      cases after <;> cases hc <;> rfl
    have hopening := Text.isPrefixOf?_append ['['] (List.replicate before ' ' ++
      (d :: others ++ (List.replicate after ' ' ++ ']' :: rest)))
    rw [List.singleton_append] at hopening
    rw [hopening]
    have hclosing : skipSpaces (List.replicate after ' ' ++ ']' :: rest) = ']' :: rest :=
      skipSpaces_replicate_append after (by simp)
    simp only [Option.bind_eq_bind, Option.bind_some]
    rw [skipSpaces_replicate_append before (by simpa using hfirst),
      takeNumber?_eq_some_iff.mpr ⟨rfl, hdigits, hbehind⟩]
    simp [hclosing]
    omega

theorem opensName_of_isNamePart (hc : Token.isNamePart c) : opensName c = false := by
  simp [opensName, hc]

theorem isNamePart_of_isDigit (hc : c.isDigit) : Token.isNamePart c := by
  simp [Token.isNamePart, Char.isAlphanum, hc]

/-- Digits behind characters among which the letter is not: what stands before the digits may
open a name, but not one with this letter. -/
theorem isBarren_append_digits {front : List Char} (hfront : side.letter ∉ front)
    (hne : digits ≠ []) (hdigits : ∀ c ∈ digits, c.isDigit) :
    IsBarren side.letter free (front ++ digits) := by
  induction front generalizing free with
  | nil =>
    obtain ⟨c, others, rfl⟩ := List.exists_cons_of_ne_nil hne
    obtain ⟨hc, hothers⟩ := List.forall_mem_cons.mp hdigits
    refine ⟨fun _ => ?_, ?_⟩
    · rintro rfl
      cases side <;> exact absurd hc (by decide)
    · rw [opensName_of_isNamePart (isNamePart_of_isDigit hc)]
      exact isBarren_of_forall fun d hd =>
        opensName_of_isNamePart (isNamePart_of_isDigit (hothers d hd))
  | cons c front ih =>
    obtain ⟨hc, hothers⟩ := not_or.mp (mt List.mem_cons.mpr hfront)
    exact ⟨fun _ => Ne.symm hc, ih hothers⟩

theorem letter_not_mem_bracket_spaces (n : Nat) : side.letter ∉ '[' :: List.replicate n ' ' := by
  cases side <;> simp [Side.letter]

theorem covers_numbered? : Covers letter numbered? := by
  intro s digits n h
  obtain ⟨hdigits, rfl, rest, rfl, -⟩ := numbered?_eq_some_iff.mp h
  rw [List.take_left]
  exact isBarren_of_forall fun c hc =>
    opensName_of_isNamePart (isNamePart_of_isDigit (hdigits.isDigit c hc))

theorem covers_subscripted? : Covers side.letter subscripted? := by
  intro s digits n h
  obtain ⟨hdigits, before, after, rest, rfl, rfl⟩ := subscripted?_eq_some_iff.mp h
  have htake : ('[' :: (List.replicate before ' ' ++
      (digits ++ (List.replicate after ' ' ++ ']' :: rest)))).take (before + digits.length + 1) =
        '[' :: List.replicate before ' ' ++ digits := by
    rw [List.take_succ_cons, ← List.append_assoc, List.take_left' (by simp)]
    rfl
  rw [htake]
  exact isBarren_append_digits (letter_not_mem_bracket_spaces before) hdigits.ne_nil
    hdigits.isDigit

theorem take_length_sub {s front back : List Char} (h : s = front ++ back) :
    s.take (s.length - back.length) = front := by
  rw [h, List.length_append, Nat.add_sub_cancel, List.take_left]

theorem covers_named? : Covers letter named? := by
  intro s name n h
  obtain ⟨behind, hdot, hfound⟩ := Option.bind_eq_some_iff.mp h
  obtain ⟨-, hsome⟩ := Option.ite_none_right_eq_some.mp hfound
  cases hsome
  have hs : s = '.' :: behind.takeWhile Token.isNamePart ++ behind.dropWhile Token.isNamePart := by
    rw [List.cons_append, List.takeWhile_append_dropWhile]
    exact Text.eq_append_of_isPrefixOf? hdot
  rw [take_length_sub hs]
  refine isBarren_of_forall (List.forall_mem_cons.mpr ⟨rfl, fun c hc => ?_⟩)
  exact opensName_of_isNamePart (List.mem_takeWhile_imp hc)

theorem covers_keyed? : Covers side.letter keyed? := by
  intro s digits n h
  simp only [keyed?, Option.bind_eq_bind, Option.bind_eq_some_iff,
    Option.ite_none_right_eq_some, Option.some.injEq, Prod.mk.injEq, Prod.exists] at h
  obtain ⟨behind, hopening, digits, count, hplaceholder, -, rfl, rfl⟩ := h
  obtain ⟨before, hbefore⟩ := exists_skipSpaces behind
  obtain ⟨hne, hdigits, rest, hskip, hcount⟩ :=
    IsolatedQuery.eq_append_of_placeholder? hplaceholder
  have hs : s = ('[' :: List.replicate before ' ' ++ IsolatedQuery.placeholderOpen ++ digits) ++
      (IsolatedQuery.placeholderClose ++ rest) := by
    rw [Text.eq_append_of_isPrefixOf? hopening, hbefore, hskip]
    simp only [List.cons_append, List.nil_append, List.append_assoc]
  have hrest : (skipSpaces behind).drop count = rest := by
    rw [hskip, hcount, ← List.append_assoc, ← List.append_assoc,
      List.drop_left' (by simp only [List.length_append])]
  have htake := take_length_sub hs
  rw [List.length_append, Nat.add_comm, ← Nat.sub_sub] at htake
  rw [hrest, htake]
  have hopen : side.letter ∉ IsolatedQuery.placeholderOpen := by
    cases side <;> decide
  exact isBarren_append_digits
    (List.not_mem_append (letter_not_mem_bracket_spaces before) hopen) hne hdigits

/-- None of the patterns for variables misses one. -/
theorem overlapping_eq_scan_of_mem (h : pattern ∈ [numbered?, subscripted?, named?, keyed?])
    (s : List Char) : overlapping side pattern whole s = scan (captured? side pattern) whole s := by
  simp only [List.mem_cons, List.not_mem_nil, or_false] at h
  rcases h with rfl | rfl | rfl | rfl
  · exact overlapping_eq_scan covers_numbered? s
  · exact overlapping_eq_scan covers_subscripted? s
  · exact overlapping_eq_scan covers_named? s
  · exact overlapping_eq_scan covers_keyed? s

end ColumnMap
end TableQuery
