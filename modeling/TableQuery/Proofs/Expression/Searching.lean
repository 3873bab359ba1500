import Mathlib.Algebra.Group.Nat.Defs
import TableQuery.Expression.Builtin
import TableQuery.Proofs.Text.Search

/-!
# Finding, splitting and replacing

A pattern is looked for from the left, and after an occurrence the search goes on behind it.
The parts of a text are what lies between the occurrences that are met in this way.  Splitting
gives these parts, replacing puts them together with another text, and a text contains a pattern
exactly if there is more than one part, or if the pattern is found.  The place that is found is
the least one at which the pattern stands, counted in characters.
-/

namespace TableQuery
namespace Text

variable {p s : List Char} {k : Nat}

/-! ## Places -/

theorem find?_nil (p : List Char) : find? p [] = if p = [] then some 0 else none := by
  cases p <;> rfl

theorem find?_cons_of_isPrefix {c : Char} (h : p <+: c :: s) : find? p (c :: s) = some 0 := by
  obtain ⟨after, hcut⟩ := cut?_cons_of_isPrefix h
  rw [find?, hcut]
  rfl

theorem find?_cons_of_not_isPrefix {c : Char} (h : ¬p <+: c :: s) :
    find? p (c :: s) = (find? p s).map (· + 1) := by
  rw [find?, cut?_cons_of_not_isPrefix h, find?, Option.map_map, Option.map_map]
  rfl

/-- The place that is found is the first one at which the pattern stands. -/
theorem find?_eq_some_iff :
    find? p s = some k ↔ p <+: s.drop k ∧ ∀ j < k, ¬p <+: s.drop j := by
  induction s generalizing k with
  | nil =>
    rw [find?_nil]
    cases p with
    | cons c p => simp
    | nil =>
      cases k with
      | zero => simp
      | succ k =>
        rw [if_pos rfl]
        exact ⟨nofun, fun h => absurd List.nil_prefix (h.2 0 k.succ_pos)⟩
  | cons c s ih =>
    by_cases h : p <+: c :: s
    · rw [find?_cons_of_isPrefix h]
      cases k with
      | zero => simpa using h
      | succ k =>
        simp only [Option.some.injEq, reduceCtorEq, false_iff, not_and]
        exact fun _ hnone => hnone 0 k.succ_pos h
    · rw [find?_cons_of_not_isPrefix h]
      cases k with
      | zero => simp [h]
      | succ k =>
        rw [Option.map_eq_some_iff]
        simp only [Nat.add_right_cancel_iff, exists_eq_right, ih, List.drop_succ_cons]
        refine and_congr_right fun _ => ?_
        rw [Nat.forall_lt_succ_left]
        simp [h]

theorem infix_iff_exists_prefix_drop : p <:+: s ↔ ∃ k, p <+: s.drop k := by
  rw [List.infix_iff_prefix_suffix]
  constructor
  · rintro ⟨rest, hfront, hsuffix⟩
    exact ⟨_, List.suffix_iff_eq_drop.mp hsuffix ▸ hfront⟩
  · rintro ⟨k, hfront⟩
    exact ⟨_, hfront, List.drop_suffix k s⟩

theorem find?_eq_none_iff : find? p s = none ↔ ¬∃ k, p <+: s.drop k := by
  rw [find?, Option.map_eq_none_iff, cut?_eq_none_iff, infix_iff_exists_prefix_drop]

theorem le_length_of_find? (h : find? p s = some k) : k ≤ s.length := by
  obtain ⟨⟨before, after⟩, hcut, rfl⟩ := Option.map_eq_some_iff.mp h
  simp [eq_of_cut? hcut]

theorem contains_eq_isSome_find? : contains p s = (find? p s).isSome := by
  rw [contains, find?, Option.isSome_map]

/-! ## Parts -/

theorem replace_eq_self {t : List Char} (hp : p ≠ []) (hcut : cut? p s = none) :
    replace p t s = s := by
  rw [replace, dif_neg hp]
  split <;> simp_all

theorem replace_eq_append {t before after : List Char} (hp : p ≠ [])
    (hcut : cut? p s = some (before, after)) :
    replace p t s = before ++ t ++ replace p t after := by
  rw [replace, dif_neg hp]
  split <;> simp_all

/-- Replacing is splitting and joining with the other text. -/
theorem replace_eq_joinWith_split (hp : p ≠ []) (t s : List Char) :
    replace p t s = joinWith t (split p s) := by
  generalize hlength : s.length = n
  induction n using Nat.strongRecOn generalizing s with
  | _ n ih =>
    cases hcut : cut? p s with
    | none => rw [replace_eq_self hp hcut, split_eq_singleton hp hcut, joinWith]
    | some parts =>
      obtain ⟨before, after⟩ := parts
      have hafter := ih after.length (hlength ▸ length_lt_of_cut? hcut hp) after rfl
      rw [replace_eq_append hp hcut, split_eq_cons hp hcut, joinWith_cons (split_ne_nil hp),
        hafter]

/-- The parts of a text between the occurrences of a pattern.  Each part but the last one ends
where the pattern occurs first, and the search goes on behind this occurrence. -/
inductive ArePartsOf (p : List Char) : List Char → List (List Char) → Prop
  | last {s : List Char} (h : ¬p <:+: s) : ArePartsOf p s [s]
  | cons {part s : List Char} {parts : List (List Char)}
    (hfirst : ∀ j < part.length, ¬p <+: (part ++ (p ++ s)).drop j) (h : ArePartsOf p s parts) :
    ArePartsOf p (part ++ (p ++ s)) (part :: parts)

theorem arePartsOf_split (hp : p ≠ []) (s : List Char) : ArePartsOf p s (split p s) := by
  generalize hlength : s.length = n
  induction n using Nat.strongRecOn generalizing s with
  | _ n ih =>
    cases hcut : cut? p s with
    | none =>
      rw [split_eq_singleton hp hcut]
      exact .last (cut?_eq_none_iff.mp hcut)
    | some parts =>
      obtain ⟨before, after⟩ := parts
      have hfind : find? p s = some before.length := by rw [find?, hcut, Option.map_some]
      have hs : s = before ++ (p ++ after) := by rw [eq_of_cut? hcut, List.append_assoc]
      have hafter := ih after.length (hlength ▸ length_lt_of_cut? hcut hp) after rfl
      rw [split_eq_cons hp hcut]
      rw [hs] at hfind ⊢
      exact .cons (find?_eq_some_iff.mp hfind).2 hafter

theorem contains_eq_lt_length_split (hp : p ≠ []) (s : List Char) :
    contains p s = decide (1 < (split p s).length) := by
  cases hcut : cut? p s with
  | none => simp [contains, hcut, split_eq_singleton hp hcut]
  | some parts =>
    have hrest := List.length_pos_iff.mpr (split_ne_nil (s := parts.2) hp)
    simp [contains, hcut, split_eq_cons hp hcut, hrest]

end Text

namespace Builtin

open Value

/-! ## The functions of texts -/

theorem apply_find (s u : String) :
    apply .find [.text s, .text u] =
      .ok (.int (match Text.find? u.toList s.toList with
        | some index => Int64.ofNat index
        | none => -1)) := by
  change (match Text.find? u.toList s.toList with
    | some index => Except.ok (Value.int (Int64.ofNat index))
    | none => .ok (.int (-1))) = _
  cases Text.find? u.toList s.toList <;> rfl

theorem apply_join (parts : List String) (p : String) :
    apply .join [.list (parts.map .text), .text p] =
      .ok (.text (String.ofList (Text.joinWith p.toList (parts.map String.toList)))) := by
  change Except.ok (ofChars _) = _
  rw [List.map_map]
  rfl

theorem map_ofChars_split (p s : List Char) :
    (Text.split p s).map ofChars = ((Text.split p s).map String.ofList).map Value.text := by
  rw [List.map_map]
  rfl

theorem map_toList_map_ofList (parts : List (List Char)) :
    (parts.map String.ofList).map String.toList = parts := by
  rw [List.map_map]
  exact List.map_id'' (fun part => String.toList_ofList) parts

theorem apply_split {p : String} (hp : p ≠ "") (s : String) :
    apply .split [.text s, .text p] =
      .ok (.list (((Text.split p.toList s.toList).map String.ofList).map .text)) := by
  have hempty : p.toList.isEmpty = false := by simpa using hp
  rw [← map_ofChars_split]
  exact if_neg (by simp [hempty])

theorem applyBinary_member (s u : String) :
    applyBinary .member (.text u) (.text s) =
      .ok (.bool (Text.find? u.toList s.toList).isSome) := by
  rw [← Text.contains_eq_isSome_find?]
  rfl

/-- A place that is found fits into an integer, and is not taken for no place. -/
theorem toInt_place {s u : List Char} {k : Nat} (hs : s.length < 2 ^ 63)
    (h : Text.find? u s = some k) : (Int64.ofNat k).toInt = k ∧ Int64.ofNat k ≠ -1 := by
  have hk : (Int64.ofNat k).toInt = k :=
    Int64.toInt_ofNat_of_lt (Nat.lt_of_le_of_lt (Text.le_length_of_find? h) hs)
  refine ⟨hk, fun h => ?_⟩
  have hminus : (-1 : Int64).toInt = -1 := rfl
  rw [h, hminus] at hk
  omega

/-- The functions that search a text agree with each other.  The length of a text that is held
in memory is less than `2 ^ 63`, so that a place in it is an integer. -/
theorem apply_split_join_replace_find (s : String) :
    (∀ p t : String, p ≠ "" → ∃ (parts : List String) (replaced : String),
      Text.ArePartsOf p.toList s.toList (parts.map String.toList) ∧
      apply .split [.text s, .text p] = .ok (.list (parts.map .text)) ∧
      apply .join [.list (parts.map .text), .text p] = .ok (.text s) ∧
      apply .replace [.text s, .text p, .text t] = .ok (.text replaced) ∧
      apply .join [.list (parts.map .text), .text t] = .ok (.text replaced) ∧
      applyBinary .member (.text p) (.text s) = .ok (.bool (1 < parts.length))) ∧
    (s.length < 2 ^ 63 → ∀ u : String, ∃ index : Int64,
      apply .find [.text s, .text u] = .ok (.int index) ∧
      applyBinary .member (.text u) (.text s) = .ok (.bool (index ≠ -1)) ∧
      (index ≠ -1 → ∃ k : Nat, index.toInt = k ∧ u.toList <+: s.toList.drop k ∧
        ∀ j < k, ¬u.toList <+: s.toList.drop j) ∧
      (index = -1 ↔ ¬∃ k, u.toList <+: s.toList.drop k)) := by
  refine ⟨fun p t hp => ?_, fun hs u => ⟨_, apply_find s u, ?_⟩⟩
  · have hne : p.toList ≠ [] := by simpa using hp
    refine ⟨(Text.split p.toList s.toList).map String.ofList,
      String.ofList (Text.replace p.toList t.toList s.toList), ?_, apply_split hp s, ?_, rfl, ?_,
      ?_⟩
    · rw [map_toList_map_ofList]
      exact Text.arePartsOf_split hne s.toList
    · rw [apply_join, map_toList_map_ofList, Text.joinWith_split hne, String.ofList_toList]
    · rw [apply_join, map_toList_map_ofList, Text.replace_eq_joinWith_split hne]
    · rw [applyBinary_member, ← Text.contains_eq_isSome_find?, List.length_map,
        Text.contains_eq_lt_length_split hne]
  · rw [applyBinary_member]
    cases hfind : Text.find? u.toList s.toList with
    | none =>
      have hnowhere := Text.find?_eq_none_iff.mp hfind
      exact ⟨rfl, fun h => absurd rfl h, fun _ => hnowhere, fun _ => rfl⟩
    | some k =>
      obtain ⟨hfront, hleast⟩ := Text.find?_eq_some_iff.mp hfind
      obtain ⟨hk, hne⟩ := toInt_place hs hfind
      exact ⟨by simp [hne], fun _ => ⟨k, hk, hfront, hleast⟩, fun h => absurd h hne,
        fun h => absurd ⟨k, hfront⟩ h⟩

/-- The second occurrence begins inside the first one, so that the text has two parts and not
three. -/
theorem apply_split_join_replace_find_overlapping :
    "aéa" ≠ "" ∧ "aéaéa".length < 2 ^ 63 ∧
    (∃ parts : List String,
      Text.ArePartsOf "aéa".toList "aéaéa".toList (parts.map String.toList) ∧
      apply .split [.text "aéaéa", .text "aéa"] = .ok (.list (parts.map .text)) ∧
      apply .join [.list (parts.map .text), .text "aéa"] = .ok (.text "aéaéa") ∧
      1 < parts.length) ∧
    ∃ index : Int64, apply .find [.text "aéaéa", .text "éa"] = .ok (.int index) ∧
      index.toInt = 1 := by
  have hne : "aéa" ≠ "" := by decide
  have hlength : "aéaéa".length < 2 ^ 63 := by decide
  obtain ⟨hparts, hfind⟩ := apply_split_join_replace_find "aéaéa"
  refine ⟨hne, hlength, ?_, ?_⟩
  · obtain ⟨parts, _, hare, hsplit, hjoin, -, -, hmember⟩ := hparts "aéa" "" hne
    refine ⟨parts, hare, hsplit, hjoin, ?_⟩
    have hfound : applyBinary .member (.text "aéa") (.text "aéaéa") = .ok (.bool true) := rfl
    rw [hmember] at hfound
    simpa using hfound
  · obtain ⟨index, hindex, -, -, -⟩ := hfind hlength "éa"
    refine ⟨index, hindex, ?_⟩
    cases hindex
    rfl

end Builtin
end TableQuery
