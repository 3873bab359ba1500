import TableQuery.Expression.Operators
import TableQuery.Proofs.Except
import TableQuery.Proofs.Value.Order

/-!
# Comparisons

Two texts are compared as texts and two lists as lists.  Everything else is compared as the
numbers that the values stand for, where a truth value counts as one or zero.  Equality takes
a text for the number that it spells, but never a truth value for a number.  So the two agree
except where a truth value stands beside the number that it counts as.
-/

namespace TableQuery
namespace Value

/-! ## What can be compared -/

/-- A value without doubles that does not stand for a double, either. -/
structure AvoidsFloats (v : Value) : Prop where
  isFloatFree : v.isFloatFree
  toNumber?_ne : ∀ d, v.toNumber? ≠ some (.float d)

/-- The integer that an integer or a truth value counts as. -/
inductive IsInteger : Value → Int64 → Prop
  | int (n : Int64) : IsInteger (int n) n
  | bool (b : Bool) : IsInteger (bool b) (if b then 1 else 0)

/-- Whether a text spells an integer. -/
def SpellsInteger (s : String) (n : Int64) : Prop :=
  Number.read? s.toList = some (.int n)

/-- The comparable values without doubles, and their order. -/
inductive Compares : Value → Value → Ordering → Prop
  | texts (s t : String) : Compares (text s) (text t) (compare s t)
  | lists (as bs : List Value) : Compares (list as) (list bs) (cmpList as bs)
  | integers {x y : Value} {p q : Int64} (hx : IsInteger x p) (hy : IsInteger y q) :
    Compares x y (compare p.toInt q.toInt)
  | textInteger {s : String} {y : Value} {p q : Int64} (hs : SpellsInteger s p)
    (hy : IsInteger y q) : Compares (text s) y (compare p.toInt q.toInt)
  | integerText {x : Value} {t : String} {p q : Int64} (hx : IsInteger x p)
    (ht : SpellsInteger t q) : Compares x (text t) (compare p.toInt q.toInt)

variable {x y : Value} {m : Number} {p : Int64} {order order' : Ordering} {op : String}

theorem IsInteger.toNumber?_eq (h : IsInteger x p) : x.toNumber? = some (.int p) := by
  cases h <;> rfl

theorem avoidsFloats_int (n : Int64) : (int n).AvoidsFloats :=
  ⟨rfl, nofun⟩

theorem SpellsInteger.avoidsFloats {s : String} (h : SpellsInteger s p) :
    (text s).AvoidsFloats :=
  ⟨rfl, fun _ hd => nomatch Eq.trans (Eq.symm h) hd⟩

theorem AvoidsFloats.isInteger_or (hx : x.AvoidsFloats) (h : x.toNumber? = some m) :
    ∃ p, m = .int p ∧ (IsInteger x p ∨ ∃ s, x = text s ∧ SpellsInteger s p) := by
  cases m with
  | float d => exact absurd h (hx.toNumber?_ne d)
  | int p =>
    refine ⟨p, rfl, ?_⟩
    cases x with
    | null | float | list => cases h
    | bool b =>
      cases h
      exact .inl (.bool b)
    | int n =>
      cases h
      exact .inl (.int _)
    | text s => exact .inr ⟨s, rfl, h⟩

theorem Compares.compareBy_eq (h : Compares x y order) (op : String) :
    compareBy op x y = .ok order := by
  cases h with
  | texts | lists => rfl
  | integers hx hy => cases hx <;> cases hy <;> rfl
  | textInteger hs hy =>
    unfold SpellsInteger at hs
    cases hy <;> simp [compareBy, toNumber?, hs, Number.cmp]
  | integerText hx ht =>
    unfold SpellsInteger at ht
    cases hx <;> simp [compareBy, toNumber?, ht, Number.cmp]

theorem Compares.unique (h : Compares x y order) (h' : Compares x y order') : order = order' :=
  Except.ok.inj ((h.compareBy_eq "<").symm.trans (h'.compareBy_eq "<"))

/-- Values that can be compared are texts, lists, or stand for numbers. -/
theorem exists_of_compareBy (h : compareBy op x y = .ok order) :
    (∃ s t, x = text s ∧ y = text t) ∨ (∃ as bs, x = list as ∧ y = list bs) ∨
      ∃ m n, x.toNumber? = some m ∧ y.toNumber? = some n := by
  unfold compareBy at h
  split at h
  · cases h
  · cases h
  · exact .inl ⟨_, _, rfl, rfl⟩
  · exact .inr (.inl ⟨_, _, rfl, rfl⟩)
  · split at h
    · next hx hy => exact .inr (.inr ⟨_, _, hx, hy⟩)
    · cases h

/-- No other values without doubles can be compared. -/
theorem compares_of_compareBy (hx : x.AvoidsFloats) (hy : y.AvoidsFloats)
    (h : compareBy op x y = .ok order) : Compares x y order := by
  have hsome : ∃ order', Compares x y order' := by
    obtain ⟨s, t, rfl, rfl⟩ | ⟨as, bs, rfl, rfl⟩ | ⟨m, n, hm, hn⟩ := exists_of_compareBy h
    · exact ⟨_, .texts s t⟩
    · exact ⟨_, .lists as bs⟩
    · obtain ⟨p, rfl, hp | ⟨s, rfl, hs⟩⟩ := hx.isInteger_or hm
      · obtain ⟨q, rfl, hq | ⟨t, rfl, ht⟩⟩ := hy.isInteger_or hn
        · exact ⟨_, .integers hp hq⟩
        · exact ⟨_, .integerText hp ht⟩
      · obtain ⟨q, rfl, hq | ⟨t, rfl, ht⟩⟩ := hy.isInteger_or hn
        · exact ⟨_, .textInteger hs hq⟩
        · exact ⟨_, .texts s t⟩
  obtain ⟨order', horder⟩ := hsome
  rw [horder.compareBy_eq op] at h
  exact Except.ok.inj h ▸ horder

/-- The order seen from the other side. -/
theorem Compares.swap (hx : x.AvoidsFloats) (hy : y.AvoidsFloats) (h : Compares x y order) :
    Compares y x order.swap := by
  cases h with
  | texts s t =>
    rw [← Std.OrientedOrd.eq_swap]
    exact .texts t s
  | lists as bs =>
    rw [swap_cmpList hx.isFloatFree hy.isFloatFree]
    exact .lists bs as
  | integers hx hy =>
    rw [← Std.OrientedOrd.eq_swap]
    exact .integers hy hx
  | textInteger hs hy =>
    rw [← Std.OrientedOrd.eq_swap]
    exact .integerText hy hs
  | integerText hx ht =>
    rw [← Std.OrientedOrd.eq_swap]
    exact .textInteger ht hx

/-! ## Comparison and equality -/

/-- Whether a value is a truth value. -/
def isTruthValue : Value → Bool
  | bool _ => true
  | _ => false

/-- Comparable values are equal if neither comes before the other, unless just one of them is a
truth value. -/
theorem Compares.equals_eq (h : Compares x y order) :
    x.equals y = (order == .eq && x.isTruthValue == y.isTruthValue) := by
  cases h with
  | texts s t => simp [equals, same, cmp, isTruthValue]
  | lists as bs => simp [equals, same, cmp, isTruthValue]
  | @integers _ _ p q hx hy =>
    cases hx with
    | int => cases hy <;> simp [equals, same, cmp, Number.cmp, rank, isTruthValue]
    | bool a =>
      cases hy with
      | int => simp [equals, same, cmp, rank, isTruthValue]
      | bool b => cases a <;> cases b <;> rfl
  | textInteger hs hy =>
    unfold SpellsInteger at hs
    cases hy <;>
      simp [equals, spells, hs, same, cmp, Number.toValue, Number.cmp, rank, isTruthValue]
  | @integerText _ _ p q hx ht =>
    unfold SpellsInteger at ht
    have hcomm : (compare q.toInt p.toInt == .eq) = (compare p.toInt q.toInt == .eq) := by
      rw [Std.OrientedOrd.eq_swap (a := q.toInt) (b := p.toInt)]
      cases compare p.toInt q.toInt <;> rfl
    cases hx <;>
      simp [equals, spells, ht, same, cmp, Number.toValue, Number.cmp, rank, isTruthValue, hcomm]

theorem Compares.applyBinary_eq (h : Compares x y order) :
    applyBinary .lt x y = .ok (bool order.isLT) ∧ applyBinary .le x y = .ok (bool order.isLE) ∧
      applyBinary .gt x y = .ok (bool order.isGT) ∧
        applyBinary .ge x y = .ok (bool order.isGE) := by
  simp only [applyBinary, comparison, h.compareBy_eq]
  exact ⟨rfl, rfl, rfl, rfl⟩

/-- Whether one of two values is a truth value and the other one is not, but stands for the
number that the first one counts as. -/
def MixesTruth (x y : Value) : Prop :=
  x.isTruthValue ≠ y.isTruthValue ∧ x.toNumber? = y.toNumber?

/-- Comparable values are mixed in this way if neither comes before the other, though just one
of them is a truth value. -/
theorem Compares.mixesTruth_iff (h : Compares x y order) :
    x.MixesTruth y ↔ x.isTruthValue ≠ y.isTruthValue ∧ order = .eq := by
  have hnumbers : ∀ p q : Int64, x.toNumber? = some (.int p) → y.toNumber? = some (.int q) →
      (x.toNumber? = y.toNumber? ↔ compare p.toInt q.toInt = .eq) := by
    intro p q hp hq
    rw [hp, hq, Option.some_inj, Number.int.injEq, Std.LawfulEqOrd.compare_eq_iff_eq,
      Int64.toInt_inj]
  refine and_congr_right fun hkinds => ?_
  cases h with
  | texts | lists => exact absurd rfl hkinds
  | integers hx hy => exact hnumbers _ _ hx.toNumber?_eq hy.toNumber?_eq
  | textInteger hs hy => exact hnumbers _ _ hs hy.toNumber?_eq
  | integerText hx ht => exact hnumbers _ _ hx.toNumber?_eq ht

/-- A comparison of values without doubles that has an answer tells the order. -/
theorem exists_compares_of_comparison {op : BinaryOp} {holds : Ordering → Bool} {answer : Value}
    (hx : x.AvoidsFloats) (hy : y.AvoidsFloats) (h : comparison op holds x y = .ok answer) :
    ∃ order, Compares x y order ∧ answer = bool (holds order) := by
  obtain ⟨order, horder, hanswer⟩ := map_eq_ok_iff.mp h
  exact ⟨order, compares_of_compareBy hx hy horder, hanswer.symm⟩

/-- Comparison and equality fit together: of two comparable values without doubles, just one is
less than the other one, or they are equal.  The exception is a truth value beside an integer,
or a text that spells one, of the same number: they are not equal, and neither is less. -/
theorem applyBinary_lt_fits (hx : x.AvoidsFloats) (hy : y.AvoidsFloats) {answer : Value}
    (h : applyBinary .lt x y = .ok answer) :
    ∃ lt eq gt le : Bool, answer = bool lt ∧ applyBinary .eq x y = .ok (bool eq) ∧
      applyBinary .gt x y = .ok (bool gt) ∧ applyBinary .le x y = .ok (bool le) ∧
      applyBinary .gt y x = .ok (bool lt) ∧
      (¬x.MixesTruth y → [lt, eq, gt].count true = 1 ∧ (le = true ↔ lt = true ∨ eq = true)) ∧
      (x.MixesTruth y → lt = false ∧ eq = false ∧ gt = false ∧ le = true) := by
  obtain ⟨order, horder, hanswer⟩ := exists_compares_of_comparison hx hy h
  obtain ⟨-, hle, hgt, -⟩ := horder.applyBinary_eq
  obtain ⟨-, -, hgt', -⟩ := (horder.swap hx hy).applyBinary_eq
  have heq : applyBinary .eq x y =
      .ok (bool (order == .eq && x.isTruthValue == y.isTruthValue)) := by
    rw [applyBinary, horder.equals_eq]
  refine ⟨_, _, _, _, hanswer, heq, hgt, hle, ?_, fun hmix => ?_, fun hmix => ?_⟩
  · rw [hgt']
    cases order <;> rfl
  · by_cases hkinds : x.isTruthValue = y.isTruthValue
    · rw [hkinds, beq_self_eq_true, Bool.and_true]
      cases order <;> decide
    · have hne : order ≠ .eq := fun heq => hmix (horder.mixesTruth_iff.mpr ⟨hkinds, heq⟩)
      cases order with
      | eq => exact absurd rfl hne
      | lt | gt => simp
  · obtain ⟨hkinds, rfl⟩ := horder.mixesTruth_iff.mp hmix
    simp [hkinds]

theorem spellsInteger_ten : SpellsInteger "10" 10 := by
  rw [SpellsInteger]
  decide

/-- A number and a text that spells a greater one. -/
theorem applyBinary_lt_fits_nine :
    (int 9).AvoidsFloats ∧ (text "10").AvoidsFloats ∧
      applyBinary .lt (int 9) (text "10") = .ok (bool true) ∧
      ∃ eq gt, applyBinary .eq (int 9) (text "10") = .ok (bool eq) ∧
        applyBinary .gt (int 9) (text "10") = .ok (bool gt) ∧ [true, eq, gt].count true = 1 := by
  have hnine := avoidsFloats_int 9
  have hten := spellsInteger_ten.avoidsFloats
  have hlt : applyBinary .lt (int 9) (text "10") = .ok (bool true) :=
    (Compares.integerText (.int 9) spellsInteger_ten).applyBinary_eq.1
  obtain ⟨lt, eq, gt, le, htrue, heq, hgt, -, -, hfits, -⟩ := applyBinary_lt_fits hnine hten hlt
  obtain rfl : true = lt := bool.inj htrue
  have hmix : ¬(int 9).MixesTruth (text "10") := fun hmix => hmix.1 rfl
  exact ⟨hnine, hten, hlt, eq, gt, heq, hgt, (hfits hmix).1⟩

/-- `True` is neither less than `1` nor greater, but not equal to it, either. -/
theorem applyBinary_lt_true_one :
    (bool true).AvoidsFloats ∧ (int 1).AvoidsFloats ∧
      applyBinary .lt (bool true) (int 1) = .ok (bool false) ∧
      applyBinary .eq (bool true) (int 1) = .ok (bool false) ∧
      applyBinary .gt (bool true) (int 1) = .ok (bool false) ∧
      applyBinary .le (bool true) (int 1) = .ok (bool true) :=
  ⟨⟨rfl, nofun⟩, avoidsFloats_int 1, rfl, rfl, rfl, rfl⟩

end Value
end TableQuery
