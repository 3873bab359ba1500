import Mathlib.Algebra.BigOperators.Group.List.Basic
import Mathlib.Algebra.Ring.Int.Defs
import Mathlib.Data.List.Induction
import Mathlib.Data.List.Perm.Basic
import TableQuery.Proofs.Sorting
import TableQuery.Proofs.Text.Integer
import TableQuery.Proofs.Value.Extremum
import TableQuery.Aggregate.Accumulator
import TableQuery.Value.Equality

/-!
# Aggregates and the order of arrival

The values of a group may arrive in any order.  Without doubles the order of values is linear,
so that there is one least and one greatest value, whichever of them comes first, and one way to
sort integers.  So the count, the least and the greatest value and the median do not depend on
the order of arrival.  The sum is exact, but may leave the range of integers on the way in one
order and not in another one; where it does not, it is the same.
-/

namespace TableQuery

namespace Value

/-! ## Values that are at least as good as others -/

variable {a b c : Value} {keep : Ordering}

theorem eq_ne_swap (hkeep : keep ≠ .eq) : Ordering.eq ≠ keep.swap := by
  cases keep <;> first | exact absurd rfl hkeep | decide

theorem ne_swap_self (hkeep : keep ≠ .eq) : keep ≠ keep.swap := by
  cases keep <;> first | exact absurd rfl hkeep | decide

theorem cmp_eq_cmpList_singleton (a b : Value) : a.cmp b = cmpList [a] [b] := by
  simp [cmpList]

theorem cmp_ne_swap_trans (hkeep : keep ≠ .eq) (ha : a.isFloatFree) (hb : b.isFloatFree)
    (hc : c.isFloatFree) (hab : a.cmp b ≠ keep.swap) (hbc : b.cmp c ≠ keep.swap) :
    a.cmp c ≠ keep.swap := by
  rw [cmp_eq_cmpList_singleton] at hab hbc ⊢
  exact cmpList_ne_swap_trans hkeep (by simpa [areFloatFree] using ha)
    (by simpa [areFloatFree] using hb) (by simpa [areFloatFree] using hc) hab hbc

/-- Values that are at least as good as each other are the same. -/
theorem eq_of_cmp_ne_swap (ha : a.isFloatFree) (hb : b.isFloatFree)
    (hkeep : keep ≠ .eq) (hab : a.cmp b ≠ keep.swap) (hba : b.cmp a ≠ keep.swap) : a = b := by
  refine eq_of_cmp_eq ha hb ?_
  rw [← swap_cmp ha hb] at hba
  generalize a.cmp b = order at hab hba
  cases keep <;> cases order <;> first | rfl | contradiction

/-- Whether a value is one of some values and at least as good as all of them. -/
structure IsBest (keep : Ordering) (values : List Value) (best : Value) : Prop where
  mem : best ∈ values
  cmp_ne : ∀ v ∈ values, best.cmp v ≠ keep.swap

theorem isBest_singleton (hkeep : keep ≠ .eq) (ha : a.isFloatFree) : IsBest keep [a] a := by
  refine ⟨List.mem_singleton_self a, List.forall_mem_singleton.mpr ?_⟩
  rw [cmp_self ha]
  exact eq_ne_swap hkeep

theorem IsBest.unique {values : List Value} (hkeep : keep ≠ .eq)
    (hvalues : ∀ v ∈ values, v.isFloatFree) (ha : IsBest keep values a)
    (hb : IsBest keep values b) : a = b :=
  eq_of_cmp_ne_swap (hvalues a ha.mem) (hvalues b hb.mem) hkeep (ha.cmp_ne b hb.mem)
    (hb.cmp_ne a ha.mem)

theorem IsBest.of_perm {values others : List Value} (h : IsBest keep values a)
    (hperm : values.Perm others) : IsBest keep others a :=
  ⟨hperm.mem_iff.mp h.mem, fun v hv => h.cmp_ne v (hperm.mem_iff.mpr hv)⟩

end Value

namespace Accumulator

open Value

variable {inputs others : List Value} {keep : Ordering} {ns ms : List Int64}

/-- Takes values one after the other, until one is refused. -/
def feedAll (acc : Accumulator) (inputs : List Value) : Except EvalError Accumulator :=
  inputs.foldlM (fun acc v => acc.feed v) acc

theorem feedAll_nil (acc : Accumulator) : acc.feedAll [] = .ok acc :=
  rfl

theorem feedAll_cons (acc : Accumulator) (v : Value) (inputs : List Value) :
    acc.feedAll (v :: inputs) = acc.feed v >>= fun acc => acc.feedAll inputs :=
  List.foldlM_cons

/-- Whether a function takes all of some values. -/
def Accepts (f : Aggregate) (inputs : List Value) : Prop :=
  ∃ acc, (start f).feedAll inputs = .ok acc

/-- Whether a function takes both of two lists of values or neither, and has the same result for
both. -/
def Agrees (f : Aggregate) (inputs others : List Value) : Prop :=
  (Accepts f inputs ↔ Accepts f others) ∧
    ∀ acc acc', (start f).feedAll inputs = .ok acc → (start f).feedAll others = .ok acc' →
      acc.result = acc'.result

theorem agrees_of_feedAll_eq {f : Aggregate} {acc acc' : Accumulator}
    (h : (start f).feedAll inputs = .ok acc) (h' : (start f).feedAll others = .ok acc')
    (hresult : acc.result = acc'.result) : Agrees f inputs others := by
  refine ⟨iff_of_true ⟨acc, h⟩ ⟨acc', h'⟩, fun a a' ha ha' => ?_⟩
  cases h.symm.trans ha
  cases h'.symm.trans ha'
  exact hresult

/-! ## The count -/

theorem feedAll_count (n : Nat) (inputs : List Value) :
    (count n).feedAll inputs = .ok (count (n + inputs.length)) := by
  induction inputs generalizing n with
  | nil => rfl
  | cons v inputs ih =>
    rw [feedAll_cons]
    change (count (n + 1)).feedAll inputs = _
    rw [ih, List.length_cons, Nat.add_assoc, Nat.add_comm 1]

/-! ## The least and the greatest value -/

theorem isFloatFree_coerced {v : Value} (hv : v.AvoidsFloats) : (coerced v).isFloatFree := by
  unfold coerced
  cases hnumber : v.toNumber? with
  | none => exact hv.isFloatFree
  | some m =>
    cases m with
    | int n => rfl
    | float d => exact absurd hnumber (hv.toNumber?_ne d)

theorem feedAll_extremum (best : Value) (inputs : List Value) :
    (extremum keep (some best)).feedAll inputs = .ok (extremum keep
      (some ((inputs.map coerced).foldl (fun best v => better keep (some best) v) best))) := by
  induction inputs generalizing best with
  | nil => rfl
  | cons v inputs ih =>
    rw [feedAll_cons]
    exact ih _

/-- The better one of the best value so far and a new one is the best value. -/
theorem isBest_better {seen : List Value} {best v : Value} (hkeep : keep ≠ .eq)
    (hfree : ∀ x ∈ seen ++ [v], x.isFloatFree) (h : IsBest keep seen best) :
    IsBest keep (seen ++ [v]) (better keep (some best) v) := by
  have hseen : ∀ x ∈ seen, x.isFloatFree := fun x hx => hfree x (List.mem_append_left _ hx)
  have hv : v.isFloatFree := hfree v (List.mem_append_right _ (List.mem_singleton_self v))
  have hbest := hseen best h.mem
  simp only [better]
  split
  · next hbetter =>
    have hlead : v.cmp best ≠ keep.swap := by
      rw [hbetter]
      exact ne_swap_self hkeep
    refine ⟨List.mem_append_right _ (List.mem_singleton_self v), fun x hx => ?_⟩
    rcases List.mem_append.mp hx with hx | hx
    · exact cmp_ne_swap_trans hkeep hv hbest (hseen x hx) hlead (h.cmp_ne x hx)
    · exact (isBest_singleton hkeep hv).cmp_ne x hx
  · next hbetter =>
    refine ⟨List.mem_append_left _ h.mem, fun x hx => ?_⟩
    rcases List.mem_append.mp hx with hx | hx
    · exact h.cmp_ne x hx
    · rw [List.mem_singleton.mp hx, ← swap_cmp hv hbest]
      exact fun hswap => hbetter (Ordering.swap_inj.mp hswap)

/-- Going on from the best of the values that have been seen gives the best of all values. -/
theorem isBest_foldl_better {seen values : List Value} {best : Value} (hkeep : keep ≠ .eq)
    (hfree : ∀ x ∈ seen ++ values, x.isFloatFree) (h : IsBest keep seen best) :
    IsBest keep (seen ++ values)
      (values.foldl (fun best v => better keep (some best) v) best) := by
  induction values generalizing seen best with
  | nil => rwa [List.append_nil]
  | cons v values ih =>
    rw [List.append_cons] at hfree ⊢
    have hseen : ∀ x ∈ seen ++ [v], x.isFloatFree := fun x hx =>
      hfree x (List.mem_append_left _ hx)
    exact ih hfree (isBest_better hkeep hseen h)

/-- The accumulator of the least or greatest value takes all values, and ends with the best of
what they stand for. -/
theorem exists_feedAll_extremum (hkeep : keep ≠ .eq) (hfloats : ∀ v ∈ inputs, v.AvoidsFloats) :
    ∃ best, (extremum keep none).feedAll inputs = .ok (extremum keep best) ∧
      (inputs = [] → best = none) ∧
      (inputs ≠ [] → ∃ v, best = some v ∧ IsBest keep (inputs.map coerced) v) := by
  cases inputs with
  | nil => exact ⟨none, rfl, fun _ => rfl, fun h => absurd rfl h⟩
  | cons v inputs =>
    have hfree : ∀ x ∈ [coerced v] ++ inputs.map coerced, x.isFloatFree := by
      intro x hx
      rw [List.singleton_append, ← List.map_cons] at hx
      obtain ⟨w, hw, rfl⟩ := List.mem_map.mp hx
      exact isFloatFree_coerced (hfloats w hw)
    have hfirst := isBest_singleton hkeep (hfree _ List.mem_cons_self)
    refine ⟨_, ?_, nofun, fun _ => ⟨_, rfl, isBest_foldl_better hkeep hfree hfirst⟩⟩
    rw [feedAll_cons]
    exact feedAll_extremum (coerced v) inputs

/-! ## Integers -/

/-- Whether a value stands for an integer. -/
def StandsFor (v : Value) (n : Int64) : Prop :=
  v.toNumber? = some (.int n)

theorem standsFor_unique {v : Value} {n m : Int64} (hn : StandsFor v n) (hm : StandsFor v m) :
    n = m :=
  Number.int.inj (Option.some.inj ((Eq.symm hn).trans hm))

/-- What permuted values stand for is permuted. -/
theorem perm_of_standsFor (hperm : inputs.Perm others) (hns : List.Forall₂ StandsFor inputs ns)
    (hms : List.Forall₂ StandsFor others ms) : ns.Perm ms := by
  obtain ⟨ns', hns', hperm'⟩ := List.perm_comp_forall₂ hperm hms
  -- the numbers that are a permutation of the other ones stand beside the same values as `ns`
  suffices heq : ns = ns' by rwa [heq]
  clear hms hperm hperm'
  induction hns generalizing ns' with
  | nil =>
    cases hns'
    rfl
  | cons h _ ih =>
    obtain ⟨_, _, h', hrest, rfl⟩ := List.forall₂_cons_left_iff.mp hns'
    rw [standsFor_unique h h', ih _ hrest]

/-- A value without doubles is taken as a number exactly if it stands for an integer. -/
theorem numberFor_eq_ok_iff {f : Aggregate} {v : Value} {m : Number} (hv : v.AvoidsFloats) :
    numberFor f v = .ok m ↔ ∃ n, StandsFor v n ∧ m = .int n := by
  have havoids := hv.toNumber?_ne
  unfold numberFor StandsFor
  cases hnumber : v.toNumber? with
  | none => simp
  | some k =>
    cases k with
    | float d => exact absurd hnumber (havoids d)
    | int n => simp [eq_comm]

/-- The accumulator of the median keeps the integers that the values stand for. -/
theorem feedAll_median_eq_ok_iff {numbers : List Number} {acc : Accumulator}
    (hfloats : ∀ v ∈ inputs, v.AvoidsFloats) :
    (median numbers).feedAll inputs = .ok acc ↔ ∃ ns, List.Forall₂ StandsFor inputs ns ∧
      acc = median ((ns.map .int).reverse ++ numbers) := by
  induction inputs generalizing numbers with
  | nil => simp [feedAll_nil, eq_comm]
  | cons v inputs ih =>
    obtain ⟨hv, hinputs⟩ := List.forall_mem_cons.mp hfloats
    have hfeed : (median numbers).feed v =
        numberFor .median v >>= fun m => .ok (median (m :: numbers)) := rfl
    rw [feedAll_cons, hfeed, bind_eq_ok_iff]
    constructor
    · rintro ⟨acc', h, hrest⟩
      obtain ⟨m, hm, h⟩ := bind_eq_ok_iff.mp h
      cases h
      obtain ⟨n, hn, rfl⟩ := (numberFor_eq_ok_iff hv).mp hm
      obtain ⟨ns, hns, rfl⟩ := (ih hinputs).mp hrest
      exact ⟨n :: ns, .cons hn hns, by simp⟩
    · rintro ⟨_, hall, rfl⟩
      obtain ⟨n, ns, hn, hns, rfl⟩ := List.forall₂_cons_left_iff.mp hall
      refine ⟨_, bind_eq_ok_iff.mpr ⟨_, (numberFor_eq_ok_iff hv).mpr ⟨n, hn, rfl⟩, rfl⟩, ?_⟩
      exact (ih hinputs).mpr ⟨ns, hns, by simp⟩

/-- The accumulator of the sum holds the exact sum of the integers so far. -/
theorem exists_of_feedAll_sum {a : Int64} {acc : Accumulator}
    (hfloats : ∀ v ∈ inputs, v.AvoidsFloats) (h : (sum (.int a)).feedAll inputs = .ok acc) :
    ∃ ns n, List.Forall₂ StandsFor inputs ns ∧ acc = sum (.int n) ∧
      n.toInt = a.toInt + (ns.map Int64.toInt).sum := by
  induction inputs generalizing a with
  | nil =>
    cases h
    exact ⟨[], a, .nil, rfl, by simp⟩
  | cons v inputs ih =>
    obtain ⟨hv, hinputs⟩ := List.forall_mem_cons.mp hfloats
    rw [feedAll_cons] at h
    obtain ⟨next, hfeed, h⟩ := bind_eq_ok_iff.mp h
    obtain ⟨m, hm, hfeed⟩ := bind_eq_ok_iff.mp hfeed
    obtain ⟨total, htotal, hfeed⟩ := bind_eq_ok_iff.mp hfeed
    cases hfeed
    obtain ⟨n, hn, rfl⟩ := (numberFor_eq_ok_iff hv).mp hm
    rw [addNumbers] at htotal
    cases hsum : int64? (a.toInt + n.toInt) with
    | none => simp [hsum] at htotal
    | some b =>
      rw [hsum] at htotal
      cases htotal
      obtain ⟨ns, last, hns, rfl, hlast⟩ := ih hinputs h
      refine ⟨n :: ns, last, .cons hn hns, rfl, ?_⟩
      rw [hlast, int64?_eq_some_iff.mp hsum, List.map_cons, List.sum_cons, Int.add_assoc]

/-! ## The median -/

/-- What the middle of a list of integers is: the integer in the middle, or else the exact mean of
the two in the middle if it is an integer, and otherwise a double. -/
inductive IsMiddle : List Int64 → Value → Prop
  | none : IsMiddle [] .null
  | one {low high : List Int64} (n : Int64) (h : low.length = high.length) :
    IsMiddle (low ++ n :: high) (.int n)
  | mean {low high : List Int64} {a b n : Int64} (h : low.length = high.length)
    (hmean : 2 * n.toInt = a.toInt + b.toInt) : IsMiddle (low ++ a :: b :: high) (.int n)
  | between {low high : List Int64} {a b : Int64} (x : Double) (h : low.length = high.length)
    (hmean : ∀ n : Int64, 2 * n.toInt ≠ a.toInt + b.toInt) :
    IsMiddle (low ++ a :: b :: high) (.float x)

/-- The order in which integers are sorted. -/
def notAfter (a b : Int64) : Bool :=
  compare a.toInt b.toInt != .gt

theorem notAfter_iff {a b : Int64} : notAfter a b = true ↔ a ≤ b := by
  rw [notAfter, bne_iff_ne, Ne, Int.compare_eq_gt, Int.not_lt, Int64.le_iff_toInt_le]

theorem pairwise_mergeSort_notAfter (ns : List Int64) :
    (ns.mergeSort notAfter).Pairwise (· ≤ ·) := by
  have hsorted : (ns.mergeSort notAfter).Pairwise fun a b => notAfter a b := by
    refine List.pairwise_mergeSort (fun a b c => ?_) (fun a b => ?_) ns
    · simp only [notAfter_iff]
      exact Int64.le_trans
    · simp only [Bool.or_eq_true, notAfter_iff]
      exact Int64.le_total a b
  exact hsorted.imp notAfter_iff.mp

theorem mergeSort_notAfter_eq_of_perm (h : ns.Perm ms) :
    ns.mergeSort notAfter = ms.mergeSort notAfter := by
  refine List.Perm.eq_of_pairwise (fun a b _ _ => Int64.le_antisymm)
    (pairwise_mergeSort_notAfter ns) (pairwise_mergeSort_notAfter ms) ?_
  exact (List.mergeSort_perm ns notAfter).trans (h.trans (List.mergeSort_perm ms notAfter).symm)

theorem mergeSort_map_int (ns : List Int64) :
    ((ns.map Number.int).mergeSort fun a b => a.cmp b != .gt) =
      (ns.mergeSort notAfter).map .int :=
  (List.map_mergeSort (f := Number.int) fun _ _ _ _ => rfl).symm

/-- A list has a middle, or two of them. -/
theorem eq_nil_or_exists_middle (ns : List Int64) :
    ns = [] ∨ ∃ low high, low.length = high.length ∧
      ((∃ n, ns = low ++ n :: high) ∨ ∃ a b, ns = low ++ a :: b :: high) := by
  induction ns using List.bidirectionalRec with
  | nil => exact .inl rfl
  | singleton n => exact .inr ⟨[], [], rfl, .inl ⟨n, rfl⟩⟩
  | cons_append first ns last ih =>
    refine .inr ?_
    rcases ih with rfl | ⟨low, high, hlength, ⟨n, rfl⟩ | ⟨a, b, rfl⟩⟩
    · exact ⟨[], [], rfl, .inr ⟨first, last, rfl⟩⟩
    · exact ⟨first :: low, high ++ [last], by simp [hlength], .inl ⟨n, by simp⟩⟩
    · exact ⟨first :: low, high ++ [last], by simp [hlength], .inr ⟨a, b, by simp⟩⟩

theorem isMiddle_middle {low high : List Int64} (a b : Int64) (h : low.length = high.length) :
    IsMiddle (low ++ a :: b :: high) (middle (.int a) (.int b)) := by
  have hmin : Int64.minValue.toInt = -2 ^ 63 := rfl
  have hmax : Int64.maxValue.toInt = 2 ^ 63 - 1 := rfl
  have ha := And.intro a.minValue_le_toInt a.toInt_le
  have hb := And.intro b.minValue_le_toInt b.toInt_le
  rw [middle]
  split
  · next heven =>
    refine .mean h ?_
    rw [Int64.toInt_ofInt_of_le (by omega) (by omega)]
    omega
  · next hodd =>
    refine .between _ h fun n hn => ?_
    omega

theorem isMiddle_medianOf (ns : List Int64) :
    IsMiddle (ns.mergeSort notAfter) (medianOf (ns.map .int)) := by
  simp only [medianOf, mergeSort_map_int, List.length_map]
  rcases eq_nil_or_exists_middle (ns.mergeSort notAfter) with
    hns | ⟨low, high, hlength, ⟨n, hns⟩ | ⟨a, b, hns⟩⟩
  · rw [hns]
    exact .none
  · have hhalf : (low ++ n :: high).length / 2 = low.length := by simp; omega
    have hodd : (low ++ n :: high).length % 2 = 1 := by simp; omega
    rw [hns, if_pos hodd, hhalf]
    simpa [Number.toValue] using IsMiddle.one n hlength
  · have hhalf : (low ++ a :: b :: high).length / 2 = low.length + 1 := by simp; omega
    have heven : ¬(low ++ a :: b :: high).length % 2 = 1 := by simp; omega
    rw [hns, if_neg heven, hhalf]
    simpa using isMiddle_middle a b hlength

/-- Whether a value is the median of some integers: the middle of them when they are sorted. -/
def IsMedian (ns : List Int64) (v : Value) : Prop :=
  ∃ sorted, sorted.Perm ns ∧ sorted.Pairwise (· ≤ ·) ∧ IsMiddle sorted v

theorem isMedian_medianOf (ns : List Int64) : IsMedian ns (medianOf (ns.map .int)) :=
  ⟨ns.mergeSort notAfter, List.mergeSort_perm ns notAfter, pairwise_mergeSort_notAfter ns,
    isMiddle_medianOf ns⟩

theorem medianOf_eq_of_perm (h : ns.Perm ms) :
    medianOf (ns.map .int) = medianOf (ms.map .int) := by
  simp only [medianOf, mergeSort_map_int, mergeSort_notAfter_eq_of_perm h]

theorem start_feedAll_median_eq_ok_iff {acc : Accumulator}
    (hfloats : ∀ v ∈ inputs, v.AvoidsFloats) :
    (start .median).feedAll inputs = .ok acc ↔
      ∃ ns, List.Forall₂ StandsFor inputs ns ∧ acc = median (ns.map .int).reverse := by
  rw [start, feedAll_median_eq_ok_iff hfloats]
  simp

/-! ## All orders of arrival -/

theorem avoidsFloats_of_perm (hperm : inputs.Perm others)
    (hfloats : ∀ v ∈ inputs, v.AvoidsFloats) : ∀ v ∈ others, v.AvoidsFloats :=
  fun v hv => hfloats v (hperm.mem_iff.mpr hv)

theorem agrees_count (hperm : inputs.Perm others) : Agrees .count inputs others :=
  agrees_of_feedAll_eq (feedAll_count 0 inputs) (feedAll_count 0 others)
    (by rw [hperm.length_eq])

theorem agrees_extremum {f : Aggregate} (hf : start f = extremum keep none) (hkeep : keep ≠ .eq)
    (hperm : inputs.Perm others) (hfloats : ∀ v ∈ inputs, v.AvoidsFloats) :
    Agrees f inputs others := by
  have hothers := avoidsFloats_of_perm hperm hfloats
  obtain ⟨best, hfed, hnil, hbest⟩ := exists_feedAll_extremum hkeep hfloats
  obtain ⟨best', hfed', hnil', hbest'⟩ := exists_feedAll_extremum hkeep hothers
  rw [← hf] at hfed hfed'
  refine agrees_of_feedAll_eq hfed hfed' ?_
  by_cases hinputs : inputs = []
  · rw [hnil hinputs, hnil' (hinputs ▸ hperm).nil_eq.symm]
  · obtain ⟨a, rfl, ha⟩ := hbest hinputs
    obtain ⟨b, rfl, hb⟩ := hbest' fun h => hinputs (h ▸ hperm).eq_nil
    have hfree : ∀ x ∈ others.map coerced, x.isFloatFree := fun x hx => by
      obtain ⟨v, hv, rfl⟩ := List.mem_map.mp hx
      exact isFloatFree_coerced (hothers v hv)
    exact IsBest.unique hkeep hfree (ha.of_perm (hperm.map coerced)) hb

theorem isBest_of_feedAll_extremum {acc : Accumulator} (hkeep : keep ≠ .eq)
    (hfloats : ∀ v ∈ inputs, v.AvoidsFloats)
    (h : (extremum keep none).feedAll inputs = .ok acc) (hinputs : inputs ≠ []) :
    IsBest keep (inputs.map coerced) acc.result := by
  obtain ⟨_, hfed, -, hbest⟩ := exists_feedAll_extremum hkeep hfloats
  obtain ⟨v, rfl, hv⟩ := hbest hinputs
  cases hfed.symm.trans h
  exact hv

theorem accepts_median_of_perm (hperm : inputs.Perm others)
    (hfloats : ∀ v ∈ inputs, v.AvoidsFloats) (h : Accepts .median inputs) :
    Accepts .median others := by
  have hothers := avoidsFloats_of_perm hperm hfloats
  obtain ⟨acc, hacc⟩ := h
  obtain ⟨ns, hns, -⟩ := (start_feedAll_median_eq_ok_iff hfloats).mp hacc
  obtain ⟨ms, hms, -⟩ := List.perm_comp_forall₂ hperm.symm hns
  exact ⟨_, (start_feedAll_median_eq_ok_iff hothers).mpr ⟨ms, hms, rfl⟩⟩

theorem agrees_median (hperm : inputs.Perm others) (hfloats : ∀ v ∈ inputs, v.AvoidsFloats) :
    Agrees .median inputs others := by
  have hothers := avoidsFloats_of_perm hperm hfloats
  refine ⟨⟨accepts_median_of_perm hperm hfloats, accepts_median_of_perm hperm.symm hothers⟩, ?_⟩
  intro acc acc' h h'
  obtain ⟨ns, hns, rfl⟩ := (start_feedAll_median_eq_ok_iff hfloats).mp h
  obtain ⟨ms, hms, rfl⟩ := (start_feedAll_median_eq_ok_iff hothers).mp h'
  simp only [result, List.reverse_reverse]
  exact medianOf_eq_of_perm (perm_of_standsFor hperm hns hms)

theorem exists_isMedian_of_feedAll {acc : Accumulator} (hfloats : ∀ v ∈ inputs, v.AvoidsFloats)
    (h : (start .median).feedAll inputs = .ok acc) :
    ∃ ns, List.Forall₂ StandsFor inputs ns ∧ IsMedian ns acc.result := by
  obtain ⟨ns, hns, rfl⟩ := (start_feedAll_median_eq_ok_iff hfloats).mp h
  refine ⟨ns, hns, ?_⟩
  simp only [result, List.reverse_reverse]
  exact isMedian_medianOf ns

/-- Sums that are not refused are the exact sum, in either order. -/
theorem exists_sum_of_feedAll_perm {acc acc' : Accumulator} (hperm : inputs.Perm others)
    (hfloats : ∀ v ∈ inputs, v.AvoidsFloats) (h : (start .sum).feedAll inputs = .ok acc)
    (h' : (start .sum).feedAll others = .ok acc') :
    ∃ ns n, List.Forall₂ StandsFor inputs ns ∧ n.toInt = (ns.map Int64.toInt).sum ∧
      acc.result = .int n ∧ acc'.result = .int n := by
  have hothers := avoidsFloats_of_perm hperm hfloats
  obtain ⟨ns, n, hns, rfl, hn⟩ := exists_of_feedAll_sum hfloats h
  obtain ⟨ms, m, hms, rfl, hm⟩ := exists_of_feedAll_sum hothers h'
  have hsums : (ns.map Int64.toInt).sum = (ms.map Int64.toInt).sum :=
    ((perm_of_standsFor hperm hns hms).map Int64.toInt).sum_eq
  have hmn : m = n := by
    rw [← Int64.toInt_inj, hm, hn, hsums]
  refine ⟨ns, n, hns, ?_, rfl, by rw [hmn]; rfl⟩
  rw [hn, Int64.toInt_zero, Int.zero_add]

/-- Aggregates of values without doubles do not depend on the order of arrival. -/
theorem feedAll_perm (hperm : inputs.Perm others) (hfloats : ∀ v ∈ inputs, v.AvoidsFloats) :
    (∀ f ∈ [Aggregate.count, .min, .max, .median], Agrees f inputs others) ∧
    (∀ acc, (start .min).feedAll inputs = .ok acc → inputs ≠ [] →
      IsBest .lt (inputs.map coerced) acc.result) ∧
    (∀ acc, (start .max).feedAll inputs = .ok acc → inputs ≠ [] →
      IsBest .gt (inputs.map coerced) acc.result) ∧
    (∀ acc, (start .median).feedAll inputs = .ok acc →
      ∃ ns, List.Forall₂ StandsFor inputs ns ∧ IsMedian ns acc.result) ∧
    ∀ acc acc', (start .sum).feedAll inputs = .ok acc → (start .sum).feedAll others = .ok acc' →
      ∃ ns n, List.Forall₂ StandsFor inputs ns ∧ n.toInt = (ns.map Int64.toInt).sum ∧
        acc.result = .int n ∧ acc'.result = .int n := by
  have hlt : Ordering.lt ≠ .eq := nofun
  have hgt : Ordering.gt ≠ .eq := nofun
  refine ⟨?_, fun _ => isBest_of_feedAll_extremum hlt hfloats,
    fun _ => isBest_of_feedAll_extremum hgt hfloats, fun _ => exists_isMedian_of_feedAll hfloats,
    fun _ _ => exists_sum_of_feedAll_perm hperm hfloats⟩
  simp only [List.forall_mem_cons]
  exact ⟨agrees_count hperm, agrees_extremum rfl hlt hperm hfloats,
    agrees_extremum rfl hgt hperm hfloats, agrees_median hperm hfloats, nofun⟩

/-- A text is taken for its number, whether it comes first or last. -/
theorem feedAll_perm_ten_nine_four :
    let inputs : List Value := [.text "10", .int 9, .int 4]
    let others : List Value := [.int 9, .int 4, .text "10"]
    inputs.Perm others ∧ (∀ v ∈ inputs, v.AvoidsFloats) ∧
      (∀ f ∈ [Aggregate.count, .min, .max, .median], Agrees f inputs others) ∧
      IsBest .gt (inputs.map coerced) (.int 10) ∧
      ∃ ns, List.Forall₂ StandsFor inputs ns ∧ (23 : Int64).toInt = (ns.map Int64.toInt).sum := by
  intro inputs others
  have hperm : inputs.Perm others := by decide
  have hfloats : ∀ v ∈ inputs, v.AvoidsFloats := by
    simp only [inputs, List.forall_mem_cons]
    exact ⟨spellsInteger_ten.avoidsFloats, avoidsFloats_int 9, avoidsFloats_int 4, nofun⟩
  have hmax : (start .max).feedAll inputs = .ok (extremum .gt (some (.int 10))) := rfl
  have hsum : (start .sum).feedAll inputs = .ok (sum (.int 23)) := rfl
  have hsum' : (start .sum).feedAll others = .ok (sum (.int 23)) := rfl
  obtain ⟨hagrees, -, hgreatest, -, hsums⟩ := feedAll_perm hperm hfloats
  obtain ⟨ns, n, hns, hn, hresult, -⟩ := hsums _ _ hsum hsum'
  cases hresult
  exact ⟨hperm, hfloats, hagrees, hgreatest _ hmax nofun, ns, hns, hn⟩

end Accumulator
end TableQuery
