import Mathlib.Tactic.ByContra
import TableQuery.Expression.Builtin
import TableQuery.Proofs.Value.Comparison

/-!
# Least and greatest values

The functions for the least and the greatest value keep the best value that they have seen.
Texts are compared as texts with each other but as numbers with numbers, so that the best value
is compared with an earlier one by way of a text that spells a number.  This does no harm as
long as no number of the list lies between two texts of it that are ordered one way as numbers
and the other way as texts.
-/

namespace TableQuery

/-! ## The wanted direction -/

section

variable {α : Type} [Ord α] {keep : Ordering} {a b c : α}

/-- Whether an element is at least as good as another one, if the lesser one (`keep` is `lt`)
or the greater one (`keep` is `gt`) of two elements is the better one. -/
def Leads (keep : Ordering) (a b : α) : Prop :=
  compare a b ≠ keep.swap

theorem leads_of_compare_eq (hkeep : keep ≠ .eq) (h : compare a b = keep) : Leads keep a b := by
  rw [Leads, h]
  cases keep <;> first | exact absurd rfl hkeep | decide

theorem leads_refl [Std.ReflOrd α] (hkeep : keep ≠ .eq) (a : α) : Leads keep a a := by
  rw [Leads, Std.ReflOrd.compare_self]
  cases keep <;> first | exact absurd rfl hkeep | decide

variable [Std.TransOrd α]

theorem Leads.trans (hkeep : keep ≠ .eq) (hab : Leads keep a b) (hbc : Leads keep b c) :
    Leads keep a c := by
  cases keep with
  | eq => exact absurd rfl hkeep
  | lt =>
    have hle : ∀ x y : α, Leads .lt x y ↔ (compare x y).isLE := fun x y => by
      rw [Leads]
      cases compare x y <;> decide
    rw [hle] at hab hbc ⊢
    exact Std.TransCmp.isLE_trans hab hbc
  | gt =>
    have hge : ∀ x y : α, Leads .gt x y ↔ (compare x y).isGE := fun x y => by
      rw [Leads]
      cases compare x y <;> decide
    rw [hge] at hab hbc ⊢
    exact Std.TransCmp.isGE_trans hab hbc

/-- Of two elements one is at least as good as the other one, or else not as good. -/
theorem compare_eq_of_not_leads (h : ¬Leads keep a b) : compare b a = keep := by
  rw [Std.OrientedOrd.eq_swap (a := b), Decidable.not_not.mp h, Ordering.swap_swap]

theorem not_leads_of_compare_eq (h : compare a b = keep) : ¬Leads keep b a := by
  rw [Leads, Std.OrientedOrd.eq_swap (a := b), h]
  exact fun hne => hne rfl

theorem eq_of_leads [Std.LawfulEqOrd α] (hkeep : keep ≠ .eq) (hab : Leads keep a b)
    (hba : Leads keep b a) : a = b := by
  have hne : compare a b ≠ keep := fun h => not_leads_of_compare_eq h hba
  refine Std.LawfulEqOrd.eq_of_compare ?_
  rw [Leads] at hab
  generalize compare a b = order at hab hne
  cases keep <;> cases order <;> first | rfl | contradiction

end

namespace Value

/-! ## Values and the best of them -/

variable {x y best item : Value} {p q n : Int64} {s t : String} {items others : List Value}
  {keep order : Ordering} {f : Builtin}

/-- Wherever a number of the list lies between two different numbers that texts of the list
spell, these texts are in the order of their numbers. -/
def OrdersTextsAsNumbers (items : List Value) : Prop :=
  ∀ {s t x p q n}, text s ∈ items → text t ∈ items → x ∈ items → SpellsInteger s p →
    SpellsInteger t q → IsInteger x n → p.toInt ≤ n.toInt → n.toInt ≤ q.toInt → p ≠ q →
    compare s t = .lt

/-- How the best value of a list is at least as good as another one.  A text and a number
are compared by way of a text that spells a number. -/
inductive Reaches (keep : Ordering) (items : List Value) : Value → Value → Prop
  | texts {s t : String} (h : Leads keep s t) : Reaches keep items (text s) (text t)
  | lists {as bs : List Value} (h : cmpList as bs ≠ keep.swap) :
    Reaches keep items (list as) (list bs)
  | integers {x y : Value} {p q : Int64} (hx : IsInteger x p) (hy : IsInteger y q)
    (h : Leads keep p.toInt q.toInt) : Reaches keep items x y
  | textInteger {s c : String} {y : Value} {p q : Int64} (hc : text c ∈ items)
    (hspells : SpellsInteger c p) (hy : IsInteger y q) (htext : Leads keep s c)
    (hnumber : Leads keep p.toInt q.toInt) : Reaches keep items (text s) y
  | integerText {x : Value} {c t : String} {p q : Int64} (hx : IsInteger x p)
    (hc : text c ∈ items) (hspells : SpellsInteger c q) (hnumber : Leads keep p.toInt q.toInt)
    (htext : Leads keep c t) : Reaches keep items x (text t)

theorem IsInteger.unique (h : IsInteger x p) (h' : IsInteger x q) : p = q :=
  Number.int.inj (Option.some.inj (h.toNumber?_eq.symm.trans h'.toNumber?_eq))

theorem SpellsInteger.unique (h : SpellsInteger s p) (h' : SpellsInteger s q) : p = q :=
  Number.int.inj (Option.some.inj (Eq.trans (Eq.symm h) h'))

theorem OrdersTextsAsNumbers.leads (h : OrdersTextsAsNumbers items) (hkeep : keep ≠ .eq)
    (hs : text s ∈ items) (ht : text t ∈ items) (hx : x ∈ items) (hp : SpellsInteger s p)
    (hq : SpellsInteger t q) (hn : IsInteger x n) (hleft : Leads keep p.toInt n.toInt)
    (hright : Leads keep n.toInt q.toInt) (hne : p ≠ q) : Leads keep s t := by
  refine leads_of_compare_eq hkeep ?_
  cases keep with
  | eq => exact absurd rfl hkeep
  | lt =>
    simp only [Leads, Ordering.swap, ne_eq, Int.compare_eq_gt, Int.not_lt] at hleft hright
    exact h hs ht hx hp hq hn hleft hright hne
  | gt =>
    simp only [Leads, Ordering.swap, ne_eq, Int.compare_eq_lt, Int.not_lt] at hleft hright
    exact Std.OrientedCmp.gt_of_lt (h ht hs hx hq hp hn hright hleft (Ne.symm hne))

/-- Two texts with a number between theirs do not lead the other way round as well. -/
theorem OrdersTextsAsNumbers.not_leads (h : OrdersTextsAsNumbers items) (hkeep : keep ≠ .eq)
    (hs : text s ∈ items) (ht : text t ∈ items) (hx : x ∈ items) (hp : SpellsInteger s p)
    (hq : SpellsInteger t q) (hn : IsInteger x n) (hleft : Leads keep p.toInt n.toInt)
    (hright : Leads keep n.toInt q.toInt) (hne : p ≠ q) : ¬Leads keep t s := by
  intro hback
  obtain rfl := eq_of_leads hkeep hback (h.leads hkeep hs ht hx hp hq hn hleft hright hne)
  exact hne (hp.unique hq)

/-- A value is at least as good as a value that is not better. -/
theorem Compares.reaches (h : Compares x y order) (hkeep : keep ≠ .eq) (hx : x ∈ items)
    (hy : y ∈ items) (horder : order ≠ keep.swap) : Reaches keep items x y := by
  cases h with
  | texts s t => exact .texts horder
  | lists as bs => exact .lists horder
  | integers hp hq => exact .integers hp hq horder
  | textInteger hp hq => exact .textInteger hx hp hq (leads_refl hkeep _) horder
  | integerText hp hq => exact .integerText hp hy hq horder (leads_refl hkeep _)

theorem cmpList_ne_swap_trans {as bs cs : List Value} (hkeep : keep ≠ .eq)
    (ha : areFloatFree as) (hb : areFloatFree bs) (hc : areFloatFree cs)
    (hab : cmpList as bs ≠ keep.swap) (hbc : cmpList bs cs ≠ keep.swap) :
    cmpList as cs ≠ keep.swap := by
  cases keep with
  | eq => exact absurd rfl hkeep
  | lt => exact cmpList_ne_gt_trans ha hb hc hab hbc
  | gt =>
    refine (cmpList_ne_lt_iff ha hc).mpr (cmpList_ne_gt_trans hc hb ha ?_ ?_)
    · exact (cmpList_ne_lt_iff hb hc).mp hbc
    · exact (cmpList_ne_lt_iff ha hb).mp hab

section

variable (hkeep : keep ≠ .eq) (hitems : OrdersTextsAsNumbers items)

include hkeep hitems

/-- What is better than the best value is at least as good as everything that the best value
is at least as good as. -/
theorem Reaches.of_better (hfloats : ∀ v ∈ items, v.AvoidsFloats) (hitem : item ∈ items)
    (hbest : best ∈ items) (hx : x ∈ items) (hcompares : Compares item best order)
    (hbetter : order = keep) (h : Reaches keep items best x) : Reaches keep items item x := by
  cases hcompares with
  | texts s t =>
    have hst := leads_of_compare_eq hkeep hbetter
    cases h with
    | texts htext => exact .texts (hst.trans hkeep htext)
    | integers hp => nomatch hp
    | textInteger hc hspells hy htext hnumber =>
      exact .textInteger hc hspells hy (hst.trans hkeep htext) hnumber
    | integerText hp => nomatch hp
  | lists as bs =>
    cases h with
    | lists hlist =>
      refine .lists (cmpList_ne_swap_trans hkeep (hfloats _ hitem).isFloatFree
        (hfloats _ hbest).isFloatFree (hfloats _ hx).isFloatFree ?_ hlist)
      rw [hbetter]
      cases keep <;> first | exact absurd rfl hkeep | decide
    | integers hp => nomatch hp
    | integerText hp => nomatch hp
  | integers hitem' hbest' =>
    have hlead := leads_of_compare_eq hkeep hbetter
    cases h with
    | texts | lists | textInteger => nomatch hbest'
    | integers hp hq hnumber =>
      obtain rfl := hbest'.unique hp
      exact .integers hitem' hq (hlead.trans hkeep hnumber)
    | integerText hp hc hspells hnumber htext =>
      obtain rfl := hbest'.unique hp
      exact .integerText hitem' hc hspells (hlead.trans hkeep hnumber) htext
  | textInteger hspells hbest' =>
    have hlead := leads_of_compare_eq hkeep hbetter
    cases h with
    | texts | lists | textInteger => nomatch hbest'
    | integers hp hq hnumber =>
      obtain rfl := hbest'.unique hp
      exact .textInteger hitem hspells hq (leads_refl hkeep _) (hlead.trans hkeep hnumber)
    | integerText hp hc hspells' hnumber htext =>
      -- The number between the two texts is the best value so far.
      obtain rfl := hbest'.unique hp
      refine .texts (Leads.trans hkeep ?_ htext)
      refine hitems.leads hkeep hitem hc hbest hspells hspells' hp hlead hnumber ?_
      rintro rfl
      exact not_leads_of_compare_eq hbetter hnumber
  | @integerText _ t p q hitem' hspells =>
    have hlead := leads_of_compare_eq hkeep hbetter
    cases h with
    | texts htext => exact .integerText hitem' hbest hspells hlead htext
    | integers hp => nomatch hp
    | @textInteger _ c _ r _ hc hspells' hq htext hnumber =>
      -- Otherwise the new value is a number between the two texts.
      refine .integers hitem' hq (Leads.trans hkeep ?_ hnumber)
      by_contra hnot
      have hleft := leads_of_compare_eq hkeep (compare_eq_of_not_leads hnot)
      have hne : r ≠ q := by
        rintro rfl
        exact hnot hlead
      exact hitems.not_leads hkeep hc hbest hitem hspells' hspells hitem' hleft hlead hne htext
    | integerText hp => nomatch hp

/-- The best value compares as such with everything that it is at least as good as. -/
theorem Reaches.ne_swap (hbest : best ∈ items) (hx : x ∈ items) (h : Reaches keep items best x)
    (hcompares : Compares best x order) : order ≠ keep.swap := by
  cases hcompares with
  | texts s t =>
    cases h with
    | texts htext => exact htext
    | integers hp => nomatch hp
    | textInteger _ _ hq => nomatch hq
    | integerText hp => nomatch hp
  | lists as bs =>
    cases h with
    | lists hlist => exact hlist
    | integers hp => nomatch hp
  | integers hbest' hx' =>
    cases h with
    | texts | lists | textInteger => nomatch hbest'
    | integers hp hq hnumber =>
      obtain rfl := hbest'.unique hp
      obtain rfl := hx'.unique hq
      exact hnumber
    | integerText => nomatch hx'
  | @textInteger s _ p q hspells hx' =>
    cases h with
    | texts | integerText => nomatch hx'
    | integers hp => nomatch hp
    | @textInteger _ c _ r _ hc hspells' hq htext hnumber =>
      obtain rfl := hx'.unique hq
      by_contra hnot
      have hright := leads_of_compare_eq hkeep (compare_eq_of_not_leads fun h => h hnot)
      have hne : r ≠ p := by
        rintro rfl
        exact hnumber hnot
      exact hitems.not_leads hkeep hc hbest hx hspells' hspells hx' hnumber hright hne htext
  | @integerText _ t p q hbest' hspells =>
    cases h with
    | texts | textInteger => nomatch hbest'
    | integers _ hq => nomatch hq
    | @integerText _ c _ p' r hp hc hspells' hnumber htext =>
      obtain rfl := hbest'.unique hp
      by_contra hnot
      have hleft := leads_of_compare_eq hkeep (compare_eq_of_not_leads fun h => h hnot)
      have hne : q ≠ r := by
        rintro rfl
        exact hnumber hnot
      exact hitems.not_leads hkeep hx hc hbest hspells hspells' hbest' hleft hnumber hne htext

/-- Going on from the best of the values that have been seen gives the best of all values. -/
theorem reaches_of_extremumFrom (hfloats : ∀ v ∈ items, v.AvoidsFloats) {seen : List Value}
    (hbest : best ∈ items) (hseen : ∀ x ∈ seen, x ∈ items) (hothers : ∀ x ∈ others, x ∈ items)
    (hreaches : ∀ x ∈ seen, x = best ∨ Reaches keep items best x) {m : Value}
    (h : Builtin.extremumFrom f keep best others = .ok m) :
    ∀ x ∈ seen ++ others, x = m ∨ Reaches keep items m x := by
  induction others generalizing best seen with
  | nil =>
    obtain rfl : best = m := Except.ok.inj h
    rwa [List.append_nil]
  | cons item others ih =>
    obtain ⟨hitem, hothers⟩ := List.forall_mem_cons.mp hothers
    rw [Builtin.extremumFrom] at h
    obtain ⟨order, horder, hrest⟩ := bind_eq_ok_iff.mp h
    have hcompares := compares_of_compareBy (hfloats item hitem) (hfloats best hbest) horder
    rw [List.append_cons]
    have hseen' : ∀ x ∈ seen ++ [item], x ∈ items := fun x hx => by
      rcases List.mem_append.mp hx with hx | hx
      · exact hseen x hx
      · exact List.mem_singleton.mp hx ▸ hitem
    by_cases hbetter : order = keep
    · rw [if_pos hbetter] at hrest
      refine ih hitem hseen' hothers (fun x hx => ?_) hrest
      rcases List.mem_append.mp hx with hx | hx
      · refine .inr ?_
        rcases hreaches x hx with rfl | hreach
        · refine hcompares.reaches hkeep hitem hbest ?_
          rw [hbetter]
          cases keep <;> first | exact absurd rfl hkeep | decide
        · exact hreach.of_better hkeep hitems hfloats hitem hbest (hseen x hx) hcompares hbetter
      · exact .inl (List.mem_singleton.mp hx)
    · rw [if_neg hbetter] at hrest
      refine ih hbest hseen' hothers (fun x hx => ?_) hrest
      rcases List.mem_append.mp hx with hx | hx
      · exact hreaches x hx
      · obtain rfl := List.mem_singleton.mp hx
        have hswap := hcompares.swap (hfloats _ hitem) (hfloats best hbest)
        exact .inr (hswap.reaches hkeep hbest hitem fun h => hbetter (Ordering.swap_inj.mp h))

end

theorem OrdersTextsAsNumbers.of_perm {items' : List Value} (h : OrdersTextsAsNumbers items)
    (hperm : items.Perm items') : OrdersTextsAsNumbers items' :=
  fun hs ht hx => h (hperm.mem_iff.mpr hs) (hperm.mem_iff.mpr ht) (hperm.mem_iff.mpr hx)

/-- A value is not before itself. -/
theorem Compares.eq_of_self (hx : x.AvoidsFloats) (h : Compares x x order) : order = .eq := by
  have hswap := h.unique (h.swap hx hx)
  cases order <;> first | rfl | cases hswap

theorem mem_of_extremumFrom {m : Value} (h : Builtin.extremumFrom f keep best others = .ok m) :
    m ∈ best :: others := by
  induction others generalizing best with
  | nil => exact List.mem_singleton.mpr (Except.ok.inj h).symm
  | cons item others ih =>
    rw [Builtin.extremumFrom] at h
    obtain ⟨order, -, hrest⟩ := bind_eq_ok_iff.mp h
    have hmem := ih hrest
    split at hmem
    · exact List.mem_cons_of_mem _ hmem
    · rcases List.mem_cons.mp hmem with rfl | hmem
      · exact List.mem_cons_self
      · exact List.mem_cons_of_mem _ (List.mem_cons_of_mem _ hmem)

end Value

namespace Builtin

open Value

variable {args items : List Value} {m : Value} {f : Builtin} {keep : Ordering}

/-- Whether the least or greatest of some values is asked for: they are the arguments, or the
items of the only one. -/
def IsCalledOn (args items : List Value) : Prop :=
  args = [.list items] ∨ args = items ∧ ∀ others, args ≠ [.list others]

/-- Whether a value stands first among some values: a comparison of it with any of them holds
whenever it has an answer, and for any order of the values the result of the function is the
same but for ties. -/
structure IsExtremum (f : Builtin) (op : BinaryOp) (items : List Value) (m : Value) : Prop where
  holds : ∀ x ∈ items, ∀ answer, applyBinary op m x = .ok answer → answer = .bool true
  unique : ∀ args' items' m', IsCalledOn args' items' → items.Perm items' →
    apply f args' = .ok m' → ∀ order, compareBy f.name m m' = .ok order → order = .eq

theorem exists_of_extremum (hargs : IsCalledOn args items) (h : extremum f keep args = .ok m) :
    ∃ first others, items = first :: others ∧ extremumFrom f keep first others = .ok m := by
  have hitems : extremum f keep args = extremum f keep [.list items] := by
    rcases hargs with rfl | ⟨rfl, hargs⟩
    · rfl
    · match args, hargs with
      | [], _ => rfl
      | [.list others], hargs => exact absurd rfl (hargs others)
      | [.null], _ | [.bool _], _ | [.int _], _ | [.float _], _ | [.text _], _ => rfl
      | first :: second :: others, _ => cases first <;> rfl
  rw [hitems] at h
  cases items with
  | nil => cases h
  | cons first others => exact ⟨first, others, rfl, h⟩

theorem mem_of_extremum (hargs : IsCalledOn args items) (h : extremum f keep args = .ok m) :
    m ∈ items := by
  obtain ⟨first, others, rfl, hrun⟩ := exists_of_extremum hargs h
  exact mem_of_extremumFrom hrun

theorem ne_swap_of_extremum (hkeep : keep ≠ .eq) (hargs : IsCalledOn args items)
    (hfloats : ∀ v ∈ items, v.AvoidsFloats) (hitems : OrdersTextsAsNumbers items)
    (h : extremum f keep args = .ok m) {x : Value} (hx : x ∈ items) {order : Ordering}
    (hcompares : Compares m x order) : order ≠ keep.swap := by
  have hmem := mem_of_extremum hargs h
  obtain ⟨first, others, rfl, hrun⟩ := exists_of_extremum hargs h
  have hseen : ∀ x ∈ [first], x ∈ first :: others :=
    List.forall_mem_singleton.mpr List.mem_cons_self
  have hreaches := reaches_of_extremumFrom hkeep hitems hfloats List.mem_cons_self hseen
    (fun x hx => List.mem_cons_of_mem _ hx) (List.forall_mem_singleton.mpr (.inl rfl)) hrun
  rcases hreaches x hx with rfl | hreach
  · rw [hcompares.eq_of_self (hfloats x hx)]
    cases keep <;> first | exact absurd rfl hkeep | decide
  · exact hreach.ne_swap hkeep hitems hmem hx hcompares

theorem isExtremum_of_extremum {op : BinaryOp} {holds : Ordering → Bool} (hkeep : keep ≠ .eq)
    (hf : ∀ args, apply f args = extremum f keep args)
    (hop : ∀ x y, applyBinary op x y = comparison op holds x y)
    (hholds : ∀ order, order ≠ keep.swap → holds order)
    (hargs : IsCalledOn args items) (hfloats : ∀ v ∈ items, v.AvoidsFloats)
    (hitems : OrdersTextsAsNumbers items) (h : apply f args = .ok m) :
    IsExtremum f op items m where
  holds x hx answer hanswer := by
    rw [hf] at h
    rw [hop] at hanswer
    have hm := hfloats m (mem_of_extremum hargs h)
    obtain ⟨order, hcompares, rfl⟩ := exists_compares_of_comparison hm (hfloats x hx) hanswer
    rw [hholds order (ne_swap_of_extremum hkeep hargs hfloats hitems h hx hcompares)]
  unique args' items' m' hargs' hperm h' order horder := by
    rw [hf] at h h'
    have hm := mem_of_extremum hargs h
    have hm' := hperm.mem_iff.mpr (mem_of_extremum hargs' h')
    have hcompares := compares_of_compareBy (hfloats m hm) (hfloats m' hm') horder
    -- Each of the two results is compared with the other one as one of the values.
    have hfirst := ne_swap_of_extremum hkeep hargs hfloats hitems h hm' hcompares
    have hsecond := ne_swap_of_extremum hkeep hargs' (fun v hv => hfloats v (hperm.mem_iff.mpr hv))
      (hitems.of_perm hperm) h' (hperm.mem_iff.mp hm)
      (hcompares.swap (hfloats m hm) (hfloats m' hm'))
    cases keep <;> cases order <;> first | rfl | contradiction

/-- The functions for the least and the greatest value give one of the values.  If no number
among them lies between two texts that are ordered one way as numbers and the other way as
texts, then the result stands first among all that it can be compared with. -/
theorem apply_min_max (hargs : IsCalledOn args items) (hfloats : ∀ v ∈ items, v.AvoidsFloats) :
    (∀ m, apply .min args = .ok m →
      m ∈ items ∧ (OrdersTextsAsNumbers items → IsExtremum .min .le items m)) ∧
    (∀ m, apply .max args = .ok m →
      m ∈ items ∧ (OrdersTextsAsNumbers items → IsExtremum .max .ge items m)) := by
  refine ⟨fun m h => ⟨mem_of_extremum hargs h, fun hitems => ?_⟩,
    fun m h => ⟨mem_of_extremum hargs h, fun hitems => ?_⟩⟩
  · have hkeep : Ordering.lt ≠ .eq := nofun
    exact isExtremum_of_extremum hkeep (fun _ => rfl) (fun _ _ => rfl) (by decide) hargs hfloats
      hitems h
  · have hkeep : Ordering.gt ≠ .eq := nofun
    exact isExtremum_of_extremum hkeep (fun _ => rfl) (fun _ _ => rfl) (by decide) hargs hfloats
      hitems h

theorem spellsInteger_nine : SpellsInteger "9" 9 := by
  rw [SpellsInteger]
  decide

/-- The texts are ordered the wrong way round, but the number does not lie between them. -/
theorem apply_min_max_four :
    let items : List Value := [.text "9", .text "10", .int 4]
    IsCalledOn items items ∧ (∀ v ∈ items, v.AvoidsFloats) ∧ OrdersTextsAsNumbers items ∧
      apply .min items = .ok (.int 4) ∧ IsExtremum .min .le items (.int 4) := by
  intro items
  have hnine := spellsInteger_nine
  have hten := spellsInteger_ten
  have hargs : IsCalledOn items items := .inr ⟨rfl, by simp [items]⟩
  have hfloats : ∀ v ∈ items, v.AvoidsFloats := by
    simp only [items, List.forall_mem_cons]
    exact ⟨hnine.avoidsFloats, hten.avoidsFloats, avoidsFloats_int 4, nofun⟩
  have hitems : OrdersTextsAsNumbers items := by
    intro s t x p q n hs _ hx hp _ hn hle _ _
    have hp' : p = 9 ∨ p = 10 := by
      simp only [items, List.mem_cons, text.injEq, reduceCtorEq, List.not_mem_nil, or_false] at hs
      rcases hs with rfl | rfl
      · exact .inl (hp.unique hnine)
      · exact .inr (hp.unique hten)
    have hn' : n = 4 := by
      simp only [items, List.mem_cons, List.not_mem_nil, or_false] at hx
      rcases hx with rfl | rfl | rfl
      · nomatch hn
      · nomatch hn
      · exact hn.unique (.int 4)
    subst hn'
    rcases hp' with rfl | rfl
    · exact absurd hle (by decide)
    · exact absurd hle (by decide)
  have hmin : apply .min items = .ok (.int 4) := rfl
  exact ⟨hargs, hfloats, hitems, hmin, ((apply_min_max hargs hfloats).1 _ hmin).2 hitems⟩

/-- A text that comes first as a text need not come first as a number. -/
theorem apply_min_nine_ten :
    let items : List Value := [.text "9", .int 9, .text "10"]
    (∀ v ∈ items, v.AvoidsFloats) ∧ apply .min items = .ok (.text "10") ∧
      applyBinary .le (.text "10") (.int 9) = .ok (.bool false) := by
  intro items
  refine ⟨?_, rfl, rfl⟩
  simp only [items, List.forall_mem_cons]
  exact ⟨spellsInteger_nine.avoidsFloats, avoidsFloats_int 9, spellsInteger_ten.avoidsFloats,
    by simp⟩

end Builtin
end TableQuery
