import TableQuery.Proofs.Value.Order

/-!
# Values in linear order

Where no doubles occur the order of values is linear, and two values are equal in it only if
they are the same.  The order of lists of values is the lexicographic order of their items,
in which a list comes before its own extensions, and it is linear for the same reason.
-/

namespace TableQuery

/-- The laws of a comparison that orders what satisfies a predicate linearly. -/
structure OrdersLinearly {α : Type} (cmp : α → α → Ordering) (P : α → Prop) : Prop where
  /-- The order is turned round when it is seen from the other side. -/
  swap {a b : α} (ha : P a) (hb : P b) : (cmp a b).swap = cmp b a
  /-- What does not come after the next one does not come after the one behind that. -/
  trans {a b c : α} (ha : P a) (hb : P b) (hc : P c) (hab : cmp a b ≠ .gt)
    (hbc : cmp b c ≠ .gt) : cmp a c ≠ .gt
  /-- Only the same thing is equal in the order. -/
  eq_iff {a b : α} (ha : P a) (hb : P b) : cmp a b = .eq ↔ a = b

namespace Value

/-! ## Values -/

/-- Values are ordered like the lists that hold nothing else. -/
theorem cmpList_singleton (a b : Value) : cmpList [a] [b] = a.cmp b := by
  simp only [cmpList]
  exact Ordering.then_eq

theorem areFloatFree_singleton {a : Value} (ha : a.isFloatFree) : areFloatFree [a] := by
  rw [areFloatFree, ha]
  rfl

theorem cmp_ne_gt_trans {a b c : Value} (ha : a.isFloatFree) (hb : b.isFloatFree)
    (hc : c.isFloatFree) (hab : a.cmp b ≠ .gt) (hbc : b.cmp c ≠ .gt) : a.cmp c ≠ .gt := by
  rw [← cmpList_singleton] at hab hbc ⊢
  exact cmpList_ne_gt_trans (areFloatFree_singleton ha) (areFloatFree_singleton hb)
    (areFloatFree_singleton hc) hab hbc

theorem ordersLinearly_cmp : OrdersLinearly cmp fun a => a.isFloatFree where
  swap := swap_cmp
  trans := cmp_ne_gt_trans
  eq_iff := cmp_eq_iff

/-! ## Lists of values -/

theorem ordersLinearly_cmpList : OrdersLinearly cmpList fun as => areFloatFree as where
  swap := swap_cmpList
  trans := cmpList_ne_gt_trans
  eq_iff := cmpList_eq_iff

/-- Lists come before one another as their items do at the first place at which they
differ. -/
theorem cmpList_eq_lt_iff {as bs : List Value} (ha : areFloatFree as) (hb : areFloatFree bs) :
    cmpList as bs = .lt ↔ List.Lex (fun a b => a.cmp b = .lt) as bs := by
  induction as generalizing bs with
  | nil =>
    cases bs with
    | nil => simp [cmpList]
    | cons b bs => simp [cmpList]
  | cons a as ih =>
    cases bs with
    | nil => simp [cmpList]
    | cons b bs =>
      simp only [areFloatFree, Bool.and_eq_true] at ha hb
      rw [cmpList, Ordering.then_eq_lt, cmp_eq_iff ha.1 hb.1, ih ha.2 hb.2]
      constructor
      · rintro (hfirst | ⟨rfl, hothers⟩)
        · exact .rel hfirst
        · exact .cons hothers
      · intro h
        cases h with
        | rel hfirst => exact .inl hfirst
        | cons hothers => exact .inr ⟨rfl, hothers⟩

/-- A list comes before its own extensions. -/
theorem cmpList_append_cons {as : List Value} (ha : areFloatFree as) (b : Value)
    (bs : List Value) : cmpList as (as ++ b :: bs) = .lt := by
  induction as with
  | nil => rfl
  | cons a as ih =>
    simp only [areFloatFree, Bool.and_eq_true] at ha
    rw [List.cons_append, cmpList, cmp_self ha.1, ih ha.2]
    rfl

/-- Where no doubles occur, values and lists of values are in linear order, and that of lists
is the lexicographic one, in which a list comes before its own extensions. -/
theorem ordersLinearly_cmp_cmpList_lex :
    OrdersLinearly cmp (fun a => a.isFloatFree) ∧
      OrdersLinearly cmpList (fun as => areFloatFree as) ∧
      (∀ as bs, areFloatFree as → areFloatFree bs →
        (cmpList as bs = .lt ↔ List.Lex (fun a b => a.cmp b = .lt) as bs)) ∧
      ∀ as b bs, areFloatFree as → cmpList as (as ++ b :: bs) = .lt := by
  refine ⟨ordersLinearly_cmp, ordersLinearly_cmpList, ?_, ?_⟩
  · intro as bs ha hb
    exact cmpList_eq_lt_iff ha hb
  · intro as b bs ha
    exact cmpList_append_cons ha b bs

/-- A number comes before a text inside of a list, whatever follows, and a list comes before a
longer one. -/
theorem ordersLinearly_cmp_cmpList_lex_nested :
    let as := [null, list [int 9, text "a"]]
    let bs := [null, list [text "9"]]
    areFloatFree as ∧ areFloatFree bs ∧ cmpList as bs = .lt ∧ cmpList bs as = .gt ∧
      cmpList as (as ++ [bool false]) = .lt := by
  intro as bs
  have ha : areFloatFree as := by decide
  have hb : areFloatFree bs := by decide
  obtain ⟨-, hlists, hlex, hfront⟩ := ordersLinearly_cmp_cmpList_lex
  have hlt : cmpList as bs = .lt := (hlex as bs ha hb).mpr (.cons (.rel (by decide)))
  have hgt : cmpList bs as = .gt := by
    rw [← hlists.swap ha hb, hlt]
    rfl
  exact ⟨ha, hb, hlt, hgt, hfront as (bool false) [] ha⟩

end Value
end TableQuery
