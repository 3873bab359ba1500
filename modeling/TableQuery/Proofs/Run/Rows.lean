import TableQuery.Proofs.Except
import TableQuery.Run.Execution

/-!
# Rows and the condition

Which rows an input record stands in and which of them a query looks at, said without the
functions that find it out: by the partners that the join index has for the record, and by
the value of the condition.
-/

namespace TableQuery

/-! ## The condition -/

/-- A value counts as true unless it is absent, false, zero or empty. -/
inductive Value.CountsAsTrue : Value → Prop where
  | bool : CountsAsTrue (.bool true)
  | int {n : Int64} (hnonzero : n ≠ 0) : CountsAsTrue (.int n)
  /-- Neither of the two zeros counts as true. -/
  | float {x : Double} (hplus : x.bits ≠ 0) (hminus : x.bits ≠ 0x8000000000000000) :
    CountsAsTrue (.float x)
  | text {s : String} (hnonempty : s ≠ "") : CountsAsTrue (.text s)
  | list {items : List Value} (hnonempty : items ≠ []) : CountsAsTrue (.list items)

theorem Double.isZero_eq_false_iff {x : Double} :
    x.isZero = false ↔ x.bits ≠ 0 ∧ x.bits ≠ 0x8000000000000000 := by
  have hbound := x.bits.toNat_lt
  have hplus : x.bits = 0 ↔ x.bits.toNat = 0 := UInt64.toNat_inj.symm
  have hminus : x.bits = 0x8000000000000000 ↔ x.bits.toNat = 9223372036854775808 :=
    UInt64.toNat_inj.symm
  have hpow : Nat.pow 2 63 = 9223372036854775808 := rfl
  rw [Ne, Ne, hplus, hminus, isZero, magnitude, beq_eq_false_iff_ne, hpow]
  omega

theorem Value.isTruthy_iff {v : Value} : v.isTruthy = true ↔ v.CountsAsTrue := by
  constructor
  · intro h
    cases v with
    | null => cases h
    | bool b =>
      obtain rfl : b = true := h
      exact .bool
    | int n => exact .int (bne_iff_ne.mp h)
    | float x =>
      have hzero : x.isZero = false := by simpa [isTruthy] using h
      obtain ⟨hplus, hminus⟩ := Double.isZero_eq_false_iff.mp hzero
      exact .float hplus hminus
    | text s =>
      refine .text ?_
      rintro rfl
      cases h
    | list items =>
      refine .list ?_
      rintro rfl
      cases h
  · intro h
    cases h with
    | bool => rfl
    | int hnonzero => exact bne_iff_ne.mpr hnonzero
    | float hplus hminus =>
      have hzero := Double.isZero_eq_false_iff.mpr ⟨hplus, hminus⟩
      simp [isTruthy, hzero]
    | text hnonempty => simpa [isTruthy] using hnonempty
    | list hnonempty => simpa [isTruthy] using hnonempty

theorem Row.eval_eq_ok_iff {row : Row} {e : Bound} {v : Value} :
    row.eval e = .ok v ↔ e.eval row [] = .ok v := by
  constructor
  · exact eq_ok_of_mapError
  · intro h
    rw [eval, h, mapError_ok]

/-- Expressions have values exactly if each of them has one. -/
theorem Bound.evalAll_eq_ok_iff {row : Row} {es : List Bound} {vs : List Value} :
    Bound.evalAll row [] es = .ok vs ↔ List.Forall₂ (fun e v => e.eval row [] = .ok v) es vs := by
  induction es generalizing vs with
  | nil =>
    rw [Bound.evalAll, List.forall₂_nil_left_iff]
    exact ⟨fun h => (Except.ok.inj h).symm, fun h => h ▸ rfl⟩
  | cons e es ih =>
    rw [Bound.evalAll, bind_eq_ok_iff, List.forall₂_cons_left_iff]
    constructor
    · rintro ⟨v, hv, h⟩
      obtain ⟨vs, hvs, h⟩ := bind_eq_ok_iff.mp h
      exact ⟨v, vs, hv, ih.mp hvs, (Except.ok.inj h).symm⟩
    · rintro ⟨v, vs, hv, hvs, rfl⟩
      exact ⟨v, hv, bind_eq_ok_iff.mpr ⟨vs, ih.mpr hvs, rfl⟩⟩

theorem Row.evalAll_eq_ok_iff {row : Row} {es : List Bound} {vs : List Value} :
    row.evalAll es = .ok vs ↔ List.Forall₂ (fun e v => e.eval row [] = .ok v) es vs := by
  rw [← Bound.evalAll_eq_ok_iff]
  constructor
  · exact eq_ok_of_mapError
  · intro h
    rw [evalAll, h, mapError_ok]

namespace Plan

variable {plan : Plan} {row : Row}

/-- A row meets the condition if its value counts as true, or if there is none. -/
def Meets (plan : Plan) (row : Row) : Prop :=
  ∀ condition, plan.condition = some condition →
    ∃ v, condition.eval row [] = .ok v ∧ v.CountsAsTrue

/-- A row misses the condition if its value does not count as true. -/
def Misses (plan : Plan) (row : Row) : Prop :=
  ∃ condition v, plan.condition = some condition ∧ condition.eval row [] = .ok v ∧
    ¬v.CountsAsTrue

theorem selects_eq_true_iff : plan.selects row = .ok true ↔ plan.Meets row := by
  unfold selects Meets
  cases plan.condition with
  | none => simp
  | some condition =>
    simp only [map_eq_ok_iff, Row.eval_eq_ok_iff, Value.isTruthy_iff, Option.some.injEq,
      forall_eq']

theorem selects_eq_false_iff : plan.selects row = .ok false ↔ plan.Misses row := by
  unfold selects Misses
  cases plan.condition with
  | none => simp
  | some condition =>
    simp only [map_eq_ok_iff, Row.eval_eq_ok_iff, ← Value.isTruthy_iff, Bool.not_eq_true,
      Option.some.injEq, exists_and_left, exists_eq_left']

end Plan

/-! ## Partners -/

namespace JoinIndex

variable {other : Hashing} [Hashing] {index : JoinIndex} {record : Record} {number : Nat}

/-- The one partner of a record to update is the one that a select list would see. -/
theorem lookup_of_lookupOne {partner? : Option Partner}
    (h : index.lookupOne record number = .ok partner?) :
    index.lookup record number = .ok partner?.toList := by
  unfold lookupOne at h
  obtain ⟨key, hkey, h⟩ := bind_eq_ok_iff.mp h
  obtain ⟨partners, hpartners, h⟩ := bind_eq_ok_iff.mp h
  have hlookup : index.lookup record number = .ok partners := by
    rw [lookup, hkey]
    exact hpartners
  rw [hlookup]
  split at h
  · cases h
    rfl
  · cases h
    rfl
  · cases h

/-- Partners are found alike if those with the key of the record are. -/
theorem lookup_agrees
    (hfind : ∀ key, index.inputKey record number = .ok key →
      @find other index key = index.find key) :
    @lookup other index record number = index.lookup record number ∧
      @lookupOne other index record number = index.lookupOne record number := by
  unfold lookup lookupOne
  cases hkey : index.inputKey record number with
  | error fault => exact ⟨rfl, rfl⟩
  | ok key =>
    have hpartners : @partnersOf other index key number = index.partnersOf key number := by
      unfold partnersOf
      rw [hfind key hkey]
    constructor
    · exact hpartners
    · dsimp only [bind, Except.bind]
      rw [hpartners]

end JoinIndex

namespace Plan

variable [Hashing]

/-- The rows in which an input record stands: one for each of its partners in their order,
or one without a partner in a query that does not join. -/
inductive StandsIn (record : Record) (number : Nat) : Option JoinIndex → List Row → Prop where
  | alone : StandsIn record number none [⟨record, number, none⟩]
  | joined {index : JoinIndex} {partners : List Partner}
    (hlookup : index.lookup record number = .ok partners) :
    StandsIn record number (some index)
      (partners.map fun partner => ⟨record, number, some partner⟩)

theorem rowsBeside_eq_ok_iff {record : Record} {number : Nat} {index : Option JoinIndex}
    {rows : List Row} :
    rowsBeside index record number = .ok rows ↔ StandsIn record number index rows := by
  constructor
  · intro h
    cases index with
    | none =>
      cases h
      exact .alone
    | some index =>
      obtain ⟨partners, hlookup, rfl⟩ := map_eq_ok_iff.mp h
      exact .joined hlookup
  · intro h
    cases h with
    | alone => rfl
    | joined hlookup => exact map_eq_ok_iff.mpr ⟨_, hlookup, rfl⟩

end Plan
end TableQuery
