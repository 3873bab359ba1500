import TableQuery.Proofs.Expression.Scoping
import TableQuery.Proofs.Query.Meanings

/-!
# Binding gives well-scoped expressions

A name in the body of a function can stand for one of its parameters, and nothing else in
the body depends on where the function is called; a name in a clause of a query can stand
for part of a record.  In both a call stands for a known function with as many arguments as
it has parameters.
-/

namespace TableQuery

/-! ## Names -/

namespace Names

variable {names : Names} {side : Side} {spelling name : String} {e b : Bound}

/-- Whether an expression is well scoped where these are the names. -/
def Scopes (names : Names) (e : Bound) : Prop :=
  e.WellScoped names.scope.functions names.params.length names.columns.isSome

/-- Expressions read records only where columns are visible. -/
theorem readingOf_eq_ok (h : names.readingOf side spelling e = .ok b) :
    b = e ∧ names.columns.isSome = true := by
  unfold readingOf at h
  split at h
  · next columns hcolumns =>
    obtain ⟨found, hfound, -⟩ := Option.bind_eq_some_iff.mp hcolumns
    exact ⟨(Except.ok.inj h).symm, by rw [hfound]; rfl⟩
  · cases h

theorem scopes_field {index : Nat} (h : names.field side index spelling = .ok b) :
    names.Scopes b := by
  obtain ⟨rfl, hreads⟩ := readingOf_eq_ok h
  exact hreads

/-- A name that stands for a number of a record or of its fields. -/
theorem scopes_property {e : Bound} (he : (∃ side, e = .recordNumber side) ∨
    ∃ side, e = .fieldCount side) (h : names.readingOf side spelling e = .ok b) :
    names.Scopes b := by
  obtain ⟨rfl, hreads⟩ := readingOf_eq_ok h
  obtain ⟨side, rfl⟩ | ⟨side, rfl⟩ := he <;> exact hreads

theorem property?_cases (h : property? side name = some e) :
    (∃ side, e = .recordNumber side) ∨ ∃ side, e = .fieldCount side := by
  unfold property? at h
  split at h <;> cases h
  · exact .inl ⟨side, rfl⟩
  · exact .inr ⟨side, rfl⟩

theorem sidedProperty?_cases (h : sidedProperty? name = some (side, e)) :
    (∃ side, e = .recordNumber side) ∨ ∃ side, e = .fieldCount side := by
  unfold sidedProperty? at h
  split at h <;> cases h
  all_goals first | exact .inl ⟨_, rfl⟩ | exact .inr ⟨_, rfl⟩

/-- The slot of a parameter is one of those of the function. -/
theorem lt_of_slot? {slot : Nat} (h : names.slot? name = some slot) :
    slot < names.params.length := by
  obtain ⟨i, hi, rfl⟩ := Option.map_eq_some_iff.mp h
  obtain ⟨hlt, -⟩ := List.findIdx?_eq_some_iff_getElem.mp hi
  rw [List.length_reverse] at hlt
  omega

theorem scopes_visible {meaning : Except QueryFault Bound}
    (h : names.visible? name = some meaning) (hb : meaning = .ok b) : names.Scopes b := by
  subst hb
  unfold visible? at h
  split at h
  · next hproperty => exact scopes_property (sidedProperty?_cases hproperty) (Option.some.inj h)
  · obtain ⟨⟨side, index⟩, -, hfield⟩ := Option.map_eq_some_iff.mp h
    exact scopes_field hfield

theorem scopes_identifier (h : names.identifier name = .ok b) : names.Scopes b := by
  unfold identifier at h
  split at h
  · next slot hslot =>
    cases h
    exact lt_of_slot? hslot
  · split at h
    · next meaning hmeaning =>
      split at hmeaning
      · exact scopes_visible hmeaning h
      · cases hmeaning
    · split at h
      · cases h
        trivial
      · cases h

theorem scopes_attributeOf (h : names.attributeOf side name = .ok b) : names.Scopes b := by
  unfold attributeOf at h
  dsimp only at h
  split at h
  · next hproperty => exact scopes_property (property?_cases hproperty) h
  · cases h
  · split at h
    · exact scopes_field h
    · cases h

theorem scopes_subscriptOf {i : Expr} (h : names.subscriptOf side i = .ok b) :
    names.Scopes b := by
  unfold subscriptOf at h
  split at h
  · dsimp only at h
    split at h
    · cases h
    · split at h
      · exact scopes_field h
      · cases h
  · split at h
    · exact scopes_field h
    · cases h
  · cases h

/-- A defined function is called by its name. -/
theorem mem_of_callable?_eq_user {f : Lambda} (h : names.callable? name = some (.user f)) :
    (name, f) ∈ names.scope.functions := by
  unfold callable? at h
  split at h
  · cases h
  · rcases Option.or_eq_some_iff.mp h with h | ⟨-, h⟩
    · obtain ⟨_, -, h⟩ := Option.map_eq_some_iff.mp h
      cases h
    · rcases Option.or_eq_some_iff.mp h with h | ⟨-, h⟩
      · obtain ⟨_, hlookup, h⟩ := Option.map_eq_some_iff.mp h
        cases h
        obtain ⟨before, after, hfunctions, -⟩ := List.lookup_eq_some_iff.mp hlookup
        rw [hfunctions]
        exact List.mem_append_right before List.mem_cons_self
      · obtain ⟨_, -, h⟩ := Option.map_eq_some_iff.mp h
        cases h

end Names

/-! ## Binding -/

namespace Expr

mutual

/-- What an expression means is well scoped. -/
theorem Means.scopes {names : Names} {e : Expr} {b : Bound} {n n' : Nat} :
    Means names e n b n' → names.Scopes b
  | .null _ _ | .bool _ _ _ | .int _ _ _ | .float _ _ _ | .text _ _ _ => trivial
  | .name h _ => Names.scopes_identifier h
  | .list h => h.scopes
  | .attribute _ h _ => Names.scopes_attributeOf h
  | .subscript _ h _ => Names.scopes_subscriptOf h
  | .index _ hbase hi => ⟨hbase.scopes, hi.scopes⟩
  | .unfold _ harg => (harg.scopes :)
  | .aggregate _ harg => (harg.scopes :)
  | .gathered _ (.lambda hpost) harg => ⟨harg.scopes, hpost.scopes⟩
  | .user hf harity hargs =>
    ⟨Names.mem_of_callable?_eq_user hf, hargs.length_eq.trans harity, hargs.scopes⟩
  | .builtin _ _ hargs => hargs.scopes
  | .binary _ hleft hright => ⟨hleft.scopes, hright.scopes⟩
  | .unary _ h => (h.scopes :)
  | .isNull _ h => (h.scopes :)
  | .choice hchosen hcondition hotherwise =>
    ⟨hcondition.scopes, hchosen.scopes, hotherwise.scopes⟩

theorem MeanAll.scopes {names : Names} {es : List Expr} {bs : List Bound} {n n' : Nat} :
    MeanAll names es n bs n' →
      Bound.AllWellScoped names.scope.functions names.params.length names.columns.isSome bs
  | .nil _ _ => trivial
  | .cons h hs => ⟨h.scopes, hs.scopes⟩

end

/-- Binding gives well-scoped expressions. -/
theorem scopes_bind (e : Expr) {names : Names} {b : Bound} {count count' : Nat}
    (h : (e.bind names).run count = .ok (b, count')) : names.Scopes b :=
  (run_bind_eq_ok_iff_means.mp h).scopes

theorem wellScoped_of_bindBody {scope : Scope} {params : List String} {e : Expr} {b : Bound}
    (h : e.bindBody scope params = .ok b) : b.WellScoped scope.functions params.length false := by
  obtain ⟨⟨_, _⟩, hrun, rfl⟩ := map_eq_ok_iff.mp h
  exact scopes_bind e hrun

end Expr
end TableQuery
