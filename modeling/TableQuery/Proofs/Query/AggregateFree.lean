import TableQuery.Proofs.Query.Scoping

/-!
# Expressions without aggregates

Binding numbers the aggregates of a query from left to right.  An expression that calls no
aggregate function has the same meaning wherever it stands.  There is no function in it
either, since only an aggregate takes one.
-/

namespace TableQuery

mutual

/-- Whether there is a function in an expression. -/
def Expr.hasLambda : Expr → Bool
  | .lambda _ _ => true
  | .list items => anyHasLambda items
  | .attribute base _ => base.hasLambda
  | .index base i => base.hasLambda || i.hasLambda
  | .call _ args => anyHasLambda args
  | .binary _ left right => left.hasLambda || right.hasLambda
  | .unary _ operand => operand.hasLambda
  | .isNull _ operand => operand.hasLambda
  | .choice condition chosen otherwise =>
    condition.hasLambda || chosen.hasLambda || otherwise.hasLambda
  | .null | .bool _ | .int _ | .float _ | .text _ | .name _ => false

/-- Whether there is a function in some expressions. -/
def Expr.anyHasLambda : List Expr → Bool
  | [] => false
  | e :: es => e.hasLambda || anyHasLambda es

end

mutual

/-- Whether an aggregate function is called in an expression. -/
def Expr.callsAggregate : Expr → Bool
  | .call f args => (Aggregate.ofName? f).isSome || anyCallsAggregate args
  | .lambda _ body => body.callsAggregate
  | .list items => anyCallsAggregate items
  | .attribute base _ => base.callsAggregate
  | .index base i => base.callsAggregate || i.callsAggregate
  | .binary _ left right => left.callsAggregate || right.callsAggregate
  | .unary _ operand => operand.callsAggregate
  | .isNull _ operand => operand.callsAggregate
  | .choice condition chosen otherwise =>
    condition.callsAggregate || chosen.callsAggregate || otherwise.callsAggregate
  | .null | .bool _ | .int _ | .float _ | .text _ | .name _ => false

/-- Whether an aggregate function is called in some expressions. -/
def Expr.anyCallsAggregate : List Expr → Bool
  | [] => false
  | e :: es => e.callsAggregate || anyCallsAggregate es

end

namespace Expr

theorem exists_name_of_record? {names : Names} {e : Expr} {side : Side}
    (h : names.record? e = some side) : ∃ s, e = name s := by
  cases e with
  | name s => exact ⟨s, rfl⟩
  | _ => cases h

/-- The subscript of a record is a text or an integer. -/
theorem cases_of_subscriptOf {names : Names} {side : Side} {i : Expr} {b : Bound}
    (h : names.subscriptOf side i = .ok b) : (∃ s, i = text s) ∨ ∃ k, i = int k := by
  cases i with
  | text s => exact .inl ⟨s, rfl⟩
  | int k => exact .inr ⟨k, rfl⟩
  | _ => cases h

theorem isSome_ofName?_of_callable? {names : Names} {f : String} {aggregate : Aggregate}
    (h : names.callable? f = some (.aggregate aggregate)) : (Aggregate.ofName? f).isSome := by
  unfold Names.callable? at h
  split at h
  · cases h
  · cases hname : Aggregate.ofName? f with
    | some _ => rfl
    | none =>
      rw [hname] at h
      cases hfunction : names.scope.function? f <;> cases hbuiltin : Builtin.ofName? f <;>
        simp [hfunction, hbuiltin] at h

/-- A call of an aggregate function is one. -/
theorem callsAggregate_call_ne_false {names : Names} {f : String} {aggregate : Aggregate}
    (hf : names.callable? f = some (.aggregate aggregate)) (args : List Expr) :
    (call f args).callsAggregate ≠ false := by
  rw [callsAggregate, isSome_ofName?_of_callable? hf, Bool.true_or]
  exact nofun

mutual

/-- An expression that calls no aggregate function and has a meaning has no functions in it,
and nothing in it is counted. -/
theorem Means.of_callsAggregate {names : Names} {e : Expr} {b : Bound} {n n' : Nat} :
    Means names e n b n' → e.callsAggregate = false →
      e.hasLambda = false ∧ ∀ m, Means names e m b m
  | .null names _, _ => ⟨rfl, .null names⟩
  | .bool names b _, _ => ⟨rfl, .bool names b⟩
  | .int names i _, _ => ⟨rfl, .int names i⟩
  | .float names x _, _ => ⟨rfl, .float names x⟩
  | .text names s _, _ => ⟨rfl, .text names s⟩
  | .name h _, _ => ⟨rfl, .name h⟩
  | .list h, he => (h.of_callsAggregate he).imp_right fun h m => .list (h m)
  | .attribute hrecord h _, _ => by
    obtain ⟨s, rfl⟩ := exists_name_of_record? hrecord
    exact ⟨rfl, .attribute hrecord h⟩
  | .subscript hrecord h _, _ => by
    obtain ⟨s, rfl⟩ := exists_name_of_record? hrecord
    refine ⟨?_, .subscript hrecord h⟩
    obtain ⟨s, rfl⟩ | ⟨k, rfl⟩ := cases_of_subscriptOf h <;> rfl
  | .index hrecord hbase hi, he => by
    obtain ⟨hebase, hei⟩ := Bool.or_eq_false_iff.mp he
    obtain ⟨hlambda, hmeans⟩ := hbase.of_callsAggregate hebase
    obtain ⟨hlambda', hmeans'⟩ := hi.of_callsAggregate hei
    exact ⟨Bool.or_eq_false_iff.mpr ⟨hlambda, hlambda'⟩,
      fun m => .index hrecord (hmeans m) (hmeans' m)⟩
  | .unfold hf harg, he => by
    obtain ⟨-, hargs⟩ := Bool.or_eq_false_iff.mp he
    obtain ⟨hlambda, hmeans⟩ := harg.of_callsAggregate (Bool.or_eq_false_iff.mp hargs).1
    exact ⟨Bool.or_eq_false_iff.mpr ⟨hlambda, rfl⟩, fun m => .unfold hf (hmeans m)⟩
  | .aggregate hf _, he => absurd he (callsAggregate_call_ne_false hf _)
  | .gathered hf _ _, he => absurd he (callsAggregate_call_ne_false hf _)
  | .user hf harity hargs, he =>
    (hargs.of_callsAggregate (Bool.or_eq_false_iff.mp he).2).imp_right
      fun h m => .user hf harity (h m)
  | .builtin hf harity hargs, he =>
    (hargs.of_callsAggregate (Bool.or_eq_false_iff.mp he).2).imp_right
      fun h m => .builtin hf harity (h m)
  | .binary op hleft hright, he => by
    obtain ⟨heleft, heright⟩ := Bool.or_eq_false_iff.mp he
    obtain ⟨hlambda, hmeans⟩ := hleft.of_callsAggregate heleft
    obtain ⟨hlambda', hmeans'⟩ := hright.of_callsAggregate heright
    exact ⟨Bool.or_eq_false_iff.mpr ⟨hlambda, hlambda'⟩,
      fun m => .binary op (hmeans m) (hmeans' m)⟩
  | .unary op h, he => (h.of_callsAggregate he).imp_right fun h m => .unary op (h m)
  | .isNull negated h, he => (h.of_callsAggregate he).imp_right fun h m => .isNull negated (h m)
  | .choice hchosen hcondition hotherwise, he => by
    obtain ⟨he, heotherwise⟩ := Bool.or_eq_false_iff.mp he
    obtain ⟨hecondition, hechosen⟩ := Bool.or_eq_false_iff.mp he
    obtain ⟨hlambda, hmeans⟩ := hchosen.of_callsAggregate hechosen
    obtain ⟨hlambda', hmeans'⟩ := hcondition.of_callsAggregate hecondition
    obtain ⟨hlambda'', hmeans''⟩ := hotherwise.of_callsAggregate heotherwise
    refine ⟨?_, fun m => .choice (hmeans m) (hmeans' m) (hmeans'' m)⟩
    rw [hasLambda, hlambda, hlambda', hlambda'']
    rfl

theorem MeanAll.of_callsAggregate {names : Names} {es : List Expr} {bs : List Bound}
    {n n' : Nat} : MeanAll names es n bs n' → anyCallsAggregate es = false →
      anyHasLambda es = false ∧ ∀ m, MeanAll names es m bs m
  | .nil names _, _ => ⟨rfl, .nil names⟩
  | .cons h hs, hes => by
    obtain ⟨he, hes⟩ := Bool.or_eq_false_iff.mp hes
    obtain ⟨hlambda, hmeans⟩ := h.of_callsAggregate he
    obtain ⟨hlambda', hmeans'⟩ := hs.of_callsAggregate hes
    exact ⟨Bool.or_eq_false_iff.mpr ⟨hlambda, hlambda'⟩, fun m => .cons (hmeans m) (hmeans' m)⟩

end

/-- The same for binding. -/
theorem run_bind_of_callsAggregate (e : Expr) {names : Names} {b : Bound} {count count' : Nat}
    (he : e.callsAggregate = false) (h : (e.bind names).run count = .ok (b, count')) :
    e.hasLambda = false ∧ ∀ n, (e.bind names).run n = .ok (b, n) := by
  obtain ⟨hlambda, hmeans⟩ := (run_bind_eq_ok_iff_means.mp h).of_callsAggregate he
  exact ⟨hlambda, fun n => (hmeans n).run_bind⟩

/-- What stands for a field is a name, an attribute or a subscript of a record. -/
theorem callsAggregate_of_run_bind_eq_field {e : Expr} {names : Names} {side : Side} {index : Nat}
    {spelling : String} {count count' : Nat}
    (h : (e.bind names).run count = .ok (.field side index spelling, count')) :
    e.callsAggregate = false := by
  match run_bind_eq_ok_iff_means.mp h with
  | .name _ _ => rfl
  | .attribute hrecord _ _ =>
    obtain ⟨s, rfl⟩ := exists_name_of_record? hrecord
    rfl
  | .subscript hrecord hi _ =>
    obtain ⟨s, rfl⟩ := exists_name_of_record? hrecord
    obtain ⟨s, rfl⟩ | ⟨k, rfl⟩ := cases_of_subscriptOf hi <;> rfl

end Expr
end TableQuery
