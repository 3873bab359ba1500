import TableQuery.Proofs.Except
import TableQuery.Query.Binding

/-!
# The rules of binding

What expressions mean, as rules: one for each kind of expression, and for a call one for each
kind of function.  Binding succeeds exactly where there is a meaning by the rules, so that
what holds of all meanings is shown rule by rule.  A rule also says how the aggregates are
numbered: it leads from the number of the next aggregate before the expression to the number
of the next one behind it.
-/

namespace TableQuery
namespace Expr

/-! ## Rules -/

mutual

/-- What an expression means where these are the names.  The numbers are those of the next
aggregate before the expression and behind it. -/
inductive Means : Names → Expr → Nat → Bound → Nat → Prop
  | null (names : Names) (n : Nat) : Means names .null n (.literal .null) n
  | bool (names : Names) (b : Bool) (n : Nat) : Means names (.bool b) n (.literal (.bool b)) n
  | int (names : Names) (i : Int64) (n : Nat) : Means names (.int i) n (.literal (.int i)) n
  | float (names : Names) (x : Double) (n : Nat) :
    Means names (.float x) n (.literal (.float x)) n
  | text (names : Names) (s : String) (n : Nat) : Means names (.text s) n (.literal (.text s)) n
  | name {names : Names} {s : String} {b : Bound} (h : names.identifier s = .ok b) (n : Nat) :
    Means names (.name s) n b n
  | list {names : Names} {items : List Expr} {bs : List Bound} {n n' : Nat}
    (h : MeanAll names items n bs n') : Means names (.list items) n (.list bs) n'
  | attribute {names : Names} {base : Expr} {part : String} {side : Side} {b : Bound}
    (hrecord : names.record? base = some side) (h : names.attributeOf side part = .ok b)
    (n : Nat) : Means names (.attribute base part) n b n
  | subscript {names : Names} {base i : Expr} {side : Side} {b : Bound}
    (hrecord : names.record? base = some side) (h : names.subscriptOf side i = .ok b)
    (n : Nat) : Means names (.index base i) n b n
  | index {names : Names} {base i : Expr} {base' i' : Bound} {n n' n'' : Nat}
    (hrecord : names.record? base = none) (hbase : Means names base n base' n')
    (hi : Means names i n' i' n'') : Means names (.index base i) n (.index base' i') n''
  | unfold {names : Names} {f : String} {arg : Expr} {arg' : Bound} {n n' : Nat}
    (hf : names.callable? f = some .unfold) (harg : Means names arg n arg' n') :
    Means names (.call f [arg]) n (.unfold arg') n'
  | aggregate {names : Names} {f : String} {aggregate : Aggregate} {arg : Expr} {arg' : Bound}
    {n n' : Nat} (hf : names.callable? f = some (.aggregate aggregate))
    (harg : Means names arg (n + 1) arg' n') :
    Means names (.call f [arg]) n (.aggregate n aggregate arg' none) n'
  | gathered {names : Names} {f : String} {arg post : Expr} {arg' : Bound} {post' : Lambda}
    {n n' : Nat} (hf : names.callable? f = some (.aggregate .arrayAgg))
    (hpost : MeansFunction names post post') (harg : Means names arg (n + 1) arg' n') :
    Means names (.call f [arg, post]) n (.aggregate n .arrayAgg arg' (some post')) n'
  | user {names : Names} {f : String} {g : Lambda} {args : List Expr} {args' : List Bound}
    {n n' : Nat} (hf : names.callable? f = some (.user g)) (harity : args.length = g.arity)
    (hargs : MeanAll names args n args' n') :
    Means names (.call f args) n (.userCall f g args') n'
  | builtin {names : Names} {f : String} {g : Builtin} {args : List Expr} {args' : List Bound}
    {n n' : Nat} (hf : names.callable? f = some (.builtin g)) (harity : g.accepts args.length)
    (hargs : MeanAll names args n args' n') : Means names (.call f args) n (.call g args') n'
  | binary {names : Names} (op : BinaryOp) {left right : Expr} {left' right' : Bound}
    {n n' n'' : Nat} (hleft : Means names left n left' n')
    (hright : Means names right n' right' n'') :
    Means names (.binary op left right) n (.binary op left' right') n''
  | unary {names : Names} (op : UnaryOp) {operand : Expr} {operand' : Bound} {n n' : Nat}
    (h : Means names operand n operand' n') :
    Means names (.unary op operand) n (.unary op operand') n'
  | isNull {names : Names} (negated : Bool) {operand : Expr} {operand' : Bound} {n n' : Nat}
    (h : Means names operand n operand' n') :
    Means names (.isNull negated operand) n (.isNull negated operand') n'
  | choice {names : Names} {condition chosen otherwise : Expr}
    {condition' chosen' otherwise' : Bound} {n n' n'' n''' : Nat}
    (hchosen : Means names chosen n chosen' n')
    (hcondition : Means names condition n' condition' n'')
    (hotherwise : Means names otherwise n'' otherwise' n''') :
    Means names (.choice condition chosen otherwise) n (.choice condition' chosen' otherwise')
      n'''

/-- What some expressions mean, from left to right. -/
inductive MeanAll : Names → List Expr → Nat → List Bound → Nat → Prop
  | nil (names : Names) (n : Nat) : MeanAll names [] n [] n
  | cons {names : Names} {e : Expr} {es : List Expr} {b : Bound} {bs : List Bound}
    {n n' n'' : Nat} (h : Means names e n b n') (hs : MeanAll names es n' bs n'') :
    MeanAll names (e :: es) n (b :: bs) n''

/-- What a function means.  Its parameters take the place of the columns, and the aggregates
in its body have numbers of their own. -/
inductive MeansFunction : Names → Expr → Lambda → Prop
  | lambda {names : Names} {params : List String} {body : Expr} {body' : Bound} {n : Nat}
    (h : Means (Names.ofFunction names.scope params) body 0 body' n) :
    MeansFunction names (.lambda params body) (.mk params.length body')

end

/-! ## Binding follows the rules -/

mutual

/-- Binding gives meanings by the rules only. -/
theorem means_of_run_bind : ∀ (e : Expr) {names : Names} {b : Bound} {n n' : Nat},
    (e.bind names).run n = .ok (b, n') → Means names e n b n'
  | .null, _, _, _, _, h => by cases h; exact .null _ _
  | .bool b, _, _, _, _, h => by cases h; exact .bool _ b _
  | .int i, _, _, _, _, h => by cases h; exact .int _ i _
  | .float x, _, _, _, _, h => by cases h; exact .float _ x _
  | .text s, _, _, _, _, h => by cases h; exact .text _ s _
  | .name s, _, _, _, _, h => by
    rw [bind] at h
    obtain ⟨hs, rfl⟩ := run_lift_eq_ok_iff.mp h
    exact .name hs _
  | .list items, _, _, _, _, h => by
    rw [bind] at h
    obtain ⟨items', _, hitems, h⟩ := run_bind_eq_ok_iff.mp h
    cases h
    exact .list (meanAll_of_run_bindAll items hitems)
  | .attribute base part, _, _, _, _, h => by
    rw [bind] at h
    split at h
    · next side hrecord =>
      obtain ⟨hpart, rfl⟩ := run_lift_eq_ok_iff.mp h
      exact .attribute hrecord hpart _
    · cases h
  | .index base i, _, _, _, _, h => by
    rw [bind] at h
    split at h
    · next side hrecord =>
      obtain ⟨hi, rfl⟩ := run_lift_eq_ok_iff.mp h
      exact .subscript hrecord hi _
    · next hrecord =>
      obtain ⟨base', _, hbase, h⟩ := run_bind_eq_ok_iff.mp h
      obtain ⟨i', _, hi, h⟩ := run_bind_eq_ok_iff.mp h
      cases h
      exact .index hrecord (means_of_run_bind base hbase) (means_of_run_bind i hi)
  | .call f args, _, _, _, _, h => by
    rw [bind.eq_def] at h
    dsimp only at h
    split at h
    · cases h
    · next arg hf =>
      obtain ⟨arg', _, harg, h⟩ := run_bind_eq_ok_iff.mp h
      cases h
      exact .unfold hf (means_of_run_bind arg harg)
    · next aggregate arg hf =>
      obtain ⟨site, _, hsite, h⟩ := run_bind_eq_ok_iff.mp h
      obtain ⟨arg', _, harg, h⟩ := run_bind_eq_ok_iff.mp h
      cases h
      cases hsite
      exact .aggregate hf (means_of_run_bind arg harg)
    · next arg post hf =>
      obtain ⟨post', _, hpost, h⟩ := run_bind_eq_ok_iff.mp h
      obtain ⟨site, _, hsite, h⟩ := run_bind_eq_ok_iff.mp h
      obtain ⟨arg', _, harg, h⟩ := run_bind_eq_ok_iff.mp h
      cases h
      cases hsite
      obtain ⟨hfunction, rfl⟩ := meansFunction_of_run_bindLambda post hpost
      exact .gathered hf hfunction (means_of_run_bind arg harg)
    · next args _ _ g hf =>
      split at h
      · next harity =>
        obtain ⟨args', _, hargs, h⟩ := run_bind_eq_ok_iff.mp h
        cases h
        exact .user hf harity (meanAll_of_run_bindAll args hargs)
      · cases h
    · next args _ _ g hf =>
      split at h
      · next harity =>
        obtain ⟨args', _, hargs, h⟩ := run_bind_eq_ok_iff.mp h
        cases h
        exact .builtin hf harity (meanAll_of_run_bindAll args hargs)
      · cases h
    · cases h
  | .binary op left right, _, _, _, _, h => by
    rw [bind] at h
    obtain ⟨left', _, hleft, h⟩ := run_bind_eq_ok_iff.mp h
    obtain ⟨right', _, hright, h⟩ := run_bind_eq_ok_iff.mp h
    cases h
    exact .binary op (means_of_run_bind left hleft) (means_of_run_bind right hright)
  | .unary op operand, _, _, _, _, h => by
    rw [bind] at h
    obtain ⟨operand', _, hoperand, h⟩ := run_bind_eq_ok_iff.mp h
    cases h
    exact .unary op (means_of_run_bind operand hoperand)
  | .isNull negated operand, _, _, _, _, h => by
    rw [bind] at h
    obtain ⟨operand', _, hoperand, h⟩ := run_bind_eq_ok_iff.mp h
    cases h
    exact .isNull negated (means_of_run_bind operand hoperand)
  | .choice condition chosen otherwise, _, _, _, _, h => by
    rw [bind] at h
    obtain ⟨chosen', _, hchosen, h⟩ := run_bind_eq_ok_iff.mp h
    obtain ⟨condition', _, hcondition, h⟩ := run_bind_eq_ok_iff.mp h
    obtain ⟨otherwise', _, hotherwise, h⟩ := run_bind_eq_ok_iff.mp h
    cases h
    exact .choice (means_of_run_bind chosen hchosen) (means_of_run_bind condition hcondition)
      (means_of_run_bind otherwise hotherwise)
  | .lambda _ _, _, _, _, _, h => by cases h

theorem meanAll_of_run_bindAll : ∀ (es : List Expr) {names : Names} {bs : List Bound}
    {n n' : Nat}, (bindAll names es).run n = .ok (bs, n') → MeanAll names es n bs n'
  | [], _, _, _, _, h => by cases h; exact .nil _ _
  | e :: es, _, _, _, _, h => by
    rw [bindAll] at h
    obtain ⟨b, _, hb, h⟩ := run_bind_eq_ok_iff.mp h
    obtain ⟨bs, _, hbs, h⟩ := run_bind_eq_ok_iff.mp h
    cases h
    exact .cons (means_of_run_bind e hb) (meanAll_of_run_bindAll es hbs)

theorem meansFunction_of_run_bindLambda : ∀ (e : Expr) {names : Names} {f : Lambda} {n n' : Nat},
    (bindLambda names e).run n = .ok (f, n') → MeansFunction names e f ∧ n' = n
  | .lambda params body, _, _, _, _, h => by
    rw [bindLambda] at h
    obtain ⟨⟨body', _⟩, _, hbody, h⟩ := run_bind_eq_ok_iff.mp h
    cases h
    obtain ⟨hrun, rfl⟩ := run_lift_eq_ok_iff.mp hbody
    exact ⟨.lambda (means_of_run_bind body hrun), rfl⟩

end

mutual

/-- An expression with a meaning is bound to it. -/
theorem Means.run_bind {names : Names} {e : Expr} {b : Bound} {n n' : Nat} :
    Means names e n b n' → (e.bind names).run n = .ok (b, n')
  | .null _ _ | .bool _ _ _ | .int _ _ _ | .float _ _ _ | .text _ _ _ => rfl
  | .name h n => by
    rw [bind]
    exact run_lift_eq_ok_iff.mpr ⟨h, rfl⟩
  | .list h => by
    rw [bind]
    exact run_bind_eq_ok h.run_bindAll rfl
  | .attribute hrecord h n => by
    rw [bind, hrecord]
    exact run_lift_eq_ok_iff.mpr ⟨h, rfl⟩
  | .subscript hrecord h n => by
    rw [bind, hrecord]
    exact run_lift_eq_ok_iff.mpr ⟨h, rfl⟩
  | .index hrecord hbase hi => by
    rw [bind, hrecord]
    exact run_bind_eq_ok hbase.run_bind (run_bind_eq_ok hi.run_bind rfl)
  | .unfold hf harg => by
    rw [bind.eq_def]
    dsimp only
    rw [hf]
    exact run_bind_eq_ok harg.run_bind rfl
  | .aggregate hf harg => by
    rw [bind.eq_def]
    dsimp only
    rw [hf]
    exact run_bind_eq_ok rfl (run_bind_eq_ok harg.run_bind rfl)
  | .gathered hf hpost harg => by
    rw [bind.eq_def]
    dsimp only
    rw [hf]
    exact run_bind_eq_ok (hpost.run_bindLambda _)
      (run_bind_eq_ok rfl (run_bind_eq_ok harg.run_bind rfl))
  | .user hf harity hargs => by
    rw [bind.eq_def]
    dsimp only
    rw [hf]
    dsimp only
    rw [if_pos harity]
    exact run_bind_eq_ok hargs.run_bindAll rfl
  | .builtin hf harity hargs => by
    rw [bind.eq_def]
    dsimp only
    rw [hf]
    dsimp only
    rw [if_pos harity]
    exact run_bind_eq_ok hargs.run_bindAll rfl
  | .binary op hleft hright => by
    rw [bind]
    exact run_bind_eq_ok hleft.run_bind (run_bind_eq_ok hright.run_bind rfl)
  | .unary op h => by
    rw [bind]
    exact run_bind_eq_ok h.run_bind rfl
  | .isNull negated h => by
    rw [bind]
    exact run_bind_eq_ok h.run_bind rfl
  | .choice hchosen hcondition hotherwise => by
    rw [bind]
    exact run_bind_eq_ok hchosen.run_bind (run_bind_eq_ok hcondition.run_bind
      (run_bind_eq_ok hotherwise.run_bind rfl))

theorem MeanAll.run_bindAll {names : Names} {es : List Expr} {bs : List Bound} {n n' : Nat} :
    MeanAll names es n bs n' → (bindAll names es).run n = .ok (bs, n')
  | .nil _ _ => rfl
  | .cons h hs => by
    rw [bindAll]
    exact run_bind_eq_ok h.run_bind (run_bind_eq_ok hs.run_bindAll rfl)

theorem MeansFunction.run_bindLambda {names : Names} {e : Expr} {f : Lambda} :
    MeansFunction names e f → ∀ n, (bindLambda names e).run n = .ok (f, n)
  | .lambda h, n => by
    rw [bindLambda]
    exact run_bind_eq_ok (run_lift_eq_ok_iff.mpr ⟨h.run_bind, rfl⟩) rfl

end

/-- Binding succeeds exactly where there is a meaning by the rules. -/
theorem run_bind_eq_ok_iff_means {names : Names} {e : Expr} {b : Bound} {n n' : Nat} :
    (e.bind names).run n = .ok (b, n') ↔ Means names e n b n' :=
  ⟨means_of_run_bind e, Means.run_bind⟩

theorem MeanAll.length_eq {names : Names} {es : List Expr} {bs : List Bound} {n n' : Nat} :
    MeanAll names es n bs n' → bs.length = es.length
  | .nil _ _ => rfl
  | .cons _ hs => congrArg (· + 1) hs.length_eq

end Expr
end TableQuery
