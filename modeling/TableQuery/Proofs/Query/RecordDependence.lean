import TableQuery.Proofs.Query.PlanScoping

/-!
# Which records an expression depends on

An expression that reads no part of one of the two records has the same value, or the same
fault, whatever that record is.  The bodies of functions are not looked at when the parts of
an expression are, so this needs expressions that are well scoped: a body that cannot read
records makes no difference.
-/

namespace TableQuery

/-- Whether two rows differ at most in the record of one side, which may be absent from one of
them if it is the join record. -/
def Row.AgreeBeside (row row' : Row) : Side → Prop
  | .input => row.partner = row'.partner
  | .join => row.fields = row'.fields ∧ row.number = row'.number

/-- What is read of the record of the other side is the same. -/
theorem Row.AgreeBeside.reads_eq {row row' : Row} {side other : Side}
    (h : row.AgreeBeside row' side) (hne : other ≠ side) :
    row.record? other = row'.record? other ∧ row.recordNumber other = row'.recordNumber other ∧
      row.fieldCount other = row'.fieldCount other := by
  cases side with
  | input =>
    have hother : other = .join := by cases other <;> simp_all
    have hpartner : row.partner = row'.partner := h
    rw [hother]
    refine ⟨?_, ?_, ?_⟩
    · rw [record?, record?, hpartner]
    · rw [recordNumber, recordNumber, hpartner]
    · rw [fieldCount, fieldCount, hpartner]
  | join =>
    have hother : other = .input := by cases other <;> simp_all
    obtain ⟨hfields, hnumber⟩ := h
    rw [hother]
    refine ⟨?_, ?_, ?_⟩
    · rw [record?, record?, hfields]
    · rw [recordNumber, recordNumber, hnumber]
    · rw [fieldCount, fieldCount, hfields]

namespace Bound

variable {functions : List (String × Lambda)} {row row' : Row} {side : Side}

mutual

/-- The body of a function reads no record. -/
theorem references_eq_false_of_wellScoped (side : Side) : ∀ (e : Bound) {arity : Nat},
    e.WellScoped functions arity false → e.references side = false
  | literal _, _, _ => by rw [references]
  | field _ _ _, _, h => by cases h
  | recordNumber _, _, h => by cases h
  | fieldCount _, _, h => by cases h
  | param _, _, _ => by rw [references]
  | list items, _, h => by
    rw [references]
    exact anyReferences_eq_false_of_allWellScoped side items h
  | binary _ left right, _, h => by
    rw [references, references_eq_false_of_wellScoped side left h.1,
      references_eq_false_of_wellScoped side right h.2, Bool.or_false]
  | unary _ operand, _, h => by
    rw [references]
    exact references_eq_false_of_wellScoped side operand h
  | isNull _ operand, _, h => by
    rw [references]
    exact references_eq_false_of_wellScoped side operand h
  | choice condition chosen otherwise, _, h => by
    rw [references, references_eq_false_of_wellScoped side chosen h.2.1,
      references_eq_false_of_wellScoped side condition h.1,
      references_eq_false_of_wellScoped side otherwise h.2.2, Bool.or_false, Bool.or_false]
  | index base i, _, h => by
    rw [references, references_eq_false_of_wellScoped side base h.1,
      references_eq_false_of_wellScoped side i h.2, Bool.or_false]
  | call _ args, _, h => by
    rw [references]
    exact anyReferences_eq_false_of_allWellScoped side args h
  | userCall _ _ args, _, h => by
    rw [references]
    exact anyReferences_eq_false_of_allWellScoped side args h.2.2
  | aggregate _ _ arg none, _, h => by
    rw [references]
    exact references_eq_false_of_wellScoped side arg h
  | aggregate _ _ arg (some (.mk _ _)), _, h => by
    rw [references]
    exact references_eq_false_of_wellScoped side arg h.1
  | unfold operand, _, h => by
    rw [references]
    exact references_eq_false_of_wellScoped side operand h

theorem anyReferences_eq_false_of_allWellScoped (side : Side) : ∀ (es : List Bound) {arity : Nat},
    AllWellScoped functions arity false es → anyReferences side es = false
  | [], _, _ => by rw [anyReferences]
  | e :: es, _, h => by
    rw [anyReferences, references_eq_false_of_wellScoped side e h.1,
      anyReferences_eq_false_of_allWellScoped side es h.2, Bool.or_false]

end

mutual

/-- A well-scoped expression that does not read the record of one side has one value in all
rows that differ in this record only. -/
theorem eval_eq_of_agreeBeside (hfunctions : ∀ entry ∈ functions, entry.2.WellScoped functions)
    (hrows : row.AgreeBeside row' side) :
    ∀ (e : Bound) {arity : Nat} {reads : Bool} (params : List Value),
      e.WellScoped functions arity reads → e.references side = false →
        e.eval row params = e.eval row' params
  | literal _, _, _, _, _, _ => rfl
  | field other _ _, _, _, _, _, h => by
    rw [references] at h
    rw [eval, eval, (hrows.reads_eq (by simpa using h)).1]
  | recordNumber other, _, _, _, _, h => by
    rw [references] at h
    rw [eval, eval, (hrows.reads_eq (by simpa using h)).2.1]
  | fieldCount other, _, _, _, _, h => by
    rw [references] at h
    rw [eval, eval, (hrows.reads_eq (by simpa using h)).2.2]
  | param _, _, _, _, _, _ => rfl
  | list items, _, _, params, hscoped, h => by
    rw [references] at h
    rw [eval, eval, evalAll_eq_of_agreeBeside hfunctions hrows items params hscoped h]
  | binary op left right, _, _, params, hscoped, h => by
    rw [references, Bool.or_eq_false_iff] at h
    have hleft := eval_eq_of_agreeBeside hfunctions hrows left params hscoped.1 h.1
    have hright := eval_eq_of_agreeBeside hfunctions hrows right params hscoped.2 h.2
    cases op <;> simp only [eval, hleft, hright]
  | unary _ operand, _, _, params, hscoped, h => by
    rw [references] at h
    rw [eval, eval, eval_eq_of_agreeBeside hfunctions hrows operand params hscoped h]
  | isNull _ operand, _, _, params, hscoped, h => by
    rw [references] at h
    rw [eval, eval, eval_eq_of_agreeBeside hfunctions hrows operand params hscoped h]
  | choice condition chosen otherwise, _, _, params, hscoped, h => by
    rw [references, Bool.or_eq_false_iff, Bool.or_eq_false_iff] at h
    rw [eval, eval, eval_eq_of_agreeBeside hfunctions hrows condition params hscoped.1 h.1.2,
      eval_eq_of_agreeBeside hfunctions hrows chosen params hscoped.2.1 h.1.1,
      eval_eq_of_agreeBeside hfunctions hrows otherwise params hscoped.2.2 h.2]
  | index base i, _, _, params, hscoped, h => by
    rw [references, Bool.or_eq_false_iff] at h
    rw [eval, eval, eval_eq_of_agreeBeside hfunctions hrows base params hscoped.1 h.1,
      eval_eq_of_agreeBeside hfunctions hrows i params hscoped.2 h.2]
  | call _ args, _, _, params, hscoped, h => by
    rw [references] at h
    rw [eval, eval, evalAll_eq_of_agreeBeside hfunctions hrows args params hscoped h]
  | userCall _ (.mk own body) args, _, _, params, hscoped, h => by
    obtain ⟨hmem, -, hargs⟩ := hscoped
    rw [references] at h
    rw [eval, eval, evalAll_eq_of_agreeBeside hfunctions hrows args params hargs h]
    -- What the body reads does not show in the call, but it reads no record at all.
    have hbody : body.WellScoped functions own false := hfunctions _ hmem
    have hreads := references_eq_false_of_wellScoped side body hbody
    exact bind_congr fun values => eval_eq_of_agreeBeside hfunctions hrows body values hbody hreads
  | aggregate _ _ _ _, _, _, _, _, _ => rfl
  | unfold _, _, _, _, _, _ => rfl

theorem evalAll_eq_of_agreeBeside
    (hfunctions : ∀ entry ∈ functions, entry.2.WellScoped functions)
    (hrows : row.AgreeBeside row' side) :
    ∀ (es : List Bound) {arity : Nat} {reads : Bool} (params : List Value),
      AllWellScoped functions arity reads es → anyReferences side es = false →
        evalAll row params es = evalAll row' params es
  | [], _, _, _, _, _ => rfl
  | e :: es, _, _, params, hscoped, h => by
    rw [anyReferences, Bool.or_eq_false_iff] at h
    rw [evalAll, evalAll, eval_eq_of_agreeBeside hfunctions hrows e params hscoped.1 h.1,
      evalAll_eq_of_agreeBeside hfunctions hrows es params hscoped.2 h.2]

end

end Bound

namespace Plan

/-- Where definitions have been accepted, an expression that is bound in a clause of a query
over them depends only on the records that it is said to read.  This holds of whatever is
bound where the columns of the query are visible, and so of all that a run of a plan
evaluates, also the arguments of aggregates and the lists to unfold. -/
theorem eval_eq_of_references_eq_false {code : List Char} {scope : Scope}
    (hcode : Scope.ofCode code = .ok scope) {side : Side} {row row' : Row}
    (hrows : row.AgreeBeside row' side) (params : List Value) :
    (∀ (columns : QueryColumns) (e : Expr) (b : Bound) (count count' : Nat),
      (e.bind (Names.ofQuery columns scope)).run count = .ok (b, count') →
        b.references side = false → b.eval row params = b.eval row' params) ∧
      ∀ (query : List Char) (input : ColumnMap) (join : Option ColumnMap) (plan : Plan),
        ofQuery query input join scope = .ok plan →
          ∀ e ∈ plan.exprs, ∀ part ∈ e.evaluated,
            part.references side = false → part.eval row params = part.eval row' params := by
  obtain ⟨definitions, -, hlayers⟩ := Scope.exists_layered_of_ofCode hcode
  have hfunctions := hlayers.wellScoped
  constructor
  · intro columns e b count count' hbind hreads
    have hscoped : (Names.ofQuery columns scope).Scopes b := e.scopes_bind hbind
    exact b.eval_eq_of_agreeBeside hfunctions hrows params hscoped hreads
  · intro query input join plan hquery e he part hpart hreads
    have hscoped := Bound.wellScoped_of_mem_evaluated (wellScoped_of_ofQuery hquery e he) hpart
    exact part.eval_eq_of_agreeBeside hfunctions hrows params hscoped hreads

/-- The argument of a call of a function that calls another one is a field of the input
record, so that it makes no difference whether there is a join record. -/
theorem eval_eq_of_references_eq_false_fourfold :
    let twice : Lambda := .mk 1 (.binary .add (.param 0) (.param 0))
    let four : Lambda := .mk 1 (.userCall "twice" twice [.userCall "twice" twice [.param 0]])
    let bound : Bound := .userCall "four" four [.field .input 0 "a1"]
    ∃ scope,
      Scope.ofCode "base = 3\ntwice(x) = x + x\nfour(y) = twice(twice(y))".toList = .ok scope ∧
      ((Expr.call "four" [.name "a1"]).bind
        (Names.ofQuery ⟨⟨[], none⟩, some ⟨[], none⟩⟩ scope)).run 0 = .ok (bound, 0) ∧
      (Row.mk [.int 5] 1 none).AgreeBeside ⟨[.int 5], 1, some ⟨some 2, [.int 9]⟩⟩ .join ∧
      bound.references .join = false ∧
      bound.eval ⟨[.int 5], 1, none⟩ [] = bound.eval ⟨[.int 5], 1, some ⟨some 2, [.int 9]⟩⟩ [] := by
  intro twice four bound
  have hrows : (Row.mk [.int 5] 1 none).AgreeBeside ⟨[.int 5], 1, some ⟨some 2, [.int 9]⟩⟩ .join :=
    ⟨rfl, rfl⟩
  refine ⟨_, ofCode_fourfold, rfl, hrows, rfl, ?_⟩
  exact (eval_eq_of_references_eq_false ofCode_fourfold hrows []).1 ⟨⟨[], none⟩, some ⟨[], none⟩⟩
    (.call "four" [.name "a1"]) bound 0 0 rfl rfl

end Plan
end TableQuery
