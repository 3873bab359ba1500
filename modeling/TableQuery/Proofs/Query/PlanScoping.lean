import TableQuery.Proofs.Query.Clauses
import TableQuery.Proofs.Query.Layers
import TableQuery.Proofs.Query.Equality

/-!
# Well-scoped plans

The expressions of a plan stand outside of functions, so that they have no parameters, and
the functions that they call stand in layers.  What a parameter that is not there comes to
makes no difference to a run, and calls come to an end.
-/

namespace TableQuery

/-- The expressions of an item of a select list. -/
def Projection.exprs : Projection → List Bound
  | star _ => []
  | value e => [e]

/-- The expressions of a statement. -/
def Statement.exprs : Statement → List Bound
  | select items => items.flatMap Projection.exprs
  | update assignments => assignments.map Assignment.value

/-- The expressions of a join. -/
def JoinSpec.exprs (spec : JoinSpec) : List Bound :=
  spec.keys.flatMap fun pair => [pair.input, pair.join]

/-- The expressions of a plan. -/
def Plan.exprs (plan : Plan) : List Bound :=
  plan.statement.exprs ++ plan.condition.toList ++ plan.join.elim [] JoinSpec.exprs ++
    plan.orderBy.getD [] ++ plan.groupBy.getD []

namespace Bound

/-- What a run evaluates for an expression of a plan: also the argument of an aggregate, and
the list to unfold. -/
def evaluated : Bound → List Bound
  | aggregate site f arg post => [aggregate site f arg post, arg]
  | unfold operand => [unfold operand, operand]
  | e => [e]

/-- What becomes of the value of an aggregate. -/
def post? : Bound → Option Lambda
  | aggregate _ _ _ post => post
  | _ => none

theorem wellScoped_of_mem_evaluated {functions : List (String × Lambda)} {e part : Bound}
    (h : e.WellScoped functions 0 true) (hpart : part ∈ e.evaluated) :
    part.WellScoped functions 0 true := by
  unfold evaluated at hpart
  split at hpart
  · next post =>
    rcases List.mem_pair.mp hpart with rfl | rfl
    · exact h
    · rcases post with _ | ⟨own, body⟩
      · exact h
      · exact h.1
  · rcases List.mem_pair.mp hpart with rfl | rfl
    · exact h
    · exact h
  · rw [List.mem_singleton.mp hpart]
    exact h

theorem wellScoped_of_mem_post? {functions : List (String × Lambda)} {e : Bound} {f : Lambda}
    (h : e.WellScoped functions 0 true) (hf : f ∈ e.post?) : f.WellScoped functions := by
  unfold post? at hf
  split at hf
  · obtain ⟨own, body⟩ := f
    rw [Option.mem_def.mp hf] at h
    exact h.2
  · cases hf

end Bound

namespace Plan

variable {query : IsolatedQuery} {columns : QueryColumns} {scope : Scope} {names : Names}
  {clause : ClauseKind} {text : List Char} {count count' : Nat}

theorem scopes_bindExpr {b : Bound}
    (h : (query.bindExpr names clause text).run count = .ok (b, count')) : names.Scopes b := by
  obtain ⟨e, _, -, h⟩ := run_bind_eq_ok_iff.mp h
  exact e.scopes_bind h

/-! ## Clauses -/

theorem scopes_readItems {select : SelectClause} {body : Body}
    (h : (readItems query columns names select).run count = .ok (body, count')) :
    ∀ e ∈ body.1.exprs, names.Scopes e := by
  obtain ⟨items, _, -, h⟩ := run_bind_eq_ok_iff.mp h
  obtain ⟨projections, _, hprojections, h⟩ := run_bind_eq_ok_iff.mp h
  cases h
  refine List.forall_mem_flatMap.mpr (forall_mem_of_run_mapM (fun item projection _ _ h => ?_)
    hprojections)
  cases item with
  | star source =>
    rw [bindItem] at h
    split at h
    · cases h
    · cases h
      exact nofun
  | column e name =>
    obtain ⟨b, _, hb, h⟩ := run_bind_eq_ok_iff.mp h
    cases h
    exact List.forall_mem_singleton.mpr (e.scopes_bind hb)

theorem scopes_readExclusion {select exclusion : List Char} {body : Body}
    (h : (readExclusion query columns names select exclusion).run count = .ok (body, count')) :
    ∀ e ∈ body.1.exprs, names.Scopes e := by
  unfold readExclusion at h
  split at h
  · cases h
  · obtain ⟨excluded, _, -, h⟩ := run_bind_eq_ok_iff.mp h
    cases h
    exact nofun

theorem scopes_readAssignment {assignment : Assignment}
    (h : (Assignment.read query names text).run count = .ok (assignment, count')) :
    names.Scopes assignment.value := by
  unfold Assignment.read at h
  dsimp only at h
  split at h
  · cases h
  · split at h
    · cases h
    · obtain ⟨target, _, -, h⟩ := run_bind_eq_ok_iff.mp h
      split at h
      · obtain ⟨b, _, hb, h⟩ := run_bind_eq_ok_iff.mp h
        cases h
        exact scopes_bindExpr hb
      · cases h

theorem scopes_readBody {clauses : Clauses} {body : Body}
    (h : (readBody query columns names clauses).run count = .ok (body, count')) :
    ∀ e ∈ body.1.exprs, names.Scopes e := by
  unfold readBody at h
  split at h
  · exact scopes_readExclusion h
  · exact scopes_readItems h
  · obtain ⟨assignments, _, hassignments, h⟩ := run_bind_eq_ok_iff.mp h
    cases h
    exact List.forall_mem_map.mpr
      (forall_mem_of_run_mapM (fun _ _ _ _ h => scopes_readAssignment h) hassignments)
  · cases h

theorem scopes_readPair {pair : KeyPair}
    (h : (JoinSpec.readPair query names text).run count = .ok (pair, count')) :
    names.Scopes pair.input ∧ names.Scopes pair.join := by
  unfold JoinSpec.readPair at h
  split at h
  · obtain ⟨left, _, hleft, h⟩ := run_bind_eq_ok_iff.mp h
    obtain ⟨right, _, hright, h⟩ := run_bind_eq_ok_iff.mp h
    have hscopes := And.intro (scopes_bindExpr hleft) (scopes_bindExpr hright)
    split at h
    · next hpair =>
      cases h
      unfold JoinSpec.pair? at hpair
      split at hpair <;> cases hpair
      · exact hscopes
      · exact hscopes.symm
    · cases h
  · cases h

theorem scopes_readJoin {join : Option JoinClause} {spec : Option JoinSpec}
    (h : (readJoin query names join).run count = .ok (spec, count')) :
    ∀ e ∈ spec.elim [] JoinSpec.exprs, names.Scopes e := by
  cases join with
  | none =>
    cases h
    exact nofun
  | some join =>
    obtain ⟨spec, _, hspec, h⟩ := run_bind_eq_ok_iff.mp h
    cases h
    obtain ⟨⟨table, condition⟩, _, -, hspec⟩ := run_bind_eq_ok_iff.mp hspec
    obtain ⟨keys, _, hkeys, h⟩ := run_bind_eq_ok_iff.mp hspec
    cases h
    refine List.forall_mem_flatMap.mpr (forall_mem_of_run_mapM (fun _ pair _ _ h => ?_) hkeys)
    obtain ⟨hinput, hjoin⟩ := scopes_readPair h
    simp [hinput, hjoin]

theorem scopes_readCondition {text : Option (List Char)} {condition : Option Bound}
    (h : (readCondition query names text).run count = .ok (condition, count')) :
    ∀ e ∈ condition.toList, names.Scopes e := by
  cases text with
  | none =>
    cases h
    exact nofun
  | some text =>
    obtain ⟨b, _, hb, h⟩ := run_bind_eq_ok_iff.mp h
    cases h
    exact List.forall_mem_singleton.mpr (scopes_bindExpr hb)

theorem scopes_readList {text : Option (List Char)} {exprs : Option (List Bound)}
    (h : (readList query names clause text).run count = .ok (exprs, count')) :
    ∀ e ∈ exprs.getD [], names.Scopes e := by
  cases text with
  | none =>
    cases h
    exact nofun
  | some text =>
    obtain ⟨parsed, _, -, h⟩ := run_bind_eq_ok_iff.mp h
    obtain ⟨bound, _, hbound, h⟩ := run_bind_eq_ok_iff.mp h
    cases h
    exact forall_mem_of_run_mapM (fun e _ _ _ h => e.scopes_bind h) hbound

theorem IsReadOff.scopes {clauses : Clauses} {plan : Plan}
    (h : plan.IsReadOff query columns scope clauses) :
    ∀ e ∈ plan.exprs, (Names.ofQuery columns scope).Scopes e := by
  obtain ⟨_, hbody⟩ := h.body
  obtain ⟨_, _, hjoin⟩ := h.join
  obtain ⟨_, _, hcondition⟩ := h.condition
  obtain ⟨_, _, horder⟩ := h.orderBy
  obtain ⟨_, _, hgroup⟩ := h.groupBy
  unfold exprs
  simp only [List.forall_mem_append]
  exact ⟨⟨⟨⟨scopes_readBody hbody, scopes_readCondition hcondition⟩, scopes_readJoin hjoin⟩,
    scopes_readList horder⟩, scopes_readList hgroup⟩

/-- The expressions of a plan are well scoped outside of functions. -/
theorem wellScoped_of_ofQuery {query : List Char} {input : ColumnMap} {join : Option ColumnMap}
    {plan : Plan} (h : ofQuery query input join scope = .ok plan) :
    ∀ e ∈ plan.exprs, e.WellScoped scope.functions 0 true := by
  obtain ⟨isolated, clauses, columns, -, -, -, hread⟩ := exists_isReadOff_of_ofQuery h
  exact hread.scopes

/-- Definitions and queries that are accepted are well scoped.  The definitions stand in
layers, and the expressions of the plan outside of them.  Hence every evaluation finds the
parameters that it asks for: were a parameter that is not there anything else than the
absent value, all values would be the same.  No function calls itself, not even through
others. -/
theorem scoped_of_ofCode_of_ofQuery {code query : List Char} {input : ColumnMap}
    {join : Option ColumnMap} {plan : Plan} (hcode : Scope.ofCode code = .ok scope)
    (hquery : ofQuery query input join scope = .ok plan) :
    (∃ definitions, Parser.parseDefinitions code = .ok definitions ∧
      scope.Layered definitions ∧
      scope.functions.map (fun entry => (entry.1, entry.2.arity)) =
        definitions.filterMap fun definition =>
          definition.params.map fun names => (definition.name, names.length)) ∧
      (∀ e ∈ plan.exprs, e.WellScoped scope.functions 0 true) ∧
      (∀ (e : Bound) row params, e.evalOr (.ok .null) row params = e.eval row params) ∧
      (∀ missing row,
        (∀ e ∈ plan.exprs, ∀ part ∈ e.evaluated,
          part.evalOr missing row [] = part.eval row []) ∧
        (∀ e ∈ plan.exprs, ∀ f ∈ e.post?, ∀ args,
          f.applyOr missing row args = f.apply row args) ∧
        ∀ entry ∈ scope.functions, ∀ args,
          entry.2.applyOr missing row args = entry.2.apply row args) ∧
      ∀ name, ¬Relation.TransGen scope.Calls name name := by
  obtain ⟨definitions, hdefinitions, hlayers⟩ := Scope.exists_layered_of_ofCode hcode
  have hfunctions := hlayers.wellScoped
  have hexprs := wellScoped_of_ofQuery hquery
  refine ⟨⟨definitions, hdefinitions, hlayers, hlayers.map_functions⟩, hexprs,
    fun e row params => e.evalOr_null row params, fun missing row => ⟨?_, ?_, ?_⟩,
    hlayers.not_transGen_self⟩
  · intro e he part hpart
    exact part.evalOr_eq_eval hfunctions missing row
      (Bound.wellScoped_of_mem_evaluated (hexprs e he) hpart)
  · intro e he f hf args
    exact Lambda.applyOr_eq_apply hfunctions (Bound.wellScoped_of_mem_post? (hexprs e he) hf)
      missing row args
  · intro entry hentry args
    exact Lambda.applyOr_eq_apply hfunctions (hfunctions entry hentry) missing row args

/-- A constant, a function, and one that calls it twice. -/
theorem ofCode_fourfold :
    let twice : Lambda := .mk 1 (.binary .add (.param 0) (.param 0))
    let four : Lambda := .mk 1 (.userCall "twice" twice [.userCall "twice" twice [.param 0]])
    Scope.ofCode "base = 3\ntwice(x) = x + x\nfour(y) = twice(twice(y))".toList =
      .ok ⟨[("base", .int 3)], [("twice", twice), ("four", four)]⟩ := by
  decide +kernel

/-- A query that calls functions in what becomes of an aggregate. -/
theorem ofQuery_fourfold :
    let twice : Lambda := .mk 1 (.binary .add (.param 0) (.param 0))
    let four : Lambda := .mk 1 (.userCall "twice" twice [.userCall "twice" twice [.param 0]])
    ofQuery "select ARRAY_AGG(a1, lambda v: four(v)) where a1 < base".toList
        ⟨[("a1", 0)], none⟩ none ⟨[("base", .int 3)], [("twice", twice), ("four", four)]⟩ =
      .ok ⟨.select [.value (.aggregate 0 .arrayAgg (.field .input 0 "a1")
          (some (.mk 1 (.userCall "four" four [.param 0]))))],
        some (.binary .lt (.field .input 0 "a1") (.literal (.int 3))), none, none, false, none,
        .no, none, none, 1, none⟩ := by
  intro twice four
  have hfound : ClauseKind.all.mapM
      (KeywordPlace.one? "select ARRAY_AGG(a1, lambda v: four(v)) where a1 < base".toList) =
      .ok [none, some ⟨.select, .inner, 0, 6⟩, none, some ⟨.condition, .inner, 40, 45⟩, none, none,
        none, none] := rfl
  have hplaces := KeywordPlace.all_eq_ok hfound (.refl _) (by decide)
  rw [ofQuery_eq_of_places (by decide +kernel) (by decide +kernel) hplaces]
  decide +kernel

/-- What becomes of the aggregate never misses a parameter, and the calls of its function
end. -/
theorem scoped_of_ofCode_of_ofQuery_fourfold :
    let twice : Lambda := .mk 1 (.binary .add (.param 0) (.param 0))
    let four : Lambda := .mk 1 (.userCall "twice" twice [.userCall "twice" twice [.param 0]])
    let post : Lambda := .mk 1 (.userCall "four" four [.param 0])
    ∃ scope plan,
      Scope.ofCode "base = 3\ntwice(x) = x + x\nfour(y) = twice(twice(y))".toList = .ok scope ∧
      ofQuery "select ARRAY_AGG(a1, lambda v: four(v)) where a1 < base".toList
        ⟨[("a1", 0)], none⟩ none scope = .ok plan ∧
      (∀ e ∈ plan.exprs, e.WellScoped scope.functions 0 true) ∧
      (∀ missing row, post.applyOr missing row [.int 5] = post.apply row [.int 5]) ∧
      scope.Calls "four" "twice" ∧ ∀ name, ¬Relation.TransGen scope.Calls name name := by
  intro twice four post
  obtain ⟨-, hexprs, -, hfound, hcalls⟩ :=
    scoped_of_ofCode_of_ofQuery ofCode_fourfold ofQuery_fourfold
  refine ⟨_, _, ofCode_fourfold, ofQuery_fourfold, hexprs, fun missing row => ?_, ?_, hcalls⟩
  · exact (hfound missing row).2.1 _ List.mem_cons_self post rfl _
  · exact ⟨four, List.mem_cons_of_mem _ List.mem_cons_self, List.mem_cons_self⟩

end Plan
end TableQuery
