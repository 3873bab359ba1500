import TableQuery.Proofs.Query.Clauses
import TableQuery.Proofs.Query.JoinMasks

/-!
# Where the expressions of a plan come from

The expressions of a plan are those that the texts of its clauses spell, bound one by one.
The names that are parts of such an expression are mentioned in the text of its clause.
-/

namespace TableQuery

variable {R R' : Expr → Bound → Prop} {query : IsolatedQuery} {kind : ClauseKind}
  {s t text : List Char} {names : Names} {count count' : Nat} {clauses : Clauses} {plan : Plan}

/-! ## Expressions and texts -/

/-- What an item of a select list becomes, if `R` says what its expression becomes. -/
inductive SelectItem.Becomes (R : Expr → Bound → Prop) : SelectItem → Projection → Prop
  | star (source : Star) : Becomes R (.star source) (.star source)
  | column {e : Expr} {b : Bound} (columnName : Option String) (h : R e b) :
    Becomes R (.column e columnName) (.value b)

namespace IsolatedQuery

/-- Whether a part of a query spells an expression that becomes this one. -/
def Spells (query : IsolatedQuery) (R : Expr → Bound → Prop) (kind : ClauseKind)
    (text : List Char) (b : Bound) : Prop :=
  ∃ e, query.readExpr kind text = .ok e ∧ R e b

/-- Whether a part of a query spells expressions that become these. -/
def SpellsAll (query : IsolatedQuery) (R : Expr → Bound → Prop) (kind : ClauseKind)
    (text : List Char) (bs : List Bound) : Prop :=
  ∃ es, query.readExprs kind text = .ok es ∧ List.Forall₂ R es bs

/-- Whether a part of a query spells a column, by an expression that becomes this field. -/
def SpellsColumn (query : IsolatedQuery) (R : Expr → Bound → Prop) (text : List Char)
    (index : Nat) : Prop :=
  ∃ b, query.Spells R .exclusion (Text.trim text) b ∧ b.field? = some (.input, index)

/-- Whether a part of a query spells an assignment. -/
def SpellsAssignment (query : IsolatedQuery) (R : Expr → Bound → Prop) (text : List Char)
    (assignment : Assignment) : Prop :=
  ∃ target value b, Assignment.divide? text = some (target, value) ∧
    query.Spells R .update (Text.trim target) b ∧ b.field? = some (.input, assignment.index) ∧
    query.Spells R .update (Text.trim value) assignment.value

/-- Whether a part of a query spells an equation of a join. -/
def SpellsPair (query : IsolatedQuery) (R : Expr → Bound → Prop) (text : List Char)
    (pair : KeyPair) : Prop :=
  ∃ left right l r, Text.split "==".toList text = [left, right] ∧
    query.Spells R .join (Text.trim left) l ∧ query.Spells R .join (Text.trim right) r ∧
    JoinSpec.pair? l r = some pair

end IsolatedQuery

/-- Whether the expressions of a plan are those that the clauses of a query spell, each bound
as `R` says. -/
structure Plan.ReadsFrom (plan : Plan) (query : IsolatedQuery) (clauses : Clauses)
    (R : Expr → Bound → Prop) : Prop where
  items : ∀ select, clauses.select = some select → clauses.exclusion = none →
    ∃ items projections, query.readSelect select.text = .ok items ∧
      plan.statement = .select projections ∧ List.Forall₂ (SelectItem.Becomes R) items projections
  columns : ∀ select text, clauses.select = some select → clauses.exclusion = some text →
    ∃ indices, plan.exclusion = some indices.mergeSort.eraseReps ∧
      List.Forall₂ (query.SpellsColumn R) (Assignment.parts text) indices
  assignments : ∀ text, clauses.select = none → clauses.update = some text →
    ∃ assignments, plan.statement = .update assignments ∧
      List.Forall₂ (query.SpellsAssignment R) (Assignment.parts text) assignments
  keys : ∀ join, clauses.join = some join → ∃ table condition spec,
    JoinSpec.divide? join.text = some (table, condition) ∧ plan.join = some spec ∧
      List.Forall₂ (query.SpellsPair R) (JoinSpec.conjuncts condition) spec.keys
  condition : ∀ text, clauses.condition = some text →
    ∃ b, plan.condition = some b ∧ query.Spells R .condition text b
  orderBy : ∀ order, clauses.orderBy = some order →
    ∃ bs, plan.orderBy = some bs ∧ query.SpellsAll R .orderBy order.text bs
  groupBy : ∀ text, clauses.groupBy = some text →
    ∃ bs, plan.groupBy = some bs ∧ query.SpellsAll R .groupBy text bs

/-! ## Plans are read from their queries -/

/-- How names are bound where they can have these meanings. -/
def Names.Binds (names : Names) (e : Expr) (b : Bound) : Prop :=
  ∃ before after, (e.bind names).run before = .ok (b, after)

namespace Plan

variable {columns : QueryColumns} {body : Body}

theorem spells_of_bindExpr {b : Bound}
    (h : (query.bindExpr names kind text).run count = .ok (b, count')) :
    query.Spells names.Binds kind text b := by
  obtain ⟨e, _, he, h⟩ := run_bind_eq_ok_iff.mp h
  exact ⟨e, (run_lift_eq_ok_iff.mp he).1, _, _, h⟩

theorem becomes_of_bindItem {item : SelectItem} {projection : Projection}
    (h : (bindItem names item).run count = .ok (projection, count')) :
    item.Becomes names.Binds projection := by
  cases item with
  | star source =>
    rw [bindItem] at h
    split at h
    · cases h
    · cases h
      exact .star source
  | column e columnName =>
    obtain ⟨b, _, hb, h⟩ := run_bind_eq_ok_iff.mp h
    cases h
    exact .column columnName ⟨_, _, hb⟩

theorem spellsColumn_of_readColumn {index : Nat}
    (h : (Assignment.readColumn query names text).run count = .ok (index, count')) :
    query.SpellsColumn names.Binds text index := by
  obtain ⟨b, _, hb, h⟩ := run_bind_eq_ok_iff.mp h
  split at h
  · next hfield =>
    cases h
    exact ⟨b, spells_of_bindExpr hb, hfield⟩
  · cases h

theorem spellsAssignment_of_read {assignment : Assignment}
    (h : (Assignment.read query names text).run count = .ok (assignment, count')) :
    query.SpellsAssignment names.Binds text assignment := by
  unfold Assignment.read at h
  dsimp only at h
  split at h
  · cases h
  · next target value hdivide =>
    split at h
    · cases h
    · obtain ⟨b, _, htarget, h⟩ := run_bind_eq_ok_iff.mp h
      split at h
      · next hfield =>
        obtain ⟨b', _, hvalue, h⟩ := run_bind_eq_ok_iff.mp h
        cases h
        exact ⟨target, value, b, hdivide, spells_of_bindExpr htarget, hfield,
          spells_of_bindExpr hvalue⟩
      · cases h

theorem spellsPair_of_readPair {pair : KeyPair}
    (h : (JoinSpec.readPair query names text).run count = .ok (pair, count')) :
    query.SpellsPair names.Binds text pair := by
  unfold JoinSpec.readPair at h
  split at h
  · next left right hsplit =>
    obtain ⟨l, _, hleft, h⟩ := run_bind_eq_ok_iff.mp h
    obtain ⟨r, _, hright, h⟩ := run_bind_eq_ok_iff.mp h
    split at h
    · next hpair =>
      cases h
      exact ⟨left, right, l, r, hsplit, spells_of_bindExpr hleft, spells_of_bindExpr hright, hpair⟩
    · cases h
  · cases h

theorem spellsAll_of_readList {text : Option (List Char)} {exprs : Option (List Bound)}
    (h : (readList query names kind text).run count = .ok (exprs, count')) :
    ∀ t, text = some t → ∃ bs, exprs = some bs ∧ query.SpellsAll names.Binds kind t bs := by
  rintro t rfl
  obtain ⟨es, _, hes, h⟩ := run_bind_eq_ok_iff.mp h
  obtain ⟨bs, _, hbs, h⟩ := run_bind_eq_ok_iff.mp h
  cases h
  exact ⟨bs, rfl, es, (run_lift_eq_ok_iff.mp hes).1,
    forall₂_of_run_mapM (fun _ _ _ _ h => ⟨_, _, h⟩) hbs⟩

theorem exists_of_readJoin {join : JoinClause} {spec : Option JoinSpec}
    (h : (readJoin query names (some join)).run count = .ok (spec, count')) :
    ∃ table condition spec', JoinSpec.divide? join.text = some (table, condition) ∧
      spec = some spec' ∧
      List.Forall₂ (query.SpellsPair names.Binds) (JoinSpec.conjuncts condition) spec'.keys := by
  obtain ⟨spec', _, hspec, h⟩ := run_bind_eq_ok_iff.mp h
  cases h
  obtain ⟨⟨table, condition⟩, _, htable, hspec⟩ := run_bind_eq_ok_iff.mp hspec
  obtain ⟨keys, _, hkeys, h⟩ := run_bind_eq_ok_iff.mp hspec
  cases h
  have hread : JoinSpec.readTable query join.text = .ok (table, condition) :=
    (run_lift_eq_ok_iff.mp htable).1
  unfold JoinSpec.readTable at hread
  split at hread
  · cases hread
  · next word condition' hdivide =>
    cases hread
    exact ⟨word, condition, _, hdivide, rfl,
      forall₂_of_run_mapM (fun _ _ _ _ => spellsPair_of_readPair) hkeys⟩

theorem exists_of_readItems {select : SelectClause}
    (h : (readItems query columns names select).run count = .ok (body, count')) :
    ∃ items projections, query.readSelect select.text = .ok items ∧
      body.1 = .select projections ∧
      List.Forall₂ (SelectItem.Becomes names.Binds) items projections := by
  obtain ⟨items, _, hitems, h⟩ := run_bind_eq_ok_iff.mp h
  obtain ⟨projections, _, hprojections, h⟩ := run_bind_eq_ok_iff.mp h
  cases h
  exact ⟨items, projections, (run_lift_eq_ok_iff.mp hitems).1, rfl,
    forall₂_of_run_mapM (fun _ _ _ _ => becomes_of_bindItem) hprojections⟩

theorem exists_of_readExclusion {select exclusion : List Char}
    (h : (readExclusion query columns names select exclusion).run count = .ok (body, count')) :
    ∃ indices, body.2.1 = some indices.mergeSort.eraseReps ∧
      List.Forall₂ (query.SpellsColumn names.Binds) (Assignment.parts exclusion) indices := by
  unfold readExclusion at h
  split at h
  · cases h
  · obtain ⟨excluded, _, hexcluded, h⟩ := run_bind_eq_ok_iff.mp h
    cases h
    obtain ⟨indices, _, hindices, h⟩ := run_bind_eq_ok_iff.mp hexcluded
    cases h
    exact ⟨indices, rfl, forall₂_of_run_mapM (fun _ _ _ _ => spellsColumn_of_readColumn) hindices⟩

theorem exists_of_readBody
    (h : (readBody query columns names clauses).run count = .ok (body, count')) :
    (∀ select, clauses.select = some select → clauses.exclusion = none →
      ∃ items projections, query.readSelect select.text = .ok items ∧
        body.1 = .select projections ∧
        List.Forall₂ (SelectItem.Becomes names.Binds) items projections) ∧
    (∀ select text, clauses.select = some select → clauses.exclusion = some text →
      ∃ indices, body.2.1 = some indices.mergeSort.eraseReps ∧
        List.Forall₂ (query.SpellsColumn names.Binds) (Assignment.parts text) indices) ∧
    ∀ text, clauses.select = none → clauses.update = some text →
      ∃ assignments, body.1 = .update assignments ∧
        List.Forall₂ (query.SpellsAssignment names.Binds) (Assignment.parts text) assignments := by
  unfold readBody at h
  refine ⟨fun select hselect hexclusion => ?_, fun select text hselect hexclusion => ?_,
    fun text hselect hupdate => ?_⟩
  · rw [hselect, hexclusion] at h
    exact exists_of_readItems h
  · rw [hselect, hexclusion] at h
    exact exists_of_readExclusion h
  · rw [hselect, hupdate] at h
    obtain ⟨assignments, _, hassignments, h⟩ := run_bind_eq_ok_iff.mp h
    cases h
    exact ⟨assignments, rfl,
      forall₂_of_run_mapM (fun _ _ _ _ => spellsAssignment_of_read) hassignments⟩

theorem exists_of_readCondition {text : Option (List Char)} {condition : Option Bound}
    (h : (readCondition query names text).run count = .ok (condition, count')) :
    ∀ t, text = some t → ∃ b, condition = some b ∧ query.Spells names.Binds .condition t b := by
  rintro t rfl
  obtain ⟨b, _, hb, h⟩ := run_bind_eq_ok_iff.mp h
  cases h
  exact ⟨b, rfl, spells_of_bindExpr hb⟩

/-- The expressions of a plan are those of its query, bound one by one. -/
theorem IsReadOff.readsFrom {scope : Scope} (h : plan.IsReadOff query columns scope clauses) :
    plan.ReadsFrom query clauses (Names.ofQuery columns scope).Binds := by
  obtain ⟨_, hbody⟩ := h.body
  obtain ⟨_, _, hjoin⟩ := h.join
  obtain ⟨_, _, hcondition⟩ := h.condition
  obtain ⟨_, _, horder⟩ := h.orderBy
  obtain ⟨_, _, hgroup⟩ := h.groupBy
  obtain ⟨hitems, hcolumns, hassignments⟩ := exists_of_readBody hbody
  refine ⟨hitems, hcolumns, hassignments, fun clause hclause => ?_,
    exists_of_readCondition hcondition, fun clause hclause => ?_, spellsAll_of_readList hgroup⟩
  · rw [hclause] at hjoin
    exact exists_of_readJoin hjoin
  · exact spellsAll_of_readList horder clause.text (by rw [hclause]; rfl)

end Plan

/-! ## Names that texts of clauses mention -/

/-- Whether the names that are parts of an expression are mentioned in a text in which
expressions of clauses are looked for. -/
def Clauses.Mention (clauses : Clauses) (e : Expr) : Prop :=
  ∃ t, clauses.Reads t ∧
    ∀ n : String, ColumnMap.isIdentifier n.toList → e.mentions n → Mentions n.toList t

theorem exists_cons_of_isIdentifier (h : ColumnMap.isIdentifier s) :
    ∃ c others, s = c :: others ∧ Token.isNamePart c := by
  obtain ⟨hne, hparts, -⟩ := ColumnMap.chars_of_isIdentifier h
  obtain ⟨c, others, rfl⟩ := List.exists_cons_of_ne_nil hne
  exact ⟨c, others, rfl, hparts c List.mem_cons_self⟩

section

variable (hliterals : ∀ l ∈ query.literals, Piece.IsLiteral l)
  (hquotes : ∀ t, clauses.Reads t → ∀ c ∈ t, Token.isQuote c = false)
  (himp : ∀ e b, clauses.Mention e → R e b → R' e b)

include hliterals hquotes

theorem Clauses.mention_of_readExpr (ht : clauses.Reads t) (hs : IsSection s t) {e : Expr}
    (h : query.readExpr kind s = .ok e) : clauses.Mention e := by
  refine ⟨t, ht, fun n hn he => ?_⟩
  have hname := exists_cons_of_isIdentifier hn
  have hmention := query.mentions_of_readExpr hliterals
    (fun c hc => hquotes t ht c (hs.subset hc)) hname h he
  exact hmention.of_isSection (ColumnMap.chars_of_isIdentifier hn).1 hs

theorem Clauses.mention_of_readExprs (ht : clauses.Reads t) {es : List Expr}
    (h : query.readExprs kind t = .ok es) : ∀ e ∈ es, clauses.Mention e :=
  fun _ hmem => ⟨t, ht, fun _ hn he => query.mentions_of_readExprs hliterals (hquotes t ht)
    (exists_cons_of_isIdentifier hn) h hmem he⟩

theorem Clauses.mention_of_readSelect (ht : clauses.Reads t) {items : List SelectItem}
    (h : query.readSelect t = .ok items) :
    ∀ item ∈ items, ∀ e columnName, item = .column e columnName → clauses.Mention e := by
  rintro item hmem e columnName rfl
  refine ⟨t, ht, fun n hn he => ?_⟩
  have hname := exists_cons_of_isIdentifier hn
  exact query.mentions_of_readSelect hliterals (hquotes t ht) hname h hmem he

include himp

theorem IsolatedQuery.Spells.imp (ht : clauses.Reads t) (hs : IsSection s t) {b : Bound}
    (h : query.Spells R kind s b) : query.Spells R' kind s b := by
  obtain ⟨e, he, hb⟩ := h
  exact ⟨e, he, himp e b (Clauses.mention_of_readExpr hliterals hquotes ht hs he) hb⟩

theorem IsolatedQuery.SpellsAll.imp (ht : clauses.Reads t) {bs : List Bound}
    (h : query.SpellsAll R kind t bs) : query.SpellsAll R' kind t bs := by
  obtain ⟨es, hes, hbs⟩ := h
  have hmention := Clauses.mention_of_readExprs hliterals hquotes ht hes
  refine ⟨es, hes, ((List.forall₂_and_left es bs).mpr ⟨hmention, hbs⟩).imp ?_⟩
  exact fun e b ⟨he, hb⟩ => himp e b he hb

theorem IsolatedQuery.SpellsAssignment.imp (ht : clauses.Reads t) (hs : IsSection s t)
    {assignment : Assignment} (h : query.SpellsAssignment R s assignment) :
    query.SpellsAssignment R' s assignment := by
  obtain ⟨target, value, b, hdivide, hb, hfield, hvalue⟩ := h
  obtain ⟨htarget, hsection⟩ := Assignment.isSection_of_divide? hdivide
  exact ⟨target, value, b, hdivide,
    hb.imp hliterals hquotes himp ht ((isSection_trim target).trans (htarget.trans hs)), hfield,
    hvalue.imp hliterals hquotes himp ht ((isSection_trim value).trans (hsection.trans hs))⟩

theorem IsolatedQuery.SpellsPair.imp (ht : clauses.Reads t) (hs : IsSection s t) {pair : KeyPair}
    (h : query.SpellsPair R s pair) : query.SpellsPair R' s pair := by
  obtain ⟨left, right, l, r, hsplit, hl, hr, hpair⟩ := h
  have hsection : ∀ part ∈ [left, right], IsSection (Text.trim part) t := fun part hmem =>
    (isSection_trim part).trans ((isSection_of_mem_split (by decide)
      (List.forall_mem_cons.mpr ⟨by decide, List.forall_mem_singleton.mpr (by decide)⟩)
      (hsplit ▸ hmem)).trans hs)
  exact ⟨left, right, l, r, hsplit,
    hl.imp hliterals hquotes himp ht (hsection left (by simp)),
    hr.imp hliterals hquotes himp ht (hsection right (by simp)), hpair⟩

/-- What is said about the expressions of a plan may be weakened for all those whose names
are mentioned in its clauses. -/
theorem Plan.ReadsFrom.imp (h : plan.ReadsFrom query clauses R) :
    plan.ReadsFrom query clauses R' where
  items select hselect hexclusion := by
    obtain ⟨items, projections, hitems, hstatement, hall⟩ := h.items select hselect hexclusion
    have ht : clauses.Reads select.text := .text .select nofun (by simp [Clauses.text?, hselect])
    have hmention := Clauses.mention_of_readSelect hliterals hquotes ht hitems
    refine ⟨items, projections, hitems, hstatement,
      ((List.forall₂_and_left items projections).mpr ⟨hmention, hall⟩).imp ?_⟩
    rintro item projection ⟨hitem, hbecomes⟩
    cases hbecomes with
    | star source => exact .star source
    | column columnName hb => exact .column columnName (himp _ _ (hitem _ _ rfl) hb)
  columns select text hselect hexclusion := by
    obtain ⟨indices, hindices, hall⟩ := h.columns select text hselect hexclusion
    have ht : clauses.Reads text := .text .exclusion nofun hexclusion
    refine ⟨indices, hindices,
      ((List.forall₂_and_left _ indices).mpr ⟨fun _ => id, hall⟩).imp ?_⟩
    rintro part index ⟨hpart, b, hb, hfield⟩
    exact ⟨b, hb.imp hliterals hquotes himp ht
      ((isSection_trim part).trans (Assignment.isSection_of_mem_parts hpart)), hfield⟩
  assignments text hselect hupdate := by
    obtain ⟨assignments, hstatement, hall⟩ := h.assignments text hselect hupdate
    have ht : clauses.Reads text := .text .update nofun hupdate
    refine ⟨assignments, hstatement,
      ((List.forall₂_and_left _ assignments).mpr ⟨fun _ => id, hall⟩).imp ?_⟩
    rintro part assignment ⟨hpart, hassignment⟩
    exact hassignment.imp hliterals hquotes himp ht (Assignment.isSection_of_mem_parts hpart)
  keys join hjoin := by
    obtain ⟨table, condition, spec, hdivide, hspec, hall⟩ := h.keys join hjoin
    have ht : clauses.Reads condition := .condition (by simp [Clauses.text?, hjoin]) hdivide
    refine ⟨table, condition, spec, hdivide, hspec,
      ((List.forall₂_and_left _ spec.keys).mpr ⟨fun _ => id, hall⟩).imp ?_⟩
    rintro part pair ⟨hpart, hpair⟩
    exact hpair.imp hliterals hquotes himp ht (JoinSpec.isSection_of_mem_conjunctsFrom hpart)
  condition text htext := by
    obtain ⟨b, hcondition, hb⟩ := h.condition text htext
    have ht : clauses.Reads text := .text .condition nofun htext
    exact ⟨b, hcondition, hb.imp hliterals hquotes himp ht (IsSection.refl text)⟩
  orderBy order horder := by
    obtain ⟨bs, hplan, hbs⟩ := h.orderBy order horder
    have ht : clauses.Reads order.text :=
      .text .orderBy nofun (by simp [Clauses.text?, horder])
    exact ⟨bs, hplan, hbs.imp hliterals hquotes himp ht⟩
  groupBy text htext := by
    obtain ⟨bs, hplan, hbs⟩ := h.groupBy text htext
    exact ⟨bs, hplan, hbs.imp hliterals hquotes himp (.text .groupBy nofun htext)⟩

end
end TableQuery
