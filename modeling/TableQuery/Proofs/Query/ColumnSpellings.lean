import TableQuery.Proofs.Query.FieldSpellings
import TableQuery.Proofs.Query.Header
import TableQuery.Proofs.Query.Equality
import TableQuery.Proofs.Query.Readings
import TableQuery.Query.Definitions

/-!
# Spellings of columns in queries

A bare name of a column that is part of an expression of a query is found when the text of
the query is searched for names.  Hence all spellings of a column mean the field that they
name, in every clause.
-/

namespace TableQuery

variable {header : List String} {columns : QueryColumns} {scope : Scope}

theorem Expr.isReference_of_notMem_reserved {n : String} (h : n ∉ ColumnMap.reserved) :
    (Expr.name n).isReference := by
  simp only [ColumnMap.reserved, List.mem_cons, not_or] at h
  simp [isReference, h]

theorem Expr.NamesField.isReference {part : Expr} {index : Nat}
    (h : part.NamesField header scope index) : part.isReference := by
  cases h with
  | named | keyed | subscript => rfl
  | bare hbare => exact isReference_of_notMem_reserved (Names.notMem_reserved_of_isBareName hbare)
  | @numbered k => exact isReference_of_notMem_reserved (Names.notMem_reserved_numbered k)

/-- Whether the spellings of fields in an expression mean these fields, wherever they stand
outside of functions. -/
def Expr.BindsFields (header : List String) (scope : Scope) (e : Expr) (b : Bound) : Prop :=
  ∀ part index, part.NamesField header scope index → part.Contains e →
    (∃ spelling, Part part (.field .input index spelling) e b) ∧
      ∀ meaning, Part part meaning e b → ∃ spelling, meaning = .field .input index spelling

theorem Names.Binds.bindsFields {query : IsolatedQuery} {e : Expr} {b : Bound}
    (h : (Names.ofQuery columns scope).Binds e b)
    (hinput : ColumnMap.ofIsolated query .input (some header) = .ok columns.input)
    (hjoin : ∀ join ∈ columns.join, ∃ names, ColumnMap.ofIsolated query .join names = .ok join)
    (hfound : ∀ n : String, ColumnMap.isIdentifier n.toList → e.mentions n →
      Mentions n.toList (ColumnMap.maskJoinTable true query.text)) :
    e.BindsFields header scope b := by
  intro part index hpart hcontains
  obtain ⟨before, after, hrun⟩ := h
  have hwhole := Expr.run_bind_eq_ok_iff_means.mp hrun
  have hmeans : ∀ meaning, Expr.Part part meaning e b →
      ∃ spelling, meaning = .field .input index spelling := by
    intro meaning hmeaning
    obtain ⟨_, _, hown⟩ := hmeaning.exists_means hwhole
    refine hpart.eq_field hinput hjoin ?_ hown
    rintro n rfl hbare
    have hname := Names.isIdentifier_of_isBareName hbare
    obtain ⟨hne, hpart, -⟩ := ColumnMap.chars_of_isIdentifier hname
    exact (hfound n hname hmeaning.mentions).mentions hne hpart
  obtain ⟨meaning, hmeaning⟩ := hcontains.exists_part hpart.isReference hwhole
  obtain ⟨spelling, rfl⟩ := hmeans meaning hmeaning
  exact ⟨⟨spelling, hmeaning⟩, hmeans⟩

namespace Plan

/-- Where the columns are those that the query refers to, every spelling of a field means
this field, in all expressions of the query.  A name of a column stands for the first column
with this name. -/
theorem bindsFields_of_ofQuery {query : List Char} {input : ColumnMap} {join : Option ColumnMap}
    {plan : Plan} (hinput : ColumnMap.ofQuery query .input (some header) = .ok input)
    (hjoin : ∀ map ∈ join, ∃ names, ColumnMap.ofQuery query .join names = .ok map)
    (h : ofQuery query input join scope = .ok plan) :
    ∃ isolated clauses, IsolatedQuery.ofQuery query = .ok isolated ∧
      Clauses.locate (countRows isolated.text) = .ok clauses ∧
      plan.ReadsFrom { isolated with text := countRows isolated.text } clauses
        (Expr.BindsFields header scope) := by
  obtain ⟨isolated, clauses, columns, hisolated, hlocate, hcolumns, hread⟩ :=
    exists_isReadOff_of_ofQuery h
  obtain rfl := eq_of_visibleColumns hcolumns
  have hmaps : ∀ {side names map}, ColumnMap.ofQuery query side names = .ok map →
      ColumnMap.ofIsolated isolated side names = .ok map := by
    intro side names map hmap
    rwa [ColumnMap.ofQuery, hisolated] at hmap
  have hquotes : ∀ t, clauses.Reads t → ∀ c ∈ t, Token.isQuote c = false :=
    fun t ht c hc => (countsRows_countRows isolated.text).isQuote_eq_false
      (IsolatedQuery.isQuote_of_ofQuery hisolated) c ((ht.isSection hlocate).subset hc)
  have hreads := hread.readsFrom
  have hliterals := IsolatedQuery.isLiteral_of_ofQuery hisolated
  refine ⟨isolated, clauses, hisolated, hlocate, hreads.imp hliterals hquotes ?_⟩
  rintro e b ⟨t, ht, hmention⟩ hbinds
  refine hbinds.bindsFields (hmaps hinput) (fun map hmap => ?_) fun n hn he =>
    ht.mentions_maskJoinTable hn hlocate (hmention n hn he)
  split at hmap
  · obtain ⟨names, hnames⟩ := hjoin map hmap
    exact ⟨names, hmaps hnames⟩
  · cases hmap

theorem clauses_fourSpellings :
    IsolatedQuery.ofQuery "select a['x'], a.x, x where a2 == x".toList =
      .ok ⟨"select a[###RBQL_STRING_LITERAL0###], a.x, x where a2 == x".toList,
        ["'x'".toList]⟩ ∧
    countRows "select a[###RBQL_STRING_LITERAL0###], a.x, x where a2 == x".toList =
      "select a[###RBQL_STRING_LITERAL0###], a.x, x where a2 == x".toList ∧
    Clauses.locate "select a[###RBQL_STRING_LITERAL0###], a.x, x where a2 == x".toList =
      .ok ⟨some ⟨"a[###RBQL_STRING_LITERAL0###], a.x, x".toList, none, .no⟩, none,
        some "a2 == x".toList, none, none, none, none, none⟩ := by
  have hfound : ClauseKind.all.mapM (KeywordPlace.one?
      "select a[###RBQL_STRING_LITERAL0###], a.x, x where a2 == x".toList) =
        .ok [none, some ⟨.select, .inner, 0, 6⟩, none, some ⟨.condition, .inner, 45, 50⟩, none,
          none, none, none] := rfl
  have hall : KeywordPlace.all
      "select a[###RBQL_STRING_LITERAL0###], a.x, x where a2 == x".toList =
        .ok [⟨.select, .inner, 0, 6⟩, ⟨.condition, .inner, 45, 50⟩] :=
    KeywordPlace.all_eq_ok hfound (List.Perm.refl _) (by decide)
  refine ⟨by decide +kernel, by decide +kernel, ?_⟩
  rw [Clauses.locate, hall]
  decide

theorem columns_fourSpellings :
    ColumnMap.ofQuery "select a['x'], a.x, x where a2 == x".toList .input
        (some ["y", "x", "x"]) =
      .ok ⟨[("a2", 1), ("a.x", 1), ("a[\"x\"]", 1), ("x", 1)], some ["y", "x", "x"]⟩ := by
  decide +kernel

theorem ofQuery_fourSpellings :
    ofQuery "select a['x'], a.x, x where a2 == x".toList
        ⟨[("a2", 1), ("a.x", 1), ("a[\"x\"]", 1), ("x", 1)], some ["y", "x", "x"]⟩ none
        Scope.empty =
      .ok ⟨.select [.value (.field .input 1 "a[\"x\"]"), .value (.field .input 1 "a.x"),
          .value (.field .input 1 "x")],
        some (.binary .eq (.field .input 1 "a2") (.field .input 1 "x")), none, none, false, none,
        .no, none, none, 0, some ["x", "x", "x"]⟩ := by
  obtain ⟨hisolated, hcount, hlocate⟩ := clauses_fourSpellings
  rw [ofQuery_eq_of_clauses hisolated hcount hlocate]
  decide +kernel

/-- The first of two columns with one name, by its number and by its name in three ways. -/
theorem bindsFields_of_ofQuery_fourSpellings :
    ∃ input plan, ColumnMap.ofQuery "select a['x'], a.x, x where a2 == x".toList .input
        (some ["y", "x", "x"]) = .ok input ∧
      ofQuery "select a['x'], a.x, x where a2 == x".toList input none Scope.empty = .ok plan ∧
      plan.ReadsFrom
        ⟨"select a[###RBQL_STRING_LITERAL0###], a.x, x where a2 == x".toList, ["'x'".toList]⟩
        ⟨some ⟨"a[###RBQL_STRING_LITERAL0###], a.x, x".toList, none, .no⟩, none,
          some "a2 == x".toList, none, none, none, none, none⟩
        (Expr.BindsFields ["y", "x", "x"] Scope.empty) := by
  obtain ⟨isolated, clauses, hisolated, hlocate, hreads⟩ :=
    bindsFields_of_ofQuery columns_fourSpellings (by rintro _ ⟨⟩) ofQuery_fourSpellings
  obtain ⟨hisolated', hcount, hlocate'⟩ := clauses_fourSpellings
  rw [hisolated'] at hisolated
  cases hisolated
  simp only [hcount, hlocate'] at hlocate hreads
  cases hlocate
  exact ⟨_, _, columns_fourSpellings, ofQuery_fourSpellings, hreads⟩

theorem ofQuery_beyondColumns :
    ofQuery "select a18446744073709551616".toList ⟨[], some ["x"]⟩ none
        ⟨[("a18446744073709551616", .int 5)], []⟩ =
      .ok ⟨.select [.value (.literal (.int 5))], none, none, none, false, none, .no, none, none, 0,
        some ["col1"]⟩ := by
  have hfound : ClauseKind.all.mapM (KeywordPlace.one? "select a18446744073709551616".toList) =
      .ok [none, some ⟨.select, .inner, 0, 6⟩, none, none, none, none, none, none] := rfl
  have hplaces := KeywordPlace.all_eq_ok hfound (List.Perm.refl _) (by decide)
  rw [ofQuery_eq_of_places (by decide +kernel) (by decide +kernel) hplaces]
  decide +kernel

/-- A number of more than sixty-four bits is that of no column, so that a constant can have
this name. -/
theorem not_forall_numbered_eq_field :
    ¬∀ (k : Nat) (header : List String) (code : List Char) scope input plan, 1 ≤ k →
      Scope.ofCode code = .ok scope →
      ColumnMap.ofQuery (s!"select a{k}").toList .input (some header) = .ok input →
      ofQuery (s!"select a{k}").toList input none scope = .ok plan →
      ∃ spelling, plan.statement = .select [.value (.field .input (k - 1) spelling)] := by
  intro h
  have hk : (s!"select a{18446744073709551616}").toList =
      "select a18446744073709551616".toList := by decide
  have hinput : ColumnMap.ofQuery "select a18446744073709551616".toList .input (some ["x"]) =
      .ok ⟨[], some ["x"]⟩ := by decide +kernel
  have hscope : Scope.ofCode "a18446744073709551616 = 5".toList =
      .ok ⟨[("a18446744073709551616", .int 5)], []⟩ := by decide +kernel
  obtain ⟨spelling, heq⟩ := h 18446744073709551616 ["x"] _ _ _ _ (by decide) hscope
    (hk ▸ hinput) (hk ▸ ofQuery_beyondColumns)
  cases heq

end Plan
end TableQuery
