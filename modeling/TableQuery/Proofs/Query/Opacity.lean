import TableQuery.Proofs.Expression.Reading
import TableQuery.Proofs.Query.Clauses
import TableQuery.Proofs.Query.Comments

/-!
# What a query makes of the content of a literal

A query that selects one string literal is cleaned, searched for clauses and read without
regard to what the literal holds, once the literal has been set aside.  Before that it loses
its comments, also inside of the literal.
-/

namespace TableQuery

open Token (escaped)

namespace IsolatedQuery

/-! ## The query without its literal -/

theorem isolateFrom_append {run : List Char} (hrun : ∀ c ∈ run, Token.isQuote c = false)
    (position count : Nat) (s : List Char) :
    isolateFrom position count (run ++ s) =
      (isolateFrom (position + Text.Utf8.size run) count s).map fun others =>
        { others with text := run ++ others.text } := by
  induction run generalizing position with
  | nil => cases h : isolateFrom position count s <;> simp [Text.Utf8.size, h, Except.map]
  | cons c run ih =>
    obtain ⟨hc, hothers⟩ := List.forall_mem_cons.mp hrun
    rw [List.cons_append, isolateFrom, if_neg (by simp [opensLiteral_eq_isQuote, hc]), ih hothers,
      Text.Utf8.size, Nat.add_assoc]
    cases isolateFrom (position + (c.utf8Size + Text.Utf8.size run)) count s <;> rfl

theorem isolateFrom_literal (position count : Nat) (t : List Char) :
    isolateFrom position count (Token.literal t) = .ok ⟨placeholder count, [Token.literal t]⟩ := by
  have hclosing : closing? '\'' (escaped t ++ ['\'']) = some (escaped t ++ ['\'']).length := by
    rw [closing?_eq_map_readString? (by decide), Token.readString?_escaped_append t [],
      Option.map_some, List.length_append, List.length_singleton]
  rw [Token.literal, isolateFrom, if_pos (by decide), hclosing]
  simp only [List.take_length, List.drop_length, isolateFrom]
  simp [Except.map]

theorem isolateFrom_unclosed (position count : Nat) (t : List Char) :
    isolateFrom position count ('\'' :: escaped t) = .error position := by
  rw [isolateFrom, if_pos (by decide), closing?_eq_map_readString? (by decide),
    Token.readString?_escaped_eq_none, Option.map_none]

/-- The cleaned query that selects one literal, whatever the literal holds. -/
def cleanedSelect : List Char :=
  "select ".toList ++ placeholder 0

theorem isQuote_of_mem_select : ∀ c ∈ "select ".toList, Token.isQuote c = false := by
  simp [Token.isQuote]

theorem ofQuery_selectLiteral {s t : List Char} (h : remainingText? s = some t) :
    ofQuery (selectLiteral s) = .ok ⟨cleanedSelect, [Token.literal t]⟩ := by
  have hclean : dropSemicolon (Text.collapseBlanks cleanedSelect) = cleanedSelect := by
    decide +kernel
  have hisolated : isolateFrom 0 0 (selectLiteral t) = .ok ⟨cleanedSelect, [Token.literal t]⟩ := by
    unfold selectLiteral
    rw [isolateFrom_append isQuote_of_mem_select, isolateFrom_literal]
    rfl
  rw [ofQuery, (dropComments_selectLiteral s).1 t h, hisolated]
  change Except.ok (IsolatedQuery.mk (dropSemicolon (Text.collapseBlanks cleanedSelect)) _) = _
  rw [hclean]

theorem ofQuery_selectLiteral_unclosed {s : List Char} (h : remainingText? s = none) :
    ofQuery (selectLiteral s) = .error (.unterminatedLiteral 7) := by
  obtain ⟨t, ht⟩ := (dropComments_selectLiteral s).2 h
  have hquery : "select '".toList ++ escaped t = "select ".toList ++ '\'' :: escaped t := rfl
  rw [ofQuery, ht, hquery, isolateFrom_append isQuote_of_mem_select, isolateFrom_unclosed]
  rfl

end IsolatedQuery

/-! ## Clauses and their texts -/

theorem locate_cleanedSelect :
    Clauses.locate IsolatedQuery.cleanedSelect =
      .ok { Clauses.none with select := some ⟨IsolatedQuery.placeholder 0, none, .no⟩ } := by
  have hall : KeywordPlace.all IsolatedQuery.cleanedSelect = .ok [⟨.select, .inner, 0, 6⟩] := by
    have hplaces : ClauseKind.all.mapM (KeywordPlace.one? IsolatedQuery.cleanedSelect) =
        .ok [none, some ⟨.select, .inner, 0, 6⟩, none, none, none, none, none, none] := rfl
    rw [KeywordPlace.all, hplaces, ok_bind]
    exact congrArg Except.ok (List.mergeSort_singleton _)
  rw [Clauses.locate, hall]
  rfl

/-- A string literal is read as a select list of one column. -/
theorem parseSelect_literal (s : String) :
    Parser.parseSelect (Token.literal s.toList) = .ok [.column (.text s) none] := by
  have hspellable : Token.AreSpellable [.text s] :=
    Token.areSpellable_cons.mpr ⟨trivial, Token.areSpellable_nil⟩
  obtain ⟨htokens, hplaced⟩ := Token.tokens_spaced hspellable
  obtain ⟨span, others, hlex, hothers⟩ := exists_of_map_token_cons hplaced
  obtain ⟨span', rfl⟩ := exists_of_map_token_singleton hothers
  have hread := (Expr.isRead (.text s)).whole [⟨.text s, span⟩] ⟨.finish, span'⟩ [] rfl rfl
  obtain ⟨within, hexpr⟩ := Parser.exists_of_outcome hread
  have hitem : Parser.readSelectItem [⟨.text s, span⟩, ⟨.finish, span'⟩] =
      .ok ⟨.column (.text s) none, [⟨.finish, span'⟩], within⟩ := by
    have hstar : Parser.star? [⟨.text s, span⟩, ⟨.finish, span'⟩] = none := rfl
    rw [Parser.readSelectItem, hstar]
    simp only [List.singleton_append] at hexpr
    simp only [hexpr, ok_bind]
    rfl
  have hliteral : Token.literal s.toList = Token.spaced [.text s] := rfl
  rw [Parser.parseSelect, hliteral, htokens, ok_bind, hlex, Parser.readList, hitem]
  rfl

namespace Plan

/-- The plan that selects one literal. -/
def ofLiteral (s : String) (columns : ColumnMap) : Plan where
  statement := .select [.value (.literal (.text s))]
  condition := none
  join := none
  orderBy := none
  reverse := false
  groupBy := none
  distinct := .no
  limit := none
  exclusion := none
  aggregates := 0
  header := columns.header.map fun _ => ["col1"]

section

variable (t : List Char) (columns : ColumnMap) (scope : Scope)

theorem readSelect_placeholder :
    IsolatedQuery.readSelect ⟨IsolatedQuery.cleanedSelect, [Token.literal t]⟩
      (IsolatedQuery.placeholder 0) = .ok [.column (.text (String.ofList t)) none] := by
  have hsize : [Token.literal t].length ≤ UInt64.size := show 1 ≤ UInt64.size by decide
  have hrestore : IsolatedQuery.restore ⟨IsolatedQuery.cleanedSelect, [Token.literal t]⟩
      (IsolatedQuery.placeholder 0 ++ []) = Token.literal t ++ _ :=
    IsolatedQuery.restore_placeholder_append hsize rfl []
  have hparse := parseSelect_literal (String.ofList t)
  rw [String.toList_ofList] at hparse
  rw [List.append_nil, IsolatedQuery.restore, List.append_nil] at hrestore
  rw [IsolatedQuery.readSelect, IsolatedQuery.read, hrestore, hparse, mapError_ok]

theorem selectHeader?_literal (s : String) :
    selectHeader? ⟨columns, none⟩ .no
        [(.column (.text s) none, .value (.literal (.text s)))] =
      columns.header.map fun _ => ["col1"] := by
  rw [selectHeader?]
  cases columns.header <;> rfl

theorem readItems_placeholder :
    readItems ⟨IsolatedQuery.cleanedSelect, [Token.literal t]⟩ ⟨columns, none⟩
        (Names.ofQuery ⟨columns, none⟩ scope) ⟨IsolatedQuery.placeholder 0, none, .no⟩ =
      pure (.select [.value (.literal (.text (String.ofList t)))], none,
        columns.header.map fun _ => ["col1"]) := by
  rw [readItems]
  simp only [readSelect_placeholder, ← selectHeader?_literal columns (String.ofList t)]
  rfl

theorem readClauses_placeholder :
    (readClauses ⟨IsolatedQuery.cleanedSelect, [Token.literal t]⟩ ⟨columns, none⟩ scope
        { Clauses.none with select := some ⟨IsolatedQuery.placeholder 0, none, .no⟩ }).run' 0 =
      .ok (ofLiteral (String.ofList t) columns) := by
  rw [readClauses]
  have hbody : readBody ⟨IsolatedQuery.cleanedSelect, [Token.literal t]⟩ ⟨columns, none⟩
      (Names.ofQuery ⟨columns, none⟩ scope)
      { Clauses.none with select := some ⟨IsolatedQuery.placeholder 0, none, .no⟩ } = _ :=
    readItems_placeholder t columns scope
  rw [hbody]
  rfl

theorem ofQuery_selectLiteral_of_remaining {s t : List Char} (h : remainingText? s = some t)
    (join : Option ColumnMap) :
    ofQuery (selectLiteral s) columns join scope = .ok (ofLiteral (String.ofList t) columns) := by
  have hcount : countRows IsolatedQuery.cleanedSelect = IsolatedQuery.cleanedSelect := by
    decide +kernel
  rw [ofQuery_eq_of_clauses (IsolatedQuery.ofQuery_selectLiteral h) hcount locate_cleanedSelect]
  exact readClauses_placeholder t columns scope

theorem ofQuery_selectLiteral_unclosed {s : List Char} (h : remainingText? s = none)
    (join : Option ColumnMap) :
    ofQuery (selectLiteral s) columns join scope = .error (.unterminatedLiteral 7) := by
  rw [ofQuery, IsolatedQuery.ofQuery_selectLiteral_unclosed h]
  rfl

end

/-- A query that selects one literal gives what is left of the literal without the comments
of the query, whatever else the literal holds, and it is refused if they take the closing
quote.  The literal is left as it is exactly if no line of it behind the first one begins
with a number sign and no carriage return in it stands before a line feed. -/
theorem ofQuery_selectLiteral_eq (s : List Char) (columns : ColumnMap) (join : Option ColumnMap)
    (scope : Scope) :
    (ofQuery (selectLiteral s) columns join scope =
      match remainingText? s with
      | some t => .ok (ofLiteral (String.ofList t) columns)
      | none => .error (.unterminatedLiteral 7)) ∧
    (remainingText? s = some s ↔
      (∀ line ∈ (Text.split ['\n'] s).tail, IsolatedQuery.isComment line = false) ∧
        ¬['\r', '\n'] <:+: s) := by
  refine ⟨?_, IsolatedQuery.remainingText?_eq_self_iff⟩
  cases h : remainingText? s with
  | none => exact ofQuery_selectLiteral_unclosed columns scope h join
  | some t => exact ofQuery_selectLiteral_of_remaining columns scope h join

/-- The second line of this literal is taken for a comment. -/
theorem ofQuery_selectLiteral_comment :
    ofQuery "select 'a\n#b'".toList ⟨[], none⟩ none Scope.empty = .error (.unterminatedLiteral 7) :=
  ofQuery_selectLiteral_unclosed ⟨[], none⟩ Scope.empty (s := "a\n#b".toList) (by decide +kernel) none

end Plan
end TableQuery
