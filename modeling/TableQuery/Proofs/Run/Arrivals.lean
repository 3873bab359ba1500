import Mathlib.Data.List.Induction
import TableQuery.Proofs.Run.Rows
import TableQuery.Proofs.Run.Stages

/-!
# The rows that arrive at the output

A query without groups makes rows of output of each row that an input record stands in and
that meets the condition.  Each item of the select list shows some fields of the row; they
make one row of output, or one for each element of the list to unfold, if there is one.
-/

namespace TableQuery

/-- The fields of a record but for those in the given places. -/
def fieldsBut (excluded : List Nat) (fields : Record) : Record :=
  ((List.range fields.length).filter (· ∉ excluded)).filterMap fun i => fields[i]?

theorem fieldsBut_append_singleton (excluded : List Nat) (fields : Record) (field : Value) :
    fieldsBut excluded (fields ++ [field]) =
      fieldsBut excluded fields ++ if fields.length ∈ excluded then [] else [field] := by
  have hbefore : ∀ i ∈ (List.range fields.length).filter (· ∉ excluded),
      (fields ++ [field])[i]? = fields[i]? := fun i hi =>
    List.getElem?_append_left (List.mem_range.mp (List.mem_filter.mp hi).1)
  rw [fieldsBut, fieldsBut, List.length_append, List.length_singleton, List.range_succ,
    List.filter_append, List.filterMap_append, List.filterMap_congr hbefore]
  by_cases hmem : fields.length ∈ excluded <;> simp [hmem]

namespace Plan

variable {plan : Plan} {items : List Projection} {row : Row}

theorem without_eq_fieldsBut (excluded : List Nat) (fields : Record) :
    without excluded fields = fieldsBut excluded fields := by
  induction fields using List.reverseRecOn with
  | nil => rfl
  | append_singleton fields field ih =>
    rw [fieldsBut_append_singleton, ← ih]
    unfold without
    rw [List.zipIdx_append, List.filter_append, List.map_append]
    by_cases hmem : fields.length ∈ excluded <;> simp [hmem]

/-- An item of the select list shows some fields of a row. -/
inductive Shows (plan : Plan) (row : Row) : Projection → Record → Prop where
  /-- All fields of the record, and those of its partner. -/
  | all : Shows plan row (.star .all) (row.fields ++ row.partner.elim [] Partner.fields)
  /-- The fields of the record but for those that are left out. -/
  | input : Shows plan row (.star .input) (fieldsBut (plan.exclusion.getD []) row.fields)
  /-- The fields of the partner. -/
  | join : Shows plan row (.star .join) (row.partner.elim [] Partner.fields)
  /-- The value of an expression. -/
  | value {e : Bound} {v : Value} (hvalue : e.eval row [] = .ok v) :
    Shows plan row (.value e) [v]

/-- The values that the rows of output are ordered by, if they are ordered. -/
def IsOrderKey (plan : Plan) (row : Row) (key : List Value) : Prop :=
  List.Forall₂ (fun e v => e.eval row [] = .ok v) (plan.orderBy.getD []) key

/-- The rows of output that are made of a row, each behind the values that it is ordered
by. -/
inductive Makes (plan : Plan) (items : List Projection) (row : Row) :
    List (List Value × Record) → Prop where
  /-- A row that misses the condition makes none. -/
  | missed (hmisses : plan.Misses row) : Makes plan items row []
  /-- The fields that the items show make one. -/
  | plain {key : List Value} {shown : List Record} (hmeets : plan.Meets row)
    (hshown : List.Forall₂ (plan.Shows row) items shown) (hkey : plan.IsOrderKey row key) :
    Makes plan items row [(key, shown.flatten)]
  /-- With a list to unfold they make one for each of its elements, which stands between
  the fields that the items before and behind show. -/
  | unfolded {key : List Value} {before after : List Projection} {e : Bound}
    {first last : List Record} {elements : List Value} (hmeets : plan.Meets row)
    (hitems : items = before ++ .value (.unfold e) :: after)
    (hfirst : List.Forall₂ (plan.Shows row) before first)
    (helements : e.eval row [] = .ok (.list elements))
    (hlast : List.Forall₂ (plan.Shows row) after last) (hkey : plan.IsOrderKey row key) :
    Makes plan items row (elements.map fun v => (key, first.flatten ++ v :: last.flatten))

/-- The rows of output that are made of the input records, record by record.  The first
record has the given number. -/
inductive MakesAll [Hashing] (plan : Plan) (items : List Projection)
    (index : Option JoinIndex) :
    Nat → List Record → List (List (List Value × Record)) → Prop where
  | nil (number : Nat) : MakesAll plan items index number [] []
  | cons {number : Nat} {record : Record} {records : List Record} {rows : List Row}
    {made : List (List (List Value × Record))}
    {arrivals : List (List (List Value × Record))}
    (hrows : StandsIn record number index rows)
    (hmade : List.Forall₂ (plan.Makes items) rows made)
    (hrest : MakesAll plan items index (number + 1) records arrivals) :
    MakesAll plan items index number (record :: records) (made.flatten :: arrivals)

/-! ## Projecting a row -/

theorem starFields_eq {source : Star} {fields : Record}
    (h : plan.Shows row (.star source) fields) : plan.starFields row source = fields := by
  have hpartner : row.partnerFields = row.partner.elim [] Partner.fields := by
    unfold Row.partnerFields
    cases row.partner <;> rfl
  cases h with
  | all => rw [starFields, hpartner]
  | input =>
    unfold starFields
    cases plan.exclusion with
    | none =>
      show row.fields = fieldsBut [] row.fields
      rw [← without_eq_fieldsBut, without]
      simp
    | some excluded => exact without_eq_fieldsBut excluded row.fields
  | join => exact hpartner

/-- An item adds the fields that it shows. -/
theorem Shows.project_eq {item : Projection} {fields : Record}
    (h : plan.Shows row item fields) (projected : Projected) :
    plan.project row projected item =
      .ok { projected with fields := projected.fields ++ fields } := by
  cases item with
  | star source =>
    rw [project, starFields_eq h]
  | value e =>
    cases h with
    | value hvalue =>
      unfold project
      split
      · next heq => cases heq
      · next e' heq =>
        -- No row gives a list to unfold a value of its own.
        obtain rfl := Projection.value.inj heq
        cases hvalue
      · next e' _ heq =>
        obtain rfl := Projection.value.inj heq
        rw [Row.eval_eq_ok_iff.mpr hvalue]
        rfl

/-- Items add the fields that they show one after the other. -/
theorem foldlM_project_eq {shown : List Record}
    (h : List.Forall₂ (plan.Shows row) items shown) (projected : Projected) :
    items.foldlM (plan.project row) projected =
      .ok { projected with fields := projected.fields ++ shown.flatten } := by
  induction h generalizing projected with
  | nil =>
    rw [List.flatten_nil, List.append_nil]
    rfl
  | cons hitem _ ih =>
    rw [List.foldlM_cons, hitem.project_eq projected, List.flatten_cons, ← List.append_assoc]
    exact ih _

/-- With a list to unfold they leave a field open for its elements. -/
theorem foldlM_project_unfold_eq {before after : List Projection} {e : Bound}
    {first last : List Record} {elements : List Value}
    (hfirst : List.Forall₂ (plan.Shows row) before first)
    (helements : e.eval row [] = .ok (.list elements))
    (hlast : List.Forall₂ (plan.Shows row) after last) :
    (before ++ .value (.unfold e) :: after).foldlM (plan.project row) ⟨[], none⟩ =
      .ok ⟨first.flatten ++ .null :: last.flatten, some (first.flatten.length, elements)⟩ := by
  have hunfold : plan.project row ⟨first.flatten, none⟩ (.value (.unfold e)) =
      .ok ⟨first.flatten ++ [.null], some (first.flatten.length, elements)⟩ := by
    rw [project, Row.eval_eq_ok_iff.mpr helements]
    rfl
  rw [List.foldlM_append, foldlM_project_eq hfirst]
  show List.foldlM (plan.project row) ⟨first.flatten, none⟩ (.value (.unfold e) :: after) = _
  rw [List.foldlM_cons, hunfold]
  show List.foldlM (plan.project row) ⟨_, _⟩ after = _
  rw [foldlM_project_eq hlast, List.append_assoc]
  rfl

theorem outputRows_eq {projected : Projected} {key : List Value}
    (hprojected : items.foldlM (plan.project row) ⟨[], none⟩ = .ok projected)
    (hkey : plan.IsOrderKey row key) :
    plan.outputRows items row =
      .ok (projected.records.map fun record => plan.outputRow (key, record)) := by
  rw [outputRows, hprojected, ok_bind]
  unfold outputRow
  cases horder : plan.orderBy with
  | none => rfl
  | some keys =>
    have hkeys : row.evalAll keys = .ok key := by
      rw [IsOrderKey, horder] at hkey
      exact Row.evalAll_eq_ok_iff.mpr hkey
    simp only [hkeys, ok_bind]
    rfl

/-- Without groups, the rows that are made of a row are written. -/
theorem Makes.rowsOf_eq (hplain : plan.isAggregate = false)
    {made : List (List Value × Record)} (h : plan.Makes items row made) :
    plan.rowsOf items row = .ok (made.map plan.outputRow) := by
  have hmet (hmeets : plan.Meets row) : plan.rowsOf items row = plan.outputRows items row := by
    rw [rowsOf, selects_eq_true_iff.mpr hmeets, ok_bind, if_pos rfl, hplain]
    rfl
  cases h with
  | missed hmisses =>
    rw [rowsOf, selects_eq_false_iff.mpr hmisses]
    rfl
  | plain hmeets hshown hkey =>
    rw [hmet hmeets, outputRows_eq (foldlM_project_eq hshown _) hkey]
    rfl
  | unfolded hmeets hitems hfirst helements hlast hkey =>
    subst hitems
    rw [hmet hmeets,
      outputRows_eq (foldlM_project_unfold_eq hfirst helements hlast) hkey]
    simp [Projected.records, Function.comp_def]

end Plan
end TableQuery
