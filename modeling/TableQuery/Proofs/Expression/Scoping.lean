import Mathlib.Logic.Relation
import TableQuery.Expression.Evaluation
import TableQuery.Proofs.Except

/-!
# Well-scoped expressions

An expression is well scoped if each of its parameters belongs to the function that it is the
body of, only expressions outside of functions read records, and calls are calls of known
functions with the right number of arguments.  Evaluating it then never asks for a parameter
that is not there, so that it does not matter what such a parameter would stand for.
-/

namespace TableQuery
namespace Bound

/-! ## Scoping -/

mutual

/-- Whether an expression is well scoped in the body of a function with the given number of
parameters, or outside of functions if there are none.  It may call the given functions, and
read records if `reads` holds.  What becomes of an aggregate is a function of its own, which
reads no record. -/
def WellScoped (functions : List (String × Lambda)) (arity : Nat) (reads : Bool) : Bound → Prop
  | literal _ => True
  | field _ _ _ => reads
  | recordNumber _ => reads
  | fieldCount _ => reads
  | param slot => slot < arity
  | list items => AllWellScoped functions arity reads items
  | binary _ left right =>
    left.WellScoped functions arity reads ∧ right.WellScoped functions arity reads
  | unary _ operand => operand.WellScoped functions arity reads
  | isNull _ operand => operand.WellScoped functions arity reads
  | choice condition chosen otherwise =>
    condition.WellScoped functions arity reads ∧ chosen.WellScoped functions arity reads ∧
      otherwise.WellScoped functions arity reads
  | index base i => base.WellScoped functions arity reads ∧ i.WellScoped functions arity reads
  | call _ args => AllWellScoped functions arity reads args
  | userCall name f args =>
    (name, f) ∈ functions ∧ args.length = f.arity ∧ AllWellScoped functions arity reads args
  | aggregate _ _ arg none => arg.WellScoped functions arity reads
  | aggregate _ _ arg (some (.mk own body)) =>
    arg.WellScoped functions arity reads ∧ body.WellScoped functions own false
  | unfold operand => operand.WellScoped functions arity reads

/-- Whether some expressions are well scoped. -/
def AllWellScoped (functions : List (String × Lambda)) (arity : Nat) (reads : Bool) :
    List Bound → Prop
  | [] => True
  | e :: es => e.WellScoped functions arity reads ∧ AllWellScoped functions arity reads es

end

end Bound

/-- Whether the body of a function is well scoped. -/
def Lambda.WellScoped (functions : List (String × Lambda)) (f : Lambda) : Prop :=
  f.body.WellScoped functions f.arity false

namespace Bound

variable {functions functions' : List (String × Lambda)}

mutual

/-- More functions do not harm. -/
theorem wellScoped_mono (hsub : functions ⊆ functions') :
    ∀ (e : Bound) {arity : Nat} {reads : Bool},
      e.WellScoped functions arity reads → e.WellScoped functions' arity reads
  | literal _, _, _, _ => trivial
  | field _ _ _, _, _, h => h
  | recordNumber _, _, _, h => h
  | fieldCount _, _, _, h => h
  | param _, _, _, h => h
  | list items, _, _, h => allWellScoped_mono hsub items h
  | binary _ left right, _, _, h =>
    ⟨wellScoped_mono hsub left h.1, wellScoped_mono hsub right h.2⟩
  | unary _ operand, _, _, h => wellScoped_mono hsub operand h
  | isNull _ operand, _, _, h => wellScoped_mono hsub operand h
  | choice condition chosen otherwise, _, _, h =>
    ⟨wellScoped_mono hsub condition h.1, wellScoped_mono hsub chosen h.2.1,
      wellScoped_mono hsub otherwise h.2.2⟩
  | index base i, _, _, h => ⟨wellScoped_mono hsub base h.1, wellScoped_mono hsub i h.2⟩
  | call _ args, _, _, h => allWellScoped_mono hsub args h
  | userCall _ _ args, _, _, h => ⟨hsub h.1, h.2.1, allWellScoped_mono hsub args h.2.2⟩
  | aggregate _ _ arg none, _, _, h => wellScoped_mono hsub arg h
  | aggregate _ _ arg (some (.mk _ body)), _, _, h =>
    ⟨wellScoped_mono hsub arg h.1, wellScoped_mono hsub body h.2⟩
  | unfold operand, _, _, h => wellScoped_mono hsub operand h

theorem allWellScoped_mono (hsub : functions ⊆ functions') :
    ∀ (es : List Bound) {arity : Nat} {reads : Bool},
      AllWellScoped functions arity reads es → AllWellScoped functions' arity reads es
  | [], _, _, _ => trivial
  | e :: es, _, _, h => ⟨wellScoped_mono hsub e h.1, allWellScoped_mono hsub es h.2⟩

end

/-! ## Evaluation -/

mutual

/-- The value of an expression where a parameter that is not there comes to `missing`. -/
def evalOr (missing : Except EvalError Value) (row : Row) (params : List Value) :
    Bound → Except EvalError Value
  | literal v => .ok v
  | field side position spelling => (field side position spelling).eval row params
  | recordNumber side => .ok (row.recordNumber side)
  | fieldCount side => .ok (row.fieldCount side)
  | param slot => (params[slot]?.map .ok).getD missing
  | list items => do return .list (← evalAllOr missing row params items)
  | binary op left right => do
    let l ← left.evalOr missing row params
    match op with
    | .and => if l.isTruthy then right.evalOr missing row params else return l
    | .or => if l.isTruthy then return l else right.evalOr missing row params
    | op => Value.applyBinary op l (← right.evalOr missing row params)
  | unary op operand => do Value.applyUnary op (← operand.evalOr missing row params)
  | isNull negated operand => do
    return .bool ((← operand.evalOr missing row params).isNull != negated)
  | choice condition chosen otherwise => do
    if (← condition.evalOr missing row params).isTruthy then chosen.evalOr missing row params
    else otherwise.evalOr missing row params
  | index base i => do
    let b ← base.evalOr missing row params
    Value.subscript b (← i.evalOr missing row params)
  | call f args => do f.apply (← evalAllOr missing row params args)
  | userCall _ (.mk _ body) args => do
    body.evalOr missing row (← evalAllOr missing row params args)
  | aggregate _ f _ _ => .error (.misplacedAggregate f.name)
  | unfold _ => .error .misplacedUnfold

/-- The values of some expressions where a parameter that is not there comes to `missing`. -/
def evalAllOr (missing : Except EvalError Value) (row : Row) (params : List Value) :
    List Bound → Except EvalError (List Value)
  | [] => .ok []
  | e :: es => do
    let v ← e.evalOr missing row params
    return v :: (← evalAllOr missing row params es)

end

mutual

/-- Evaluation takes a parameter that is not there for the absent value. -/
theorem evalOr_null (row : Row) : ∀ (e : Bound) (params : List Value),
    e.evalOr (.ok .null) row params = e.eval row params
  | literal _, _ => rfl
  | field _ _ _, _ => by rw [evalOr]
  | recordNumber _, _ => rfl
  | fieldCount _, _ => rfl
  | param slot, params => by
    rw [evalOr, eval]
    cases params[slot]? <;> rfl
  | list items, params => by rw [evalOr, eval, evalAllOr_null row items params]
  | binary op left right, params => by
    cases op <;>
      simp only [evalOr, eval, evalOr_null row left params, evalOr_null row right params]
  | unary op operand, params => by rw [evalOr, eval, evalOr_null row operand params]
  | isNull negated operand, params => by rw [evalOr, eval, evalOr_null row operand params]
  | choice condition chosen otherwise, params => by
    rw [evalOr, eval, evalOr_null row condition params, evalOr_null row chosen params,
      evalOr_null row otherwise params]
  | index base i, params => by
    rw [evalOr, eval, evalOr_null row base params, evalOr_null row i params]
  | call f args, params => by rw [evalOr, eval, evalAllOr_null row args params]
  | userCall _ (.mk _ body) args, params => by
    rw [evalOr, eval, evalAllOr_null row args params]
    exact bind_congr fun values => evalOr_null row body values
  | aggregate _ _ _ _, _ => rfl
  | unfold _, _ => rfl

theorem evalAllOr_null (row : Row) : ∀ (es : List Bound) (params : List Value),
    evalAllOr (.ok .null) row params es = evalAll row params es
  | [], _ => rfl
  | e :: es, params => by
    rw [evalAllOr, evalAll, evalOr_null row e params, evalAllOr_null row es params]

end

theorem length_of_evalAll {row : Row} {params : List Value} {es : List Bound}
    {values : List Value} (h : evalAll row params es = .ok values) : values.length = es.length := by
  induction es generalizing values with
  | nil =>
    cases h
    rfl
  | cons e es ih =>
    obtain ⟨v, -, h⟩ := bind_eq_ok_iff.mp h
    obtain ⟨others, hothers, h⟩ := bind_eq_ok_iff.mp h
    cases h
    rw [List.length_cons, ih hothers, List.length_cons]

mutual

/-- A well-scoped expression is evaluated without asking for parameters that are not there. -/
theorem evalOr_eq_eval (hfunctions : ∀ entry ∈ functions, entry.2.WellScoped functions)
    (missing : Except EvalError Value) (row : Row) :
    ∀ (e : Bound) {params : List Value} {reads : Bool},
      e.WellScoped functions params.length reads →
        e.evalOr missing row params = e.eval row params
  | literal _, _, _, _ => rfl
  | field _ _ _, _, _, _ => by rw [evalOr]
  | recordNumber _, _, _, _ => rfl
  | fieldCount _, _, _, _ => rfl
  | param slot, params, _, h => by
    have hslot : slot < params.length := h
    rw [evalOr, eval, List.getElem?_eq_getElem hslot]
    rfl
  | list items, _, _, h => by rw [evalOr, eval, evalAllOr_eq_evalAll hfunctions missing row items h]
  | binary op left right, _, _, h => by
    cases op <;>
      simp only [evalOr, eval, evalOr_eq_eval hfunctions missing row left h.1,
        evalOr_eq_eval hfunctions missing row right h.2]
  | unary op operand, _, _, h => by
    rw [evalOr, eval, evalOr_eq_eval hfunctions missing row operand h]
  | isNull negated operand, _, _, h => by
    rw [evalOr, eval, evalOr_eq_eval hfunctions missing row operand h]
  | choice condition chosen otherwise, _, _, h => by
    rw [evalOr, eval, evalOr_eq_eval hfunctions missing row condition h.1,
      evalOr_eq_eval hfunctions missing row chosen h.2.1,
      evalOr_eq_eval hfunctions missing row otherwise h.2.2]
  | index base i, _, _, h => by
    rw [evalOr, eval, evalOr_eq_eval hfunctions missing row base h.1,
      evalOr_eq_eval hfunctions missing row i h.2]
  | call f args, _, _, h => by rw [evalOr, eval, evalAllOr_eq_evalAll hfunctions missing row args h]
  | userCall name (.mk own body) args, params, _, h => by
    obtain ⟨hmem, hlength, hargs⟩ := h
    rw [evalOr, eval, evalAllOr_eq_evalAll hfunctions missing row args hargs]
    cases hvalues : evalAll row params args with
    | error e => rfl
    | ok values =>
      -- The body sees the values of the arguments, and there are as many as it has parameters.
      have hown : own = values.length := hlength.symm.trans (length_of_evalAll hvalues).symm
      have hbody : body.WellScoped functions own false := hfunctions _ hmem
      exact evalOr_eq_eval hfunctions missing row body (hown ▸ hbody)
  | aggregate _ _ _ _, _, _, _ => rfl
  | unfold _, _, _, _ => rfl

theorem evalAllOr_eq_evalAll (hfunctions : ∀ entry ∈ functions, entry.2.WellScoped functions)
    (missing : Except EvalError Value) (row : Row) :
    ∀ (es : List Bound) {params : List Value} {reads : Bool},
      AllWellScoped functions params.length reads es →
        evalAllOr missing row params es = evalAll row params es
  | [], _, _, _ => rfl
  | e :: es, _, _, h => by
    rw [evalAllOr, evalAll, evalOr_eq_eval hfunctions missing row e h.1,
      evalAllOr_eq_evalAll hfunctions missing row es h.2]

end

/-! ## Calls -/

mutual

/-- The names of the defined functions that an expression calls, also in what becomes of its
aggregates. -/
def callees : Bound → List String
  | literal _ => []
  | field _ _ _ => []
  | recordNumber _ => []
  | fieldCount _ => []
  | param _ => []
  | list items => calleesOfAll items
  | binary _ left right => left.callees ++ right.callees
  | unary _ operand => operand.callees
  | isNull _ operand => operand.callees
  | choice condition chosen otherwise =>
    condition.callees ++ chosen.callees ++ otherwise.callees
  | index base i => base.callees ++ i.callees
  | call _ args => calleesOfAll args
  | userCall name _ args => name :: calleesOfAll args
  | aggregate _ _ arg none => arg.callees
  | aggregate _ _ arg (some (.mk _ body)) => arg.callees ++ body.callees
  | unfold operand => operand.callees

/-- The names of the defined functions that some expressions call. -/
def calleesOfAll : List Bound → List String
  | [] => []
  | e :: es => e.callees ++ calleesOfAll es

end

mutual

/-- A well-scoped expression calls known functions only. -/
theorem callees_subset : ∀ (e : Bound) {arity : Nat} {reads : Bool},
    e.WellScoped functions arity reads → e.callees ⊆ functions.map Prod.fst
  | literal _, _, _, _ => List.nil_subset _
  | field _ _ _, _, _, _ => List.nil_subset _
  | recordNumber _, _, _, _ => List.nil_subset _
  | fieldCount _, _, _, _ => List.nil_subset _
  | param _, _, _, _ => List.nil_subset _
  | list items, _, _, h => calleesOfAll_subset items h
  | binary _ left right, _, _, h =>
    List.append_subset.mpr ⟨callees_subset left h.1, callees_subset right h.2⟩
  | unary _ operand, _, _, h => callees_subset operand h
  | isNull _ operand, _, _, h => callees_subset operand h
  | choice condition chosen otherwise, _, _, h =>
    List.append_subset.mpr ⟨List.append_subset.mpr ⟨callees_subset condition h.1,
      callees_subset chosen h.2.1⟩, callees_subset otherwise h.2.2⟩
  | index base i, _, _, h =>
    List.append_subset.mpr ⟨callees_subset base h.1, callees_subset i h.2⟩
  | call _ args, _, _, h => calleesOfAll_subset args h
  | userCall _ _ args, _, _, h =>
    List.cons_subset.mpr ⟨List.mem_map_of_mem h.1, calleesOfAll_subset args h.2.2⟩
  | aggregate _ _ arg none, _, _, h => callees_subset arg h
  | aggregate _ _ arg (some (.mk _ body)), _, _, h =>
    List.append_subset.mpr ⟨callees_subset arg h.1, callees_subset body h.2⟩
  | unfold operand, _, _, h => callees_subset operand h

theorem calleesOfAll_subset : ∀ (es : List Bound) {arity : Nat} {reads : Bool},
    AllWellScoped functions arity reads es → calleesOfAll es ⊆ functions.map Prod.fst
  | [], _, _, _ => List.nil_subset _
  | e :: es, _, _, h =>
    List.append_subset.mpr ⟨callees_subset e h.1, calleesOfAll_subset es h.2⟩

end

end Bound

/-- The value of a function where a parameter that is not there comes to `missing`. -/
def Lambda.applyOr (missing : Except EvalError Value) (row : Row) (f : Lambda)
    (args : List Value) : Except EvalError Value :=
  if args.length = f.arity then f.body.evalOr missing row args
  else .error (.invalidArgument "lambda" (.arity f.arity args.length))

theorem Lambda.applyOr_eq_apply {functions : List (String × Lambda)}
    (hfunctions : ∀ entry ∈ functions, entry.2.WellScoped functions) {f : Lambda}
    (h : f.WellScoped functions) (missing : Except EvalError Value) (row : Row)
    (args : List Value) : f.applyOr missing row args = f.apply row args := by
  unfold applyOr apply
  split
  · next hlength =>
    have hbody : f.body.WellScoped functions args.length false := by
      rw [hlength]
      exact h
    exact Bound.evalOr_eq_eval hfunctions missing row f.body hbody
  · rfl

end TableQuery
