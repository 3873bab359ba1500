import TableQuery.Value.Equality
import TableQuery.Query.Plan

/-!
# Equality of expressions and of plans

Whether two plans are the same can be decided, so that the plan of a given query can be
computed and compared.  What is to be decided is whether their expressions are the same.
-/

namespace TableQuery

/-! ## Expressions as they are written -/

namespace Expr

mutual

/-- Whether two expressions are written alike. -/
def beq : Expr → Expr → Bool
  | .null, .null => true
  | .bool b, .bool b' => b == b'
  | .int n, .int n' => n == n'
  | .float x, .float x' => x == x'
  | .text s, .text s' => s == s'
  | .name s, .name s' => s == s'
  | .list items, .list items' => beqAll items items'
  | .attribute base s, .attribute base' s' => base.beq base' && s == s'
  | .index base i, .index base' i' => base.beq base' && i.beq i'
  | .call s args, .call s' args' => s == s' && beqAll args args'
  | .binary op l r, .binary op' l' r' => op == op' && l.beq l' && r.beq r'
  | .unary op e, .unary op' e' => op == op' && e.beq e'
  | .isNull negated e, .isNull negated' e' => negated == negated' && e.beq e'
  | .choice e l r, .choice e' l' r' => e.beq e' && l.beq l' && r.beq r'
  | .lambda params body, .lambda params' body' => params == params' && body.beq body'
  | _, _ => false

/-- Whether two lists hold the same expressions. -/
def beqAll : List Expr → List Expr → Bool
  | [], [] => true
  | e :: es, e' :: es' => e.beq e' && beqAll es es'
  | _, _ => false

end

mutual

theorem beq_eq_true_iff (a : Expr) {b : Expr} : a.beq b = true ↔ a = b := by
  match a with
  | .list items => cases b <;> simp [beq, beqAll_eq_true_iff items]
  | .attribute base _ => cases b <;> simp [beq, beq_eq_true_iff base]
  | .index base i => cases b <;> simp [beq, beq_eq_true_iff base, beq_eq_true_iff i]
  | .call _ args => cases b <;> simp [beq, beqAll_eq_true_iff args]
  | .binary _ l r =>
    cases b <;> simp [beq, beq_eq_true_iff l, beq_eq_true_iff r, and_assoc]
  | .unary _ e => cases b <;> simp [beq, beq_eq_true_iff e]
  | .isNull _ e => cases b <;> simp [beq, beq_eq_true_iff e]
  | .choice e l r =>
    cases b <;>
      simp [beq, beq_eq_true_iff e, beq_eq_true_iff l, beq_eq_true_iff r, and_assoc]
  | .lambda _ body => cases b <;> simp [beq, beq_eq_true_iff body]
  | .null | .bool _ | .int _ | .float _ | .text _ | .name _ => cases b <;> simp [beq]
termination_by structural a

theorem beqAll_eq_true_iff (as : List Expr) {bs : List Expr} :
    beqAll as bs = true ↔ as = bs := by
  cases as with
  | nil => cases bs <;> simp [beqAll]
  | cons a as => cases bs <;> simp [beqAll, beq_eq_true_iff a, beqAll_eq_true_iff as]
termination_by structural as

end

end Expr

instance : DecidableEq Expr := fun a _ =>
  decidable_of_iff _ a.beq_eq_true_iff

/-! ## Expressions whose names have a meaning -/

namespace Bound

mutual

/-- Whether two expressions are the same. -/
def beq : Bound → Bound → Bool
  | .literal v, .literal w => v == w
  | .field side i spelling, .field side' i' spelling' =>
    side == side' && i == i' && spelling == spelling'
  | .recordNumber side, .recordNumber side' => side == side'
  | .fieldCount side, .fieldCount side' => side == side'
  | .param slot, .param slot' => slot == slot'
  | .list items, .list items' => beqAll items items'
  | .binary op l r, .binary op' l' r' => op == op' && l.beq l' && r.beq r'
  | .unary op e, .unary op' e' => op == op' && e.beq e'
  | .isNull negated e, .isNull negated' e' => negated == negated' && e.beq e'
  | .choice e l r, .choice e' l' r' => e.beq e' && l.beq l' && r.beq r'
  | .index e i, .index e' i' => e.beq e' && i.beq i'
  | .call f args, .call f' args' => f == f' && beqAll args args'
  | .userCall name f args, .userCall name' f' args' =>
    name == name' && beqLambda f f' && beqAll args args'
  | .aggregate site f arg post, .aggregate site' f' arg' post' =>
    site == site' && f == f' && arg.beq arg' && beqLambda? post post'
  | .unfold e, .unfold e' => e.beq e'
  | _, _ => false

/-- Whether two lists hold the same expressions. -/
def beqAll : List Bound → List Bound → Bool
  | [], [] => true
  | e :: es, e' :: es' => e.beq e' && beqAll es es'
  | _, _ => false

/-- Whether two functions are the same. -/
def beqLambda : Lambda → Lambda → Bool
  | .mk arity body, .mk arity' body' => arity == arity' && body.beq body'

/-- Whether two functions are the same, or neither is there. -/
def beqLambda? : Option Lambda → Option Lambda → Bool
  | none, none => true
  | some f, some f' => beqLambda f f'
  | _, _ => false

end

mutual

theorem beq_eq_true_iff (a : Bound) {b : Bound} : a.beq b = true ↔ a = b := by
  cases a with
  | list items => cases b <;> simp [beq, beqAll_eq_true_iff items]
  | binary op l r =>
    cases b <;> simp [beq, beq_eq_true_iff l, beq_eq_true_iff r, and_assoc]
  | unary op e => cases b <;> simp [beq, beq_eq_true_iff e]
  | isNull negated e => cases b <;> simp [beq, beq_eq_true_iff e]
  | choice e l r =>
    cases b <;>
      simp [beq, beq_eq_true_iff e, beq_eq_true_iff l, beq_eq_true_iff r, and_assoc]
  | index e i => cases b <;> simp [beq, beq_eq_true_iff e, beq_eq_true_iff i]
  | call f args => cases b <;> simp [beq, beqAll_eq_true_iff args]
  | userCall name f args =>
    cases b <;> simp [beq, beqLambda_eq_true_iff f, beqAll_eq_true_iff args, and_assoc]
  | aggregate site f arg post =>
    cases b <;> simp [beq, beq_eq_true_iff arg, beqLambda?_eq_true_iff post, and_assoc]
  | unfold e => cases b <;> simp [beq, beq_eq_true_iff e]
  | _ => cases b <;> simp [beq, and_assoc]
termination_by structural a

theorem beqAll_eq_true_iff (as : List Bound) {bs : List Bound} :
    beqAll as bs = true ↔ as = bs := by
  cases as with
  | nil => cases bs <;> simp [beqAll]
  | cons a as => cases bs <;> simp [beqAll, beq_eq_true_iff a, beqAll_eq_true_iff as]
termination_by structural as

theorem beqLambda_eq_true_iff (f : Lambda) {g : Lambda} : beqLambda f g = true ↔ f = g := by
  cases f with
  | mk arity body =>
    cases g
    simp [beqLambda, body.beq_eq_true_iff]
termination_by structural f

theorem beqLambda?_eq_true_iff (f : Option Lambda) {g : Option Lambda} :
    beqLambda? f g = true ↔ f = g := by
  cases f with
  | none => cases g <;> simp [beqLambda?]
  | some f => cases g <;> simp [beqLambda?, beqLambda_eq_true_iff f]
termination_by structural f

end

end Bound

instance : DecidableEq Bound := fun a _ =>
  decidable_of_iff _ a.beq_eq_true_iff

instance : DecidableEq Lambda := fun f _ =>
  decidable_of_iff _ (Bound.beqLambda_eq_true_iff f)

/-! ## Plans -/

deriving instance DecidableEq for
  Assignment, Projection, Statement, KeyPair, JoinSpec, Plan, Scope

end TableQuery
