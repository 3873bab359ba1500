import Mathlib.Data.List.Basic
import TableQuery.Proofs.Query.Scoping
import TableQuery.Query.Definitions

/-!
# Definitions in layers

Each definition stands on the ones before it: the bodies of functions call functions that
are defined earlier, so that no function calls itself, not even through others.
-/

namespace TableQuery
namespace Scope

variable {definitions : List Definition} {scope : Scope}

theorem notMem_of_defines_eq_false {name : String} (h : scope.defines name = false) :
    name ∉ scope.functions.map Prod.fst := by
  intro hmem
  obtain ⟨entry, hentry, rfl⟩ := List.mem_map.mp hmem
  have hlookup : scope.functions.lookup entry.1 = none := by
    simpa [function?] using (Bool.or_eq_false_iff.mp h).2
  have hne := List.lookup_eq_none_iff.mp hlookup entry hentry
  simp at hne

theorem wellScoped_of_bindDefinition {params : List String} {e : Expr} {b : Bound}
    (h : scope.bindDefinition params e = .ok b) :
    b.WellScoped scope.functions params.length false :=
  Expr.wellScoped_of_bindBody (eq_ok_of_mapError h)

/-- The names that some definitions lead to.  What is bound for a definition is well scoped
where the names before it are known, and the value of a constant is found without asking
for a parameter. -/
inductive Layered : List Definition → Scope → Prop
  /-- Nothing is defined. -/
  | empty : Layered [] empty
  /-- A constant after other definitions. -/
  | constant {before : List Definition} {earlier : Scope} {definition : Definition}
      {body : Bound} {v : Value} (layers : Layered before earlier)
      (fresh : earlier.defines definition.name = false) (params : definition.params = none)
      (bound : earlier.bindDefinition [] definition.body = .ok body)
      (wellScoped : body.WellScoped earlier.functions 0 false)
      (value : ∀ missing, body.evalOr missing Row.empty [] = .ok v) :
      Layered (before ++ [definition]) (earlier.addConstant definition.name v)
  /-- A function after other definitions. -/
  | function {before : List Definition} {earlier : Scope} {definition : Definition}
      {names : List String} {body : Bound} (layers : Layered before earlier)
      (fresh : earlier.defines definition.name = false)
      (params : definition.params = some names)
      (bound : earlier.bindDefinition names definition.body = .ok body)
      (wellScoped : body.WellScoped earlier.functions names.length false) :
      Layered (before ++ [definition])
        (earlier.addFunction definition.name (.mk names.length body))

namespace Layered

/-- The functions are those of the definitions, in the same order. -/
theorem map_functions (h : Layered definitions scope) :
    scope.functions.map (fun entry => (entry.1, entry.2.arity)) =
      definitions.filterMap fun definition =>
        definition.params.map fun names => (definition.name, names.length) := by
  induction h with
  | empty => rfl
  | constant _ _ hparams _ _ _ ih =>
    rw [List.filterMap_append, ← ih]
    simp [addConstant, hparams]
  | function _ _ hparams _ _ ih =>
    rw [List.filterMap_append, ← ih]
    simp [addFunction, hparams, Lambda.arity]

/-- A function calls only functions before it, and none of them has its name. -/
theorem exists_before (h : Layered definitions scope) {entry : String × Lambda}
    (hentry : entry ∈ scope.functions) :
    ∃ before after, scope.functions = before ++ entry :: after ∧
      entry.2.WellScoped before ∧ entry.1 ∉ before.map Prod.fst := by
  induction h with
  | empty => cases hentry
  | constant _ _ _ _ _ _ ih => exact ih hentry
  | @function _ earlier definition names body _ hfresh _ _ hbody ih =>
    rcases List.mem_append.mp hentry with hentry | hentry
    · obtain ⟨before, after, hfunctions, hscoped, hname⟩ := ih hentry
      refine ⟨before, after ++ [(definition.name, .mk names.length body)], ?_, hscoped, hname⟩
      rw [addFunction, hfunctions, List.append_assoc, List.cons_append]
    · obtain rfl := List.mem_singleton.mp hentry
      exact ⟨earlier.functions, [], rfl, hbody, notMem_of_defines_eq_false hfresh⟩

/-- The bodies of all functions are well scoped. -/
theorem wellScoped (h : Layered definitions scope) :
    ∀ entry ∈ scope.functions, entry.2.WellScoped scope.functions := by
  intro entry hentry
  obtain ⟨before, after, hfunctions, hscoped, -⟩ := h.exists_before hentry
  rw [hfunctions]
  exact Bound.wellScoped_mono (List.subset_append_left before _) _ hscoped

/-- A definition that is accepted is a layer of its own. -/
theorem of_define {before : List Definition} {earlier : Scope} {definition : Definition}
    (hlayers : Layered before earlier) (h : earlier.define definition = .ok scope) :
    Layered (before ++ [definition]) scope := by
  unfold define at h
  dsimp only at h
  split at h
  · cases h
  · next hfresh =>
    have hfresh := Bool.eq_false_iff.mpr hfresh
    split at h
    · next hparams =>
      obtain ⟨body, hbound, h⟩ := bind_eq_ok_iff.mp h
      obtain ⟨v, hvalue, h⟩ := bind_eq_ok_iff.mp h
      cases h
      have hbody := wellScoped_of_bindDefinition hbound
      refine .constant hlayers hfresh hparams hbound hbody fun missing => ?_
      rw [Bound.evalOr_eq_eval hlayers.wellScoped missing Row.empty body hbody]
      exact eq_ok_of_mapError hvalue
    · next hparams =>
      obtain ⟨body, hbound, h⟩ := bind_eq_ok_iff.mp h
      cases h
      exact .function hlayers hfresh hparams hbound (wellScoped_of_bindDefinition hbound)

/-- Definitions that are accepted add to the layers. -/
theorem of_foldlM {before after : List Definition} {earlier : Scope}
    (hlayers : Layered before earlier) (h : after.foldlM define earlier = .ok scope) :
    Layered (before ++ after) scope := by
  induction after generalizing before earlier with
  | nil =>
    cases h
    rwa [List.append_nil]
  | cons definition after ih =>
    rw [List.foldlM_cons] at h
    obtain ⟨next, hnext, h⟩ := bind_eq_ok_iff.mp h
    rw [List.append_cons]
    exact ih (hlayers.of_define hnext) h

end Layered

/-- The text of some definitions is read in layers. -/
theorem exists_layered_of_ofCode {code : List Char} (h : ofCode code = .ok scope) :
    ∃ definitions, Parser.parseDefinitions code = .ok definitions ∧ Layered definitions scope := by
  obtain ⟨definitions, hdefinitions, h⟩ := bind_eq_ok_iff.mp h
  exact ⟨definitions, eq_ok_of_mapError hdefinitions, Layered.of_foldlM .empty h⟩

/-! ## Calls -/

/-- A function calls another one by its name. -/
def Calls (scope : Scope) (caller callee : String) : Prop :=
  ∃ f, (caller, f) ∈ scope.functions ∧ callee ∈ f.body.callees

/-- How many functions are defined before the one with the given name. -/
def position (scope : Scope) (name : String) : Nat :=
  (scope.functions.map Prod.fst).idxOf name

/-- A call goes to an earlier function. -/
theorem Layered.position_lt_of_calls (h : Layered definitions scope) {caller callee : String}
    (hcalls : scope.Calls caller callee) : scope.position callee < scope.position caller := by
  obtain ⟨f, hf, hcallee⟩ := hcalls
  obtain ⟨before, after, hfunctions, hscoped, hname⟩ := h.exists_before hf
  have hbefore : callee ∈ before.map Prod.fst := Bound.callees_subset f.body hscoped hcallee
  rw [position, position, hfunctions, List.map_append, List.idxOf_append_of_mem hbefore,
    List.idxOf_append_of_notMem hname]
  exact Nat.lt_add_right _ (List.idxOf_lt_length_iff.mpr hbefore)

/-- So does a chain of calls. -/
theorem Layered.position_lt_of_transGen (h : Layered definitions scope) {caller callee : String}
    (hchain : Relation.TransGen scope.Calls caller callee) :
    scope.position callee < scope.position caller := by
  induction hchain with
  | single hcalls => exact h.position_lt_of_calls hcalls
  | tail _ hcalls ih => exact Nat.lt_trans (h.position_lt_of_calls hcalls) ih

/-- No chain of calls comes back to its start. -/
theorem Layered.not_transGen_self (h : Layered definitions scope) (name : String) :
    ¬Relation.TransGen scope.Calls name name :=
  fun hchain => Nat.lt_irrefl _ (h.position_lt_of_transGen hchain)

end Scope
end TableQuery
