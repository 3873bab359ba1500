import Mathlib.Data.List.Forall2

/-!
# Computations that may fail

A computation in steps succeeds exactly if each of its steps does.
-/

namespace TableQuery

variable {ε α β : Type}

@[simp] theorem mapError_ok {δ : Type} (f : ε → δ) (a : α) :
    (Except.ok a).mapError f = .ok a :=
  rfl

@[simp] theorem mapError_error {δ : Type} (f : ε → δ) (e : ε) :
    (Except.error e : Except ε α).mapError f = .error (f e) :=
  rfl

/-- Whether a computation gives a value can be decided without comparing errors. -/
instance (priority := low) decidableEqOk [DecidableEq α] (x : Except ε α) (a : α) :
    Decidable (x = .ok a) :=
  match x with
  | .ok b => decidable_of_iff (b = a) ⟨congrArg Except.ok, Except.ok.inj⟩
  | .error _ => isFalse (by rintro ⟨⟩)

theorem eq_ok_of_mapError {δ : Type} {x : Except ε α} {f : ε → δ} {a : α}
    (h : x.mapError f = .ok a) : x = .ok a := by
  cases x with
  | error e => cases h
  | ok a' => exact congrArg Except.ok (Except.ok.inj h)

theorem map_eq_ok_iff {x : Except ε α} {f : α → β} {b : β} :
    x.map f = .ok b ↔ ∃ a, x = .ok a ∧ f a = b := by
  cases x with
  | error e => exact ⟨nofun, nofun⟩
  | ok a => exact ⟨fun h => ⟨a, rfl, Except.ok.inj h⟩,
      fun ⟨_, heq, h⟩ => congrArg Except.ok (Except.ok.inj heq ▸ h)⟩

theorem map_eq_error_iff {x : Except ε α} {f : α → β} {e : ε} :
    x.map f = .error e ↔ x = .error e := by
  cases x with
  | error e' => exact ⟨fun h => congrArg Except.error (Except.error.inj h), fun h => h ▸ rfl⟩
  | ok a => exact ⟨nofun, nofun⟩

theorem ok_bind (a : α) (f : α → Except ε β) : (Except.ok a >>= f) = f a :=
  rfl

/-- Two steps succeed exactly if the first one does and the second one does after it. -/
theorem bind_eq_ok_iff {x : Except ε α} {f : α → Except ε β} {b : β} :
    x >>= f = .ok b ↔ ∃ a, x = .ok a ∧ f a = .ok b := by
  cases x with
  | error e => exact ⟨nofun, nofun⟩
  | ok a => exact ⟨fun h => ⟨a, rfl, h⟩, fun ⟨_, heq, h⟩ => Except.ok.inj heq ▸ h⟩

/-- Two steps fail with an error only if one of them does. -/
theorem bind_ne_error {x : Except ε α} {f : α → Except ε β} {e : ε} (hx : x ≠ .error e)
    (hf : ∀ a, f a ≠ .error e) : x >>= f ≠ .error e := by
  cases x with
  | error e' => exact fun h => hx (congrArg Except.error (Except.error.inj h))
  | ok a => exact hf a

/-- The same for steps that pass a state on. -/
theorem run_bind_eq_ok_iff {σ : Type} {x : StateT σ (Except ε) α}
    {f : α → StateT σ (Except ε) β} {s : σ} {r : β × σ} :
    (x >>= f).run s = .ok r ↔ ∃ a s', x.run s = .ok (a, s') ∧ (f a).run s' = .ok r := by
  rw [StateT.run_bind, bind_eq_ok_iff]
  constructor
  · rintro ⟨⟨a, s'⟩, hx, hf⟩
    exact ⟨a, s', hx, hf⟩
  · rintro ⟨a, s', hx, hf⟩
    exact ⟨(a, s'), hx, hf⟩

theorem run_bind_eq_ok {σ : Type} {x : StateT σ (Except ε) α}
    {f : α → StateT σ (Except ε) β} {a : α} {s s' : σ} {r : β × σ} (hx : x.run s = .ok (a, s'))
    (hf : (f a).run s' = .ok r) : (x >>= f).run s = .ok r :=
  run_bind_eq_ok_iff.mpr ⟨a, s', hx, hf⟩

/-- A step that does not touch the state succeeds exactly if it does on its own. -/
theorem run_lift_eq_ok_iff {σ : Type} {x : Except ε α} {a : α} {s s' : σ} :
    (liftM x : StateT σ (Except ε) α).run s = .ok (a, s') ↔ x = .ok a ∧ s' = s := by
  cases x with
  | error e => exact ⟨nofun, nofun⟩
  | ok a' =>
    constructor
    · intro h
      cases h
      exact ⟨rfl, rfl⟩
    · rintro ⟨heq, rfl⟩
      cases heq
      rfl

/-- The results of a list of computations stand beside what they were computed from. -/
theorem exists_zip_of_mapM_eq_ok {f : α → Except ε β} {as : List α} {bs : List β}
    (h : as.mapM f = .ok bs) :
    ∃ table : List (α × β), table.map Prod.fst = as ∧ table.map Prod.snd = bs ∧
      ∀ entry ∈ table, f entry.1 = .ok entry.2 := by
  induction as generalizing bs with
  | nil =>
    cases h
    exact ⟨[], rfl, rfl, nofun⟩
  | cons a as ih =>
    rw [List.mapM_cons] at h
    obtain ⟨b, hb, h⟩ := bind_eq_ok_iff.mp h
    obtain ⟨bs, hbs, h⟩ := bind_eq_ok_iff.mp h
    cases h
    obtain ⟨table, rfl, rfl, htable⟩ := ih hbs
    exact ⟨(a, b) :: table, rfl, rfl, List.forall_mem_cons.mpr ⟨hb, htable⟩⟩

/-- A list of computations fails only with the error of one of them. -/
theorem mapM_ne_error {f : α → Except ε β} {as : List α} {e : ε}
    (hf : ∀ a ∈ as, f a ≠ .error e) : as.mapM f ≠ .error e := by
  induction as with
  | nil => exact nofun
  | cons a as ih =>
    obtain ⟨ha, has⟩ := List.forall_mem_cons.mp hf
    rw [List.mapM_cons]
    exact bind_ne_error ha fun b => bind_ne_error (ih has) fun bs => nofun

/-- What holds of each result of a computation, beside what it is computed from, holds of all
results for a list. -/
theorem forall₂_of_run_mapM {σ : Type} {f : α → StateT σ (Except ε) β} {P : α → β → Prop}
    (hf : ∀ a b s s', (f a).run s = .ok (b, s') → P a b) {as : List α} {bs : List β} {s s' : σ}
    (h : (as.mapM f).run s = .ok (bs, s')) : List.Forall₂ P as bs := by
  induction as generalizing bs s with
  | nil =>
    cases h
    exact .nil
  | cons a as ih =>
    rw [List.mapM_cons] at h
    obtain ⟨b, _, hb, h⟩ := run_bind_eq_ok_iff.mp h
    obtain ⟨bs, _, hbs, h⟩ := run_bind_eq_ok_iff.mp h
    cases h
    exact .cons (hf a b _ _ hb) (ih hbs)

theorem forall_mem_of_run_mapM {σ : Type} {f : α → StateT σ (Except ε) β} {P : β → Prop}
    (hf : ∀ a b s s', (f a).run s = .ok (b, s') → P b) {as : List α} {bs : List β} {s s' : σ}
    (h : (as.mapM f).run s = .ok (bs, s')) : ∀ b ∈ bs, P b := by
  have hall : List.Forall₂ (fun _ b => P b) as bs := forall₂_of_run_mapM hf h
  clear h
  induction hall with
  | nil => exact nofun
  | cons hb _ ih => exact List.forall_mem_cons.mpr ⟨hb, ih⟩

/-- Computations that leave the state as it is do so one after the other. -/
theorem run_mapM_map_eq_ok {γ σ : Type} {f : β → StateT σ (Except ε) γ} {g : α → β} {k : α → γ}
    {as : List α} {s : σ} (h : ∀ a ∈ as, (f (g a)).run s = .ok (k a, s)) :
    ((as.map g).mapM f).run s = .ok (as.map k, s) := by
  induction as with
  | nil => rfl
  | cons a as ih =>
    obtain ⟨ha, has⟩ := List.forall_mem_cons.mp h
    rw [List.map_cons, List.mapM_cons]
    exact run_bind_eq_ok ha (run_bind_eq_ok (ih has) rfl)

end TableQuery
