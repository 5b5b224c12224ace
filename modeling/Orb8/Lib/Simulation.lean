import Orb8.Lib.Trace

/-!
# Simulations between runs

`Simulates` says that every step of one system from a related state is matched by a run of another;
`SimulatesBy` that the matching run is a given function of the action. Runs are then matched by runs.
Two uses are worth a name of their own: one component of a system stands still while the others move
(an empty run), and actions that an observer cannot see are left out (`filter`).
-/

namespace Trace

variable {σ τ α β : Type*} {step : σ → α → Option σ} {step' : τ → β → Option τ} {R : σ → τ → Prop}

def Simulates (step : σ → α → Option σ) (step' : τ → β → Option τ) (R : σ → τ → Prop) : Prop :=
  ∀ s t a s', R s t → step s a = some s' → ∃ bs t', run step' t bs = some t' ∧ R s' t'

def SimulatesBy (f : α → List β) (step : σ → α → Option σ) (step' : τ → β → Option τ) (R : σ → τ → Prop) :
    Prop :=
  ∀ s t a s', R s t → step s a = some s' → ∃ t', run step' t (f a) = some t' ∧ R s' t'

theorem run_append_of_eq {s t u : σ} {as bs : List α} (h : run step s as = some t) (h' : run step t bs = some u) :
    run step s (as ++ bs) = some u := by
  rw [run_append, h, Option.bind_some, h']

theorem run_singleton (s : σ) (a : α) : run step s [a] = step s a := by
  rw [run_cons]
  exact Option.bind_fun_some (step s a)

theorem SimulatesBy.run {f : α → List β} (hsim : SimulatesBy f step step' R) {s s' : σ} {t : τ} {as : List α}
    (hR : R s t) (h : run step s as = some s') : ∃ t', run step' t (as.flatMap f) = some t' ∧ R s' t' := by
  induction as generalizing s t with
  | nil =>
    obtain rfl := Option.some.inj h
    exact ⟨t, rfl, hR⟩
  | cons a as ih =>
    obtain ⟨u, hu, h⟩ := Option.bind_eq_some_iff.1 h
    obtain ⟨v, hv, hR⟩ := hsim s t a u hR hu
    obtain ⟨t', ht', hR⟩ := ih hR h
    exact ⟨t', by rw [List.flatMap_cons, run_append_of_eq hv ht'], hR⟩

theorem Simulates.run (hsim : Simulates step step' R) {s s' : σ} {t : τ} {as : List α} (hR : R s t)
    (h : run step s as = some s') : ∃ bs t', run step' t bs = some t' ∧ R s' t' := by
  induction as generalizing s t with
  | nil =>
    obtain rfl := Option.some.inj h
    exact ⟨[], t, rfl, hR⟩
  | cons a as ih =>
    obtain ⟨u, hu, h⟩ := Option.bind_eq_some_iff.1 h
    obtain ⟨bs, v, hv, hR⟩ := hsim s t a u hR hu
    obtain ⟨cs, t', ht', hR⟩ := ih hR h
    exact ⟨bs ++ cs, t', run_append_of_eq hv ht', hR⟩

/-- What one system cannot see of the other: related states stay related over the actions outside
`visible`, and over the others both systems go on. -/
structure Hides (visible : α → Bool) (step : σ → α → Option σ) (R : σ → σ → Prop) : Prop where
  invisible : ∀ s t a s', R s t → visible a = false → step s a = some s' → R s' t
  visible : ∀ s t a s', R s t → visible a = true → step s a = some s' → ∃ t', step t a = some t' ∧ R s' t'

theorem filter_eq_flatMap (p : α → Bool) (as : List α) :
    as.filter p = as.flatMap fun a => if p a then [a] else [] := by
  induction as with
  | nil => rfl
  | cons a as ih => cases hp : p a <;> simp [hp, ih]

/-- A run without its invisible actions is a run, to a related state. -/
theorem Hides.run_filter {p : α → Bool} {R : σ → σ → Prop} (h : Hides p step R) {s s' t : σ} {as : List α}
    (hR : R s t) (hrun : run step s as = some s') :
    ∃ t', Trace.run step t (as.filter p) = some t' ∧ R s' t' := by
  have hsim : SimulatesBy (fun a => if p a then [a] else []) step step R := by
    intro s t a s' hR hs
    dsimp only
    cases hp : p a with
    | false =>
      rw [if_neg Bool.false_ne_true]
      exact ⟨t, rfl, h.invisible s t a s' hR hp hs⟩
    | true =>
      obtain ⟨t', ht, hR⟩ := h.visible s t a s' hR hp hs
      rw [if_pos rfl]
      exact ⟨t', (run_singleton t a).trans ht, hR⟩
  rw [filter_eq_flatMap]
  exact hsim.run hR hrun

end Trace
