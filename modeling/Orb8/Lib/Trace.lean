import Mathlib.Data.List.Basic
import Mathlib.Tactic.Tauto

/-!
# Runs of a step function

A system is a partial step function `step : σ → α → Option σ`; an action refused by `step` ends the
run. `run` is the final state of a run, `Throughout` says that a law holds in every state the run
passes through, and `EachStep` that every step is taken from a state that meets a condition.

The two rules the developments use are `run_inv` (an invariant of one step is an invariant of runs)
and `throughout_iff_eachStep`: when one step from a lawful state keeps the law exactly when the step
meets a condition, a whole run is lawful exactly when each of its steps meets it. `observe` runs an
observer beside the system, who sees the actions and nothing else. `SwitchedOn` is the history behind
a flag that some steps set and some clear.
-/

namespace Trace

variable {σ τ α : Type*} {step : σ → α → Option σ} {P Q I : σ → Prop} {ok : σ → α → Prop}

/-- The state after the actions, `none` as soon as one of them is refused. -/
def run (step : σ → α → Option σ) : σ → List α → Option σ
  | s, [] => some s
  | s, a :: as => (step s a).bind fun t => run step t as

/-- `P` holds in every state that the run passes through. -/
def Throughout (step : σ → α → Option σ) (P : σ → Prop) : σ → List α → Prop
  | s, [] => P s
  | s, a :: as => P s ∧ ∀ t, step s a = some t → Throughout step P t as

/-- Every step of the run is taken from a state that meets `ok` for its action. -/
def EachStep (step : σ → α → Option σ) (ok : σ → α → Prop) : σ → List α → Prop
  | _, [] => True
  | s, a :: as => ∀ t, step s a = some t → ok s a ∧ EachStep step ok t as

@[simp] theorem run_nil (s : σ) : run step s [] = some s := rfl

@[simp] theorem run_cons (s : σ) (a : α) (as : List α) :
    run step s (a :: as) = (step s a).bind fun t => run step t as := rfl

theorem run_append (s : σ) (as bs : List α) :
    run step s (as ++ bs) = (run step s as).bind fun t => run step t bs := by
  induction as generalizing s with
  | nil => rfl
  | cons a as ih =>
    simp only [List.cons_append, run_cons]
    cases step s a with
    | none => rfl
    | some t => exact ih t

/-- An invariant of the steps with a kind of action is an invariant of the runs made of such actions. -/
theorem run_inv_of_forall {kind : α → Prop} (hstep : ∀ s a t, I s → kind a → step s a = some t → I t)
    {s t : σ} {as : List α} (hs : I s) (has : ∀ a ∈ as, kind a) (h : run step s as = some t) : I t := by
  induction as generalizing s with
  | nil => simp only [run_nil, Option.some.injEq] at h; exact h ▸ hs
  | cons a as ih =>
    obtain ⟨u, hu, h⟩ := Option.bind_eq_some_iff.1 h
    have ha := has a List.mem_cons_self
    exact ih (hstep s a u hs ha hu) (fun b hb => has b (List.mem_cons_of_mem a hb)) h

theorem run_inv (hstep : ∀ s a t, I s → step s a = some t → I t) {s t : σ} {as : List α}
    (hs : I s) (h : run step s as = some t) : I t :=
  run_inv_of_forall (fun s a t hs _ ht => hstep s a t hs ht) hs (fun _ _ => trivial) h

/-- An invariant of what the actions so far show, and of the state, along actions of a kind. -/
theorem run_inv_seen_of_forall {β : Type*} {see : α → Option β} {I : List β → σ → Prop} {kind : α → Prop}
    (hstep : ∀ seen s a t, I seen s → kind a → step s a = some t → I (seen ++ (see a).toList) t) {s t : σ}
    {as : List α} {seen : List β} (hs : I seen s) (has : ∀ a ∈ as, kind a) (h : run step s as = some t) :
    I (seen ++ as.filterMap see) t := by
  induction as generalizing s seen with
  | nil =>
    obtain rfl := Option.some.inj h
    rwa [List.filterMap_nil, List.append_nil]
  | cons a as ih =>
    obtain ⟨u, hu, h⟩ := Option.bind_eq_some_iff.1 h
    have ha := has a List.mem_cons_self
    have ht := ih (hstep seen s a u hs ha hu) (fun b hb => has b (List.mem_cons_of_mem a hb)) h
    rw [List.append_assoc] at ht
    cases ha : see a with
    | none =>
      rw [List.filterMap_cons_none ha]
      rwa [ha, Option.toList_none, List.nil_append] at ht
    | some b =>
      rw [List.filterMap_cons_some ha]
      rwa [ha, Option.toList_some, List.singleton_append] at ht

theorem run_inv_seen {β : Type*} {see : α → Option β} {I : List β → σ → Prop}
    (hstep : ∀ seen s a t, I seen s → step s a = some t → I (seen ++ (see a).toList) t) {s t : σ}
    {as : List α} {seen : List β} (hs : I seen s) (h : run step s as = some t) :
    I (seen ++ as.filterMap see) t :=
  run_inv_seen_of_forall (fun seen s a t hi _ ht => hstep seen s a t hi ht) hs (fun _ _ => trivial) h

theorem Throughout.head {s : σ} {as : List α} (h : Throughout step P s as) : P s := by
  cases as with
  | nil => exact h
  | cons a as => exact h.1

theorem Throughout.mono (hPQ : ∀ s, P s → Q s) {s : σ} {as : List α}
    (h : Throughout step P s as) : Throughout step Q s as := by
  induction as generalizing s with
  | nil => exact hPQ s h
  | cons a as ih => exact ⟨hPQ s h.1, fun t ht => ih (h.2 t ht)⟩

theorem Throughout.last {s t : σ} {as : List α} (h : Throughout step P s as)
    (ht : run step s as = some t) : P t := by
  induction as generalizing s with
  | nil => simp only [run_nil, Option.some.injEq] at ht; exact ht ▸ h
  | cons a as ih =>
    obtain ⟨u, hu, ht⟩ := Option.bind_eq_some_iff.1 ht
    exact ih (h.2 u hu) ht

theorem throughout_of_inv_of_forall {kind : α → Prop}
    (hstep : ∀ s a t, I s → kind a → step s a = some t → I t) {s : σ} (hs : I s) {as : List α}
    (has : ∀ a ∈ as, kind a) : Throughout step I s as := by
  induction as generalizing s with
  | nil => exact hs
  | cons a as ih =>
    have ha := has a List.mem_cons_self
    exact ⟨hs, fun t ht => ih (hstep s a t hs ha ht) fun b hb => has b (List.mem_cons_of_mem a hb)⟩

theorem throughout_of_inv (hstep : ∀ s a t, I s → step s a = some t → I t) {s : σ} (hs : I s)
    (as : List α) : Throughout step I s as :=
  throughout_of_inv_of_forall (fun s a t hs _ ht => hstep s a t hs ht) hs fun _ _ => trivial

theorem throughout_true (s : σ) (as : List α) : Throughout step (fun _ => True) s as :=
  throughout_of_inv (fun _ _ _ _ _ => trivial) trivial as

theorem eachStep_of_inv (hI : ∀ s a t, I s → step s a = some t → I t)
    (h : ∀ s a t, I s → step s a = some t → ok s a) {s : σ} (hs : I s) (as : List α) : EachStep step ok s as := by
  induction as generalizing s with
  | nil => trivial
  | cons a as ih => exact fun t ht => ⟨h s a t hs ht, ih (hI s a t hs ht)⟩

theorem eachStep_of_forall (h : ∀ s a, ok s a) (s : σ) (as : List α) : EachStep step ok s as :=
  eachStep_of_inv (I := fun _ => True) (fun _ _ _ _ _ => trivial) (fun s a _ _ _ => h s a) trivial as

theorem EachStep.last {s t : σ} {a : α} {as : List α} (h : EachStep step ok s (as ++ [a]))
    (hrun : run step s (as ++ [a]) = some t) : ∃ u, run step s as = some u ∧ step u a = some t ∧ ok u a := by
  induction as generalizing s with
  | nil =>
    obtain ⟨u, hu, hrun⟩ := Option.bind_eq_some_iff.1 hrun
    obtain rfl := Option.some.inj hrun
    exact ⟨s, rfl, hu, (h u hu).1⟩
  | cons b as ih =>
    obtain ⟨u, hu, hrun⟩ := Option.bind_eq_some_iff.1 hrun
    obtain ⟨v, hv, hlast⟩ := ih (h u hu).2 hrun
    exact ⟨v, by rw [run_cons, hu, Option.bind_some, hv], hlast⟩

/-- A law of the states and a law `K` of the steps, kept together exactly by the steps that meet `ok`:
a run from a lawful state obeys both exactly if each of its steps meets `ok`. `I` is whatever else is
known of the states the run passes through, `kind` of its actions. -/
theorem throughout_and_eachStep_iff {K : σ → α → Prop} {kind : α → Prop}
    (hP : ∀ s a t, I s → I t → kind a → P s → step s a = some t → (P t ∧ K s a ↔ ok s a)) {s : σ}
    {as : List α} (hI : Throughout step I s as) (has : ∀ a ∈ as, kind a) (hp : P s) :
    Throughout step P s as ∧ EachStep step K s as ↔ EachStep step ok s as := by
  induction as generalizing s with
  | nil => exact ⟨fun _ => trivial, fun _ => ⟨hp, trivial⟩⟩
  | cons a as ih =>
    obtain ⟨hs, hrest⟩ := hI
    have ha := has a List.mem_cons_self
    have has := fun b hb => has b (List.mem_cons_of_mem a hb)
    constructor
    · rintro ⟨⟨-, h⟩, hK⟩ t ht
      have hpt := (h t ht).head
      obtain ⟨hk, hKs⟩ := hK t ht
      exact ⟨(hP s a t hs (hrest t ht).head ha hp ht).1 ⟨hpt, hk⟩, (ih (hrest t ht) has hpt).1 ⟨h t ht, hKs⟩⟩
    · intro h
      have hnext (t : σ) (ht : step s a = some t) :
          K s a ∧ Throughout step P t as ∧ EachStep step K t as := by
        obtain ⟨hok, hsteps⟩ := h t ht
        obtain ⟨hpt, hk⟩ := (hP s a t hs (hrest t ht).head ha hp ht).2 hok
        exact ⟨hk, (ih (hrest t ht) has hpt).2 hsteps⟩
      exact ⟨⟨hp, fun t ht => (hnext t ht).2.1⟩, fun t ht => ⟨(hnext t ht).1, (hnext t ht).2.2⟩⟩

theorem throughout_iff_eachStep_of_forall {kind : α → Prop}
    (hP : ∀ s a t, I s → I t → kind a → P s → step s a = some t → (P t ↔ ok s a)) {s : σ} {as : List α}
    (hI : Throughout step I s as) (has : ∀ a ∈ as, kind a) (hp : P s) :
    Throughout step P s as ↔ EachStep step ok s as := by
  have hstep : ∀ s a t, I s → I t → kind a → P s → step s a = some t → (P t ∧ True ↔ ok s a) :=
    fun s a t hs ht ha hp h => (and_iff_left trivial).trans (hP s a t hs ht ha hp h)
  have hboth := throughout_and_eachStep_iff (K := fun _ _ => True) hstep hI has hp
  rwa [and_iff_left (eachStep_of_forall (fun _ _ => trivial) s as)] at hboth

/-- When a step from a lawful state keeps the law exactly if it meets `ok`, a run from a lawful
state is lawful throughout exactly if each of its steps meets `ok`. -/
theorem throughout_iff_eachStep
    (hP : ∀ s a t, I s → I t → P s → step s a = some t → (P t ↔ ok s a)) {s : σ} {as : List α}
    (hI : Throughout step I s as) (hp : P s) : Throughout step P s as ↔ EachStep step ok s as := by
  have hstep : ∀ s a t, I s → I t → True → P s → step s a = some t → (P t ↔ ok s a) :=
    fun s a t hs ht _ hp h => hP s a t hs ht hp h
  exact throughout_iff_eachStep_of_forall hstep hI (fun _ _ => trivial) hp

/-! ### Observers -/

/-- The system beside an observer of its actions. -/
def observe (step : σ → α → Option σ) (see : τ → α → τ) (s : σ × τ) (a : α) : Option (σ × τ) :=
  (step s.1 a).map fun t => (t, see s.2 a)

theorem observe_eq_some {see : τ → α → τ} {s t : σ × τ} {a : α} :
    observe step see s a = some t ↔ step s.1 a = some t.1 ∧ t.2 = see s.2 a := by
  simp only [observe, Option.map_eq_some_iff, Prod.ext_iff]
  exact ⟨fun ⟨u, hu, h₁, h₂⟩ => ⟨h₁ ▸ hu, h₂.symm⟩, fun ⟨hu, h₂⟩ => ⟨t.1, hu, rfl, h₂.symm⟩⟩

theorem run_observe (step : σ → α → Option σ) (see : τ → α → τ) (s : σ) (x : τ) (as : List α) :
    run (observe step see) (s, x) as = (run step s as).map fun t => (t, as.foldl see x) := by
  induction as generalizing s x with
  | nil => rfl
  | cons a as ih =>
    simp only [run_cons, observe, List.foldl_cons]
    cases step s a with
    | none => rfl
    | some t => exact ih t (see x a)

/-! ### Switches -/

/-- Some step of the run switches on, and no later one switches off. -/
def SwitchedOn (step : σ → α → Option σ) (on off : σ → α → Prop) (s : σ) (as : List α) : Prop :=
  ∃ pre a post u v, as = pre ++ a :: post ∧ run step s pre = some u ∧ step u a = some v ∧ on u a ∧
    EachStep step (fun s a => ¬ off s a) v post

section
variable {on off : σ → α → Prop} {flag : σ → Prop} {s t u : σ} {a : α} {as : List α}

theorem eachStep_cons (h : step s a = some u) :
    EachStep step ok s (a :: as) ↔ ok s a ∧ EachStep step ok u as := by
  constructor
  · intro hall
    exact hall u h
  · intro hboth t ht
    obtain rfl := Option.some.inj (h.symm.trans ht)
    exact hboth

theorem switchedOn_cons (h : step s a = some u) : SwitchedOn step on off s (a :: as) ↔
    (on s a ∧ EachStep step (fun s a => ¬ off s a) u as) ∨ SwitchedOn step on off u as := by
  constructor
  · rintro ⟨pre, b, post, v, w, hsplit, hpre, hb, hon, hoff⟩
    cases pre with
    | nil =>
      obtain ⟨rfl, rfl⟩ := List.cons.inj hsplit
      obtain rfl := Option.some.inj hpre
      obtain rfl := Option.some.inj (h.symm.trans hb)
      exact .inl ⟨hon, hoff⟩
    | cons c pre =>
      obtain ⟨rfl, rfl⟩ := List.cons.inj hsplit
      rw [run_cons, h, Option.bind_some] at hpre
      exact .inr ⟨pre, b, post, v, w, rfl, hpre, hb, hon, hoff⟩
  · rintro (⟨hon, hoff⟩ | ⟨pre, b, post, v, w, rfl, hpre, hb, hon, hoff⟩)
    · exact ⟨[], a, as, s, u, rfl, rfl, h, hon, hoff⟩
    · refine ⟨a :: pre, b, post, v, w, rfl, ?_, hb, hon, hoff⟩
      rw [run_cons, h, Option.bind_some, hpre]

/-- A flag that every step sets, clears or leaves is set after a run exactly if it was switched on
during the run and not off since, or was set before and never switched off. -/
theorem flag_iff_switchedOn_or (hI : ∀ s a t, I s → step s a = some t → I t)
    (hstep : ∀ s a t, I s → step s a = some t → (flag t ↔ on s a ∨ flag s ∧ ¬ off s a)) (hs : I s)
    (h : run step s as = some t) :
    flag t ↔ SwitchedOn step on off s as ∨ flag s ∧ EachStep step (fun s a => ¬ off s a) s as := by
  induction as generalizing s with
  | nil =>
    obtain rfl := Option.some.inj h
    refine ⟨fun hf => .inr ⟨hf, trivial⟩, ?_⟩
    rintro (⟨pre, a, post, -, -, hsplit, -⟩ | ⟨hf, -⟩)
    · simp at hsplit
    · exact hf
  | cons a as ih =>
    obtain ⟨u, hu, h⟩ := Option.bind_eq_some_iff.1 h
    rw [ih (hI s a u hs hu) h, hstep s a u hs hu, switchedOn_cons hu, eachStep_cons hu]
    tauto

theorem flag_iff_switchedOn (hI : ∀ s a t, I s → step s a = some t → I t)
    (hstep : ∀ s a t, I s → step s a = some t → (flag t ↔ on s a ∨ flag s ∧ ¬ off s a)) (hs : I s)
    (hf : ¬ flag s) (h : run step s as = some t) : flag t ↔ SwitchedOn step on off s as := by
  rw [flag_iff_switchedOn_or hI hstep hs h, or_iff_left fun hboth => hf hboth.1]

end

end Trace
