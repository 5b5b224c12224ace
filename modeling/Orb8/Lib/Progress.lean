import Orb8.Lib.Trace

/-!
# One task among others

Some of the actions of a system are the steps of one task. `Progress` says that the task is never stuck
unless it is idle, that each of its steps lowers a rank, and that the other tasks do not raise it. Then
the task alone can become idle from everywhere (`exists_run_idle`), and it does become idle in every run
in which it takes more steps than its rank, whatever the others do in between (`exists_idle`).

A task that works in rounds is idle between them. When each round gets it closer to a goal (`Rounds`), the
same holds of being idle and at the goal (`Rounds.progress`).
-/

namespace Trace

variable {σ α : Type*} {step : σ → α → Option σ} {I idle : σ → Prop} {own : α → Bool} {rank : σ → Nat}

/-- `I` holds wherever the system gets to. -/
structure Progress (step : σ → α → Option σ) (I idle : σ → Prop) (own : α → Bool) (rank : σ → Nat) : Prop where
  inv : ∀ s a t, I s → step s a = some t → I t
  enabled : ∀ s, I s → ¬ idle s → ∃ a t, own a = true ∧ step s a = some t
  lower : ∀ s a t, I s → ¬ idle s → own a = true → step s a = some t → rank t < rank s
  keep : ∀ s a t, I s → ¬ idle s → own a = false → step s a = some t → rank t ≤ rank s

theorem Progress.exists_run_idle (h : Progress step I idle own rank) {s : σ} (hs : I s) :
    ∃ as t, (∀ a ∈ as, own a = true) ∧ as.length ≤ rank s ∧ run step s as = some t ∧ idle t := by
  induction hn : rank s using Nat.strongRecOn generalizing s with
  | ind n ih =>
    by_cases hidle : idle s
    · exact ⟨[], s, fun _ ha => (nomatch ha), Nat.zero_le _, rfl, hidle⟩
    · obtain ⟨a, u, ha, hu⟩ := h.enabled s hs hidle
      have hlt : rank u < n := hn ▸ h.lower s a u hs hidle ha hu
      obtain ⟨as, t, has, hlen, ht, hidle⟩ := ih (rank u) hlt (h.inv s a u hs hu) rfl
      refine ⟨a :: as, t, List.forall_mem_cons.2 ⟨ha, has⟩, ?_, ?_, hidle⟩
      · rw [List.length_cons]
        omega
      · rw [run_cons, hu, Option.bind_some, ht]

theorem Progress.exists_idle (h : Progress step I idle own rank) {s t : σ} {as : List α} (hs : I s)
    (ht : run step s as = some t) (hcount : rank s < as.countP own) :
    ∃ front back u, as = front ++ back ∧ front.countP own ≤ rank s ∧ run step s front = some u ∧ idle u := by
  induction as generalizing s with
  | nil => exact absurd hcount (Nat.not_lt_zero _)
  | cons a as ih =>
    by_cases hidle : idle s
    · exact ⟨[], a :: as, s, rfl, Nat.zero_le _, rfl, hidle⟩
    · obtain ⟨u, hu, ht⟩ := Option.bind_eq_some_iff.1 ht
      rw [List.countP_cons] at hcount
      have hrank : rank u + (if own a then 1 else 0) ≤ rank s := by
        cases ha : own a with
        | false => exact h.keep s a u hs hidle ha hu
        | true => exact h.lower s a u hs hidle ha hu
      obtain ⟨front, back, v, rfl, hfront, hv, hidle⟩ := ih (h.inv s a u hs hu) ht (by omega)
      refine ⟨a :: front, back, v, rfl, ?_, ?_, hidle⟩
      · rw [List.countP_cons]
        omega
      · rw [run_cons, hu, Option.bind_some, hv]

/-! ### Rounds -/

/-- Nothing raises the measure `m`, and each round that begins before the goal lowers it. `begun` is a round
that has not lowered it yet. -/
structure Rounds (step : σ → α → Option σ) (I idle goal begun : σ → Prop) (own : α → Bool) (m : σ → Nat) : Prop where
  measure : ∀ s a t, I s → step s a = some t → m t ≤ m s
  enabled : ∀ s, I s → idle s → ¬ goal s → ∃ a t, own a = true ∧ step s a = some t
  begins : ∀ s a t, I s → idle s → ¬ goal s → own a = true → step s a = some t → begun t
  waits : ∀ s a t, I s → idle s → own a = false → step s a = some t → idle t
  lowers : ∀ s a t, I s → begun s → step s a = some t → begun t ∨ m t < m s
  busy : ∀ s, begun s → ¬ idle s

open Classical in
/-- The rounds that are left, at most `bound` steps each, and what is left of the one that is going on. -/
noncomputable def roundRank (idle begun : σ → Prop) (rank m : σ → Nat) (bound : Nat) (s : σ) : Nat :=
  m s * (2 * bound + 3) + if begun s then rank s else if idle s then bound + 1 else bound + 2 + rank s

section
variable {goal begun : σ → Prop} {m : σ → Nat} {bound : Nat} {s t : σ} {a : α}

theorem roundRank_of_begun (h : begun s) : roundRank idle begun rank m bound s = m s * (2 * bound + 3) + rank s := by
  rw [roundRank, if_pos h]

theorem roundRank_of_idle (h : ¬ begun s) (hidle : idle s) :
    roundRank idle begun rank m bound s = m s * (2 * bound + 3) + (bound + 1) := by
  rw [roundRank, if_neg h, if_pos hidle]

theorem roundRank_of_busy (h : ¬ begun s) (hidle : ¬ idle s) :
    roundRank idle begun rank m bound s = m s * (2 * bound + 3) + (bound + 2 + rank s) := by
  rw [roundRank, if_neg h, if_neg hidle]

theorem roundRank_lt (hb : rank s ≤ bound) : roundRank idle begun rank m bound s < (m s + 1) * (2 * bound + 3) := by
  rw [roundRank, Nat.succ_mul (m s)]
  split
  · omega
  · split <;> omega

/-- A round that has been paid for by the measure. -/
theorem roundRank_lt_of_lt (hb : rank t ≤ bound) (hlt : m t < m s) :
    roundRank idle begun rank m bound t < roundRank idle begun rank m bound s :=
  calc roundRank idle begun rank m bound t < (m t + 1) * (2 * bound + 3) := roundRank_lt hb
    _ ≤ m s * (2 * bound + 3) := Nat.mul_le_mul_right _ hlt
    _ ≤ roundRank idle begun rank m bound s := Nat.le_add_right _ _

/-- Within a round, the rank tells. -/
theorem roundRank_of_busy_step (hp : Progress step I idle own rank) (hr : Rounds step I idle goal begun own m)
    (hb : ∀ s, I s → rank s ≤ bound) (hs : I s) (hidle : ¬ idle s) (ht : step s a = some t) :
    (own a = true → roundRank idle begun rank m bound t < roundRank idle begun rank m bound s) ∧
      (own a = false → roundRank idle begun rank m bound t ≤ roundRank idle begun rank m bound s) := by
  have hm : m t * (2 * bound + 3) ≤ m s * (2 * bound + 3) := Nat.mul_le_mul_right _ (hr.measure s a t hs ht)
  have hbt := hb t (hp.inv s a t hs ht)
  have hlower := hp.lower s a t hs hidle
  have hkeep := hp.keep s a t hs hidle
  by_cases hbegun : begun s
  · rcases hr.lowers s a t hs hbegun ht with htb | hlt
    · rw [roundRank_of_begun hbegun, roundRank_of_begun htb]
      exact ⟨fun ha => Nat.add_lt_add_of_le_of_lt hm (hlower ha ht), fun ha => Nat.add_le_add hm (hkeep ha ht)⟩
    · have h : roundRank idle begun rank m bound t < roundRank idle begun rank m bound s := roundRank_lt_of_lt hbt hlt
      exact ⟨fun _ => h, fun _ => Nat.le_of_lt h⟩
  · rw [roundRank_of_busy hbegun hidle]
    by_cases htb : begun t
    · rw [roundRank_of_begun htb]
      constructor <;> intro _ <;> omega
    · by_cases hti : idle t
      · rw [roundRank_of_idle htb hti]
        constructor <;> intro _ <;> omega
      · rw [roundRank_of_busy htb hti]
        refine ⟨fun ha => ?_, fun ha => ?_⟩
        · have := hlower ha ht
          omega
        · have := hkeep ha ht
          omega

theorem Rounds.progress (hr : Rounds step I idle goal begun own m) (hp : Progress step I idle own rank)
    (hb : ∀ s, I s → rank s ≤ bound) :
    Progress step I (fun s => idle s ∧ goal s) own (roundRank idle begun rank m bound) where
  inv := hp.inv
  enabled s hs hgoal := by
    by_cases hidle : idle s
    · exact hr.enabled s hs hidle fun hg => hgoal ⟨hidle, hg⟩
    · exact hp.enabled s hs hidle
  lower s a t hs hgoal ha ht := by
    by_cases hidle : idle s
    · have hbegun := hr.begins s a t hs hidle (fun hg => hgoal ⟨hidle, hg⟩) ha ht
      have hm : m t * (2 * bound + 3) ≤ m s * (2 * bound + 3) := Nat.mul_le_mul_right _ (hr.measure s a t hs ht)
      have hbt := hb t (hp.inv s a t hs ht)
      rw [roundRank_of_begun hbegun, roundRank_of_idle (fun hbs => hr.busy s hbs hidle) hidle]
      omega
    · exact (roundRank_of_busy_step hp hr hb hs hidle ht).1 ha
  keep s a t hs hgoal ha ht := by
    by_cases hidle : idle s
    · have hti := hr.waits s a t hs hidle ha ht
      have hm : m t * (2 * bound + 3) ≤ m s * (2 * bound + 3) := Nat.mul_le_mul_right _ (hr.measure s a t hs ht)
      rw [roundRank_of_idle (fun hbt => hr.busy t hbt hti) hti, roundRank_of_idle (fun hbs => hr.busy s hbs hidle) hidle]
      exact Nat.add_le_add_right hm _
    · exact (roundRank_of_busy_step hp hr hb hs hidle ht).2 ha

end

/-! ### Some actions only -/

/-- The system, without the actions that are not `ok`. -/
def only (ok : α → Bool) (step : σ → α → Option σ) (s : σ) (a : α) : Option σ := if ok a then step s a else none

theorem only_eq_some {ok : α → Bool} {s t : σ} {a : α} : only ok step s a = some t ↔ ok a = true ∧ step s a = some t := by
  rw [only, Option.ite_none_right_eq_some]

theorem run_only_eq_some {ok : α → Bool} {s t : σ} {as : List α} :
    run (only ok step) s as = some t ↔ (∀ a ∈ as, ok a = true) ∧ run step s as = some t := by
  induction as generalizing s with
  | nil => simp
  | cons a as ih =>
    rw [run_cons, run_cons, Option.bind_eq_some_iff, Option.bind_eq_some_iff, List.forall_mem_cons]
    simp only [only_eq_some, ih]
    tauto

end Trace
