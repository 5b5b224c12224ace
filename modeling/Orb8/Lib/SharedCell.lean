import Orb8.Lib.Simulation

/-!
# A cell shared by components

Several components hold a handle to one cell, and each writes only its own part of it. A part is
given by what it keeps: `p.keep c d` is `d` with the part as in `c`. A component is framed by its part
(`Frames`) when its steps neither read nor write the rest: replacing the rest commutes with a step.

`Agrees` compares a component inside the system, where the others write the rest of the cell, with the
same component on its own. A framed step keeps the agreement, and so does whatever happens to the rest.
-/

namespace SharedCell
open Trace

variable {C σ α : Type*}

structure Portion (C : Type*) where
  keep : C → C → C
  keep_self : ∀ c, keep c c = c
  keep_keep : ∀ a b c, keep (keep a b) c = keep a c
  keep_keep_right : ∀ a b c, keep a (keep b c) = keep a c

/-- Writing the part `q` leaves the part `p` alone. -/
def Portion.Apart (p q : Portion C) : Prop := ∀ c d, p.keep c (q.keep d c) = q.keep d c

/-- What a framed step of another component leaves of the part. -/
theorem Portion.Apart.keep_of_keep {p q : Portion C} (hpq : p.Apart q) {c c' : C} (hc : q.keep c' c = c') :
    p.keep c c' = c' := by
  rw [← hc]
  exact hpq c c'

/-- Two cells that differ in the part `q` only still do after the same write to a part that commutes
with it. -/
theorem Portion.eq_keep_of_keep {p q : Portion C} (hpq : ∀ a b c, p.keep a (q.keep b c) = q.keep b (p.keep a c))
    {c c' d d' : C} (hcd : c = q.keep c d) (hc : p.keep c' c = c') (hd : p.keep d' d = d')
    (hcd' : p.keep d' c' = c') : c' = q.keep c' d' := by
  have hc' : c' = q.keep c d' :=
    calc c' = p.keep d' c' := hcd'.symm
      _ = p.keep d' (p.keep c' c) := by rw [hc]
      _ = p.keep d' c := p.keep_keep_right d' c' c
      _ = p.keep d' (q.keep c d) := by rw [← hcd]
      _ = q.keep c (p.keep d' d) := hpq d' c d
      _ = q.keep c d' := by rw [hd]
  rw [hc', q.keep_keep]

/-- The field of a component that holds the cell. -/
structure Handle (σ C : Type*) where
  get : σ → C
  set : C → σ → σ
  get_set : ∀ c s, get (set c s) = c
  set_get : ∀ s, set (get s) s = s
  set_set : ∀ c d s, set c (set d s) = set c s

namespace Handle
variable (h : Handle σ C) (p : Portion C)

/-- `s` is `t`, but for the cell outside the part. -/
def Agrees (s t : σ) : Prop := s = h.set (p.keep (h.get t) (h.get s)) t

def Frames (step : σ → α → Option σ) : Prop :=
  ∀ s c a, step (h.set (p.keep (h.get s) c) s) a =
    (step s a).map fun t => h.set (p.keep (h.get t) c) t

variable {h p} {s s' t t' : σ} {step : σ → α → Option σ} {a : α}

theorem Agrees.refl (s : σ) : h.Agrees p s s := by
  rw [Agrees, p.keep_self, h.set_get]

/-- On the part itself, the two agree. -/
theorem Agrees.keep (hst : h.Agrees p s t) (c : C) : p.keep (h.get s) c = p.keep (h.get t) c := by
  have hs : h.get s = p.keep (h.get t) (h.get s) := by
    have hget := congrArg h.get hst
    rwa [h.get_set] at hget
  rw [hs, p.keep_keep]

/-- What the others write is no concern of the component. -/
theorem Agrees.set (hst : h.Agrees p s t) {c : C} (hc : p.keep (h.get s) c = c) : h.Agrees p (h.set c s) t := by
  rw [Agrees, h.get_set, ← hst.keep, hc]
  have hs := congrArg (h.set c) hst
  rwa [h.set_set] at hs

theorem Frames.agrees (hf : h.Frames p step) (hst : h.Agrees p s t) (hs : step s a = some s') :
    ∃ t', step t a = some t' ∧ h.Agrees p s' t' := by
  have hstep := hf t (h.get s) a
  rw [← hst, hs] at hstep
  cases ht : step t a with
  | none => rw [ht] at hstep; cases hstep
  | some t' =>
    rw [ht] at hstep
    have hs' : s' = h.set (p.keep (h.get t') (h.get s)) t' := Option.some.inj hstep
    refine ⟨t', rfl, ?_⟩
    rw [Agrees, hs', h.get_set, p.keep_keep_right]

/-- A framed step writes nothing but its part. -/
theorem Frames.keep (hf : h.Frames p step) (hs : step s a = some s') :
    p.keep (h.get s') (h.get s) = h.get s' := by
  have hstep := hf s (h.get s) a
  rw [p.keep_self, h.set_get, hs] at hstep
  have hget := congrArg h.get (Option.some.inj hstep)
  rw [h.get_set] at hget
  exact hget.symm

/-- Seen from a system in which every step either is one of the component, or leaves it alone but for
the rest of the cell, the component goes through a run of its own. -/
theorem Frames.simulates {ρ β : Type*} {sys : ρ → β → Option ρ} (hf : h.Frames p step) (view : ρ → σ)
    (hsys : ∀ r b r', sys r b = some r' → (∃ a, step (view r) a = some (view r')) ∨
      ∃ c, view r' = h.set c (view r) ∧ p.keep (h.get (view r)) c = c) :
    Simulates sys step fun r t => h.Agrees p (view r) t := by
  intro r t b r' hR hr
  rcases hsys r b r' hr with ⟨a, ha⟩ | ⟨c, hview, hc⟩
  · obtain ⟨t', ht', hR⟩ := hf.agrees hR ha
    exact ⟨[a], t', (run_singleton t a).trans ht', hR⟩
  · refine ⟨[], t, rfl, ?_⟩
    show h.Agrees p (view r') t
    rw [hview]
    exact hR.set hc

/-- The part of the cell is as the component alone has it. -/
theorem Agrees.eq_set (hst : h.Agrees p s t) : s = h.set (h.get s) t ∧ p.keep (h.get t) (h.get s) = h.get s := by
  have hget := congrArg h.get hst
  rw [h.get_set] at hget
  refine ⟨?_, hget.symm⟩
  rw [hget]
  exact hst

end Handle

end SharedCell
