import Orb8.Lib.KeyedFold
import Mathlib.Algebra.Order.BigOperators.Group.List
import Mathlib.Algebra.Order.Group.Nat
import Mathlib.Data.List.Flatten
import Mathlib.Data.UInt

/-!
# Reading a table while it changes

A reader visits the entries of a table one after the other while events are put and entries are dropped.
`Scan` is what it can rely on: no key is visited twice, and each entry was read at a moment after the
reader began. What it read never accounts for more events than there were (`Scan.sum_le`).
-/

namespace KeyedFold

open AMap

variable {K E S : Type*} [DecidableEq K] {start : E → S} {update : S → E → S} {m : AMap K S}
  {before log more : List (Entry K E S)} {visited : List (K × S)} {k : K} {s : S}

/-- The reader began when the log was `before`, and has visited these entries. -/
structure Scan (start : E → S) (update : S → E → S) (before log : List (Entry K E S)) (visited : List (K × S)) :
    Prop where
  began : before <+: log
  nodup : (visited.map Prod.fst).Nodup
  read : ∀ e ∈ visited, ∃ front, before <+: front ∧ front <+: log ∧ summary start update (since e.1 front) = some e.2

theorem scan_nil (log : List (Entry K E S)) : Scan start update log log [] :=
  ⟨List.prefix_refl log, List.nodup_nil, fun _ he => nomatch he⟩

theorem Scan.append (h : Scan start update before log visited) (more : List (Entry K E S)) :
    Scan start update before (log ++ more) visited := by
  have hlog : log <+: log ++ more := List.prefix_append log more
  refine ⟨h.began.trans hlog, h.nodup, fun e he => ?_⟩
  obtain ⟨front, hbefore, hfront, hread⟩ := h.read e he
  exact ⟨front, hbefore, hfront.trans hlog, hread⟩

theorem Scan.visit (h : Scan start update before log visited) (hm : Exact start update m log)
    (hk : m.lookup k = some s) (hnew : k ∉ visited.map Prod.fst) :
    Scan start update before log (visited ++ [(k, s)]) := by
  refine ⟨h.began, ?_, fun e he => ?_⟩
  · rw [List.map_append, List.map_singleton, ← List.concat_eq_append]
    exact h.nodup.concat hnew
  · rcases List.mem_append.1 he with he | he
    · exact h.read e he
    · obtain rfl := List.mem_singleton.1 he
      exact ⟨log, h.began, List.prefix_refl log, (hm k).symm.trans hk⟩

theorem since_append_drop (log : List (Entry K E S)) (j k : K) (s : S) :
    since k (log ++ [.drop j s]) = if j = k then [] else since k log := by
  simp [since, push]

/-- A key that has events keeps some as long as it is not dropped. -/
theorem since_append_ne_nil (hne : since k before ≠ []) (hdrop : k ∉ (drops more).map Prod.fst) :
    since k (before ++ more) ≠ [] := by
  induction more using List.reverseRecOn with
  | nil => rwa [List.append_nil]
  | append_singleton more x ih =>
    rw [drops_append, List.map_append, List.mem_append, not_or] at hdrop
    have hmore := ih hdrop.1
    rw [← List.append_assoc]
    cases x with
    | put j e =>
      rw [since_append_put]
      split
      · exact List.append_ne_nil_of_right_ne_nil _ (List.cons_ne_nil e [])
      · exact hmore
    | drop j s =>
      have hj : j ≠ k := fun hj => hdrop.2 (by simp [drops, hj])
      rwa [since_append_drop, if_neg hj]

/-- Events of distinct keys are distinct events. -/
theorem subperm_flatMap_filter {ks : List K} (h : ks.Nodup) (events : List (K × E)) :
    (ks.flatMap fun k => events.filter fun p => p.1 = k).Subperm events := by
  induction ks generalizing events with
  | nil => exact List.nil_subperm
  | cons k ks ih =>
    obtain ⟨hk, hks⟩ := List.nodup_cons.1 h
    have hrest : (ks.flatMap fun j => events.filter fun p => p.1 = j) =
        ks.flatMap fun j => (events.filter fun p => p.1 ≠ k).filter fun p => p.1 = j := by
      refine List.flatMap_congr fun j hj => ?_
      have hjk : j ≠ k := fun hjk => hk (hjk ▸ hj)
      rw [List.filter_filter]
      exact List.filter_congr fun p _ => by simpa using fun hp => hp ▸ hjk
    rw [List.flatMap_cons, hrest]
    refine ((List.subperm_append_left _).2 (ih hks _)).trans ?_
    have hperm := List.filter_append_perm (fun p : K × E => p.1 = k) events
    simpa using hperm.subperm

theorem subperm_flatMap_since {F : Type*} {ks : List K} (h : ks.Nodup) (log : List (Entry K E S)) (f : E → F) :
    (ks.flatMap fun k => (since k log).map f).Subperm ((puts log).map fun p => f p.2) := by
  have hsince (k : K) : ((since k log).map f).Sublist (((puts log).filter fun p => p.1 = k).map fun p => f p.2) := by
    have heq : ((puts log).filterMap fun p => if p.1 = k then some p.2 else none) =
        ((puts log).filter fun p => p.1 = k).map Prod.snd := by
      rw [← List.filterMap_eq_map, List.filterMap_filter]
      simp
    have hmap := (since_sublist k log).map f
    rwa [heq, List.map_map] at hmap
  obtain ⟨l, hperm, hsub⟩ := subperm_flatMap_filter h (puts log)
  have hflat : (ks.flatMap fun k => (since k log).map f).Sublist
      ((ks.flatMap fun k => (puts log).filter fun p => p.1 = k).map fun p => f p.2) := by
    rw [List.map_flatMap]
    exact List.Sublist.flatMap_right ks fun k _ => hsince k
  exact hflat.subperm.trans ⟨l.map fun p => f p.2, hperm.map _, hsub.map _⟩

theorem sum_countP_le {ks : List K} (h : ks.Nodup) (events : List (K × E)) :
    (ks.map fun k => events.countP fun p => p.1 = k).sum ≤ events.length := by
  have hle := (subperm_flatMap_filter h events).length_le
  simpa [List.length_flatMap, List.countP_eq_length_filter] using hle

theorem length_since_le_countP (k : K) (log : List (Entry K E S)) :
    (since k log).length ≤ (puts log).countP fun p => p.1 = k := by
  refine (since_sublist k log).length_le.trans_eq ?_
  rw [List.length_filterMap_eq_countP]
  refine List.countP_congr fun p _ => ?_
  simp

theorem Scan.sum_le (h : Scan start update before log visited) {n : S → Nat}
    (hn : ∀ es s, summary start update es = some s → n s ≤ es.length) :
    (visited.map fun e => n e.2).sum ≤ (puts log).length := by
  have hread (e : K × S) (he : e ∈ visited) : n e.2 ≤ (puts log).countP fun p => p.1 = e.1 := by
    obtain ⟨front, -, ⟨more, rfl⟩, hsum⟩ := h.read e he
    calc n e.2 ≤ (since e.1 front).length := hn _ _ hsum
      _ ≤ (puts front).countP fun p => p.1 = e.1 := length_since_le_countP e.1 front
      _ ≤ (puts (front ++ more)).countP fun p => p.1 = e.1 := by
        rw [puts_append, List.countP_append]
        exact Nat.le_add_right _ _
  calc (visited.map fun e => n e.2).sum
      ≤ (visited.map fun e => (puts log).countP fun p => p.1 = e.1).sum := List.sum_le_sum hread
    _ = ((visited.map Prod.fst).map fun k => (puts log).countP fun p => p.1 = k).sum := by
      rw [List.map_map]
      rfl
    _ ≤ (puts log).length := sum_countP_le h.nodup (puts log)

end KeyedFold
