import Orb8.Lib.AMap
import Mathlib.Data.List.Induction

/-!
# A table that summarises a log

Events arrive under keys. A table holds one summary for each key: the first event of a key starts it,
each further one updates it, and at any moment the entry of a key may be dropped. `since k log` are
the events of `k` after its last drop. A table is `Exact` for a log when the entry of every key is the
fold of exactly these events; each operation of a table that is used in this way keeps that.
-/

namespace KeyedFold

open AMap

variable {K E S : Type*}

inductive Entry (K E S : Type*) where
  | put (k : K) (e : E)
  /-- The entry of `k` is dropped; `s` is what it held. -/
  | drop (k : K) (s : S)

def puts (log : List (Entry K E S)) : List (K × E) :=
  log.filterMap fun
    | .put k e => some (k, e)
    | .drop _ _ => none

def drops (log : List (Entry K E S)) : List (K × S) :=
  log.filterMap fun
    | .put _ _ => none
    | .drop k s => some (k, s)

def dropEntries (l : List (K × S)) : List (Entry K E S) := l.map fun e => .drop e.1 e.2

/-- The summary of a sequence of events, if it has one. -/
def summary (start : E → S) (update : S → E → S) : List E → Option S
  | [] => none
  | e :: es => some (es.foldl update (start e))

@[simp] theorem puts_append (l₁ l₂ : List (Entry K E S)) : puts (l₁ ++ l₂) = puts l₁ ++ puts l₂ :=
  List.filterMap_append

@[simp] theorem drops_append (l₁ l₂ : List (Entry K E S)) : drops (l₁ ++ l₂) = drops l₁ ++ drops l₂ :=
  List.filterMap_append

@[simp] theorem puts_singleton (k : K) (e : E) : puts [(.put k e : Entry K E S)] = [(k, e)] := rfl

@[simp] theorem drops_singleton_put (k : K) (e : E) : drops [(.put k e : Entry K E S)] = [] := rfl

@[simp] theorem puts_dropEntries (l : List (K × S)) : puts (dropEntries l : List (Entry K E S)) = [] := by
  simp [puts, dropEntries]

@[simp] theorem drops_dropEntries (l : List (K × S)) :
    drops (dropEntries l : List (Entry K E S)) = l := by
  simp [drops, dropEntries, List.filterMap_map]

theorem summary_snoc (start : E → S) (update : S → E → S) (es : List E) (e : E) :
    summary start update (es ++ [e]) =
      some (match summary start update es with
        | some s => update s e
        | none => start e) := by
  cases es with
  | nil => rfl
  | cons e' es => simp [summary]

variable [DecidableEq K]

def push (k : K) (es : List E) : Entry K E S → List E
  | .put j e => if j = k then es ++ [e] else es
  | .drop j _ => if j = k then [] else es

/-- The events of `k` put after the last drop of `k`. -/
def since (k : K) (log : List (Entry K E S)) : List E := log.foldl (push k) []

/-- Every entry of the table is the summary of the events of its key since the last drop. -/
def Exact (start : E → S) (update : S → E → S) (m : AMap K S) (log : List (Entry K E S)) : Prop :=
  ∀ k, m.lookup k = summary start update (since k log)

/-- What was dropped is the summary of the events of its key between two drops. -/
def Truthful (start : E → S) (update : S → E → S) (log : List (Entry K E S)) : Prop :=
  ∀ before k s after, log = before ++ .drop k s :: after → summary start update (since k before) = some s

variable {start : E → S} {update : S → E → S} {m : AMap K S} {log : List (Entry K E S)} {k : K} {s : S}

theorem since_append_put (log : List (Entry K E S)) (j k : K) (e : E) :
    since k (log ++ [.put j e]) = if j = k then since k log ++ [e] else since k log := by
  simp [since, push]

theorem since_append_drops (log : List (Entry K E S)) (k : K) (l : List (K × S)) :
    since k (log ++ dropEntries l) = if k ∈ l.map Prod.fst then [] else since k log := by
  have hnil : ∀ l : List (K × S), (dropEntries l : List (Entry K E S)).foldl (push k) [] = [] := by
    intro l
    induction l with
    | nil => rfl
    | cons e l ih => simpa [dropEntries, push] using ih
  rw [since, List.foldl_append]
  show (dropEntries l).foldl (push k) (since k log) = _
  generalize since k log = es
  induction l generalizing es with
  | nil => rfl
  | cons e l ih =>
    show (dropEntries l).foldl (push k) (push k es (.drop e.1 e.2)) = _
    by_cases he : e.1 = k
    · rw [push, if_pos he, hnil, if_pos (by simp [he])]
    · rw [push, if_neg he, ih]
      have hmem : k ∈ (e :: l).map Prod.fst ↔ k ∈ l.map Prod.fst := by
        rw [List.map_cons, List.mem_cons, or_iff_right (Ne.symm he)]
      simp only [hmem]

theorem since_sublist (k : K) (log : List (Entry K E S)) :
    (since k log).Sublist ((puts log).filterMap fun p => if p.1 = k then some p.2 else none) := by
  induction log using List.reverseRecOn with
  | nil => exact .slnil
  | append_singleton log x ih =>
    rw [puts_append, List.filterMap_append]
    cases x with
    | put j e =>
      rw [since_append_put]
      by_cases hj : j = k
      · simpa [hj, puts] using ih.append (List.Sublist.refl [e])
      · simpa [hj, puts] using ih
    | drop j s =>
      have hd := since_append_drops log k [(j, s)]
      simp only [dropEntries, List.map_cons, List.map_nil] at hd
      rw [hd]
      split
      · exact List.nil_sublist _
      · simpa [puts] using ih

/-- Nothing dropped: all the events of the key count. -/
theorem since_of_drops_eq_nil (h : drops log = []) (k : K) :
    since k log = (puts log).filterMap fun p => if p.1 = k then some p.2 else none := by
  induction log using List.reverseRecOn with
  | nil => rfl
  | append_singleton log x ih =>
    rw [drops_append, List.append_eq_nil_iff] at h
    rw [puts_append, List.filterMap_append, ← ih h.1]
    cases x with
    | put j e => rw [since_append_put]; by_cases hj : j = k <;> simp [hj, puts]
    | drop j s => exact absurd h.2 (List.cons_ne_nil _ _)

/-! ### The operations keep the table exact -/

theorem exact_empty : Exact start update (∅ : AMap K S) ([] : List (Entry K E S)) := fun _ => rfl

theorem Exact.put (h : Exact start update m log) (k : K) (e : E) :
    Exact start update
      (m.insert k (match m.lookup k with
        | some s => update s e
        | none => start e)) (log ++ [.put k e]) := by
  intro j
  rw [since_append_put]
  by_cases hj : k = j
  · subst hj
    rw [AList.lookup_insert, if_pos rfl, summary_snoc, ← h k]
  · rw [AList.lookup_insert_ne (Ne.symm hj), if_neg hj]
    exact h j

theorem Exact.removeAll (h : Exact start update m log) (ks : List K) :
    Exact start update (m.removeAll ks).1 (log ++ dropEntries (m.removeAll ks).2) := by
  intro j
  rw [lookup_removeAll, since_append_drops]
  have hmem : j ∈ (m.removeAll ks).2.map Prod.fst ↔ j ∈ ks ∧ ∃ v, m.lookup j = some v := by
    simp [mem_removeAll]
  by_cases hj : j ∈ ks
  · rw [if_pos hj]
    cases hl : m.lookup j with
    | none => rw [if_neg (by simp [hmem, hl]), ← h j, hl]
    | some v => rw [if_pos (by simp [hmem, hl, hj])]; rfl
  · rw [if_neg hj, if_neg (by simp [hmem, hj])]
    exact h j

theorem Exact.retain (h : Exact start update m log) (p : K → S → Bool) :
    Exact start update (m.retain p) (log ++ dropEntries (m.retain fun k s => !p k s).toList) := by
  intro j
  rw [lookup_retain, since_append_drops]
  have hmem : j ∈ (m.retain fun k s => !p k s).toList.map Prod.fst ↔
      ∃ s, m.lookup j = some s ∧ p j s = false := by
    simp [mem_toList, lookup_retain_eq_some]
  cases hl : m.lookup j with
  | none => rw [if_neg (by simp [hmem, hl]), ← h j, hl]; rfl
  | some s =>
    cases hp : p j s with
    | false => rw [if_pos (by simp [hmem, hl, hp])]; simp [Option.filter, hp, summary]
    | true => rw [if_neg (by simp [hmem, hl, hp]), ← h j, hl]; simp [Option.filter, hp]

theorem Exact.drop (h : Exact start update m log) (hk : m.lookup k = some s) :
    Exact start update (m.erase k) (log ++ [.drop k s]) := by
  have hall := h.removeAll [k]
  rwa [removeAll_cons_of_some hk] at hall

theorem truthful_nil : Truthful start update ([] : List (Entry K E S)) := by
  intro before k s after h
  cases before <;> cases h

theorem Truthful.put (h : Truthful start update log) (k : K) (e : E) :
    Truthful start update (log ++ [.put k e]) := by
  intro before j s after heq
  rcases List.eq_nil_or_concat after with rfl | ⟨after, x, rfl⟩
  · cases (List.append_inj' heq rfl).2
  · rw [List.concat_eq_append, ← List.cons_append, ← List.append_assoc] at heq
    exact h before j s after (List.append_inj' heq rfl).1

theorem Truthful.drop (h : Truthful start update log) (hk : summary start update (since k log) = some s) :
    Truthful start update (log ++ [.drop k s]) := by
  intro before j s' after heq
  rcases List.eq_nil_or_concat after with rfl | ⟨after, x, rfl⟩
  · obtain ⟨rfl, hlast⟩ := List.append_inj' heq rfl
    obtain ⟨rfl, rfl⟩ := Entry.drop.inj (List.singleton_inj.1 hlast)
    exact hk
  · rw [List.concat_eq_append, ← List.cons_append, ← List.append_assoc] at heq
    exact h before j s' after (List.append_inj' heq rfl).1

/-! ### Totals -/

/-- Nothing dropped: the events behind the entries of the table are all the events. -/
theorem Exact.sumOn_since {M : Type*} [AddCommMonoid M] (h : Exact start update m log)
    (hd : drops log = []) (w : K → E → M) :
    sumOn (fun k _ => ((since k log).map (w k)).sum) m = ((puts log).map fun p => w p.1 p.2).sum := by
  induction log using List.reverseRecOn generalizing m with
  | nil =>
    have hm : m = ∅ := by
      refine AList.ext (List.eq_nil_iff_forall_not_mem.2 fun e he => ?_)
      have hl := AList.mem_lookup_iff.2 he
      rw [h e.1] at hl
      cases hl
    rw [hm]
    rfl
  | append_singleton log x ih =>
    rw [drops_append, List.append_eq_nil_iff] at hd
    cases x with
    | drop j s => exact absurd hd.2 (List.cons_ne_nil _ _)
    | put k e =>
      -- the table before the last event, and what both tables have in common
      have hrest (j : K) (hj : j ≠ k) : m.lookup j = summary start update (since j log) := by
        rw [h j, since_append_put, if_neg (Ne.symm hj)]
      have hsame : sumOn (fun j _ => ((since j (log ++ [.put k e])).map (w j)).sum) (m.erase k) =
          sumOn (fun j _ => ((since j log).map (w j)).sum) (m.erase k) := by
        refine sumOn_congr fun j s hl => ?_
        have hj : k ≠ j := by
          rintro rfl
          rw [AList.lookup_erase] at hl
          cases hl
        rw [since_append_put, if_neg hj]
      have hk : m.lookup k = some _ := (h k).trans (by rw [since_append_put, if_pos rfl, summary_snoc])
      rw [sumOn_of_lookup _ hk, hsame, since_append_put, if_pos rfl, puts_append, List.map_append,
        List.map_append, List.sum_append, List.sum_append]
      cases hs : summary start update (since k log) with
      | none =>
        have hnil : since k log = [] := by
          cases hl : since k log with
          | nil => rfl
          | cons e' es => rw [hl] at hs; cases hs
        have hexact : Exact start update (m.erase k) log := by
          intro j
          by_cases hj : j = k
          · subst hj; rw [AList.lookup_erase, hs]
          · rw [lookup_erase_of_ne hj, hrest j hj]
        rw [hnil, ← ih hexact hd.1, List.map_nil, List.sum_nil, zero_add]
        exact add_comm ..
      | some s =>
        have hexact : Exact start update (m.insert k s) log := by
          intro j
          by_cases hj : j = k
          · subst hj; rw [AList.lookup_insert, hs]
          · rw [AList.lookup_insert_ne hj, hrest j hj]
        rw [← ih hexact hd.1, sumOn_insert]
        exact add_right_comm ..

end KeyedFold
