import Mathlib.Data.List.AList
import Mathlib.Algebra.BigOperators.Group.List.Basic

/-!
# Keyed maps

A map with unique keys over Mathlib's `AList`, with the operations of a hash map that `AList` does
not have: its size, `retain`, and the sum of a quantity over the entries. The order of the entries
carries no meaning: a consumer that iterates takes them in an order of its own (`Order`).
-/

abbrev AMap (K V : Type*) := AList fun _ : K => V

namespace AMap

variable {K V M : Type*}

/-- An order in which an iterator may visit the entries of a map. -/
structure Order (K V : Type*) where
  visit : List (K × V) → List (K × V)
  perm : ∀ l, (visit l).Perm l

/-- The order in which the entries happen to be stored. -/
def Order.stored : Order K V := ⟨id, fun _ => .refl _⟩

def len (m : AMap K V) : Nat := m.entries.length

def toList (m : AMap K V) : List (K × V) := m.entries.map fun e => (e.1, e.2)

def ofList (l : List (K × V)) (h : (l.map Prod.fst).Nodup) : AMap K V where
  entries := l.map fun e => ⟨e.1, e.2⟩
  nodupKeys := by simpa [List.NodupKeys, List.keys, Function.comp_def] using h

def retain (p : K → V → Bool) (m : AMap K V) : AMap K V where
  entries := m.entries.filter fun e => p e.1 e.2
  nodupKeys := m.nodupKeys.sublist List.filter_sublist

def sumOn [AddCommMonoid M] (f : K → V → M) (m : AMap K V) : M :=
  (m.entries.map fun e => f e.1 e.2).sum

@[simp] theorem length_toList (m : AMap K V) : m.toList.length = m.len := List.length_map _

theorem toList_ofList (l : List (K × V)) (h : (l.map Prod.fst).Nodup) : (ofList l h).toList = l := by
  simp [toList, ofList, Function.comp_def]

theorem sumOn_ofList [AddCommMonoid M] (f : K → V → M) (l : List (K × V)) (h : (l.map Prod.fst).Nodup) :
    sumOn f (ofList l h) = (l.map fun e => f e.1 e.2).sum := by
  simp [sumOn, ofList, Function.comp_def]

theorem length_keys (m : AMap K V) : m.keys.length = m.len := List.length_map _

theorem map_fst_toList (m : AMap K V) : m.toList.map Prod.fst = m.keys := by
  simp [toList, AList.keys, List.keys, Function.comp_def]

theorem len_retain_le (p : K → V → Bool) (m : AMap K V) : (m.retain p).len ≤ m.len :=
  List.length_filter_le _ _

@[simp] theorem retain_true (m : AMap K V) : (m.retain fun _ _ => true) = m :=
  AList.ext (by simp [retain])

theorem retain_retain (p q : K → V → Bool) (m : AMap K V) :
    (m.retain p).retain q = m.retain fun k v => p k v && q k v :=
  AList.ext (by simp [retain, List.filter_filter, Bool.and_comm])

/-- Every arrangement of the entries is the order of some iterator. -/
theorem Order.exists_visit [DecidableEq K] [DecidableEq V] {W : Type*} {f : K × V → W}
    {l : List (K × V)} {seen : List W} (h : seen.Perm (l.map f)) :
    ∃ ord : Order K V, (ord.visit l).map f = seen := by
  obtain ⟨l', rfl, hperm⟩ := (congrFun₂ (List.eq_map_comp_perm f) seen l).mpr h
  refine ⟨⟨fun m => if m = l then l' else m, fun m => ?_⟩, by simp⟩
  split
  · rename_i hm
    exact hm ▸ hperm
  · exact .refl _

variable [DecidableEq K]

/-- Remove one key after the other: what is left, and the entries that were taken out. -/
def removeAll (m : AMap K V) : List K → AMap K V × List (K × V)
  | [] => (m, [])
  | k :: ks =>
    match m.lookup k with
    | some v =>
      let rest := removeAll (m.erase k) ks
      (rest.1, (k, v) :: rest.2)
    | none => removeAll m ks

theorem mem_toList {m : AMap K V} {k : K} {v : V} : (k, v) ∈ m.toList ↔ m.lookup k = some v := by
  rw [← Option.mem_def, AList.mem_lookup_iff]
  simp only [toList, List.mem_map, Prod.mk.injEq]
  exact ⟨fun ⟨⟨_, _⟩, h, rfl, rfl⟩ => h, fun h => ⟨_, h, rfl, rfl⟩⟩

theorem mem_iff_lookup {m : AMap K V} {k : K} : k ∈ m ↔ ∃ v, m.lookup k = some v := by
  rw [← AList.lookup_isSome, Option.isSome_iff_exists]

theorem perm_of_lookup {m : AMap K V} {k : K} {v : V} (h : m.lookup k = some v) :
    m.entries.Perm (⟨k, v⟩ :: (m.erase k).entries) := by
  have hk : k ∈ m.entries.keys := mem_iff_lookup.2 ⟨v, h⟩
  obtain ⟨v', l₁, l₂, -, hl, he⟩ := List.exists_of_kerase hk
  have hv : v' = v := by
    have hmem : (⟨k, v'⟩ : Sigma fun _ : K => V) ∈ m.entries := by rw [hl]; simp
    have := AList.mem_lookup_iff.2 hmem
    rw [h] at this
    simpa using this.symm
  subst hv
  show m.entries.Perm (⟨k, v'⟩ :: m.entries.kerase k)
  rw [he]
  nth_rewrite 1 [hl]
  exact List.perm_middle

theorem lookup_retain (p : K → V → Bool) (m : AMap K V) (k : K) :
    (m.retain p).lookup k = (m.lookup k).filter (p k) := by
  ext v
  rw [Option.filter_eq_some_iff, ← Option.mem_def, ← Option.mem_def, AList.mem_lookup_iff,
    AList.mem_lookup_iff]
  simp [retain]

theorem lookup_retain_eq_some {p : K → V → Bool} {m : AMap K V} {k : K} {v : V} :
    (m.retain p).lookup k = some v ↔ m.lookup k = some v ∧ p k v := by
  rw [lookup_retain, Option.filter_eq_some_iff]

theorem lookup_insert_eq_some {m : AMap K V} {k j : K} {v w : V} (h : (m.insert k v).lookup j = some w) :
    (j = k ∧ w = v) ∨ (j ≠ k ∧ m.lookup j = some w) := by
  by_cases hj : j = k
  · subst hj
    rw [AList.lookup_insert] at h
    exact .inl ⟨rfl, (Option.some.inj h).symm⟩
  · rw [AList.lookup_insert_ne hj] at h
    exact .inr ⟨hj, h⟩

theorem retain_congr {p q : K → V → Bool} {m : AMap K V}
    (h : ∀ k v, m.lookup k = some v → p k v = q k v) : m.retain p = m.retain q :=
  AList.ext (List.filter_congr fun e he => h e.1 e.2 (AList.mem_lookup_iff.2 he))

theorem kerase_eq_filter {l : List (Sigma fun _ : K => V)} (h : l.NodupKeys) (k : K) :
    l.kerase k = l.filter fun e => e.1 ≠ k := by
  induction l with
  | nil => rfl
  | cons e l ih =>
    obtain ⟨hk, hl⟩ := List.nodupKeys_cons.1 h
    by_cases he : k = e.1
    · have hall : ∀ x ∈ l, x.1 ≠ k := fun x hx hxk => hk (he ▸ hxk ▸ List.mem_keys_of_mem hx)
      rw [List.kerase_cons_eq he, List.filter_cons_of_neg (by simpa using he.symm),
        List.filter_eq_self.2 fun x hx => by simpa using hall x hx]
    · rw [List.kerase_cons_ne he, ih hl, List.filter_cons_of_pos (by simpa using Ne.symm he)]

theorem erase_eq_retain (m : AMap K V) (k : K) : m.erase k = m.retain fun j _ => j ≠ k :=
  AList.ext (kerase_eq_filter m.nodupKeys k)

/-! ### Retaining, one entry after the other -/

section
variable {m : AMap K V} {p : V → Bool} {decided : List K} {k : K} {v : V}

theorem retain_keep (hk : m.lookup k = some v) (hp : p v) :
    m.retain (fun j w => j ∉ decided || p w) = m.retain fun j w => j ∉ decided ++ [k] || p w := by
  refine retain_congr fun j w hj => ?_
  by_cases hjk : j = k
  · subst hjk
    obtain rfl : w = v := Option.some.inj (hj.symm.trans hk)
    simp [hp]
  · simp [hjk]

theorem retain_erase (hk : m.lookup k = some v) (hp : p v = false) :
    (m.retain fun j w => j ∉ decided || p w).erase k = m.retain fun j w => j ∉ decided ++ [k] || p w := by
  rw [erase_eq_retain, retain_retain]
  refine retain_congr fun j w hj => ?_
  by_cases hjk : j = k
  · subst hjk
    obtain rfl : w = v := Option.some.inj (hj.symm.trans hk)
    simp [hp]
  · simp [hjk]

/-- Once every entry that is left has been decided on, `retain` is done. -/
theorem retain_of_decided (hall : ∀ k ∈ (m.retain fun j w => j ∉ decided || p w).keys, k ∈ decided) :
    (m.retain fun j w => j ∉ decided || p w) = m.retain fun _ w => p w := by
  refine retain_congr fun j w hj => ?_
  by_cases hdec : j ∈ decided
  · simp [hdec]
  · have hleft : (m.retain fun j w => j ∉ decided || p w).lookup j = some w :=
      lookup_retain_eq_some.2 ⟨hj, by simp [hdec]⟩
    exact absurd (hall j (mem_iff_lookup.2 ⟨w, hleft⟩)) hdec

end

/-! ### Sizes -/

omit [DecidableEq K] in
theorem eq_empty_of_len {m : AMap K V} (h : len m = 0) : m = ∅ :=
  AList.ext (List.length_eq_zero_iff.1 h)

theorem len_insert_of_mem {m : AMap K V} {k : K} (v : V) (h : k ∈ m) :
    len (m.insert k v) = m.len := by
  obtain ⟨w, hw⟩ := mem_iff_lookup.1 h
  exact (perm_of_lookup hw).length_eq.symm

theorem len_insert_of_notMem {m : AMap K V} {k : K} (v : V) (h : k ∉ m) :
    len (m.insert k v) = m.len + 1 := by
  simp [len, List.kerase_of_notMem_keys h]

theorem len_insert_le (m : AMap K V) (k : K) (v : V) : len (m.insert k v) ≤ m.len + 1 := by
  by_cases h : k ∈ m
  · rw [len_insert_of_mem v h]; omega
  · rw [len_insert_of_notMem v h]

theorem len_insert_le_iff {m : AMap K V} {k : K} {v : V} {n : Nat} (h : len m ≤ n) :
    len (m.insert k v) ≤ n ↔ k ∈ m ∨ len m < n := by
  by_cases hk : k ∈ m
  · rw [len_insert_of_mem v hk]
    exact iff_of_true h (.inl hk)
  · rw [len_insert_of_notMem v hk, or_iff_right hk]
    exact Nat.succ_le_iff

theorem len_retain_lt_iff {m : AMap K V} {p : K → V → Bool} :
    len (m.retain p) < m.len ↔ ∃ k v, m.lookup k = some v ∧ p k v = false := by
  rw [len, len, retain, List.length_filter_lt_length_iff_exists]
  constructor
  · rintro ⟨e, he, hp⟩
    exact ⟨e.1, e.2, AList.mem_lookup_iff.2 he, by simpa using hp⟩
  · rintro ⟨k, v, hl, hp⟩
    exact ⟨⟨k, v⟩, AList.mem_lookup_iff.1 hl, by simpa using hp⟩

omit [DecidableEq K] in
theorem len_eq_length {m : AMap K V} {ks : List K} (hn : ks.Nodup) (h : ∀ k, k ∈ m ↔ k ∈ ks) :
    len m = ks.length := by
  rw [← length_keys]
  exact ((List.perm_ext_iff_of_nodup m.keys_nodup hn).2 h).length_eq

theorem len_erase_of_mem {m : AMap K V} {k : K} (h : k ∈ m) : len (m.erase k) + 1 = m.len := by
  obtain ⟨w, hw⟩ := mem_iff_lookup.1 h
  simpa [len] using (perm_of_lookup hw).length_eq.symm

theorem erase_of_notMem {m : AMap K V} {k : K} (h : k ∉ m) : m.erase k = m :=
  AList.ext (List.kerase_of_notMem_keys h)

/-! ### Sums over the entries -/

section
variable [AddCommMonoid M] (f : K → V → M)

theorem sumOn_of_lookup {m : AMap K V} {k : K} {v : V} (h : m.lookup k = some v) :
    sumOn f m = f k v + sumOn f (m.erase k) := by
  unfold sumOn
  rw [((perm_of_lookup h).map fun e => f e.1 e.2).sum_eq, List.map_cons, List.sum_cons]

theorem sumOn_insert (m : AMap K V) (k : K) (v : V) :
    sumOn f (m.insert k v) = f k v + sumOn f (m.erase k) :=
  List.sum_cons

theorem sumOn_insert_of_notMem {m : AMap K V} {k : K} (v : V) (h : k ∉ m) :
    sumOn f (m.insert k v) = f k v + sumOn f m := by
  rw [sumOn_insert, erase_of_notMem h]

theorem sumOn_congr {f g : K → V → M} {m : AMap K V} (h : ∀ k v, m.lookup k = some v → f k v = g k v) :
    sumOn f m = sumOn g m := by
  refine congrArg List.sum (List.map_congr_left fun e he => h e.1 e.2 ?_)
  exact AList.mem_lookup_iff.2 he

omit [DecidableEq K] in
theorem sumOn_retain (p : K → V → Bool) (m : AMap K V) :
    sumOn f (m.retain p) + sumOn f (m.retain fun k v => !p k v) = sumOn f m := by
  unfold sumOn retain
  rw [← List.sum_append, ← List.map_append]
  exact ((List.filter_append_perm (fun e => p e.1 e.2) m.entries).map fun e => f e.1 e.2).sum_eq

end

/-! ### Removing a list of keys -/

theorem lookup_erase_of_ne {m : AMap K V} {k j : K} (h : j ≠ k) : (m.erase k).lookup j = m.lookup j :=
  AList.lookup_erase_ne h

@[simp] theorem removeAll_nil (m : AMap K V) : m.removeAll [] = (m, []) := rfl

theorem removeAll_cons_of_some {m : AMap K V} {k : K} {v : V} (h : m.lookup k = some v) (ks : List K) :
    m.removeAll (k :: ks) =
      ((removeAll (m.erase k) ks).1, (k, v) :: (removeAll (m.erase k) ks).2) := by
  simp only [removeAll, h]

theorem removeAll_cons_of_none {m : AMap K V} {k : K} (h : m.lookup k = none) (ks : List K) :
    m.removeAll (k :: ks) = m.removeAll ks := by
  simp only [removeAll, h]

theorem removeAll_empty (ks : List K) : (∅ : AMap K V).removeAll ks = (∅, []) := by
  induction ks with
  | nil => rfl
  | cons k ks ih => rw [removeAll_cons_of_none (AList.lookup_empty k), ih]

theorem len_removeAll_le (m : AMap K V) (ks : List K) : len (m.removeAll ks).1 ≤ m.len := by
  induction ks generalizing m with
  | nil => exact le_rfl
  | cons k ks ih =>
    cases hl : m.lookup k with
    | none =>
      rw [removeAll_cons_of_none hl]
      exact ih m
    | some v =>
      have hlen := len_erase_of_mem (mem_iff_lookup.2 ⟨v, hl⟩)
      rw [removeAll_cons_of_some hl]
      exact (ih (m.erase k)).trans (by omega)

/-- If the first key is there, at least one entry goes. -/
theorem len_removeAll_lt {m : AMap K V} {k : K} (h : k ∈ m) (ks : List K) :
    len (m.removeAll (k :: ks)).1 < m.len := by
  obtain ⟨v, hl⟩ := mem_iff_lookup.1 h
  have hlen := len_erase_of_mem h
  have hle := len_removeAll_le (m.erase k) ks
  rw [removeAll_cons_of_some hl]
  show len (removeAll (m.erase k) ks).1 < _
  omega

theorem lookup_removeAll (m : AMap K V) (ks : List K) (j : K) :
    (m.removeAll ks).1.lookup j = if j ∈ ks then none else m.lookup j := by
  induction ks generalizing m with
  | nil => simp
  | cons k ks ih =>
    cases hk : m.lookup k with
    | none =>
      rw [removeAll_cons_of_none hk, ih]
      by_cases hj : j = k
      · subst hj; simp [hk]
      · simp [hj]
    | some v =>
      rw [removeAll_cons_of_some hk]
      show (removeAll (m.erase k) ks).1.lookup j = _
      rw [ih]
      by_cases hj : j = k
      · subst hj; simp [AList.lookup_erase]
      · simp [hj, lookup_erase_of_ne hj]

theorem mem_removeAll {m : AMap K V} {ks : List K} {j : K} {v : V} :
    (j, v) ∈ (m.removeAll ks).2 ↔ j ∈ ks ∧ m.lookup j = some v := by
  induction ks generalizing m with
  | nil => simp
  | cons k ks ih =>
    cases hk : m.lookup k with
    | none =>
      rw [removeAll_cons_of_none hk, ih]
      by_cases hj : j = k
      · subst hj; simp [hk]
      · simp [hj]
    | some w =>
      rw [removeAll_cons_of_some hk, List.mem_cons, ih]
      by_cases hj : j = k
      · subst hj
        simp [hk, AList.lookup_erase, eq_comm]
      · simp [hj, lookup_erase_of_ne hj]

/-- Distinct keys of the map are all taken out. -/
theorem map_fst_removeAll {m : AMap K V} {ks : List K} (hn : ks.Nodup) (h : ∀ k ∈ ks, k ∈ m) :
    (m.removeAll ks).2.map Prod.fst = ks := by
  induction ks generalizing m with
  | nil => rfl
  | cons k ks ih =>
    obtain ⟨hk, hn⟩ := List.nodup_cons.1 hn
    obtain ⟨v, hv⟩ := mem_iff_lookup.1 (h k List.mem_cons_self)
    have hrest : ∀ j ∈ ks, j ∈ m.erase k := by
      intro j hj
      have hjk : j ≠ k := fun hjk => hk (hjk ▸ hj)
      exact AList.mem_erase.2 ⟨hjk, h j (List.mem_cons_of_mem k hj)⟩
    rw [removeAll_cons_of_some hv, List.map_cons, ih hn hrest]

theorem sumOn_removeAll [AddCommMonoid M] (f : K → V → M) (m : AMap K V) (ks : List K) :
    sumOn f (m.removeAll ks).1 + ((m.removeAll ks).2.map fun e => f e.1 e.2).sum = sumOn f m := by
  induction ks generalizing m with
  | nil => simp
  | cons k ks ih =>
    cases hk : m.lookup k with
    | none => rw [removeAll_cons_of_none hk, ih]
    | some v =>
      rw [removeAll_cons_of_some hk, sumOn_of_lookup f hk, ← ih (m.erase k), List.map_cons,
        List.sum_cons]
      exact add_left_comm ..

end AMap
