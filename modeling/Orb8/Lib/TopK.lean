import Mathlib.Data.List.Sort

/-!
# The first entries in an order

`top` is the top `n` of `l` when it has `n` of the entries of `l` (all of them if there are no more),
in order, and whatever is left out comes after each of them. Cutting off a sorted list selects such a
top, however the sort arranges equal entries.
-/

namespace TopK

variable {α β : Type*} {r : α → α → Prop} {n : Nat} {l l' top : List α} {a b : α}

structure IsTop (r : α → α → Prop) (n : Nat) (l top : List α) : Prop where
  length : top.length = min n l.length
  sorted : top.Pairwise r
  split : ∃ rest, l.Perm (top ++ rest) ∧ ∀ a ∈ top, ∀ b ∈ rest, r a b

theorem isTop_take (h : l.Pairwise r) (n : Nat) : IsTop r n l (l.take n) := by
  refine ⟨List.length_take, h.sublist (List.take_sublist n l), l.drop n, ?_, ?_⟩
  · rw [List.take_append_drop]
  · rw [← List.take_append_drop n l] at h
    exact (List.pairwise_append.1 h).2.2

namespace IsTop

theorem perm (h : IsTop r n l top) (hp : l.Perm l') : IsTop r n l' top := by
  obtain ⟨hlen, hsorted, rest, hsplit, hrest⟩ := h
  exact ⟨hp.length_eq ▸ hlen, hsorted, rest, hp.symm.trans hsplit, hrest⟩

theorem mem (h : IsTop r n l top) (ha : a ∈ top) : a ∈ l := by
  obtain ⟨rest, hsplit, -⟩ := h.split
  exact hsplit.mem_iff.2 (List.mem_append_left rest ha)

theorem rel (h : IsTop r n l top) (ha : a ∈ top) (hb : b ∈ l) (hn : b ∉ top) : r a b := by
  obtain ⟨rest, hsplit, hrest⟩ := h.split
  rcases List.mem_append.1 (hsplit.mem_iff.1 hb) with hb | hb
  · exact absurd hb hn
  · exact hrest a ha b hb

/-- Entries that can be told apart by `f` in `l` can be told apart in the top. -/
theorem nodup_map {f : α → β} (h : IsTop r n l top) (hl : (l.map f).Nodup) : (top.map f).Nodup := by
  obtain ⟨rest, hsplit, -⟩ := h.split
  rw [(hsplit.map f).nodup_iff, List.map_append] at hl
  exact (List.nodup_append.1 hl).1

end IsTop

theorem isTop_take_insertionSort [DecidableRel r] [Std.Total r] [IsTrans α r] (n : Nat) (l : List α) :
    IsTop r n l ((l.insertionSort r).take n) :=
  (isTop_take (List.pairwise_insertionSort r l) n).perm (List.perm_insertionSort r l)

end TopK
