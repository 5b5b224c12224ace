import Orb8.Lib.AMap

/-!
# A bounded broadcast channel

Every value sent goes to every receiver that is subscribed at that time. The channel retains the last
`slots` values; a receiver that is further behind is told how many values it has missed, once, and
goes on with the oldest one retained. Sending without receivers is an error. `between` are the values
that a receiver got on its way from one position to another, given the positions it missed.
-/

namespace Broadcast

open AMap

variable {α : Type*}

structure Channel (α : Type*) where
  slots : Nat
  /-- Every value sent so far, the oldest first. -/
  sent : List α
  /-- The position of the next value of each receiver. -/
  receivers : AMap Nat Nat

inductive Recv (α : Type*) where
  | value (v : α)
  | lagged (missed : Nat)

namespace Channel

def new (slots : Nat) : Channel α := ⟨slots, [], ∅⟩

/-- The position of the oldest value retained. -/
def oldest (c : Channel α) : Nat := c.sent.length - c.slots

/-- `none` is the error. -/
def send (c : Channel α) (v : α) : Option (Channel α) :=
  if len c.receivers = 0 then none else some { c with sent := c.sent ++ [v] }

def subscribe (c : Channel α) (id : Nat) : Channel α :=
  { c with receivers := c.receivers.insert id c.sent.length }

def unsubscribe (c : Channel α) (id : Nat) : Channel α := { c with receivers := c.receivers.erase id }

/-- `none` while there is nothing to receive. -/
def recv (c : Channel α) (id : Nat) : Option (Recv α × Channel α) :=
  match c.receivers.lookup id with
  | none => none
  | some next =>
    if next < c.oldest then
      some (.lagged (c.oldest - next), { c with receivers := c.receivers.insert id c.oldest })
    else match c.sent[next]? with
      | some v => some (.value v, { c with receivers := c.receivers.insert id (next + 1) })
      | none => none

theorem oldest_le (c : Channel α) : c.oldest ≤ c.sent.length := Nat.sub_le ..

theorem recv_cases {c c' : Channel α} {id : Nat} {r : Recv α} (h : c.recv id = some (r, c')) :
    ∃ next, c.receivers.lookup id = some next ∧
      ((next < c.oldest ∧ r = .lagged (c.oldest - next) ∧
          c' = { c with receivers := c.receivers.insert id c.oldest }) ∨
        ∃ v, c.oldest ≤ next ∧ c.sent[next]? = some v ∧ r = .value v ∧
          c' = { c with receivers := c.receivers.insert id (next + 1) }) := by
  unfold recv at h
  cases hl : c.receivers.lookup id with
  | none => rw [hl] at h; cases h
  | some next =>
    rw [hl] at h
    refine ⟨next, rfl, ?_⟩
    by_cases hlag : next < c.oldest
    · simp only [hlag, if_true] at h
      obtain ⟨rfl, rfl⟩ := Prod.mk.inj (Option.some.inj h)
      exact .inl ⟨hlag, rfl, rfl⟩
    · simp only [hlag, if_false] at h
      split at h
      · rename_i v hv
        obtain ⟨rfl, rfl⟩ := Prod.mk.inj (Option.some.inj h)
        exact .inr ⟨v, not_lt.1 hlag, hv, rfl, rfl⟩
      · cases h

end Channel

/-! ### What a receiver got -/

/-- The values at the positions from `start` up to `next` that were not missed. -/
def between (sent : List α) (missed : List Nat) (start next : Nat) : List α :=
  (List.range' start (next - start)).filterMap fun i => if i ∈ missed then none else sent[i]?

theorem between_self (sent : List α) (missed : List Nat) (start : Nat) :
    between sent missed start start = [] := by
  simp [between]

/-- Positions received in the past are not affected by what is sent later. -/
theorem between_append {sent : List α} {next : Nat} (h : next ≤ sent.length) (missed : List Nat)
    (start : Nat) (l : List α) : between (sent ++ l) missed start next = between sent missed start next := by
  refine List.filterMap_congr fun i hi => ?_
  have hi : i < sent.length := by
    obtain ⟨hs, hlt⟩ := List.mem_range'_1.1 hi
    omega
  rw [List.getElem?_append_left hi]

theorem between_value {sent : List α} {missed : List Nat} {start next : Nat} {v : α}
    (hs : start ≤ next) (hm : next ∉ missed) (hv : sent[next]? = some v) :
    between sent missed start (next + 1) = between sent missed start next ++ [v] := by
  have hlen : next + 1 - start = (next - start) + 1 := by omega
  have hnext : start + (next - start) = next := by omega
  rw [between, hlen, List.range'_concat, List.filterMap_append, one_mul, hnext]
  simp [between, hm, hv]

theorem between_lagged {sent : List α} {missed : List Nat} {start next oldest : Nat}
    (hs : start ≤ next) (ho : next ≤ oldest) :
    between sent (missed ++ List.range' next (oldest - next)) start oldest =
      between sent missed start next := by
  have hlen : oldest - start = (next - start) + (oldest - next) := by omega
  have hnext : start + 1 * (next - start) = next := by omega
  rw [between, hlen, ← List.range'_append, List.filterMap_append, hnext]
  have hgone : (List.range' next (oldest - next)).filterMap (fun i =>
      if i ∈ missed ++ List.range' next (oldest - next) then none else sent[i]?) = [] := by
    refine List.filterMap_eq_nil_iff.2 fun i hi => ?_
    rw [if_pos (List.mem_append_right _ hi)]
  rw [hgone, List.append_nil]
  refine List.filterMap_congr fun i hi => ?_
  have hi' : i ∉ List.range' next (oldest - next) := by
    obtain ⟨hs, hlt⟩ := List.mem_range'_1.1 hi
    simp only [List.mem_range'_1]
    omega
  simp [hi']

theorem filterMap_range'_sublist {l : List α} {f : Nat → Option α} (hf : ∀ i v, f i = some v → l[i]? = some v)
    (start n : Nat) : ((List.range' start n).filterMap f).Sublist (l.drop start) := by
  induction n generalizing start with
  | zero => exact List.nil_sublist _
  | succ n ih =>
    rw [List.range'_succ]
    cases hs : f start with
    | none =>
      rw [List.filterMap_cons_none hs]
      exact (ih (start + 1)).trans (List.drop_sublist_drop_left l (Nat.le_succ start))
    | some v =>
      obtain ⟨hlt, rfl⟩ := List.getElem?_eq_some_iff.1 (hf start v hs)
      rw [List.filterMap_cons_some hs, List.drop_eq_getElem_cons hlt]
      exact (ih (start + 1)).cons_cons _

theorem between_sublist (sent : List α) (missed : List Nat) (start next : Nat) :
    (between sent missed start next).Sublist sent := by
  refine (filterMap_range'_sublist (fun i v h => ?_) _ _).trans (List.drop_sublist start sent)
  split at h
  · cases h
  · exact h

end Broadcast
