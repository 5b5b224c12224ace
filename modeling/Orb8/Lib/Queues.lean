import Orb8.Lib.Broadcast

/-!
# A broadcast channel is a queue for each receiver

What a receiver of a broadcast channel has yet to get is a queue of its own: a send appends to every
queue, and a receiver that finds more than `slots` values in its queue loses the oldest ones (`pop`).
The positions and the values sent before they subscribed make no difference to the receivers.
-/

namespace Broadcast

open AMap

variable {α : Type*}

/-- Take from a queue that retains `slots` values: what is received, and the rest. -/
def pop (slots : Nat) (q : List α) : Option (Recv α × List α) :=
  if slots < q.length then some (.lagged (q.length - slots), q.drop (q.length - slots))
  else match q with
    | v :: rest => some (.value v, rest)
    | [] => none

namespace Channel

/-- What the receiver has yet to get. -/
def queue (c : Channel α) (id : Nat) : Option (List α) :=
  (c.receivers.lookup id).map fun next => c.sent.drop next

/-- Every receiver is at a position within what was sent. -/
def WellPlaced (c : Channel α) : Prop := ∀ id next, c.receivers.lookup id = some next → next ≤ c.sent.length

variable {c c' : Channel α} {id j next : Nat} {v : α} {r : Recv α} {q : List α}

theorem queue_isSome : (c.queue id).isSome ↔ id ∈ c.receivers := by
  rw [queue, Option.isSome_map, AList.lookup_isSome]

theorem queue_of_lookup (h : c.receivers.lookup id = some next) : c.queue id = some (c.sent.drop next) := by
  rw [queue, h, Option.map_some]

theorem queue_subscribe (c : Channel α) (id j : Nat) :
    (c.subscribe id).queue j = if j = id then some [] else c.queue j := by
  by_cases hj : j = id
  · subst hj
    rw [if_pos rfl, queue_of_lookup (AList.lookup_insert _)]
    exact congrArg some List.drop_length
  · rw [if_neg hj]
    exact congrArg (Option.map _) (AList.lookup_insert_ne hj)

theorem queue_unsubscribe (c : Channel α) (id j : Nat) :
    (c.unsubscribe id).queue j = if j = id then none else c.queue j := by
  by_cases hj : j = id
  · subst hj
    rw [if_pos rfl, queue, show (c.unsubscribe j).receivers = c.receivers.erase j from rfl, AList.lookup_erase]
    rfl
  · rw [if_neg hj]
    exact congrArg (Option.map _) (AList.lookup_erase_ne hj)

theorem queue_send (hw : c.WellPlaced) (h : c.send v = some c') (id : Nat) :
    c'.queue id = (c.queue id).map (· ++ [v]) := by
  unfold send at h
  split at h
  · cases h
  · obtain rfl := Option.some.inj h
    cases hl : c.receivers.lookup id with
    | none => rw [queue, queue, hl]; rfl
    | some next =>
      rw [queue_of_lookup hl, queue_of_lookup (c := { c with sent := c.sent ++ [v] }) hl]
      exact congrArg some (List.drop_append_of_le_length (hw id next hl))

/-- The send reaches somebody exactly if there is a queue. -/
theorem send_eq_none_iff : c.send v = none ↔ ∀ id, c.queue id = none := by
  unfold send
  constructor
  · intro h id
    split at h
    · rename_i hlen
      rw [queue, eq_empty_of_len hlen]
      rfl
    · cases h
  · intro h
    have hnone : c.receivers = ∅ := by
      refine AList.ext (List.eq_nil_iff_forall_not_mem.2 fun e he => ?_)
      have hl : c.receivers.lookup e.1 = some e.2 := AList.mem_lookup_iff.2 he
      have hq := h e.1
      rw [queue_of_lookup hl] at hq
      cases hq
    rw [hnone]
    rfl

theorem drop_insert_receivers (c : Channel α) (id next : Nat) :
    ({ c with receivers := c.receivers.insert id next } : Channel α).queue id = some (c.sent.drop next) :=
  queue_of_lookup (AList.lookup_insert _)

/-- Receiving is taking from one's queue. -/
theorem recv_eq_pop (hw : c.WellPlaced) (h : c.queue id = some q) :
    (c.recv id).map (fun p => (p.1, p.2.queue id)) = (pop c.slots q).map fun p => (p.1, some p.2) := by
  cases hl : c.receivers.lookup id with
  | none => rw [queue, hl] at h; cases h
  | some next =>
    rw [queue_of_lookup hl] at h
    obtain rfl := Option.some.inj h
    have hle := hw id next hl
    have hlen : (c.sent.drop next).length = c.sent.length - next := List.length_drop
    unfold recv pop oldest
    simp only [hl]
    by_cases hlag : next < c.sent.length - c.slots
    · have hlag' : c.slots < (c.sent.drop next).length := by omega
      have hmissed : c.sent.length - c.slots - next = (c.sent.drop next).length - c.slots := by omega
      have hnext : next + ((c.sent.drop next).length - c.slots) = c.sent.length - c.slots := by omega
      rw [if_pos hlag, if_pos hlag', Option.map_some, Option.map_some, drop_insert_receivers, hmissed,
        List.drop_drop, hnext]
    · have hlag' : ¬ c.slots < (c.sent.drop next).length := by omega
      rw [if_neg hlag, if_neg hlag']
      cases hn : c.sent[next]? with
      | none =>
        have hnil : c.sent.drop next = [] := List.drop_eq_nil_of_le (List.getElem?_eq_none_iff.1 hn)
        rw [hnil]
        rfl
      | some v =>
        obtain ⟨hlt, hv⟩ := List.getElem?_eq_some_iff.1 hn
        have hcons : c.sent.drop next = v :: c.sent.drop (next + 1) := by
          rw [List.drop_eq_getElem_cons hlt, hv]
        rw [hcons, Option.map_some, drop_insert_receivers]
        rfl

/-! ### Positions -/

theorem wellPlaced_new (slots : Nat) : (new slots : Channel α).WellPlaced := fun _ _ h => nomatch h

theorem WellPlaced.send (hw : c.WellPlaced) (h : c.send v = some c') : c'.WellPlaced := by
  unfold Channel.send at h
  split at h
  · cases h
  · obtain rfl := Option.some.inj h
    intro j next hj
    exact (hw j next hj).trans (by simp)

theorem WellPlaced.subscribe (hw : c.WellPlaced) (id : Nat) : (c.subscribe id).WellPlaced := by
  intro j next hj
  rcases lookup_insert_eq_some hj with ⟨-, rfl⟩ | ⟨-, hj⟩
  · exact Nat.le_refl _
  · exact hw j next hj

theorem WellPlaced.unsubscribe (hw : c.WellPlaced) (id : Nat) : (c.unsubscribe id).WellPlaced := by
  intro j next hj
  by_cases hne : j = id
  · subst hne
    rw [show (c.unsubscribe j).receivers = c.receivers.erase j from rfl, AList.lookup_erase] at hj
    cases hj
  · exact hw j next ((lookup_erase_of_ne hne).symm.trans hj)

theorem WellPlaced.recv (hw : c.WellPlaced) (h : c.recv id = some (r, c')) : c'.WellPlaced := by
  obtain ⟨next, -, ⟨-, -, rfl⟩ | ⟨v, -, hv, -, rfl⟩⟩ := recv_cases h <;> intro j n hj <;>
    rcases lookup_insert_eq_some hj with ⟨-, rfl⟩ | ⟨-, hj⟩
  · exact c.oldest_le
  · exact hw j n hj
  · exact (List.getElem?_eq_some_iff.1 hv).1
  · exact hw j n hj

theorem recv_slots (h : c.recv id = some (r, c')) : c'.slots = c.slots := by
  obtain ⟨next, -, ⟨-, -, rfl⟩ | ⟨v, -, -, -, rfl⟩⟩ := recv_cases h <;> rfl

theorem queue_recv_of_ne (h : c.recv id = some (r, c')) (hj : j ≠ id) : c'.queue j = c.queue j := by
  obtain ⟨next, -, ⟨-, -, rfl⟩ | ⟨v, -, -, -, rfl⟩⟩ := recv_cases h <;>
    exact congrArg (Option.map _) (AList.lookup_insert_ne hj)

theorem recv_of_queue_none (h : c.queue id = none) : c.recv id = none := by
  have hl : c.receivers.lookup id = none := by
    cases hl : c.receivers.lookup id with
    | none => rfl
    | some next => rw [queue_of_lookup hl] at h; cases h
  rw [recv, hl]

end Channel

end Broadcast
