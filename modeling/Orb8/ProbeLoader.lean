import Orb8.Common
import Orb8.Lib.Trace

/-!
# Polling the ring buffer (`probe_loader.rs`)

`pollEvents` is the agent's loop on a ring that nobody writes to meanwhile. `PollState` is the same
loop with the probe running beside it: records may be submitted between any two calls of
`RingBuf::next`. The accounting law `Accounted` compares what all polls returned and what is still
pending with what was submitted.
-/

namespace Orb8
open Trace NetworkFlowEvent

/-- One iteration of the `while let` loop of `poll_events`, on the record it has just fetched. -/
def pollBody (maxBatchSize : Nat) (events : List NetworkFlowEvent) (item : Record) :
    ForInStep (List NetworkFlowEvent) :=
  if events.length ≥ maxBatchSize then .done events
  else if item.length = NetworkFlowEvent.size then .yield (events ++ [readUnaligned item])
  else .yield events

/-- The loop: the events collected, and the records left in the ring. -/
def pollLoop (maxBatchSize : Nat) : List Record → List NetworkFlowEvent →
    List NetworkFlowEvent × List Record
  | [], events => (events, [])
  | item :: ring, events =>
    match pollBody maxBatchSize events item with
    | .done events => (events, ring)
    | .yield events => pollLoop maxBatchSize ring events

def pollEvents (maxBatchSize : Nat) (ring : List Record) : List NetworkFlowEvent × List Record :=
  pollLoop maxBatchSize ring []

/-- The events of the well-formed records, in order. -/
def wellFormed (records : List Record) : List NetworkFlowEvent :=
  (records.filter fun r : Record => r.length = NetworkFlowEvent.size).map readUnaligned

@[simp] theorem wellFormed_nil : wellFormed [] = [] := rfl

@[simp] theorem wellFormed_append (l₁ l₂ : List Record) :
    wellFormed (l₁ ++ l₂) = wellFormed l₁ ++ wellFormed l₂ := by
  simp [wellFormed]

theorem wellFormed_cons_of_eq {r : Record} (h : r.length = NetworkFlowEvent.size) (l : List Record) :
    wellFormed (r :: l) = readUnaligned r :: wellFormed l := by
  simp [wellFormed, h]

theorem wellFormed_cons_of_ne {r : Record} (h : r.length ≠ NetworkFlowEvent.size) (l : List Record) :
    wellFormed (r :: l) = wellFormed l := by
  simp [wellFormed, h]

/-! ### The probe and the event loop side by side -/

/-- The ring, the vector `events` of the poll in progress (`none` between polls), and a history of
what was submitted and what each finished poll returned. -/
structure PollState where
  pending : List Record
  events : Option (List NetworkFlowEvent)
  submitted : List Record
  polled : List (List NetworkFlowEvent)
deriving DecidableEq

inductive PollAction where
  | submit (r : Record)
  | pollEvents
  /-- The poll calls `RingBuf::next` and runs the loop body on what it got. -/
  | next
deriving DecidableEq

namespace PollState

def init : PollState := ⟨[], none, [], []⟩

def finish (s : PollState) (events : List NetworkFlowEvent) : PollState :=
  { s with events := none, polled := s.polled ++ [events] }

def step (maxBatchSize : Nat) (s : PollState) : PollAction → Option PollState
  | .submit r => some { s with pending := s.pending ++ [r], submitted := s.submitted ++ [r] }
  | .pollEvents =>
    match s.events with
    | none => some { s with events := some [] }
    | some _ => none
  | .next =>
    match s.events, s.pending with
    | none, _ => none
    | some events, [] => some (s.finish events)
    | some events, item :: ring =>
      match pollBody maxBatchSize events item with
      | .done events => some ({ s with pending := ring }.finish events)
      | .yield events => some { s with pending := ring, events := some events }

/-- No captured event vanishes: what the polls returned so far, the poll in progress included,
followed by the well-formed records still pending, is what was submitted; and no poll returns more
than `maxBatchSize` events. -/
structure Accounted (maxBatchSize : Nat) (s : PollState) : Prop where
  bounded : ∀ events ∈ s.polled ++ s.events.toList, events.length ≤ maxBatchSize
  exact : (s.polled ++ s.events.toList).flatten ++ wellFormed s.pending = wellFormed s.submitted

/-- The loop does not fetch a well-formed record once its batch is full. -/
def Spares (maxBatchSize : Nat) (s : PollState) (a : PollAction) : Prop :=
  a = .next → ∀ events item ring, s.events = some events → s.pending = item :: ring →
    events.length ≥ maxBatchSize → item.length ≠ NetworkFlowEvent.size

variable {maxBatchSize : Nat} {s t : PollState} {a : PollAction}

theorem accounted_init : Accounted maxBatchSize init := ⟨by simp [init], rfl⟩

theorem step_cases (h : step maxBatchSize s a = some t) :
    (∃ r, a = .submit r ∧
      t = { s with pending := s.pending ++ [r], submitted := s.submitted ++ [r] }) ∨
    (a = .pollEvents ∧ s.events = none ∧ t = { s with events := some [] }) ∨
    (∃ events, a = .next ∧ s.events = some events ∧ s.pending = [] ∧ t = s.finish events) ∨
    ∃ events item ring, a = .next ∧ s.events = some events ∧ s.pending = item :: ring ∧
      ((events.length ≥ maxBatchSize ∧ t = { s with pending := ring }.finish events) ∨
       (events.length < maxBatchSize ∧ item.length = NetworkFlowEvent.size ∧
          t = { s with pending := ring, events := some (events ++ [readUnaligned item]) }) ∨
       (events.length < maxBatchSize ∧ item.length ≠ NetworkFlowEvent.size ∧
          t = { s with pending := ring })) := by
  cases a with
  | submit r => exact .inl ⟨r, rfl, (Option.some.inj h).symm⟩
  | pollEvents =>
    cases he : s.events with
    | some events => simp [step, he] at h
    | none => simp only [step, he, Option.some.injEq] at h; exact .inr (.inl ⟨rfl, rfl, h.symm⟩)
  | next =>
    cases he : s.events with
    | none => simp [step, he] at h
    | some events =>
      cases hp : s.pending with
      | nil =>
        simp only [step, he, hp, Option.some.injEq] at h
        exact .inr (.inr (.inl ⟨events, rfl, rfl, rfl, h.symm⟩))
      | cons item ring =>
        refine .inr (.inr (.inr ⟨events, item, ring, rfl, rfl, rfl, ?_⟩))
        simp only [step, he, hp, pollBody] at h
        by_cases hfull : events.length ≥ maxBatchSize
        · simp only [hfull, if_true, Option.some.injEq] at h
          exact .inl ⟨hfull, h.symm⟩
        · by_cases hsize : item.length = NetworkFlowEvent.size
          · simp only [hfull, hsize, if_true, if_false, Option.some.injEq] at h
            exact .inr (.inl ⟨by omega, hsize, h.symm⟩)
          · simp only [hfull, hsize, if_false, Option.some.injEq] at h
            exact .inr (.inr ⟨by omega, hsize, by rw [← h, ← he]⟩)

theorem accounted_step_iff (h : Accounted maxBatchSize s) (ht : step maxBatchSize s a = some t) :
    Accounted maxBatchSize t ↔ Spares maxBatchSize s a := by
  obtain ⟨hbound, hexact⟩ := h
  rcases step_cases ht with ⟨r, rfl, rfl⟩ | ⟨rfl, he, rfl⟩ | ⟨events, rfl, he, hp, rfl⟩ |
    ⟨events, item, ring, rfl, he, hp, h⟩
  · refine ⟨fun _ h => (nomatch h), fun _ => ⟨hbound, ?_⟩⟩
    simp only [wellFormed_append, ← hexact, List.append_assoc]
  · refine ⟨fun _ h => (nomatch h), fun _ => ⟨?_, ?_⟩⟩
    · simpa [he, or_imp, forall_and] using hbound
    · simpa [he] using hexact
  · refine ⟨fun _ _ _ _ _ _ h' => by simp [hp] at h', fun _ => ⟨?_, ?_⟩⟩
    · simpa [finish, he] using hbound
    · simpa [finish, he] using hexact
  · simp only [he, hp, Option.toList_some] at hbound hexact
    rcases h with ⟨hfull, rfl⟩ | ⟨hroom, hsize, rfl⟩ | ⟨hroom, hsize, rfl⟩
    · -- the batch is full: `item` leaves the ring and goes nowhere
      constructor
      · rintro ⟨-, hexact'⟩ - events' item' ring' he' hp' -
        obtain ⟨rfl, rfl⟩ := List.cons.inj (hp ▸ hp')
        intro hsize
        rw [wellFormed_cons_of_eq hsize] at hexact
        simp only [finish, Option.toList_none, List.append_nil] at hexact'
        have := congrArg List.length (hexact.trans hexact'.symm)
        simp at this
      · intro hspare
        have hsize := hspare rfl events item ring he hp hfull
        refine ⟨by simpa [finish] using hbound, ?_⟩
        rw [wellFormed_cons_of_ne hsize] at hexact
        simpa [finish] using hexact
    · refine ⟨fun _ _ events' _ _ he' _ hfull => ?_, fun _ => ⟨?_, ?_⟩⟩
      · obtain rfl := Option.some.inj (he ▸ he')
        omega
      · intro b hb
        simp only [Option.toList_some, List.mem_append, List.mem_singleton] at hb
        rcases hb with hb | rfl
        · exact hbound b (by simp [hb])
        · simp; omega
      · rw [wellFormed_cons_of_eq hsize] at hexact
        simpa using hexact
    · refine ⟨fun _ _ events' _ _ he' _ hfull => ?_, fun _ => ⟨by simpa [he] using hbound, ?_⟩⟩
      · obtain rfl := Option.some.inj (he ▸ he')
        omega
      · rw [wellFormed_cons_of_ne hsize] at hexact
        simpa [he] using hexact

/-- In every run, nothing vanishes in any state exactly when no iteration of the loop fetches a
well-formed record with its batch full. -/
theorem accounted_throughout_iff (maxBatchSize : Nat) (acts : List PollAction) :
    Throughout (step maxBatchSize) (Accounted maxBatchSize) init acts ↔
      EachStep (step maxBatchSize) (Spares maxBatchSize) init acts :=
  throughout_iff_eachStep (fun _ _ _ _ _ h ht => accounted_step_iff h ht)
    (throughout_true _ acts) accounted_init

/-- Two records, a batch of one: the poll returns the first and drops the second. -/
theorem not_accounted_full_batch :
    ¬ Throughout (step 1) (Accounted 1) init
      [.submit (List.replicate 32 1), .submit (List.replicate 32 2), .pollEvents, .next, .next] := by
  intro h
  have hexact := (h.last (t := ⟨[], none, [List.replicate 32 1, List.replicate 32 2],
    [[readUnaligned (List.replicate 32 1)]]⟩) (by decide)).exact
  revert hexact
  decide

/-! ### What a full batch costs -/

def fetched (s : PollState) : List NetworkFlowEvent := (s.polled ++ s.events.toList).flatten

/-- The finished polls that filled their batch. -/
def fullPolls (maxBatchSize : Nat) (s : PollState) : Nat :=
  (s.polled.filter fun events => events.length = maxBatchSize).length

/-- Events are fetched in order and at most once, and a poll loses at most one, if its batch is full. -/
structure NearlyAccounted (maxBatchSize : Nat) (s : PollState) : Prop where
  bounded : ∀ events ∈ s.polled ++ s.events.toList, events.length ≤ maxBatchSize
  sublist : (s.fetched ++ wellFormed s.pending).Sublist (wellFormed s.submitted)
  lost : (wellFormed s.submitted).length ≤
    s.fetched.length + (wellFormed s.pending).length + s.fullPolls maxBatchSize

theorem fetched_finish {events : List NetworkFlowEvent} (he : s.events = some events) :
    (s.finish events).fetched = s.fetched := by
  simp [fetched, finish, he]

theorem length_wellFormed_singleton_le (r : Record) : (wellFormed [r]).length ≤ 1 := by
  rw [wellFormed, List.length_map]
  exact List.length_filter_le _ _

theorem nearlyAccounted_init : NearlyAccounted maxBatchSize init :=
  ⟨by simp [init], List.Sublist.refl _, Nat.le_refl _⟩

theorem nearlyAccounted_step (h : NearlyAccounted maxBatchSize s) (ht : step maxBatchSize s a = some t) :
    NearlyAccounted maxBatchSize t := by
  obtain ⟨hbound, hsub, hlost⟩ := h
  rcases step_cases ht with ⟨r, rfl, rfl⟩ | ⟨rfl, he, rfl⟩ | ⟨events, rfl, he, hp, rfl⟩ |
    ⟨events, item, ring, rfl, he, hp, h⟩
  · refine ⟨hbound, ?_, ?_⟩
    · simp only [fetched, wellFormed_append, ← List.append_assoc] at hsub ⊢
      exact hsub.append (List.Sublist.refl _)
    · simp only [fetched, fullPolls, wellFormed_append, List.length_append] at hlost ⊢
      omega
  · refine ⟨?_, ?_, ?_⟩
    · simpa [he, or_imp, forall_and] using hbound
    · simpa [fetched, he] using hsub
    · simpa [fetched, fullPolls, he] using hlost
  · have hfetched := fetched_finish he
    refine ⟨by simpa [finish, he] using hbound, by rw [hfetched]; exact hsub, ?_⟩
    rw [hfetched]
    refine hlost.trans (Nat.add_le_add_left ?_ _)
    simp only [fullPolls, finish, List.filter_append, List.length_append]
    exact Nat.le_add_right ..
  · have hcons : wellFormed s.pending = wellFormed [item] ++ wellFormed ring := by
      rw [hp, ← wellFormed_append, List.singleton_append]
    rcases h with ⟨hfull, rfl⟩ | ⟨hroom, hsize, rfl⟩ | ⟨hroom, hsize, rfl⟩
    · -- the batch is full: `item` is lost, and the poll counts as full
      have hfetched : ({ s with pending := ring }.finish events).fetched = s.fetched := by simp [fetched, finish, he]
      have hbatch : events.length = maxBatchSize := by
        have := hbound events (by simp [he])
        omega
      refine ⟨by simpa [finish, he] using hbound, ?_, ?_⟩
      · rw [hfetched]
        rw [hcons] at hsub
        refine List.Sublist.trans ?_ hsub
        exact (List.Sublist.refl _).append (List.sublist_append_right _ _)
      · have hone := length_wellFormed_singleton_le item
        rw [hfetched]
        rw [hcons, List.length_append] at hlost
        simp only [fullPolls, finish, List.filter_append, List.length_append] at hlost ⊢
        rw [List.filter_cons_of_pos (by simpa using hbatch), List.length_cons]
        omega
    · have hitem : wellFormed [item] = [readUnaligned item] := by rw [wellFormed_cons_of_eq hsize, wellFormed_nil]
      rw [hcons, hitem] at hsub hlost
      refine ⟨fun b hb => ?_, ?_, ?_⟩
      · simp only [Option.toList_some, List.mem_append, List.mem_singleton] at hb
        rcases hb with hb | rfl
        · exact hbound b (by simp [hb])
        · rw [List.length_append, List.length_singleton]
          exact hroom
      · simpa [fetched, he] using hsub
      · simp only [fetched, fullPolls, he, Option.toList_some, List.flatten_append, List.length_append,
          List.flatten_cons, List.flatten_nil, List.append_nil, List.length_singleton] at hlost ⊢
        omega
    · have hitem : wellFormed [item] = [] := by rw [wellFormed_cons_of_ne hsize, wellFormed_nil]
      rw [hcons, hitem] at hsub hlost
      exact ⟨by simpa [he] using hbound, by simpa [fetched, he] using hsub, by simpa [fetched, fullPolls, he] using hlost⟩

/-! ### A poll nobody interrupts is `pollEvents` -/

theorem run_next_of_pollLoop (maxBatchSize : Nat) (s : PollState) (events : List NetworkFlowEvent)
    (he : s.events = some events) :
    ∃ n, run (step maxBatchSize) s (List.replicate n .next) =
      some ({ s with pending := (pollLoop maxBatchSize s.pending events).2 }.finish
        (pollLoop maxBatchSize s.pending events).1) := by
  obtain ⟨pending, ev, submitted, polled⟩ := s
  obtain rfl : ev = some events := he
  induction pending generalizing events with
  | nil => exact ⟨1, rfl⟩
  | cons item ring ih =>
    cases hb : pollBody maxBatchSize events item with
    | done events' => exact ⟨1, by simp [step, hb, pollLoop]⟩
    | yield events' =>
      obtain ⟨n, hn⟩ := ih events'
      exact ⟨n + 1, by simpa [List.replicate_succ, step, hb, pollLoop, finish] using hn⟩

/-- Run without interruption, a call of `poll_events` takes from the ring and returns what
`pollEvents` says. -/
theorem run_pollEvents (maxBatchSize : Nat) (s : PollState) (he : s.events = none) :
    ∃ n, run (step maxBatchSize) s (.pollEvents :: List.replicate n .next) =
      some ({ s with pending := (pollEvents maxBatchSize s.pending).2 }.finish
        (pollEvents maxBatchSize s.pending).1) := by
  obtain ⟨n, hn⟩ := run_next_of_pollLoop maxBatchSize { s with events := some [] } [] rfl
  exact ⟨n, by simpa [step, he, pollEvents, finish] using hn⟩

end PollState
end Orb8
