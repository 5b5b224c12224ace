import Orb8.FlowLog

/-!
# First and last seen

`first_seen_ns` is the timestamp of the first event of a flow to be processed, `last_seen_ns` that of
the last one. They bound the timestamps of all its events as long as no event reaches a live flow
with a timestamp before the flow's `last_seen_ns`; a single one that does breaks the bounds.
-/

namespace Orb8
open AMap Trace KeyedFold FlowAggregator

/-- The two timestamps bound those of the events `es`. -/
def FlowStats.Bounds (stats : FlowStats) (es : List Stamped) : Prop :=
  ∀ e ∈ es, stats.firstSeenNs ≤ e.2.timestampNs ∧ e.2.timestampNs ≤ stats.lastSeenNs

namespace Logged

/-- Every live flow's timestamps bound those of the events aggregated since it was created. -/
def TimesBounded (s : Logged) : Prop :=
  ∀ k stats, s.agg.flows.lookup k = some stats → stats.Bounds (since k s.log)

/-- The event is not older than the last one of its flow, if that is live. -/
def InOrder (s : Logged) : FlowCall → Prop
  | .processEvent _ _ event namespace_ podName =>
    ∀ stats, s.agg.flows.lookup (flowKey event namespace_ podName) = some stats →
      stats.lastSeenNs ≤ event.timestampNs
  | .expireOldFlows _ => True

variable {s t : Logged} {k : FlowKey} {stats : FlowStats} {es : List Stamped} {e : Stamped}

/-! ### The bounds of a sequence of events -/

/-- The bounds of a sequence, as they appear in its summary. -/
def Bounded (es : List Stamped) : Prop :=
  ∀ stats, summary FlowStats.start FlowStats.add es = some stats → stats.Bounds es

theorem bounded_nil : Bounded [] := fun _ h => by cases h

theorem bounded_snoc_of_nil (h : summary FlowStats.start FlowStats.add es = none) : Bounded (es ++ [e]) := by
  obtain rfl : es = [] := by
    cases es with
    | nil => rfl
    | cons e' es => cases h
  intro stats hs e' he'
  obtain rfl := Option.some.inj hs
  obtain rfl := List.mem_singleton.1 he'
  exact ⟨UInt64.le_refl _, UInt64.le_refl _⟩

/-- An event keeps the bounds exactly if it is not older than the last one. -/
theorem bounded_snoc_iff (hs : summary FlowStats.start FlowStats.add es = some stats) (h : Bounded es) :
    Bounded (es ++ [e]) ↔ stats.lastSeenNs ≤ e.2.timestampNs := by
  have hnew : summary FlowStats.start FlowStats.add (es ++ [e]) = some (stats.add e) := by
    rw [summary_snoc, hs]
  obtain ⟨-, -, -, hlast⟩ := summary_spec hs
  obtain ⟨last, hlast, hts⟩ := Option.map_eq_some_iff.1 hlast
  have hlast := List.mem_of_getLast? hlast
  constructor
  · intro hb
    rw [← hts]
    exact (hb _ hnew last (List.mem_append_left [e] hlast)).2
  · intro hle stats' hs' e' he'
    obtain rfl := Option.some.inj (hnew.symm.trans hs')
    rcases List.mem_append.1 he' with he' | he'
    · obtain ⟨hfirst, hle'⟩ := h stats hs e' he'
      exact ⟨hfirst, UInt64.le_trans hle' hle⟩
    · obtain rfl := List.mem_singleton.1 he'
      obtain ⟨hfirst, hle'⟩ := h stats hs last hlast
      exact ⟨UInt64.le_trans hfirst (UInt64.le_trans hle' hle), UInt64.le_refl _⟩

/-! ### The bounds of a table -/

theorem timesBounded_iff (h : s.Inv) : s.TimesBounded ↔ ∀ k, Bounded (since k s.log) := by
  refine forall_congr' fun k => ?_
  rw [Bounded, ← h.exact k]

theorem bounded_since_drops (h : ∀ k, Bounded (since k s.log)) (l : List (FlowKey × FlowStats)) (k : FlowKey) :
    Bounded (since k (s.log ++ dropEntries l)) := by
  rw [since_append_drops]
  split
  · exact bounded_nil
  · exact h k

theorem timesBounded_processEvent_iff (h : s.Inv) (hb : s.TimesBounded) (ord : Order FlowKey FlowStats)
    (now : Instant) (event : NetworkFlowEvent) (namespace_ podName : String) :
    (s.call (.processEvent ord now event namespace_ podName)).TimesBounded ↔
      s.InOrder (.processEvent ord now event namespace_ podName) := by
  rw [timesBounded_iff h] at hb
  rw [timesBounded_iff (inv_call h _)]
  obtain ⟨keys, hkey, htaken, -⟩ := processEvent_cases s.agg ord now event namespace_ podName
  have hrest := bounded_since_drops hb (s.agg.processEvent ord now event namespace_ podName).2
  -- the event's own flow loses nothing to the eviction
  have hown : since (flowKey event namespace_ podName)
      (s.log ++ dropEntries (s.agg.processEvent ord now event namespace_ podName).2) =
        since (flowKey event namespace_ podName) s.log := by
    rw [since_append_drops, htaken, if_neg hkey]
  have hiff : (∀ k, Bounded (since k (s.log ++
      dropEntries (s.agg.processEvent ord now event namespace_ podName).2 ++
        [.put (flowKey event namespace_ podName) (now, event)]))) ↔
      Bounded (since (flowKey event namespace_ podName) s.log ++ [(now, event)]) := by
    refine ⟨fun hall => ?_, fun hnew k => ?_⟩
    · have hk := hall (flowKey event namespace_ podName)
      rwa [since_append_put, if_pos rfl, hown] at hk
    · rw [since_append_put]
      split
      · rename_i hk
        rwa [← hk, hown]
      · exact hrest k
  refine hiff.trans ?_
  unfold InOrder
  have hlookup := h.exact (flowKey event namespace_ podName)
  cases hl : s.agg.flows.lookup (flowKey event namespace_ podName) with
  | none =>
    exact ⟨fun _ _ hs => absurd (hl.symm.trans hs) (by simp),
      fun _ => bounded_snoc_of_nil (hlookup.symm.trans hl)⟩
  | some stats =>
    exact (bounded_snoc_iff (hlookup.symm.trans hl) (hb _)).trans (by simp [hl])

theorem timesBounded_expireOldFlows (h : s.Inv) (hb : s.TimesBounded) (now : Instant) :
    (s.call (.expireOldFlows now)).TimesBounded := by
  rw [timesBounded_iff h] at hb
  rw [timesBounded_iff (inv_call h _)]
  exact bounded_since_drops hb _

theorem timesBounded_step_iff {c : FlowCall} (h : s.Inv) (hb : s.TimesBounded) (ht : step s c = some t) :
    t.TimesBounded ↔ s.InOrder c := by
  obtain rfl := Option.some.inj ht
  cases c with
  | processEvent ord now event namespace_ podName =>
    exact timesBounded_processEvent_iff h hb ord now event namespace_ podName
  | expireOldFlows now => exact ⟨fun _ => trivial, fun _ => timesBounded_expireOldFlows h hb now⟩

/-- In every run, the timestamps of every live flow bound those of its events in every state exactly
when no event is older than the last one of its flow. -/
theorem timesBounded_throughout_iff (maxFlows : Nat) (flowTimeout : Duration) (calls : List FlowCall) :
    Throughout step TimesBounded (init maxFlows flowTimeout) calls ↔
      EachStep step InOrder (init maxFlows flowTimeout) calls := by
  have hinv : ∀ s c t, Inv s → step s c = some t → Inv t :=
    fun s c t h ht => Option.some.inj ht ▸ inv_call h c
  have hstep : ∀ s c t, Inv s → Inv t → TimesBounded s → step s c = some t →
      (TimesBounded t ↔ InOrder s c) := fun _ _ _ h _ hb ht => timesBounded_step_iff h hb ht
  have hinit := inv_init maxFlows flowTimeout
  exact throughout_iff_eachStep hstep (throughout_of_inv hinv hinit calls) fun k stats hl => by cases hl

/-- The probe on another CPU was later to reserve a slot: timestamp 6 is processed before 5. -/
def reordered : List FlowCall :=
  [.processEvent .stored 0 { demoEvent 1 with timestampNs := 6 } "default" "a",
    .processEvent .stored 1 (demoEvent 1) "default" "a"]

theorem not_timesBounded_reordered : ¬ Throughout step TimesBounded (init 10 30) reordered := by
  intro h
  have hb := h.last rfl (flowKey (demoEvent 1) "default" "a") ⟨200, 2, 0, 1, 6, 5⟩ (by decide)
  exact absurd (hb (1, demoEvent 1) (by decide)).1 (by decide)

end Logged

end Orb8
