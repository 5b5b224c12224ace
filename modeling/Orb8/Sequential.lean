import Orb8.FlowLog
import Orb8.FlowTasks

/-!
# Calls that nothing interrupts

`FlowAggregator.processEvent` and `FlowAggregator.expireOldFlows` run a call to its end; the two
tasks make the same call one `DashMap` operation at a time. Here the two levels are connected: when
no step of the other task comes in between, the steps of a call leave the table, the counters and
the flags that the call leaves, for the order in which its iterator visited the entries (`Reached`
says how far a call has come).
-/

namespace Orb8
open AMap Trace

def Shared.agg (maxFlows : Nat) (flowTimeout : Duration) (g : Shared) : FlowAggregator :=
  ⟨g.flows, g.eventsProcessed, flowTimeout, maxFlows, g.health⟩

/-! ### `process_event` -/

/-- The action does not start a call. -/
def LoopAction.Continues (l : LoopAction) : Prop :=
  ∀ event namespace_ podName, l ≠ .processEvent event namespace_ podName

/-- How far an uninterrupted `process_event` on `a` has come at a program counter: `b` is what it has
made of `a`, and `evicted` counts the entries it has taken out. -/
def Reached (a : FlowAggregator) (event : NetworkFlowEvent) (namespace_ podName : String)
    (b : FlowAggregator) (evicted : Nat) : LoopPc → Prop
  | .idle => ∃ ord now, b = (a.processEvent ord now event namespace_ podName).1 ∧
      evicted = (a.processEvent ord now event namespace_ podName).2.length
  | .getMut key event' =>
    key = flowKey event namespace_ podName ∧ event' = event ∧ b = a.counted ∧ evicted = 0
  | .lenCheck key event' =>
    key = flowKey event namespace_ podName ∧ event' = event ∧ b = a.counted ∧ evicted = 0 ∧
      a.flows.lookup key = none
  | .snapshot key event' candidates =>
    key = flowKey event namespace_ podName ∧ event' = event ∧ b = a.counted ∧ evicted = 0 ∧
      a.flows.lookup key = none ∧ a.maxFlows ≤ len a.flows ∧ (candidates.map Prod.fst).Nodup ∧
      ∀ c ∈ candidates, ∃ stats, a.flows.lookup c.1 = some stats ∧ stats.lastSeen = c.2
  | .removing key event' keys removed =>
    key = flowKey event namespace_ podName ∧ event' = event ∧ evicted = removed ∧
      a.flows.lookup key = none ∧ a.maxFlows ≤ len a.flows ∧
      ∃ ord flows, b = { a.counted with flows } ∧
        (a.flows.removeAll (a.evictKeys ord)).1 = (flows.removeAll keys).1 ∧
        (a.flows.removeAll (a.evictKeys ord)).2.length = removed + (flows.removeAll keys).2.length
  | .entry key event' =>
    key = flowKey event namespace_ podName ∧ event' = event ∧ a.flows.lookup key = none ∧
      ∃ ord, b = (a.counted.makeRoom ord).1 ∧ evicted = (a.counted.makeRoom ord).2.length
  | .capacityFlag => ∃ ord now,
      b.updateCapacityFlag = (a.processEvent ord now event namespace_ podName).1 ∧
      evicted = (a.processEvent ord now event namespace_ podName).2.length

section
variable {taken : Nat} {g g' : Shared} {pc pc' : LoopPc}
  {l : LoopAction} {a b : FlowAggregator} {event event' : NetworkFlowEvent} {namespace_ podName : String}
  {key k : FlowKey} {keys : List FlowKey} {evicted removed : Nat}

/-- An iterator that visits every entry once visits them in some order. -/
theorem exists_order {flows : FlowTable} {candidates : List (FlowKey × Instant)}
    (hnodup : (candidates.map Prod.fst).Nodup)
    (hin : ∀ c ∈ candidates, ∃ stats, flows.lookup c.1 = some stats ∧ stats.lastSeen = c.2)
    (hall : ∀ k ∈ flows.keys, k ∈ candidates.map Prod.fst) :
    ∃ ord : Order FlowKey FlowStats,
      (ord.visit flows.toList).map (fun e => (e.1, e.2.lastSeen)) = candidates := by
  refine Order.exists_visit ((List.perm_ext_iff_of_nodup hnodup.of_map ?_).2 fun c => ?_)
  · refine List.Nodup.of_map Prod.fst ?_
    rw [List.map_map]
    exact map_fst_toList flows ▸ flows.nodupKeys
  · rw [List.mem_map]
    constructor
    · intro hc
      obtain ⟨stats, hl, hseen⟩ := hin c hc
      exact ⟨(c.1, stats), mem_toList.2 hl, Prod.ext rfl hseen⟩
    · rintro ⟨⟨k, stats⟩, he, rfl⟩
      have hl := mem_toList.1 he
      obtain ⟨⟨k', seen⟩, hc, rfl⟩ := List.mem_map.1 (hall k (mem_iff_lookup.2 ⟨stats, hl⟩))
      obtain ⟨stats', hl', rfl⟩ := hin _ hc
      obtain rfl : stats' = stats := Option.some.inj (hl'.symm.trans hl)
      exact hc

theorem Reached.found {stats : FlowStats}
    (h : Reached a event namespace_ podName b evicted (.getMut key event'))
    (hk : b.flows.lookup key = some stats) (now : Instant) :
    Reached a event namespace_ podName
      { b with flows := b.flows.insert key (stats.update now event'.timestampNs event'.packetLen) } evicted
      .capacityFlag := by
  obtain ⟨rfl, rfl, rfl, rfl⟩ := h
  have hk : a.flows.lookup (flowKey event' namespace_ podName) = some stats := hk
  exact ⟨.stored, now, by rw [FlowAggregator.processEvent_of_some hk]; rfl, by rw [FlowAggregator.processEvent_of_some hk]; rfl⟩

theorem Reached.missing (h : Reached a event namespace_ podName b evicted (.getMut key event'))
    (hk : b.flows.lookup key = none) :
    Reached a event namespace_ podName b evicted (.lenCheck key event') := by
  obtain ⟨rfl, rfl, rfl, rfl⟩ := h
  exact ⟨rfl, rfl, rfl, rfl, hk⟩

theorem Reached.full (h : Reached a event namespace_ podName b evicted (.lenCheck key event'))
    (hfull : a.maxFlows ≤ len b.flows) :
    Reached a event namespace_ podName b evicted (.snapshot key event' []) := by
  obtain ⟨rfl, rfl, rfl, rfl, hk⟩ := h
  exact ⟨rfl, rfl, rfl, rfl, hk, hfull, List.nodup_nil, fun c hc => nomatch hc⟩

theorem Reached.room (h : Reached a event namespace_ podName b evicted (.lenCheck key event'))
    (hroom : len b.flows < a.maxFlows) :
    Reached a event namespace_ podName b evicted (.entry key event') := by
  obtain ⟨rfl, rfl, rfl, rfl, hk⟩ := h
  have hmake : a.counted.makeRoom .stored = (a.counted, []) := FlowAggregator.makeRoom_of_room hroom
  exact ⟨rfl, rfl, hk, .stored, by rw [hmake], by rw [hmake]; rfl⟩

theorem Reached.visit {candidates : List (FlowKey × Instant)} {stats : FlowStats}
    (h : Reached a event namespace_ podName b evicted (.snapshot key event' candidates))
    (hk : b.flows.lookup k = some stats) (hnew : k ∉ candidates.map Prod.fst) :
    Reached a event namespace_ podName b evicted
      (.snapshot key event' (candidates ++ [(k, stats.lastSeen)])) := by
  obtain ⟨rfl, rfl, rfl, rfl, hlookup, hfull, hnodup, hin⟩ := h
  refine ⟨rfl, rfl, rfl, rfl, hlookup, hfull, ?_, fun c hc => ?_⟩
  · rw [List.map_append]
    exact List.nodup_append'.2 ⟨hnodup, List.nodup_singleton _, List.disjoint_singleton.2 hnew⟩
  · rcases List.mem_append.1 hc with hc | hc
    · exact hin c hc
    · obtain rfl := List.mem_singleton.1 hc
      exact ⟨stats, hk, rfl⟩

/-- The iterator has visited every entry, so an order is chosen and with it the candidates. -/
theorem Reached.sort {candidates : List (FlowKey × Instant)}
    (h : Reached a event namespace_ podName b evicted (.snapshot key event' candidates))
    (hall : ∀ k ∈ b.flows.keys, k ∈ candidates.map Prod.fst) :
    Reached a event namespace_ podName b evicted
      (.removing key event' ((oldest (evictCount a.maxFlows) candidates).map Prod.fst) 0) := by
  obtain ⟨rfl, rfl, rfl, rfl, hlookup, hfull, hnodup, hin⟩ := h
  obtain ⟨ord, hord⟩ := exists_order hnodup hin hall
  have hkeys : a.evictKeys ord = (oldest (evictCount a.maxFlows) candidates).map Prod.fst := by
    rw [FlowAggregator.evictKeys, hord]
  refine ⟨rfl, rfl, rfl, hlookup, hfull, ord, a.flows, rfl, ?_, ?_⟩
  · rw [hkeys]
  · rw [hkeys, Nat.zero_add]

theorem Reached.remove (h : Reached a event namespace_ podName b evicted (.removing key event' (k :: keys) removed))
    (hk : k ∈ b.flows) :
    Reached a event namespace_ podName { b with flows := b.flows.erase k } (evicted + 1)
      (.removing key event' keys (removed + 1)) := by
  obtain ⟨rfl, rfl, rfl, hlookup, hfull, ord, flows, rfl, hrest, hcount⟩ := h
  obtain ⟨v, hv⟩ : ∃ v, flows.lookup k = some v := mem_iff_lookup.1 hk
  rw [removeAll_cons_of_some hv] at hrest hcount
  refine ⟨rfl, rfl, rfl, hlookup, hfull, ord, flows.erase k, rfl, hrest, ?_⟩
  rw [hcount, List.length_cons]
  omega

theorem Reached.gone (h : Reached a event namespace_ podName b evicted (.removing key event' (k :: keys) removed))
    (hk : k ∉ b.flows) :
    Reached a event namespace_ podName b evicted (.removing key event' keys removed) := by
  obtain ⟨rfl, rfl, rfl, hlookup, hfull, ord, flows, rfl, hrest, hcount⟩ := h
  rw [removeAll_cons_of_none (AList.lookup_eq_none.2 hk)] at hrest hcount
  exact ⟨rfl, rfl, rfl, hlookup, hfull, ord, flows, rfl, hrest, hcount⟩

theorem Reached.evictDone (h : Reached a event namespace_ podName b evicted (.removing key event' [] removed)) :
    Reached a event namespace_ podName
      { b with health := if removed > 0 then b.health.incFlowEvictions removed else b.health } evicted
      (.entry key event') := by
  obtain ⟨rfl, rfl, rfl, hlookup, hfull, ord, flows, rfl, hrest, hcount⟩ := h
  have hrest : (a.flows.removeAll (a.evictKeys ord)).1 = flows := hrest
  have hcount : (a.flows.removeAll (a.evictKeys ord)).2.length = evicted := hcount
  have hmake : a.counted.makeRoom ord = a.counted.evictOldestFlows ord := FlowAggregator.makeRoom_of_full hfull
  subst hrest hcount
  exact ⟨rfl, rfl, hlookup, ord, by rw [hmake]; rfl, by rw [hmake]; rfl⟩

theorem Reached.entry (h : Reached a event namespace_ podName b evicted (.entry key event')) (now : Instant) :
    Reached a event namespace_ podName
      { b with flows := FlowAggregator.entryInsert b.flows now key event' } evicted .capacityFlag := by
  obtain ⟨rfl, rfl, hlookup, ord, rfl, hcount⟩ := h
  exact ⟨ord, now, by rw [FlowAggregator.processEvent_of_none hlookup], by rw [FlowAggregator.processEvent_of_none hlookup]; exact hcount⟩

/-- What an uninterrupted `process_event` on `a` has done of its work, `taken` entries having been
evicted before it. -/
def Along (a : FlowAggregator) (event : NetworkFlowEvent) (namespace_ podName : String) (taken : Nat)
    (g : Shared) (pc : LoopPc) : Prop :=
  ∃ evicted, g.taken = taken + evicted ∧
    Reached a event namespace_ podName (g.agg a.maxFlows a.flowTimeout) evicted pc

theorem Along.step (h : Along a event namespace_ podName taken g pc) (hl : l.Continues)
    (hs : LoopStep a.maxFlows g pc l g' pc') : Along a event namespace_ podName taken g' pc' := by
  obtain ⟨evicted, htaken, h⟩ := h
  cases hs with
  | processEvent event namespace_ podName => exact absurd rfl (hl event namespace_ podName)
  | found key event now stats hk => exact ⟨evicted, htaken, h.found hk now⟩
  | missing key event now hk => exact ⟨evicted, htaken, h.missing hk⟩
  | full key event hfull => exact ⟨evicted, htaken, h.full hfull⟩
  | room key event hroom => exact ⟨evicted, htaken, h.room hroom⟩
  | visit key event candidates k stats hk hnew => exact ⟨evicted, htaken, h.visit hk hnew⟩
  | sort key event candidates hall => exact ⟨evicted, htaken, h.sort hall⟩
  | remove key event k candidates removed hk =>
    exact ⟨evicted + 1, congrArg (· + 1) htaken, h.remove hk⟩
  | gone key event k candidates removed hk => exact ⟨evicted, htaken, h.gone hk⟩
  | evictDone key event removed => exact ⟨evicted, htaken, h.evictDone⟩
  | entry key event now => exact ⟨evicted, htaken, h.entry now⟩
  | capacityFlag => exact ⟨evicted, htaken, h⟩

end

/-! ### `expire_old_flows` -/

/-- The action does not start a call. -/
def SweepAction.Continues (l : SweepAction) : Prop := ∀ now, l ≠ .expireOldFlows now

/-- How far an uninterrupted `expire_old_flows` has come at a program counter, from the shared state
`g₀` to `g`. -/
def SweepReached (maxFlows : Nat) (flowTimeout : Duration) (now : Instant) (g₀ g : Shared) :
    SweepPc → Prop
  | .idle => g.agg maxFlows flowTimeout = ((g₀.agg maxFlows flowTimeout).expireOldFlows now).1 ∧
      ∃ w, g.returned = g₀.returned ++ [w] ∧
        w.expired = ((g₀.agg maxFlows flowTimeout).expireOldFlows now).2
  | .lenBefore now' => now' = now ∧ g = g₀
  | .retaining now' mark decided =>
    now' = now ∧ mark.before = len g₀.flows ∧ mark.created = g₀.created.length ∧
      ∃ swept, g = { g₀ with
        flows := g₀.flows.retain fun k stats => k ∉ decided || FlowAggregator.unexpired flowTimeout now stats
        swept }
  | .capacityFlag w => w.before = len g₀.flows ∧ w.after = len g.flows ∧
      ∃ swept, g = { g₀ with
        flows := g₀.flows.retain fun _ stats => FlowAggregator.unexpired flowTimeout now stats
        swept }

section
variable {maxFlows : Nat} {flowTimeout : Duration} {now : Instant} {g₀ g g' : Shared} {pc pc' : SweepPc}
  {l : SweepAction}

theorem SweepReached.step (h : SweepReached maxFlows flowTimeout now g₀ g pc) (hl : l.Continues)
    (hs : SweepStep maxFlows flowTimeout g pc l g' pc') :
    SweepReached maxFlows flowTimeout now g₀ g' pc' := by
  cases hs with
  | expireOldFlows now => exact absurd rfl (hl now)
  | lenBefore now =>
    obtain ⟨rfl, rfl⟩ := h
    exact ⟨rfl, rfl, rfl, g.swept, by simp⟩
  | keep now mark decided k stats hk hlive =>
    obtain ⟨rfl, hbefore, hcreated, swept, rfl⟩ := h
    exact ⟨rfl, hbefore, hcreated, swept, by rw [retain_keep (lookup_retain_eq_some.1 hk).1 hlive]⟩
  | remove now mark decided k stats hk hlive =>
    obtain ⟨rfl, hbefore, hcreated, swept, rfl⟩ := h
    exact ⟨rfl, hbefore, hcreated, swept + 1,
      by rw [← retain_erase (lookup_retain_eq_some.1 hk).1 hlive]⟩
  | lenAfter now mark decided hall =>
    obtain ⟨rfl, hbefore, hcreated, swept, rfl⟩ := h
    have hdecided := fun k hk => (hall k hk).resolve_right (by simp [hcreated])
    exact ⟨hbefore, rfl, swept, by rw [retain_of_decided hdecided]⟩
  | capacityFlag sweep =>
    obtain ⟨hbefore, hafter, swept, rfl⟩ := h
    have hle := len_retain_le (fun _ st => FlowAggregator.unexpired flowTimeout now st) g₀.flows
    refine ⟨rfl, sweep, rfl, ?_⟩
    rw [Sweep.expired, hafter, hbefore, if_pos hle]
    rfl

end

/-! ### Runs -/

namespace Tasks
variable {maxFlows : Nat} {flowTimeout : Duration} {s t : Tasks}

/-- A call of `process_event` that the sweep does not interrupt is one sequential call. -/
theorem processEvent_of_run {event : NetworkFlowEvent} {namespace_ podName : String} {acts : List LoopAction}
    (hs : s.loop = .idle) (hacts : ∀ l ∈ acts, l.Continues)
    (h : run (step maxFlows flowTimeout) s
      ((.processEvent event namespace_ podName :: acts).map .loop) = some t) (ht : t.loop = .idle) :
    ∃ ord now, t.shared.agg maxFlows flowTimeout =
        ((s.shared.agg maxFlows flowTimeout).processEvent ord now event namespace_ podName).1 ∧
      t.shared.taken = s.shared.taken +
        ((s.shared.agg maxFlows flowTimeout).processEvent ord now event namespace_ podName).2.length ∧
      t.sweep = s.sweep := by
  obtain ⟨g, loop, sweep⟩ := s
  obtain rfl : loop = .idle := hs
  obtain ⟨u, hu, h⟩ := Option.bind_eq_some_iff.1 h
  obtain rfl := Option.some.inj hu
  have hstep : ∀ u a v, (Along (g.agg maxFlows flowTimeout) event namespace_ podName g.taken u.shared u.loop ∧
      u.sweep = sweep) → (∃ l, a = .loop l ∧ l.Continues) → step maxFlows flowTimeout u a = some v →
      Along (g.agg maxFlows flowTimeout) event namespace_ podName g.taken v.shared v.loop ∧
        v.sweep = sweep := by
    rintro ⟨g, loop, sweep⟩ _ v ⟨hu, hsweep⟩ ⟨l, rfl, hl⟩ hv
    obtain ⟨⟨g', pc'⟩, hr, rfl⟩ := Option.map_eq_some_iff.1 hv
    exact ⟨hu.step hl (loopStep_cases hr), hsweep⟩
  have hacts : ∀ a ∈ acts.map TaskAction.loop, ∃ l, a = .loop l ∧ l.Continues := by
    simpa using hacts
  have hstart : Along (g.agg maxFlows flowTimeout) event namespace_ podName g.taken
      { g with eventsProcessed := g.eventsProcessed + 1 } (.getMut (flowKey event namespace_ podName) event) :=
    ⟨0, rfl, rfl, rfl, rfl, rfl⟩
  obtain ⟨⟨evicted, htaken, hreached⟩, hsweep⟩ :=
    run_inv_of_forall (s := ⟨_, _, sweep⟩) hstep ⟨hstart, rfl⟩ hacts h
  rw [ht] at hreached
  obtain ⟨ord, now, hagg, rfl⟩ := hreached
  exact ⟨ord, now, hagg, htaken, hsweep⟩

/-- A table of one: the call for the second event evicts the first flow. -/
def evictingActs : List LoopAction × List LoopAction :=
  let key := flowKey (Logged.demoEvent 1) "default" "a"
  ([.processEvent (Logged.demoEvent 1) "default" "a", .getMut 0, .lenCheck, .entry 0, .capacityFlag],
    [.getMut 1, .lenCheck, .visit key, .sort, .remove, .evictDone, .entry 1, .capacityFlag])

theorem processEvent_of_run_demo :
    (run (step 1 30) init (evictingActs.1.map .loop ++
        (.processEvent (Logged.demoEvent 2) "default" "a" :: evictingActs.2).map .loop)).any
      (fun t => t.shared.taken = 1) ∧
      ∀ s t, run (step 1 30) init (evictingActs.1.map .loop) = some s →
        run (step 1 30) s ((.processEvent (Logged.demoEvent 2) "default" "a" :: evictingActs.2).map .loop) = some t →
        ∃ ord now, t.shared.agg 1 30 =
            ((s.shared.agg 1 30).processEvent ord now (Logged.demoEvent 2) "default" "a").1 ∧
          t.shared.taken = s.shared.taken +
            ((s.shared.agg 1 30).processEvent ord now (Logged.demoEvent 2) "default" "a").2.length ∧
          t.sweep = s.sweep := by
  refine ⟨by decide, fun s t hs h => ?_⟩
  have hidle : (run (step 1 30) init (evictingActs.1.map .loop)).all (fun s => s.loop = .idle) = true := by decide
  have hdone : (run (step 1 30) init (evictingActs.1.map .loop ++
      (.processEvent (Logged.demoEvent 2) "default" "a" :: evictingActs.2).map .loop)).all (fun t => t.loop = .idle) =
      true := by decide
  rw [run_append, hs, Option.bind_some, h] at hdone
  rw [hs] at hidle
  have hacts : ∀ l ∈ evictingActs.2, l.Continues := by simp [evictingActs, LoopAction.Continues]
  exact processEvent_of_run (by simpa using hidle) hacts h (by simpa using hdone)

/-- A sweep that the event loop does not interrupt is one sequential call. -/
theorem expireOldFlows_of_run {now : Instant} {acts : List SweepAction} (hs : s.sweep = .idle)
    (hacts : ∀ l ∈ acts, l.Continues)
    (h : run (step maxFlows flowTimeout) s ((.expireOldFlows now :: acts).map .sweep) = some t)
    (ht : t.sweep = .idle) :
    t.shared.agg maxFlows flowTimeout = ((s.shared.agg maxFlows flowTimeout).expireOldFlows now).1 ∧
      (∃ w, t.shared.returned = s.shared.returned ++ [w] ∧
        w.expired = ((s.shared.agg maxFlows flowTimeout).expireOldFlows now).2) ∧ t.loop = s.loop := by
  obtain ⟨g, loop, sweep⟩ := s
  obtain rfl : sweep = .idle := hs
  obtain ⟨u, hu, h⟩ := Option.bind_eq_some_iff.1 h
  obtain rfl := Option.some.inj hu
  have hstep : ∀ u a v, (SweepReached maxFlows flowTimeout now g u.shared u.sweep ∧ u.loop = loop) →
      (∃ l, a = .sweep l ∧ l.Continues) → step maxFlows flowTimeout u a = some v →
      SweepReached maxFlows flowTimeout now g v.shared v.sweep ∧ v.loop = loop := by
    rintro ⟨g', loop', sweep⟩ _ v ⟨hu, hloop⟩ ⟨l, rfl, hl⟩ hv
    obtain ⟨⟨g', pc'⟩, hr, rfl⟩ := Option.map_eq_some_iff.1 hv
    exact ⟨hu.step hl (sweepStep_cases hr), hloop⟩
  have hacts : ∀ a ∈ acts.map TaskAction.sweep, ∃ l, a = .sweep l ∧ l.Continues := by
    simpa using hacts
  obtain ⟨hreached, hloop⟩ :=
    run_inv_of_forall (s := ⟨g, loop, .lenBefore now⟩) hstep ⟨⟨rfl, rfl⟩, rfl⟩ hacts h
  rw [ht] at hreached
  obtain ⟨hagg, w, hret, hexpired⟩ := hreached
  exact ⟨hagg, ⟨w, hret, hexpired⟩, hloop⟩

/-- The flow of the first event has not been seen for longer than the timeout. -/
def sweepingActs : List SweepAction :=
  [.lenBefore, .retain (flowKey (Logged.demoEvent 1) "default" "a"), .lenAfter, .capacityFlag]

theorem expireOldFlows_of_run_demo :
    (run (step 1 30) init (evictingActs.1.map .loop ++ (.expireOldFlows 100 :: sweepingActs).map .sweep)).any
      (fun t => t.shared.swept = 1) ∧
      ∀ s t, run (step 1 30) init (evictingActs.1.map .loop) = some s →
        run (step 1 30) s ((.expireOldFlows 100 :: sweepingActs).map .sweep) = some t →
        t.shared.agg 1 30 = ((s.shared.agg 1 30).expireOldFlows 100).1 ∧
          (∃ w, t.shared.returned = s.shared.returned ++ [w] ∧
            w.expired = ((s.shared.agg 1 30).expireOldFlows 100).2) ∧ t.loop = s.loop := by
  refine ⟨by decide, fun s t hs h => ?_⟩
  have hidle : (run (step 1 30) init (evictingActs.1.map .loop)).all (fun s => s.sweep = .idle) = true := by decide
  have hdone : (run (step 1 30) init (evictingActs.1.map .loop ++
      (.expireOldFlows 100 :: sweepingActs).map .sweep)).all (fun t => t.sweep = .idle) = true := by decide
  rw [run_append, hs, Option.bind_some, h] at hdone
  rw [hs] at hidle
  have hacts : ∀ l ∈ sweepingActs, l.Continues := by simp [sweepingActs, SweepAction.Continues]
  exact expireOldFlows_of_run (by simpa using hidle) hacts h (by simpa using hdone)

end Tasks

end Orb8
