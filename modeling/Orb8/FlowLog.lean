import Orb8.Aggregator
import Orb8.Lib.KeyedFold
import Orb8.Lib.Trace
import Mathlib.Algebra.Order.BigOperators.Group.List

/-!
# The flow table summarises the event log

`Logged` runs the aggregator beside a log of what was processed and what was removed. The table is
the exact summary of that log (`KeyedFold.Exact`) whatever the capacity, the timeout and the clock,
in wrapping arithmetic; while the totals fit in 64 bits the wrapping is invisible.
-/

namespace Orb8
open AMap Trace KeyedFold FlowAggregator

/-- An event, and the reading of the clock when it was aggregated. -/
abbrev Stamped := Instant × NetworkFlowEvent

namespace FlowStats

def start (e : Stamped) : FlowStats := new e.1 e.2.timestampNs e.2.packetLen

def add (stats : FlowStats) (e : Stamped) : FlowStats := stats.update e.1 e.2.timestampNs e.2.packetLen

end FlowStats

def byteSum (es : List Stamped) : Nat := (es.map fun e => e.2.packetLen.toNat).sum

abbrev FlowLog := List (Entry FlowKey Stamped FlowStats)

abbrev ExactFlows (flows : FlowTable) (log : FlowLog) : Prop :=
  Exact FlowStats.start FlowStats.add flows log

/-- The stats are those of a flow that aggregated `es`. -/
structure FlowStats.Summarizes (stats : FlowStats) (es : List Stamped) : Prop where
  nonempty : es ≠ []
  packets : stats.packets.toNat = es.length
  bytes : stats.bytes.toNat = byteSum es
  first : es.head?.map (·.2.timestampNs) = some stats.firstSeenNs
  last : es.getLast?.map (·.2.timestampNs) = some stats.lastSeenNs

inductive FlowCall where
  | processEvent (ord : Order FlowKey FlowStats) (now : Instant) (event : NetworkFlowEvent)
    (namespace_ podName : String)
  | expireOldFlows (now : Instant)

structure Logged where
  agg : FlowAggregator
  log : FlowLog

namespace Logged

def init (maxFlows : Nat) (flowTimeout : Duration) : Logged :=
  ⟨FlowAggregator.new maxFlows flowTimeout HealthState.new, []⟩

def call (s : Logged) : FlowCall → Logged
  | .processEvent ord now event namespace_ podName =>
    let (agg, evicted) := s.agg.processEvent ord now event namespace_ podName
    ⟨agg, s.log ++ dropEntries evicted ++ [.put (flowKey event namespace_ podName) (now, event)]⟩
  | .expireOldFlows now =>
    let expired := s.agg.flows.retain fun _ stats => !unexpired s.agg.flowTimeout now stats
    ⟨(s.agg.expireOldFlows now).1, s.log ++ dropEntries expired.toList⟩

def step (s : Logged) (c : FlowCall) : Option Logged := some (s.call c)

/-- The table is an exact summary of the log. -/
structure ExactSummary (s : Logged) : Prop where
  live : ∀ k stats, s.agg.flows.lookup k = some stats → stats.Summarizes (since k s.log)
  gone : ∀ k, s.agg.flows.lookup k = none → since k s.log = []
  conserved : sumOn (fun _ stats => stats.packets.toNat) s.agg.flows +
    ((drops s.log).map fun e => e.2.packets.toNat).sum = s.agg.eventsProcessed.toNat

end Logged

/-! ### The summary of a sequence of events -/

variable {es : List Stamped} {stats : FlowStats} {flows : FlowTable} {log : FlowLog} {k : FlowKey}

theorem byteSum_snoc (es : List Stamped) (e : Stamped) :
    byteSum (es ++ [e]) = byteSum es + e.2.packetLen.toNat := by
  simp [byteSum]

theorem summary_spec (h : summary FlowStats.start FlowStats.add es = some stats) :
    stats.packets = UInt64.ofNat es.length ∧ stats.bytes = UInt64.ofNat (byteSum es) ∧
      es.head?.map (·.2.timestampNs) = some stats.firstSeenNs ∧
      es.getLast?.map (·.2.timestampNs) = some stats.lastSeenNs := by
  induction es using List.reverseRecOn generalizing stats with
  | nil => exact absurd h (by simp [summary])
  | append_singleton es e ih =>
    rw [summary_snoc] at h
    cases hs : summary FlowStats.start FlowStats.add es with
    | none =>
      obtain rfl : es = [] := by
        cases es with
        | nil => rfl
        | cons e' es => simp [summary] at hs
      rw [hs] at h
      obtain rfl := Option.some.inj h
      refine ⟨rfl, ?_, rfl, rfl⟩
      show e.2.packetLen.toUInt64 = _
      simp [byteSum]
    | some old =>
      obtain ⟨hp, hb, hf, -⟩ := ih hs
      rw [hs] at h
      obtain rfl := Option.some.inj h
      refine ⟨?_, ?_, ?_, ?_⟩
      · show old.packets + 1 = _
        rw [hp, List.length_append]
        exact (UInt64.ofNat_add _ _).symm
      · show old.bytes + e.2.packetLen.toUInt64 = _
        rw [hb, ← UInt64.ofNat_uInt16ToNat, byteSum_snoc, UInt64.ofNat_add]
      · show (es ++ [e]).head?.map _ = some old.firstSeenNs
        rw [← hf]
        cases es with
        | nil => simp [summary] at hs
        | cons e' es => rfl
      · simp [FlowStats.add, FlowStats.update]

theorem summarizes_of_summary (h : summary FlowStats.start FlowStats.add es = some stats)
    (hlen : es.length < 2 ^ 64) (hbytes : byteSum es < 2 ^ 64) : stats.Summarizes es := by
  obtain ⟨hp, hb, hf, hl⟩ := summary_spec h
  refine ⟨?_, ?_, ?_, hf, hl⟩
  · rintro rfl
    simp [summary] at h
  · rw [hp, UInt64.toNat_ofNat_of_lt' (by simpa [UInt64.size] using hlen)]
  · rw [hb, UInt64.toNat_ofNat_of_lt' (by simpa [UInt64.size] using hbytes)]

theorem length_since_le (k : FlowKey) (log : FlowLog) : (since k log).length ≤ (puts log).length :=
  (since_sublist k log).length_le.trans (List.length_filterMap_le _ _)

theorem byteSum_since_le (k : FlowKey) (log : FlowLog) :
    byteSum (since k log) ≤ byteSum ((puts log).map Prod.snd) := by
  have hsub : (since k log).Sublist ((puts log).map Prod.snd) := by
    refine (since_sublist k log).trans ?_
    generalize puts log = l
    induction l with
    | nil => exact .slnil
    | cons p l ih =>
      by_cases hp : p.1 = k
      · simpa [List.filterMap_cons, hp] using ih.cons_cons p.2
      · simpa [List.filterMap_cons, hp] using ih.cons p.2
  exact (hsub.map _).sum_le_sum fun _ _ => Nat.zero_le _

/-! ### The calls keep the table exact -/

theorem exactFlows_entryInsert (h : ExactFlows flows log) (now : Instant) (key : FlowKey)
    (event : NetworkFlowEvent) :
    ExactFlows (entryInsert flows now key event) (log ++ [.put key (now, event)]) := by
  have hput := h.put key (now, event)
  unfold entryInsert
  cases hl : flows.lookup key <;> rw [hl] at hput <;> exact hput

/-- While the number of events fits in 64 bits, inserting an event adds one to the packets held. -/
theorem sumOn_entryInsert (h : ExactFlows flows log) (hlen : (puts log).length + 1 < 2 ^ 64)
    (now : Instant) (key : FlowKey) (event : NetworkFlowEvent) :
    sumOn (fun _ stats => stats.packets.toNat) (entryInsert flows now key event) =
      sumOn (fun _ stats => stats.packets.toNat) flows + 1 := by
  unfold FlowAggregator.entryInsert
  rw [sumOn_insert]
  cases hl : flows.lookup key with
  | none =>
    rw [erase_of_notMem (by rw [← AList.lookup_eq_none, hl]), Nat.add_comm]
    rfl
  | some stats =>
    have hpackets : stats.packets = UInt64.ofNat (since key log).length :=
      (summary_spec ((h key).symm.trans hl)).1
    have hle := length_since_le key log
    have hnat : stats.packets.toNat = (since key log).length := by
      rw [hpackets, UInt64.toNat_ofNat_of_lt' (by simp only [UInt64.size]; omega)]
    have hsucc : (stats.packets + 1).toNat = stats.packets.toNat + 1 := by
      rw [UInt64.toNat_add, hnat]
      exact Nat.mod_eq_of_lt (by simp only [UInt64.toNat_one]; omega)
    rw [sumOn_of_lookup _ hl]
    show (stats.packets + 1).toNat + _ = _
    omega

namespace Logged
variable {s : Logged}

/-- What a run keeps: the table is exact in wrapping arithmetic, every event was counted, and no
packet is lost as long as their number fits in 64 bits. -/
structure Inv (s : Logged) : Prop where
  exact : ExactFlows s.agg.flows s.log
  processed : s.agg.eventsProcessed = UInt64.ofNat (puts s.log).length
  conserved : (puts s.log).length < 2 ^ 64 →
    sumOn (fun _ stats => stats.packets.toNat) s.agg.flows +
      ((drops s.log).map fun e => e.2.packets.toNat).sum = (puts s.log).length

theorem inv_init (maxFlows : Nat) (flowTimeout : Duration) : (init maxFlows flowTimeout).Inv :=
  ⟨exact_empty, rfl, fun _ => rfl⟩

theorem inv_processEvent (h : s.Inv) (ord : Order FlowKey FlowStats) (now : Instant)
    (event : NetworkFlowEvent) (namespace_ podName : String) :
    Inv ⟨(s.agg.processEvent ord now event namespace_ podName).1,
      s.log ++ dropEntries (s.agg.processEvent ord now event namespace_ podName).2 ++
        [.put (flowKey event namespace_ podName) (now, event)]⟩ := by
  obtain ⟨keys, -, htaken, hflows, hproc⟩ :=
    processEvent_cases s.agg ord now event namespace_ podName
  have hroom := h.exact.removeAll keys
  refine ⟨?_, ?_, fun hlen => ?_⟩
  · rw [hflows, htaken]
    exact exactFlows_entryInsert hroom _ _ _
  · rw [hproc, h.processed]
    simp [UInt64.ofNat_add]
  · simp only [puts_append, puts_dropEntries, puts_singleton, List.append_nil, List.length_append,
      List.length_singleton] at hlen ⊢
    have hsum := sumOn_removeAll (fun _ stats => stats.packets.toNat) s.agg.flows keys
    have hold := h.conserved (by omega)
    rw [hflows, htaken, sumOn_entryInsert hroom (by simpa using hlen)]
    simp only [drops_append, drops_dropEntries, drops_singleton_put, List.append_nil, List.map_append,
      List.sum_append]
    omega

theorem inv_expireOldFlows (h : s.Inv) (now : Instant) :
    Inv ⟨(s.agg.expireOldFlows now).1, s.log ++ dropEntries
      (s.agg.flows.retain fun _ stats => !unexpired s.agg.flowTimeout now stats).toList⟩ := by
  refine ⟨?_, ?_, fun hlen => ?_⟩
  · rw [expireOldFlows_flows]
    exact h.exact.retain fun _ stats => unexpired s.agg.flowTimeout now stats
  · simpa using h.processed
  · simp only [puts_append, puts_dropEntries, List.append_nil] at hlen ⊢
    have hsum := sumOn_retain (fun _ stats => stats.packets.toNat)
      (fun _ stats => unexpired s.agg.flowTimeout now stats) s.agg.flows
    have hold := h.conserved hlen
    simp only [expireOldFlows_flows, drops_append, drops_dropEntries, List.map_append, List.sum_append]
    have hlist (m : FlowTable) : (m.toList.map fun e => e.2.packets.toNat).sum =
        sumOn (fun _ stats => stats.packets.toNat) m := by
      simp [toList, sumOn, Function.comp_def]
    rw [hlist]
    omega

theorem inv_call (h : s.Inv) (c : FlowCall) : (s.call c).Inv := by
  cases c with
  | processEvent ord now event namespace_ podName =>
    exact inv_processEvent h ord now event namespace_ podName
  | expireOldFlows now => exact inv_expireOldFlows h now

theorem inv_run {calls : List FlowCall} {maxFlows : Nat} {flowTimeout : Duration}
    (h : run step (init maxFlows flowTimeout) calls = some s) : s.Inv :=
  run_inv (fun _ c _ hi ht => Option.some.inj ht ▸ inv_call hi c) (inv_init maxFlows flowTimeout) h

/-- After every run whose totals fit in 64 bits, the flow table is an exact summary of the log. -/
theorem exactSummary_of_run (maxFlows : Nat) (flowTimeout : Duration) (calls : List FlowCall)
    (s : Logged) (h : run step (init maxFlows flowTimeout) calls = some s)
    (hpackets : (puts s.log).length < 2 ^ 64)
    (hbytes : byteSum ((puts s.log).map Prod.snd) < 2 ^ 64) : s.ExactSummary := by
  obtain ⟨hexact, hproc, hcons⟩ := inv_run h
  refine ⟨fun k stats hl => ?_, fun k hl => ?_, ?_⟩
  · have hsum := (hexact k).symm.trans hl
    exact summarizes_of_summary hsum ((length_since_le k s.log).trans_lt hpackets)
      ((byteSum_since_le k s.log).trans_lt hbytes)
  · have hsum := (hexact k).symm.trans hl
    cases hs : since k s.log with
    | nil => rfl
    | cons e es => simp [hs, summary] at hsum
  · rw [hcons hpackets, hproc, UInt64.toNat_ofNat_of_lt' (by simpa [UInt64.size] using hpackets)]

/-- Two flows through a table of one: the second event evicts the first flow, the sweep expires the
other. -/
def demoEvent (srcPort : UInt16) : NetworkFlowEvent :=
  ⟨5, 0, 0x0500000A, 0x0600000A, srcPort, 443, protocol.TCP, direction.EGRESS, 100⟩

def demoCalls : List FlowCall :=
  [.processEvent .stored 0 (demoEvent 1) "default" "a", .processEvent .stored 1 (demoEvent 2) "default" "a",
    .processEvent .stored 2 (demoEvent 2) "default" "a", .expireOldFlows 100]

theorem exactSummary_of_run_demo :
    (run step (init 1 30) demoCalls).any (fun s => s.log.length = 5 ∧ s.agg.eventsProcessed = 3) ∧
      ∀ s, run step (init 1 30) demoCalls = some s → s.ExactSummary := by
  refine ⟨by decide, fun s h => ?_⟩
  have hs := h
  obtain rfl := Option.some.inj h
  exact exactSummary_of_run 1 30 demoCalls _ hs (by decide) (by decide)

end Logged

end Orb8
