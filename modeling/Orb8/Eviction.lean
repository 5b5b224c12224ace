import Orb8.Aggregator

/-!
# What a full table gives up

`IsBatch` is the choice that `evict_oldest_flows` makes: a prescribed number of the live flows, none
of them seen later than a flow that stays. `BatchLru` is what a call of `process_event` does with it,
as it can be seen in the table before and after the call.
-/

namespace Orb8
open AMap FlowAggregator

/-- A hundredth of the table, but at least one flow, and no more than there are. -/
def batchSize (a : FlowAggregator) : Nat := min (max (a.maxFlows / 100) 1) (len a.flows)

structure IsBatch (a : FlowAggregator) (keys : List FlowKey) : Prop where
  nodup : keys.Nodup
  live : ∀ k ∈ keys, k ∈ a.flows
  size : keys.length = batchSize a
  oldest : ∀ k stats j stats', a.flows.lookup k = some stats → a.flows.lookup j = some stats' →
    k ∈ keys → j ∉ keys → stats.lastSeen ≤ stats'.lastSeen

/-- The flows of `a` that are not in `a'`. -/
def removed (a a' : FlowAggregator) : FlowTable := a.flows.retain fun k _ => k ∉ a'.flows

/-- `a'` is the aggregator after an event of the flow `key` with `packetLen` bytes. -/
structure BatchLru (a a' : FlowAggregator) (key : FlowKey) (packetLen : UInt16) : Prop where
  spares : key ∈ a.flows ∨ len a.flows < a.maxFlows → removed a a' = ∅
  evicts : key ∉ a.flows → a.maxFlows ≤ len a.flows → len (removed a a') = batchSize a
  oldest : ∀ k stats j stats', (removed a a').lookup k = some stats → a.flows.lookup j = some stats' →
    j ∈ a'.flows → stats.lastSeen ≤ stats'.lastSeen
  counted : a'.health.flowEvictions = a.health.flowEvictions + len (removed a a')
  survivors : ∀ j, j ≠ key → j ∈ a'.flows → a'.flows.lookup j = a.flows.lookup j
  fresh : key ∉ a.flows → ∃ stats, a'.flows.lookup key = some stats ∧ stats.packets = 1 ∧
    stats.bytes = packetLen.toUInt64

section
variable {a a' : FlowAggregator} {ord : Order FlowKey FlowStats} {keys : List FlowKey} {key k : FlowKey}
  {now : Instant} {event : NetworkFlowEvent} {namespace_ podName : String}

/-! ### The candidates -/

def candidates (a : FlowAggregator) (ord : Order FlowKey FlowStats) : List (FlowKey × Instant) :=
  (ord.visit a.flows.toList).map fun e => (e.1, e.2.lastSeen)

theorem evictCount_eq (h : a.maxFlows < 2 ^ 64) : evictCount a.maxFlows = max (a.maxFlows / 100) 1 := by
  rw [evictCount, percentOf, EVICTION_PERCENT, Nat.mul_one, Nat.mod_eq_of_lt h]

theorem map_fst_candidates (a : FlowAggregator) (ord : Order FlowKey FlowStats) :
    ((candidates a ord).map Prod.fst).Perm a.flows.keys := by
  rw [candidates, List.map_map, ← map_fst_toList]
  exact (ord.perm _).map Prod.fst

theorem mem_candidates (ord : Order FlowKey FlowStats) {stats : FlowStats} (h : a.flows.lookup k = some stats) :
    (k, stats.lastSeen) ∈ candidates a ord :=
  List.mem_map.2 ⟨(k, stats), (ord.perm _).mem_iff.2 (mem_toList.2 h), rfl⟩

theorem isBatch_evictKeys (ord : Order FlowKey FlowStats) (h : a.maxFlows < 2 ^ 64) : IsBatch a (a.evictKeys ord) := by
  have htop := isTop_oldest (evictCount a.maxFlows) (candidates a ord)
  have hperm := map_fst_candidates a ord
  have hnodup : ((candidates a ord).map Prod.fst).Nodup := hperm.nodup_iff.2 a.flows.keys_nodup
  refine ⟨htop.nodup_map hnodup, ?_, ?_, ?_⟩
  · intro k hk
    obtain ⟨c, hc, rfl⟩ := List.mem_map.1 hk
    exact hperm.mem_iff.1 (List.mem_map_of_mem (htop.mem hc))
  · have hlen := hperm.length_eq
    rw [List.length_map, length_keys] at hlen
    have hkeys : (a.evictKeys ord).length = (oldest (evictCount a.maxFlows) (candidates a ord)).length :=
      List.length_map _
    rw [hkeys, htop.length, evictCount_eq h, hlen, batchSize]
  · intro k stats j stats' hk hj hin hout
    obtain ⟨c, hc, hck⟩ := List.mem_map.1 hin
    have hcand := mem_candidates ord hk
    have hceq : c = (k, stats.lastSeen) :=
      List.inj_on_of_nodup_map hnodup (htop.mem hc) hcand hck
    subst hceq
    exact htop.rel hc (mem_candidates ord hj) fun hin' => hout (List.mem_map_of_mem hin')

/-! ### The eviction -/

theorem evictOldestFlows_spec (a : FlowAggregator) (ord : Order FlowKey FlowStats) (h : a.maxFlows < 2 ^ 64) :
    (a.evictOldestFlows ord).1.flows = (a.flows.removeAll (a.evictKeys ord)).1 ∧
      (a.evictOldestFlows ord).1.health.flowEvictions = a.health.flowEvictions + (a.evictKeys ord).length := by
  have hbatch := isBatch_evictKeys ord h
  have htaken : ((a.flows.removeAll (a.evictKeys ord)).2).length = (a.evictKeys ord).length := by
    rw [← List.length_map Prod.fst, map_fst_removeAll hbatch.nodup hbatch.live]
  refine ⟨rfl, ?_⟩
  show (if ((a.flows.removeAll (a.evictKeys ord)).2).length > 0 then _ else a.health).flowEvictions = _
  rw [htaken]
  split
  · exact congrArg (a.health.flowEvictions + ·) htaken
  · omega

/-- The keys that an event evicts: a batch if its flow is new and the table full, none otherwise. -/
theorem processEvent_evicts (a : FlowAggregator) (ord : Order FlowKey FlowStats) (now : Instant)
    (event : NetworkFlowEvent) (namespace_ podName : String) (h : a.maxFlows < 2 ^ 64) :
    ∃ keys, (a.processEvent ord now event namespace_ podName).1.flows =
        entryInsert (a.flows.removeAll keys).1 now (flowKey event namespace_ podName) event ∧
      (a.processEvent ord now event namespace_ podName).1.health.flowEvictions =
        a.health.flowEvictions + keys.length ∧
      (flowKey event namespace_ podName ∈ a.flows ∨ len a.flows < a.maxFlows → keys = []) ∧
      (flowKey event namespace_ podName ∉ a.flows → a.maxFlows ≤ len a.flows → IsBatch a keys) := by
  cases hl : a.flows.lookup (flowKey event namespace_ podName) with
  | some stats =>
    have hlive : flowKey event namespace_ podName ∈ a.flows := mem_iff_lookup.2 ⟨stats, hl⟩
    rw [processEvent_of_some hl]
    refine ⟨[], ?_, ?_, fun _ => rfl, fun hn => absurd hlive hn⟩
    · simp [entryInsert, hl, updateCapacityFlag]
    · exact highFlag_flowEvictions _ _ a.health
  | none =>
    have hnew : flowKey event namespace_ podName ∉ a.flows := AList.lookup_eq_none.1 hl
    rw [processEvent_of_none hl]
    rcases lt_or_ge (len a.flows) a.maxFlows with hroom | hfull
    · rw [makeRoom_of_room (a := a.counted) hroom]
      refine ⟨[], rfl, ?_, fun _ => rfl, fun _ hfull => absurd hfull (not_le.2 hroom)⟩
      exact highFlag_flowEvictions _ _ a.health
    · obtain ⟨hflows, hcount⟩ := evictOldestFlows_spec a.counted ord h
      rw [makeRoom_of_full (a := a.counted) hfull]
      refine ⟨a.evictKeys ord, ?_, ?_, fun hroom => ?_, fun _ _ => isBatch_evictKeys ord h⟩
      · exact congrArg (entryInsert · now (flowKey event namespace_ podName) event) hflows
      · exact (highFlag_flowEvictions ..).trans hcount
      · exact absurd hfull (not_le.2 (hroom.resolve_left hnew))

/-! ### What is gone, and what is left -/

section
variable (hlive : ∀ k ∈ keys, k ∈ a.flows) (hnew : key ∈ a.flows → key ∉ keys)
  (hflows : a'.flows = entryInsert (a.flows.removeAll keys).1 now key event)
include hflows

theorem lookup_of_ne (hk : k ≠ key) :
    a'.flows.lookup k = if k ∈ keys then none else a.flows.lookup k := by
  rw [hflows, entryInsert, AList.lookup_insert_ne hk, lookup_removeAll]

include hlive hnew

theorem mem_removed_iff (k : FlowKey) : k ∈ removed a a' ↔ k ∈ keys := by
  simp only [mem_iff_lookup, removed, lookup_retain_eq_some, decide_eq_true_iff]
  by_cases hk : k = key
  · subst hk
    have hin : ∃ v, a'.flows.lookup k = some v := ⟨_, by rw [hflows, entryInsert, AList.lookup_insert]⟩
    constructor
    · rintro ⟨-, -, hout⟩
      exact absurd hin hout
    · intro hkey
      exact absurd hkey (hnew (hlive k hkey))
  · rw [lookup_of_ne hflows hk]
    constructor
    · rintro ⟨stats, hl, hout⟩
      by_contra hn
      rw [if_neg hn] at hout
      exact hout ⟨stats, hl⟩
    · intro hin
      obtain ⟨stats, hl⟩ := mem_iff_lookup.1 (hlive k hin)
      exact ⟨stats, hl, by simp [hin]⟩

theorem len_removed (hn : keys.Nodup) : len (removed a a') = keys.length :=
  len_eq_length hn (mem_removed_iff hlive hnew hflows)

end

/-- In every table, with every capacity that a `usize` can hold, an event evicts nothing if its flow is
live or the table has room, and a batch of the least recently seen flows otherwise; all else stays. -/
theorem processEvent_batchLru (a : FlowAggregator) (ord : Order FlowKey FlowStats) (now : Instant)
    (event : NetworkFlowEvent) (namespace_ podName : String) (h : a.maxFlows < 2 ^ 64) :
    BatchLru a (a.processEvent ord now event namespace_ podName).1 (flowKey event namespace_ podName)
      event.packetLen := by
  obtain ⟨keys, hflows, hcount, hnone, hbatch⟩ := processEvent_evicts a ord now event namespace_ podName h
  generalize (a.processEvent ord now event namespace_ podName).1 = a' at *
  generalize flowKey event namespace_ podName = key at *
  have hcases : keys = [] ∨ (key ∉ a.flows ∧ a.maxFlows ≤ len a.flows ∧ IsBatch a keys) := by
    by_cases hroom : key ∈ a.flows ∨ len a.flows < a.maxFlows
    · exact .inl (hnone hroom)
    · obtain ⟨hnew, hfull⟩ := not_or.1 hroom
      exact .inr ⟨hnew, not_lt.1 hfull, hbatch hnew (not_lt.1 hfull)⟩
  obtain ⟨hn, hlive, hnew⟩ : keys.Nodup ∧ (∀ k ∈ keys, k ∈ a.flows) ∧ (key ∈ a.flows → key ∉ keys) := by
    rcases hcases with rfl | ⟨hnew, -, hb⟩
    · exact ⟨.nil, by simp, by simp⟩
    · exact ⟨hb.nodup, hb.live, fun hin => absurd hin hnew⟩
  have hmem := mem_removed_iff hlive hnew hflows
  have hlen := len_removed hlive hnew hflows hn
  refine ⟨fun hroom => ?_, fun hfresh hfull => ?_, ?_, by rw [hcount, hlen], ?_, fun hfresh => ?_⟩
  · rw [hnone hroom] at hlen
    exact eq_empty_of_len hlen
  · rw [hlen, (hbatch hfresh hfull).size]
  · intro k stats j stats' hk hj hstays
    have hin : k ∈ keys := (hmem k).1 (mem_iff_lookup.2 ⟨stats, hk⟩)
    have hout : j ∉ keys := by
      intro hin'
      obtain ⟨_, hl⟩ := mem_iff_lookup.1 ((hmem j).2 hin')
      have hgone := (lookup_retain_eq_some.1 hl).2
      exact absurd hstays (by simpa using hgone)
    rcases hcases with rfl | ⟨-, -, hb⟩
    · exact absurd hin List.not_mem_nil
    · exact hb.oldest k stats j stats' (lookup_retain_eq_some.1 hk).1 hj hin hout
  · intro j hj hstays
    rw [lookup_of_ne hflows hj]
    refine if_neg fun hin => ?_
    obtain ⟨_, hl⟩ := mem_iff_lookup.1 hstays
    rw [lookup_of_ne hflows hj, if_pos hin] at hl
    cases hl
  · have hnone : (a.flows.removeAll keys).1.lookup key = none := by
      rw [lookup_removeAll, AList.lookup_eq_none.2 hfresh, ite_self]
    refine ⟨FlowStats.new now event.timestampNs event.packetLen, ?_, rfl, rfl⟩
    rw [hflows, entryInsert, AList.lookup_insert, hnone]

/-- A table of one flow, in which an event of another one arrives. -/
def udpEvent (srcPort : UInt16) : NetworkFlowEvent :=
  ⟨5, 0, 0x0500000A, 0x0600000A, srcPort, 53, protocol.UDP, direction.EGRESS, 100⟩

def fullTable : FlowAggregator :=
  ((FlowAggregator.new 1 30 HealthState.new).processEvent .stored 0 (udpEvent 1) "default" "a").1

theorem processEvent_batchLru_full :
    len (removed fullTable (fullTable.processEvent .stored 1 (udpEvent 2) "default" "a").1) = 1 ∧
      BatchLru fullTable (fullTable.processEvent .stored 1 (udpEvent 2) "default" "a").1
        (flowKey (udpEvent 2) "default" "a") 100 :=
  ⟨by decide, processEvent_batchLru fullTable .stored 1 (udpEvent 2) "default" "a" (by decide)⟩

end

end Orb8
