import Orb8.Common
import Orb8.Health
import Orb8.Lib.AMap
import Orb8.Lib.TopK

/-!
# The flow table (`aggregator.rs`)

`FlowAggregator` with each call run to its end before the next one starts. `Instant`s and `Duration`s
count nanoseconds. `u64` arithmetic wraps, as it does in a release build; so do the `usize` products
of the watermarks. Two things the code leaves open are arguments: the reading of the clock, and the
order in which the iterator of the table visits its entries.
-/

namespace Orb8
open AMap TopK

/-- `std::time::Instant`. -/
abbrev Instant := Int

/-- `std::time::Duration`. -/
abbrev Duration := Nat

structure FlowKey where
  namespace_ : String
  podName : String
  srcIp : UInt32
  dstIp : UInt32
  srcPort : UInt16
  dstPort : UInt16
  protocol : UInt8
  direction : UInt8
deriving DecidableEq, Repr

structure FlowStats where
  bytes : UInt64
  packets : UInt64
  firstSeen : Instant
  lastSeen : Instant
  firstSeenNs : UInt64
  lastSeenNs : UInt64
deriving DecidableEq, Repr

namespace FlowStats

def new (now : Instant) (timestampNs : UInt64) (bytes : UInt16) : FlowStats where
  bytes := bytes.toUInt64
  packets := 1
  firstSeen := now
  lastSeen := now
  firstSeenNs := timestampNs
  lastSeenNs := timestampNs

def update (stats : FlowStats) (now : Instant) (timestampNs : UInt64) (bytes : UInt16) : FlowStats :=
  { stats with
    bytes := stats.bytes + bytes.toUInt64
    packets := stats.packets + 1
    lastSeen := now
    lastSeenNs := timestampNs }

end FlowStats

def CAPACITY_HIGH_WATERMARK : Nat := 95
def CAPACITY_LOW_WATERMARK : Nat := 80
def EVICTION_PERCENT : Nat := 1

/-- `max_flows * percent / 100` on `usize`. -/
def percentOf (maxFlows percent : Nat) : Nat := maxFlows * percent % 2 ^ 64 / 100

def evictCount (maxFlows : Nat) : Nat := max (percentOf maxFlows EVICTION_PERCENT) 1

/-- The candidates of an eviction: the `n` least recently seen, the ones visited first where equal. -/
def oldest (n : Nat) (candidates : List (FlowKey × Instant)) : List (FlowKey × Instant) :=
  (candidates.insertionSort fun a b => a.2 ≤ b.2).take n

instance : Std.Total fun a b : FlowKey × Instant => a.2 ≤ b.2 := ⟨fun a b => le_total a.2 b.2⟩

instance : IsTrans (FlowKey × Instant) fun a b => a.2 ≤ b.2 := ⟨fun _ _ _ hab hbc => hab.trans hbc⟩

theorem isTop_oldest (n : Nat) (candidates : List (FlowKey × Instant)) :
    IsTop (fun a b => a.2 ≤ b.2) n candidates (oldest n candidates) := isTop_take_insertionSort n candidates

def flowKey (event : NetworkFlowEvent) (namespace_ podName : String) : FlowKey where
  namespace_ := namespace_
  podName := podName
  srcIp := event.srcIp
  dstIp := event.dstIp
  srcPort := event.srcPort
  dstPort := event.dstPort
  protocol := event.protocol
  direction := event.direction

/-- The capacity flag after a length is compared with the high watermark. -/
def highFlag (maxFlows len : Nat) (health : HealthState) : HealthState :=
  if len ≥ percentOf maxFlows CAPACITY_HIGH_WATERMARK then health.setFlowTableAtCapacity true else health

def lowFlag (maxFlows len : Nat) (health : HealthState) : HealthState :=
  if len < percentOf maxFlows CAPACITY_LOW_WATERMARK then health.setFlowTableAtCapacity false else health

@[simp] theorem highFlag_flowEvictions (maxFlows len : Nat) (health : HealthState) :
    (highFlag maxFlows len health).flowEvictions = health.flowEvictions := by
  unfold highFlag; split <;> simp

@[simp] theorem lowFlag_flowEvictions (maxFlows len : Nat) (health : HealthState) :
    (lowFlag maxFlows len health).flowEvictions = health.flowEvictions := by
  unfold lowFlag; split <;> simp

abbrev FlowTable := AMap FlowKey FlowStats

structure FlowAggregator where
  flows : FlowTable
  eventsProcessed : UInt64
  flowTimeout : Duration
  maxFlows : Nat
  health : HealthState
deriving DecidableEq

namespace FlowAggregator

def new (maxFlows : Nat) (flowTimeout : Duration) (health : HealthState) : FlowAggregator :=
  ⟨∅, 0, flowTimeout, maxFlows, health⟩

/-- Also returns what the `remove` calls took out of the table. -/
def evictOldestFlows (a : FlowAggregator) (ord : Order FlowKey FlowStats) :
    FlowAggregator × List (FlowKey × FlowStats) :=
  let candidates := (ord.visit a.flows.toList).map fun e => (e.1, e.2.lastSeen)
  let (flows, taken) := a.flows.removeAll ((oldest (evictCount a.maxFlows) candidates).map Prod.fst)
  let evicted := taken.length
  let health := if evicted > 0 then a.health.incFlowEvictions evicted else a.health
  ({ a with flows, health }, taken)

/-- The keys that an eviction takes out. -/
def evictKeys (a : FlowAggregator) (ord : Order FlowKey FlowStats) : List FlowKey :=
  (oldest (evictCount a.maxFlows)
    ((ord.visit a.flows.toList).map fun e => (e.1, e.2.lastSeen))).map Prod.fst

def updateCapacityFlag (a : FlowAggregator) : FlowAggregator :=
  { a with health := highFlag a.maxFlows (len a.flows) a.health }

/-- `flows.entry(key).and_modify(..).or_insert_with(..)`. -/
def entryInsert (flows : FlowTable) (now : Instant) (key : FlowKey) (event : NetworkFlowEvent) : FlowTable :=
  flows.insert key <| match flows.lookup key with
    | some stats => stats.update now event.timestampNs event.packetLen
    | none => FlowStats.new now event.timestampNs event.packetLen

/-- `evict_oldest_flows`, if the table is full. -/
def makeRoom (a : FlowAggregator) (ord : Order FlowKey FlowStats) :
    FlowAggregator × List (FlowKey × FlowStats) :=
  if len a.flows ≥ a.maxFlows then a.evictOldestFlows ord else (a, [])

/-- Also returns the entries that the call evicted. -/
def processEvent (a : FlowAggregator) (ord : Order FlowKey FlowStats) (now : Instant)
    (event : NetworkFlowEvent) (namespace_ podName : String) :
    FlowAggregator × List (FlowKey × FlowStats) :=
  let a := { a with eventsProcessed := a.eventsProcessed + 1 }
  let key := flowKey event namespace_ podName
  match a.flows.lookup key with
  | some stats =>
    let a := { a with flows := a.flows.insert key (stats.update now event.timestampNs event.packetLen) }
    (a.updateCapacityFlag, [])
  | none =>
    let (a, evicted) := a.makeRoom ord
    let a := { a with flows := entryInsert a.flows now key event }
    (a.updateCapacityFlag, evicted)

def getFlows (a : FlowAggregator) (ord : Order FlowKey FlowStats) (namespaces : List String) :
    List (FlowKey × FlowStats) :=
  (ord.visit a.flows.toList).filter fun e => namespaces.isEmpty || namespaces.contains e.1.namespace_

def activeFlowCount (a : FlowAggregator) : Nat := len a.flows

/-- What the closure of `retain` returns. -/
def unexpired (flowTimeout : Duration) (now : Instant) (stats : FlowStats) : Bool :=
  stats.lastSeen > now - flowTimeout

def expireOldFlows (a : FlowAggregator) (now : Instant) : FlowAggregator × Nat :=
  let before := len a.flows
  let a := { a with flows := a.flows.retain fun _ stats => unexpired a.flowTimeout now stats }
  let expired := before - len a.flows
  ({ a with health := lowFlag a.maxFlows (len a.flows) a.health }, expired)

variable {a : FlowAggregator} {ord : Order FlowKey FlowStats} {now : Instant}
  {event : NetworkFlowEvent} {namespace_ podName : String}

/-! ### What the calls do to the table -/

theorem evictOldestFlows_cases (a : FlowAggregator) (ord : Order FlowKey FlowStats) :
    ∃ keys, (a.evictOldestFlows ord).1.flows = (a.flows.removeAll keys).1 ∧
      (a.evictOldestFlows ord).2 = (a.flows.removeAll keys).2 ∧
      (a.evictOldestFlows ord).1.eventsProcessed = a.eventsProcessed :=
  ⟨_, rfl, rfl, rfl⟩

theorem makeRoom_cases (a : FlowAggregator) (ord : Order FlowKey FlowStats) :
    ∃ keys, (a.makeRoom ord).1.flows = (a.flows.removeAll keys).1 ∧
      (a.makeRoom ord).2 = (a.flows.removeAll keys).2 ∧
      (a.makeRoom ord).1.eventsProcessed = a.eventsProcessed := by
  unfold makeRoom
  split
  · exact evictOldestFlows_cases a ord
  · exact ⟨[], rfl, rfl, rfl⟩

theorem len_entryInsert_le (flows : FlowTable) (now : Instant) (key : FlowKey) (event : NetworkFlowEvent) :
    len (entryInsert flows now key event) ≤ len flows + 1 :=
  len_insert_le flows key _

theorem makeRoom_of_room (h : len a.flows < a.maxFlows) : a.makeRoom ord = (a, []) := if_neg (not_le.2 h)

theorem makeRoom_of_full (h : a.maxFlows ≤ len a.flows) : a.makeRoom ord = a.evictOldestFlows ord := if_pos h

def counted (a : FlowAggregator) : FlowAggregator := { a with eventsProcessed := a.eventsProcessed + 1 }

theorem processEvent_of_some {stats : FlowStats}
    (h : a.flows.lookup (flowKey event namespace_ podName) = some stats) :
    a.processEvent ord now event namespace_ podName =
      ({ a.counted with
        flows := a.flows.insert (flowKey event namespace_ podName)
          (stats.update now event.timestampNs event.packetLen) }.updateCapacityFlag, []) := by
  simp only [processEvent, h]
  rfl

theorem processEvent_of_none (h : a.flows.lookup (flowKey event namespace_ podName) = none) :
    a.processEvent ord now event namespace_ podName =
      ({ (a.counted.makeRoom ord).1 with
        flows := entryInsert (a.counted.makeRoom ord).1.flows now
          (flowKey event namespace_ podName) event }.updateCapacityFlag, (a.counted.makeRoom ord).2) := by
  simp only [processEvent, h]
  rfl

/-- On both of its paths, `process_event` evicts a list of keys, none of them the key of the event,
and then updates or inserts the entry of the event. -/
theorem processEvent_cases (a : FlowAggregator) (ord : Order FlowKey FlowStats) (now : Instant)
    (event : NetworkFlowEvent) (namespace_ podName : String) :
    ∃ keys, flowKey event namespace_ podName ∉ (a.flows.removeAll keys).2.map Prod.fst ∧
      (a.processEvent ord now event namespace_ podName).2 = (a.flows.removeAll keys).2 ∧
      (a.processEvent ord now event namespace_ podName).1.flows =
        entryInsert (a.flows.removeAll keys).1 now (flowKey event namespace_ podName) event ∧
      (a.processEvent ord now event namespace_ podName).1.eventsProcessed = a.eventsProcessed + 1 := by
  cases hl : a.flows.lookup (flowKey event namespace_ podName) with
  | some stats =>
    rw [processEvent_of_some hl]
    refine ⟨[], by simp, rfl, ?_, rfl⟩
    simp [entryInsert, hl, updateCapacityFlag]
  | none =>
    rw [processEvent_of_none hl]
    obtain ⟨keys, hflows, htaken, hproc⟩ := makeRoom_cases a.counted ord
    refine ⟨keys, ?_, htaken, ?_, hproc⟩
    · simp [mem_removeAll, hl]
    · exact congrArg (entryInsert · now (flowKey event namespace_ podName) event) hflows

@[simp] theorem expireOldFlows_flows : (a.expireOldFlows now).1.flows =
    a.flows.retain fun _ stats => unexpired a.flowTimeout now stats := rfl

@[simp] theorem expireOldFlows_eventsProcessed :
    (a.expireOldFlows now).1.eventsProcessed = a.eventsProcessed := rfl

end FlowAggregator

end Orb8
