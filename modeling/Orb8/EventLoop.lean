import Orb8.PodCache
import Orb8.FlowLog
import Orb8.GrpcServer

/-!
# The event loop (`main.rs`)

What the loop does with a batch of polled events: skip the agent's own traffic, look both endpoints
up, aggregate the event under one pod's name, and broadcast it under the same name. The trace and the
table account for the same events along two paths; `Agrees` compares them where a reader can: by what
is rendered.
-/

namespace Orb8
open AMap Trace KeyedFold FlowAggregator

def podIdentity (pod : PodMetadata) : String × String := (pod.namespace_, pod.podName)

def enrich (cache : PodCache) (event : NetworkFlowEvent) : String × String :=
  let srcPod := (cache.getByIp event.srcIp).map podIdentity
  let dstPod := (cache.getByIp event.dstIp).map podIdentity
  if event.direction = direction.INGRESS then (dstPod.or srcPod).getD ("external", "unknown")
  else (srcPod.or dstPod).getD ("external", "unknown")

def networkEvent (event : NetworkFlowEvent) (namespace_ podName : String) : NetworkEvent where
  namespace_ := namespace_
  podName := podName
  srcIp := formatIpv4 event.srcIp
  dstIp := formatIpv4 event.dstIp
  srcPort := event.srcPort.toUInt32
  dstPort := event.dstPort.toUInt32
  protocol := formatProtocol event.protocol
  direction := formatDirection event.direction
  bytes := event.packetLen.toUInt32
  timestampNs := event.timestampNs.toInt64

/-- The flow table with its log, and every event handed to the broadcast channel so far. -/
structure EventLoop where
  logged : Logged
  sent : List NetworkEvent

/-- A polled event, with the pod cache, the clock and the iteration order it is handled under. -/
structure Polled where
  event : NetworkFlowEvent
  cache : PodCache
  now : Instant
  ord : Order FlowKey FlowStats

structure LoopConfig where
  grpcPort : UInt16
  localIps : Finset UInt32
  maxFlows : Nat
  flowTimeout : Duration

inductive LoopEvent where
  | poll (batch : List Polled)
  /-- The expiration task runs between two batches. -/
  | expireOldFlows (now : Instant)

namespace EventLoop

def init (cfg : LoopConfig) : EventLoop := ⟨.init cfg.maxFlows cfg.flowTimeout, []⟩

/-- The body of the loop over a batch. -/
def handleEvent (cfg : LoopConfig) (s : EventLoop) (p : Polled) : EventLoop :=
  if isSelfTraffic p.event cfg.grpcPort cfg.localIps then s
  else
    let (namespace_, podName) := enrich p.cache p.event
    { logged := s.logged.call (.processEvent p.ord p.now p.event namespace_ podName)
      sent := s.sent ++ [networkEvent p.event namespace_ podName] }

def step (cfg : LoopConfig) (s : EventLoop) : LoopEvent → Option EventLoop
  | .poll batch => some (batch.foldl (handleEvent cfg) s)
  | .expireOldFlows now => some { s with logged := s.logged.call (.expireOldFlows now) }

end EventLoop

/-! ### What is rendered -/

/-- The fields that tell rendered flows apart. -/
structure Identity where
  namespace_ : String
  podName : String
  srcIp : String
  dstIp : String
  srcPort : UInt32
  dstPort : UInt32
  protocol : String
  direction : String
deriving DecidableEq, Repr

def NetworkEvent.identity (e : NetworkEvent) : Identity :=
  ⟨e.namespace_, e.podName, e.srcIp, e.dstIp, e.srcPort, e.dstPort, e.protocol, e.direction⟩

def NetworkFlow.identity (f : NetworkFlow) : Identity :=
  ⟨f.namespace_, f.podName, f.srcIp, f.dstIp, f.srcPort, f.dstPort, f.protocol, f.direction⟩

def FlowKey.identity (k : FlowKey) : Identity :=
  ⟨k.namespace_, k.podName, formatIpv4 k.srcIp, formatIpv4 k.dstIp, k.srcPort.toUInt32,
    k.dstPort.toUInt32, formatProtocol k.protocol, formatDirection k.direction⟩

/-- Two totals are equal in `u64` arithmetic, and equal as numbers while the trace's fits. -/
def TotalsAgree (trace rows : Nat) : Prop := rows ≡ trace [MOD 2 ^ 64] ∧ (trace < 2 ^ 64 → rows = trace)

structure Agrees (i : Identity) (sent : List NetworkEvent) (rows : List NetworkFlow) : Prop where
  packets : TotalsAgree (sent.filter fun e => e.identity = i).length
    ((rows.filter fun f => f.identity = i).map fun f => f.packets.toNat).sum
  bytes : TotalsAgree ((sent.filter fun e => e.identity = i).map fun e => e.bytes.toNat).sum
    ((rows.filter fun f => f.identity = i).map fun f => f.bytes.toNat).sum

theorem identity_networkEvent (event : NetworkFlowEvent) (namespace_ podName : String) :
    (networkEvent event namespace_ podName).identity = (flowKey event namespace_ podName).identity := rfl

/-! ### Sums -/

theorem sum_map_mod_modEq (n : Nat) (l : List Nat) : (l.map (· % n)).sum ≡ l.sum [MOD n] := by
  induction l with
  | nil => rfl
  | cons a l ih => exact (Nat.mod_modEq a n).add ih

theorem sum_map_mod_of_lt {n : Nat} {l : List Nat} (h : l.sum < n) : (l.map (· % n)).sum = l.sum := by
  induction l with
  | nil => rfl
  | cons a l ih =>
    rw [List.sum_cons] at h
    rw [List.map_cons, List.sum_cons, List.sum_cons, ih (by omega), Nat.mod_eq_of_lt (by omega)]

theorem sum_map_filter {α : Type*} (p : α → Bool) (f : α → Nat) (l : List α) :
    ((l.filter p).map f).sum = (l.map fun x => if p x then f x else 0).sum := by
  induction l with
  | nil => rfl
  | cons a l ih => by_cases hp : p a <;> simp [hp, ih]

namespace EventLoop
variable {cfg : LoopConfig} {s t : EventLoop} {i : Identity}

/-- What a run keeps: the table is exact for its log, and the trace is the log, rendered. -/
structure Inv (s : EventLoop) : Prop where
  logged : s.logged.Inv
  sent : s.sent = (puts s.logged.log).map fun p => networkEvent p.2.2 p.1.namespace_ p.1.podName
  key : ∀ p ∈ puts s.logged.log, p.1 = flowKey p.2.2 p.1.namespace_ p.1.podName

theorem inv_handleEvent (h : s.Inv) (p : Polled) : (handleEvent cfg s p).Inv := by
  obtain ⟨hlog, hsent, hkey⟩ := h
  unfold handleEvent
  by_cases hself : isSelfTraffic p.event cfg.grpcPort cfg.localIps
  · rw [if_pos hself]
    exact ⟨hlog, hsent, hkey⟩
  · rw [if_neg hself]
    have hcall := fun c => Logged.inv_call hlog c
    refine ⟨hcall (.processEvent ..), ?_, fun q hq => ?_⟩
    · simp [Logged.call, hsent, flowKey]
    · simp only [Logged.call, puts_append, puts_dropEntries, puts_singleton, List.append_nil,
        List.mem_append, List.mem_singleton] at hq
      rcases hq with hq | rfl
      · exact hkey q hq
      · rfl

theorem inv_poll (h : s.Inv) (batch : List Polled) : (batch.foldl (handleEvent cfg) s).Inv := by
  induction batch generalizing s with
  | nil => exact h
  | cons p batch ih => exact ih (inv_handleEvent h p)

theorem inv_step {a : LoopEvent} (h : s.Inv) (ht : step cfg s a = some t) : t.Inv := by
  cases a with
  | poll batch =>
    obtain rfl := Option.some.inj ht
    exact inv_poll h batch
  | expireOldFlows now =>
    obtain rfl := Option.some.inj ht
    refine ⟨Logged.inv_call h.logged (.expireOldFlows now), ?_, ?_⟩
    · simpa [Logged.call] using h.sent
    · simpa [Logged.call] using h.key

theorem inv_init (cfg : LoopConfig) : (init cfg).Inv :=
  ⟨Logged.inv_init cfg.maxFlows cfg.flowTimeout, rfl, fun _ hp => absurd hp List.not_mem_nil⟩

theorem inv_run {acts : List LoopEvent} (h : run (step cfg) (init cfg) acts = some s) : s.Inv :=
  run_inv (fun _ _ _ hi ht => inv_step hi ht) (inv_init cfg) h

theorem sum_sent (h : s.Inv) (i : Identity) (weight : NetworkEvent → Nat) (w : Stamped → Nat)
    (hw : ∀ e namespace_ podName, weight (networkEvent e.2 namespace_ podName) = w e) :
    ((s.sent.filter fun e => e.identity = i).map weight).sum =
      ((puts s.logged.log).map fun p => if p.1.identity = i then w p.2 else 0).sum := by
  rw [sum_map_filter, h.sent, List.map_map]
  refine congrArg List.sum (List.map_congr_left fun p hp => ?_)
  have hid : (networkEvent p.2.2 p.1.namespace_ p.1.podName).identity = p.1.identity := by
    rw [identity_networkEvent, ← h.key p hp]
  simp [hid, hw]

theorem totalsAgree_rows (h : s.Inv) (hkept : drops s.logged.log = []) {rows : List NetworkFlow}
    (hperm : rows.Perm (s.logged.agg.flows.toList.map fun e => networkFlow e.1 e.2)) (i : Identity)
    (field : NetworkFlow → UInt64) (w : Stamped → Nat)
    (hfield : ∀ k es stats, summary FlowStats.start FlowStats.add es = some stats →
      field (networkFlow k stats) = UInt64.ofNat (es.map w).sum) :
    TotalsAgree ((puts s.logged.log).map fun p => if p.1.identity = i then w p.2 else 0).sum
      ((rows.filter fun f => f.identity = i).map fun f => (field f).toNat).sum := by
  have hexact := h.logged.exact
  let flows := s.logged.agg.flows.toList.filter fun e => e.1.identity = i
  have hrows : ((rows.filter fun f => f.identity = i).map fun f => (field f).toNat).sum =
      ((flows.map fun e => ((since e.1 s.logged.log).map w).sum).map (· % 2 ^ 64)).sum := by
    rw [((hperm.filter _).map _).sum_eq, List.filter_map, List.map_map, List.map_map]
    refine congrArg List.sum (List.map_congr_left fun e he => ?_)
    have hl := mem_toList.1 (List.mem_filter.1 he).1
    show (field (networkFlow e.1 e.2)).toNat = _
    rw [hfield e.1 _ e.2 ((hexact e.1).symm.trans hl)]
    simp
  have htotal : (flows.map fun e => ((since e.1 s.logged.log).map w).sum).sum =
      ((puts s.logged.log).map fun p => if p.1.identity = i then w p.2 else 0).sum := by
    rw [← hexact.sumOn_since hkept fun k e => if k.identity = i then w e else 0, sum_map_filter, toList,
      List.map_map, sumOn]
    refine congrArg List.sum (List.map_congr_left fun e _ => ?_)
    by_cases hid : e.1.identity = i <;> simp [hid]
  rw [hrows, ← htotal]
  exact ⟨sum_map_mod_modEq _ _, sum_map_mod_of_lt⟩

/-- After every run in which no flow was removed and the flows fit in one response, the trace and an
unfiltered query agree on every rendered identity. -/
theorem agrees_of_run (cfg : LoopConfig) (acts : List LoopEvent) (s : EventLoop)
    (h : run (step cfg) (init cfg) acts = some s) (hkept : drops s.logged.log = [])
    (ord : Order FlowKey FlowStats) (maxQueryLimit : Nat) (limit : UInt32)
    (hmax : len s.logged.agg.flows ≤ maxQueryLimit)
    (hlimit : limit = 0 ∨ len s.logged.agg.flows ≤ limit.toNat) (i : Identity) :
    Agrees i s.sent (queryFlows s.logged.agg ord maxQueryLimit ⟨[], [], limit⟩) := by
  have hinv := inv_run h
  have hperm := perm_queryFlows hmax hlimit ord
  constructor
  · have hrows := totalsAgree_rows hinv hkept hperm i (·.packets) (fun _ => 1) fun k es stats hs => by
      show stats.packets = _
      simpa using (summary_spec hs).1
    rw [← sum_sent hinv i (fun _ => 1) (fun _ => 1) fun _ _ _ => rfl] at hrows
    simpa using hrows
  · have hrows := totalsAgree_rows hinv hkept hperm i (·.bytes) (fun e => e.2.packetLen.toNat)
      fun k es stats hs => (summary_spec hs).2.1
    rw [← sum_sent hinv i (fun e => e.bytes.toNat) (fun e => e.2.packetLen.toNat) fun e _ _ => by
      simp [networkEvent]] at hrows
    exact hrows

/-- Two flows that differ only in a protocol without a name of its own: one identity, two rows. -/
def demoPolled (protocol : UInt8) : Polled where
  event := ⟨5, 0, 0x0500000A, 0x0600000A, 0, 0, protocol, direction.EGRESS, 100⟩
  cache := PodCache.new 10 HealthState.new
  now := 0
  ord := .stored

def demo : EventLoop :=
  [demoPolled 50, demoPolled 51, demoPolled 51].foldl (handleEvent ⟨9090, ∅, 10, 30⟩)
    (init ⟨9090, ∅, 10, 30⟩)

theorem agrees_of_run_demo :
    demo.sent.length = 3 ∧ len demo.logged.agg.flows = 2 ∧
      ∀ i, Agrees i demo.sent (queryFlows demo.logged.agg .stored 10 ⟨[], [], 0⟩) :=
  ⟨by decide, by decide, fun i => agrees_of_run ⟨9090, ∅, 10, 30⟩
    [.poll [demoPolled 50, demoPolled 51, demoPolled 51]] demo rfl (by decide) .stored 10 0 (by decide)
    (.inl rfl) i⟩

end EventLoop

end Orb8
