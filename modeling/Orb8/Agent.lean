import Orb8.Attribution
import Orb8.Config
import Orb8.PacketParse
import Orb8.ProbeLoader
import Orb8.SharedHealth

/-!
# The agent (`main.rs`)

All the tasks of one agent on what they share: the probes write the ring buffer and the kernel's drop
counter, the main loop takes events from the ring through the pod cache into the flow table and onto
the broadcast channel, the pod watcher writes the cache, the expiration task sweeps the table,
subscribers come and go. The tasks interleave between any two calls of the main loop on shared state:
its two lookups of one event may see two states of the cache, and a sweep may run between the
aggregation of an event and its broadcast.

There is one `HealthState`. A component is handed it for the time of a call.
-/

namespace Orb8
open AMap Trace

/-- What a deployment fixes before the agent starts. -/
structure AgentEnv where
  config : AgentConfig
  /-- What `resolve_local_ips` returned. -/
  localIps : Finset UInt32
  podWatcher : PodWatcher
  /-- How many events the channel retains; it may be more than `broadcast_channel_size`. -/
  slots : Nat

/-- Where the main task is. A batch that is being handled is in the program counter. -/
inductive MainPc where
  | starting
  | select
  /-- In `poll_events`. -/
  | polling
  | forEach (events : List NetworkFlowEvent)
  | dstLookup (event : NetworkFlowEvent) (srcPod : Option PodMetadata) (events : List NetworkFlowEvent)
  | aggregating (event : NetworkFlowEvent) (namespace_ podName : String) (events : List NetworkFlowEvent)
  | sending (event : NetworkEvent) (events : List NetworkFlowEvent)
  | stopped

structure Agent where
  pc : MainPc
  ring : PollState
  /-- `EVENTS_DROPPED`, in the kernel. -/
  kernelDropped : UInt64
  /-- `events_dropped_reader` returned a map. -/
  dropCounterMap : Bool
  /-- `events_dropped`, as last copied from the kernel. -/
  eventsDropped : UInt64
  watcher : WatcherState
  flows : Logged
  channel : Broadcast.Channel NetworkEvent
  subscribers : AMap Nat Subscriber
  health : HealthState

inductive AgentAction where
  /-- A frame passes a hook. -/
  | frame (egress : Bool) (env : ProbeEnv) (ctx : TcContext)
  /-- `attach_to_interfaces` has succeeded. -/
  | attached (dropCounterMap : Bool)
  /-- The sleep of the loop is over; `readable` is whether the map can be read. -/
  | poll (readable : Bool)
  /-- `RingBuf::next` and the loop body of `poll_events`. -/
  | next
  /-- The next event of the batch, up to the first lookup. -/
  | srcLookup
  | dstLookup
  | processEvent (ord : Order FlowKey FlowStats) (now : Instant)
  | send
  | batchDone
  /-- SIGINT or SIGTERM. -/
  | signal
  | watch (a : WatchAction)
  | expireOldFlows (now : Instant)
  | subscribe (id : Nat) (namespaces : List String)
  | receive (id : Nat)
  | leave (id : Nat)

/-- The event that a frame is offered to the ring buffer as. -/
def AgentAction.offered : AgentAction → Option NetworkFlowEvent
  | .frame egress env ctx =>
    Orb8.offered (if egress then direction.EGRESS else direction.INGRESS) env.ktimeGetNs ctx
  | _ => none

/-- The pod an event is attributed to, given what the two lookups found. -/
def namesOf (event : NetworkFlowEvent) (srcPod dstPod : Option PodMetadata) : String × String :=
  if event.direction = direction.INGRESS then
    ((dstPod.map podIdentity).or (srcPod.map podIdentity)).getD ("external", "unknown")
  else ((srcPod.map podIdentity).or (dstPod.map podIdentity)).getD ("external", "unknown")

/-- When both lookups see one cache, this is `enrich`. -/
theorem enrich_eq_namesOf (cache : PodCache) (event : NetworkFlowEvent) :
    enrich cache event = namesOf event (cache.getByIp event.srcIp) (cache.getByIp event.dstIp) := rfl

/-- `read_events_dropped`. -/
def readEventsDropped (readable : Bool) (kernelDropped : UInt64) : UInt64 :=
  if readable then kernelDropped else 0

def networkProbeAt (egress : Bool) : ProbeEnv → TcContext → ProbeState → Int32 × ProbeState :=
  if egress then networkProbeEgress else networkProbe

namespace Agent

/-- The agent when `main` has spawned its servers and, if the cluster answered, the pod watcher. -/
def boot (env : AgentEnv) (k8sEnabled : Bool) : Agent where
  pc := .starting
  ring := .init
  kernelDropped := 0
  dropCounterMap := false
  eventsDropped := 0
  watcher :=
    let started := env.podWatcher.start (PodCache.new env.config.maxPodCacheEntries HealthState.new)
    if k8sEnabled then started else { started with phase := .stopped }
  flows := .init env.config.maxFlows env.config.flowTimeout
  channel := .new env.slots
  subscribers := ∅
  health := HealthState.new

/-! ### The components, with the shared health -/

def podWatcher (s : Agent) : WatcherState := WatcherState.handle.set s.health s.watcher

def podCache (s : Agent) : PodCache := s.podWatcher.cache

def logged (s : Agent) : Logged := Logged.handle.set s.health s.flows

def aggregator (s : Agent) : FlowAggregator := s.logged.agg

def streams (s : Agent) : Streams := ⟨s.channel, s.health, s.subscribers⟩

def withWatcher (s : Agent) (w : WatcherState) : Agent := { s with watcher := w, health := w.cache.health }

def withLogged (s : Agent) (flows : Logged) : Agent := { s with flows, health := flows.agg.health }

def withStreams (s : Agent) (streams : Streams) : Agent :=
  { s with channel := streams.channel, subscribers := streams.subscribers, health := streams.health }

/-! ### The steps -/

/-- The records that a frame adds to the ring, and the drop counter after it. -/
def frame (s : Agent) (egress : Bool) (env : ProbeEnv) (ctx : TcContext) : Agent :=
  let probe := (networkProbeAt egress env ctx ⟨s.ring.pending, s.kernelDropped, []⟩).2
  { s with
    kernelDropped := probe.eventsDropped
    ring := { s.ring with
      pending := probe.events
      submitted := s.ring.submitted ++ probe.events.drop s.ring.pending.length } }

/-- The watcher takes its `cancelled` branch only once `main` has cancelled the token. -/
def mayTake (s : Agent) : WatchAction → Bool
  | .cancel => (s.pc matches .stopped)
  | _ => true

/-- A poll that has returned hands its events to the loop. -/
def polled (s : Agent) (ring : PollState) : Agent :=
  match ring.events with
  | some _ => { s with ring }
  | none => { s with ring, pc := .forEach (ring.polled.getLast?.getD []) }

def step (env : AgentEnv) (s : Agent) : AgentAction → Option Agent
  | .frame egress penv ctx => some (s.frame egress penv ctx)
  | .attached dropCounterMap =>
    match s.pc with
    | .starting => some { s with pc := .select, dropCounterMap, health := s.health.setProbesAttached true }
    | _ => none
  | .poll readable =>
    match s.pc with
    | .select =>
      (s.ring.step env.config.maxBatchSize .pollEvents).map fun ring => { s with
        ring
        pc := .polling
        eventsDropped :=
          if s.dropCounterMap then readEventsDropped readable s.kernelDropped else s.eventsDropped }
    | _ => none
  | .next =>
    match s.pc with
    | .polling => (s.ring.step env.config.maxBatchSize .next).map s.polled
    | _ => none
  | .srcLookup =>
    match s.pc with
    | .forEach (event :: events) =>
      if isSelfTraffic event env.config.grpcPort env.localIps then some { s with pc := .forEach events }
      else some { s with pc := .dstLookup event (s.podCache.getByIp event.srcIp) events }
    | _ => none
  | .dstLookup =>
    match s.pc with
    | .dstLookup event srcPod events =>
      let (namespace_, podName) := namesOf event srcPod (s.podCache.getByIp event.dstIp)
      some { s with pc := .aggregating event namespace_ podName events }
    | _ => none
  | .processEvent ord now =>
    match s.pc with
    | .aggregating event namespace_ podName events =>
      some { s.withLogged (s.logged.call (.processEvent ord now event namespace_ podName)) with
        pc := .sending (networkEvent event namespace_ podName) events }
    | _ => none
  | .send =>
    match s.pc with
    | .sending event events =>
      (s.streams.step (.send event)).map fun streams => { s.withStreams streams with pc := .forEach events }
    | _ => none
  | .batchDone =>
    match s.pc with
    | .forEach [] => some { s with pc := .select }
    | _ => none
  | .signal =>
    match s.pc with
    | .select => some { s with pc := .stopped }
    | _ => none
  | .watch a => if s.mayTake a then (env.podWatcher.step s.podWatcher a).map s.withWatcher else none
  | .expireOldFlows now =>
    match s.pc with
    | .starting => none
    | _ => some (s.withLogged (s.logged.call (.expireOldFlows now)))
  | .subscribe id namespaces => (s.streams.step (.subscribe id namespaces)).map s.withStreams
  | .receive id => (s.streams.step (.poll id)).map s.withStreams
  | .leave id => (s.streams.step (.leave id)).map s.withStreams

end Agent

/-! ### What a step can do -/

/-- The steps of the agent, one constructor for each way to go on. -/
inductive AgentStep (env : AgentEnv) (s : Agent) : AgentAction → Agent → Prop
  | frame (egress penv ctx) : AgentStep env s (.frame egress penv ctx) (s.frame egress penv ctx)
  | attached (dropCounterMap) (h : s.pc = .starting) : AgentStep env s (.attached dropCounterMap)
      { s with pc := .select, dropCounterMap, health := s.health.setProbesAttached true }
  | poll (readable ring) (h : s.pc = .select)
      (hring : s.ring.step env.config.maxBatchSize .pollEvents = some ring) :
    AgentStep env s (.poll readable) { s with
      ring
      pc := .polling
      eventsDropped := if s.dropCounterMap then readEventsDropped readable s.kernelDropped else s.eventsDropped }
  | next (ring) (h : s.pc = .polling) (hring : s.ring.step env.config.maxBatchSize .next = some ring) :
    AgentStep env s .next (s.polled ring)
  | selfTraffic (event events) (h : s.pc = .forEach (event :: events))
      (hself : isSelfTraffic event env.config.grpcPort env.localIps) :
    AgentStep env s .srcLookup { s with pc := .forEach events }
  | srcLookup (event events) (h : s.pc = .forEach (event :: events))
      (hself : ¬ isSelfTraffic event env.config.grpcPort env.localIps) :
    AgentStep env s .srcLookup { s with pc := .dstLookup event (s.podCache.getByIp event.srcIp) events }
  | dstLookup (event srcPod events names) (h : s.pc = .dstLookup event srcPod events)
      (hnames : names = namesOf event srcPod (s.podCache.getByIp event.dstIp)) :
    AgentStep env s .dstLookup { s with pc := .aggregating event names.1 names.2 events }
  | processEvent (ord now event namespace_ podName events)
      (h : s.pc = .aggregating event namespace_ podName events) :
    AgentStep env s (.processEvent ord now)
      { s.withLogged (s.logged.call (.processEvent ord now event namespace_ podName)) with
        pc := .sending (networkEvent event namespace_ podName) events }
  | send (event events streams) (h : s.pc = .sending event events)
      (hs : s.streams.step (.send event) = some streams) :
    AgentStep env s .send { s.withStreams streams with pc := .forEach events }
  | batchDone (h : s.pc = .forEach []) : AgentStep env s .batchDone { s with pc := .select }
  | signal (h : s.pc = .select) : AgentStep env s .signal { s with pc := .stopped }
  | watch (a w) (hmay : s.mayTake a = true) (hw : env.podWatcher.step s.podWatcher a = some w) :
    AgentStep env s (.watch a) (s.withWatcher w)
  | expireOldFlows (now) (h : s.pc ≠ .starting) :
    AgentStep env s (.expireOldFlows now) (s.withLogged (s.logged.call (.expireOldFlows now)))
  | subscribe (id namespaces streams) (hs : s.streams.step (.subscribe id namespaces) = some streams) :
    AgentStep env s (.subscribe id namespaces) (s.withStreams streams)
  | receive (id streams) (hs : s.streams.step (.poll id) = some streams) :
    AgentStep env s (.receive id) (s.withStreams streams)
  | leave (id streams) (hs : s.streams.step (.leave id) = some streams) :
    AgentStep env s (.leave id) (s.withStreams streams)

namespace Agent
variable {env : AgentEnv} {s t : Agent} {a : AgentAction}

theorem step_cases (h : step env s a = some t) : AgentStep env s a t := by
  cases a with
  | frame egress penv ctx =>
    obtain rfl := Option.some.inj h
    exact .frame egress penv ctx
  | attached dropCounterMap =>
    cases hpc : s.pc <;> simp only [step, hpc, reduceCtorEq, Option.some.injEq] at h
    subst h
    exact .attached dropCounterMap hpc
  | poll readable =>
    cases hpc : s.pc <;> simp only [step, hpc, reduceCtorEq] at h
    obtain ⟨ring, hring, rfl⟩ := Option.map_eq_some_iff.1 h
    exact .poll readable ring hpc hring
  | next =>
    cases hpc : s.pc <;> simp only [step, hpc, reduceCtorEq] at h
    obtain ⟨ring, hring, rfl⟩ := Option.map_eq_some_iff.1 h
    exact .next ring hpc hring
  | srcLookup =>
    cases hpc : s.pc with
    | forEach events =>
      cases events with
      | nil => simp only [step, hpc, reduceCtorEq] at h
      | cons event events =>
        simp only [step, hpc] at h
        split at h
        · rename_i hself
          obtain rfl := Option.some.inj h
          exact .selfTraffic event events hpc hself
        · rename_i hself
          obtain rfl := Option.some.inj h
          exact .srcLookup event events hpc hself
    | _ => simp only [step, hpc, reduceCtorEq] at h
  | dstLookup =>
    cases hpc : s.pc <;> simp only [step, hpc, reduceCtorEq] at h
    obtain rfl := Option.some.inj h
    exact .dstLookup _ _ _ _ hpc rfl
  | processEvent ord now =>
    cases hpc : s.pc <;> simp only [step, hpc, reduceCtorEq] at h
    obtain rfl := Option.some.inj h
    exact .processEvent ord now _ _ _ _ hpc
  | send =>
    cases hpc : s.pc <;> simp only [step, hpc, reduceCtorEq] at h
    obtain ⟨streams, hs, rfl⟩ := Option.map_eq_some_iff.1 h
    exact .send _ _ streams hpc hs
  | batchDone =>
    cases hpc : s.pc with
    | forEach events =>
      cases events with
      | nil =>
        simp only [step, hpc, Option.some.injEq] at h
        subst h
        exact .batchDone hpc
      | cons event events => simp only [step, hpc, reduceCtorEq] at h
    | _ => simp only [step, hpc, reduceCtorEq] at h
  | signal =>
    cases hpc : s.pc <;> simp only [step, hpc, reduceCtorEq, Option.some.injEq] at h
    subst h
    exact .signal hpc
  | watch a =>
    simp only [step] at h
    split at h
    · rename_i hmay
      obtain ⟨w, hw, rfl⟩ := Option.map_eq_some_iff.1 h
      exact .watch a w hmay hw
    · cases h
  | expireOldFlows now =>
    have hpc : s.pc ≠ .starting := by
      intro hpc
      simp only [step, hpc, reduceCtorEq] at h
    cases hpc' : s.pc <;> simp only [step, hpc', reduceCtorEq, Option.some.injEq] at h <;> subst h <;>
      exact .expireOldFlows now hpc
  | subscribe id namespaces =>
    obtain ⟨streams, hs, rfl⟩ := Option.map_eq_some_iff.1 h
    exact .subscribe id namespaces streams hs
  | receive id =>
    obtain ⟨streams, hs, rfl⟩ := Option.map_eq_some_iff.1 h
    exact .receive id streams hs
  | leave id =>
    obtain ⟨streams, hs, rfl⟩ := Option.map_eq_some_iff.1 h
    exact .leave id streams hs

theorem step_of_agentStep (h : AgentStep env s a t) : step env s a = some t := by
  cases h with
  | frame => rfl
  | attached dropCounterMap h => simp only [step, h]
  | poll readable ring h hring => simp only [step, h, hring, Option.map_some]
  | next ring h hring => simp only [step, h, hring, Option.map_some]
  | selfTraffic event events h hself => simp only [step, h, hself, if_true]
  | srcLookup event events h hself => simp only [step, h, hself, if_false, Bool.false_eq_true]
  | dstLookup event srcPod events names h hnames => simp only [step, h, hnames]
  | processEvent ord now event namespace_ podName events h => simp only [step, h]
  | send event events streams h hs => simp only [step, h, hs, Option.map_some]
  | batchDone h | signal h => simp only [step, h]
  | watch a w hmay hw => simp only [step, hmay, if_true, hw, Option.map_some]
  | expireOldFlows now h => cases hpc : s.pc <;> first | exact absurd hpc h | simp only [step, hpc]
  | subscribe id namespaces streams hs => simp only [step, hs, Option.map_some]
  | receive id streams hs | leave id streams hs => simp only [step, hs, Option.map_some]

/-! ### What a frame does -/

theorem networkProbeAt_eq (egress : Bool) :
    networkProbeAt egress = classify (if egress then direction.EGRESS else direction.INGRESS) := by
  cases egress <;> rfl

/-- A frame is not offered, or submitted, or counted as dropped. -/
theorem frame_cases (s : Agent) (egress : Bool) (penv : ProbeEnv) (ctx : TcContext) :
    ((AgentAction.frame egress penv ctx).offered = none ∧ s.frame egress penv ctx = s) ∨
    ∃ event, (AgentAction.frame egress penv ctx).offered = some event ∧
      ((penv.room = true ∧ s.frame egress penv ctx = { s with ring := { s.ring with
          pending := s.ring.pending ++ [event.toBytes]
          submitted := s.ring.submitted ++ [event.toBytes] } }) ∨
       (penv.room = false ∧ s.frame egress penv ctx = { s with kernelDropped := s.kernelDropped + 1 })) := by
  obtain ⟨-, reads, hprobe, -⟩ := classify_spec (if egress then direction.EGRESS else direction.INGRESS) penv ctx
    ⟨s.ring.pending, s.kernelDropped, []⟩
  simp only [frame, networkProbeAt_eq, hprobe, AgentAction.offered]
  cases offered (if egress then direction.EGRESS else direction.INGRESS) penv.ktimeGetNs ctx with
  | none => exact .inl ⟨rfl, by simp [ProbeState.offer]⟩
  | some event =>
    refine .inr ⟨event, rfl, ?_⟩
    cases penv.room with
    | true => exact .inl ⟨rfl, by simp [ProbeState.offer]⟩
    | false => exact .inr ⟨rfl, by simp [ProbeState.offer]⟩

/-! ### An agent to run -/

def demoEnv : AgentEnv := ⟨{ AgentConfig.default with maxFlows := 2, maxPodCacheEntries := 2 }, ∅, PodWatcher.demo, 4⟩

/-- A pod appears, a packet of its goes through the agent to a subscriber, the agent is stopped. -/
def demoActs : List AgentAction :=
  [.subscribe 0 [], .watch (.deliver demoFs (.apply (demoPod "a" "10.0.0.5"))), .attached true,
    .frame true ⟨7, true⟩ demoFrame, .poll true, .next, .next, .srcLookup, .dstLookup, .processEvent .stored 0,
    .expireOldFlows 1, .send, .receive 0, .batchDone, .signal]

end Agent

end Orb8
