import Orb8.ProbeLoader
import Orb8.Probe
import Orb8.K8sWatcher
import Orb8.EventLoop

/-!
# From the packet to the pod

The address of a pod takes two ways through the agent: as text from the Kubernetes API into the key
of the cache, and as four octets from a frame into the event. They meet in the lookup of the event
loop. A pod that holds its address keeps it through every watch history that does not delete it and
applies no other pod with that address; traffic of the address is then the pod's.
-/

namespace Orb8
open AMap Trace KeyedFold Bytes

def Pod.Holds (pod : Pod) (x : UInt32) (c : PodCache) : Prop :=
  ∃ m, c.byIp.lookup x = some m ∧ pod.Owns m

def WatchAction.applied : WatchAction → List Pod
  | .deliver _ (.apply pod) | .deliver _ (.initApply pod) => [pod]
  | .resync (some podList) => podList.map Prod.snd
  | _ => []

def WatchAction.deleted : WatchAction → List Pod
  | .deliver _ (.delete pod) => [pod]
  | _ => []

/-- The action does not delete the pod, applies no other pod with its address, and applies the pod
itself only under its own namespace and name. -/
structure Pod.Spares (pod : Pod) (x : UInt32) (a : WatchAction) : Prop where
  deleted : ∀ q ∈ a.deleted, q.podUid ≠ pod.podUid
  other : ∀ q ∈ a.applied, q.podUid ≠ pod.podUid → q.ip ≠ some x
  same : ∀ q ∈ a.applied, q.podUid = pod.podUid → q.namespace_ = pod.namespace_ ∧ q.name = pod.name

/-! ### The endpoint on the pod's side of the hook: the destination on ingress, the source on egress -/

def frameAddress (dir : UInt8) (ctx : TcContext) : List UInt8 :=
  if dir = direction.INGRESS then slice ctx.data 30 4 else slice ctx.data 26 4

def NetworkFlowEvent.ownIp (e : NetworkFlowEvent) : UInt32 :=
  if e.direction = direction.INGRESS then e.dstIp else e.srcIp

def NetworkEvent.ownIp (dir : UInt8) (e : NetworkEvent) : String :=
  if dir = direction.INGRESS then e.dstIp else e.srcIp

def NetworkFlow.ownIp (dir : UInt8) (f : NetworkFlow) : String :=
  if dir = direction.INGRESS then f.dstIp else f.srcIp

/-- Handling the event took the loop from `s` to `t` and showed it as traffic of the pod at the
address. -/
structure Attributed (pod : Pod) (address : String) (event : NetworkFlowEvent) (s t : EventLoop) :
    Prop where
  /-- The event is aggregated into a flow with the pod's namespace and name, and `QueryFlows` shows
  that flow at the address. -/
  flow : ∃ key now stats, (puts t.logged.log).getLast? = some (key, (now, event)) ∧
    t.logged.agg.flows.lookup key = some stats ∧
    key.namespace_ = pod.namespace_ ∧ key.podName = pod.name ∧
    ∀ ord maxQueryLimit, len t.logged.agg.flows ≤ maxQueryLimit →
      ∃ row ∈ queryFlows t.logged.agg ord maxQueryLimit ⟨[], [], 0⟩, row = networkFlow key stats ∧
        row.ownIp event.direction = address
  /-- One event is broadcast, with the same namespace and name, and every stream that lets it pass
  shows it at the address. -/
  sent : ∃ ev, t.sent = s.sent ++ [ev] ∧ ev.namespace_ = pod.namespace_ ∧ ev.podName = pod.name ∧
    ∀ namespaces, passes namespaces ev →
      ∃ out, streamFilter namespaces (.value ev) = some out ∧ out.ownIp event.direction = address

section
variable {pod q : Pod} {x : UInt32} {c : PodCache} {resolver : CgroupResolver} {fs : Fs}

/-! ### The pod keeps its address -/

theorem Pod.holds_apply (hu : pod.podUid ≠ "") (hip : pod.ip = some x) (hroom : c.Admits x) :
    pod.Holds x (handlePodApply resolver fs c pod) :=
  (upserts_handlePodApply resolver fs c hu).own x hip hroom

theorem Pod.Holds.apply (h : pod.Holds x c) (hother : q.podUid ≠ pod.podUid → q.ip ≠ some x)
    (hsame : q.podUid = pod.podUid → q.namespace_ = pod.namespace_ ∧ q.name = pod.name) :
    pod.Holds x (handlePodApply resolver fs c q) := by
  obtain ⟨m, hm, ho⟩ := h
  by_cases hu : q.podUid = ""
  · rw [handlePodApply_of_uid_empty hu]
    exact ⟨m, hm, ho⟩
  have hup := upserts_handlePodApply resolver fs c hu
  by_cases hx : q.ip = some x
  · have huid : q.podUid = pod.podUid := by_contra fun hne => hother hne hx
    obtain ⟨hns, hname⟩ := hsame huid
    obtain ⟨m', hm', ho'⟩ := hup.own x hx (.inl (mem_iff_lookup.2 ⟨m, hm⟩))
    exact ⟨m', hm', ho'.1.trans huid, ho'.2.1.trans hns, ho'.2.2.trans hname⟩
  · exact ⟨m, (hup.other x hx).trans hm, ho⟩

theorem Pod.Holds.delete (h : pod.Holds x c) (hne : q.podUid ≠ pod.podUid) :
    pod.Holds x (handlePodDelete c q) := by
  obtain ⟨m, hm, ho⟩ := h
  unfold handlePodDelete
  split
  · exact ⟨m, hm, ho⟩
  · exact ⟨m, PodCache.lookup_removePod.2 ⟨hm, ho.1 ▸ hne.symm⟩, ho⟩

theorem Pod.Holds.applyAll {w : PodWatcher} {l : List (Fs × Pod)} (h : pod.Holds x c)
    (hother : ∀ q ∈ l.map Prod.snd, q.podUid ≠ pod.podUid → q.ip ≠ some x)
    (hsame : ∀ q ∈ l.map Prod.snd, q.podUid = pod.podUid →
      q.namespace_ = pod.namespace_ ∧ q.name = pod.name) : pod.Holds x (w.applyAll c l) := by
  induction l generalizing c with
  | nil => exact h
  | cons p l ih =>
    rw [List.map_cons] at hother hsame
    exact ih (h.apply (hother p.2 List.mem_cons_self) (hsame p.2 List.mem_cons_self))
      (fun q hq => hother q (List.mem_cons_of_mem _ hq)) fun q hq => hsame q (List.mem_cons_of_mem _ hq)

theorem Pod.Holds.step {w : PodWatcher} {s t : WatcherState} {a : WatchAction}
    (h : pod.Holds x s.cache) (ha : pod.Spares x a) (ht : w.step s a = some t) :
    pod.Holds x t.cache := by
  obtain ⟨hdel, hother, hsame⟩ := ha
  obtain ⟨c, backoff, phase⟩ := s
  cases PodWatcher.step_cases ht with
  | deliver fs event =>
    cases event with
    | apply q | initApply q =>
      exact h.apply (hother q (List.mem_singleton_self q)) (hsame q (List.mem_singleton_self q))
    | delete q => exact h.delete (hdel q (List.mem_singleton_self q))
    | init | initDone => exact h
  | resynced podList => exact h.applyAll (w := w) hother hsame
  | sessionEnd | sessionErr | wake | resyncFailed | cancel => exact h

theorem Pod.Holds.run {w : PodWatcher} {s t : WatcherState} {acts : List WatchAction}
    (h : pod.Holds x s.cache) (hacts : ∀ a ∈ acts, pod.Spares x a) (ht : run w.step s acts = some t) :
    pod.Holds x t.cache := by
  have hstep : ∀ s a t, pod.Holds x s.cache → pod.Spares x a → w.step s a = some t →
      pod.Holds x t.cache := fun _ _ _ hs ha hst => hs.step ha hst
  exact run_inv_of_forall (I := fun s : WatcherState => pod.Holds x s.cache) hstep h hacts ht

/-! ### The event is the pod's -/

theorem Pod.ip_of_dottedQuad {a b c d : UInt8}
    (h : pod.status.bind (·.podIp) = some (dottedQuad a b c d)) : pod.ip = some (fromLeBytes a b c d) := by
  obtain ⟨status, hs, hip⟩ := Option.bind_eq_some_iff.1 h
  rw [Pod.ip, hs, Option.bind_some, Pod.statusIp, hip, Option.bind_some, parseIpv4_dottedQuad]

theorem enrich_of_holds {event : NetworkFlowEvent} (h : pod.Holds event.ownIp c) :
    enrich c event = (pod.namespace_, pod.name) := by
  obtain ⟨m, hm, -, hns, hname⟩ := h
  have hpod : (c.getByIp event.ownIp).map podIdentity = some (pod.namespace_, pod.name) := by
    rw [PodCache.getByIp, hm, Option.map_some, podIdentity, hns, hname]
  unfold enrich
  unfold NetworkFlowEvent.ownIp at hpod
  split at hpod
  · rename_i hdir
    simp only [hdir, if_true, hpod, Option.some_or, Option.getD_some]
  · rename_i hdir
    simp only [hdir, if_false, hpod, Option.some_or, Option.getD_some]

end

theorem attributed_of_holds {pod : Pod} {a b c d : UInt8} (cfg : LoopConfig) (p : Polled) (s : EventLoop)
    (hown : p.event.ownIp = fromLeBytes a b c d) (h : pod.Holds (fromLeBytes a b c d) p.cache)
    (hself : isSelfTraffic p.event cfg.grpcPort cfg.localIps = false) :
    Attributed pod (dottedQuad a b c d) p.event s (s.handleEvent cfg p) := by
  have henrich := enrich_of_holds (hown ▸ h)
  have haddr : formatIpv4 p.event.ownIp = dottedQuad a b c d := by rw [hown, formatIpv4_fromLeBytes]
  have hrow (stats : FlowStats) : (networkFlow (flowKey p.event pod.namespace_ pod.name) stats).ownIp
      p.event.direction = dottedQuad a b c d := by
    rw [← haddr, NetworkFlowEvent.ownIp, apply_ite formatIpv4]
    rfl
  have hevent : (networkEvent p.event pod.namespace_ pod.name).ownIp p.event.direction =
      dottedQuad a b c d := by
    rw [← haddr, NetworkFlowEvent.ownIp, apply_ite formatIpv4]
    rfl
  have hhandle : s.handleEvent cfg p =
      { logged := s.logged.call (.processEvent p.ord p.now p.event pod.namespace_ pod.name)
        sent := s.sent ++ [networkEvent p.event pod.namespace_ pod.name] } := by
    simp [EventLoop.handleEvent, hself, henrich]
  rw [hhandle]
  constructor
  · obtain ⟨keys, -, -, hflows, -⟩ :=
      FlowAggregator.processEvent_cases s.logged.agg p.ord p.now p.event pod.namespace_ pod.name
    obtain ⟨stats, hstats⟩ : ∃ stats, (s.logged.agg.processEvent p.ord p.now p.event pod.namespace_
        pod.name).1.flows.lookup (flowKey p.event pod.namespace_ pod.name) = some stats := by
      rw [hflows]
      exact ⟨_, AList.lookup_insert _⟩
    refine ⟨_, p.now, stats, ?_, hstats, rfl, rfl, fun ord maxQueryLimit hmax => ?_⟩
    · simp [Logged.call]
    · refine ⟨_, ?_, rfl, hrow stats⟩
      refine (perm_queryFlows hmax (.inl rfl) ord).mem_iff.2 (List.mem_map.2 ⟨(_, stats), ?_, rfl⟩)
      exact mem_toList.2 hstats
  · refine ⟨_, rfl, rfl, rfl, fun namespaces hpass => ⟨_, ?_, hevent⟩⟩
    simp [streamFilter, hpass]

theorem ownIp_readUnaligned {dir : UInt8} {env : ProbeEnv} {ctx : TcContext} {ps : ProbeState} {r : Record}
    {a b c d : UInt8} (hr : (classify dir env ctx ps).2.events = ps.events ++ [r])
    (haddr : frameAddress dir ctx = [a, b, c, d]) :
    r.length = NetworkFlowEvent.size ∧
      (NetworkFlowEvent.readUnaligned r).ownIp = fromLeBytes a b c d := by
  obtain ⟨ev, rfl, hsrc, hdst, hdir⟩ := classify_submitted hr
  rw [NetworkFlowEvent.readUnaligned_toBytes]
  refine ⟨NetworkFlowEvent.length_toBytes ev, ?_⟩
  unfold frameAddress at haddr
  unfold NetworkFlowEvent.ownIp fromLeBytes
  rw [hdir, hsrc, hdst, ← haddr]
  split <;> rfl

/-- From the frame to the pod: a pod that reports its address as text owns the frames with the same
four octets on its side of the hook, through every watch history that spares it. -/
theorem attributed (w : PodWatcher) (fs : Fs) (cache : PodCache) (pod : Pod) (a b c d : UInt8)
    (hu : pod.podUid ≠ "") (hip : pod.status.bind (·.podIp) = some (dottedQuad a b c d))
    (hroom : cache.Admits (fromLeBytes a b c d)) (acts : List WatchAction) (u v : WatcherState)
    (hcache : u.cache = handlePodApply w.cgroupResolver fs cache pod)
    (hacts : ∀ act ∈ acts, pod.Spares (fromLeBytes a b c d) act) (hv : run w.step u acts = some v)
    (dir : UInt8) (env : ProbeEnv) (ctx : TcContext) (ps : ProbeState) (r : Record)
    (hr : (classify dir env ctx ps).2.events = ps.events ++ [r])
    (haddr : frameAddress dir ctx = [a, b, c, d]) (cfg : LoopConfig) (now : Instant)
    (ord : AMap.Order FlowKey FlowStats) (s : EventLoop)
    (hself : isSelfTraffic (NetworkFlowEvent.readUnaligned r) cfg.grpcPort cfg.localIps = false) :
    wellFormed [r] = [NetworkFlowEvent.readUnaligned r] ∧
      Attributed pod (dottedQuad a b c d) (NetworkFlowEvent.readUnaligned r) s
        (s.handleEvent cfg ⟨NetworkFlowEvent.readUnaligned r, v.cache, now, ord⟩) := by
  obtain ⟨hlen, hown⟩ := ownIp_readUnaligned hr haddr
  have hstart : pod.Holds (fromLeBytes a b c d) u.cache :=
    hcache ▸ Pod.holds_apply hu (Pod.ip_of_dottedQuad hip) hroom
  refine ⟨by rw [wellFormed_cons_of_eq hlen, wellFormed_nil], ?_⟩
  exact attributed_of_holds cfg ⟨_, v.cache, now, ord⟩ s hown (hstart.run hacts hv) hself

/-- A UDP packet from 10.0.0.5 port 53 to 10.0.0.6 port 80. -/
def demoFrame : TcContext where
  data := List.replicate 12 0 ++ [0x08, 0x00, 0x45, 0, 0, 28, 0, 0, 0, 0, 64, 17, 0, 0,
    10, 0, 0, 5, 10, 0, 0, 6, 0, 53, 0, 80, 0, 8, 0, 0]
  len := 42

def demoRecord : Record :=
  NetworkFlowEvent.toBytes ⟨7, 0, 0x0500000A, 0x0600000A, 53, 80, protocol.UDP, direction.EGRESS, 42⟩

theorem spares_demo : (demoPod "a" "10.0.0.5").Spares (fromLeBytes 10 0 0 5)
    (.deliver demoFs (.apply (demoPod "b" "10.0.0.6"))) where
  deleted := fun q hq => absurd hq List.not_mem_nil
  other := fun q hq _ => by
    obtain rfl := List.mem_singleton.1 hq
    decide
  same := fun q hq huid => by
    obtain rfl := List.mem_singleton.1 hq
    revert huid
    decide

theorem attributed_demo :
    ∃ v : WatcherState, wellFormed [demoRecord] = [NetworkFlowEvent.readUnaligned demoRecord] ∧
      Attributed (demoPod "a" "10.0.0.5") (dottedQuad 10 0 0 5) (NetworkFlowEvent.readUnaligned demoRecord)
        (EventLoop.init ⟨9090, ∅, 10, 30⟩)
        ((EventLoop.init ⟨9090, ∅, 10, 30⟩).handleEvent ⟨9090, ∅, 10, 30⟩
          ⟨NetworkFlowEvent.readUnaligned demoRecord, v.cache, 0, .stored⟩) :=
  ⟨_, attributed PodWatcher.demo demoFs (PodCache.new 10 HealthState.new) (demoPod "a" "10.0.0.5") 10 0 0 5
    (by decide) (by decide) (by decide) [.deliver demoFs (.apply (demoPod "b" "10.0.0.6"))]
    (PodWatcher.demo.start (handlePodApply PodWatcher.demo.cgroupResolver demoFs
      (PodCache.new 10 HealthState.new) (demoPod "a" "10.0.0.5"))) _ rfl
    (fun act hact => List.mem_singleton.1 hact ▸ spares_demo) rfl direction.EGRESS ⟨7, true⟩ demoFrame
    ⟨[], 0, []⟩ demoRecord (by decide) (by decide) ⟨9090, ∅, 10, 30⟩ 0 .stored _ (by decide)⟩

end Orb8
