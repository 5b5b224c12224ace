import Orb8.EventStream
import Orb8.FlowLog
import Orb8.K8sWatcher
import Orb8.Lib.SharedCell

/-!
# Who writes what of the shared health

`main` clones one `HealthState` into every component. The pod watcher with its cache, the flow table
and the event stream each write a part of it and read nothing of the rest, so that what one of them
does is the same whatever the others write meanwhile.
-/

namespace Orb8
open AMap SharedCell

namespace HealthState

/-- What the pod watcher and its cache write. -/
def podPart : Portion HealthState where
  keep c d := { d with
    k8sWatcherConnected := c.k8sWatcherConnected
    podCacheAtCapacity := c.podCacheAtCapacity
    podCacheEvictions := c.podCacheEvictions }
  keep_self _ := rfl
  keep_keep _ _ _ := rfl
  keep_keep_right _ _ _ := rfl

/-- What the flow aggregator writes. -/
def flowPart : Portion HealthState where
  keep c d := { d with flowTableAtCapacity := c.flowTableAtCapacity, flowEvictions := c.flowEvictions }
  keep_self _ := rfl
  keep_keep _ _ _ := rfl
  keep_keep_right _ _ _ := rfl

/-- What the event loop writes when it broadcasts. -/
def streamPart : Portion HealthState where
  keep c d := { d with broadcastDrops := c.broadcastDrops }
  keep_self _ := rfl
  keep_keep _ _ _ := rfl
  keep_keep_right _ _ _ := rfl

/-- What `main` itself writes. -/
def probePart : Portion HealthState where
  keep c d := { d with probesAttached := c.probesAttached }
  keep_self _ := rfl
  keep_keep _ _ _ := rfl
  keep_keep_right _ _ _ := rfl

theorem podPart_apart_flowPart : podPart.Apart flowPart := fun _ _ => rfl
theorem podPart_apart_streamPart : podPart.Apart streamPart := fun _ _ => rfl
theorem flowPart_apart_podPart : flowPart.Apart podPart := fun _ _ => rfl
theorem flowPart_apart_streamPart : flowPart.Apart streamPart := fun _ _ => rfl
theorem streamPart_apart_podPart : streamPart.Apart podPart := fun _ _ => rfl
theorem streamPart_apart_flowPart : streamPart.Apart flowPart := fun _ _ => rfl

end HealthState

open HealthState

/-! ### The flow table -/

def FlowAggregator.withHealth (a : FlowAggregator) (health : HealthState) : FlowAggregator :=
  { a with health := health }

def Logged.handle : Handle Logged HealthState where
  get s := s.agg.health
  set health s := { s with agg := s.agg.withHealth health }
  get_set _ _ := rfl
  set_get _ := rfl
  set_set _ _ _ := rfl

section
variable (h c : HealthState) (maxFlows n : Nat)

theorem keep_highFlag : flowPart.keep (highFlag maxFlows n h) c = highFlag maxFlows n (flowPart.keep h c) := by
  unfold highFlag
  split <;> rfl

theorem keep_lowFlag : flowPart.keep (lowFlag maxFlows n h) c = lowFlag maxFlows n (flowPart.keep h c) := by
  unfold lowFlag
  split <;> rfl

end

namespace FlowAggregator
variable (a : FlowAggregator) (c : HealthState) (ord : Order FlowKey FlowStats) (now : Instant)

theorem makeRoom_withHealth : (a.withHealth (flowPart.keep a.health c)).makeRoom ord =
    ((a.makeRoom ord).1.withHealth (flowPart.keep (a.makeRoom ord).1.health c), (a.makeRoom ord).2) := by
  unfold makeRoom evictOldestFlows
  dsimp only [withHealth]
  by_cases hfull : len a.flows ≥ a.maxFlows
  · simp only [hfull, if_true]
    split_ifs <;> rfl
  · simp only [hfull, if_false]

theorem updateCapacityFlag_withHealth : (a.withHealth (flowPart.keep a.health c)).updateCapacityFlag =
    a.updateCapacityFlag.withHealth (flowPart.keep a.updateCapacityFlag.health c) := by
  simp only [updateCapacityFlag, withHealth, keep_highFlag]

theorem processEvent_withHealth (event : NetworkFlowEvent) (namespace_ podName : String) :
    (a.withHealth (flowPart.keep a.health c)).processEvent ord now event namespace_ podName =
      ((a.processEvent ord now event namespace_ podName).1.withHealth
          (flowPart.keep (a.processEvent ord now event namespace_ podName).1.health c),
        (a.processEvent ord now event namespace_ podName).2) := by
  cases hl : a.flows.lookup (flowKey event namespace_ podName) with
  | some stats =>
    have hwith : (a.withHealth (flowPart.keep a.health c)).processEvent ord now event namespace_ podName = _ :=
      processEvent_of_some hl
    rw [processEvent_of_some hl, hwith]
    simp only [Prod.mk.injEq, and_true]
    exact updateCapacityFlag_withHealth { a.counted with flows := _ } c
  | none =>
    have hwith : (a.withHealth (flowPart.keep a.health c)).processEvent ord now event namespace_ podName = _ :=
      processEvent_of_none hl
    rw [processEvent_of_none hl, hwith]
    have hroom := makeRoom_withHealth a.counted c ord
    have hcounted : (a.withHealth (flowPart.keep a.health c)).counted =
        a.counted.withHealth (flowPart.keep a.counted.health c) := rfl
    rw [hcounted, hroom]
    simp only [Prod.mk.injEq, and_true]
    exact updateCapacityFlag_withHealth { (a.counted.makeRoom ord).1 with flows := _ } c

theorem expireOldFlows_withHealth : (a.withHealth (flowPart.keep a.health c)).expireOldFlows now =
    ((a.expireOldFlows now).1.withHealth (flowPart.keep (a.expireOldFlows now).1.health c),
      (a.expireOldFlows now).2) := by
  simp only [expireOldFlows, withHealth, keep_lowFlag]

end FlowAggregator

theorem Logged.frames_step : Logged.handle.Frames flowPart Logged.step := by
  intro s c a
  refine congrArg some ?_
  cases a with
  | processEvent ord now event namespace_ podName =>
    have hcall := FlowAggregator.processEvent_withHealth s.agg c ord now event namespace_ podName
    simp only [Logged.call, Logged.handle]
    rw [hcall]
  | expireOldFlows now =>
    have hcall := FlowAggregator.expireOldFlows_withHealth s.agg c now
    simp only [Logged.call, Logged.handle]
    rw [hcall]
    rfl

/-! ### The event stream -/

def Streams.handle : Handle Streams HealthState where
  get s := s.health
  set health s := { s with health := health }
  get_set _ _ := rfl
  set_get _ := rfl
  set_set _ _ _ := rfl

theorem Streams.frames_step : Streams.handle.Frames streamPart Streams.step := by
  intro s c a
  cases a with
  | send event =>
    simp only [Streams.step, Streams.handle]
    cases s.channel.send event <;> rfl
  | subscribe id namespaces =>
    simp only [Streams.step, Streams.handle]
    by_cases hid : id ∈ s.subscribers <;> simp only [hid, if_true, if_false] <;> rfl
  | poll id =>
    simp only [Streams.step, Streams.handle]
    cases s.channel.recv id with
    | none => rfl
    | some r => cases s.subscribers.lookup id <;> rfl
  | leave id =>
    simp only [Streams.step, Streams.handle]
    by_cases hid : id ∈ s.channel.receivers <;> simp only [hid, if_true, if_false] <;> rfl

/-! ### The pod watcher -/

def PodCache.withHealth (c : PodCache) (health : HealthState) : PodCache := { c with health := health }

def WatcherState.handle : Handle WatcherState HealthState where
  get s := s.cache.health
  set health s := { s with cache := s.cache.withHealth health }
  get_set _ _ := rfl
  set_get _ := rfl
  set_set _ _ _ := rfl

namespace PodCache
variable (p : PodCache) (c : HealthState)

/-- `p` with the rest of its health as in `c`. -/
def framed : PodCache := p.withHealth (podPart.keep p.health c)

theorem framed_insertByIp (md : PodMetadata) : (p.framed c).insertByIp md = (p.insertByIp md).framed c := by
  unfold insertByIp
  cases md.podIp with
  | none => rfl
  | some ip =>
    simp only [insertIp, framed, withHealth]
    by_cases hmem : ip ∈ p.byIp
    · simp only [hmem, if_true]
    · by_cases hfull : len p.byIp ≥ p.maxEntries
      · simp only [hmem, hfull, if_true, if_false]
        rfl
      · simp only [hmem, hfull, if_false]

theorem framed_insert (g : UInt64) (md : PodMetadata) : (p.framed c).insert g md = (p.insert g md).framed c := by
  rw [insert_eq, insert_eq, framed_insertByIp]
  rfl

theorem framed_removePod (uid : String) : (p.framed c).removePod uid = (p.removePod uid).framed c := by
  simp only [removePod, framed, withHealth]
  by_cases hroom : len (retain (fun _ v => v.podUid != uid) p.byIp) < p.maxEntries
  · simp only [hroom, if_true]
    rfl
  · simp only [hroom, if_false]

end PodCache

section
variable (resolver : CgroupResolver) (fs : Fs) (p : PodCache) (c : HealthState) (pod : Pod)

theorem framed_applyContainer (podIp : Option UInt32) (cs : ContainerStatus) :
    resolver.applyContainer fs pod podIp (p.framed c) cs =
      (resolver.applyContainer fs pod podIp p cs).framed c := by
  unfold CgroupResolver.applyContainer
  cases cs.containerId with
  | none => rfl
  | some containerId =>
    dsimp only
    cases resolver.resolve fs pod.podUid containerId with
    | none => rfl
    | some g => exact p.framed_insert c g _

theorem framed_foldl_applyContainer (podIp : Option UInt32) (css : List ContainerStatus) :
    css.foldl (resolver.applyContainer fs pod podIp) (p.framed c) =
      (css.foldl (resolver.applyContainer fs pod podIp) p).framed c := by
  induction css generalizing p with
  | nil => rfl
  | cons cs css ih => rw [List.foldl_cons, framed_applyContainer, ih, List.foldl_cons]

theorem framed_handlePodApply :
    handlePodApply resolver fs (p.framed c) pod = (handlePodApply resolver fs p pod).framed c := by
  unfold handlePodApply
  split
  · rfl
  · cases pod.status with
    | none => rfl
    | some status =>
      dsimp only
      split
      · rw [PodCache.framed_insertByIp, framed_foldl_applyContainer]
      · rw [framed_foldl_applyContainer]

theorem framed_handlePodDelete : handlePodDelete (p.framed c) pod = (handlePodDelete p pod).framed c := by
  unfold handlePodDelete
  split
  · rfl
  · exact p.framed_removePod c pod.podUid

theorem framed_watchPods (w : PodWatcher) (event : WatchEvent) :
    w.watchPods fs (p.framed c) event = (w.watchPods fs p event).framed c := by
  cases event with
  | apply pod | initApply pod => exact framed_handlePodApply ..
  | delete pod => exact framed_handlePodDelete ..
  | init | initDone => rfl

theorem framed_applyAll (w : PodWatcher) (podList : List (Fs × Pod)) :
    w.applyAll (p.framed c) podList = (w.applyAll p podList).framed c := by
  induction podList generalizing p with
  | nil => rfl
  | cons q podList ih =>
    rw [PodWatcher.applyAll_cons, framed_handlePodApply, ih, PodWatcher.applyAll_cons]

theorem framed_resyncAll (w : PodWatcher) (podList : List (Fs × Pod)) :
    w.resyncAll (p.framed c) podList = (w.resyncAll p podList).framed c := by
  unfold PodWatcher.resyncAll
  rw [framed_applyAll]
  rfl

end

theorem PodWatcher.frames_step (w : PodWatcher) : WatcherState.handle.Frames podPart w.step := by
  intro s c a
  obtain ⟨p, backoff, phase⟩ := s
  show w.step ⟨p.framed c, backoff, phase⟩ a = _
  cases a with
  | deliver fs event =>
    cases phase <;> simp only [step, Option.map_none, Option.map_some, framed_watchPods]
    rfl
  | resync pods =>
    cases phase <;> cases pods <;> simp only [step, Option.map_none, Option.map_some, framed_resyncAll] <;> rfl
  | sessionEnd | sessionErr | wake | cancel => cases phase <;> rfl

end Orb8
