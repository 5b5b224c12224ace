import Orb8.Cgroup
import Orb8.Net
import Orb8.PodCache
import Orb8.Lib.Trace

/-!
# The pod watcher (`k8s_watcher.rs`)

`handlePodApply` and `handlePodDelete` are the two writers of the pod cache. `Watcher` is
`PodWatcher::run` as a state machine: what the Kubernetes client delivers, how a watch session ends
and what a re-list returns are the actions, the backoff and the `select!` branches are the state.
-/

namespace Orb8
open AMap Trace

/-! ### The objects of the Kubernetes API, as far as the watcher reads them -/

structure ContainerStatus where
  name : String
  containerId : Option String

structure PodStatus where
  podIp : Option String
  containerStatuses : Option (List ContainerStatus)

structure ObjectMeta where
  namespace_ : Option String
  name : Option String
  uid : Option String

structure Pod where
  metadata : ObjectMeta
  status : Option PodStatus

namespace Pod

def namespace_ (pod : Pod) : String := pod.metadata.namespace_.getD "default"

def name (pod : Pod) : String := pod.metadata.name.getD "unknown"

def podUid (pod : Pod) : String := pod.metadata.uid.getD ""

/-- The pod IP of a status, as the watcher reads it. -/
def statusIp (status : PodStatus) : Option UInt32 := status.podIp.bind parseIpv4

/-- The pod IP that an Apply of `pod` carries. -/
def ip (pod : Pod) : Option UInt32 := pod.status.bind statusIp

end Pod

/-! ### Applying and deleting a pod -/

def CgroupResolver.applyContainer (resolver : CgroupResolver) (fs : Fs) (pod : Pod)
    (podIp : Option UInt32) (cache : PodCache) (cs : ContainerStatus) : PodCache :=
  match cs.containerId with
  | none => cache
  | some containerId =>
    match resolver.resolve fs pod.podUid containerId with
    | none => cache
    | some cgroupId =>
      cache.insert cgroupId
        { namespace_ := pod.namespace_, podName := pod.name, podUid := pod.podUid
          containerName := cs.name, containerId := containerId, podIp := podIp }

def handlePodApply (resolver : CgroupResolver) (fs : Fs) (cache : PodCache) (pod : Pod) : PodCache :=
  if pod.podUid = "" then cache
  else match pod.status with
    | none => cache
    | some status =>
      let podIp := Pod.statusIp status
      let cache :=
        if podIp.isSome then
          cache.insertByIp
            { namespace_ := pod.namespace_, podName := pod.name, podUid := pod.podUid
              containerName := "", containerId := "", podIp := podIp }
        else cache
      (status.containerStatuses.getD []).foldl (resolver.applyContainer fs pod podIp) cache

def handlePodDelete (cache : PodCache) (pod : Pod) : PodCache :=
  if pod.podUid = "" then cache else cache.removePod pod.podUid

/-! ### What they do to the two maps -/

namespace Pod

def Owns (pod : Pod) (m : PodMetadata) : Prop :=
  m.podUid = pod.podUid ∧ m.namespace_ = pod.namespace_ ∧ m.podName = pod.name

/-- One of the containers resolves to the cgroup `g`. -/
def Resolves (resolver : CgroupResolver) (fs : Fs) (pod : Pod) (css : List ContainerStatus)
    (g : UInt64) : Prop :=
  ∃ cs ∈ css, ∃ containerId, cs.containerId = some containerId ∧
    resolver.resolve fs pod.podUid containerId = some g

/-- The container statuses that an Apply of `pod` goes through. -/
def containers (pod : Pod) : List ContainerStatus :=
  (pod.status.bind (·.containerStatuses)).getD []

end Pod

section
variable {resolver : CgroupResolver} {fs : Fs} {c c' : PodCache} {pod : Pod} {x : UInt32} {g : UInt64}
  {m : PodMetadata} {podIp : Option UInt32} {cs : ContainerStatus}

/-- The loop body either skips the container or inserts metadata of the pod. -/
theorem applyContainer_cases (resolver : CgroupResolver) (fs : Fs) (pod : Pod)
    (podIp : Option UInt32) (c : PodCache) (cs : ContainerStatus) :
    (resolver.applyContainer fs pod podIp c cs = c ∧ ∀ g, ¬ pod.Resolves resolver fs [cs] g) ∨
    ∃ g md, resolver.applyContainer fs pod podIp c cs = c.insert g md ∧ pod.Owns md ∧
      md.podIp = podIp ∧ ∀ g', pod.Resolves resolver fs [cs] g' ↔ g' = g := by
  simp only [Pod.Resolves, List.mem_singleton, exists_eq_left, CgroupResolver.applyContainer]
  cases hid : cs.containerId with
  | none => exact .inl ⟨rfl, fun g => by simp⟩
  | some containerId =>
    cases hr : resolver.resolve fs pod.podUid containerId with
    | none => exact .inl ⟨by simp [hr], fun g => by simp [hr]⟩
    | some g =>
      exact .inr ⟨g, ⟨pod.namespace_, pod.name, pod.podUid, cs.name, containerId, podIp⟩,
        by simp [hr], ⟨rfl, rfl, rfl⟩, rfl, fun g' => by simp [hr, eq_comm]⟩

theorem foldl_applyContainer_induct {R : PodCache → Prop}
    (hins : ∀ c g md, R c → pod.Owns md → md.podIp = podIp → R (c.insert g md))
    (css : List ContainerStatus) (h : R c) : R (css.foldl (resolver.applyContainer fs pod podIp) c) := by
  induction css generalizing c with
  | nil => exact h
  | cons cs css ih =>
    refine ih ?_
    rcases applyContainer_cases resolver fs pod podIp c cs with ⟨he, -⟩ | ⟨g, md, he, ho, hip, -⟩ <;> rw [he]
    · exact h
    · exact hins c g md h ho hip

/-- An Apply indexes the pod under its address, if it has one, and then only inserts metadata of the
pod. -/
theorem handlePodApply_induct {R : PodCache → Prop} (hu : pod.podUid ≠ "") (hnone : pod.ip = none → R c)
    (hip : ∀ x md, pod.ip = some x → pod.Owns md → md.podIp = pod.ip → R (c.insertByIp md))
    (hins : ∀ c' g md, R c' → pod.Owns md → md.podIp = pod.ip → R (c'.insert g md)) :
    R (handlePodApply resolver fs c pod) := by
  rw [handlePodApply, if_neg hu]
  cases hs : pod.status with
  | none => exact hnone (by rw [Pod.ip, hs]; rfl)
  | some status =>
    have hstatus : pod.ip = Pod.statusIp status := by rw [Pod.ip, hs]; rfl
    rw [hstatus] at hnone hip hins
    refine foldl_applyContainer_induct hins _ ?_
    cases hx : Pod.statusIp status with
    | none => exact hnone hx
    | some x =>
      exact hip x ⟨pod.namespace_, pod.name, pod.podUid, "", "", some x⟩ hx ⟨rfl, rfl, rfl⟩ hx.symm

/-- Everything an Apply does to `byIp`: an upsert at the pod's address. -/
theorem upserts_handlePodApply (resolver : CgroupResolver) (fs : Fs) (c : PodCache)
    (hu : pod.podUid ≠ "") :
    PodCache.Upserts pod.Owns pod.ip c (handlePodApply resolver fs c pod) := by
  refine handlePodApply_induct hu (fun h => ?_) (fun x md _ ho h => ?_) fun c' g md hup ho h => ?_
  · rw [h]
    exact .refl_none
  · rw [← h]
    exact PodCache.upserts_insertByIp md ho
  · rw [← h] at hup ⊢
    exact hup.trans (PodCache.upserts_insert ho)

theorem handlePodApply_of_uid_empty (hu : pod.podUid = "") : handlePodApply resolver fs c pod = c :=
  if_pos hu

/-- An entry after an Apply is the pod's own, at the pod's address, or was there and is elsewhere. -/
theorem lookup_byIp_handlePodApply (hu : pod.podUid ≠ "")
    (h : (handlePodApply resolver fs c pod).byIp.lookup x = some m) :
    (pod.Owns m ∧ pod.ip = some x) ∨ (c.byIp.lookup x = some m ∧ pod.ip ≠ some x) := by
  have hup := upserts_handlePodApply resolver fs c hu
  by_cases hx : pod.ip = some x
  · by_cases ha : c.Admits x
    · obtain ⟨m', hm', ho⟩ := hup.own x hx ha
      rw [h] at hm'
      exact .inl ⟨Option.some.inj hm' ▸ ho, hx⟩
    · rw [hup.refused x hx ha] at h
      exact (ha (.inl (mem_iff_lookup.2 ⟨m, h⟩))).elim
  · exact .inr ⟨hup.other x hx ▸ h, hx⟩

theorem lookup_byCgroup_foldl (resolver : CgroupResolver) (fs : Fs) (pod : Pod)
    (podIp : Option UInt32) (g : UInt64) (css : List ContainerStatus) (c : PodCache) :
    (pod.Resolves resolver fs css g ∧ ∃ m, pod.Owns m ∧
      (css.foldl (resolver.applyContainer fs pod podIp) c).byCgroup.lookup g = some m) ∨
    (¬ pod.Resolves resolver fs css g ∧
      (css.foldl (resolver.applyContainer fs pod podIp) c).byCgroup.lookup g = c.byCgroup.lookup g) := by
  induction css generalizing c with
  | nil => exact .inr ⟨by simp [Pod.Resolves], rfl⟩
  | cons cs css ih =>
    have hcons : pod.Resolves resolver fs (cs :: css) g ↔
        pod.Resolves resolver fs [cs] g ∨ pod.Resolves resolver fs css g := by
      simp [Pod.Resolves]
    rw [List.foldl_cons, hcons]
    rcases ih (resolver.applyContainer fs pod podIp c cs) with ⟨hr, hm⟩ | ⟨hr, he⟩
    · exact .inl ⟨.inr hr, hm⟩
    · rw [he]
      rcases applyContainer_cases resolver fs pod podIp c cs with ⟨ha, hn⟩ | ⟨g', md, ha, ho, -, hg⟩
      · rw [ha]; exact .inr ⟨fun h => h.elim (hn g) hr, rfl⟩
      · rw [ha, PodCache.insert_byCgroup]
        by_cases hgg : g = g'
        · subst hgg
          exact .inl ⟨.inl ((hg g).2 rfl), md, ho, AList.lookup_insert _⟩
        · exact .inr ⟨fun h => h.elim (fun h => hgg ((hg g).1 h)) hr, AList.lookup_insert_ne hgg⟩

theorem lookup_byCgroup_handlePodApply (hu : pod.podUid ≠ "") (g : UInt64) :
    (pod.Resolves resolver fs pod.containers g ∧ ∃ m, pod.Owns m ∧
      (handlePodApply resolver fs c pod).byCgroup.lookup g = some m) ∨
    (¬ pod.Resolves resolver fs pod.containers g ∧
      (handlePodApply resolver fs c pod).byCgroup.lookup g = c.byCgroup.lookup g) := by
  rw [handlePodApply, if_neg hu]
  cases hs : pod.status with
  | none => exact .inr ⟨by simp [Pod.containers, hs, Pod.Resolves], rfl⟩
  | some status =>
    have hc : pod.containers = status.containerStatuses.getD [] := by simp [Pod.containers, hs]
    simp only [hc]
    have hby (md : PodMetadata) : (if (Pod.statusIp status).isSome then c.insertByIp md else c).byCgroup =
        c.byCgroup := by
      split
      · exact PodCache.insertByIp_byCgroup
      · rfl
    rw [← hby ⟨pod.namespace_, pod.name, pod.podUid, "", "", Pod.statusIp status⟩]
    exact lookup_byCgroup_foldl resolver fs pod _ g _ _

end

/-! ### The reconnection loop -/

inductive WatchEvent where
  | apply (pod : Pod)
  | initApply (pod : Pod)
  | delete (pod : Pod)
  | init
  | initDone

/-- The configuration of `PodWatcher`; durations are in nanoseconds. -/
structure PodWatcher where
  cgroupResolver : CgroupResolver
  backoffMin : Nat
  backoffMax : Nat

/-- Where `run` is suspended: in `watch_pods`, in the sleep after a failed session, or before
`resync_all`. -/
inductive WatchPhase where
  | watching
  | sleeping (duration : Nat)
  | resyncing
  | stopped
deriving DecidableEq

structure WatcherState where
  cache : PodCache
  backoff : Nat
  phase : WatchPhase

inductive WatchAction where
  /-- The stream yields an event; `fs` is the cgroup file system at that moment. -/
  | deliver (fs : Fs) (event : WatchEvent)
  /-- The stream ends: `watch_pods` returns `Ok`. -/
  | sessionEnd
  /-- The stream fails: `watch_pods` returns `Err`; the clock feeds the jitter. -/
  | sessionErr (subsecNanos : Nat)
  | wake
  /-- `resync_all`, with what `pods.list` returned (`none` for an error) and the cgroup file system as
  each pod is applied. -/
  | resync (pods : Option (List (Fs × Pod)))
  | cancel

def jitterMillis (backoff subsecNanos : Nat) : Nat :=
  let maxJitter := backoff / 1000000 / 4 % 2 ^ 64
  if maxJitter = 0 then 0 else subsecNanos % maxJitter

namespace PodWatcher

/-- The body of the loop of `watch_pods`. -/
def watchPods (w : PodWatcher) (fs : Fs) (cache : PodCache) : WatchEvent → PodCache
  | .apply pod | .initApply pod => handlePodApply w.cgroupResolver fs cache pod
  | .delete pod => handlePodDelete cache pod
  | .init => cache
  | .initDone => { cache with health := cache.health.setK8sWatcherConnected true }

/-- `handle_pod_apply` for one pod after the other. -/
def applyAll (w : PodWatcher) (cache : PodCache) (podList : List (Fs × Pod)) : PodCache :=
  podList.foldl (fun cache p => handlePodApply w.cgroupResolver p.1 cache p.2) cache

/-- `resync_all` once `pods.list` has returned. -/
def resyncAll (w : PodWatcher) (cache : PodCache) (podList : List (Fs × Pod)) : PodCache :=
  let cache := w.applyAll cache podList
  { cache with health := cache.health.setK8sWatcherConnected true }

/-- `PodWatcher::run` up to its first suspension. -/
def start (w : PodWatcher) (cache : PodCache) : WatcherState := ⟨cache, w.backoffMin, .watching⟩

def step (w : PodWatcher) (s : WatcherState) : WatchAction → Option WatcherState
  | .deliver fs event =>
    match s.phase with
    | .watching => some { s with cache := w.watchPods fs s.cache event }
    | _ => none
  | .sessionEnd =>
    match s.phase with
    | .watching => some { s with backoff := w.backoffMin, phase := .resyncing }
    | _ => none
  | .sessionErr subsecNanos =>
    match s.phase with
    | .watching => some { s with
        cache := { s.cache with health := s.cache.health.setK8sWatcherConnected false }
        phase := .sleeping (s.backoff + jitterMillis s.backoff subsecNanos * 1000000) }
    | _ => none
  | .wake =>
    match s.phase with
    | .sleeping _ => some { s with backoff := min (s.backoff * 2) w.backoffMax, phase := .resyncing }
    | _ => none
  | .resync pods =>
    match s.phase with
    | .resyncing => some { s with
        cache := match pods with
          | some podList => w.resyncAll s.cache podList
          | none => s.cache
        phase := .watching }
    | _ => none
  | .cancel =>
    match s.phase with
    | .stopped => none
    | _ => some { s with phase := .stopped }

variable (w : PodWatcher)

@[simp] theorem applyAll_cons (c : PodCache) (p : Fs × Pod) (l : List (Fs × Pod)) :
    w.applyAll c (p :: l) = w.applyAll (handlePodApply w.cgroupResolver p.1 c p.2) l := rfl

end PodWatcher

/-- The steps of the watcher, one constructor for each way to go on. -/
inductive WatcherStep (w : PodWatcher) (c : PodCache) (backoff : Nat) :
    WatchPhase → WatchAction → WatcherState → Prop
  | deliver (fs event) :
    WatcherStep w c backoff .watching (.deliver fs event) ⟨w.watchPods fs c event, backoff, .watching⟩
  | sessionEnd : WatcherStep w c backoff .watching .sessionEnd ⟨c, w.backoffMin, .resyncing⟩
  | sessionErr (subsecNanos) :
    WatcherStep w c backoff .watching (.sessionErr subsecNanos)
      ⟨{ c with health := c.health.setK8sWatcherConnected false }, backoff,
        .sleeping (backoff + jitterMillis backoff subsecNanos * 1000000)⟩
  | wake (duration) :
    WatcherStep w c backoff (.sleeping duration) .wake ⟨c, min (backoff * 2) w.backoffMax, .resyncing⟩
  | resynced (podList) :
    WatcherStep w c backoff .resyncing (.resync (some podList)) ⟨w.resyncAll c podList, backoff, .watching⟩
  | resyncFailed : WatcherStep w c backoff .resyncing (.resync none) ⟨c, backoff, .watching⟩
  | cancel (phase) (h : phase ≠ .stopped) : WatcherStep w c backoff phase .cancel ⟨c, backoff, .stopped⟩

theorem PodWatcher.step_cases {w : PodWatcher} {s t : WatcherState} {a : WatchAction} (h : w.step s a = some t) :
    WatcherStep w s.cache s.backoff s.phase a t := by
  obtain ⟨c, backoff, phase⟩ := s
  cases a with
  | deliver | sessionEnd | sessionErr | wake =>
    cases phase <;> simp only [step, reduceCtorEq, Option.some.injEq] at h
    subst h
    constructor
  | resync pods =>
    cases pods <;> cases phase <;> simp only [step, reduceCtorEq, Option.some.injEq] at h <;> subst h
    · exact .resyncFailed
    · exact .resynced _
  | cancel =>
    cases phase <;> simp only [step, reduceCtorEq, Option.some.injEq] at h <;> subst h <;>
      exact .cancel _ (by simp)

/-! ### A cluster to run on -/

/-- No container has a cgroup directory. -/
def demoFs : Fs := fun _ => none

/-- The backoff that `main` configures: from one second to thirty. -/
def PodWatcher.demo : PodWatcher := ⟨.new, 1000000000, 30000000000⟩

def demoPod (uid ip : String) : Pod := ⟨⟨some "default", some uid, some uid⟩, some ⟨some ip, none⟩⟩

end Orb8
