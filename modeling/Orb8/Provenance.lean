import Orb8.Composition

/-!
# Where the names come from

A flow, a row of a query and an event of a stream each carry a namespace and a pod name next to two
addresses. Whatever the tasks do to each other, the names are those of a pod that the cluster has
reported under one of the two addresses, or say that no pod is known.
-/

namespace Orb8
open AMap Trace SharedCell

/-- The pods that the cluster reports in an action. -/
def AgentAction.reported : AgentAction → List Pod
  | .watch a => a.applied
  | _ => []

/-- The actions report a pod of that namespace and name under the address. -/
def ReportedAt (acts : List AgentAction) (x : UInt32) (names : String × String) : Prop :=
  ∃ a ∈ acts, ∃ pod ∈ a.reported, pod.podUid ≠ "" ∧ pod.ip = some x ∧ names = (pod.namespace_, pod.name)

def Named (acts : List AgentAction) (srcIp dstIp : UInt32) (names : String × String) : Prop :=
  names = ("external", "unknown") ∨ ReportedAt acts srcIp names ∨ ReportedAt acts dstIp names

/-- The same for names that are shown next to two rendered addresses. -/
def Shown (acts : List AgentAction) (srcIp dstIp : String) (names : String × String) : Prop :=
  ∃ src dst, srcIp = formatIpv4 src ∧ dstIp = formatIpv4 dst ∧ Named acts src dst names

/-- The names in the hands of the main task. -/
def MainPc.Sourced (acts : List AgentAction) : MainPc → Prop
  | .dstLookup event srcPod _ => ∀ m, srcPod = some m → ReportedAt acts event.srcIp (podIdentity m)
  | .aggregating event namespace_ podName _ => Named acts event.srcIp event.dstIp (namespace_, podName)
  | .sending event _ => Shown acts event.srcIp event.dstIp (event.namespace_, event.podName)
  | _ => True

namespace Agent

structure Sourced (acts : List AgentAction) (s : Agent) : Prop where
  cache : ∀ x m, s.watcher.cache.byIp.lookup x = some m → ReportedAt acts x (podIdentity m)
  pc : s.pc.Sourced acts
  log : ∀ p ∈ KeyedFold.puts s.flows.log, Named acts p.1.srcIp p.1.dstIp (p.1.namespace_, p.1.podName)
  sent : ∀ e ∈ s.channel.sent, Shown acts e.srcIp e.dstIp (e.namespace_, e.podName)

/-- What clients get to see. -/
structure NamesSourced (acts : List AgentAction) (s : Agent) : Prop where
  queried : ∀ ord maxQueryLimit req, ∀ row ∈ queryFlows s.aggregator ord maxQueryLimit req,
    Shown acts row.srcIp row.dstIp (row.namespace_, row.podName)
  streamed : ∀ id sub, s.subscribers.lookup id = some sub → ∀ e ∈ sub.output,
    Shown acts e.srcIp e.dstIp (e.namespace_, e.podName)

end Agent

/-! ### The cache -/

section
variable {resolver : CgroupResolver} {fs : Fs} {c : PodCache} {w : PodWatcher} {s t : WatcherState}
  {a : WatchAction} {x : UInt32} {m : PodMetadata}

/-- The pod owns the metadata and was reported under the address. -/
def Pod.Put (pod : Pod) (x : UInt32) (m : PodMetadata) : Prop :=
  pod.podUid ≠ "" ∧ pod.ip = some x ∧ pod.Owns m

theorem put_of_handlePodApply {pod : Pod} (h : (handlePodApply resolver fs c pod).byIp.lookup x = some m) :
    c.byIp.lookup x = some m ∨ pod.Put x m := by
  by_cases hu : pod.podUid = ""
  · rw [handlePodApply_of_uid_empty hu] at h
    exact .inl h
  · rcases lookup_byIp_handlePodApply hu h with ⟨ho, hip⟩ | ⟨hold, -⟩
    · exact .inr ⟨hu, hip, ho⟩
    · exact .inl hold

theorem put_of_applyAll {podList : List (Fs × Pod)} (h : (w.applyAll c podList).byIp.lookup x = some m) :
    c.byIp.lookup x = some m ∨ ∃ pod ∈ podList.map Prod.snd, pod.Put x m := by
  induction podList generalizing c with
  | nil => exact .inl h
  | cons p podList ih =>
    rcases ih h with h | ⟨pod, hpod, hput⟩
    · rcases put_of_handlePodApply h with h | hput
      · exact .inl h
      · exact .inr ⟨p.2, List.mem_cons_self, hput⟩
    · exact .inr ⟨pod, List.mem_cons_of_mem _ hpod, hput⟩

theorem lookup_of_handlePodDelete {pod : Pod} (h : (handlePodDelete c pod).byIp.lookup x = some m) :
    c.byIp.lookup x = some m := by
  unfold handlePodDelete at h
  split at h
  · exact h
  · exact (PodCache.lookup_removePod.1 h).1

/-- What a step of the watcher leaves in the cache was there, or is of a pod that the step applies. -/
theorem put_of_watcherStep (hs : w.step s a = some t) (h : t.cache.byIp.lookup x = some m) :
    s.cache.byIp.lookup x = some m ∨ ∃ pod ∈ a.applied, pod.Put x m := by
  obtain ⟨c, backoff, phase⟩ := s
  cases PodWatcher.step_cases hs with
  | deliver fs event =>
    cases event with
    | apply pod | initApply pod =>
      exact (put_of_handlePodApply h).imp_right fun hput => ⟨pod, List.mem_singleton.2 rfl, hput⟩
    | delete pod => exact .inl (lookup_of_handlePodDelete h)
    | init | initDone => exact .inl h
  | resynced podList => exact put_of_applyAll h
  | _ => exact .inl h

end

/-! ### The steps -/

namespace Agent
variable {env : AgentEnv} {s t : Agent} {a : AgentAction} {acts : List AgentAction}

/-- The names that the two lookups lead to. -/
theorem named_namesOf {event : NetworkFlowEvent} {srcPod dstPod : Option PodMetadata}
    (hsrc : ∀ m, srcPod = some m → ReportedAt acts event.srcIp (podIdentity m))
    (hdst : ∀ m, dstPod = some m → ReportedAt acts event.dstIp (podIdentity m)) :
    Named acts event.srcIp event.dstIp (namesOf event srcPod dstPod) := by
  have hcase (h : namesOf event srcPod dstPod = ("external", "unknown") ∨
      (∃ m, srcPod = some m ∧ namesOf event srcPod dstPod = podIdentity m) ∨
      ∃ m, dstPod = some m ∧ namesOf event srcPod dstPod = podIdentity m) :
      Named acts event.srcIp event.dstIp (namesOf event srcPod dstPod) := by
    rcases h with h | ⟨m, hm, h⟩ | ⟨m, hm, h⟩
    · exact .inl h
    · exact .inr (.inl (h ▸ hsrc m hm))
    · exact .inr (.inr (h ▸ hdst m hm))
  refine hcase ?_
  unfold namesOf
  cases srcPod with
  | none =>
    cases dstPod with
    | none => exact .inl (by split <;> rfl)
    | some m => exact .inr (.inr ⟨m, rfl, by split <;> rfl⟩)
  | some m =>
    cases dstPod with
    | none => exact .inr (.inl ⟨m, rfl, by split <;> rfl⟩)
    | some m' =>
      by_cases hdir : event.direction = direction.INGRESS
      · exact .inr (.inr ⟨m', rfl, by rw [if_pos hdir]; rfl⟩)
      · exact .inr (.inl ⟨m, rfl, by rw [if_neg hdir]; rfl⟩)

theorem shown_networkEvent {event : NetworkFlowEvent} {namespace_ podName : String}
    (h : Named acts event.srcIp event.dstIp (namespace_, podName)) :
    Shown acts (networkEvent event namespace_ podName).srcIp (networkEvent event namespace_ podName).dstIp
      ((networkEvent event namespace_ podName).namespace_, (networkEvent event namespace_ podName).podName) :=
  ⟨event.srcIp, event.dstIp, rfl, rfl, h⟩

/-- A step of the streams sends at most the event it is given. -/
theorem mem_sent_of_step {st st' : Streams} {b : StreamAction} (hi : st.Inv) (hs : st.step b = some st')
    {e : NetworkEvent} (he : e ∈ st'.channel.sent) : e ∈ st.channel.sent ∨ b = .send e := by
  rcases sent_of_streams_step hi hs with ⟨event, rfl, ⟨hsent, -⟩ | ⟨hsent, -⟩⟩ | ⟨-, hsent, -⟩ <;> rw [hsent] at he
  · exact (List.mem_append.1 he).imp_right fun he => congrArg _ (List.mem_singleton.1 he).symm
  · exact .inl he
  · exact .inl he

theorem sourced_step (hi : s.streams.Inv) (h : s.Sourced acts) (ha : a ∈ acts) (ht : step env s a = some t) :
    t.Sourced acts := by
  obtain ⟨hcache, hpc, hlog, hsent⟩ := h
  cases step_cases ht with
  | frame egress penv ctx =>
    rcases frame_cases s egress penv ctx with ⟨-, ht⟩ | ⟨event, -, ⟨-, ht⟩ | ⟨-, ht⟩⟩ <;> rw [ht] <;>
      exact ⟨hcache, hpc, hlog, hsent⟩
  | attached | poll | selfTraffic | batchDone | signal => exact ⟨hcache, trivial, hlog, hsent⟩
  | next ring =>
    unfold polled
    split
    · exact ⟨hcache, hpc, hlog, hsent⟩
    · exact ⟨hcache, trivial, hlog, hsent⟩
  | srcLookup event events hpc' => exact ⟨hcache, fun m hm => hcache _ m hm, hlog, hsent⟩
  | dstLookup event srcPod events names hpc' hnames =>
    rw [hpc'] at hpc
    refine ⟨hcache, ?_, hlog, hsent⟩
    rw [hnames]
    exact named_namesOf hpc fun m hm => hcache _ m hm
  | processEvent ord now event namespace_ podName events hpc' =>
    rw [hpc'] at hpc
    refine ⟨hcache, shown_networkEvent hpc, fun p hp => ?_, hsent⟩
    simp only [withLogged, Logged.call, KeyedFold.puts_append, KeyedFold.puts_dropEntries,
      KeyedFold.puts_singleton, List.append_nil, List.mem_append, List.mem_singleton] at hp
    rcases hp with hp | rfl
    · exact hlog p hp
    · exact hpc
  | send event events streams hpc' hs =>
    rw [hpc'] at hpc
    refine ⟨hcache, trivial, hlog, fun e he => ?_⟩
    rcases mem_sent_of_step hi hs he with he | hb
    · exact hsent e he
    · obtain rfl := StreamAction.send.inj hb
      exact hpc
  | watch b w _ hw =>
    refine ⟨fun x m hm => ?_, hpc, hlog, hsent⟩
    rcases put_of_watcherStep hw hm with hold | ⟨pod, hpod, hu, hip, -, hns, hname⟩
    · exact hcache x m hold
    · exact ⟨.watch b, ha, pod, hpod, hu, hip, by rw [podIdentity, hns, hname]⟩
  | expireOldFlows now hpc' =>
    refine ⟨hcache, hpc, fun p hp => ?_, hsent⟩
    simp only [withLogged, Logged.call, KeyedFold.puts_append, KeyedFold.puts_dropEntries, List.append_nil] at hp
    exact hlog p hp
  | subscribe id namespaces streams hs =>
    refine ⟨hcache, hpc, hlog, fun e he => ?_⟩
    rcases mem_sent_of_step hi hs he with he | hb
    · exact hsent e he
    · cases hb
  | receive id streams hs =>
    refine ⟨hcache, hpc, hlog, fun e he => ?_⟩
    rcases mem_sent_of_step hi hs he with he | hb
    · exact hsent e he
    · cases hb
  | leave id streams hs =>
    refine ⟨hcache, hpc, hlog, fun e he => ?_⟩
    rcases mem_sent_of_step hi hs he with he | hb
    · exact hsent e he
    · cases hb

theorem sourced_boot (env : AgentEnv) (k8sEnabled : Bool) (acts : List AgentAction) :
    (boot env k8sEnabled).Sourced acts := by
  refine ⟨fun x m hm => ?_, trivial, fun _ hp => (nomatch hp), fun _ he => (nomatch he)⟩
  cases k8sEnabled <;> exact nomatch hm

/-! ### What clients see -/

/-- A live flow has an entry in the log. -/
theorem exists_put_of_lookup {lg : Logged} (h : lg.Inv) {k : FlowKey} {stats : FlowStats}
    (hk : lg.agg.flows.lookup k = some stats) : ∃ p ∈ KeyedFold.puts lg.log, p.1 = k := by
  have hsum := (h.exact k).symm.trans hk
  have hne : KeyedFold.since k lg.log ≠ [] := by
    intro hnil
    rw [hnil] at hsum
    cases hsum
  obtain ⟨e, he⟩ := List.exists_mem_of_ne_nil _ hne
  obtain ⟨p, hp, hpk⟩ := List.mem_filterMap.1 ((KeyedFold.since_sublist k lg.log).subset he)
  refine ⟨p, hp, ?_⟩
  by_contra hne'
  rw [if_neg hne'] at hpk
  cases hpk

/-- Every row of a query is a live flow. -/
theorem exists_flow_of_mem_queryFlows {agg : FlowAggregator} {ord : Order FlowKey FlowStats} {maxQueryLimit : Nat}
    {req : QueryFlowsRequest} {row : NetworkFlow} (h : row ∈ queryFlows agg ord maxQueryLimit req) :
    ∃ k stats, agg.flows.lookup k = some stats ∧ row = networkFlow k stats := by
  have hrow := (List.mem_insertionSort _).1 (List.mem_of_mem_take h)
  obtain ⟨e, he, rfl⟩ := List.mem_map.1 hrow
  have hvisit := (List.mem_filter.1 (List.mem_filter.1 he).1).1
  exact ⟨e.1, e.2, mem_toList.1 ((ord.perm _).mem_iff.1 hvisit), rfl⟩

theorem inv_run_sourced {k8sEnabled : Bool} (h : run (step env) (boot env k8sEnabled) acts = some s) :
    s.streams.Inv ∧ s.Sourced acts := by
  have hstep (s : Agent) (a : AgentAction) (t : Agent) (hs : s.streams.Inv ∧ s.Sourced acts) (ha : a ∈ acts)
      (ht : step env s a = some t) : t.streams.Inv ∧ t.Sourced acts :=
    ⟨inv_streams_step hs.1 ht, sourced_step hs.1 hs.2 ha ht⟩
  exact run_inv_of_forall hstep ⟨inv_streams_boot env k8sEnabled, sourced_boot env k8sEnabled acts⟩
    (fun _ ha => ha) h

theorem shown_of_lookup {k8sEnabled : Bool} (h : run (step env) (boot env k8sEnabled) acts = some s) {k : FlowKey}
    {stats : FlowStats} (hk : s.aggregator.flows.lookup k = some stats) :
    Shown acts (networkFlow k stats).srcIp (networkFlow k stats).dstIp (k.namespace_, k.podName) := by
  obtain ⟨p, hp, rfl⟩ := exists_put_of_lookup (inv_logged_run h) hk
  exact ⟨p.1.srcIp, p.1.dstIp, rfl, rfl, (inv_run_sourced h).2.log p hp⟩

/-- After every run, under every interleaving of the tasks, each namespace and pod name in the answer to
a query or in the output of a stream was reported by the cluster, earlier in the run and under one of the
two addresses that it is shown with; or it says that no pod is known. -/
theorem namesSourced_of_run (env : AgentEnv) (k8sEnabled : Bool) (acts : List AgentAction) (s : Agent)
    (h : run (step env) (boot env k8sEnabled) acts = some s) : s.NamesSourced acts := by
  obtain ⟨hstreams, hsourced⟩ := inv_run_sourced h
  constructor
  · intro ord maxQueryLimit req row hrow
    obtain ⟨k, stats, hk, rfl⟩ := exists_flow_of_mem_queryFlows hrow
    exact shown_of_lookup h hk
  · intro id sub hsub e he
    have hfaithful : sub.Faithful s.channel.sent := hstreams.faithful id sub hsub
    rw [hfaithful] at he
    exact hsourced.sent e ((Broadcast.between_sublist _ _ _ _).subset (List.mem_filter.1 he).1)

/-- The subscriber gets the event under the name of the pod that was reported. -/
theorem namesSourced_of_run_demo :
    (run (step demoEnv) (boot demoEnv true) demoActs).any (fun s =>
      (s.subscribers.lookup 0).any fun sub => sub.output.map (·.podName) = ["a"]) ∧
      ∀ s, run (step demoEnv) (boot demoEnv true) demoActs = some s → s.NamesSourced demoActs :=
  ⟨by decide, fun s h => namesSourced_of_run demoEnv true demoActs s h⟩

end Agent

end Orb8
