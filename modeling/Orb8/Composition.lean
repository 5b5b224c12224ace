import Orb8.Agent

/-!
# The agent is its components

In every run of the agent, whatever the interleaving, each component goes through a run that it could
have gone through alone, with a health of its own, and the one shared health is what the components
alone would show, put together. What is proved of a component holds of it in the agent.
-/

namespace Orb8
open AMap Trace SharedCell HealthState

/-- The components of an agent, each on its own. -/
structure Components where
  ring : PollState
  watcher : WatcherState
  flows : Logged
  streams : Streams

/-- Each component is in a state that it can reach alone. -/
structure Components.Reachable (env : AgentEnv) (c : Components) : Prop where
  ring : ∃ acts, run (PollState.step env.config.maxBatchSize) .init acts = some c.ring
  watcher : ∃ acts, run env.podWatcher.step
    (env.podWatcher.start (PodCache.new env.config.maxPodCacheEntries HealthState.new)) acts = some c.watcher
  flows : ∃ calls, run Logged.step (.init env.config.maxFlows env.config.flowTimeout) calls = some c.flows
  streams : ∃ acts, run Streams.step (.init env.slots) acts = some c.streams

namespace Agent

/-- The agent is made of the components, and its health of theirs. -/
structure ComposedOf (s : Agent) (c : Components) : Prop where
  ring : s.ring = c.ring
  watcher : s.podWatcher = WatcherState.handle.set s.health c.watcher
  flows : s.logged = Logged.handle.set s.health c.flows
  streams : s.streams = Streams.handle.set s.health c.streams
  health : s.health =
    { probesAttached := !(s.pc matches .starting)
      k8sWatcherConnected := c.watcher.cache.health.k8sWatcherConnected
      flowTableAtCapacity := c.flows.agg.health.flowTableAtCapacity
      podCacheAtCapacity := c.watcher.cache.health.podCacheAtCapacity
      broadcastDrops := c.streams.health.broadcastDrops
      flowEvictions := c.flows.agg.health.flowEvictions
      podCacheEvictions := c.watcher.cache.health.podCacheEvictions }

variable {env : AgentEnv} {s t : Agent} {a : AgentAction}

/-! ### What a step does to what is shared -/

/-- A step leaves what is shared alone, attaches the probes, or is a step of one component that is
handed the shared health. -/
inductive Effect (env : AgentEnv) (s t : Agent) : Prop
  | silent (hw : t.watcher = s.watcher) (hf : t.flows = s.flows) (hs : t.streams = s.streams)
  | probes (hw : t.watcher = s.watcher) (hf : t.flows = s.flows)
      (hs : t.streams = Streams.handle.set (s.health.setProbesAttached true) s.streams)
  | watch (b : WatchAction) (w : WatcherState) (hstep : env.podWatcher.step s.podWatcher b = some w)
      (ht : t = s.withWatcher w)
  | flows (c : FlowCall) (hf : t.flows = s.logged.call c) (hw : t.watcher = s.watcher)
      (hs : t.streams = Streams.handle.set (s.logged.call c).agg.health s.streams)
  | streams (b : StreamAction) (hstep : s.streams.step b = some t.streams) (hw : t.watcher = s.watcher)
      (hf : t.flows = s.flows)

theorem effect_of_step (h : step env s a = some t) : Effect env s t := by
  cases step_cases h with
  | frame egress penv ctx =>
    rcases frame_cases s egress penv ctx with ⟨-, hs⟩ | ⟨event, -, ⟨-, hs⟩ | ⟨-, hs⟩⟩ <;> rw [hs] <;>
      exact .silent rfl rfl rfl
  | attached => exact .probes rfl rfl rfl
  | poll | selfTraffic | srcLookup | dstLookup | batchDone | signal => exact .silent rfl rfl rfl
  | next ring =>
    unfold polled
    split <;> exact .silent rfl rfl rfl
  | processEvent | expireOldFlows => exact .flows _ rfl rfl rfl
  | send event events streams hpc hs => exact .streams _ hs rfl rfl
  | watch b w _ hw => exact .watch b w hw rfl
  | subscribe id namespaces streams hs => exact .streams _ hs rfl rfl
  | receive id streams hs => exact .streams _ hs rfl rfl
  | leave id streams hs => exact .streams _ hs rfl rfl

theorem health_of_streams {c : HealthState} (hs : t.streams = Streams.handle.set c s.streams) : t.health = c :=
  congrArg Streams.health hs

theorem podWatcher_of_eq (hw : t.watcher = s.watcher) :
    t.podWatcher = WatcherState.handle.set t.health s.podWatcher := by
  unfold podWatcher
  rw [hw, WatcherState.handle.set_set]

theorem logged_of_eq (hf : t.flows = s.flows) : t.logged = Logged.handle.set t.health s.logged := by
  unfold logged
  rw [hf, Logged.handle.set_set]

/-- What the pod watcher leaves to the others, and the others to it. -/
theorem podWatcher_step (h : step env s a = some t) :
    (∃ b, env.podWatcher.step s.podWatcher b = some t.podWatcher) ∨
      ∃ c, t.podWatcher = WatcherState.handle.set c s.podWatcher ∧ podPart.keep s.health c = c := by
  cases effect_of_step h with
  | silent hw hf hs =>
    have hh : t.health = s.health := congrArg Streams.health hs
    refine .inr ⟨t.health, podWatcher_of_eq hw, ?_⟩
    rw [hh, podPart.keep_self]
  | probes hw hf hs =>
    refine .inr ⟨t.health, podWatcher_of_eq hw, ?_⟩
    rw [health_of_streams hs]
    rfl
  | watch b w hstep ht =>
    refine .inl ⟨b, ?_⟩
    rw [ht, hstep]
    rfl
  | flows c hf hw hs =>
    have hkeep := Logged.frames_step.keep (s := s.logged) (a := c) rfl
    refine .inr ⟨t.health, podWatcher_of_eq hw, ?_⟩
    rw [health_of_streams hs]
    exact podPart_apart_flowPart.keep_of_keep hkeep
  | streams b hstep hw hf =>
    refine .inr ⟨t.health, podWatcher_of_eq hw, ?_⟩
    exact podPart_apart_streamPart.keep_of_keep (Streams.frames_step.keep hstep)

theorem logged_step (h : step env s a = some t) : (∃ c, Logged.step s.logged c = some t.logged) ∨
    ∃ c, t.logged = Logged.handle.set c s.logged ∧ flowPart.keep s.health c = c := by
  cases effect_of_step h with
  | silent hw hf hs =>
    have hh : t.health = s.health := congrArg Streams.health hs
    refine .inr ⟨t.health, logged_of_eq hf, ?_⟩
    rw [hh, flowPart.keep_self]
  | probes hw hf hs =>
    refine .inr ⟨t.health, logged_of_eq hf, ?_⟩
    rw [health_of_streams hs]
    rfl
  | watch b w hstep ht =>
    refine .inr ⟨t.health, logged_of_eq (by rw [ht]; rfl), ?_⟩
    rw [ht]
    exact flowPart_apart_podPart.keep_of_keep (env.podWatcher.frames_step.keep hstep)
  | flows c hf hw hs =>
    refine .inl ⟨c, congrArg some ?_⟩
    unfold logged
    rw [hf, health_of_streams hs]
    exact (Logged.handle.set_get _).symm
  | streams b hstep hw hf =>
    refine .inr ⟨t.health, logged_of_eq hf, ?_⟩
    exact flowPart_apart_streamPart.keep_of_keep (Streams.frames_step.keep hstep)

theorem streams_step (h : step env s a = some t) : (∃ b, Streams.step s.streams b = some t.streams) ∨
    ∃ c, t.streams = Streams.handle.set c s.streams ∧ streamPart.keep s.health c = c := by
  cases effect_of_step h with
  | silent hw hf hs =>
    refine .inr ⟨s.health, ?_, streamPart.keep_self _⟩
    rw [hs]
    exact (Streams.handle.set_get _).symm
  | probes hw hf hs => exact .inr ⟨_, hs, rfl⟩
  | watch b w hstep ht =>
    refine .inr ⟨w.cache.health, by rw [ht]; rfl, ?_⟩
    exact streamPart_apart_podPart.keep_of_keep (env.podWatcher.frames_step.keep hstep)
  | flows c hf hw hs =>
    have hkeep := Logged.frames_step.keep (s := s.logged) (a := c) rfl
    exact .inr ⟨_, hs, streamPart_apart_flowPart.keep_of_keep hkeep⟩
  | streams b hstep hw hf => exact .inl ⟨b, hstep⟩

theorem ring_step (h : step env s a = some t) :
    t.ring = s.ring ∨ ∃ b, PollState.step env.config.maxBatchSize s.ring b = some t.ring := by
  cases step_cases h with
  | frame egress penv ctx =>
    rcases frame_cases s egress penv ctx with ⟨-, hs⟩ | ⟨event, -, ⟨-, hs⟩ | ⟨-, hs⟩⟩ <;> rw [hs]
    · exact .inl rfl
    · exact .inr ⟨.submit event.toBytes, rfl⟩
    · exact .inl rfl
  | poll readable ring hpc hring => exact .inr ⟨_, hring⟩
  | next ring hpc hring =>
    refine .inr ⟨_, hring.trans ?_⟩
    unfold polled
    split <;> rfl
  | _ => exact .inl rfl

/-- The probes are attached once, and stay attached. -/
theorem probesAttached_step (h : step env s a = some t)
    (hs : s.health.probesAttached = !(s.pc matches .starting)) :
    t.health.probesAttached = !(t.pc matches .starting) := by
  have hflow (c : FlowCall) : (s.logged.call c).agg.health.probesAttached = s.health.probesAttached := by
    have hkeep := congrArg probesAttached (Logged.frames_step.keep (s := s.logged) (a := c) rfl)
    exact hkeep.symm
  have hstream {b : StreamAction} {st : Streams} (hst : s.streams.step b = some st) :
      st.health.probesAttached = s.health.probesAttached := by
    have hkeep := congrArg probesAttached (Streams.frames_step.keep hst)
    exact hkeep.symm
  cases step_cases h with
  | frame egress penv ctx =>
    rcases frame_cases s egress penv ctx with ⟨-, ht⟩ | ⟨event, -, ⟨-, ht⟩ | ⟨-, ht⟩⟩ <;> rw [ht] <;> exact hs
  | attached => rfl
  | poll readable ring hpc => rw [hpc] at hs; exact hs
  | next ring hpc =>
    rw [hpc] at hs
    unfold polled
    split
    · rw [hpc]; exact hs
    · exact hs
  | selfTraffic event events hpc | srcLookup event events hpc => rw [hpc] at hs; exact hs
  | dstLookup event srcPod events names hpc => rw [hpc] at hs; exact hs
  | processEvent ord now event namespace_ podName events hpc =>
    rw [hpc] at hs
    exact (hflow _).trans hs
  | send event events streams hpc hst =>
    rw [hpc] at hs
    exact (hstream hst).trans hs
  | batchDone hpc | signal hpc => rw [hpc] at hs; exact hs
  | watch b w _ hw =>
    have hkeep := congrArg probesAttached (env.podWatcher.frames_step.keep hw)
    exact hkeep.symm.trans hs
  | expireOldFlows now hpc => exact (hflow _).trans hs
  | subscribe id namespaces streams hst => exact (hstream hst).trans hs
  | receive id streams hst => exact (hstream hst).trans hs
  | leave id streams hst => exact (hstream hst).trans hs

theorem probesAttached_run {k8sEnabled : Bool} {acts : List AgentAction}
    (h : run (step env) (boot env k8sEnabled) acts = some s) :
    s.health.probesAttached = !(s.pc matches .starting) :=
  run_inv (I := fun s => s.health.probesAttached = !(s.pc matches .starting))
    (fun _ _ _ hs ht => probesAttached_step ht hs) rfl h

/-! ### What is sent -/

/-- What a step does to the events sent and to the drop counter: a send adds to one of the two. -/
theorem sent_of_streams_step {st st' : Streams} {b : StreamAction} (hi : st.Inv) (hs : st.step b = some st') :
    (∃ event, b = .send event ∧
      (st'.channel.sent = st.channel.sent ++ [event] ∧ st'.health.broadcastDrops = st.health.broadcastDrops ∨
        st'.channel.sent = st.channel.sent ∧ st'.health.broadcastDrops = st.health.broadcastDrops + 1)) ∨
    (∀ event, b ≠ .send event) ∧ st'.channel.sent = st.channel.sent ∧
      st'.health.broadcastDrops = st.health.broadcastDrops := by
  rcases Streams.step_cases hi hs with ⟨event, rfl, -, rfl⟩ | ⟨event, rfl, -, rfl⟩ | ⟨id, namespaces, rfl, -, rfl⟩ |
    ⟨id, sub, event, rfl, -, -, -, -, rfl⟩ | ⟨id, sub, rfl, -, -, -, rfl⟩ | ⟨id, rfl, rfl⟩
  · exact .inl ⟨event, rfl, .inl ⟨rfl, rfl⟩⟩
  · exact .inl ⟨event, rfl, .inr ⟨rfl, rfl⟩⟩
  all_goals exact .inr ⟨fun _ hb => (nomatch hb), rfl, rfl⟩

/-! ### Whole runs -/

theorem ring_run {k8sEnabled : Bool} {acts : List AgentAction}
    (h : run (step env) (boot env k8sEnabled) acts = some s) :
    ∃ bs, run (PollState.step env.config.maxBatchSize) .init bs = some s.ring := by
  have hsim : Simulates (step env) (PollState.step env.config.maxBatchSize) fun s r => s.ring = r := by
    rintro s _ a t rfl ht
    rcases ring_step ht with hring | ⟨b, hb⟩
    · exact ⟨[], s.ring, rfl, hring⟩
    · exact ⟨[b], t.ring, (run_singleton _ b).trans hb, rfl⟩
  obtain ⟨bs, r, hr, rfl⟩ := hsim.run (t := PollState.init) rfl h
  exact ⟨bs, hr⟩

/-- Without Kubernetes, the watcher is as if it had been cancelled at once. -/
theorem run_boot_watcher (env : AgentEnv) (k8sEnabled : Bool) : ∃ acts, run env.podWatcher.step
    (env.podWatcher.start (PodCache.new env.config.maxPodCacheEntries HealthState.new)) acts =
      some (boot env k8sEnabled).podWatcher := by
  cases k8sEnabled with
  | false => exact ⟨[.cancel], rfl⟩
  | true => exact ⟨[], rfl⟩

theorem watcher_run {k8sEnabled : Bool} {acts : List AgentAction}
    (h : run (step env) (boot env k8sEnabled) acts = some s) :
    ∃ watches w, run env.podWatcher.step
        (env.podWatcher.start (PodCache.new env.config.maxPodCacheEntries HealthState.new)) watches = some w ∧
      s.podWatcher = WatcherState.handle.set s.health w ∧ podPart.keep w.cache.health s.health = s.health := by
  obtain ⟨started, hstart⟩ := run_boot_watcher env k8sEnabled
  obtain ⟨watches, w, hw, hs⟩ := (env.podWatcher.frames_step.simulates podWatcher
    fun _ _ _ ht => podWatcher_step ht).run (.refl _) h
  exact ⟨started ++ watches, w, run_append_of_eq hstart hw, hs.eq_set⟩

theorem logged_run {k8sEnabled : Bool} {acts : List AgentAction}
    (h : run (step env) (boot env k8sEnabled) acts = some s) :
    ∃ calls lg, run Logged.step (.init env.config.maxFlows env.config.flowTimeout) calls = some lg ∧
      s.logged = Logged.handle.set s.health lg ∧ flowPart.keep lg.agg.health s.health = s.health := by
  obtain ⟨calls, lg, hlg, hs⟩ := (Logged.frames_step.simulates logged
    fun _ _ _ ht => logged_step ht).run (.refl _) h
  exact ⟨calls, lg, hlg, hs.eq_set⟩

theorem streams_run {k8sEnabled : Bool} {acts : List AgentAction}
    (h : run (step env) (boot env k8sEnabled) acts = some s) :
    ∃ streamed st, run Streams.step (.init env.slots) streamed = some st ∧
      s.streams = Streams.handle.set s.health st ∧ streamPart.keep st.health s.health = s.health := by
  obtain ⟨streamed, st, hst, hs⟩ := (Streams.frames_step.simulates streams
    fun _ _ _ ht => streams_step ht).run (.refl _) h
  exact ⟨streamed, st, hst, hs.eq_set⟩

/-- The flow table of an agent is exact for its log. -/
theorem inv_logged_run {k8sEnabled : Bool} {acts : List AgentAction}
    (h : run (step env) (boot env k8sEnabled) acts = some s) : s.logged.Inv := by
  obtain ⟨calls, lg, hlg, hs, -⟩ := logged_run h
  obtain ⟨hexact, hproc, hcons⟩ := Logged.inv_run hlg
  rw [hs]
  exact ⟨hexact, hproc, hcons⟩

theorem inv_streams_step (hi : s.streams.Inv) (h : step env s a = some t) : t.streams.Inv := by
  rcases streams_step h with ⟨b, hb⟩ | ⟨c, hc, -⟩
  · exact Streams.inv_step hi hb
  · obtain ⟨hfits, hfaithful, hnext⟩ := hi
    rw [hc]
    exact ⟨hfits, hfaithful, hnext⟩

theorem inv_streams_boot (env : AgentEnv) (k8sEnabled : Bool) : (boot env k8sEnabled).streams.Inv :=
  Streams.inv_init env.slots

end Agent

end Orb8
