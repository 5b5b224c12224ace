import Orb8.Composition
import Orb8.Lib.Queues

/-!
# Clients do not disturb each other, nor the agent

Take any set of clients out of a run, with all that they do. What is left is a run. The flow table, the
pod cache, the ring and every health flag are as before, and each remaining client is sent the same
events and gets the same output: the channel gives it a queue of its own, which neither the number of
other receivers nor their lag can change. Only the drop counter tells that somebody is gone.
-/

namespace Orb8
open AMap Trace SharedCell HealthState Broadcast

/-- The client that takes the action. -/
def StreamAction.client : StreamAction → Option Nat
  | .send _ => none
  | .subscribe id _ | .poll id | .leave id => some id

def AgentAction.client : AgentAction → Option Nat
  | .subscribe id _ | .receive id | .leave id => some id
  | _ => none

/-- What a client has asked for and got. -/
def Subscriber.shown (sub : Subscriber) : List String × List NetworkEvent := (sub.namespaces, sub.output)

namespace Streams

/-- The clients in `keep` cannot tell the two apart, and `t` has no others. -/
structure AgreeOn (keep : Nat → Bool) (s t : Streams) : Prop where
  left : s.channel.WellPlaced
  right : t.channel.WellPlaced
  slots : s.channel.slots = t.channel.slots
  queues : ∀ j, keep j = true → s.channel.queue j = t.channel.queue j
  shown : ∀ j, keep j = true →
    (s.subscribers.lookup j).map Subscriber.shown = (t.subscribers.lookup j).map Subscriber.shown
  only : ∀ j, (t.channel.queue j).isSome → keep j = true
  drops : s.health.broadcastDrops ≤ t.health.broadcastDrops

variable {keep : Nat → Bool} {s s' t : Streams} {a : StreamAction} {id : Nat}

theorem deliver_shown {sub sub' : Subscriber} (h : sub.shown = sub'.shown) (r : Recv NetworkEvent) :
    (sub.deliver r).shown = (sub'.deliver r).shown := by
  obtain ⟨hns, hout⟩ := Prod.mk.inj h
  simp only [Subscriber.shown, Subscriber.deliver, hns, hout]

/-! ### A client that is left out -/

theorem AgreeOn.invisible (h : AgreeOn keep s t) (ha : a.client = some id) (hid : keep id = false)
    (hs : s.step a = some s') : AgreeOn keep s' t := by
  obtain ⟨hl, hr, hslots, hqueues, hshown, honly, hdrops⟩ := h
  have hne {j : Nat} (hj : keep j = true) : j ≠ id := fun he => by rw [he, hid] at hj; cases hj
  cases a with
  | send event => cases ha
  | subscribe id' namespaces =>
    obtain rfl := Option.some.inj ha
    simp only [step] at hs
    split at hs
    · cases hs
    · obtain rfl := Option.some.inj hs
      refine ⟨hl.subscribe id', hr, hslots, fun j hj => ?_, fun j hj => ?_, honly, hdrops⟩
      · rw [← hqueues j hj]
        exact (Channel.queue_subscribe _ _ _).trans (if_neg (hne hj))
      · rw [← hshown j hj]
        exact congrArg (Option.map _) (AList.lookup_insert_ne (hne hj))
  | poll id' =>
    obtain rfl := Option.some.inj ha
    simp only [step] at hs
    split at hs
    · rename_i r channel sub hrecv hsub
      obtain rfl := Option.some.inj hs
      refine ⟨hl.recv hrecv, hr, (Channel.recv_slots hrecv).trans hslots, fun j hj => ?_, fun j hj => ?_, honly, hdrops⟩
      · rw [← hqueues j hj]
        exact Channel.queue_recv_of_ne hrecv (hne hj)
      · rw [← hshown j hj]
        exact congrArg (Option.map _) (AList.lookup_insert_ne (hne hj))
    · cases hs
  | leave id' =>
    obtain rfl := Option.some.inj ha
    simp only [step] at hs
    split at hs
    · obtain rfl := Option.some.inj hs
      refine ⟨hl.unsubscribe id', hr, hslots, fun j hj => ?_, hshown, honly, hdrops⟩
      rw [← hqueues j hj]
      exact (Channel.queue_unsubscribe _ _ _).trans (if_neg (hne hj))
    · cases hs

/-! ### A client that stays, and the event loop -/

theorem AgreeOn.send (h : AgreeOn keep s t) (event : NetworkEvent) (hs : s.step (.send event) = some s') :
    ∃ t', t.step (.send event) = some t' ∧ AgreeOn keep s' t' := by
  obtain ⟨hl, hr, hslots, hqueues, hshown, honly, hdrops⟩ := h
  simp only [step] at hs ⊢
  cases hcs : s.channel.send event with
  | none =>
    rw [hcs] at hs
    obtain rfl := Option.some.inj hs
    have hnone : t.channel.send event = none := by
      refine Channel.send_eq_none_iff.2 fun j => ?_
      by_contra hq
      have hj := honly j (Option.isSome_iff_ne_none.2 hq)
      exact hq ((hqueues j hj).symm.trans (Channel.send_eq_none_iff.1 hcs j))
    rw [hnone]
    exact ⟨_, rfl, hl, hr, hslots, hqueues, hshown, honly, Nat.succ_le_succ hdrops⟩
  | some c =>
    rw [hcs] at hs
    obtain rfl := Option.some.inj hs
    have hslots' : c.slots = s.channel.slots := by
      unfold Channel.send at hcs
      split at hcs
      · cases hcs
      · rw [← Option.some.inj hcs]
    cases hct : t.channel.send event with
    | none =>
      -- only clients that are left out are there to receive it
      refine ⟨_, rfl, hl.send hcs, hr, hslots'.trans hslots, fun j hj => ?_, hshown, honly,
        Nat.le_succ_of_le hdrops⟩
      have htj := Channel.send_eq_none_iff.1 hct j
      rw [show t.channel.queue j = none from htj]
      show c.queue j = none
      rw [Channel.queue_send hl hcs, hqueues j hj, htj]
      rfl
    | some c' =>
      have hslots'' : c'.slots = t.channel.slots := by
        unfold Channel.send at hct
        split at hct
        · cases hct
        · rw [← Option.some.inj hct]
      refine ⟨_, rfl, hl.send hcs, hr.send hct, hslots'.trans (hslots.trans hslots''.symm), fun j hj => ?_, hshown,
        fun j hj => honly j ?_, hdrops⟩
      · show c.queue j = c'.queue j
        rw [Channel.queue_send hl hcs, Channel.queue_send hr hct, hqueues j hj]
      · have hqj : (c'.queue j).isSome := hj
        rwa [Channel.queue_send hr hct, Option.isSome_map] at hqj

theorem AgreeOn.poll (h : AgreeOn keep s t) (hid : keep id = true) (hs : s.step (.poll id) = some s') :
    ∃ t', t.step (.poll id) = some t' ∧ AgreeOn keep s' t' := by
  obtain ⟨hl, hr, hslots, hqueues, hshown, honly, hdrops⟩ := h
  simp only [step] at hs ⊢
  split at hs
  · rename_i r c sub hrecv hsub
    obtain rfl := Option.some.inj hs
    cases hq : s.channel.queue id with
    | none =>
      rw [Channel.recv_of_queue_none hq] at hrecv
      cases hrecv
    | some q =>
      have hqt : t.channel.queue id = some q := (hqueues id hid).symm.trans hq
      have hpops := Channel.recv_eq_pop hl hq
      have hpopt := Channel.recv_eq_pop hr hqt
      rw [← hslots, ← hpops, hrecv] at hpopt
      obtain ⟨⟨r', c'⟩, hrecv', heq⟩ := Option.map_eq_some_iff.1 hpopt
      obtain ⟨rfl, hqueue⟩ := Prod.mk.inj heq
      have hview := hshown id hid
      rw [hsub] at hview
      obtain ⟨sub', hsub', hsame⟩ := Option.map_eq_some_iff.1 hview.symm
      rw [hrecv', hsub']
      refine ⟨_, rfl, hl.recv hrecv, hr.recv hrecv', ?_, fun j hj => ?_, fun j hj => ?_, fun j hj => ?_, hdrops⟩
      · exact (Channel.recv_slots hrecv).trans (hslots.trans (Channel.recv_slots hrecv').symm)
      · by_cases hne : j = id
        · rw [hne]
          exact hqueue.symm
        · exact (Channel.queue_recv_of_ne hrecv hne).trans
            ((hqueues j hj).trans (Channel.queue_recv_of_ne hrecv' hne).symm)
      · by_cases hne : j = id
        · subst hne
          show ((s.subscribers.insert j _).lookup j).map _ = ((t.subscribers.insert j _).lookup j).map _
          rw [AList.lookup_insert, AList.lookup_insert, Option.map_some, Option.map_some,
            deliver_shown hsame]
        · show ((s.subscribers.insert id _).lookup j).map _ = ((t.subscribers.insert id _).lookup j).map _
          rw [AList.lookup_insert_ne hne, AList.lookup_insert_ne hne]
          exact hshown j hj
      · by_cases hne : j = id
        · exact hne ▸ hid
        · refine honly j ?_
          rwa [← Channel.queue_recv_of_ne hrecv' hne]
  · cases hs

theorem AgreeOn.subscribe (h : AgreeOn keep s t) (hid : keep id = true) (namespaces : List String)
    (hs : s.step (.subscribe id namespaces) = some s') :
    ∃ t', t.step (.subscribe id namespaces) = some t' ∧ AgreeOn keep s' t' := by
  obtain ⟨hl, hr, hslots, hqueues, hshown, honly, hdrops⟩ := h
  have hmem : id ∈ s.subscribers ↔ id ∈ t.subscribers := by
    rw [← AList.lookup_isSome, ← AList.lookup_isSome, ← Option.isSome_map (f := Subscriber.shown), hshown id hid,
      Option.isSome_map]
  simp only [step] at hs ⊢
  split at hs
  · cases hs
  · rename_i hnew
    obtain rfl := Option.some.inj hs
    rw [if_neg (fun hm => hnew (hmem.2 hm))]
    refine ⟨_, rfl, hl.subscribe id, hr.subscribe id, hslots, fun j hj => ?_, fun j hj => ?_, fun j hj => ?_, hdrops⟩
    · show (s.channel.subscribe id).queue j = (t.channel.subscribe id).queue j
      rw [Channel.queue_subscribe, Channel.queue_subscribe, hqueues j hj]
    · by_cases hne : j = id
      · subst hne
        show ((s.subscribers.insert j _).lookup j).map _ = ((t.subscribers.insert j _).lookup j).map _
        rw [AList.lookup_insert, AList.lookup_insert]
        rfl
      · show ((s.subscribers.insert id _).lookup j).map _ = ((t.subscribers.insert id _).lookup j).map _
        rw [AList.lookup_insert_ne hne, AList.lookup_insert_ne hne]
        exact hshown j hj
    · by_cases hne : j = id
      · exact hne ▸ hid
      · refine honly j ?_
        have hqj : ((t.channel.subscribe id).queue j).isSome := hj
        rwa [Channel.queue_subscribe, if_neg hne] at hqj

theorem AgreeOn.leave (h : AgreeOn keep s t) (hid : keep id = true) (hs : s.step (.leave id) = some s') :
    ∃ t', t.step (.leave id) = some t' ∧ AgreeOn keep s' t' := by
  obtain ⟨hl, hr, hslots, hqueues, hshown, honly, hdrops⟩ := h
  simp only [step] at hs ⊢
  split at hs
  · rename_i hmem
    obtain rfl := Option.some.inj hs
    have hmem' : id ∈ t.channel.receivers := by
      rw [← Channel.queue_isSome, ← hqueues id hid]
      exact Channel.queue_isSome.2 hmem
    rw [if_pos hmem']
    refine ⟨_, rfl, hl.unsubscribe id, hr.unsubscribe id, hslots, fun j hj => ?_, hshown, fun j hj => ?_, hdrops⟩
    · show (s.channel.unsubscribe id).queue j = (t.channel.unsubscribe id).queue j
      rw [Channel.queue_unsubscribe, Channel.queue_unsubscribe, hqueues j hj]
    · have hqj : ((t.channel.unsubscribe id).queue j).isSome := hj
      rw [Channel.queue_unsubscribe] at hqj
      split at hqj
      · cases hqj
      · exact honly j hqj
  · cases hs

end Streams

/-! ### The agent -/

namespace Agent
variable {env : AgentEnv} {keep : Nat → Bool} {s s' t : Agent} {a : AgentAction}

/-- Neither the clients in `keep` nor the agent's own tasks can tell the two apart. -/
structure AgreeOn (keep : Nat → Bool) (s t : Agent) : Prop where
  pc : s.pc = t.pc
  ring : s.ring = t.ring
  kernelDropped : s.kernelDropped = t.kernelDropped
  dropCounterMap : s.dropCounterMap = t.dropCounterMap
  eventsDropped : s.eventsDropped = t.eventsDropped
  podWatcher : s.podWatcher = WatcherState.handle.set s.health t.podWatcher
  logged : s.logged = Logged.handle.set s.health t.logged
  streams : s.streams.AgreeOn keep t.streams
  health : s.health = streamPart.keep s.health t.health

theorem AgreeOn.getByIp (h : AgreeOn keep s t) (ip : UInt32) : s.podCache.getByIp ip = t.podCache.getByIp ip := by
  unfold podCache
  rw [h.podWatcher]
  rfl

theorem AgreeOn.mayTake (h : AgreeOn keep s t) (b : WatchAction) : s.mayTake b = t.mayTake b := by
  cases b with
  | cancel => simp only [Agent.mayTake, h.pc]
  | _ => rfl

/-- A step that does not touch the watcher keeps its agreement. -/
theorem AgreeOn.podWatcher_of_eq {s' t' : Agent} (h : AgreeOn keep s t) (hs : s'.watcher = s.watcher)
    (ht : t'.watcher = t.watcher) : s'.podWatcher = WatcherState.handle.set s'.health t'.podWatcher := by
  rw [Agent.podWatcher_of_eq hs, Agent.podWatcher_of_eq ht, h.podWatcher]
  simp only [WatcherState.handle.set_set]

theorem AgreeOn.logged_of_eq {s' t' : Agent} (h : AgreeOn keep s t) (hs : s'.flows = s.flows)
    (ht : t'.flows = t.flows) : s'.logged = Logged.handle.set s'.health t'.logged := by
  rw [Agent.logged_of_eq hs, Agent.logged_of_eq ht, h.logged]
  simp only [Logged.handle.set_set]

/-! ### Calls on the event stream -/

/-- A call of a client that is left out. -/
theorem AgreeOn.withStreams_left (h : AgreeOn keep s t) {b : StreamAction} {st : Streams}
    (hs : s.streams.step b = some st) (hst : st.AgreeOn keep t.streams) : AgreeOn keep (s.withStreams st) t where
  pc := h.pc
  ring := h.ring
  kernelDropped := h.kernelDropped
  dropCounterMap := h.dropCounterMap
  eventsDropped := h.eventsDropped
  podWatcher := h.podWatcher_of_eq rfl rfl
  logged := h.logged_of_eq rfl rfl
  streams := hst
  health := by
    have hsk : streamPart.keep st.health s.health = st.health := Streams.frames_step.keep hs
    show st.health = streamPart.keep st.health t.health
    rw [← hsk, streamPart.keep_keep, h.health, streamPart.keep_keep_right]

/-- A call in both agents. -/
theorem AgreeOn.withStreams (h : AgreeOn keep s t) {b : StreamAction} {st st' : Streams}
    (hs : s.streams.step b = some st) (ht : t.streams.step b = some st') (hst : st.AgreeOn keep st') :
    AgreeOn keep (s.withStreams st) (t.withStreams st') where
  pc := h.pc
  ring := h.ring
  kernelDropped := h.kernelDropped
  dropCounterMap := h.dropCounterMap
  eventsDropped := h.eventsDropped
  podWatcher := h.podWatcher_of_eq rfl rfl
  logged := h.logged_of_eq rfl rfl
  streams := hst
  health := by
    have hsk : streamPart.keep st.health s.health = st.health := Streams.frames_step.keep hs
    have htk : streamPart.keep st'.health t.health = st'.health := Streams.frames_step.keep ht
    show st.health = streamPart.keep st.health st'.health
    rw [← htk, streamPart.keep_keep_right, ← hsk, streamPart.keep_keep, h.health, streamPart.keep_keep_right]

/-! ### The other tasks -/

/-- What the tasks that are framed by `p` see of the shared health is the same in both. -/
theorem AgreeOn.keep_health (h : AgreeOn keep s t) {p : Portion HealthState} (hp : p.Apart streamPart) :
    p.keep t.health s.health = s.health := by
  rw [h.health]
  exact hp _ _

theorem AgreeOn.drops (h : AgreeOn keep s t) {c d : HealthState} (hc : c.broadcastDrops = s.health.broadcastDrops)
    (hd : d.broadcastDrops = t.health.broadcastDrops) : c.broadcastDrops ≤ d.broadcastDrops := by
  rw [hc, hd]
  exact h.streams.drops

theorem AgreeOn.withLogged (h : AgreeOn keep s t) (c : FlowCall) :
    AgreeOn keep (s.withLogged (s.logged.call c)) (t.withLogged (t.logged.call c)) := by
  have hagrees : Logged.handle.Agrees flowPart s.logged t.logged :=
    h.logged.trans (congrArg (Logged.handle.set · t.logged) (h.keep_health flowPart_apart_streamPart).symm)
  obtain ⟨lg, hlg, hagrees'⟩ := Logged.frames_step.agrees (a := c) hagrees rfl
  obtain rfl := Option.some.inj hlg
  obtain ⟨hset, hkeep⟩ := hagrees'.eq_set
  have hsk : flowPart.keep (s.logged.call c).agg.health s.health = (s.logged.call c).agg.health :=
    Logged.frames_step.keep (s := s.logged) (a := c) rfl
  have htk : flowPart.keep (t.logged.call c).agg.health t.health = (t.logged.call c).agg.health :=
    Logged.frames_step.keep (s := t.logged) (a := c) rfl
  exact {
    pc := h.pc
    ring := h.ring
    kernelDropped := h.kernelDropped
    dropCounterMap := h.dropCounterMap
    eventsDropped := h.eventsDropped
    podWatcher := h.podWatcher_of_eq rfl rfl
    logged := hset
    streams :=
      { h.streams with
        drops := h.drops (congrArg broadcastDrops hsk).symm (congrArg broadcastDrops htk).symm }
    health := Portion.eq_keep_of_keep (fun _ _ _ => rfl) h.health hsk htk hkeep }

theorem AgreeOn.withWatcher (h : AgreeOn keep s t) {b : WatchAction} {w : WatcherState}
    (hw : env.podWatcher.step s.podWatcher b = some w) :
    ∃ w', env.podWatcher.step t.podWatcher b = some w' ∧ AgreeOn keep (s.withWatcher w) (t.withWatcher w') := by
  have hagrees : WatcherState.handle.Agrees podPart s.podWatcher t.podWatcher :=
    h.podWatcher.trans
      (congrArg (WatcherState.handle.set · t.podWatcher) (h.keep_health podPart_apart_streamPart).symm)
  obtain ⟨w', hw', hagrees'⟩ := env.podWatcher.frames_step.agrees hagrees hw
  obtain ⟨hset, hkeep⟩ := hagrees'.eq_set
  have hsk : podPart.keep w.cache.health s.health = w.cache.health := env.podWatcher.frames_step.keep hw
  have htk : podPart.keep w'.cache.health t.health = w'.cache.health := env.podWatcher.frames_step.keep hw'
  refine ⟨w', hw', ?_⟩
  exact {
    pc := h.pc
    ring := h.ring
    kernelDropped := h.kernelDropped
    dropCounterMap := h.dropCounterMap
    eventsDropped := h.eventsDropped
    podWatcher := hset
    logged := h.logged_of_eq rfl rfl
    streams :=
      { h.streams with
        drops := h.drops (congrArg broadcastDrops hsk).symm (congrArg broadcastDrops htk).symm }
    health := Portion.eq_keep_of_keep (fun _ _ _ => rfl) h.health hsk htk hkeep }

/-- The main loop goes on to the same place in both. -/
theorem AgreeOn.withPc (h : AgreeOn keep s t) (pc : MainPc) : AgreeOn keep { s with pc } { t with pc } where
  pc := rfl
  ring := h.ring
  kernelDropped := h.kernelDropped
  dropCounterMap := h.dropCounterMap
  eventsDropped := h.eventsDropped
  podWatcher := h.podWatcher
  logged := h.logged
  streams := { h.streams with drops := h.streams.drops }
  health := h.health

theorem AgreeOn.withRing (h : AgreeOn keep s t) (ring : PollState) : AgreeOn keep { s with ring } { t with ring } where
  pc := h.pc
  ring := rfl
  kernelDropped := h.kernelDropped
  dropCounterMap := h.dropCounterMap
  eventsDropped := h.eventsDropped
  podWatcher := h.podWatcher
  logged := h.logged
  streams := { h.streams with drops := h.streams.drops }
  health := h.health

/-! ### Every step -/

theorem AgreeOn.invisible (h : AgreeOn keep s t) (ha : a.client.all keep = false) (hs : step env s a = some s') :
    AgreeOn keep s' t := by
  cases step_cases hs with
  | subscribe id namespaces st hst | receive id st hst | leave id st hst =>
    exact h.withStreams_left hst (h.streams.invisible rfl ha hst)
  | _ => cases ha

theorem AgreeOn.visible (h : AgreeOn keep s t) (ha : a.client.all keep = true) (hs : step env s a = some s') :
    ∃ t', step env t a = some t' ∧ AgreeOn keep s' t' := by
  have hpc := h.pc
  cases step_cases hs with
  | frame egress penv ctx =>
    refine ⟨_, rfl, ?_⟩
    have hring : (s.frame egress penv ctx).ring = (t.frame egress penv ctx).ring := by
      simp only [Agent.frame, h.ring, h.kernelDropped]
    have hdropped : (s.frame egress penv ctx).kernelDropped = (t.frame egress penv ctx).kernelDropped := by
      simp only [Agent.frame, h.ring, h.kernelDropped]
    exact { h with ring := hring, kernelDropped := hdropped, streams := { h.streams with drops := h.streams.drops } }
  | attached dropCounterMap hat =>
    refine ⟨_, step_of_agentStep (.attached dropCounterMap (hpc ▸ hat)), ?_⟩
    exact { h with
      pc := rfl
      dropCounterMap := rfl
      podWatcher := h.podWatcher_of_eq rfl rfl
      logged := h.logged_of_eq rfl rfl
      streams := { h.streams with drops := h.streams.drops }
      health := by rw [h.health]; rfl }
  | poll readable ring hat hring =>
    refine ⟨_, step_of_agentStep (.poll readable ring (hpc ▸ hat) (h.ring ▸ hring)), ?_⟩
    exact { (h.withPc .polling).withRing ring with
      eventsDropped := by simp only [h.dropCounterMap, h.kernelDropped, h.eventsDropped] }
  | next ring hat hring =>
    refine ⟨_, step_of_agentStep (.next ring (hpc ▸ hat) (h.ring ▸ hring)), ?_⟩
    unfold polled
    split
    · exact h.withRing ring
    · exact (h.withRing ring).withPc _
  | selfTraffic event events hat hself =>
    exact ⟨_, step_of_agentStep (.selfTraffic event events (hpc ▸ hat) hself), h.withPc _⟩
  | srcLookup event events hat hself =>
    refine ⟨_, step_of_agentStep (.srcLookup event events (hpc ▸ hat) hself), ?_⟩
    rw [h.getByIp]
    exact h.withPc _
  | dstLookup event srcPod events names hat hnames =>
    rw [h.getByIp] at hnames
    exact ⟨_, step_of_agentStep (.dstLookup event srcPod events names (hpc ▸ hat) hnames), h.withPc _⟩
  | processEvent ord now event namespace_ podName events hat =>
    exact ⟨_, step_of_agentStep (.processEvent ord now event namespace_ podName events (hpc ▸ hat)),
      (h.withLogged _).withPc _⟩
  | send event events st hat hst =>
    obtain ⟨st', hst', hagree⟩ := h.streams.send event hst
    exact ⟨_, step_of_agentStep (.send event events st' (hpc ▸ hat) hst'), (h.withStreams hst hst' hagree).withPc _⟩
  | batchDone hat => exact ⟨_, step_of_agentStep (.batchDone (hpc ▸ hat)), h.withPc _⟩
  | signal hat => exact ⟨_, step_of_agentStep (.signal (hpc ▸ hat)), h.withPc _⟩
  | watch b w hmay hw =>
    obtain ⟨w', hw', hagree⟩ := h.withWatcher hw
    exact ⟨_, step_of_agentStep (.watch b w' (h.mayTake b ▸ hmay) hw'), hagree⟩
  | expireOldFlows now hat =>
    exact ⟨_, step_of_agentStep (.expireOldFlows now (hpc ▸ hat)), h.withLogged _⟩
  | subscribe id namespaces st hst =>
    obtain ⟨st', hst', hagree⟩ := h.streams.subscribe ha namespaces hst
    exact ⟨_, step_of_agentStep (.subscribe id namespaces st' hst'), h.withStreams hst hst' hagree⟩
  | receive id st hst =>
    obtain ⟨st', hst', hagree⟩ := h.streams.poll ha hst
    exact ⟨_, step_of_agentStep (.receive id st' hst'), h.withStreams hst hst' hagree⟩
  | leave id st hst =>
    obtain ⟨st', hst', hagree⟩ := h.streams.leave ha hst
    exact ⟨_, step_of_agentStep (.leave id st' hst'), h.withStreams hst hst' hagree⟩

theorem agreeOn_boot (env : AgentEnv) (k8sEnabled : Bool) (keep : Nat → Bool) :
    AgreeOn keep (boot env k8sEnabled) (boot env k8sEnabled) where
  pc := rfl
  ring := rfl
  kernelDropped := rfl
  dropCounterMap := rfl
  eventsDropped := rfl
  podWatcher := (WatcherState.handle.set_get _).symm
  logged := (Logged.handle.set_get _).symm
  streams := ⟨Channel.wellPlaced_new _, Channel.wellPlaced_new _, rfl, fun _ _ => rfl, fun _ _ => rfl, fun _ h => (nomatch h), le_rfl⟩
  health := rfl

/-- Any run of the agent, without some of its clients and all that they did, is a run. It ends in a
state that is the same for the main loop, the ring, the pod cache, the flow table and every client that
is left; of the health, only the drop counter may differ, and it does not get smaller. -/
theorem isolated_of_run (env : AgentEnv) (k8sEnabled : Bool) (keep : Nat → Bool) (acts : List AgentAction)
    (s : Agent) (h : run (step env) (boot env k8sEnabled) acts = some s) :
    ∃ t, run (step env) (boot env k8sEnabled) (acts.filter fun a => a.client.all keep) = some t ∧ AgreeOn keep s t :=
  Hides.run_filter ⟨fun _ _ _ _ hR ha hs => hR.invisible ha hs, fun _ _ _ _ hR ha hs => hR.visible ha hs⟩
    (agreeOn_boot env k8sEnabled keep) h

/-- The demo, with a second client that takes the event and leaves. -/
def crowdedActs : List AgentAction := .subscribe 1 ["default"] :: demoActs ++ [.receive 1, .leave 1]

theorem isolated_of_run_demo :
    (run (step demoEnv) (boot demoEnv true) crowdedActs).any (fun s => s.channel.sent.length = 1) ∧
      ∀ s, run (step demoEnv) (boot demoEnv true) crowdedActs = some s →
        ∃ t, run (step demoEnv) (boot demoEnv true) (crowdedActs.filter fun a => a.client.all (· != 1)) = some t ∧
          AgreeOn (· != 1) s t :=
  ⟨by decide, fun s h => isolated_of_run demoEnv true (· != 1) crowdedActs s h⟩

end Agent

end Orb8
