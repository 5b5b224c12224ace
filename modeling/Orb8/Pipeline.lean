import Orb8.Composition

/-!
# From the hook to the trace

Every event that a probe captures is accounted for at every moment of every run: it is counted as
dropped by the kernel, still in the ring, lost by a poll with a full batch, the agent's own traffic,
in the hands of the main task, or aggregated once and then broadcast or counted as dropped. What gets
through keeps its order and is never doubled.
-/

namespace Orb8
open AMap Trace SharedCell

/-- The event is not the agent's own traffic. -/
def foreign (env : AgentEnv) (event : NetworkFlowEvent) : Bool :=
  !isSelfTraffic event env.config.grpcPort env.localIps

namespace Agent

/-- The events aggregated so far, in order. -/
def aggregated (s : Agent) : List NetworkFlowEvent := (KeyedFold.puts s.flows.log).map fun p => p.2.2

/-- The same, as they are to be broadcast. -/
def traced (s : Agent) : List NetworkEvent :=
  (KeyedFold.puts s.flows.log).map fun p => networkEvent p.2.2 p.1.namespace_ p.1.podName

/-- The events fetched from the ring that the main task has yet to aggregate. -/
def inHand (env : AgentEnv) (s : Agent) : List NetworkFlowEvent :=
  match s.pc with
  | .polling => (s.ring.events.getD []).filter (foreign env)
  | .forEach events | .sending _ events => events.filter (foreign env)
  | .dstLookup event _ events | .aggregating event _ _ events => event :: events.filter (foreign env)
  | _ => []

def toSend (s : Agent) : List NetworkEvent :=
  match s.pc with
  | .sending event _ => [event]
  | _ => []

/-- Where the captured events are. -/
structure Accounts (env : AgentEnv) (captured : List NetworkFlowEvent) (s : Agent) : Prop where
  submitted : UInt64.ofNat captured.length = UInt64.ofNat s.ring.submitted.length + s.kernelDropped
  fetched : s.ring.fetched.Sublist captured
  lost : s.ring.submitted.length ≤
    s.ring.fetched.length + s.ring.pending.length + s.ring.fullPolls env.config.maxBatchSize
  aggregated : s.ring.fetched.filter (foreign env) = s.aggregated ++ s.inHand env
  processed : s.flows.agg.eventsProcessed = UInt64.ofNat s.aggregated.length
  broadcast : (s.channel.sent ++ s.toSend).Sublist s.traced
  counted : s.channel.sent.length + s.health.broadcastDrops + s.toSend.length = s.aggregated.length

/-- What one step preserves of it. -/
structure Ledger (env : AgentEnv) (captured : List NetworkFlowEvent) (s : Agent) : Prop where
  streams : s.streams.Inv
  ring : s.ring.NearlyAccounted env.config.maxBatchSize
  polling : (∃ events, s.ring.events = some events) ↔ s.pc = .polling
  records : s.ring.submitted.Sublist (captured.map NetworkFlowEvent.toBytes)
  submitted : UInt64.ofNat captured.length = UInt64.ofNat s.ring.submitted.length + s.kernelDropped
  aggregated : s.ring.fetched.filter (foreign env) = s.aggregated ++ s.inHand env
  broadcast : (s.channel.sent ++ s.toSend).Sublist s.traced
  counted : s.channel.sent.length + s.health.broadcastDrops + s.toSend.length = s.aggregated.length

variable {env : AgentEnv} {s t : Agent} {a : AgentAction} {captured : List NetworkFlowEvent}

/-! ### The tasks beside the main loop -/

/-- What a call of the aggregator adds to the log. -/
def FlowCall.put : FlowCall → List (FlowKey × Stamped)
  | .processEvent _ now event namespace_ podName => [(flowKey event namespace_ podName, (now, event))]
  | .expireOldFlows _ => []

theorem puts_call (lg : Logged) (c : FlowCall) :
    KeyedFold.puts (lg.call c).log = KeyedFold.puts lg.log ++ FlowCall.put c := by
  cases c <;> simp [Logged.call, FlowCall.put]

/-- A step that moves no event. -/
theorem Ledger.of_eq (h : Ledger env captured s) (hi : t.streams.Inv) (hring : t.ring = s.ring)
    (hkernel : t.kernelDropped = s.kernelDropped)
    (hputs : KeyedFold.puts t.flows.log = KeyedFold.puts s.flows.log)
    (hsent : t.channel.sent = s.channel.sent) (hdrops : t.health.broadcastDrops = s.health.broadcastDrops)
    (hpc : t.pc = .polling ↔ s.pc = .polling) (hhand : t.inHand env = s.inHand env)
    (hsend : t.toSend = s.toSend) : Ledger env captured t := by
  have hagg : t.aggregated = s.aggregated := by rw [Agent.aggregated, hputs, Agent.aggregated]
  have htraced : t.traced = s.traced := by rw [traced, hputs, traced]
  constructor
  · exact hi
  · rw [hring]; exact h.ring
  · rw [hring, hpc]; exact h.polling
  · rw [hring]; exact h.records
  · rw [hring, hkernel]; exact h.submitted
  · rw [hring, hagg, hhand]; exact h.aggregated
  · rw [hsent, hsend, htraced]; exact h.broadcast
  · rw [hsent, hdrops, hsend, hagg]; exact h.counted

/-- The main task goes on, from one program counter to the next. -/
theorem Ledger.move (h : Ledger env captured s) {pc : MainPc} (hpc : s.pc = pc) (hi : t.streams.Inv)
    (hring : t.ring = s.ring) (hkernel : t.kernelDropped = s.kernelDropped)
    (hputs : KeyedFold.puts t.flows.log = KeyedFold.puts s.flows.log)
    (hsent : t.channel.sent = s.channel.sent) (hdrops : t.health.broadcastDrops = s.health.broadcastDrops)
    (hhand : t.inHand env = { s with pc := pc }.inHand env) (hsend : t.toSend = { s with pc := pc }.toSend)
    (hpoll : t.pc = .polling ↔ pc = .polling) : Ledger env captured t := by
  subst hpc
  exact h.of_eq hi hring hkernel hputs hsent hdrops hpoll hhand hsend

/-- A step of another task. -/
theorem Ledger.beside (h : Ledger env captured s) (hi : t.streams.Inv) (hpc : t.pc = s.pc) (hring : t.ring = s.ring)
    (hkernel : t.kernelDropped = s.kernelDropped)
    (hputs : KeyedFold.puts t.flows.log = KeyedFold.puts s.flows.log)
    (hsent : t.channel.sent = s.channel.sent)
    (hdrops : t.health.broadcastDrops = s.health.broadcastDrops) : Ledger env captured t := by
  refine h.of_eq hi hring hkernel hputs hsent hdrops (by rw [hpc]) ?_ ?_
  · rw [inHand, hpc, hring, inHand]
  · rw [toSend, hpc, toSend]

theorem Ledger.frame (h : Ledger env captured s) (egress : Bool) (penv : ProbeEnv) (ctx : TcContext) :
    Ledger env (captured ++ (AgentAction.frame egress penv ctx).offered.toList) (s.frame egress penv ctx) := by
  obtain ⟨hi, hring, hpoll, hrec, hsub, hagg, hbroad, hcount⟩ := h
  rcases frame_cases s egress penv ctx with ⟨ho, hs⟩ | ⟨event, ho, ⟨-, hs⟩ | ⟨-, hs⟩⟩ <;> rw [ho, hs]
  · rw [Option.toList_none, List.append_nil]
    exact ⟨hi, hring, hpoll, hrec, hsub, hagg, hbroad, hcount⟩
  · refine ⟨hi, ?_, hpoll, ?_, ?_, hagg, hbroad, hcount⟩
    · exact PollState.nearlyAccounted_step (a := .submit event.toBytes) hring rfl
    · rw [List.map_append]
      exact hrec.append (List.Sublist.refl _)
    · simp only [Option.toList_some, List.length_append, List.length_singleton, UInt64.ofNat_add]
      rw [hsub, UInt64.add_assoc, UInt64.add_comm s.kernelDropped, ← UInt64.add_assoc]
  · refine ⟨hi, hring, hpoll, ?_, ?_, hagg, hbroad, hcount⟩
    · rw [List.map_append]
      exact hrec.trans (List.sublist_append_left _ _)
    · simp only [Option.toList_some, List.length_append, List.length_singleton, UInt64.ofNat_add]
      rw [hsub, UInt64.add_assoc]
      rfl

/-! ### The main task -/

theorem Ledger.poll (h : Ledger env captured s) (hpc : s.pc = .select) {ring : PollState}
    (hstep : s.ring.step env.config.maxBatchSize .pollEvents = some ring) (eventsDropped : UInt64) :
    Ledger env captured { s with ring, pc := .polling, eventsDropped } := by
  obtain ⟨hi, hring, hpoll, hrec, hsub, hagg, hbroad, hcount⟩ := h
  have hnone : s.ring.events = none := by
    cases he : s.ring.events with
    | none => rfl
    | some events =>
      have hbad := hpoll.1 ⟨events, he⟩
      rw [hpc] at hbad
      cases hbad
  have hnext := PollState.nearlyAccounted_step hring hstep
  obtain rfl : { s.ring with events := some [] } = ring := by
    simpa only [PollState.step, hnone, Option.some.injEq] using hstep
  have hfetched : PollState.fetched { s.ring with events := some [] } = s.ring.fetched := by
    simp [PollState.fetched, hnone]
  simp only [inHand, toSend, hpc] at hagg hbroad hcount
  refine ⟨hi, hnext, ⟨fun _ => rfl, fun _ => ⟨[], rfl⟩⟩, hrec, hsub, ?_, hbroad, hcount⟩
  show (PollState.fetched { s.ring with events := some [] }).filter _ = _
  rw [hfetched]
  exact hagg

/-- The poll returns its events. -/
theorem Ledger.polled_done (h : Ledger env captured s) (hpc : s.pc = .polling) {ring : PollState}
    {events : List NetworkFlowEvent} (he : s.ring.events = some events)
    (hring : ring.NearlyAccounted env.config.maxBatchSize) (hsub : ring.submitted = s.ring.submitted)
    (hnone : ring.events = none) (hpolled : ring.polled = s.ring.polled ++ [events]) :
    Ledger env captured (s.polled ring) := by
  obtain ⟨hi, -, -, hrec, hsubmitted, hagg, hbroad, hcount⟩ := h
  have hfetched : ring.fetched = s.ring.fetched := by simp [PollState.fetched, hnone, hpolled, he]
  have hlast : ring.polled.getLast?.getD [] = events := by simp [hpolled]
  have ht : s.polled ring = { s with ring, pc := .forEach events } := by
    rw [polled, hnone, hlast]
  simp only [inHand, toSend, hpc, he, Option.getD_some] at hagg hbroad hcount
  rw [ht]
  refine ⟨hi, hring, ?_, ?_, ?_, ?_, hbroad, hcount⟩
  · rw [hnone]
    refine iff_of_false ?_ fun h => by cases h
    rintro ⟨_, h⟩
    cases h
  · show ring.submitted.Sublist _
    rw [hsub]
    exact hrec
  · show _ = UInt64.ofNat ring.submitted.length + _
    rw [hsub]
    exact hsubmitted
  · show ring.fetched.filter _ = _
    rw [hfetched]
    exact hagg

theorem Ledger.next (h : Ledger env captured s) (hpc : s.pc = .polling) {ring : PollState}
    (hstep : s.ring.step env.config.maxBatchSize .next = some ring) : Ledger env captured (s.polled ring) := by
  have hnear := PollState.nearlyAccounted_step h.ring hstep
  rcases PollState.step_cases hstep with ⟨r, hr, -⟩ | ⟨hr, -⟩ | ⟨events, -, he, hp, rfl⟩ |
    ⟨events, item, rest, -, he, hp, ⟨hfull, rfl⟩ | ⟨hroom, hsize, rfl⟩ | ⟨hroom, hsize, rfl⟩⟩
  · cases hr
  · cases hr
  · exact h.polled_done hpc he hnear rfl rfl rfl
  · exact h.polled_done hpc he hnear rfl rfl rfl
  · obtain ⟨hi, -, -, hrec, hsub, hagg, hbroad, hcount⟩ := h
    simp only [inHand, hpc, he, Option.getD_some] at hagg
    have hfetched : PollState.fetched { s.ring with
        pending := rest, events := some (events ++ [NetworkFlowEvent.readUnaligned item]) } =
          s.ring.fetched ++ [NetworkFlowEvent.readUnaligned item] := by
      simp [PollState.fetched, he]
    refine ⟨hi, hnear, ⟨fun _ => hpc, fun _ => ⟨_, rfl⟩⟩, hrec, hsub, ?_, hbroad, hcount⟩
    simp only [inHand, polled, hpc, Option.getD_some, List.filter_append]
    rw [hfetched, List.filter_append, hagg, List.append_assoc]
    rfl
  · obtain ⟨hi, -, hpoll, hrec, hsub, hagg, hbroad, hcount⟩ := h
    have ht : s.polled { s.ring with pending := rest } = { s with ring := { s.ring with pending := rest } } := by
      simp only [polled, he]
    rw [ht]
    exact ⟨hi, hnear, hpoll, hrec, hsub, hagg, hbroad, hcount⟩

theorem Ledger.processEvent (h : Ledger env captured s) {event : NetworkFlowEvent} {namespace_ podName : String}
    {events : List NetworkFlowEvent} (hpc : s.pc = .aggregating event namespace_ podName events)
    (ord : Order FlowKey FlowStats) (now : Instant) (hi : t.streams.Inv)
    (ht : t = { s.withLogged (s.logged.call (.processEvent ord now event namespace_ podName)) with
      pc := .sending (networkEvent event namespace_ podName) events })
    (hdrops : t.health.broadcastDrops = s.health.broadcastDrops) : Ledger env captured t := by
  obtain ⟨-, hring, hpoll, hrec, hsub, hagg, hbroad, hcount⟩ := h
  have hputs : KeyedFold.puts t.flows.log = KeyedFold.puts s.flows.log ++
      [(flowKey event namespace_ podName, (now, event))] := by
    rw [ht]
    exact puts_call s.logged (.processEvent ord now event namespace_ podName)
  have haggregated : t.aggregated = s.aggregated ++ [event] := by
    simp [Agent.aggregated, hputs]
  have htraced : t.traced = s.traced ++ [networkEvent event namespace_ podName] := by
    simp [traced, hputs, flowKey]
  have hhand : t.inHand env = events.filter (foreign env) := by rw [ht]; rfl
  have hsend : t.toSend = [networkEvent event namespace_ podName] := by rw [ht]; rfl
  have hsame : t.ring = s.ring ∧ t.kernelDropped = s.kernelDropped ∧ t.channel = s.channel ∧ t.pc ≠ .polling := by
    rw [ht]
    exact ⟨rfl, rfl, rfl, fun h => by cases h⟩
  obtain ⟨hring', hkernel, hchannel, hpc'⟩ := hsame
  simp only [inHand, toSend, hpc, List.append_nil, List.length_nil, Nat.add_zero] at hagg hbroad hcount
  constructor
  · exact hi
  · rw [hring']; exact hring
  · rw [hring', hpoll, hpc]
    exact iff_of_false (fun h => by cases h) hpc'
  · rw [hring']; exact hrec
  · rw [hring', hkernel]; exact hsub
  · rw [hring', hagg, haggregated, hhand, List.append_assoc, List.singleton_append]
  · rw [hchannel, hsend, htraced]
    exact hbroad.append (List.Sublist.refl _)
  · rw [hchannel, hdrops, hsend, haggregated, List.length_append, ← hcount]
    rfl

theorem Ledger.send (h : Ledger env captured s) {event : NetworkEvent} {events : List NetworkFlowEvent}
    (hpc : s.pc = .sending event events) {streams : Streams} (hs : s.streams.step (.send event) = some streams) :
    Ledger env captured { s.withStreams streams with pc := .forEach events } := by
  obtain ⟨hi, hring, hpoll, hrec, hsub, hagg, hbroad, hcount⟩ := h
  have hpoll' : (∃ evs, s.ring.events = some evs) ↔ MainPc.forEach events = .polling := by
    rw [hpoll, hpc]
    exact iff_of_false (fun h => nomatch h) fun h => nomatch h
  simp only [inHand, toSend, hpc, List.length_singleton] at hagg hbroad hcount
  refine ⟨Streams.inv_step hi hs, hring, hpoll', hrec, hsub, hagg, ?_, ?_⟩
  · show (streams.channel.sent ++ []).Sublist s.traced
    rw [List.append_nil]
    rcases sent_of_streams_step hi hs with ⟨ev, hev, ⟨hsent, -⟩ | ⟨hsent, -⟩⟩ | ⟨hne, -⟩
    · obtain rfl := StreamAction.send.inj hev
      rw [hsent]
      exact hbroad
    · rw [hsent]
      exact (List.sublist_append_left _ _).trans hbroad
    · exact absurd rfl (hne event)
  · show streams.channel.sent.length + streams.health.broadcastDrops + 0 = s.aggregated.length
    rw [← hcount]
    rcases sent_of_streams_step hi hs with ⟨ev, -, ⟨hsent, hdrops⟩ | ⟨hsent, hdrops⟩⟩ | ⟨hne, -⟩
    · rw [hsent, hdrops, List.length_append, List.length_singleton]
      show s.channel.sent.length + 1 + s.health.broadcastDrops + 0 = _
      omega
    · rw [hsent, hdrops]
      show s.channel.sent.length + (s.health.broadcastDrops + 1) + 0 = _
      omega
    · exact absurd rfl (hne event)

/-! ### Whole runs -/

theorem ledger_step_of_ne (h : Ledger env captured s) (ht : step env s a = some t)
    (hne : ∀ egress penv ctx, a ≠ .frame egress penv ctx) : Ledger env captured t := by
  have hi := inv_streams_step h.streams ht
  have hflow (c : FlowCall) : (s.logged.call c).agg.health.broadcastDrops = s.health.broadcastDrops := by
    have hkeep := congrArg HealthState.broadcastDrops (Logged.frames_step.keep (s := s.logged) (a := c) rfl)
    exact hkeep.symm
  have hquiet {b : StreamAction} {st : Streams} (hs : s.streams.step b = some st) (hb : ∀ event, b ≠ .send event) :
      st.channel.sent = s.channel.sent ∧ st.health.broadcastDrops = s.health.broadcastDrops := by
    rcases sent_of_streams_step h.streams hs with ⟨event, hsend, -⟩ | ⟨-, hsame⟩
    · exact absurd hsend (hb event)
    · exact hsame
  cases step_cases ht with
  | frame egress penv ctx => exact absurd rfl (hne egress penv ctx)
  | attached dropCounterMap hpc => exact h.move hpc hi rfl rfl rfl rfl rfl rfl rfl (by simp)
  | poll readable ring hpc hring => exact h.poll hpc hring _
  | next ring hpc hring => exact h.next hpc hring
  | selfTraffic event events hpc hself =>
    refine h.move hpc hi rfl rfl rfl rfl rfl ?_ rfl (by simp)
    exact (List.filter_cons_of_neg (by simp [foreign, hself])).symm
  | srcLookup event events hpc hself =>
    refine h.move hpc hi rfl rfl rfl rfl rfl ?_ rfl (by simp)
    exact (List.filter_cons_of_pos (by simp [foreign, hself])).symm
  | dstLookup event srcPod events names hpc => exact h.move hpc hi rfl rfl rfl rfl rfl rfl rfl (by simp)
  | processEvent ord now event namespace_ podName events hpc => exact h.processEvent hpc ord now hi rfl (hflow _)
  | send event events streams hpc hs => exact h.send hpc hs
  | batchDone hpc => exact h.move hpc hi rfl rfl rfl rfl rfl rfl rfl (by simp)
  | signal hpc => exact h.move hpc hi rfl rfl rfl rfl rfl rfl rfl (by simp)
  | watch b w _ hw =>
    have hkeep := congrArg HealthState.broadcastDrops (env.podWatcher.frames_step.keep hw)
    exact h.beside hi rfl rfl rfl rfl rfl hkeep.symm
  | expireOldFlows now hpc =>
    have hputs := puts_call s.logged (.expireOldFlows now)
    exact h.beside hi rfl rfl rfl (hputs.trans (List.append_nil _)) rfl (hflow _)
  | subscribe id namespaces streams hs =>
    obtain ⟨hsent, hdrops⟩ := hquiet hs fun _ hb => nomatch hb
    exact h.beside hi rfl rfl rfl rfl hsent hdrops
  | receive id streams hs =>
    obtain ⟨hsent, hdrops⟩ := hquiet hs fun _ hb => nomatch hb
    exact h.beside hi rfl rfl rfl rfl hsent hdrops
  | leave id streams hs =>
    obtain ⟨hsent, hdrops⟩ := hquiet hs fun _ hb => nomatch hb
    exact h.beside hi rfl rfl rfl rfl hsent hdrops

theorem ledger_step (h : Ledger env captured s) (ht : step env s a = some t) :
    Ledger env (captured ++ a.offered.toList) t := by
  cases a with
  | frame egress penv ctx =>
    obtain rfl := Option.some.inj ht
    exact h.frame egress penv ctx
  | _ =>
    show Ledger env (captured ++ []) t
    rw [List.append_nil]
    exact ledger_step_of_ne h ht fun _ _ _ hb => nomatch hb

theorem ledger_boot (env : AgentEnv) (k8sEnabled : Bool) : Ledger env [] (boot env k8sEnabled) :=
  ⟨inv_streams_boot env k8sEnabled, PollState.nearlyAccounted_init,
    ⟨fun ⟨_, h⟩ => (nomatch h), fun h => (nomatch h)⟩, .refl _, rfl, rfl, .refl _, rfl⟩

theorem ledger_run {k8sEnabled : Bool} {acts : List AgentAction}
    (h : run (step env) (boot env k8sEnabled) acts = some s) : Ledger env (acts.filterMap AgentAction.offered) s :=
  run_inv_seen (fun _ _ _ _ hl ht => ledger_step hl ht) (ledger_boot env k8sEnabled) h

theorem wellFormed_toBytes (events : List NetworkFlowEvent) :
    wellFormed (events.map NetworkFlowEvent.toBytes) = events := by
  induction events with
  | nil => rfl
  | cons e events ih =>
    rw [List.map_cons, wellFormed_cons_of_eq (NetworkFlowEvent.length_toBytes e), ih,
      NetworkFlowEvent.readUnaligned_toBytes]

/-- What was fetched from the ring was captured, and how much of what was submitted was not fetched. -/
theorem Ledger.ring_accounts (h : Ledger env captured s) : s.ring.fetched.Sublist captured ∧
    s.ring.submitted.length ≤
      s.ring.fetched.length + s.ring.pending.length + s.ring.fullPolls env.config.maxBatchSize := by
  obtain ⟨events, hevents, hsubmitted⟩ := List.sublist_map_iff.1 h.records
  obtain ⟨-, hfetched, hlost⟩ := h.ring
  rw [hsubmitted, wellFormed_toBytes] at hfetched hlost
  refine ⟨((List.sublist_append_left _ _).trans hfetched).trans hevents, ?_⟩
  have hpending : (wellFormed s.ring.pending).length ≤ s.ring.pending.length := by
    rw [wellFormed, List.length_map]
    exact List.length_filter_le _ _
  rw [hsubmitted, List.length_map]
  omega

end Agent

end Orb8
