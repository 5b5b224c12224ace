import Orb8.Lib.Progress
import Orb8.Pipeline

/-!
# The main loop gets on

The main task is never stuck, and one round of its loop takes a bounded number of calls, however many
frames arrive meanwhile and whatever the other tasks do. A signal is only looked at between two rounds: it
waits that long and no longer. When it is taken, no event is in hand, and nothing is aggregated or
broadcast afterwards.
-/

namespace Orb8
open AMap Trace SharedCell

/-- The main task waits for something to happen. -/
def MainPc.Idle (pc : MainPc) : Prop := pc = .starting ∨ pc = .select ∨ pc = .stopped

/-- The action is a step of the main task. -/
def AgentAction.ofMain : AgentAction → Bool
  | .attached _ | .poll _ | .next | .srcLookup | .dstLookup | .processEvent .. | .send | .batchDone | .signal => true
  | _ => false

/-- No frame is captured, and the agent is not told to stop. -/
def AgentAction.quiet (a : AgentAction) : Bool := a.offered.isNone && !(a matches .signal)

namespace Agent

/-- How many calls the main task makes at most before it is idle. -/
def rank (env : AgentEnv) (s : Agent) : Nat :=
  match s.pc with
  | .polling =>
    env.config.maxBatchSize - (s.ring.events.getD []).length + 1 + (4 * env.config.maxBatchSize + 1)
  | .forEach events => 4 * events.length + 1
  | .dstLookup _ _ events => 4 * events.length + 4
  | .aggregating _ _ _ events => 4 * events.length + 3
  | .sending _ events => 4 * events.length + 2
  | _ => 0

/-- A bound on the calls of one round. -/
def roundCalls (env : AgentEnv) : Nat := 5 * env.config.maxBatchSize + 2

structure OnTime (env : AgentEnv) (s : Agent) : Prop where
  rank_le : s.rank env ≤ roundCalls env
  polling : s.pc = .polling → ∃ events, s.ring.events = some events
  batch : ∀ events, s.ring.events = some events → events.length ≤ env.config.maxBatchSize
  records : ∀ r ∈ s.ring.pending, r.length = NetworkFlowEvent.size

variable {env : AgentEnv} {s t u : Agent} {a : AgentAction}

/-- Only the program counter and the poll in progress matter. -/
theorem OnTime.of_eq (h : s.OnTime env) (hpc : t.pc = s.pc) (hevents : t.ring.events = s.ring.events)
    (hrecords : ∀ r ∈ t.ring.pending, r.length = NetworkFlowEvent.size) : t.OnTime env ∧ t.rank env = s.rank env := by
  have hrank : t.rank env = s.rank env := by rw [rank, hpc, hevents, rank]
  refine ⟨⟨hrank ▸ h.rank_le, ?_, ?_, hrecords⟩, hrank⟩
  · rw [hpc, hevents]
    exact h.polling
  · rw [hevents]
    exact h.batch

/-- The main task goes on in its loop. -/
theorem OnTime.move (h : s.OnTime env) (hring : t.ring = s.ring) (hpc : t.pc ≠ .polling)
    (hlt : t.rank env < s.rank env) : t.OnTime env ∧ t.rank env < s.rank env := by
  refine ⟨⟨hlt.le.trans h.rank_le, fun hp => absurd hp hpc, ?_, ?_⟩, hlt⟩
  · rw [hring]
    exact h.batch
  · rw [hring]
    exact h.records

theorem OnTime.frame (h : s.OnTime env) (egress : Bool) (penv : ProbeEnv) (ctx : TcContext) :
    (s.frame egress penv ctx).OnTime env ∧ (s.frame egress penv ctx).rank env = s.rank env := by
  rcases frame_cases s egress penv ctx with ⟨-, hs⟩ | ⟨event, -, ⟨-, hs⟩ | ⟨-, hs⟩⟩ <;> rw [hs]
  · exact h.of_eq rfl rfl h.records
  · refine h.of_eq rfl rfl ?_
    rw [List.forall_mem_append]
    exact ⟨h.records, by simp [NetworkFlowEvent.length_toBytes]⟩
  · exact h.of_eq rfl rfl h.records

theorem OnTime.poll (h : s.OnTime env) {ring : PollState}
    (hstep : s.ring.step env.config.maxBatchSize .pollEvents = some ring) (eventsDropped : UInt64) :
    OnTime env { s with ring, pc := .polling, eventsDropped } := by
  rcases PollState.step_cases hstep with ⟨r, hr, -⟩ | ⟨-, -, rfl⟩ | ⟨events, hr, -⟩ | ⟨events, item, rest, hr, -⟩
  · cases hr
  · refine ⟨?_, fun _ => ⟨[], rfl⟩, ?_, h.records⟩
    · simp only [rank, roundCalls, Option.getD_some, List.length_nil]
      omega
    · rintro events he
      obtain rfl := Option.some.inj he
      exact Nat.zero_le _
  · cases hr
  · cases hr

/-- The poll returns its events. -/
theorem OnTime.polled_done (h : s.OnTime env) (hpc : s.pc = .polling) {ring : PollState}
    {events : List NetworkFlowEvent} (he : s.ring.events = some events) (hnone : ring.events = none)
    (hpolled : ring.polled = s.ring.polled ++ [events]) (hrecords : ∀ r ∈ ring.pending, r.length = NetworkFlowEvent.size) :
    (s.polled ring).OnTime env ∧ (s.polled ring).rank env < s.rank env := by
  have hlast : ring.polled.getLast?.getD [] = events := by simp [hpolled]
  have ht : s.polled ring = { s with ring, pc := .forEach events } := by rw [polled, hnone, hlast]
  have hbatch := h.batch events he
  have hlt : rank env { s with ring, pc := .forEach events } < s.rank env := by
    simp only [rank, hpc, he, Option.getD_some]
    omega
  rw [ht]
  refine ⟨⟨hlt.le.trans h.rank_le, fun hp => (by cases hp), ?_, hrecords⟩, hlt⟩
  rintro _ hs
  rw [hnone] at hs
  cases hs

theorem OnTime.next (h : s.OnTime env) (hpc : s.pc = .polling) {ring : PollState}
    (hstep : s.ring.step env.config.maxBatchSize .next = some ring) :
    (s.polled ring).OnTime env ∧ (s.polled ring).rank env < s.rank env := by
  rcases PollState.step_cases hstep with ⟨r, hr, -⟩ | ⟨hr, -⟩ | ⟨events, -, he, hp, rfl⟩ |
    ⟨events, item, rest, -, he, hp, ⟨-, rfl⟩ | ⟨hroom, -, rfl⟩ | ⟨-, hsize, rfl⟩⟩
  · cases hr
  · cases hr
  · exact h.polled_done hpc he rfl rfl h.records
  · refine h.polled_done hpc he rfl rfl fun r hr => h.records r ?_
    rw [hp]
    exact List.mem_cons_of_mem item hr
  · have hlt : rank env (s.polled { s.ring with
        pending := rest, events := some (events ++ [NetworkFlowEvent.readUnaligned item]) }) < s.rank env := by
      simp only [rank, polled, hpc, he, Option.getD_some, List.length_append, List.length_singleton]
      omega
    refine ⟨⟨hlt.le.trans h.rank_le, fun _ => ⟨_, rfl⟩, ?_, fun r hr => h.records r ?_⟩, hlt⟩
    · rintro events' he'
      obtain rfl := Option.some.inj he'
      rw [List.length_append, List.length_singleton]
      exact hroom
    · rw [hp]
      exact List.mem_cons_of_mem item hr
  · exact absurd (h.records item (hp ▸ List.mem_cons_self)) hsize

/-- What a step of the main task does, and what the step of another task. -/
theorem onTime_step (h : s.OnTime env) (ht : step env s a = some t) : t.OnTime env ∧
    (a.ofMain = true → ¬ s.pc.Idle → t.rank env < s.rank env) ∧ (a.ofMain = false → t.rank env = s.rank env) := by
  have hmain (hmove : t.OnTime env ∧ t.rank env < s.rank env) (ha : a.ofMain = true) : t.OnTime env ∧
      (a.ofMain = true → ¬ s.pc.Idle → t.rank env < s.rank env) ∧ (a.ofMain = false → t.rank env = s.rank env) :=
    ⟨hmove.1, fun _ _ => hmove.2, fun hf => absurd (ha.symm.trans hf) nofun⟩
  have hother (hsame : t.OnTime env ∧ t.rank env = s.rank env) (ha : a.ofMain = false) : t.OnTime env ∧
      (a.ofMain = true → ¬ s.pc.Idle → t.rank env < s.rank env) ∧ (a.ofMain = false → t.rank env = s.rank env) :=
    ⟨hsame.1, fun hm => absurd (hm.symm.trans ha) nofun, fun _ => hsame.2⟩
  have hleave (hidle : s.pc.Idle) (hon : t.OnTime env) (ha : a.ofMain = true) : t.OnTime env ∧
      (a.ofMain = true → ¬ s.pc.Idle → t.rank env < s.rank env) ∧ (a.ofMain = false → t.rank env = s.rank env) :=
    ⟨hon, fun _ hn => absurd hidle hn, fun hf => absurd (ha.symm.trans hf) nofun⟩
  cases step_cases ht with
  | frame egress penv ctx => exact hother (h.frame egress penv ctx) rfl
  | attached m hpc =>
    exact hleave (.inl hpc) ⟨Nat.zero_le _, fun hp => (nomatch hp), h.batch, h.records⟩ rfl
  | poll readable ring hpc hring => exact hleave (.inr (.inl hpc)) (h.poll hring _) rfl
  | next ring hpc hring => exact hmain (h.next hpc hring) rfl
  | selfTraffic event events hpc | srcLookup event events hpc =>
    refine hmain (h.move rfl nofun ?_) rfl
    simp only [rank, hpc, List.length_cons]
    omega
  | dstLookup _ _ _ _ hpc | processEvent _ _ _ _ _ _ hpc | send _ _ _ hpc =>
    refine hmain (h.move rfl nofun ?_) rfl
    simp only [rank, hpc]
    omega
  | batchDone hpc =>
    refine hmain (h.move rfl nofun ?_) rfl
    simp only [rank, hpc]
    omega
  | signal hpc =>
    exact hleave (.inr (.inl hpc)) ⟨Nat.zero_le _, fun hp => (nomatch hp), h.batch, h.records⟩ rfl
  | watch | expireOldFlows | subscribe | receive | leave => exact hother (h.of_eq rfl rfl h.records) rfl

theorem onTime_boot (env : AgentEnv) (k8sEnabled : Bool) : (boot env k8sEnabled).OnTime env :=
  ⟨Nat.zero_le _, fun hp => (nomatch hp), fun _ he => (nomatch he), fun _ hr => (nomatch hr)⟩

theorem exists_step_ofMain (h : s.OnTime env) (hidle : ¬ s.pc.Idle) :
    ∃ a t, a.ofMain = true ∧ a.quiet = true ∧ step env s a = some t := by
  cases hpc : s.pc with
  | starting => exact absurd (.inl hpc) hidle
  | select => exact absurd (.inr (.inl hpc)) hidle
  | stopped => exact absurd (.inr (.inr hpc)) hidle
  | polling =>
    obtain ⟨events, he⟩ := h.polling hpc
    have hring : ∃ ring, s.ring.step env.config.maxBatchSize .next = some ring := by
      cases hp : s.ring.pending with
      | nil => exact ⟨_, by simp only [PollState.step, he, hp]; rfl⟩
      | cons item rest =>
        simp only [PollState.step, he, hp]
        cases pollBody env.config.maxBatchSize events item <;> exact ⟨_, rfl⟩
    obtain ⟨ring, hring⟩ := hring
    exact ⟨.next, _, rfl, rfl, step_of_agentStep (.next ring hpc hring)⟩
  | forEach events =>
    cases events with
    | nil => exact ⟨.batchDone, _, rfl, rfl, step_of_agentStep (.batchDone hpc)⟩
    | cons event events =>
      by_cases hself : isSelfTraffic event env.config.grpcPort env.localIps = true
      · exact ⟨.srcLookup, _, rfl, rfl, step_of_agentStep (.selfTraffic event events hpc hself)⟩
      · exact ⟨.srcLookup, _, rfl, rfl, step_of_agentStep (.srcLookup event events hpc hself)⟩
  | dstLookup event srcPod events =>
    exact ⟨.dstLookup, _, rfl, rfl, step_of_agentStep (.dstLookup event srcPod events _ hpc rfl)⟩
  | aggregating event namespace_ podName events =>
    exact ⟨.processEvent .stored 0, _, rfl, rfl,
      step_of_agentStep (.processEvent .stored 0 event namespace_ podName events hpc)⟩
  | sending event events =>
    have hsend : ∃ st, s.streams.step (.send event) = some st := by
      simp only [Streams.step]
      cases s.streams.channel.send event <;> exact ⟨_, rfl⟩
    obtain ⟨st, hst⟩ := hsend
    exact ⟨.send, _, rfl, rfl, step_of_agentStep (.send event events st hpc hst)⟩

theorem progress (env : AgentEnv) :
    Progress (step env) (OnTime env) (fun s => s.pc.Idle) AgentAction.ofMain (rank env) where
  inv := fun _ _ _ hs ht => (onTime_step hs ht).1
  enabled := fun _ hs hidle => by
    obtain ⟨a, t, ha, -, ht⟩ := exists_step_ofMain hs hidle
    exact ⟨a, t, ha, ht⟩
  lower := fun _ _ _ hs hidle ha ht => (onTime_step hs ht).2.1 ha hidle
  keep := fun _ _ _ hs _ ha ht => ((onTime_step hs ht).2.2 ha).le

/-- From wherever the agent gets to, the main task alone gets back to where it waits, and in every run it
does so within the calls of one round: it never waits for another task, and no traffic keeps it from
looking at the signals. -/
theorem idle_of_run (env : AgentEnv) (k8sEnabled : Bool) (acts : List AgentAction) (s : Agent)
    (h : run (step env) (boot env k8sEnabled) acts = some s) :
    (∃ own t, (∀ a ∈ own, a.ofMain = true) ∧ own.length ≤ roundCalls env ∧ run (step env) s own = some t ∧
      t.pc.Idle) ∧
    ∀ more t, run (step env) s more = some t → roundCalls env < more.countP AgentAction.ofMain →
      ∃ front back u, more = front ++ back ∧ front.countP AgentAction.ofMain ≤ roundCalls env ∧
        run (step env) s front = some u ∧ u.pc.Idle := by
  have hon : s.OnTime env := run_inv (fun _ _ _ hs ht => (onTime_step hs ht).1) (onTime_boot env k8sEnabled) h
  constructor
  · obtain ⟨own, t, hown, hlen, ht, hidle⟩ := (progress env).exists_run_idle hon
    exact ⟨own, t, hown, hlen.trans hon.rank_le, ht, hidle⟩
  · intro more t ht hcount
    obtain ⟨front, back, u, hmore, hfront, hu, hidle⟩ :=
      (progress env).exists_idle hon ht (hon.rank_le.trans_lt hcount)
    exact ⟨front, back, u, hmore, hfront.trans hon.rank_le, hu, hidle⟩

/-- The demo, in the middle of its batch. -/
theorem idle_of_run_demo :
    (run (step demoEnv) (boot demoEnv true) (demoActs.take 8)).any (fun s => s.rank demoEnv = 4) ∧
      ∀ s, run (step demoEnv) (boot demoEnv true) (demoActs.take 8) = some s →
        (∃ own t, (∀ a ∈ own, a.ofMain = true) ∧ own.length ≤ roundCalls demoEnv ∧ run (step demoEnv) s own = some t ∧
          t.pc.Idle) ∧
        ∀ more t, run (step demoEnv) s more = some t → roundCalls demoEnv < more.countP AgentAction.ofMain →
          ∃ front back u, more = front ++ back ∧ front.countP AgentAction.ofMain ≤ roundCalls demoEnv ∧
            run (step demoEnv) s front = some u ∧ u.pc.Idle :=
  ⟨by decide, fun s h => idle_of_run demoEnv true (demoActs.take 8) s h⟩

/-! ### After a signal -/

/-- The agent has been stopped in the state `u`: what flowed through it stands still, and flows only
expire. -/
structure Frozen (u s : Agent) : Prop where
  pc : s.pc = .stopped
  fetched : s.ring.fetched = u.ring.fetched
  aggregated : s.aggregated = u.aggregated
  sent : s.channel.sent = u.channel.sent
  broadcastDrops : s.health.broadcastDrops = u.health.broadcastDrops
  eventsDropped : s.eventsDropped = u.eventsDropped
  flows : ∀ k stats, s.flows.agg.flows.lookup k = some stats → u.flows.agg.flows.lookup k = some stats

theorem Frozen.beside (h : Frozen u s) (hpc : t.pc = s.pc) (hfetched : t.ring.fetched = s.ring.fetched)
    (hflows : t.flows = s.flows) (hsent : t.channel.sent = s.channel.sent)
    (hdrops : t.health.broadcastDrops = s.health.broadcastDrops) (hevents : t.eventsDropped = s.eventsDropped) :
    Frozen u t where
  pc := hpc.trans h.pc
  fetched := hfetched.trans h.fetched
  aggregated := by rw [Agent.aggregated, hflows]; exact h.aggregated
  sent := hsent.trans h.sent
  broadcastDrops := hdrops.trans h.broadcastDrops
  eventsDropped := hevents.trans h.eventsDropped
  flows := by rw [hflows]; exact h.flows

theorem frozen_step (h : Frozen u s) (hi : s.streams.Inv) (ht : step env s a = some t) : Frozen u t := by
  have hmain {pc : MainPc} (hpc : s.pc = pc) (hne : pc ≠ .stopped) : Frozen u t := absurd (hpc.symm.trans h.pc) hne
  have hquiet {b : StreamAction} {st : Streams} (hs : s.streams.step b = some st) (hb : ∀ event, b ≠ .send event) :
      Frozen u (s.withStreams st) := by
    rcases sent_of_streams_step hi hs with ⟨event, hsend, -⟩ | ⟨-, hsent, hdrops⟩
    · exact absurd hsend (hb event)
    · exact h.beside rfl rfl rfl hsent hdrops rfl
  cases step_cases ht with
  | frame egress penv ctx =>
    rcases frame_cases s egress penv ctx with ⟨-, hs⟩ | ⟨event, -, ⟨-, hs⟩ | ⟨-, hs⟩⟩ <;> rw [hs] <;>
      exact h.beside rfl rfl rfl rfl rfl rfl
  | attached _ hpc | poll _ _ hpc | next _ hpc | selfTraffic _ _ hpc | srcLookup _ _ hpc | dstLookup _ _ _ _ hpc
  | processEvent _ _ _ _ _ _ hpc | send _ _ _ hpc | batchDone hpc | signal hpc => exact hmain hpc nofun
  | watch b w _ hw =>
    have hkeep := congrArg HealthState.broadcastDrops (env.podWatcher.frames_step.keep hw)
    exact h.beside rfl rfl rfl rfl hkeep.symm rfl
  | expireOldFlows now hpc =>
    have hkeep := congrArg HealthState.broadcastDrops
      (Logged.frames_step.keep (s := s.logged) (a := .expireOldFlows now) rfl)
    have hputs := (puts_call s.logged (.expireOldFlows now)).trans (List.append_nil _)
    refine ⟨h.pc, h.fetched, ?_, h.sent, hkeep.symm.trans h.broadcastDrops, h.eventsDropped, fun k stats hk => ?_⟩
    · rw [← h.aggregated]
      exact congrArg (List.map fun p => p.2.2) hputs
    · exact h.flows k stats (lookup_retain_eq_some.1 hk).1
  | subscribe id namespaces st hst => exact hquiet hst fun _ hb => nomatch hb
  | receive id st hst => exact hquiet hst fun _ hb => nomatch hb
  | leave id st hst => exact hquiet hst fun _ hb => nomatch hb

/-- A signal is taken with no event in hand: every event that was fetched is the agent's own traffic or has
been aggregated, and has been broadcast or counted. After it nothing flows any more. -/
theorem frozen_of_run (env : AgentEnv) (k8sEnabled : Bool) (before after : List AgentAction) (s : Agent)
    (h : run (step env) (boot env k8sEnabled) (before ++ .signal :: after) = some s) :
    ∃ u, run (step env) (boot env k8sEnabled) (before ++ [.signal]) = some u ∧
      u.ring.fetched.filter (foreign env) = u.aggregated ∧
      u.channel.sent.length + u.health.broadcastDrops = u.aggregated.length ∧ Frozen u s := by
  rw [← List.singleton_append, ← List.append_assoc, run_append] at h
  obtain ⟨u, hu, hs⟩ := Option.bind_eq_some_iff.1 h
  have hpc : u.pc = .stopped := by
    rw [run_append] at hu
    obtain ⟨v, -, hv⟩ := Option.bind_eq_some_iff.1 hu
    rw [run_singleton] at hv
    cases step_cases hv
    rfl
  have hledger := ledger_run hu
  have hhand : u.inHand env = [] := by rw [inHand, hpc]
  have hsend : u.toSend = [] := by rw [toSend, hpc]
  have hstep : ∀ s a t, Frozen u s ∧ s.streams.Inv → step env s a = some t → Frozen u t ∧ t.streams.Inv :=
    fun _ _ _ hi ht => ⟨frozen_step hi.1 hi.2 ht, inv_streams_step hi.2 ht⟩
  have hu' : Frozen u u ∧ u.streams.Inv := ⟨⟨hpc, rfl, rfl, rfl, rfl, rfl, fun _ _ hk => hk⟩, hledger.streams⟩
  refine ⟨u, hu, ?_, ?_, (run_inv (I := fun s => Frozen u s ∧ s.streams.Inv) hstep hu' hs).1⟩
  · rw [hledger.aggregated, hhand, List.append_nil]
  · have hcounted := hledger.counted
    rwa [hsend, List.length_nil, Nat.add_zero] at hcounted

/-- After the demo is stopped, a frame still fills the ring, and the flow expires. -/
theorem frozen_of_run_demo :
    (run (step demoEnv) (boot demoEnv true)
        (demoActs.dropLast ++ .signal :: [.frame true ⟨8, true⟩ demoFrame, .expireOldFlows 100000000000])).any (fun s =>
      s.aggregated.length = 1 ∧ len s.flows.agg.flows = 0 ∧ s.ring.pending.length = 1) ∧
      ∀ s, run (step demoEnv) (boot demoEnv true)
          (demoActs.dropLast ++ .signal :: [.frame true ⟨8, true⟩ demoFrame, .expireOldFlows 100000000000]) = some s →
        ∃ u, run (step demoEnv) (boot demoEnv true) (demoActs.dropLast ++ [.signal]) = some u ∧
          u.ring.fetched.filter (foreign demoEnv) = u.aggregated ∧
          u.channel.sent.length + u.health.broadcastDrops = u.aggregated.length ∧ Frozen u s :=
  ⟨by decide, fun s h => frozen_of_run demoEnv true demoActs.dropLast _ s h⟩

end Agent

end Orb8
