import Orb8.MainLoop

/-!
# The agent catches up

When no more frames are captured for a while, the ring runs empty and everything in it is accounted for,
within a number of calls of the main task that depends on how much is pending. The other tasks may do
whatever they like meanwhile, and clients too.
-/

namespace Orb8
open AMap Trace

namespace Agent

/-- The main loop goes on. -/
structure Running (env : AgentEnv) (s : Agent) : Prop where
  onTime : s.OnTime env
  started : s.pc ≠ .starting
  going : s.pc ≠ .stopped
  events : s.pc ≠ .polling → s.ring.events = none

/-- The ring is empty, nothing is in hand, and the captured events are where they belong. -/
structure CaughtUp (env : AgentEnv) (captured : List NetworkFlowEvent) (s : Agent) : Prop where
  pc : s.pc = .select
  pending : s.ring.pending = []
  submitted : UInt64.ofNat captured.length = UInt64.ofNat s.ring.submitted.length + s.kernelDropped
  fetched : s.ring.fetched.Sublist captured
  lost : s.ring.submitted.length ≤ s.ring.fetched.length + s.ring.fullPolls env.config.maxBatchSize
  aggregated : s.ring.fetched.filter (foreign env) = s.aggregated
  counted : s.channel.sent.length + s.health.broadcastDrops = s.aggregated.length

variable {env : AgentEnv} {s t : Agent} {a : AgentAction}

/-- What a quiet step does to the loop and the ring. -/
inductive QuietStep (s t : Agent) (a : AgentAction) : Prop
  | beside (ha : a.ofMain = false) (hpc : t.pc = s.pc) (hring : t.ring = s.ring)
  | poll (ha : a.ofMain = true) (hs : s.pc = .select) (ht : t.pc = .polling)
      (hpending : t.ring.pending = s.ring.pending)
  | next (ha : a.ofMain = true) (hs : s.pc = .polling) (hpending : t.ring.pending = s.ring.pending.tail)
      (ht : t.pc = .polling ∨ ∃ events, t.pc = .forEach events ∧ t.ring.events = none)
  | handle (ha : a.ofMain = true) (hs : ¬ s.pc.Idle) (hs' : s.pc ≠ .polling)
      (ht : t.pc ≠ .starting ∧ t.pc ≠ .stopped ∧ t.pc ≠ .polling) (hring : t.ring = s.ring)

theorem quietStep_of_step (hstarted : s.pc ≠ .starting) (ha : a.quiet = true) (ht : step env s a = some t) :
    QuietStep s t a := by
  obtain ⟨hoffered, hsignal⟩ := Bool.and_eq_true_iff.1 ha
  rw [Option.isNone_iff_eq_none] at hoffered
  have hhandle {pc : MainPc} (hpc : s.pc = pc) (hne : ¬ pc.Idle ∧ pc ≠ .polling) (hring : t.ring = s.ring)
      (hmain : a.ofMain = true) (hpc' : t.pc ≠ .starting ∧ t.pc ≠ .stopped ∧ t.pc ≠ .polling) : QuietStep s t a :=
    .handle hmain (hpc ▸ hne.1) (hpc ▸ hne.2) hpc' hring
  cases step_cases ht with
  | frame egress penv ctx =>
    rcases frame_cases s egress penv ctx with ⟨-, hs⟩ | ⟨event, hcaptured, -⟩
    · exact .beside rfl (by rw [hs]) (by rw [hs])
    · cases hoffered.symm.trans hcaptured
  | attached m hpc => exact absurd hpc hstarted
  | poll readable ring hpc hring =>
    rcases PollState.step_cases hring with ⟨r, hr, -⟩ | ⟨-, -, rfl⟩ | ⟨events, hr, -⟩ | ⟨events, item, rest, hr, -⟩
    · cases hr
    · exact .poll rfl hpc rfl rfl
    · cases hr
    · cases hr
  | next ring hpc hring =>
    have hpending : ring.pending = s.ring.pending.tail := by
      rcases PollState.step_cases hring with ⟨r, hr, -⟩ | ⟨hr, -⟩ | ⟨events, -, -, hp, rfl⟩ |
        ⟨events, item, rest, -, -, hp, ⟨-, rfl⟩ | ⟨-, -, rfl⟩ | ⟨-, -, rfl⟩⟩
      · cases hr
      · cases hr
      · rw [hp]
        exact hp
      all_goals rw [hp]; rfl
    refine .next rfl hpc ?_ ?_
    · unfold polled
      split <;> exact hpending
    · unfold polled
      split
      · exact .inl hpc
      · rename_i hnone
        exact .inr ⟨_, rfl, hnone⟩
  | selfTraffic _ _ hpc | srcLookup _ _ hpc | dstLookup _ _ _ _ hpc | processEvent _ _ _ _ _ _ hpc
  | send _ _ _ hpc | batchDone hpc =>
    exact hhandle hpc ⟨by simp [MainPc.Idle], nofun⟩ rfl rfl ⟨nofun, nofun, nofun⟩
  | signal => exact absurd hsignal Bool.false_ne_true
  | watch | expireOldFlows | subscribe | receive | leave => exact .beside rfl rfl rfl

theorem running_step (h : s.Running env) (ha : a.quiet = true) (ht : step env s a = some t) : t.Running env := by
  have hon := (onTime_step h.onTime ht).1
  cases quietStep_of_step h.started ha ht with
  | beside _ hpc hring =>
    refine ⟨hon, hpc ▸ h.started, hpc ▸ h.going, ?_⟩
    rw [hpc, hring]
    exact h.events
  | poll _ _ hpc => exact ⟨hon, hpc ▸ nofun, hpc ▸ nofun, fun hne => absurd hpc hne⟩
  | next _ _ _ hpc =>
    rcases hpc with hpc | ⟨events, hpc, hnone⟩
    · exact ⟨hon, hpc ▸ nofun, hpc ▸ nofun, fun hne => absurd hpc hne⟩
    · exact ⟨hon, hpc ▸ nofun, hpc ▸ nofun, fun _ => hnone⟩
  | handle _ _ hs hpc hring =>
    refine ⟨hon, hpc.1, hpc.2.1, fun _ => ?_⟩
    rw [hring]
    exact h.events hs

theorem running_of_run {k8sEnabled : Bool} {acts : List AgentAction}
    (h : run (step env) (boot env k8sEnabled) acts = some s) (hstarted : s.pc ≠ .starting) (hgoing : s.pc ≠ .stopped) :
    s.Running env := by
  have hon : s.OnTime env := run_inv (fun _ _ _ hs ht => (onTime_step hs ht).1) (onTime_boot env k8sEnabled) h
  refine ⟨hon, hstarted, hgoing, fun hne => ?_⟩
  cases he : s.ring.events with
  | none => rfl
  | some events => exact absurd ((ledger_run h).polling.1 ⟨events, he⟩) hne

theorem Running.idle_iff (h : s.Running env) : s.pc.Idle ↔ s.pc = .select := by
  refine ⟨fun hidle => ?_, fun hs => .inr (.inl hs)⟩
  rcases hidle with hs | hs | hs
  · exact absurd hs h.started
  · exact hs
  · exact absurd hs h.going

theorem progress_quiet (env : AgentEnv) :
    Progress (only AgentAction.quiet (step env)) (Running env) (fun s => s.pc.Idle) AgentAction.ofMain (rank env) where
  inv _ _ _ hs ht := running_step hs (only_eq_some.1 ht).1 (only_eq_some.1 ht).2
  enabled s hs hidle := by
    obtain ⟨a, t, ha, hquiet, ht⟩ := exists_step_ofMain hs.onTime hidle
    exact ⟨a, t, ha, only_eq_some.2 ⟨hquiet, ht⟩⟩
  lower _ _ _ hs hidle ha ht := (onTime_step hs.onTime (only_eq_some.1 ht).2).2.1 ha hidle
  keep _ _ _ hs _ ha ht := ((onTime_step hs.onTime (only_eq_some.1 ht).2).2.2 ha).le

/-- A poll takes something out of a ring that is not empty. -/
theorem rounds_quiet (env : AgentEnv) :
    Rounds (only AgentAction.quiet (step env)) (Running env) (fun s => s.pc.Idle) (fun s => s.ring.pending = [])
      (fun s => s.pc = .polling ∧ s.ring.pending ≠ []) AgentAction.ofMain (fun s => s.ring.pending.length) where
  measure s a t hs ht := by
    obtain ⟨ha, ht⟩ := only_eq_some.1 ht
    cases quietStep_of_step hs.started ha ht with
    | beside _ _ hring => rw [hring]
    | poll _ _ _ hpending => rw [hpending]
    | next _ _ hpending =>
      rw [hpending, List.length_tail]
      exact Nat.sub_le _ _
    | handle _ _ _ _ hring => rw [hring]
  enabled s hs hidle _ := by
    have hselect := hs.idle_iff.1 hidle
    have hnone := hs.events (by rw [hselect]; nofun)
    have hring : ∃ ring, s.ring.step env.config.maxBatchSize .pollEvents = some ring := by
      simp only [PollState.step, hnone]
      exact ⟨_, rfl⟩
    obtain ⟨ring, hring⟩ := hring
    exact ⟨.poll true, _, rfl, only_eq_some.2 ⟨rfl, step_of_agentStep (.poll true ring hselect hring)⟩⟩
  begins s a t hs hidle hpending ha ht := by
    obtain ⟨hquiet, ht⟩ := only_eq_some.1 ht
    have hselect := hs.idle_iff.1 hidle
    cases quietStep_of_step hs.started hquiet ht with
    | beside hother => rw [ha] at hother; cases hother
    | poll _ _ hpc hsame => exact ⟨hpc, hsame ▸ hpending⟩
    | next _ hpc => rw [hselect] at hpc; cases hpc
    | handle _ hbusy => exact absurd hidle hbusy
  waits s a t hs hidle ha ht := by
    obtain ⟨hquiet, ht⟩ := only_eq_some.1 ht
    cases quietStep_of_step hs.started hquiet ht with
    | beside _ hpc => exact hpc ▸ hidle
    | poll hmain | next hmain | handle hmain => rw [ha] at hmain; cases hmain
  lowers s a t hs hbegun ht := by
    obtain ⟨hpc, hpending⟩ := hbegun
    obtain ⟨hquiet, ht⟩ := only_eq_some.1 ht
    cases quietStep_of_step hs.started hquiet ht with
    | beside _ hpc' hring => exact .inl ⟨hpc'.trans hpc, hring ▸ hpending⟩
    | poll _ hselect => rw [hpc] at hselect; cases hselect
    | next _ _ htail =>
      have hlen := List.length_pos_of_ne_nil hpending
      refine .inr ?_
      rw [htail, List.length_tail]
      omega
    | handle _ _ hne => exact absurd hpc hne
  busy s hbegun hidle := by
    rw [hbegun.1] at hidle
    simp [MainPc.Idle] at hidle

/-- Where the events are when the loop waits at an empty ring. -/
theorem caughtUp_of_idle {k8sEnabled : Bool} {acts front : List AgentAction} {u : Agent}
    (h : run (step env) (boot env k8sEnabled) acts = some s) (hu : run (step env) s front = some u)
    (hquiet : ∀ a ∈ front, a.quiet = true) (hpc : u.pc = .select) (hpending : u.ring.pending = []) :
    u.CaughtUp env (acts.filterMap AgentAction.offered) := by
  have hrun : run (step env) (boot env k8sEnabled) (acts ++ front) = some u := by
    rw [run_append, h, Option.bind_some, hu]
  have hcaptured : (acts ++ front).filterMap AgentAction.offered = acts.filterMap AgentAction.offered := by
    have hnone : front.filterMap AgentAction.offered = [] := by
      rw [List.filterMap_eq_nil_iff]
      exact fun a ha => Option.isNone_iff_eq_none.1 (Bool.and_eq_true_iff.1 (hquiet a ha)).1
    rw [List.filterMap_append, hnone, List.append_nil]
  have hledger := ledger_run hrun
  rw [hcaptured] at hledger
  obtain ⟨hfetched, hlost⟩ := hledger.ring_accounts
  have haggregated := hledger.aggregated
  have hcounted := hledger.counted
  rw [hpending, List.length_nil, Nat.add_zero] at hlost
  rw [inHand, hpc, List.append_nil] at haggregated
  rw [toSend, hpc, List.length_nil, Nat.add_zero] at hcounted
  exact ⟨hpc, hpending, hledger.submitted, hfetched, hlost, haggregated, hcounted⟩

/-- While nothing is captured, a running agent catches up: its main task can do so alone, and in every run,
whatever the other tasks and the clients do, it has done so once it has taken as many steps as the rounds
for the pending records take. -/
theorem caughtUp_of_run (env : AgentEnv) (k8sEnabled : Bool) (acts : List AgentAction) (s : Agent)
    (h : run (step env) (boot env k8sEnabled) acts = some s) (hstarted : s.pc ≠ .starting) (hgoing : s.pc ≠ .stopped) :
    (∃ own t, (∀ a ∈ own, a.ofMain = true ∧ a.quiet = true) ∧ run (step env) s own = some t ∧
      t.CaughtUp env (acts.filterMap AgentAction.offered)) ∧
    ∀ more t, run (step env) s more = some t → (∀ a ∈ more, a.quiet = true) →
      (s.ring.pending.length + 1) * (2 * roundCalls env + 3) ≤ more.countP AgentAction.ofMain →
      ∃ front back u, more = front ++ back ∧ run (step env) s front = some u ∧
        u.CaughtUp env (acts.filterMap AgentAction.offered) := by
  have hrunning := running_of_run h hstarted hgoing
  have hbound (s : Agent) (hs : s.Running env) : s.rank env ≤ roundCalls env := hs.onTime.rank_le
  have hprogress := (rounds_quiet env).progress (progress_quiet env) hbound
  have hcaught {front : List AgentAction} {u : Agent} (hu : run (only AgentAction.quiet (step env)) s front = some u)
      (hidle : u.pc.Idle) (hpending : u.ring.pending = []) :
      run (step env) s front = some u ∧ u.CaughtUp env (acts.filterMap AgentAction.offered) := by
    have hu' := run_inv hprogress.inv hrunning hu
    obtain ⟨hquiet, hu⟩ := run_only_eq_some.1 hu
    exact ⟨hu, caughtUp_of_idle h hu hquiet (hu'.idle_iff.1 hidle) hpending⟩
  constructor
  · obtain ⟨own, t, hown, -, ht, hidle, hpending⟩ := hprogress.exists_run_idle hrunning
    have hquiet := (run_only_eq_some.1 ht).1
    exact ⟨own, t, fun a ha => ⟨hown a ha, hquiet a ha⟩, hcaught ht hidle hpending⟩
  · intro more t ht hquiet hcount
    obtain ⟨front, back, u, hmore, -, hu, hidle, hpending⟩ := hprogress.exists_idle hrunning
      (run_only_eq_some.2 ⟨hquiet, ht⟩) ((roundRank_lt (hbound s hrunning)).trans_le hcount)
    exact ⟨front, back, u, hmore, hcaught hu hidle hpending⟩

/-- The demo, when its frame has been captured. -/
theorem caughtUp_of_run_demo :
    (run (step demoEnv) (boot demoEnv true) (demoActs.take 4)).any (fun s => s.ring.pending.length = 1) ∧
      ∀ s, run (step demoEnv) (boot demoEnv true) (demoActs.take 4) = some s →
        (∃ own t, (∀ a ∈ own, a.ofMain = true ∧ a.quiet = true) ∧ run (step demoEnv) s own = some t ∧
          t.CaughtUp demoEnv ((demoActs.take 4).filterMap AgentAction.offered)) ∧
        ∀ more t, run (step demoEnv) s more = some t → (∀ a ∈ more, a.quiet = true) →
          (s.ring.pending.length + 1) * (2 * roundCalls demoEnv + 3) ≤ more.countP AgentAction.ofMain →
          ∃ front back u, more = front ++ back ∧ run (step demoEnv) s front = some u ∧
            u.CaughtUp demoEnv ((demoActs.take 4).filterMap AgentAction.offered) := by
  refine ⟨by decide, fun s h => ?_⟩
  have hpoll : (run (step demoEnv) (boot demoEnv true) (demoActs.take 5)).isSome := by decide
  obtain ⟨t, ht⟩ := Option.isSome_iff_exists.1 hpoll
  rw [show demoActs.take 5 = demoActs.take 4 ++ [.poll true] from rfl, run_append, h, Option.bind_some,
    run_singleton] at ht
  cases step_cases ht with
  | poll _ _ hpc => exact caughtUp_of_run demoEnv true (demoActs.take 4) s h (hpc ▸ nofun) (hpc ▸ nofun)

end Agent

end Orb8
