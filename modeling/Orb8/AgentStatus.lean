import Orb8.CapacityFlag
import Orb8.Composition
import Orb8.TableBound
import Orb8.Watermark

/-!
# What `GetStatus` reports (`grpc_server.rs`)

The status puts together what the tasks of the agent leave in four places. `Reports` says what it tells
about the run that led there: whether the probes are attached and the table is not under pressure, how
many events were aggregated, how many the probes had dropped when the main loop last looked, and how
many pods and flows there are.
-/

namespace Orb8
open AMap Trace SharedCell HealthState

structure AgentStatus where
  nodeName : String
  version : String
  healthy : Bool
  healthMessage : String
  eventsProcessed : UInt64
  eventsDropped : UInt64
  podsTracked : UInt32
  activeFlows : UInt32
  uptimeSeconds : Int64
deriving DecidableEq, Repr

/-- The name that `start_server` finds for the node; `env` is `std::env::var`, `hostname` what
`hostname::get` returned. -/
def nodeName (env : String → Option String) (hostname : Option String) : String :=
  ((env "NODE_NAME").or hostname).getD "unknown"

/-! ### The number of flows and of addresses -/

namespace FlowAggregator
variable {a : FlowAggregator} {ord : Order FlowKey FlowStats} {now : Instant} {event : NetworkFlowEvent}
  {namespace_ podName : String}

/-- An eviction from a table that is not empty removes at least one flow. -/
theorem len_evictOldestFlows_lt (ord : Order FlowKey FlowStats) (h : a.flows ≠ ∅) :
    len (a.evictOldestFlows ord).1.flows < len a.flows := by
  have hne : (ord.visit a.flows.toList).map (fun e => (e.1, e.2.lastSeen)) ≠ [] := by
    intro hnil
    have hlen := congrArg List.length hnil
    rw [List.length_map, (ord.perm _).length_eq, length_toList] at hlen
    exact h (eq_empty_of_len hlen)
  obtain ⟨c, hc, hhead⟩ := exists_head_oldest (one_le_evictCount a.maxFlows) hne
  obtain ⟨⟨k, stats⟩, he, rfl⟩ := List.mem_map.1 hc
  have hk : k ∈ a.flows := mem_iff_lookup.2 ⟨stats, mem_toList.1 ((ord.perm _).mem_iff.1 he)⟩
  obtain ⟨rest, hrest⟩ := List.head?_eq_some_iff.1 hhead
  show len (a.flows.removeAll (List.map Prod.fst (oldest (evictCount a.maxFlows) _))).1 < _
  rw [hrest]
  exact len_removeAll_lt hk _

theorem len_processEvent_le (h : len a.flows ≤ max a.maxFlows 1) :
    len (a.processEvent ord now event namespace_ podName).1.flows ≤ max a.maxFlows 1 := by
  cases hl : a.flows.lookup (flowKey event namespace_ podName) with
  | some stats =>
    rw [processEvent_of_some hl]
    exact (len_insert_of_mem _ (mem_iff_lookup.2 ⟨stats, hl⟩)).le.trans h
  | none =>
    rw [processEvent_of_none hl]
    refine (len_entryInsert_le _ now _ event).trans ?_
    rcases lt_or_ge (len a.flows) a.maxFlows with hroom | hfull
    · rw [makeRoom_of_room (a := a.counted) hroom]
      exact Nat.succ_le_of_lt (lt_of_lt_of_le hroom (le_max_left _ _))
    · rw [makeRoom_of_full (a := a.counted) hfull]
      by_cases hempty : a.flows = ∅
      · have hnone : len (a.counted.evictOldestFlows ord).1.flows = 0 := by
          show len (a.flows.removeAll _).1 = 0
          rw [hempty, removeAll_empty]
          rfl
        omega
      · have hlt := len_evictOldestFlows_lt (a := a.counted) ord hempty
        have hlt : len (a.counted.evictOldestFlows ord).1.flows < len a.flows := hlt
        omega

end FlowAggregator

theorem Logged.flowCount_run {maxFlows : Nat} {flowTimeout : Duration} {calls : List FlowCall} {s : Logged}
    (h : run step (init maxFlows flowTimeout) calls = some s) : s.flowCount ≤ max maxFlows 1 := by
  have hstep : ∀ s c t, s.agg.maxFlows = maxFlows ∧ s.flowCount ≤ max maxFlows 1 → step s c = some t →
      t.agg.maxFlows = maxFlows ∧ t.flowCount ≤ max maxFlows 1 := by
    rintro s c t ⟨hmax, hle⟩ ht
    refine ⟨maxFlows_step hmax ht, ?_⟩
    obtain rfl := Option.some.inj ht
    subst hmax
    cases c with
    | processEvent ord now event namespace_ podName => exact FlowAggregator.len_processEvent_le hle
    | expireOldFlows now => exact (len_retain_le _ _).trans hle
  exact (run_inv (I := fun s => s.agg.maxFlows = maxFlows ∧ s.flowCount ≤ max maxFlows 1) hstep
    ⟨rfl, Nat.zero_le _⟩ h).2

/-- The cache is made for `n` addresses and holds no more. -/
def PodCache.Sized (n : Nat) (c : PodCache) : Prop := c.maxEntries = n ∧ len c.byIp ≤ c.maxEntries

section
variable {n : Nat} {c : PodCache} {resolver : CgroupResolver} {fs : Fs} {pod : Pod} {w : PodWatcher}

theorem PodCache.Sized.insertByIp (h : c.Sized n) (md : PodMetadata) : (c.insertByIp md).Sized n :=
  ⟨(upserts_insertByIp (P := fun _ => True) md trivial).maxEntries.trans h.1, CapacityFlag.size_insertByIp h.2⟩

theorem PodCache.Sized.handlePodApply (h : c.Sized n) : (handlePodApply resolver fs c pod).Sized n := by
  by_cases hu : pod.podUid = ""
  · rwa [handlePodApply_of_uid_empty hu]
  · exact handlePodApply_induct (R := Sized n) hu (fun _ => h) (fun _ md _ _ _ => h.insertByIp md)
      fun _ _ md h' _ _ => h'.insertByIp md

theorem PodCache.Sized.handlePodDelete (h : c.Sized n) : (handlePodDelete c pod).Sized n := by
  unfold Orb8.handlePodDelete
  split
  · exact h
  · exact ⟨removePod_maxEntries.trans h.1, CapacityFlag.size_removePod h.2⟩

theorem PodCache.Sized.watchPods (h : c.Sized n) (event : WatchEvent) : (w.watchPods fs c event).Sized n := by
  cases event with
  | apply pod | initApply pod => exact h.handlePodApply
  | delete pod => exact h.handlePodDelete
  | init | initDone => exact h

theorem PodCache.Sized.applyAll (h : c.Sized n) (podList : List (Fs × Pod)) : (w.applyAll c podList).Sized n := by
  induction podList generalizing c with
  | nil => exact h
  | cons p podList ih => exact ih h.handlePodApply

theorem PodWatcher.sized_run {health : HealthState} {acts : List WatchAction} {s : WatcherState}
    (h : run w.step (w.start (PodCache.new n health)) acts = some s) : s.cache.Sized n := by
  have hstep : ∀ s a t, s.cache.Sized n → w.step s a = some t → t.cache.Sized n := by
    rintro ⟨c, backoff, phase⟩ a t hs ht
    cases step_cases ht with
    | deliver fs event => exact hs.watchPods event
    | resynced podList => exact hs.applyAll podList
    | _ => exact hs
  exact run_inv (I := fun s : WatcherState => s.cache.Sized n) hstep ⟨rfl, Nat.zero_le _⟩ h

end

/-! ### The status -/

/-- The frame is one that the probe reports, and the ring buffer has no room for it. -/
def AgentAction.dropped : AgentAction → Bool
  | a@(.frame _ env _) => a.offered.isSome && !env.room
  | _ => false

def AgentAction.aggregates : AgentAction → Bool
  | .processEvent .. => true
  | _ => false

namespace Agent

/-- `get_status`; `uptime` is in seconds. -/
def getStatus (s : Agent) (nodeName version : String) (uptime : Nat) : AgentStatus where
  nodeName := nodeName
  version := version
  healthy := s.health.isHealthy
  healthMessage := s.health.healthMessage
  eventsProcessed := s.aggregator.eventsProcessed
  eventsDropped := s.eventsDropped
  podsTracked := UInt32.ofNat s.podCache.ipEntriesCount
  activeFlows := UInt32.ofNat s.aggregator.activeFlowCount
  uptimeSeconds := Int64.ofNat uptime

/-- An event is aggregated, and the table then holds at least `high` flows. -/
def Fills (env : AgentEnv) (high : Nat) (s : Agent) (a : AgentAction) : Prop :=
  ∃ ord now t, a = .processEvent ord now ∧ step env s a = some t ∧ high ≤ t.aggregator.activeFlowCount

/-- A sweep leaves fewer than `low` flows. -/
def Drains (env : AgentEnv) (low : Nat) (s : Agent) (a : AgentAction) : Prop :=
  ∃ now t, a = .expireOldFlows now ∧ step env s a = some t ∧ t.aggregator.activeFlowCount < low

/-- What the actions so far have come to. -/
structure Tally (acts : List AgentAction) (s : Agent) : Prop where
  attached : s.pc ≠ .starting ↔ ∃ m, .attached m ∈ acts
  unpolled : s.pc = .starting → ∀ r, .poll r ∉ acts
  processed : s.flows.agg.eventsProcessed = UInt64.ofNat (acts.countP AgentAction.aggregates)
  kernelDropped : s.kernelDropped = UInt64.ofNat (acts.countP AgentAction.dropped)
  /-- The counter as of the last poll, if each poll could read it. -/
  eventsDropped : ∃ earlier later, acts = earlier ++ later ∧
    s.eventsDropped = UInt64.ofNat (earlier.countP AgentAction.dropped) ∧
    (s.dropCounterMap = true → .poll false ∉ acts → .poll true ∉ later.drop 1)

variable {env : AgentEnv} {s t : Agent} {a : AgentAction} {acts : List AgentAction}

theorem ofNat_countP_snoc (p : AgentAction → Bool) (acts : List AgentAction) (a : AgentAction) :
    UInt64.ofNat ((acts ++ [a]).countP p) = UInt64.ofNat (acts.countP p) + if p a then 1 else 0 := by
  rw [List.countP_append, List.countP_singleton, UInt64.ofNat_add]
  cases p a <;> rfl

/-- A step that neither attaches the probes nor looks at the drop counter. -/
theorem Tally.other (h : Tally acts s) (hatt : ∀ m, a ≠ .attached m) (hpoll : ∀ r, a ≠ .poll r)
    (hpc : t.pc = .starting ↔ s.pc = .starting)
    (hproc : t.flows.agg.eventsProcessed = s.flows.agg.eventsProcessed + if a.aggregates then 1 else 0)
    (hkernel : t.kernelDropped = s.kernelDropped + if a.dropped then 1 else 0)
    (hevents : t.eventsDropped = s.eventsDropped) (hmap : t.dropCounterMap = s.dropCounterMap) :
    Tally (acts ++ [a]) t := by
  obtain ⟨hattached, hunpolled, hprocessed, hkernelDropped, earlier, later, rfl, hread, hlast⟩ := h
  have hsnoc (b : AgentAction) (l : List AgentAction) (hb : a ≠ b) : b ∈ l ++ [a] ↔ b ∈ l := by
    simp [Ne.symm hb]
  constructor
  · rw [Ne, hpc, ← Ne, hattached]
    exact exists_congr fun m => (hsnoc _ _ (hatt m)).symm
  · intro hstart r
    rw [hsnoc _ _ (hpoll r)]
    exact hunpolled (hpc.1 hstart) r
  · rw [hproc, hprocessed, ofNat_countP_snoc]
  · rw [hkernel, hkernelDropped, ofNat_countP_snoc]
  · refine ⟨earlier, later ++ [a], List.append_assoc .., hevents.trans hread, fun hm hf => ?_⟩
    rw [hsnoc _ _ (hpoll false)] at hf
    have hnone := hlast (hmap ▸ hm) hf
    cases later with
    | nil => simp
    | cons b later =>
      have hiff : AgentAction.poll true ∈ later ++ [a] ↔ _ := hsnoc _ _ (hpoll true)
      exact fun hin => hnone (hiff.1 hin)

theorem tally_boot (env : AgentEnv) (k8sEnabled : Bool) : Tally [] (boot env k8sEnabled) where
  attached := by simp [boot]
  unpolled := fun _ _ h => (nomatch h)
  processed := rfl
  kernelDropped := rfl
  eventsDropped := ⟨[], [], rfl, rfl, fun _ _ h => (nomatch h)⟩

theorem Tally.poll (h : Tally acts s) (hpc : s.pc = .select) (readable : Bool) (ring : PollState) :
    Tally (acts ++ [.poll readable]) { s with
      ring
      pc := .polling
      eventsDropped := if s.dropCounterMap then readEventsDropped readable s.kernelDropped else s.eventsDropped } := by
  obtain ⟨hattached, -, hprocessed, hkernelDropped, earlier, later, rfl, hread, hlast⟩ := h
  constructor
  · refine iff_of_true (fun h => nomatch h) ?_
    obtain ⟨m, hm⟩ := hattached.1 (by rw [hpc]; exact fun h => nomatch h)
    exact ⟨m, List.mem_append_left _ hm⟩
  · exact fun h => nomatch h
  · rw [ofNat_countP_snoc]
    exact hprocessed.trans (UInt64.add_zero _).symm
  · rw [ofNat_countP_snoc]
    exact hkernelDropped.trans (UInt64.add_zero _).symm
  · cases hmap : s.dropCounterMap with
    | false =>
      exact ⟨earlier, later ++ [.poll readable], List.append_assoc .., hread, fun hm => nomatch hm⟩
    | true =>
      cases readable with
      | false => exact ⟨[], _, rfl, rfl, fun _ hf => absurd (List.mem_append_right _ List.mem_cons_self) hf⟩
      | true => exact ⟨earlier ++ later, [.poll true], rfl, hkernelDropped, fun _ _ h => (nomatch h)⟩

theorem Tally.attach (h : Tally acts s) (hpc : s.pc = .starting) (m : Bool) :
    Tally (acts ++ [.attached m])
      { s with pc := .select, dropCounterMap := m, health := s.health.setProbesAttached true } := by
  obtain ⟨-, hunpolled, hprocessed, hkernelDropped, earlier, later, rfl, hread, hlast⟩ := h
  have hnone := hunpolled hpc
  constructor
  · exact iff_of_true (fun h => nomatch h) ⟨m, List.mem_append_right _ List.mem_cons_self⟩
  · exact fun h => nomatch h
  · rw [ofNat_countP_snoc]
    exact hprocessed.trans (UInt64.add_zero _).symm
  · rw [ofNat_countP_snoc]
    exact hkernelDropped.trans (UInt64.add_zero _).symm
  · refine ⟨earlier, later ++ [.attached m], List.append_assoc .., hread, fun _ _ hin => ?_⟩
    have hin := List.mem_of_mem_drop hin
    rcases List.mem_append.1 hin with hin | hin
    · exact hnone true (List.mem_append_right _ hin)
    · cases List.mem_singleton.1 hin

theorem Tally.frame (h : Tally acts s) (egress : Bool) (penv : ProbeEnv) (ctx : TcContext) :
    Tally (acts ++ [.frame egress penv ctx]) (s.frame egress penv ctx) := by
  have hmoves (t : Agent) (hpc : t.pc = s.pc) (hflows : t.flows = s.flows) (hevents : t.eventsDropped = s.eventsDropped)
      (hmap : t.dropCounterMap = s.dropCounterMap)
      (hkernel : t.kernelDropped = s.kernelDropped + if (AgentAction.frame egress penv ctx).dropped then 1 else 0) :
      Tally (acts ++ [.frame egress penv ctx]) t :=
    h.other nofun nofun (by rw [hpc])
      (by rw [hflows]; exact (UInt64.add_zero _).symm) hkernel hevents hmap
  rcases frame_cases s egress penv ctx with ⟨ho, hs⟩ | ⟨event, ho, ⟨hroom, hs⟩ | ⟨hroom, hs⟩⟩ <;> rw [hs] <;>
    refine hmoves _ rfl rfl rfl rfl ?_ <;> simp [AgentAction.dropped, *]

/-- A step that no tally counts, of the main loop after the start or of another task. -/
theorem Tally.quiet (h : Tally acts s) (hatt : ∀ m, a ≠ .attached m) (hpoll : ∀ r, a ≠ .poll r)
    (hagg : a.aggregates = false) (hdrop : a.dropped = false) (hpc : t.pc = .starting ↔ s.pc = .starting)
    (hproc : t.flows.agg.eventsProcessed = s.flows.agg.eventsProcessed) (hkernel : t.kernelDropped = s.kernelDropped)
    (hevents : t.eventsDropped = s.eventsDropped) (hmap : t.dropCounterMap = s.dropCounterMap) :
    Tally (acts ++ [a]) t := by
  refine h.other hatt hpoll hpc ?_ ?_ hevents hmap
  · rw [hproc, hagg]
    exact (UInt64.add_zero _).symm
  · rw [hkernel, hdrop]
    exact (UInt64.add_zero _).symm

theorem tally_step (h : Tally acts s) (ht : step env s a = some t) : Tally (acts ++ [a]) t := by
  have hmoved {pc pc' : MainPc} (hpc : s.pc = pc) (hne : pc ≠ .starting) (hne' : pc' ≠ .starting) :
      pc' = .starting ↔ s.pc = .starting := iff_of_false hne' (by rwa [hpc])
  have hquiet (t : Agent) := h.quiet (t := t) (a := a)
  cases step_cases ht with
  | frame egress penv ctx => exact h.frame egress penv ctx
  | attached m hpc => exact h.attach hpc m
  | poll readable ring hpc => exact h.poll hpc readable ring
  | next ring hpc =>
    unfold polled
    split
    · exact hquiet _ nofun nofun rfl rfl .rfl rfl rfl rfl rfl
    · exact hquiet _ nofun nofun rfl rfl (hmoved hpc nofun nofun) rfl rfl rfl rfl
  | selfTraffic event events hpc | srcLookup event events hpc | dstLookup _ _ _ _ hpc | batchDone hpc | signal hpc =>
    exact hquiet _ nofun nofun rfl rfl (hmoved hpc nofun nofun) rfl rfl rfl rfl
  | processEvent ord now event namespace_ podName events hpc =>
    obtain ⟨-, -, -, -, hproc⟩ := FlowAggregator.processEvent_cases s.logged.agg ord now event namespace_ podName
    exact h.other nofun nofun (hmoved hpc nofun nofun) hproc (UInt64.add_zero _).symm rfl rfl
  | send event events streams hpc => exact hquiet _ nofun nofun rfl rfl (hmoved hpc nofun nofun) rfl rfl rfl rfl
  | watch | expireOldFlows | subscribe | receive | leave => exact hquiet _ nofun nofun rfl rfl .rfl rfl rfl rfl rfl

theorem tally_run {k8sEnabled : Bool} (h : run (step env) (boot env k8sEnabled) acts = some s) : Tally acts s := by
  have hstep : ∀ acts s a t, Tally acts s → step env s a = some t → Tally (acts ++ (some a).toList) t :=
    fun _ _ _ _ hs ht => tally_step hs ht
  have htally := run_inv_seen hstep (tally_boot env k8sEnabled) h
  rwa [List.filterMap_some, List.nil_append] at htally

/-! ### The capacity flag -/

theorem fills_iff {high : Nat} (ht : step env s a = some t) : Fills env high s a ↔
    (∃ ord now, a = .processEvent ord now) ∧ high ≤ t.aggregator.activeFlowCount := by
  constructor
  · rintro ⟨ord, now, t', rfl, ht', hle⟩
    obtain rfl := Option.some.inj (ht.symm.trans ht')
    exact ⟨⟨ord, now, rfl⟩, hle⟩
  · rintro ⟨⟨ord, now, rfl⟩, hle⟩
    exact ⟨ord, now, t, rfl, ht, hle⟩

theorem drains_iff {low : Nat} (ht : step env s a = some t) : Drains env low s a ↔
    (∃ now, a = .expireOldFlows now) ∧ t.aggregator.activeFlowCount < low := by
  constructor
  · rintro ⟨now, t', rfl, ht', hlt⟩
    obtain rfl := Option.some.inj (ht.symm.trans ht')
    exact ⟨⟨now, rfl⟩, hlt⟩
  · rintro ⟨⟨now, rfl⟩, hlt⟩
    exact ⟨now, t, rfl, ht, hlt⟩

theorem flag_step_iff (hmax : env.config.maxFlows * 95 < 2 ^ 64) (hs : s.flows.agg.maxFlows = env.config.maxFlows)
    (ht : step env s a = some t) : t.health.flowTableAtCapacity = true ↔
      Fills env (Logged.highWatermark env.config.maxFlows) s a ∨
        s.health.flowTableAtCapacity = true ∧ ¬ Drains env (Logged.lowWatermark env.config.maxFlows) s a := by
  have hother (hagg : ∀ ord now, a ≠ .processEvent ord now) (hexp : ∀ now, a ≠ .expireOldFlows now)
      (hflag : t.health.flowTableAtCapacity = s.health.flowTableAtCapacity) : t.health.flowTableAtCapacity = true ↔
      Fills env (Logged.highWatermark env.config.maxFlows) s a ∨
        s.health.flowTableAtCapacity = true ∧ ¬ Drains env (Logged.lowWatermark env.config.maxFlows) s a := by
    rw [hflag, fills_iff ht, drains_iff ht]
    simp [hagg, hexp]
  have hcall (c : FlowCall) := Logged.flagged_step_iff (s := s.logged) (c := c) hmax hs rfl
  have hstreams {b : StreamAction} {st : Streams} (hst : s.streams.step b = some st) :
      st.health.flowTableAtCapacity = s.health.flowTableAtCapacity :=
    (congrArg flowTableAtCapacity (Streams.frames_step.keep hst)).symm
  cases step_cases ht with
  | frame egress penv ctx =>
    refine hother nofun nofun ?_
    rcases frame_cases s egress penv ctx with ⟨-, hs⟩ | ⟨event, -, ⟨-, hs⟩ | ⟨-, hs⟩⟩ <;> rw [hs]
  | next ring hpc =>
    refine hother nofun nofun ?_
    unfold polled
    split <;> rfl
  | attached | poll | selfTraffic | srcLookup | dstLookup | batchDone | signal => exact hother nofun nofun rfl
  | processEvent ord now event namespace_ podName events hpc =>
    rw [fills_iff ht, drains_iff ht]
    refine (hcall (.processEvent ord now event namespace_ podName)).trans
      (or_congr ⟨fun h => ⟨⟨ord, now, rfl⟩, h⟩, And.right⟩ (and_congr_right fun _ => not_congr ?_))
    exact iff_of_false (fun h => h) fun ⟨⟨_, h⟩, _⟩ => nomatch h
  | watch b w hmay hw =>
    exact hother nofun nofun (congrArg flowTableAtCapacity (env.podWatcher.frames_step.keep hw)).symm
  | expireOldFlows now hpc =>
    rw [fills_iff ht, drains_iff ht]
    refine (hcall (.expireOldFlows now)).trans
      (or_congr ?_ (and_congr_right fun _ => not_congr ⟨fun h => ⟨⟨now, rfl⟩, h⟩, And.right⟩))
    exact iff_of_false (fun h => h) fun ⟨⟨_, _, h⟩, _⟩ => nomatch h
  | send event events st hpc hst => exact hother nofun nofun (hstreams hst)
  | subscribe id namespaces st hst => exact hother nofun nofun (hstreams hst)
  | receive id st hst => exact hother nofun nofun (hstreams hst)
  | leave id st hst => exact hother nofun nofun (hstreams hst)

theorem agent_maxFlows_step (hs : s.flows.agg.maxFlows = env.config.maxFlows) (ht : step env s a = some t) :
    t.flows.agg.maxFlows = env.config.maxFlows := by
  rcases logged_step ht with ⟨c, hc⟩ | ⟨c, hc, -⟩
  · exact Logged.maxFlows_step (s := s.logged) (t := t.logged) hs hc
  · exact (congrArg (fun lg : Logged => lg.agg.maxFlows) hc).trans hs

theorem flag_run {k8sEnabled : Bool} (hmax : env.config.maxFlows * 95 < 2 ^ 64)
    (h : run (step env) (boot env k8sEnabled) acts = some s) : s.health.flowTableAtCapacity = true ↔
      SwitchedOn (step env) (Fills env (Logged.highWatermark env.config.maxFlows))
        (Drains env (Logged.lowWatermark env.config.maxFlows)) (boot env k8sEnabled) acts := by
  have hstep : ∀ s a t, s.flows.agg.maxFlows = env.config.maxFlows → step env s a = some t →
      (t.health.flowTableAtCapacity = true ↔ Fills env (Logged.highWatermark env.config.maxFlows) s a ∨
        s.health.flowTableAtCapacity = true ∧ ¬ Drains env (Logged.lowWatermark env.config.maxFlows) s a) :=
    fun _ _ _ hs ht => flag_step_iff hmax hs ht
  exact flag_iff_switchedOn (I := fun s => s.flows.agg.maxFlows = env.config.maxFlows)
    (fun _ _ _ hs ht => agent_maxFlows_step hs ht) hstep rfl (fun hf => nomatch hf) h

theorem isReady_run {k8sEnabled : Bool} (h : run (step env) (boot env k8sEnabled) acts = some s) :
    s.health.isReady = true ↔ ∃ m, .attached m ∈ acts := by
  rw [← (tally_run h).attached, isReady, probesAttached_run h]
  cases s.pc <;> simp

theorem isHealthy_run {k8sEnabled : Bool} (hmax : env.config.maxFlows * 95 < 2 ^ 64)
    (h : run (step env) (boot env k8sEnabled) acts = some s) : s.health.isHealthy = true ↔
      (∃ m, .attached m ∈ acts) ∧
        ¬ SwitchedOn (step env) (Fills env (Logged.highWatermark env.config.maxFlows))
          (Drains env (Logged.lowWatermark env.config.maxFlows)) (boot env k8sEnabled) acts := by
  have hready := isReady_run h
  rw [isReady] at hready
  rw [isHealthy, Bool.and_eq_true, Bool.not_eq_true', ← Bool.not_eq_true, hready, flag_run hmax h]

/-- What a status says about the run of `acts` that it was taken after. -/
structure Reports (env : AgentEnv) (k8sEnabled : Bool) (acts : List AgentAction) (s : Agent) (st : AgentStatus) :
    Prop where
  healthy : env.config.maxFlows * 95 < 2 ^ 64 → (st.healthy = true ↔ (∃ m, .attached m ∈ acts) ∧
    ¬ SwitchedOn (step env) (Fills env (Logged.highWatermark env.config.maxFlows))
      (Drains env (Logged.lowWatermark env.config.maxFlows)) (boot env k8sEnabled) acts)
  eventsProcessed : st.eventsProcessed = UInt64.ofNat (acts.countP AgentAction.aggregates)
  eventsDropped : ∃ earlier later, acts = earlier ++ later ∧
    st.eventsDropped = UInt64.ofNat (earlier.countP AgentAction.dropped) ∧
    (s.dropCounterMap = true → .poll false ∉ acts → .poll true ∉ later.drop 1)
  podsTracked : env.config.maxPodCacheEntries < 2 ^ 32 → st.podsTracked.toNat = len s.podCache.byIp
  activeFlows : max env.config.maxFlows 1 < 2 ^ 32 → st.activeFlows.toNat = len s.aggregator.flows

end Agent

end Orb8
