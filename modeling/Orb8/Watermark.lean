import Orb8.FlowLog

/-!
# The capacity flag of the flow table

`process_event` sets the flag whenever it leaves the table at the high watermark or above,
`expire_old_flows` clears it whenever it leaves the table below the low watermark, and nothing else
touches it. Between the two it keeps what it was: `Hysteresis` says so over whole runs. The watermarks
are percentages in truncating, wrapping arithmetic, which makes them wrong at both ends of the range
of capacities.
-/

namespace Orb8
open AMap Trace FlowAggregator

namespace FlowAggregator
variable {a : FlowAggregator} {ord : Order FlowKey FlowStats} {now : Instant}
  {event : NetworkFlowEvent} {namespace_ podName : String} {maxFlows percent : Nat}

/-! ### The flag and the capacity in one call -/

/-- Every path of `process_event` ends in `update_capacity_flag`, with flag and capacity as they were. -/
theorem processEvent_eq_updateCapacityFlag (a : FlowAggregator) (ord : Order FlowKey FlowStats) (now : Instant)
    (event : NetworkFlowEvent) (namespace_ podName : String) :
    ∃ b : FlowAggregator, (a.processEvent ord now event namespace_ podName).1 = b.updateCapacityFlag ∧
      b.maxFlows = a.maxFlows ∧ b.flowTimeout = a.flowTimeout ∧
      b.health.flowTableAtCapacity = a.health.flowTableAtCapacity := by
  cases hl : a.flows.lookup (flowKey event namespace_ podName) with
  | some stats =>
    rw [processEvent_of_some hl]
    exact ⟨_, rfl, rfl, rfl, rfl⟩
  | none =>
    rw [processEvent_of_none hl]
    refine ⟨_, rfl, ?_⟩
    rcases lt_or_ge (len a.flows) a.maxFlows with hroom | hfull
    · rw [makeRoom_of_room (a := a.counted) hroom]
      exact ⟨rfl, rfl, rfl⟩
    · rw [makeRoom_of_full (a := a.counted) hfull]
      refine ⟨rfl, rfl, ?_⟩
      -- an eviction touches no flag, whether or not it took anything out
      unfold evictOldestFlows
      dsimp only
      split <;> rfl

theorem processEvent_config : (a.processEvent ord now event namespace_ podName).1.maxFlows = a.maxFlows ∧
    (a.processEvent ord now event namespace_ podName).1.flowTimeout = a.flowTimeout := by
  obtain ⟨b, hb, hmax, htimeout, -⟩ := processEvent_eq_updateCapacityFlag a ord now event namespace_ podName
  rw [hb]
  exact ⟨hmax, htimeout⟩

/-- An event of a new flow is inserted as it is where there is room, and into an empty table. -/
theorem processEvent_flows_of_new (hnew : flowKey event namespace_ podName ∉ a.flows)
    (hroom : len a.flows < a.maxFlows ∨ len a.flows = 0) :
    (a.processEvent ord now event namespace_ podName).1.flows =
      entryInsert a.flows now (flowKey event namespace_ podName) event := by
  rw [processEvent_of_none (AList.lookup_eq_none.2 hnew)]
  rcases lt_or_ge (len a.flows) a.maxFlows with hlt | hfull
  · rw [makeRoom_of_room (a := a.counted) hlt]
    rfl
  · obtain ⟨keys, hflows, -⟩ := makeRoom_cases a.counted ord
    have hempty : a.flows = ∅ := eq_empty_of_len (hroom.resolve_left (not_lt.2 hfull))
    refine congrArg (entryInsert · now (flowKey event namespace_ podName) event) (hflows.trans ?_)
    show (a.flows.removeAll keys).1 = a.flows
    rw [hempty, removeAll_empty]

theorem processEvent_flag_iff :
    (a.processEvent ord now event namespace_ podName).1.health.flowTableAtCapacity = true ↔
      percentOf a.maxFlows CAPACITY_HIGH_WATERMARK ≤ len (a.processEvent ord now event namespace_ podName).1.flows ∨
        a.health.flowTableAtCapacity = true := by
  obtain ⟨b, hb, hmax, -, hflag⟩ := processEvent_eq_updateCapacityFlag a ord now event namespace_ podName
  rw [hb, ← hmax, ← hflag]
  show (highFlag b.maxFlows (len b.flows) b.health).flowTableAtCapacity = true ↔
    percentOf b.maxFlows CAPACITY_HIGH_WATERMARK ≤ len b.flows ∨ b.health.flowTableAtCapacity = true
  unfold highFlag
  split
  · rename_i hhigh
    exact iff_of_true rfl (.inl hhigh)
  · rename_i hlow
    rw [or_iff_right hlow]

theorem expireOldFlows_flag_iff : (a.expireOldFlows now).1.health.flowTableAtCapacity = true ↔
    a.health.flowTableAtCapacity = true ∧
      ¬ len (a.expireOldFlows now).1.flows < percentOf a.maxFlows CAPACITY_LOW_WATERMARK := by
  show (lowFlag a.maxFlows (len (a.expireOldFlows now).1.flows) a.health).flowTableAtCapacity = true ↔ _
  unfold lowFlag
  split
  · rename_i hlow
    exact iff_of_false (by simp [HealthState.setFlowTableAtCapacity]) fun h => h.2 hlow
  · rename_i hhigh
    exact (and_iff_left hhigh).symm

end FlowAggregator

namespace Logged

def flagged (s : Logged) : Prop := s.agg.health.flowTableAtCapacity = true

def flowCount (s : Logged) : Nat := len s.agg.flows

/-- A `process_event` that ends with at least `high` flows. -/
def Fills (high : Nat) (s : Logged) : FlowCall → Prop
  | c@(.processEvent ..) => high ≤ (s.call c).flowCount
  | .expireOldFlows _ => False

/-- An `expire_old_flows` that ends with fewer than `low` flows. -/
def Drains (low : Nat) (s : Logged) : FlowCall → Prop
  | .processEvent .. => False
  | c@(.expireOldFlows _) => (s.call c).flowCount < low

variable {s t : Logged} {c : FlowCall} {calls : List FlowCall} {maxFlows : Nat} {flowTimeout : Duration}

theorem call_config (s : Logged) (c : FlowCall) : (s.call c).agg.maxFlows = s.agg.maxFlows ∧
    (s.call c).agg.flowTimeout = s.agg.flowTimeout := by
  cases c with
  | processEvent ord now event namespace_ podName => exact processEvent_config
  | expireOldFlows now => exact ⟨rfl, rfl⟩

/-- What a call does to the flag. -/
theorem flagged_call_iff (s : Logged) (c : FlowCall) : (s.call c).flagged ↔
    s.Fills (percentOf s.agg.maxFlows CAPACITY_HIGH_WATERMARK) c ∨
      s.flagged ∧ ¬ s.Drains (percentOf s.agg.maxFlows CAPACITY_LOW_WATERMARK) c := by
  cases c with
  | processEvent ord now event namespace_ podName =>
    rw [and_iff_left (show ¬ s.Drains _ (.processEvent ..) from fun h => h)]
    exact processEvent_flag_iff
  | expireOldFlows now =>
    rw [or_iff_right (show ¬ s.Fills _ (.expireOldFlows now) from fun h => h)]
    exact expireOldFlows_flag_iff

def highWatermark (maxFlows : Nat) : Nat := 95 * maxFlows / 100

def lowWatermark (maxFlows : Nat) : Nat := 80 * maxFlows / 100

/-- What a run of `calls` from a new table to `s` says about the flag. -/
structure Hysteresis (maxFlows : Nat) (flowTimeout : Duration) (calls : List FlowCall) (s : Logged) : Prop where
  flag : s.flagged ↔
    SwitchedOn step (Fills (highWatermark maxFlows)) (Drains (lowWatermark maxFlows)) (init maxFlows flowTimeout) calls
  filled : ∀ pre ord now event namespace_ podName,
    calls = pre ++ [.processEvent ord now event namespace_ podName] → highWatermark maxFlows ≤ s.flowCount → s.flagged
  /-- The flag is set by `c`, still set after `mid`, and cleared by `d`. -/
  shrunk : ∀ pre c mid d u v w, calls = pre ++ c :: (mid ++ [d]) →
    run step (init maxFlows flowTimeout) pre = some u → step u c = some v → run step v mid = some w →
    ¬ u.flagged → v.flagged → w.flagged → ¬ s.flagged →
    highWatermark maxFlows ≤ v.flowCount ∧ s.flowCount < lowWatermark maxFlows

/-! ### The flag over whole runs -/

theorem percentOf_of_lt {percent : Nat} (hle : percent ≤ 95) (h : maxFlows * 95 < 2 ^ 64) :
    percentOf maxFlows percent = percent * maxFlows / 100 := by
  have hlt : maxFlows * percent < 2 ^ 64 := (Nat.mul_le_mul_left maxFlows hle).trans_lt h
  rw [percentOf, Nat.mod_eq_of_lt hlt, Nat.mul_comm]

theorem flagged_step_iff (h : maxFlows * 95 < 2 ^ 64) (hmax : s.agg.maxFlows = maxFlows)
    (ht : step s c = some t) : t.flagged ↔
      s.Fills (highWatermark maxFlows) c ∨ s.flagged ∧ ¬ s.Drains (lowWatermark maxFlows) c := by
  obtain rfl := Option.some.inj ht
  have hhigh : percentOf maxFlows CAPACITY_HIGH_WATERMARK = highWatermark maxFlows := percentOf_of_lt le_rfl h
  have hlow : percentOf maxFlows CAPACITY_LOW_WATERMARK = lowWatermark maxFlows := percentOf_of_lt (by decide) h
  rw [flagged_call_iff, hmax, hhigh, hlow]

theorem maxFlows_step (hmax : s.agg.maxFlows = maxFlows) (ht : step s c = some t) : t.agg.maxFlows = maxFlows := by
  obtain rfl := Option.some.inj ht
  rw [(call_config s c).1, hmax]

theorem maxFlows_run (h : run step (init maxFlows flowTimeout) calls = some s) : s.agg.maxFlows = maxFlows := by
  have hstep : ∀ s c t, s.agg.maxFlows = maxFlows → step s c = some t → t.agg.maxFlows = maxFlows :=
    fun _ _ _ hmax ht => maxFlows_step hmax ht
  exact run_inv (I := fun s => s.agg.maxFlows = maxFlows) hstep rfl h

theorem Fills.le {high : Nat} (h : s.Fills high c) : high ≤ (s.call c).flowCount := by
  cases c with
  | processEvent ord now event namespace_ podName => exact h
  | expireOldFlows now => exact h.elim

theorem Drains.lt {low : Nat} (h : s.Drains low c) : (s.call c).flowCount < low := by
  cases c with
  | processEvent ord now event namespace_ podName => exact h.elim
  | expireOldFlows now => exact h

/-- As long as the watermarks do not overflow, the flag is set exactly if some event left the table at
the high watermark and no sweep has left it below the low one since. -/
theorem hysteresis_of_run (maxFlows : Nat) (flowTimeout : Duration) (calls : List FlowCall) (s : Logged)
    (hmax : maxFlows * 95 < 2 ^ 64) (h : run step (init maxFlows flowTimeout) calls = some s) :
    Hysteresis maxFlows flowTimeout calls s := by
  have hI : ∀ s c t, s.agg.maxFlows = maxFlows → step s c = some t → t.agg.maxFlows = maxFlows :=
    fun _ _ _ hm ht => maxFlows_step hm ht
  have hstep : ∀ s c t, s.agg.maxFlows = maxFlows → step s c = some t → (t.flagged ↔
      s.Fills (highWatermark maxFlows) c ∨ s.flagged ∧ ¬ s.Drains (lowWatermark maxFlows) c) :=
    fun _ _ _ hm ht => flagged_step_iff hmax hm ht
  have hnew : ¬ (init maxFlows flowTimeout).flagged := by simp [flagged, init, FlowAggregator.new, HealthState.new]
  refine ⟨flag_iff_switchedOn (I := fun s => s.agg.maxFlows = maxFlows) hI hstep rfl hnew h, ?_, ?_⟩
  · rintro pre ord now event namespace_ podName rfl hfull
    rw [run_append] at h
    obtain ⟨u, hu, hlast⟩ := Option.bind_eq_some_iff.1 h
    obtain ⟨s', hs', hs⟩ := Option.bind_eq_some_iff.1 hlast
    obtain rfl := Option.some.inj hs
    refine (hstep u _ s' (maxFlows_run hu) hs').2 (.inl ?_)
    obtain rfl := Option.some.inj hs'
    exact hfull
  · rintro pre c mid d u v w rfl hu hv hw hclear hset hkept hcleared
    have hum := maxFlows_run hu
    have hwm : w.agg.maxFlows = maxFlows :=
      run_inv (I := fun s => s.agg.maxFlows = maxFlows) hI (hI u c v hum hv) hw
    have hd : step w d = some s := by
      rw [run_append, hu, Option.bind_some, run_cons, hv, Option.bind_some, run_append, hw, Option.bind_some,
        run_cons] at h
      obtain ⟨s', hs', hs⟩ := Option.bind_eq_some_iff.1 h
      rw [hs', Option.some.inj hs]
    have hfills := ((hstep u c v hum hv).1 hset).resolve_right fun hboth => hclear hboth.1
    have hdrains : w.Drains (lowWatermark maxFlows) d := by
      by_contra hn
      exact hcleared ((hstep w d s hwm hd).2 (.inr ⟨hkept, hn⟩))
    obtain rfl := Option.some.inj hv
    obtain rfl := Option.some.inj hd
    exact ⟨hfills.le, hdrains.lt⟩

/-- A table of three, whose watermarks are both two, is filled and swept. -/
def fillCalls : List FlowCall :=
  [.processEvent .stored 0 (demoEvent 1) "default" "a", .processEvent .stored 1 (demoEvent 2) "default" "a"]

theorem hysteresis_of_run_demo :
    (run step (init 3 30) fillCalls).any (fun s => s.agg.health.flowTableAtCapacity) ∧
      ∀ s, run step (init 3 30) (fillCalls ++ [.expireOldFlows 100]) = some s →
        Hysteresis 3 30 (fillCalls ++ [.expireOldFlows 100]) s :=
  ⟨by decide, fun s h => hysteresis_of_run 3 30 _ s (by decide) h⟩

/-! ### Recovery -/

/-- A sweep that empties the table leaves the flag cleared, so that the agent is healthy if its probes
are attached; and an event sets the flag in no table below the high watermark. -/
def Recovers (maxFlows : Nat) (s : Logged) : FlowCall → Prop
  | c@(.processEvent ..) => ¬ s.flagged → (s.call c).flagged → highWatermark maxFlows ≤ (s.call c).flowCount
  | c@(.expireOldFlows _) => (s.call c).agg.flows = ∅ →
    ¬ (s.call c).flagged ∧ ((s.call c).agg.health.setProbesAttached true).isHealthy = true

theorem recovers_of_bounds (htwo : 2 ≤ maxFlows) (h : maxFlows * 95 < 2 ^ 64) (hmax : s.agg.maxFlows = maxFlows)
    (c : FlowCall) : s.Recovers maxFlows c := by
  have hflag := flagged_step_iff h hmax (c := c) rfl
  cases c with
  | processEvent ord now event namespace_ podName =>
    intro hclear hset
    exact (hflag.1 hset).resolve_right fun hboth => hclear hboth.1
  | expireOldFlows now =>
    intro hempty
    have hlow : 0 < lowWatermark maxFlows := by
      unfold lowWatermark
      omega
    have hclear : ¬ (s.call (.expireOldFlows now)).flagged := by
      intro hset
      rcases hflag.1 hset with hfills | ⟨-, hdrains⟩
      · exact hfills
      · refine hdrains ?_
        show len (s.call (.expireOldFlows now)).agg.flows < lowWatermark maxFlows
        rw [hempty]
        exact hlow
    refine ⟨hclear, ?_⟩
    simpa [HealthState.isHealthy, HealthState.setProbesAttached, flagged] using hclear

/-! ### A table that is filled one flow at a time -/

/-- The `i`-th of a series of flows, each of a pod of its own. -/
def freshFlow (i : Nat) : FlowCall :=
  .processEvent .stored 0 (demoEvent 1) "default" (String.ofList (List.replicate i 'a'))

def freshKey (i : Nat) : FlowKey := flowKey (demoEvent 1) "default" (String.ofList (List.replicate i 'a'))

def fill (n : Nat) : List FlowCall := (List.range n).map freshFlow

theorem freshKey_inj {i j : Nat} (h : freshKey i = freshKey j) : i = j := by
  have hname := congrArg (fun k => k.podName.toList.length) h
  simpa [freshKey, flowKey] using hname

/-- The state after `n` of these flows, as long as the table has room. -/
structure Filled (maxFlows : Nat) (flowTimeout : Duration) (n : Nat) (s : Logged) : Prop where
  capacity : s.agg.maxFlows = maxFlows
  timeout : s.agg.flowTimeout = flowTimeout
  count : s.flowCount = n
  fresh : ∀ k stats, s.agg.flows.lookup k = some stats → (∃ i < n, k = freshKey i) ∧ stats.lastSeen = 0
  flag : s.flagged ↔ 0 < n ∧ percentOf maxFlows CAPACITY_HIGH_WATERMARK ≤ n

theorem filled_init (maxFlows : Nat) (flowTimeout : Duration) : Filled maxFlows flowTimeout 0 (init maxFlows flowTimeout) := by
  refine ⟨rfl, rfl, rfl, fun k stats hl => ?_, ?_⟩
  · cases hl
  · simp [flagged, init, FlowAggregator.new, HealthState.new]

theorem Filled.call_freshFlow {n : Nat} (h : Filled maxFlows flowTimeout n s) (hroom : n < maxFlows ∨ n = 0) :
    Filled maxFlows flowTimeout (n + 1) (s.call (freshFlow n)) := by
  obtain ⟨hmax, htimeout, hcount, hfresh, hflag⟩ := h
  have hnew : freshKey n ∉ s.agg.flows := by
    intro hin
    obtain ⟨stats, hl⟩ := mem_iff_lookup.1 hin
    obtain ⟨⟨i, hi, hkey⟩, -⟩ := hfresh _ _ hl
    exact absurd (freshKey_inj hkey) (by omega)
  have hflows : (s.call (freshFlow n)).agg.flows = entryInsert s.agg.flows 0 (freshKey n) (demoEvent 1) :=
    processEvent_flows_of_new hnew (by rwa [hmax, show len s.agg.flows = n from hcount])
  have hlen : (s.call (freshFlow n)).flowCount = n + 1 := by
    show len (s.call (freshFlow n)).agg.flows = n + 1
    rw [hflows, entryInsert, len_insert_of_notMem _ hnew]
    exact congrArg (· + 1) hcount
  obtain ⟨hmax', htimeout'⟩ := call_config s (freshFlow n)
  refine ⟨hmax'.trans hmax, htimeout'.trans htimeout, hlen, fun k stats hl => ?_, ?_⟩
  · rw [hflows, entryInsert, AList.lookup_eq_none.2 hnew] at hl
    rcases lookup_insert_eq_some hl with ⟨rfl, rfl⟩ | ⟨-, hl⟩
    · exact ⟨⟨n, Nat.lt_succ_self n, rfl⟩, rfl⟩
    · obtain ⟨⟨i, hi, hkey⟩, hseen⟩ := hfresh k stats hl
      exact ⟨⟨i, Nat.lt_succ_of_lt hi, hkey⟩, hseen⟩
  · have hfills : s.Fills (percentOf maxFlows CAPACITY_HIGH_WATERMARK) (freshFlow n) ↔
        percentOf maxFlows CAPACITY_HIGH_WATERMARK ≤ n + 1 := by
      show percentOf maxFlows CAPACITY_HIGH_WATERMARK ≤ (s.call (freshFlow n)).flowCount ↔ _
      rw [hlen]
    rw [flagged_call_iff, hmax, hfills, hflag]
    omega

theorem fill_succ (n : Nat) : fill (n + 1) = fill n ++ [freshFlow n] := by
  simp [fill, List.range_succ]

theorem filled_run (maxFlows : Nat) (flowTimeout : Duration) (n : Nat) (h : n ≤ maxFlows ∨ n ≤ 1) :
    ∃ s, run step (init maxFlows flowTimeout) (fill n) = some s ∧ Filled maxFlows flowTimeout n s := by
  induction n with
  | zero => exact ⟨_, rfl, filled_init maxFlows flowTimeout⟩
  | succ n ih =>
    obtain ⟨s, hs, hfilled⟩ := ih (by omega)
    refine ⟨s.call (freshFlow n), ?_, hfilled.call_freshFlow (by omega)⟩
    rw [fill_succ, run_append, hs]
    rfl

/-! ### The capacities for which the agent recovers -/

/-- In a table of at most one flow the low watermark is 0: nothing is below it. -/
theorem two_le_of_recovers (h : ∀ calls, EachStep step (Recovers maxFlows) (init maxFlows flowTimeout) calls) :
    2 ≤ maxFlows := by
  by_contra hsmall
  obtain ⟨s, hs, hmax, htimeout, -, hfresh, hflag⟩ := filled_run maxFlows flowTimeout 1 (.inr le_rfl)
  have hset : s.flagged := by
    refine hflag.2 ⟨Nat.one_pos, ?_⟩
    obtain rfl | rfl : maxFlows = 0 ∨ maxFlows = 1 := by omega
    all_goals decide
  have hrun : run step (init maxFlows flowTimeout) (fill 1 ++ [.expireOldFlows (flowTimeout + 1)]) =
      some (s.call (.expireOldFlows (flowTimeout + 1))) := by
    rw [run_append, hs]
    rfl
  obtain ⟨u, hu, -, hrecovers⟩ := (h _).last hrun
  obtain rfl := Option.some.inj (hs.symm.trans hu)
  have hempty : (s.call (.expireOldFlows (flowTimeout + 1))).agg.flows = ∅ := by
    refine eq_empty_of_len (len_eq_length List.nodup_nil fun k => iff_of_false ?_ List.not_mem_nil)
    intro hin
    obtain ⟨stats, hl⟩ := mem_iff_lookup.1 hin
    obtain ⟨hl, hlive⟩ := lookup_retain_eq_some.1 hl
    have hseen := (hfresh k stats hl).2
    have hlate : stats.lastSeen > (flowTimeout : Int) + 1 - s.agg.flowTimeout := of_decide_eq_true hlive
    rw [hseen, htimeout, add_sub_cancel_left] at hlate
    exact absurd hlate (by decide)
  refine (hrecovers hempty).1 ((flagged_call_iff s _).2 (.inr ⟨hset, ?_⟩))
  intro hdrains
  have hlow := hdrains.lt
  rw [hmax] at hlow
  obtain rfl | rfl : maxFlows = 0 ∨ maxFlows = 1 := by omega
  all_goals exact absurd hlow (Nat.not_lt_zero _)

/-- Beyond 2^64 / 95 the high watermark wraps to a smaller one, which a table can reach. -/
theorem lt_of_recovers (h : ∀ calls, EachStep step (Recovers maxFlows) (init maxFlows flowTimeout) calls) :
    maxFlows * 95 < 2 ^ 64 := by
  by_contra hlarge
  have hwrapped : percentOf maxFlows CAPACITY_HIGH_WATERMARK + 1 < highWatermark maxFlows := by
    unfold percentOf CAPACITY_HIGH_WATERMARK highWatermark
    omega
  have hroom : percentOf maxFlows CAPACITY_HIGH_WATERMARK ≤ maxFlows := by
    unfold percentOf CAPACITY_HIGH_WATERMARK
    omega
  generalize hhigh : percentOf maxFlows CAPACITY_HIGH_WATERMARK = high at hwrapped hroom
  -- the flow that takes the table to the wrapped watermark
  obtain ⟨s, hs, hfilled⟩ := filled_run maxFlows flowTimeout (high - 1) (.inl (by omega))
  have hnext := hfilled.call_freshFlow (by omega)
  have hrun : run step (init maxFlows flowTimeout) (fill (high - 1 + 1)) = some (s.call (freshFlow (high - 1))) := by
    rw [fill_succ, run_append, hs]
    rfl
  rw [fill_succ] at hrun
  obtain ⟨u, hu, -, hrecovers⟩ := (h _).last hrun
  obtain rfl := Option.some.inj (hs.symm.trans hu)
  have hclear : ¬ s.flagged := by
    rw [hfilled.flag, hhigh]
    omega
  have hset : (s.call (freshFlow (high - 1))).flagged := by
    rw [hnext.flag, hhigh]
    omega
  have hcount : highWatermark maxFlows ≤ (s.call (freshFlow (high - 1))).flowCount := hrecovers hclear hset
  rw [hnext.count] at hcount
  omega

/-- The agent recovers in every run exactly if its table is for at least two flows and the high watermark
does not overflow. -/
theorem recovers_iff (maxFlows : Nat) (flowTimeout : Duration) :
    (∀ calls, EachStep step (Recovers maxFlows) (init maxFlows flowTimeout) calls) ↔
      2 ≤ maxFlows ∧ maxFlows * 95 < 2 ^ 64 := by
  constructor
  · intro h
    exact ⟨two_le_of_recovers h, lt_of_recovers h⟩
  · rintro ⟨htwo, hlt⟩ calls
    have hI : ∀ s c t, s.agg.maxFlows = maxFlows → step s c = some t → t.agg.maxFlows = maxFlows :=
      fun _ _ _ hm ht => maxFlows_step hm ht
    have hok : ∀ s c t, s.agg.maxFlows = maxFlows → step s c = some t → s.Recovers maxFlows c :=
      fun _ c _ hm _ => recovers_of_bounds htwo hlt hm c
    exact eachStep_of_inv (I := fun s => s.agg.maxFlows = maxFlows) hI hok rfl calls

/-- A table for one flow: the sweep that empties it leaves the flag set. And the smallest capacity whose
high watermark overflows: it wraps to 0, so the first flow sets the flag. -/
theorem not_recovers :
    ¬ EachStep step (Recovers 1) (init 1 30) (fill 1 ++ [.expireOldFlows 100]) ∧
      ¬ EachStep step (Recovers 194176253407468965) (init 194176253407468965 30) (fill 1) := by
  constructor
  · intro h
    obtain ⟨s, hs, -, hrecovers⟩ := h.last rfl
    obtain rfl := Option.some.inj hs
    exact (hrecovers rfl).1 rfl
  · intro h
    have hfirst : EachStep step (Recovers 194176253407468965) (init 194176253407468965 30)
        ([] ++ [freshFlow 0]) := h
    obtain ⟨s, hs, -, hrecovers⟩ := hfirst.last rfl
    obtain rfl := Option.some.inj hs
    have hcount := hrecovers (fun hset => nomatch hset) rfl
    exact absurd hcount (by decide)

end Logged

end Orb8
