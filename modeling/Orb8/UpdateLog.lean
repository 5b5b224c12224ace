import Orb8.FlowLog
import Orb8.FlowTasks

/-!
# No update is lost between the two tasks

The event loop looks a flow up, makes room and inserts in separate steps, and the expiration task may
remove any flow in between. Still every event that the loop has taken up is aggregated exactly once, in
the order of the calls: its update takes effect in the one `DashMap` call that writes the entry, and an
entry that goes takes all its updates along. The table is at every moment the exact summary of a log of
these writes and removals, as it is when the calls run one after the other.
-/

namespace Orb8
open AMap Trace KeyedFold FlowAggregator

/-- The event that is taken up and not aggregated yet. -/
def LoopPc.inHand : LoopPc → List (FlowKey × NetworkFlowEvent)
  | .getMut key event | .lenCheck key event | .snapshot key event _ | .removing key event _ _
  | .entry key event => [(key, event)]
  | .idle | .capacityFlag => []

/-- The event that a call of `process_event` is started with, under its key. -/
def TaskAction.started : TaskAction → Option (FlowKey × NetworkFlowEvent)
  | .loop (.processEvent event namespace_ podName) => some (flowKey event namespace_ podName, event)
  | _ => none

/-- The packets of all flows of the table. -/
def packetsHeld (flows : FlowTable) : Nat := sumOn (fun _ stats => stats.packets.toNat) flows

def packetsDropped (log : FlowLog) : Nat := ((drops log).map fun e => e.2.packets.toNat).sum

/-- The table is an exact summary of the log, and what was removed of it was one. -/
structure Summarized (flows : FlowTable) (log : FlowLog) : Prop where
  exact : ExactFlows flows log
  truthful : Truthful FlowStats.start FlowStats.add log
  conserved : (puts log).length < 2 ^ 64 → packetsHeld flows + packetsDropped log = (puts log).length

section
variable {flows : FlowTable} {log : FlowLog} {key : FlowKey} {stats : FlowStats}

theorem summarized_empty : Summarized ∅ [] := ⟨exact_empty, truthful_nil, fun _ => rfl⟩

theorem Summarized.put (h : Summarized flows log) (now : Instant) (key : FlowKey) (event : NetworkFlowEvent) :
    Summarized (entryInsert flows now key event) (log ++ [.put key (now, event)]) := by
  obtain ⟨hexact, htruthful, hconserved⟩ := h
  refine ⟨exactFlows_entryInsert hexact now key event, htruthful.put key _, fun hlen => ?_⟩
  rw [puts_append, puts_singleton, List.length_append, List.length_singleton] at hlen ⊢
  rw [packetsHeld, sumOn_entryInsert hexact hlen, packetsDropped, drops_append, drops_singleton_put,
    List.append_nil, ← hconserved (by omega), packetsHeld, packetsDropped]
  omega

theorem Summarized.drop (h : Summarized flows log) (hk : flows.lookup key = some stats) :
    Summarized (flows.erase key) (log ++ [.drop key stats]) := by
  obtain ⟨hexact, htruthful, hconserved⟩ := h
  refine ⟨hexact.drop hk, htruthful.drop ((hexact key).symm.trans hk), fun hlen => ?_⟩
  have hputs : puts (log ++ [.drop key stats]) = puts log := by simp [puts]
  rw [hputs] at hlen ⊢
  have hheld : packetsHeld flows = stats.packets.toNat + packetsHeld (flows.erase key) := sumOn_of_lookup _ hk
  have hdropped : packetsDropped (log ++ [.drop key stats]) = packetsDropped log + stats.packets.toNat := by
    simp [packetsDropped, drops]
  rw [← hconserved hlen, hheld, hdropped]
  omega

end

namespace Tasks

/-- What the two tasks have done to the table, as a log: the events put are those started, in order,
and the entries dropped are those that the tasks counted. -/
structure LoggedAs (started : List (FlowKey × NetworkFlowEvent)) (log : FlowLog) (s : Tasks) : Prop where
  summarized : Summarized s.shared.flows log
  puts : ((puts log).map fun p => (p.1, p.2.2)) ++ s.loop.inHand = started
  drops : (drops log).length = s.shared.taken + s.shared.swept
  processed : s.shared.eventsProcessed = UInt64.ofNat started.length

variable {maxFlows : Nat} {flowTimeout : Duration} {s t : Tasks} {a : TaskAction}
  {started : List (FlowKey × NetworkFlowEvent)} {log : FlowLog}

theorem loggedAs_init : LoggedAs [] [] init := ⟨summarized_empty, rfl, rfl, rfl⟩

/-- A step that neither writes the table nor takes up an event. -/
theorem LoggedAs.quiet (h : LoggedAs started log s) (hflows : t.shared.flows = s.shared.flows)
    (hhand : t.loop.inHand = s.loop.inHand) (htaken : t.shared.taken = s.shared.taken)
    (hswept : t.shared.swept = s.shared.swept) (hproc : t.shared.eventsProcessed = s.shared.eventsProcessed) :
    LoggedAs started (log ++ []) t := by
  rw [List.append_nil]
  constructor
  · rw [hflows]; exact h.summarized
  · rw [hhand]; exact h.puts
  · rw [htaken, hswept]; exact h.drops
  · rw [hproc]; exact h.processed

/-- The write that an event in hand comes to. -/
theorem LoggedAs.put (h : LoggedAs started log s) {key : FlowKey} {event : NetworkFlowEvent}
    (hhand : s.loop.inHand = [(key, event)]) (now : Instant)
    (hflows : t.shared.flows = entryInsert s.shared.flows now key event) (hdone : t.loop.inHand = [])
    (htaken : t.shared.taken = s.shared.taken) (hswept : t.shared.swept = s.shared.swept)
    (hproc : t.shared.eventsProcessed = s.shared.eventsProcessed) :
    LoggedAs started (log ++ [.put key (now, event)]) t := by
  constructor
  · rw [hflows]
    exact h.summarized.put now key event
  · rw [hdone, List.append_nil, puts_append, puts_singleton, List.map_append, ← h.puts, hhand]
    rfl
  · rw [htaken, hswept, drops_append, drops_singleton_put, List.append_nil]
    exact h.drops
  · rw [hproc]
    exact h.processed

/-- A removal, by either task. -/
theorem LoggedAs.drop (h : LoggedAs started log s) {key : FlowKey} {stats : FlowStats}
    (hk : s.shared.flows.lookup key = some stats) (hflows : t.shared.flows = s.shared.flows.erase key)
    (hhand : t.loop.inHand = s.loop.inHand)
    (hcount : t.shared.taken + t.shared.swept = s.shared.taken + s.shared.swept + 1)
    (hproc : t.shared.eventsProcessed = s.shared.eventsProcessed) :
    LoggedAs started (log ++ [.drop key stats]) t := by
  constructor
  · rw [hflows]
    exact h.summarized.drop hk
  · have hputs : KeyedFold.puts (log ++ [.drop key stats]) = KeyedFold.puts log := by simp [KeyedFold.puts]
    rw [hputs, hhand]
    exact h.puts
  · rw [hcount, ← h.drops]
    simp [KeyedFold.drops]
  · rw [hproc]
    exact h.processed

/-- A step that takes up no event. -/
theorem LoggedAs.of_none (ha : a.started = none) (h : LoggedAs started log t) :
    LoggedAs (started ++ a.started.toList) log t := by
  rw [ha, Option.toList_none, List.append_nil]
  exact h

theorem loggedAs_step (h : LoggedAs started log s) (ht : step maxFlows flowTimeout s a = some t) :
    ∃ more, LoggedAs (started ++ a.started.toList) (log ++ more) t := by
  obtain ⟨g, loop, sweep⟩ := s
  rcases step_cases ht with ⟨l, g', pc', rfl, hs, rfl⟩ | ⟨l, g', pc', rfl, hs, rfl⟩
  · cases hs with
    | processEvent event namespace_ podName =>
      obtain ⟨hsum, hputs, hdrops, hproc⟩ := h
      have hproc : g.eventsProcessed = UInt64.ofNat started.length := hproc
      refine ⟨[], ?_⟩
      rw [List.append_nil]
      refine ⟨hsum, ?_, hdrops, ?_⟩
      · rw [← hputs]
        exact (congrArg (· ++ [(flowKey event namespace_ podName, event)]) (List.append_nil _)).symm
      · show g.eventsProcessed + 1 = _
        rw [hproc, List.length_append, UInt64.ofNat_add]
        rfl
    | missing | full | room | visit | sort | gone | evictDone | capacityFlag =>
      exact ⟨[], .of_none rfl (h.quiet rfl rfl rfl rfl rfl)⟩
    | found key event now stats hl =>
      refine ⟨_, .of_none rfl (h.put rfl now ?_ rfl rfl rfl rfl)⟩
      simp only [entryInsert, hl]
    | remove key event k candidates evicted hk =>
      obtain ⟨stats, hl⟩ := mem_iff_lookup.1 hk
      exact ⟨_, .of_none rfl (h.drop hl rfl rfl (Nat.add_right_comm ..) rfl)⟩
    | entry key event now => exact ⟨_, .of_none rfl (h.put rfl now rfl rfl rfl rfl rfl)⟩
  · cases hs with
    | expireOldFlows | lenBefore | keep | lenAfter | capacityFlag =>
      exact ⟨[], .of_none rfl (h.quiet rfl rfl rfl rfl rfl)⟩
    | remove now mark decided k stats hk => exact ⟨_, .of_none rfl (h.drop hk rfl rfl rfl rfl)⟩

/-- The sweep takes the candidate of an eviction away before it is removed, in a table of one. -/
def racingActs : List TaskAction :=
  let key := flowKey (Logged.demoEvent 1) "default" "a"
  [.loop (.processEvent (Logged.demoEvent 1) "default" "a"), .loop (.getMut 0), .loop .lenCheck, .loop (.entry 0),
    .loop .capacityFlag, .loop (.processEvent (Logged.demoEvent 2) "default" "a"), .loop (.getMut 50),
    .sweep (.expireOldFlows 100), .sweep .lenBefore, .loop .lenCheck, .loop (.visit key), .loop .sort,
    .sweep (.retain key), .loop .remove, .loop .evictDone, .loop (.entry 100), .sweep .lenAfter]

end Tasks

end Orb8
