import Orb8.Lib.KeyedScan
import Orb8.QueryFlows
import Orb8.UpdateLog

/-!
# Queries beside the two tasks

`get_flows` iterates over the `DashMap` while the event loop and the expiration task go on, and any
number of queries are in flight. An answer is then no table that there ever was at one moment. It still
is what the handler makes of a table `seen` of which every entry was read while the query ran, with
every flow that was live all the time, and which does not count an event twice.
-/

namespace Orb8
open AMap Trace KeyedFold

/-- What `query_flows` makes of the entries that the iterator of `get_flows` yields. -/
def answerRows (maxQueryLimit : Nat) (req : QueryFlowsRequest) (visited : List (FlowKey × FlowStats)) :
    List NetworkFlow :=
  let flows := visited.filter fun e => req.namespaces.isEmpty || req.namespaces.contains e.1.namespace_
  let flows := flows.filter fun e => req.podNames.isEmpty || req.podNames.contains e.1.podName
  let rows := flows.map fun e => networkFlow e.1 e.2
  (rows.insertionSort fun a b => b.bytes ≤ a.bytes).take (queryLimit maxQueryLimit req)

theorem queryFlows_eq_answerRows (a : FlowAggregator) (ord : Order FlowKey FlowStats) (maxQueryLimit : Nat)
    (req : QueryFlowsRequest) :
    queryFlows a ord maxQueryLimit req = answerRows maxQueryLimit req (ord.visit a.flows.toList) := rfl

/-- A query whose iterator has yielded `visited`. `mark` is how many flows had been created before. -/
structure Query where
  request : QueryFlowsRequest
  mark : Nat
  visited : List (FlowKey × FlowStats)
deriving DecidableEq

structure Served where
  tasks : Tasks
  queries : AMap Nat Query
  answered : List (Nat × List NetworkFlow)

inductive ServedAction where
  | task (a : TaskAction)
  | queryFlows (id : Nat) (req : QueryFlowsRequest)
  | visit (id : Nat) (key : FlowKey)
  | respond (id : Nat)
deriving DecidableEq

/-- The event that a call of `process_event` is started with, under its key. -/
def ServedAction.started : ServedAction → Option (FlowKey × NetworkFlowEvent)
  | .task a => a.started
  | _ => none

namespace Served

def init : Served := ⟨.init, ∅, []⟩

def step (maxFlows : Nat) (flowTimeout : Duration) (maxQueryLimit : Nat) (s : Served) :
    ServedAction → Option Served
  | .task a => (s.tasks.step maxFlows flowTimeout a).map fun tasks => { s with tasks }
  | .queryFlows id req =>
    if id ∈ s.queries then none
    else some { s with queries := s.queries.insert id ⟨req, s.tasks.shared.created.length, []⟩ }
  | .visit id key =>
    match s.queries.lookup id, s.tasks.shared.flows.lookup key with
    | some q, some stats =>
      if key ∈ q.visited.map Prod.fst then none
      else some { s with
        queries := s.queries.insert id { q with visited := q.visited ++ [(key, stats)] } }
    | _, _ => none
  | .respond id =>
    match s.queries.lookup id with
    | some q =>
      -- the iterator ends when it has visited every entry that was there all along
      if ∀ k ∈ s.tasks.shared.flows.keys, k ∈ q.visited.map Prod.fst ∨ k ∈ s.tasks.shared.created.drop q.mark then
        some { s with
          queries := s.queries.erase id
          answered := s.answered ++ [(id, answerRows maxQueryLimit q.request q.visited)] }
      else none
    | none => none

variable {maxFlows maxQueryLimit : Nat} {flowTimeout : Duration} {s t : Served} {a : ServedAction}

/-- The steps, one constructor for each way to go on. -/
inductive ServedStep (maxFlows : Nat) (flowTimeout : Duration) (maxQueryLimit : Nat) (s : Served) :
    ServedAction → Served → Prop
  | task (a tasks) (h : s.tasks.step maxFlows flowTimeout a = some tasks) :
    ServedStep maxFlows flowTimeout maxQueryLimit s (.task a) { s with tasks }
  | queryFlows (id req) (h : id ∉ s.queries) :
    ServedStep maxFlows flowTimeout maxQueryLimit s (.queryFlows id req)
      { s with queries := s.queries.insert id ⟨req, s.tasks.shared.created.length, []⟩ }
  | visit (id key q stats) (hq : s.queries.lookup id = some q)
      (hkey : s.tasks.shared.flows.lookup key = some stats) (hnew : key ∉ q.visited.map Prod.fst) :
    ServedStep maxFlows flowTimeout maxQueryLimit s (.visit id key)
      { s with queries := s.queries.insert id { q with visited := q.visited ++ [(key, stats)] } }
  | respond (id q) (hq : s.queries.lookup id = some q)
      (hall : ∀ k ∈ s.tasks.shared.flows.keys,
        k ∈ q.visited.map Prod.fst ∨ k ∈ s.tasks.shared.created.drop q.mark) :
    ServedStep maxFlows flowTimeout maxQueryLimit s (.respond id)
      { s with
        queries := s.queries.erase id
        answered := s.answered ++ [(id, answerRows maxQueryLimit q.request q.visited)] }

theorem step_cases (h : step maxFlows flowTimeout maxQueryLimit s a = some t) :
    ServedStep maxFlows flowTimeout maxQueryLimit s a t := by
  cases a with
  | task a =>
    obtain ⟨tasks, ht, rfl⟩ := Option.map_eq_some_iff.1 h
    exact .task a tasks ht
  | queryFlows id req =>
    obtain ⟨hid, h⟩ := Option.ite_none_left_eq_some.1 h
    obtain rfl := Option.some.inj h
    exact .queryFlows id req hid
  | visit id key =>
    simp only [step] at h
    split at h
    · rename_i q stats hq hkey
      obtain ⟨hnew, h⟩ := Option.ite_none_left_eq_some.1 h
      obtain rfl := Option.some.inj h
      exact .visit id key q stats hq hkey hnew
    · cases h
  | respond id =>
    simp only [step] at h
    split at h
    · rename_i q hq
      obtain ⟨hall, h⟩ := Option.ite_none_right_eq_some.1 h
      obtain rfl := Option.some.inj h
      exact .respond id q hq hall
    · cases h

end Served

/-- Only flows that are not in the table are created. -/
theorem Tasks.created_step {maxFlows : Nat} {flowTimeout : Duration} {s t : Tasks} {a : TaskAction}
    (h : step maxFlows flowTimeout s a = some t) : t.shared.created = s.shared.created ∨
      ∃ key, key ∉ s.shared.flows ∧ t.shared.created = s.shared.created ++ [key] := by
  obtain ⟨g, loop, sweep⟩ := s
  rcases step_cases h with ⟨l, g', pc', rfl, hs, rfl⟩ | ⟨l, g', pc', rfl, hs, rfl⟩
  · cases hs with
    | entry key event now =>
      by_cases hkey : key ∈ g.flows
      · exact .inl (if_pos hkey)
      · exact .inr ⟨key, hkey, if_neg hkey⟩
    | _ => exact .inl rfl
  · cases hs <;> exact .inl rfl

/-- What a query in flight has, when it was made at the log `before` and `during` was logged since. -/
structure Iterating (before during : FlowLog) (req : QueryFlowsRequest) (q : Query) (tasks : Tasks) : Prop where
  request : q.request = req
  scan : Scan FlowStats.start FlowStats.add before (before ++ during) q.visited
  marked : q.mark ≤ tasks.shared.created.length
  /-- A flow that was created since the query was made, and live then, has been dropped. -/
  created : ∀ k ∈ tasks.shared.created.drop q.mark, since k before ≠ [] → k ∈ (drops during).map Prod.fst

section
variable {maxFlows maxQueryLimit : Nat} {flowTimeout : Duration} {before during : FlowLog} {req : QueryFlowsRequest}
  {q : Query} {tasks : Tasks} {started : List (FlowKey × NetworkFlowEvent)}

theorem iterating_queryFlows (before : FlowLog) (req : QueryFlowsRequest) (tasks : Tasks) :
    Iterating before [] req ⟨req, tasks.shared.created.length, []⟩ tasks where
  request := rfl
  scan := by rw [List.append_nil]; exact scan_nil before
  marked := le_rfl
  created k hk := by rw [List.drop_length] at hk; exact nomatch hk

theorem Iterating.task (h : Iterating before during req q tasks) (hlog : Tasks.LoggedAs started (before ++ during) tasks)
    {a : TaskAction} {t : Tasks} (ht : tasks.step maxFlows flowTimeout a = some t) :
    ∃ more, Tasks.LoggedAs (started ++ a.started.toList) (before ++ (during ++ more)) t ∧
      Iterating before (during ++ more) req q t := by
  obtain ⟨more, hmore⟩ := Tasks.loggedAs_step hlog ht
  rw [List.append_assoc] at hmore
  have hdrops : (drops during).map Prod.fst ⊆ (drops (during ++ more)).map Prod.fst := by
    rw [drops_append, List.map_append]
    exact List.subset_append_left _ _
  refine ⟨more, hmore, h.request, ?_, ?_, ?_⟩
  · rw [← List.append_assoc]
    exact h.scan.append more
  · rcases Tasks.created_step ht with hc | ⟨key, -, hc⟩
    · rw [hc]
      exact h.marked
    · rw [hc, List.length_append]
      exact h.marked.trans (Nat.le_add_right _ _)
  · intro k hk hlive
    rcases Tasks.created_step ht with hc | ⟨key, hkey, hc⟩
    · rw [hc] at hk
      exact hdrops (h.created k hk hlive)
    · rw [hc, List.drop_append_of_le_length h.marked] at hk
      rcases List.mem_append.1 hk with hk | hk
      · exact hdrops (h.created k hk hlive)
      · obtain rfl := List.mem_singleton.1 hk
        -- the flow that is created is not in the table, so its entry has been dropped
        refine hdrops (by_contra fun hdrop => hkey (mem_iff_lookup.2 ?_))
        have hsince := since_append_ne_nil hlive hdrop
        rw [hlog.summarized.exact k]
        obtain ⟨e, es, hes⟩ := List.exists_cons_of_ne_nil hsince
        rw [hes]
        exact ⟨_, rfl⟩

theorem Iterating.visit (h : Iterating before during req q tasks) (hlog : Tasks.LoggedAs started (before ++ during) tasks)
    {key : FlowKey} {stats : FlowStats} (hkey : tasks.shared.flows.lookup key = some stats)
    (hnew : key ∉ q.visited.map Prod.fst) :
    Iterating before during req { q with visited := q.visited ++ [(key, stats)] } tasks where
  request := h.request
  scan := h.scan.visit hlog.summarized.exact hkey hnew
  marked := h.marked
  created := h.created

end

/-- The rows are what a query answers on the table `seen`, and this is what `seen` has to do with the
flows that were live while `during` was logged after `before`. -/
structure Seen (maxQueryLimit : Nat) (req : QueryFlowsRequest) (rows : List NetworkFlow) (before during : FlowLog)
    (seen : FlowTable) : Prop where
  rows : ∀ a : FlowAggregator, a.flows = seen → rows = queryFlows a .stored maxQueryLimit req
  read : ∀ k stats, seen.lookup k = some stats → ∃ front, before <+: front ∧ front <+: before ++ during ∧
    summary FlowStats.start FlowStats.add (since k front) = some stats
  throughout : ∀ k, since k before ≠ [] → k ∉ (drops during).map Prod.fst → k ∈ seen
  packets : packetsHeld seen ≤ (puts (before ++ during)).length

section
variable {maxFlows maxQueryLimit : Nat} {flowTimeout : Duration} {before during : FlowLog} {req : QueryFlowsRequest}
  {q : Query} {tasks : Tasks} {rows : List NetworkFlow} {seen : FlowTable}

/-- What the handler answers when nothing is logged while it runs is what it answers on the table. -/
theorem Seen.exact (h : Seen maxQueryLimit req rows before [] seen) : ExactFlows seen before := by
  intro k
  cases hl : seen.lookup k with
  | some stats =>
    obtain ⟨front, hbefore, hfront, hsum⟩ := h.read k stats hl
    rw [List.append_nil] at hfront
    obtain rfl := hfront.eq_of_length_le hbefore.length_le
    exact hsum.symm
  | none =>
    have hnil : since k before = [] := by
      by_contra hne
      obtain ⟨stats, hs⟩ := mem_iff_lookup.1 (h.throughout k hne (by simp [drops]))
      rw [hl] at hs
      cases hs
    rw [hnil]
    rfl

theorem packets_le_length {es : List Stamped} {stats : FlowStats}
    (h : summary FlowStats.start FlowStats.add es = some stats) : stats.packets.toNat ≤ es.length := by
  rw [(summary_spec h).1, UInt64.toNat_ofNat']
  exact Nat.mod_le _ _

/-- What a query that has visited every flow answers. -/
theorem Iterating.respond (h : Iterating before during req q tasks) {started : List (FlowKey × NetworkFlowEvent)}
    (hlog : Tasks.LoggedAs started (before ++ during) tasks)
    (hall : ∀ k ∈ tasks.shared.flows.keys, k ∈ q.visited.map Prod.fst ∨ k ∈ tasks.shared.created.drop q.mark) :
    Seen maxQueryLimit req (answerRows maxQueryLimit q.request q.visited) before during
      (ofList q.visited h.scan.nodup) := by
  have hlist : (ofList q.visited h.scan.nodup).toList = q.visited := toList_ofList q.visited h.scan.nodup
  refine ⟨?_, ?_, ?_, ?_⟩
  · rintro a ha
    rw [queryFlows_eq_answerRows, ha, hlist, h.request]
    rfl
  · intro k stats hl
    rw [← mem_toList, hlist] at hl
    exact h.scan.read (k, stats) hl
  · intro k hlive hdrop
    have hlater := since_append_ne_nil hlive hdrop
    have hkey : k ∈ tasks.shared.flows.keys := by
      obtain ⟨e, es, hes⟩ := List.exists_cons_of_ne_nil hlater
      refine AList.mem_keys.1 (mem_iff_lookup.2 ⟨es.foldl FlowStats.add (FlowStats.start e), ?_⟩)
      rw [hlog.summarized.exact k, hes]
      rfl
    have hvisited := (hall k hkey).resolve_right fun hk => hdrop (h.created k hk hlive)
    rwa [← hlist, map_fst_toList] at hvisited
  · rw [packetsHeld, sumOn_ofList]
    exact h.scan.sum_le (n := fun stats => stats.packets.toNat) fun es stats => packets_le_length

end

namespace Served
variable {maxFlows maxQueryLimit : Nat} {flowTimeout : Duration} {s t : Served} {a : ServedAction}
  {before during : FlowLog} {req : QueryFlowsRequest} {id : Nat} {started : List (FlowKey × NetworkFlowEvent)}

/-- The query `id` is in flight, and was made at the log `before`. -/
def InFlight (before : FlowLog) (id : Nat) (req : QueryFlowsRequest)
    (started : List (FlowKey × NetworkFlowEvent)) (s : Served) : Prop :=
  ∃ during q, s.queries.lookup id = some q ∧ Tasks.LoggedAs started (before ++ during) s.tasks ∧
    Iterating before during req q s.tasks

/-- A step that starts no event. -/
theorem InFlight.of_none (ha : a.started = none) (h : InFlight before id req started t) :
    InFlight before id req (started ++ a.started.toList) t := by
  rw [ha, Option.toList_none, List.append_nil]
  exact h

theorem inFlight_step (h : InFlight before id req started s) (ha : a ≠ .respond id)
    (ht : step maxFlows flowTimeout maxQueryLimit s a = some t) :
    InFlight before id req (started ++ a.started.toList) t := by
  obtain ⟨during, q, hq, hlog, hit⟩ := h
  cases step_cases ht with
  | task a tasks hs =>
    obtain ⟨more, hmore, hnext⟩ := hit.task hlog hs
    exact ⟨during ++ more, q, hq, hmore, hnext⟩
  | queryFlows j req' hj =>
    have hid : id ≠ j := by
      rintro rfl
      exact hj (mem_iff_lookup.2 ⟨q, hq⟩)
    refine .of_none rfl ⟨during, q, ?_, hlog, hit⟩
    rw [AList.lookup_insert_ne hid]
    exact hq
  | visit j key q' stats hj hkey hnew =>
    refine .of_none rfl ?_
    by_cases hid : id = j
    · subst hid
      obtain rfl := Option.some.inj (hq.symm.trans hj)
      exact ⟨during, _, AList.lookup_insert _, hlog, hit.visit hlog hkey hnew⟩
    · refine ⟨during, q, ?_, hlog, hit⟩
      rw [AList.lookup_insert_ne hid]
      exact hq
  | respond j q' hj hall =>
    have hid : id ≠ j := fun hid => ha (hid ▸ rfl)
    refine .of_none rfl ⟨during, q, ?_, hlog, hit⟩
    rw [lookup_erase_of_ne hid]
    exact hq

theorem logged_step {log : FlowLog} (h : Tasks.LoggedAs started log s.tasks)
    (ht : step maxFlows flowTimeout maxQueryLimit s a = some t) :
    ∃ log', Tasks.LoggedAs (started ++ a.started.toList) log' t.tasks := by
  cases step_cases ht with
  | task a tasks hs =>
    obtain ⟨more, hmore⟩ := Tasks.loggedAs_step h hs
    exact ⟨log ++ more, hmore⟩
  | queryFlows | visit | respond => exact ⟨log, h.of_none (a := .sweep .lenBefore) rfl⟩

theorem logged_run {acts : List ServedAction} (h : run (step maxFlows flowTimeout maxQueryLimit) init acts = some s) :
    ∃ log, Tasks.LoggedAs (acts.filterMap ServedAction.started) log s.tasks := by
  refine run_inv_seen (I := fun started s => ∃ log, Tasks.LoggedAs started log s.tasks) ?_
    ⟨[], Tasks.loggedAs_init⟩ h
  rintro started s a t ⟨log, hlog⟩ ht
  exact logged_step hlog ht

/-- In every interleaving, a query answers what the handler makes of a table that was read while it ran:
of entries of that time, each at one moment of it, with no flow left out that was live all along. -/
theorem seen_of_run (maxFlows : Nat) (flowTimeout : Duration) (maxQueryLimit id : Nat) (req : QueryFlowsRequest)
    (acts acts' : List ServedAction) (s t u : Served)
    (hs : run (step maxFlows flowTimeout maxQueryLimit) init acts = some s)
    (ht : run (step maxFlows flowTimeout maxQueryLimit) s (.queryFlows id req :: acts') = some t)
    (hid : ∀ a ∈ acts', a ≠ .respond id) (hu : step maxFlows flowTimeout maxQueryLimit t (.respond id) = some u) :
    ∃ rows before during seen, u.answered = t.answered ++ [(id, rows)] ∧
      Tasks.LoggedAs (acts.filterMap ServedAction.started) before s.tasks ∧
      Tasks.LoggedAs ((acts ++ acts').filterMap ServedAction.started) (before ++ during) t.tasks ∧
      Seen maxQueryLimit req rows before during seen := by
  obtain ⟨before, hbefore⟩ := logged_run hs
  obtain ⟨s', hs', ht⟩ := Option.bind_eq_some_iff.1 ht
  have hflight : InFlight before id req (acts.filterMap ServedAction.started) s' := by
    cases step_cases hs' with
    | queryFlows =>
      refine ⟨[], _, AList.lookup_insert _, ?_, iterating_queryFlows before req s.tasks⟩
      rwa [List.append_nil]
  have hrun := run_inv_seen_of_forall (fun _ _ _ _ hi ha hstep => inFlight_step hi ha hstep) hflight hid ht
  obtain ⟨during, q, hq, hlog, hit⟩ := hrun
  rw [← List.filterMap_append] at hlog
  cases step_cases hu with
  | respond _ q' hq' hall =>
    obtain rfl := Option.some.inj (hq.symm.trans hq')
    exact ⟨_, before, during, _, rfl, hbefore, hlog, hit.respond hlog hall⟩

/-- Two flows are created. The query reads the first one, and then both go on before it reads the second. -/
def readingActs : List ServedAction × List ServedAction :=
  let key port := flowKey (Logged.demoEvent port) "default" "a"
  let create port now : List TaskAction := [.loop (.processEvent (Logged.demoEvent port) "default" "a"),
    .loop (.getMut now), .loop .lenCheck, .loop (.entry now), .loop .capacityFlag]
  let again port now : List TaskAction := [.loop (.processEvent (Logged.demoEvent port) "default" "a"),
    .loop (.getMut now), .loop .capacityFlag]
  ((create 1 0 ++ create 2 1).map .task,
    [.visit 7 (key 1)] ++ (again 1 2 ++ again 2 3).map .task ++ [.visit 7 (key 2)])

theorem seen_of_run_demo :
    (run (step 10 30 100) init
        (readingActs.1 ++ .queryFlows 7 ⟨[], [], 0⟩ :: readingActs.2 ++ [.respond 7])).any
      (fun u => u.answered.map (fun e => e.2.map (·.packets)) = [[2, 1]]) ∧
      ∀ s t u, run (step 10 30 100) init readingActs.1 = some s →
        run (step 10 30 100) s (.queryFlows 7 ⟨[], [], 0⟩ :: readingActs.2) = some t →
        step 10 30 100 t (.respond 7) = some u →
        ∃ rows before during seen, u.answered = t.answered ++ [(7, rows)] ∧
          Tasks.LoggedAs (readingActs.1.filterMap ServedAction.started) before s.tasks ∧
          Tasks.LoggedAs ((readingActs.1 ++ readingActs.2).filterMap ServedAction.started) (before ++ during)
            t.tasks ∧
          Seen 100 ⟨[], [], 0⟩ rows before during seen :=
  ⟨by decide, fun s t u hs ht hu =>
    seen_of_run 10 30 100 7 ⟨[], [], 0⟩ readingActs.1 readingActs.2 s t u hs ht (by decide) hu⟩

end Served

end Orb8
