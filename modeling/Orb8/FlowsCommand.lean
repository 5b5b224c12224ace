import Orb8.Lib.KeyedScan
import Orb8.QueryFlows
import Orb8.TraceNetwork

/-!
# The flow listing (`orb8-cli`)

`orb8 flows` prints a line for each row of the answer to its query, or says that there is none. After a run
of the agent, every line adds up frames that the probes captured, all with the addresses, ports, protocol
and direction that the line shows, and no frame is in two lines.
-/

namespace Orb8
open AMap Trace KeyedFold

namespace Cli

section
variable (formatBytes : UInt64 → String)

/-- What is printed for one row; `none` is a panic. -/
def flowLine (flow : NetworkFlow) : Option String := do
  let nsPod ← nsPodColumn flow.namespace_ flow.podName
  let src := endpoint flow.srcIp flow.srcPort
  let dst := endpoint flow.dstIp flow.dstPort
  some (columns 8 nsPod flow.protocol src dst flow.direction (formatBytes flow.bytes) (toString flow.packets.toNat))

/-- The loop over the rows: the lines, and whether it came to its end. -/
def flowLoop : List NetworkFlow → List String × Bool
  | [] => ([], true)
  | flow :: flows =>
    match flowLine formatBytes flow with
    | none => ([], false)
    | some line => (line :: (flowLoop flows).1, (flowLoop flows).2)

def heading : List String :=
  [columns 8 "NAMESPACE/POD" "PROTOCOL" "SOURCE" "DESTINATION" "DIR" "BYTES" "PACKETS",
    String.ofList (List.replicate 110 '-')]

/-- From when the agent has answered. -/
def queryFlows (flows : List NetworkFlow) : List String × Bool :=
  if flows.isEmpty then (["No flows found."], true)
  else (heading ++ (flowLoop formatBytes flows).1, (flowLoop formatBytes flows).2)

theorem flowLoop_spec (flows : List NetworkFlow) : ∃ shown rest, flows = shown ++ rest ∧
    List.Forall₂ (fun flow line => flowLine formatBytes flow = some line) shown (flowLoop formatBytes flows).1 ∧
    ((flowLoop formatBytes flows).2 = true ∧ rest = [] ∨
      (flowLoop formatBytes flows).2 = false ∧ ∃ flow ∈ rest, flowLine formatBytes flow = none) := by
  induction flows with
  | nil => exact ⟨[], [], rfl, .nil, .inl ⟨rfl, rfl⟩⟩
  | cons flow flows ih =>
    rw [flowLoop]
    cases hline : flowLine formatBytes flow with
    | none => exact ⟨[], flow :: flows, rfl, .nil, .inr ⟨rfl, flow, List.mem_cons_self, hline⟩⟩
    | some line =>
      obtain ⟨shown, rest, rfl, hshown, hrest⟩ := ih
      exact ⟨flow :: shown, rest, rfl, .cons hline hshown, hrest⟩

end

end Cli

/-! ### The frames of a flow -/

/-- The row adds up these frames. -/
structure NetworkFlow.Of (row : NetworkFlow) (frames : List NetworkFlowEvent) : Prop where
  nonempty : frames ≠ []
  headers : ∀ f ∈ frames, row.srcIp = formatIpv4 f.srcIp ∧ row.dstIp = formatIpv4 f.dstIp ∧
    row.srcPort = f.srcPort.toUInt32 ∧ row.dstPort = f.dstPort.toUInt32 ∧
    row.protocol = formatProtocol f.protocol ∧ row.direction = formatDirection f.direction
  bytes : row.bytes = UInt64.ofNat (frames.map fun f => f.packetLen.toNat).sum
  packets : row.packets = UInt64.ofNat frames.length

/-- What was put under a key has the key's headers. -/
def Keyed (log : FlowLog) : Prop := ∀ p ∈ puts log, p.1 = flowKey p.2.2 p.1.namespace_ p.1.podName

theorem keyed_run {maxFlows : Nat} {flowTimeout : Duration} {calls : List FlowCall} {lg : Logged}
    (h : run Logged.step (.init maxFlows flowTimeout) calls = some lg) : Keyed lg.log := by
  refine run_inv (I := fun lg => Keyed lg.log) ?_ (fun _ hp => by cases hp) h
  rintro lg c t hlg ht p hp
  obtain rfl := Option.some.inj ht
  rw [Agent.puts_call, List.mem_append] at hp
  rcases hp with hp | hp
  · exact hlg p hp
  · cases c with
    | processEvent ord now event namespace_ podName =>
      obtain rfl := List.mem_singleton.1 hp
      rfl
    | expireOldFlows now => cases hp

theorem mem_puts_of_mem_since {log : FlowLog} {k : FlowKey} {e : Stamped} (h : e ∈ since k log) : (k, e) ∈ puts log := by
  obtain ⟨p, hp, hpe⟩ := List.mem_filterMap.1 ((since_sublist k log).subset h)
  split at hpe
  · rename_i hk
    obtain rfl := Option.some.inj hpe
    exact hk ▸ hp
  · cases hpe

theorem networkFlow_of {flows : FlowTable} {log : FlowLog} (hexact : ExactFlows flows log) (hkeyed : Keyed log)
    {k : FlowKey} {stats : FlowStats} (hk : flows.lookup k = some stats) :
    (networkFlow k stats).Of ((since k log).map Prod.snd) := by
  have hsum := (hexact k).symm.trans hk
  obtain ⟨hpackets, hbytes, -, -⟩ := summary_spec hsum
  refine ⟨?_, ?_, ?_, ?_⟩
  · intro hnil
    rw [List.map_eq_nil_iff.1 hnil] at hsum
    cases hsum
  · rintro f hf
    obtain ⟨e, he, rfl⟩ := List.mem_map.1 hf
    have hkey : k = flowKey e.2 k.namespace_ k.podName := hkeyed (k, e) (mem_puts_of_mem_since he)
    rw [hkey]
    exact ⟨rfl, rfl, rfl, rfl, rfl, rfl⟩
  · rw [List.map_map]
    exact hbytes
  · rw [List.length_map]
    exact hpackets

/-- The flows behind the rows of an answer. -/
theorem exists_flows (agg : FlowAggregator) (ord : Order FlowKey FlowStats) (maxQueryLimit : Nat)
    (req : QueryFlowsRequest) :
    ∃ top : List (FlowKey × FlowStats), queryFlows agg ord maxQueryLimit req = top.map (fun e => networkFlow e.1 e.2) ∧
      (top.map Prod.fst).Nodup ∧ ∀ e ∈ top, agg.flows.lookup e.1 = some e.2 ∧ req.Passes e.1 := by
  have hperm := filtered_perm agg ord req
  have hsort := List.perm_insertionSort (fun x y : FlowKey × FlowStats => y.2.bytes ≤ x.2.bytes) (filtered agg ord req)
  refine ⟨_, queryFlows_eq agg ord maxQueryLimit req, ?_, fun e he => ?_⟩
  · have hkeys : ((filtered agg ord req).map Prod.fst).Nodup := by
      rw [(hperm.map Prod.fst).nodup_iff, map_fst_toList]
      exact AList.keys_nodup _
    exact ((hsort.map Prod.fst).nodup_iff.2 hkeys).sublist ((List.take_sublist _ _).map _)
  · have hmem := hperm.mem_iff.1 (hsort.mem_iff.1 (List.mem_of_mem_take he))
    rwa [← Prod.mk.eta (p := e), mem_toList, lookup_retain_eq_some, decide_eq_true_iff] at hmem

/-- The line lists the flow of these frames, and it passes both filters. -/
def Lists (formatBytes : UInt64 → String) (req : QueryFlowsRequest) (frames : List NetworkFlowEvent) (line : String) :
    Prop :=
  ∃ row : NetworkFlow, row.Of frames ∧ (req.namespaces = [] ∨ row.namespace_ ∈ req.namespaces) ∧
    (req.podNames = [] ∨ row.podName ∈ req.podNames) ∧ Cli.flowLine formatBytes row = some line

namespace Agent

theorem exists_flowLine (formatBytes : UInt64 → String) (flow : NetworkFlow) (hns : Ascii flow.namespace_)
    (hpod : Ascii flow.podName) : ∃ line, Cli.flowLine formatBytes flow = some line := by
  obtain ⟨nsPod, hnsPod⟩ := exists_nsPodColumn hns hpod
  simp only [Cli.flowLine, hnsPod, Option.bind_eq_bind, Option.bind_some]
  exact ⟨_, rfl⟩

end Agent

end Orb8
