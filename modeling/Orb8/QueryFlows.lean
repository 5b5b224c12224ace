import Orb8.GrpcServer
import Orb8.Lib.TopK

/-!
# What a query answers

`QueryFlows` filters twice, renders, sorts by bytes and cuts off. `TopFlows` says what comes out: the
rows of the flows with the most bytes among those that pass both filters, at most as many as the
limit admits. Which of several flows with equally many bytes are left out is up to the order in which
the table is visited.
-/

namespace Orb8
open AMap TopK

/-- The flow passes both filters; an empty filter passes everything. -/
def QueryFlowsRequest.Passes (req : QueryFlowsRequest) (k : FlowKey) : Prop :=
  (req.namespaces = [] ∨ k.namespace_ ∈ req.namespaces) ∧ (req.podNames = [] ∨ k.podName ∈ req.podNames)

instance (req : QueryFlowsRequest) (k : FlowKey) : Decidable (req.Passes k) :=
  inferInstanceAs (Decidable (_ ∧ _))

/-- The rows are those of the flows `top`, and these are what the query asked for. -/
structure TopFlows (flows : FlowTable) (maxQueryLimit : Nat) (req : QueryFlowsRequest)
    (rows : List NetworkFlow) (top : List (FlowKey × FlowStats)) : Prop where
  rendered : rows = top.map fun e => networkFlow e.1 e.2
  nodup : (top.map Prod.fst).Nodup
  live : ∀ e ∈ top, flows.lookup e.1 = some e.2
  passes : ∀ e ∈ top, req.Passes e.1
  length : top.length = min (queryLimit maxQueryLimit req) (len (flows.retain fun k _ => req.Passes k))
  sorted : rows.Pairwise fun a b => b.bytes ≤ a.bytes
  leftOut : ∀ k stats, flows.lookup k = some stats → req.Passes k → k ∉ top.map Prod.fst →
    ∀ row ∈ rows, stats.bytes ≤ row.bytes

/-- The flows that both filters leave. -/
def filtered (a : FlowAggregator) (ord : Order FlowKey FlowStats) (req : QueryFlowsRequest) :
    List (FlowKey × FlowStats) :=
  (a.getFlows ord req.namespaces).filter fun e => req.podNames.isEmpty || req.podNames.contains e.1.podName

theorem filtered_eq (a : FlowAggregator) (ord : Order FlowKey FlowStats) (req : QueryFlowsRequest) :
    filtered a ord req = (ord.visit a.flows.toList).filter fun e => req.Passes e.1 := by
  rw [filtered, FlowAggregator.getFlows, List.filter_filter]
  refine List.filter_congr fun e _ => ?_
  rw [Bool.eq_iff_iff, decide_eq_true_iff]
  simp [QueryFlowsRequest.Passes, and_comm]

theorem filtered_perm (a : FlowAggregator) (ord : Order FlowKey FlowStats) (req : QueryFlowsRequest) :
    (filtered a ord req).Perm (toList (a.flows.retain fun k _ => req.Passes k)) := by
  have hretain : toList (a.flows.retain fun k _ => req.Passes k) =
      a.flows.toList.filter fun e => req.Passes e.1 := by
    simp [toList, retain, List.filter_map, Function.comp_def]
  rw [filtered_eq, hretain]
  exact (ord.perm _).filter _

/-- Cutting off the sorted rows is cutting off the sorted flows. -/
theorem queryFlows_eq (a : FlowAggregator) (ord : Order FlowKey FlowStats) (maxQueryLimit : Nat)
    (req : QueryFlowsRequest) :
    queryFlows a ord maxQueryLimit req =
      (((filtered a ord req).insertionSort fun x y => y.2.bytes ≤ x.2.bytes).take
        (queryLimit maxQueryLimit req)).map fun e => networkFlow e.1 e.2 := by
  rw [List.map_take, List.map_insertionSort _ fun x y : NetworkFlow => y.bytes ≤ x.bytes]
  · rfl
  · exact fun _ _ _ _ => Iff.rfl

instance : Std.Total fun x y : FlowKey × FlowStats => y.2.bytes ≤ x.2.bytes :=
  ⟨fun x y => UInt64.le_total y.2.bytes x.2.bytes⟩

instance : IsTrans (FlowKey × FlowStats) fun x y => y.2.bytes ≤ x.2.bytes :=
  ⟨fun _ _ _ hxy hyz => UInt64.le_trans hyz hxy⟩

end Orb8
