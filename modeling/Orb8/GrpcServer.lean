import Orb8.Aggregator
import Orb8.Net
import Orb8.Lib.Broadcast

/-!
# The gRPC service (`grpc_server.rs`)

The messages of `orb8.proto` that the flow table and the event stream are rendered into, the
`QueryFlows` handler, and the closure through which `StreamEvents` passes what its receiver yields.
-/

namespace Orb8
open AMap

structure NetworkFlow where
  namespace_ : String
  podName : String
  srcIp : String
  dstIp : String
  srcPort : UInt32
  dstPort : UInt32
  protocol : String
  direction : String
  bytes : UInt64
  packets : UInt64
  firstSeenNs : Int64
  lastSeenNs : Int64
deriving DecidableEq, Repr

structure NetworkEvent where
  namespace_ : String
  podName : String
  srcIp : String
  dstIp : String
  srcPort : UInt32
  dstPort : UInt32
  protocol : String
  direction : String
  bytes : UInt32
  timestampNs : Int64
deriving DecidableEq, Repr

structure QueryFlowsRequest where
  namespaces : List String
  podNames : List String
  limit : UInt32
deriving DecidableEq, Repr

def networkFlow (key : FlowKey) (stats : FlowStats) : NetworkFlow where
  namespace_ := key.namespace_
  podName := key.podName
  srcIp := formatIpv4 key.srcIp
  dstIp := formatIpv4 key.dstIp
  srcPort := key.srcPort.toUInt32
  dstPort := key.dstPort.toUInt32
  protocol := formatProtocol key.protocol
  direction := formatDirection key.direction
  bytes := stats.bytes
  packets := stats.packets
  firstSeenNs := stats.firstSeenNs.toInt64
  lastSeenNs := stats.lastSeenNs.toInt64

def queryLimit (maxQueryLimit : Nat) (req : QueryFlowsRequest) : Nat :=
  if req.limit = 0 ∨ req.limit.toNat > maxQueryLimit then maxQueryLimit else req.limit.toNat

def queryFlows (a : FlowAggregator) (ord : Order FlowKey FlowStats) (maxQueryLimit : Nat)
    (req : QueryFlowsRequest) : List NetworkFlow :=
  let flows := (a.getFlows ord req.namespaces).filter fun e =>
    req.podNames.isEmpty || req.podNames.contains e.1.podName
  let rows := flows.map fun e => networkFlow e.1 e.2
  (rows.insertionSort fun a b => b.bytes ≤ a.bytes).take (queryLimit maxQueryLimit req)

/-- The event passes the namespace filter of a stream. -/
def passes (namespaces : List String) (event : NetworkEvent) : Bool :=
  namespaces.isEmpty || namespaces.contains event.namespace_

/-- The closure of `filter_map` in `stream_events`, on what the receiver yields. -/
def streamFilter (namespaces : List String) : Broadcast.Recv NetworkEvent → Option NetworkEvent
  | .value event => if passes namespaces event then some event else none
  | .lagged _ => none

/-- The rows of an unfiltered query that the limit does not cut are the live flows. -/
theorem perm_queryFlows {a : FlowAggregator} {maxQueryLimit : Nat} {limit : UInt32}
    (hmax : len a.flows ≤ maxQueryLimit) (hlimit : limit = 0 ∨ len a.flows ≤ limit.toNat)
    (ord : Order FlowKey FlowStats) :
    (queryFlows a ord maxQueryLimit ⟨[], [], limit⟩).Perm
      (a.flows.toList.map fun e => networkFlow e.1 e.2) := by
  have hrows : ((a.getFlows ord []).filter fun _ => true) = ord.visit a.flows.toList := by
    simp [FlowAggregator.getFlows]
  have hlen : (ord.visit a.flows.toList).length = len a.flows := by
    rw [(ord.perm _).length_eq, length_toList]
  have hle : len a.flows ≤ queryLimit maxQueryLimit ⟨[], [], limit⟩ := by
    unfold queryLimit
    split
    · exact hmax
    · rename_i hsmall
      exact hlimit.resolve_left fun h => hsmall (.inl h)
  unfold queryFlows
  simp only [List.isEmpty_nil, Bool.true_or, hrows]
  rw [List.take_of_length_le]
  · exact (List.perm_insertionSort _ _).trans ((ord.perm _).map _)
  · rwa [List.length_insertionSort, List.length_map, hlen]

end Orb8
