import Orb8.Lib.Trace
import Orb8.Lib.Simulation
import Orb8.Lib.Progress
import Orb8.Lib.SharedCell
import Orb8.Lib.AMap
import Orb8.Lib.KeyedFold
import Orb8.Lib.KeyedScan
import Orb8.Lib.Broadcast
import Orb8.Lib.Queues
import Orb8.Lib.Bytes
import Orb8.Lib.Text
import Orb8.Lib.Str
import Orb8.Lib.Utf8
import Orb8.Lib.Http
import Orb8.Lib.DirTree
import Orb8.Lib.TopK
import Orb8.Common
import Orb8.Net
import Orb8.Health
import Orb8.Probe
import Orb8.PacketParse
import Orb8.FlowIdentity
import Orb8.ProbeLoader
import Orb8.PodCache
import Orb8.Cgroup
import Orb8.K8sWatcher
import Orb8.PodLookup
import Orb8.Relist
import Orb8.CacheBound
import Orb8.CacheProtocol
import Orb8.CapacityFlag
import Orb8.Reconnect
import Orb8.Aggregator
import Orb8.Eviction
import Orb8.FlowLog
import Orb8.FlowTimes
import Orb8.FlowTasks
import Orb8.TableBound
import Orb8.Watermark
import Orb8.SweepCount
import Orb8.UpdateLog
import Orb8.Sequential
import Orb8.GrpcServer
import Orb8.AddressText
import Orb8.ParseDuration
import Orb8.SelfTraffic
import Orb8.Preflight
import Orb8.Interfaces
import Orb8.CgroupScan
import Orb8.QueryFlows
import Orb8.QueryTask
import Orb8.EventStream
import Orb8.EventLoop
import Orb8.ByteCount
import Orb8.Attribution
import Orb8.Config
import Orb8.SharedHealth
import Orb8.Agent
import Orb8.Composition
import Orb8.Provenance
import Orb8.Pipeline
import Orb8.MainLoop
import Orb8.CatchUp
import Orb8.TraceNetwork
import Orb8.FlowsCommand
import Orb8.Isolation
import Orb8.AgentStatus
import Orb8.HealthServer
