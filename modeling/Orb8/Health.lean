import Mathlib.Data.Nat.Notation

/-!
# Health flags and degradation counters (`health.rs`)

One `HealthState` is shared by every component of the agent. Its atomics are plain fields here. The
counters are `AtomicU64`s that go up by what single operations report, far from their limit, and are
natural numbers.
-/

namespace Orb8

structure HealthState where
  probesAttached : Bool
  k8sWatcherConnected : Bool
  flowTableAtCapacity : Bool
  podCacheAtCapacity : Bool
  broadcastDrops : ℕ
  flowEvictions : ℕ
  podCacheEvictions : ℕ
deriving DecidableEq, Repr

namespace HealthState

def new : HealthState where
  probesAttached := false
  k8sWatcherConnected := false
  flowTableAtCapacity := false
  podCacheAtCapacity := false
  broadcastDrops := 0
  flowEvictions := 0
  podCacheEvictions := 0

def isHealthy (h : HealthState) : Bool := h.probesAttached && !h.flowTableAtCapacity

def isReady (h : HealthState) : Bool := h.probesAttached

/-- What `health_message` collects, in its order. -/
def issues (h : HealthState) : List String :=
  (if h.probesAttached then [] else ["probes not attached"]) ++
    (if h.flowTableAtCapacity then ["flow table at capacity"] else []) ++
    (if h.k8sWatcherConnected then [] else ["k8s watcher disconnected"]) ++
    (if h.podCacheAtCapacity then ["pod cache at capacity"] else [])

/-- What `health_message` adds when there is something to count. -/
def counters (drops flowEvictions cacheEvictions : ℕ) : String :=
  "; broadcast_drops=" ++ toString drops ++ ", flow_evictions=" ++ toString flowEvictions ++
    ", pod_cache_evictions=" ++ toString cacheEvictions

def healthMessage (h : HealthState) : String :=
  if h.issues.isEmpty then
    if h.broadcastDrops > 0 || h.flowEvictions > 0 || h.podCacheEvictions > 0 then
      "OK" ++ counters h.broadcastDrops h.flowEvictions h.podCacheEvictions
    else "OK"
  else
    let severity := if h.isHealthy then "DEGRADED" else "UNHEALTHY"
    severity ++ ": " ++ "; ".intercalate h.issues

def setProbesAttached (h : HealthState) (val : Bool) : HealthState := { h with probesAttached := val }

def setK8sWatcherConnected (h : HealthState) (val : Bool) : HealthState :=
  { h with k8sWatcherConnected := val }

def setFlowTableAtCapacity (h : HealthState) (val : Bool) : HealthState :=
  { h with flowTableAtCapacity := val }

def setPodCacheAtCapacity (h : HealthState) (val : Bool) : HealthState :=
  { h with podCacheAtCapacity := val }

def incBroadcastDrops (h : HealthState) : HealthState :=
  { h with broadcastDrops := h.broadcastDrops + 1 }

def incFlowEvictions (h : HealthState) (count : ℕ) : HealthState :=
  { h with flowEvictions := h.flowEvictions + count }

def incPodCacheEvictions (h : HealthState) : HealthState :=
  { h with podCacheEvictions := h.podCacheEvictions + 1 }

section
variable (h : HealthState) (val : Bool) (count : ℕ)

@[simp] theorem setFlowTableAtCapacity_flowEvictions :
    (h.setFlowTableAtCapacity val).flowEvictions = h.flowEvictions := rfl

@[simp] theorem incFlowEvictions_flowEvictions :
    (h.incFlowEvictions count).flowEvictions = h.flowEvictions + count := rfl

@[simp] theorem incBroadcastDrops_broadcastDrops :
    h.incBroadcastDrops.broadcastDrops = h.broadcastDrops + 1 := rfl

end

end HealthState

end Orb8
