import Orb8.Aggregator
import Orb8.Lib.Text

/-!
# The configuration (`config.rs`)

Every setting has an environment variable and a default. A variable that is not set or does not parse
leaves the default; the agent never fails over its configuration.
-/

namespace Orb8
open Text

structure AgentConfig where
  grpcPort : UInt16
  healthPort : UInt16
  maxFlows : Nat
  flowTimeout : Duration
  maxPodCacheEntries : Nat
  broadcastChannelSize : Nat
  pollInterval : Duration
  maxBatchSize : Nat
  shutdownTimeout : Duration
  expirationInterval : Duration
  maxQueryLimit : Nat
deriving DecidableEq, Repr

/-- `Duration::from_secs`. -/
def fromSecs (secs : Nat) : Duration := secs * 1000000000

/-- `Duration::from_millis`. -/
def fromMillis (millis : Nat) : Duration := millis * 1000000

def U16_MAX : Nat := 2 ^ 16 - 1
def U64_MAX : Nat := 2 ^ 64 - 1

/-- `parse_env` at the unsigned type with the largest value `max`; `env` is `std::env::var`. -/
def parseEnv (env : String → Option String) (max : Nat) (key : String) (default : Nat) : Nat :=
  match env key with
  | some val =>
    match parseUint max val.toList with
    | some parsed => parsed
    | none => default
  | none => default

namespace AgentConfig

def fromEnv (env : String → Option String) : AgentConfig where
  grpcPort := UInt16.ofNat (parseEnv env U16_MAX "ORB8_GRPC_PORT" 9090)
  healthPort := UInt16.ofNat (parseEnv env U16_MAX "ORB8_HEALTH_PORT" 9091)
  maxFlows := parseEnv env U64_MAX "ORB8_MAX_FLOWS" 100000
  flowTimeout := fromSecs (parseEnv env U64_MAX "ORB8_FLOW_TIMEOUT_SECS" 30)
  maxPodCacheEntries := parseEnv env U64_MAX "ORB8_MAX_POD_CACHE" 10000
  broadcastChannelSize := parseEnv env U64_MAX "ORB8_BROADCAST_CHANNEL_SIZE" 1000
  pollInterval := fromMillis (parseEnv env U64_MAX "ORB8_POLL_INTERVAL_MS" 100)
  maxBatchSize := parseEnv env U64_MAX "ORB8_MAX_BATCH_SIZE" 1024
  shutdownTimeout := fromSecs (parseEnv env U64_MAX "ORB8_SHUTDOWN_TIMEOUT_SECS" 10)
  expirationInterval := fromSecs (parseEnv env U64_MAX "ORB8_EXPIRATION_INTERVAL_SECS" 10)
  maxQueryLimit := parseEnv env U64_MAX "ORB8_MAX_QUERY_LIMIT" 10000

def default : AgentConfig where
  grpcPort := 9090
  healthPort := 9091
  maxFlows := 100000
  flowTimeout := fromSecs 30
  maxPodCacheEntries := 10000
  broadcastChannelSize := 1000
  pollInterval := fromMillis 100
  maxBatchSize := 1024
  shutdownTimeout := fromSecs 10
  expirationInterval := fromSecs 10
  maxQueryLimit := 10000

/-! ### What variables can set -/

def IsSecs (d : Duration) : Prop := ∃ secs ≤ U64_MAX, d = fromSecs secs

/-- The values are such as a variable can set. -/
structure Settable (c : AgentConfig) : Prop where
  maxFlows : c.maxFlows ≤ U64_MAX
  flowTimeout : IsSecs c.flowTimeout
  maxPodCacheEntries : c.maxPodCacheEntries ≤ U64_MAX
  broadcastChannelSize : c.broadcastChannelSize ≤ U64_MAX
  pollInterval : ∃ millis ≤ U64_MAX, c.pollInterval = fromMillis millis
  maxBatchSize : c.maxBatchSize ≤ U64_MAX
  shutdownTimeout : IsSecs c.shutdownTimeout
  expirationInterval : IsSecs c.expirationInterval
  maxQueryLimit : c.maxQueryLimit ≤ U64_MAX

/-- The variables that set a configuration. -/
def vars (c : AgentConfig) : String → Option String
  | "ORB8_GRPC_PORT" => some (toString c.grpcPort.toNat)
  | "ORB8_HEALTH_PORT" => some (toString c.healthPort.toNat)
  | "ORB8_MAX_FLOWS" => some (toString c.maxFlows)
  | "ORB8_FLOW_TIMEOUT_SECS" => some (toString (c.flowTimeout / 1000000000))
  | "ORB8_MAX_POD_CACHE" => some (toString c.maxPodCacheEntries)
  | "ORB8_BROADCAST_CHANNEL_SIZE" => some (toString c.broadcastChannelSize)
  | "ORB8_POLL_INTERVAL_MS" => some (toString (c.pollInterval / 1000000))
  | "ORB8_MAX_BATCH_SIZE" => some (toString c.maxBatchSize)
  | "ORB8_SHUTDOWN_TIMEOUT_SECS" => some (toString (c.shutdownTimeout / 1000000000))
  | "ORB8_EXPIRATION_INTERVAL_SECS" => some (toString (c.expirationInterval / 1000000000))
  | "ORB8_MAX_QUERY_LIMIT" => some (toString c.maxQueryLimit)
  | _ => none

end AgentConfig

section
variable {env : String → Option String} {max n default : Nat} {key : String}

theorem parseEnv_le (h : default ≤ max) : parseEnv env max key default ≤ max := by
  unfold parseEnv
  split
  · split
    · rename_i parsed hparsed
      exact (parseUint_eq_some_iff.1 hparsed).2.2
    · exact h
  · exact h

theorem parseEnv_toString (henv : env key = some (toString n)) (hn : n ≤ max) : parseEnv env max key default = n := by
  simp only [parseEnv, henv, toList_toString, parseUint_toDigits hn]

theorem isSecs_parseEnv (h : default ≤ U64_MAX) : AgentConfig.IsSecs (fromSecs (parseEnv env U64_MAX key default)) :=
  ⟨_, parseEnv_le h, rfl⟩

theorem fromSecs_parseEnv {d : Duration} (h : AgentConfig.IsSecs d) (henv : env key = some (toString (d / 1000000000))) :
    fromSecs (parseEnv env U64_MAX key default) = d := by
  obtain ⟨secs, hsecs, rfl⟩ := h
  have hdiv : fromSecs secs / 1000000000 = secs := Nat.mul_div_cancel secs (by decide)
  rw [hdiv] at henv
  rw [parseEnv_toString henv hsecs]

theorem ofNat_parseEnv {port : UInt16} (henv : env key = some (toString port.toNat)) :
    UInt16.ofNat (parseEnv env U16_MAX key default) = port := by
  have hlt := port.toNat_lt
  rw [parseEnv_toString henv (by unfold U16_MAX; omega), UInt16.ofNat_toNat]

end

namespace AgentConfig

theorem settable_fromEnv (env : String → Option String) : (fromEnv env).Settable where
  maxFlows := parseEnv_le (by decide)
  flowTimeout := isSecs_parseEnv (by decide)
  maxPodCacheEntries := parseEnv_le (by decide)
  broadcastChannelSize := parseEnv_le (by decide)
  pollInterval := ⟨_, parseEnv_le (by decide), rfl⟩
  maxBatchSize := parseEnv_le (by decide)
  shutdownTimeout := isSecs_parseEnv (by decide)
  expirationInterval := isSecs_parseEnv (by decide)
  maxQueryLimit := parseEnv_le (by decide)

theorem fromEnv_vars {c : AgentConfig} (h : c.Settable) : fromEnv c.vars = c := by
  obtain ⟨hmaxFlows, hflowTimeout, hmaxPodCache, hchannel, ⟨millis, hmillis, hpoll⟩, hbatch, hshutdown, hexpiration,
    hlimit⟩ := h
  have hdiv : c.pollInterval / 1000000 = millis := by
    rw [hpoll]
    exact Nat.mul_div_cancel millis (by decide)
  have hpollInterval : fromMillis (parseEnv c.vars U64_MAX "ORB8_POLL_INTERVAL_MS" 100) = c.pollInterval := by
    rw [parseEnv_toString (n := millis) (by rw [← hdiv]; rfl) hmillis, hpoll]
  obtain ⟨_, _, _, _, _, _, _, _, _, _, _⟩ := c
  rw [fromEnv, mk.injEq]
  exact ⟨ofNat_parseEnv rfl, ofNat_parseEnv rfl, parseEnv_toString rfl hmaxFlows, fromSecs_parseEnv hflowTimeout rfl,
    parseEnv_toString rfl hmaxPodCache, parseEnv_toString rfl hchannel, hpollInterval, parseEnv_toString rfl hbatch,
    fromSecs_parseEnv hshutdown rfl, fromSecs_parseEnv hexpiration rfl, parseEnv_toString rfl hlimit⟩

/-- The configurations of agents are those that variables can set, the default among them. -/
theorem settable_iff {c : AgentConfig} : c.Settable ↔ ∃ env, fromEnv env = c := by
  constructor
  · exact fun h => ⟨c.vars, fromEnv_vars h⟩
  · rintro ⟨env, rfl⟩
    exact settable_fromEnv env

example : fromEnv (fun _ => none) = default := rfl

end AgentConfig

end Orb8
