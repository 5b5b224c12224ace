import Orb8.Common

/-!
# The packet probe (`orb8-probes`)

The classifier as it runs on one frame. `TcContext` separates the two lengths the probe can see: the
bytes it may read directly (`data` up to `data_end`) and the length of the whole packet (`len`),
which may be larger. `ProbeM` is the probe's `Result<_, ()>` over the maps it writes; it also records
the index of every packet byte that is read.
-/

namespace Orb8
open Bytes

structure TcContext where
  data : List UInt8
  len : UInt32

/-- The maps of the probe, and the packet bytes read so far. -/
structure ProbeState where
  events : List Record
  eventsDropped : UInt64
  reads : List Nat
deriving DecidableEq

abbrev ProbeM := ExceptT Unit (StateM ProbeState)

/-- What the environment of one run supplies: the clock, and whether the ring buffer has room. -/
structure ProbeEnv where
  ktimeGetNs : UInt64
  room : Bool

def TC_ACT_OK : Int32 := 0
def ETH_HLEN : Nat := 14
def ETH_P_IP : UInt16 := 0x0800
def IP_HLEN_MIN : Nat := 20

/-- A pointer to `size` bytes at `offset`, if they all lie before `data_end`. -/
def ptrAt (ctx : TcContext) (offset size : Nat) : ProbeM Nat :=
  if offset + size > ctx.data.length then throw () else pure offset

/-- Dereferencing a pointer to `size` bytes. -/
def deref (ctx : TcContext) (ptr size : Nat) : ProbeM (List UInt8) := do
  modify fun s => { s with reads := s.reads ++ List.range' ptr size }
  pure (slice ctx.data ptr size)

/-- `EVENTS.reserve` and `submit`, or one more drop when there is no room. -/
def submitEvent (env : ProbeEnv) (event : NetworkFlowEvent) : ProbeM Unit :=
  if env.room then modify fun s => { s with events := s.events ++ [event.toBytes] }
  else modify fun s => { s with eventsDropped := s.eventsDropped + 1 }

/-- Source and destination port, found at the start of a TCP or UDP header. -/
def readPorts (ctx : TcContext) (proto : UInt8) (transportOffset : Nat) : ProbeM (UInt16 × UInt16) :=
  if proto = protocol.TCP ∨ proto = protocol.UDP then do
    let sportPtr ← ptrAt ctx transportOffset 2
    let dportPtr ← ptrAt ctx (transportOffset + 2) 2
    let sport ← deref ctx sportPtr 2
    let dport ← deref ctx dportPtr 2
    pure (UInt16.ofNat (fromBe sport), UInt16.ofNat (fromBe dport))
  else pure (0, 0)

def tryNetworkProbe (env : ProbeEnv) (ctx : TcContext) (dir : UInt8) : ProbeM Int32 :=
  if ctx.len < UInt32.ofNat (ETH_HLEN + IP_HLEN_MIN) then pure TC_ACT_OK else do
  let ethertypePtr ← ptrAt ctx 12 2
  let ethertype ← deref ctx ethertypePtr 2
  if UInt16.ofNat (fromBe ethertype) ≠ ETH_P_IP then pure TC_ACT_OK else do
  let ipOffset := ETH_HLEN
  let versionIhlPtr ← ptrAt ctx ipOffset 1
  let versionIhl ← deref ctx versionIhlPtr 1
  let ipHeaderLen := (UInt8.ofNat (fromLe versionIhl) &&& 0x0F).toNat * 4
  if ipHeaderLen < IP_HLEN_MIN then pure TC_ACT_OK else do
  let protoPtr ← ptrAt ctx (ipOffset + 9) 1
  let proto ← deref ctx protoPtr 1
  let srcIpPtr ← ptrAt ctx (ipOffset + 12) 4
  let dstIpPtr ← ptrAt ctx (ipOffset + 16) 4
  let srcIp ← deref ctx srcIpPtr 4
  let dstIp ← deref ctx dstIpPtr 4
  let (srcPort, dstPort) ← readPorts ctx (UInt8.ofNat (fromLe proto)) (ipOffset + ipHeaderLen)
  submitEvent env
    { timestampNs := env.ktimeGetNs
      cgroupId := 0
      srcIp := UInt32.ofNat (fromLe srcIp)
      dstIp := UInt32.ofNat (fromLe dstIp)
      srcPort, dstPort
      protocol := UInt8.ofNat (fromLe proto)
      direction := dir
      packetLen := ctx.len.toUInt16 }
  pure TC_ACT_OK

/-- Both classifiers turn an error into `TC_ACT_OK`. -/
def classify (dir : UInt8) (env : ProbeEnv) (ctx : TcContext) (s : ProbeState) : Int32 × ProbeState :=
  match (tryNetworkProbe env ctx dir).run s with
  | (.ok ret, s') => (ret, s')
  | (.error _, s') => (TC_ACT_OK, s')

def networkProbe := classify direction.INGRESS

def networkProbeEgress := classify direction.EGRESS

/-! ### What a run submits -/

/-- Run in any state, `m` submits nothing or one event that satisfies `P`. -/
def Submits {α : Type} (P : NetworkFlowEvent → Prop) (m : ProbeM α) : Prop :=
  ∀ s, (m.run s).2.events = s.events ∨ ∃ ev, P ev ∧ (m.run s).2.events = s.events ++ [ev.toBytes]

def Silent {α : Type} (m : ProbeM α) : Prop := ∀ s, (m.run s).2.events = s.events

section
variable {α β : Type} {P : NetworkFlowEvent → Prop} {m : ProbeM α} {f : α → ProbeM β} {ctx : TcContext}

theorem Silent.submits (h : Silent m) : Submits P m := fun s => .inl (h s)

theorem silent_pure (a : α) : Silent (pure a : ProbeM α) := fun _ => rfl

theorem silent_throw : Silent (throw () : ProbeM α) := fun _ => rfl

theorem bind_run (m : ProbeM α) (f : α → ProbeM β) (s : ProbeState) :
    (m >>= f).run s = match m.run s with
      | (.ok a, s') => (f a).run s'
      | (.error e, s') => (.error e, s') := by
  show (ExceptT.bind m f).run s = _
  simp only [ExceptT.bind, ExceptT.bindCont, ExceptT.run, ExceptT.mk, bind, StateT.bind]
  show (match m s with | (a, s') => _) = _
  rcases m s with ⟨_ | a, s'⟩ <;> rfl

theorem Silent.bind_submits (hm : Silent m) (hf : ∀ a, Submits P (f a)) : Submits P (m >>= f) := by
  intro s
  rw [bind_run]
  have hs := hm s
  rcases hr : m.run s with ⟨_ | a, s'⟩ <;> rw [hr] at hs
  · exact .inl hs
  · rw [← hs]
    exact hf a s'

theorem silent_ptrAt (offset size : Nat) : Silent (ptrAt ctx offset size) := by
  unfold ptrAt
  split
  · exact silent_throw
  · exact silent_pure _

theorem silent_deref (ptr size : Nat) : Silent (deref ctx ptr size) := fun _ => rfl

theorem submits_ptrAt {f : Nat → ProbeM β} {offset size : Nat} (h : Submits P (f offset)) :
    Submits P (ptrAt ctx offset size >>= f) := by
  unfold ptrAt
  split
  · exact fun s => .inl rfl
  · exact h

theorem submits_deref {f : List UInt8 → ProbeM β} {ptr size : Nat}
    (h : Submits P (f (slice ctx.data ptr size))) : Submits P (deref ctx ptr size >>= f) :=
  fun s => h { s with reads := s.reads ++ List.range' ptr size }

theorem silent_bind (hm : Silent m) (hf : ∀ a, Silent (f a)) : Silent (m >>= f) := by
  intro s
  rw [bind_run]
  have hs := hm s
  rcases hr : m.run s with ⟨_ | a, s'⟩ <;> rw [hr] at hs
  · exact hs
  · exact (hf a s').trans hs

theorem silent_readPorts (proto : UInt8) (transportOffset : Nat) :
    Silent (readPorts ctx proto transportOffset) := by
  unfold readPorts
  split
  · exact silent_bind (silent_ptrAt _ _) fun _ => silent_bind (silent_ptrAt _ _) fun _ =>
      silent_bind (silent_deref _ _) fun _ => silent_bind (silent_deref _ _) fun _ => silent_pure _
  · exact silent_pure _

theorem submits_submitEvent {env : ProbeEnv} {event : NetworkFlowEvent} (h : P event) :
    Submits P (submitEvent env event) := by
  intro s
  unfold submitEvent
  split
  · exact .inr ⟨event, h, rfl⟩
  · exact .inl rfl

theorem submits_then_pure {m : ProbeM Unit} (h : Submits P m) (a : α) :
    Submits P (m >>= fun _ => pure a) := by
  intro s
  have hm := h s
  rw [bind_run]
  rcases hr : m.run s with ⟨_ | _, s'⟩ <;> rw [hr] at hm <;> exact hm

end

/-- The event of a frame has the addresses of the IP header and the direction of the hook. -/
theorem submits_tryNetworkProbe (env : ProbeEnv) (ctx : TcContext) (dir : UInt8) :
    Submits (fun ev => ev.srcIp = UInt32.ofNat (fromLe (slice ctx.data 26 4)) ∧
      ev.dstIp = UInt32.ofNat (fromLe (slice ctx.data 30 4)) ∧ ev.direction = dir)
      (tryNetworkProbe env ctx dir) := by
  unfold tryNetworkProbe
  have hpass : Submits (fun ev : NetworkFlowEvent => ev.srcIp = UInt32.ofNat (fromLe (slice ctx.data 26 4)) ∧
      ev.dstIp = UInt32.ofNat (fromLe (slice ctx.data 30 4)) ∧ ev.direction = dir)
      (pure TC_ACT_OK : ProbeM Int32) := (silent_pure _).submits
  split
  · exact hpass
  refine submits_ptrAt (submits_deref ?_)
  split
  · exact hpass
  refine submits_ptrAt (submits_deref ?_)
  dsimp only
  split
  · exact hpass
  refine submits_ptrAt (submits_deref (submits_ptrAt (submits_ptrAt (submits_deref (submits_deref ?_)))))
  refine (silent_readPorts _ _).bind_submits fun ports => ?_
  exact submits_then_pure (submits_submitEvent ⟨rfl, rfl, rfl⟩) _

/-- A record that a classifier leaves in the ring is the event of the frame. -/
theorem classify_submitted {dir : UInt8} {env : ProbeEnv} {ctx : TcContext} {s : ProbeState} {r : Record}
    (h : (classify dir env ctx s).2.events = s.events ++ [r]) :
    ∃ ev : NetworkFlowEvent, r = ev.toBytes ∧ ev.srcIp = UInt32.ofNat (fromLe (slice ctx.data 26 4)) ∧
      ev.dstIp = UInt32.ofNat (fromLe (slice ctx.data 30 4)) ∧ ev.direction = dir := by
  have hstate : (classify dir env ctx s).2 = ((tryNetworkProbe env ctx dir).run s).2 := by
    unfold classify
    rcases (tryNetworkProbe env ctx dir).run s with ⟨_ | _, s'⟩ <;> rfl
  rw [hstate] at h
  rcases submits_tryNetworkProbe env ctx dir s with hs | ⟨ev, hev, hs⟩
  · rw [hs] at h
    simp at h
  · rw [hs] at h
    exact ⟨ev, (List.singleton_inj.1 (List.append_cancel_left h)).symm, hev⟩

end Orb8
