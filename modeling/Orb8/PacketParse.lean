import Orb8.Probe

/-!
# What the probe makes of a frame

`TcContext.Accepted` and `frameEvent` say, byte by byte, which frames are offered to the ring buffer
and as what event. The classifiers are compared with them (`ParsesExactly`): what they return, which
bytes they read, and what they do to their two maps.
-/

namespace Orb8
open Bytes

namespace TcContext
variable (ctx : TcContext)

def byte (i : Nat) : UInt8 := ctx.data.getD i 0

/-- The length of the IPv4 header in 32-bit words. -/
def ihl : Nat := (ctx.byte 14).toNat % 16

def transportOffset : Nat := 14 + 4 * ctx.ihl

def HasPorts : Prop := ctx.byte 23 = protocol.TCP ∨ ctx.byte 23 = protocol.UDP

instance : Decidable ctx.HasPorts := inferInstanceAs (Decidable (_ ∨ _))

structure Accepted : Prop where
  len : 34 ≤ ctx.len.toNat
  readable : 34 ≤ ctx.data.length
  ethertype : ctx.byte 12 = 0x08 ∧ ctx.byte 13 = 0x00
  ihl : 5 ≤ ctx.ihl
  ports : ctx.HasPorts → ctx.transportOffset + 4 ≤ ctx.data.length

instance : Decidable ctx.Accepted :=
  decidable_of_iff (34 ≤ ctx.len.toNat ∧ 34 ≤ ctx.data.length ∧ (ctx.byte 12 = 0x08 ∧ ctx.byte 13 = 0x00) ∧
      5 ≤ ctx.ihl ∧ (ctx.HasPorts → ctx.transportOffset + 4 ≤ ctx.data.length))
    ⟨fun ⟨h₁, h₂, h₃, h₄, h₅⟩ => ⟨h₁, h₂, h₃, h₄, h₅⟩, fun ⟨h₁, h₂, h₃, h₄, h₅⟩ => ⟨h₁, h₂, h₃, h₄, h₅⟩⟩

/-- The big-endian port at an offset from the transport header, 0 where there are no ports. -/
def port (off : Nat) : UInt16 :=
  if ctx.HasPorts then UInt16.ofNat (fromBe (slice ctx.data (ctx.transportOffset + off) 2)) else 0

end TcContext

def frameEvent (dir : UInt8) (timestampNs : UInt64) (ctx : TcContext) : NetworkFlowEvent where
  timestampNs := timestampNs
  cgroupId := 0
  srcIp := UInt32.ofNat (fromLe (slice ctx.data 26 4))
  dstIp := UInt32.ofNat (fromLe (slice ctx.data 30 4))
  srcPort := ctx.port 0
  dstPort := ctx.port 2
  protocol := ctx.byte 23
  direction := dir
  packetLen := ctx.len.toUInt16

/-- The event that the frame is offered as. -/
def offered (dir : UInt8) (timestampNs : UInt64) (ctx : TcContext) : Option NetworkFlowEvent :=
  if ctx.Accepted then some (frameEvent dir timestampNs ctx) else none

/-- What offering an event does to the maps. -/
def ProbeState.offer (s : ProbeState) (room : Bool) : Option NetworkFlowEvent → ProbeState
  | none => s
  | some event =>
    if room then { s with events := s.events ++ [event.toBytes] }
    else { s with eventsDropped := s.eventsDropped + 1 }

/-- What a classifier does with a frame, started in state `s`. -/
structure ParsesExactly (dir : UInt8) (env : ProbeEnv) (ctx : TcContext) (s : ProbeState)
    (r : Int32 × ProbeState) : Prop where
  ret : r.1 = TC_ACT_OK
  inBounds : ∃ reads, r.2.reads = s.reads ++ reads ∧ ∀ i ∈ reads, i < ctx.data.length
  ignored : ¬ ctx.Accepted → r.2.events = s.events ∧ r.2.eventsDropped = s.eventsDropped
  submitted : ctx.Accepted → env.room = true →
    r.2.events = s.events ++ [(frameEvent dir env.ktimeGetNs ctx).toBytes] ∧
      r.2.eventsDropped = s.eventsDropped
  dropped : ctx.Accepted → env.room = false →
    r.2.events = s.events ∧ r.2.eventsDropped = s.eventsDropped + 1

/-! ### Bytes of the frame -/

section
variable {ctx : TcContext} {off : Nat}

theorem slice_one (h : off < ctx.data.length) : slice ctx.data off 1 = [ctx.byte off] := by
  unfold slice TcContext.byte
  rw [List.drop_eq_getElem_cons h, List.take_succ_cons, List.take_zero]
  simp [h]

theorem slice_two (h : off + 2 ≤ ctx.data.length) :
    slice ctx.data off 2 = [ctx.byte off, ctx.byte (off + 1)] := by
  unfold slice TcContext.byte
  rw [List.drop_eq_getElem_cons (by omega), List.drop_eq_getElem_cons (by omega), List.take_succ_cons,
    List.take_succ_cons, List.take_zero]
  simp [show off < ctx.data.length by omega, show off + 1 < ctx.data.length by omega]

theorem readByte (h : off < ctx.data.length) :
    UInt8.ofNat (fromLe (slice ctx.data off 1)) = ctx.byte off := by
  rw [slice_one h]
  simp

theorem ethertype_eq_iff (h : 14 ≤ ctx.data.length) :
    UInt16.ofNat (fromBe (slice ctx.data 12 2)) = ETH_P_IP ↔ ctx.byte 12 = 0x08 ∧ ctx.byte 13 = 0x00 := by
  have h12 := (ctx.byte 12).toNat_lt
  have h13 := (ctx.byte 13).toNat_lt
  rw [slice_two h, ← UInt16.toNat_inj, ← UInt8.toNat_inj, ← UInt8.toNat_inj]
  simp [fromBe, ETH_P_IP]
  omega

theorem ipHeaderLen_eq (h : 14 < ctx.data.length) :
    (UInt8.ofNat (fromLe (slice ctx.data 14 1)) &&& 0x0F).toNat * 4 = 4 * ctx.ihl := by
  rw [readByte h, UInt8.toNat_and, Nat.mul_comm]
  congr 1
  exact Nat.and_two_pow_sub_one_eq_mod (ctx.byte 14).toNat 4

end

/-! ### Running the parser -/

/-- From any state, `m` passes the frame on or fails, reads packet bytes within bounds, and offers
`o` and nothing else. -/
def Offers (ctx : TcContext) (room : Bool) (o : Option NetworkFlowEvent) (m : ProbeM Int32) : Prop :=
  ∀ s, (∀ ret, (m.run s).1 = .ok ret → ret = TC_ACT_OK) ∧
    ∃ reads, (m.run s).2 = { s.offer room o with reads := s.reads ++ reads } ∧
      ∀ i ∈ reads, i < ctx.data.length

section
variable {α : Type} {ctx : TcContext} {env : ProbeEnv} {room : Bool} {o : Option NetworkFlowEvent}
  {off size : Nat} {dir : UInt8}

theorem offers_pass : Offers ctx room none (pure TC_ACT_OK) :=
  fun s => ⟨fun _ h => (Except.ok.inj h).symm, [], by rw [List.append_nil]; rfl, by simp⟩

theorem offers_fail : Offers ctx room none (throw ()) :=
  fun s => ⟨fun _ h => (nomatch h), [], by rw [List.append_nil]; rfl, by simp⟩

/-- A pointer is followed if it is in bounds; otherwise the frame must be one that is not offered. -/
theorem offers_ptrAt {f : Nat → ProbeM Int32} (hn : ctx.data.length < off + size → o = none)
    (h : off + size ≤ ctx.data.length → Offers ctx room o (f off)) :
    Offers ctx room o (ptrAt ctx off size >>= f) := by
  unfold ptrAt
  split
  · rename_i hlt
    rw [hn hlt]
    exact offers_fail
  · rename_i hle
    exact h (not_lt.1 hle)

theorem offers_deref {f : List UInt8 → ProbeM Int32} (hle : off + size ≤ ctx.data.length)
    (h : Offers ctx room o (f (slice ctx.data off size))) :
    Offers ctx room o (deref ctx off size >>= f) := by
  intro s
  obtain ⟨hret, reads, hs, hreads⟩ := h { s with reads := s.reads ++ List.range' off size }
  refine ⟨hret, List.range' off size ++ reads, ?_, fun i hi => ?_⟩
  · have hoffer : ({ s with reads := s.reads ++ List.range' off size } : ProbeState).offer room o =
        { s.offer room o with reads := s.reads ++ List.range' off size } := by
      cases o <;> simp only [ProbeState.offer]
      split <;> rfl
    refine hs.trans ?_
    rw [hoffer, List.append_assoc]
  · rcases List.mem_append.1 hi with hi | hi
    · have := List.mem_range'_1.1 hi
      omega
    · exact hreads i hi

theorem offers_submitEvent (env : ProbeEnv) (event : NetworkFlowEvent) :
    Offers ctx env.room (some event) (submitEvent env event >>= fun _ => pure TC_ACT_OK) := by
  intro s
  unfold submitEvent ProbeState.offer
  cases env.room
  all_goals exact ⟨fun _ h => (Except.ok.inj h).symm, [], by rw [List.append_nil]; rfl, by simp⟩

theorem offers_readPorts {f : UInt16 × UInt16 → ProbeM Int32}
    (hn : ctx.HasPorts → ctx.data.length < ctx.transportOffset + 4 → o = none)
    (h : (ctx.HasPorts → ctx.transportOffset + 4 ≤ ctx.data.length) →
      Offers ctx room o (f (ctx.port 0, ctx.port 2))) :
    Offers ctx room o (readPorts ctx (ctx.byte 23) ctx.transportOffset >>= f) := by
  unfold readPorts
  by_cases hports : ctx.HasPorts
  · rw [if_pos (show ctx.byte 23 = _ ∨ ctx.byte 23 = _ from hports)]
    simp only [bind_assoc, pure_bind]
    refine offers_ptrAt (fun hlt => hn hports (by omega)) fun _ => ?_
    refine offers_ptrAt (fun hlt => hn hports (by omega)) fun hle => ?_
    refine offers_deref (by omega) (offers_deref (by omega) ?_)
    have hf := h fun _ => hle
    rwa [TcContext.port, TcContext.port, if_pos hports, if_pos hports] at hf
  · rw [if_neg (show ¬ (ctx.byte 23 = _ ∨ ctx.byte 23 = _) from hports), pure_bind]
    have hf := h fun hp => absurd hp hports
    rwa [TcContext.port, TcContext.port, if_neg hports, if_neg hports] at hf

/-- The parser offers the frame's event if it accepts the frame, and nothing else. -/
theorem offers_tryNetworkProbe (env : ProbeEnv) (ctx : TcContext) (dir : UInt8) :
    Offers ctx env.room (offered dir env.ktimeGetNs ctx) (tryNetworkProbe env ctx dir) := by
  have hnone (h : ¬ ctx.Accepted) : offered dir env.ktimeGetNs ctx = none := if_neg h
  unfold tryNetworkProbe
  split
  · rename_i hlen
    rw [hnone fun h => absurd h.len (by simpa [ETH_HLEN, IP_HLEN_MIN, UInt32.lt_iff_toNat_lt] using hlen)]
    exact offers_pass
  rename_i hlen
  refine offers_ptrAt (fun hlt => hnone fun h => by have := h.readable; omega) fun h14 => ?_
  refine offers_deref h14 ?_
  split
  · rename_i hip
    rw [hnone fun h => hip ((ethertype_eq_iff h14).2 h.ethertype)]
    exact offers_pass
  rename_i hip
  refine offers_ptrAt (fun hlt => hnone fun h => by have := h.readable; simp [ETH_HLEN] at hlt; omega)
    fun h15 => ?_
  refine offers_deref h15 ?_
  dsimp only [ETH_HLEN] at h15 ⊢
  rw [ipHeaderLen_eq h15]
  split
  · rename_i hihl
    rw [hnone fun h => by have := h.ihl; simp [IP_HLEN_MIN] at hihl; omega]
    exact offers_pass
  rename_i hihl
  have hihl : 5 ≤ ctx.ihl := by simp [IP_HLEN_MIN] at hihl; omega
  refine offers_ptrAt (fun hlt => hnone fun h => by have := h.readable; omega) fun h24 => ?_
  refine offers_deref h24 ?_
  refine offers_ptrAt (fun hlt => hnone fun h => by have := h.readable; omega) fun h30 => ?_
  refine offers_ptrAt (fun hlt => hnone fun h => by have := h.readable; omega) fun h34 => ?_
  refine offers_deref h30 (offers_deref h34 ?_)
  rw [readByte h24]
  refine offers_readPorts (fun hp hlt => hnone fun h => absurd (h.ports hp) (by omega)) fun hports => ?_
  have hacc : ctx.Accepted := by
    refine ⟨?_, h34, (ethertype_eq_iff h14).1 (not_not.1 hip), hihl, hports⟩
    simpa [ETH_HLEN, IP_HLEN_MIN, UInt32.lt_iff_toNat_lt] using hlen
  have hoff : offered dir env.ktimeGetNs ctx = some (frameEvent dir env.ktimeGetNs ctx) := if_pos hacc
  rw [hoff]
  exact offers_submitEvent env (frameEvent dir env.ktimeGetNs ctx)

/-! ### The classifiers -/

/-- What a classifier returns, reads and writes. -/
theorem classify_spec (dir : UInt8) (env : ProbeEnv) (ctx : TcContext) (s : ProbeState) :
    (classify dir env ctx s).1 = TC_ACT_OK ∧
      ∃ reads, (classify dir env ctx s).2 =
          { s.offer env.room (offered dir env.ktimeGetNs ctx) with reads := s.reads ++ reads } ∧
        ∀ i ∈ reads, i < ctx.data.length := by
  obtain ⟨hret, reads, hs, hreads⟩ := offers_tryNetworkProbe env ctx dir s
  unfold classify
  rcases hr : (tryNetworkProbe env ctx dir).run s with ⟨_ | ret, s'⟩ <;> rw [hr] at hret hs
  · exact ⟨rfl, reads, hs, hreads⟩
  · exact ⟨hret ret rfl, reads, hs, hreads⟩

theorem parsesExactly_classify (dir : UInt8) (env : ProbeEnv) (ctx : TcContext) (s : ProbeState) :
    ParsesExactly dir env ctx s (classify dir env ctx s) := by
  obtain ⟨hret, reads, hs, hreads⟩ := classify_spec dir env ctx s
  refine ⟨hret, ⟨reads, by rw [hs], hreads⟩, fun hacc => ?_, fun hacc hroom => ?_, fun hacc hroom => ?_⟩
  · rw [hs, offered, if_neg hacc]
    exact ⟨rfl, rfl⟩
  all_goals
    rw [hs, offered, if_pos hacc, hroom]
    exact ⟨rfl, rfl⟩

/-- Both classifiers, on every frame and in every state, accept exactly the frames of `Accepted`, turn
them into exactly their `frameEvent`, and read nothing beyond the readable bytes. -/
theorem classifiers_parseExactly (env : ProbeEnv) (ctx : TcContext) (s : ProbeState) :
    ParsesExactly direction.INGRESS env ctx s (networkProbe env ctx s) ∧
      ParsesExactly direction.EGRESS env ctx s (networkProbeEgress env ctx s) :=
  ⟨parsesExactly_classify .., parsesExactly_classify ..⟩

end

end Orb8
