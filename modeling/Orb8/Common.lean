import Orb8.Lib.Bytes

/-!
# The event shared by the probe and the agent (`orb8-common`)

`NetworkFlowEvent` is `#[repr(C)]` without padding, so its memory on the little-endian targets the
crate admits is the concatenation of its fields, least significant byte first. `toBytes` is that
layout, `readUnaligned` the agent's `std::ptr::read_unaligned` of a ring-buffer record.
-/

namespace Orb8

structure NetworkFlowEvent where
  timestampNs : UInt64
  cgroupId : UInt64
  srcIp : UInt32
  dstIp : UInt32
  srcPort : UInt16
  dstPort : UInt16
  protocol : UInt8
  direction : UInt8
  packetLen : UInt16
deriving DecidableEq, Repr

namespace direction
def INGRESS : UInt8 := 0
def EGRESS : UInt8 := 1
end direction

namespace protocol
def ICMP : UInt8 := 1
def TCP : UInt8 := 6
def UDP : UInt8 := 17
end protocol

/-- A record of the ring buffer: the bytes between `reserve` and `submit`. -/
abbrev Record := List UInt8

namespace NetworkFlowEvent
open Bytes

/-- `core::mem::size_of::<NetworkFlowEvent>()`. -/
def size : Nat := 32

def toBytes (e : NetworkFlowEvent) : Record :=
  toLe 8 e.timestampNs.toNat ++ (toLe 8 e.cgroupId.toNat ++ (toLe 4 e.srcIp.toNat ++
    (toLe 4 e.dstIp.toNat ++ (toLe 2 e.srcPort.toNat ++ (toLe 2 e.dstPort.toNat ++
      (toLe 1 e.protocol.toNat ++ (toLe 1 e.direction.toNat ++ toLe 2 e.packetLen.toNat)))))))

def readUnaligned (r : Record) : NetworkFlowEvent where
  timestampNs := UInt64.ofNat (fromLe (slice r 0 8))
  cgroupId := UInt64.ofNat (fromLe (slice r 8 8))
  srcIp := UInt32.ofNat (fromLe (slice r 16 4))
  dstIp := UInt32.ofNat (fromLe (slice r 20 4))
  srcPort := UInt16.ofNat (fromLe (slice r 24 2))
  dstPort := UInt16.ofNat (fromLe (slice r 26 2))
  protocol := UInt8.ofNat (fromLe (slice r 28 1))
  direction := UInt8.ofNat (fromLe (slice r 29 1))
  packetLen := UInt16.ofNat (fromLe (slice r 30 2))

/-- The compile-time assertion on the size of the event. -/
@[simp] theorem length_toBytes (e : NetworkFlowEvent) : e.toBytes.length = size := by
  simp [toBytes, size]

/-- What the probe writes into the ring is what the agent reads out of it. -/
theorem readUnaligned_toBytes (e : NetworkFlowEvent) : readUnaligned e.toBytes = e := by
  obtain ⟨ts, cg, src, dst, sport, dport, proto, dir, len⟩ := e
  have h64 (x : UInt64) : UInt64.ofNat (fromLe (toLe 8 x.toNat)) = x := by
    rw [fromLe_toLe (by simpa using x.toNat_lt), UInt64.ofNat_toNat]
  have h32 (x : UInt32) : UInt32.ofNat (fromLe (toLe 4 x.toNat)) = x := by
    rw [fromLe_toLe (by simpa using x.toNat_lt), UInt32.ofNat_toNat]
  have h16 (x : UInt16) : UInt16.ofNat (fromLe (toLe 2 x.toNat)) = x := by
    rw [fromLe_toLe (by simpa using x.toNat_lt), UInt16.ofNat_toNat]
  have h8 (x : UInt8) : UInt8.ofNat (fromLe (toLe 1 x.toNat)) = x := by
    rw [fromLe_toLe (by simpa using x.toNat_lt), UInt8.ofNat_toNat]
  simp [toBytes, readUnaligned, slice, List.drop_append, List.drop_eq_nil_of_le, List.take_of_length_le,
    h64, h32, h16, h8]

end NetworkFlowEvent

end Orb8
