import Orb8.PacketParse

/-!
# What the identity of a flow depends on

Two frames with the same length, the same readable extent and the same headers are told apart by the
probe at most through the first four bytes behind the IP header. Where a transport header is there
these are its ports. A later fragment has none: the four bytes are payload, and the probe, which does
not look at the fragment offset, takes them for ports all the same.
-/

namespace Orb8
open Bytes

/-- The fields that tell flows apart. -/
structure FlowId where
  srcIp : UInt32
  dstIp : UInt32
  srcPort : UInt16
  dstPort : UInt16
  protocol : UInt8
  direction : UInt8
deriving DecidableEq

def NetworkFlowEvent.flowId (e : NetworkFlowEvent) : FlowId :=
  ⟨e.srcIp, e.dstIp, e.srcPort, e.dstPort, e.protocol, e.direction⟩

namespace TcContext

/-- The Ethernet header, and the IPv4 header with its options; an IPv4 header has at least 20 bytes. -/
def headersLen (ctx : TcContext) : Nat := 14 + max 20 (4 * ctx.ihl)

/-- The frame is a fragment and not the first one. -/
def LaterFragment (ctx : TcContext) : Prop := fromBe (slice ctx.data 20 2) % 2 ^ 13 ≠ 0

instance (ctx : TcContext) : Decidable ctx.LaterFragment := inferInstanceAs (Decidable (_ ≠ _))

/-- The first four bytes behind the IP header. -/
def transportStart (ctx : TcContext) : List UInt8 := slice ctx.data ctx.transportOffset 4

end TcContext

/-- The frames agree in all that an identity may depend on. -/
structure SameHeaders (ctx ctx' : TcContext) : Prop where
  len : ctx.len = ctx'.len
  readable : ctx.data.length = ctx'.data.length
  headers : ctx.data.take ctx.headersLen = ctx'.data.take ctx.headersLen
  transport : (ctx.LaterFragment ∧ ctx'.LaterFragment) ∨ ctx.transportStart = ctx'.transportStart

/-- On the two frames a classifier emits nothing, or events of one flow. -/
def SameFlow (dir : UInt8) (ctx ctx' : TcContext) : Prop :=
  ∀ room t t' s s',
    ((classify dir ⟨t, room⟩ ctx s).2.events = s.events ∧
      (classify dir ⟨t', room⟩ ctx' s').2.events = s'.events) ∨
    ∃ ev ev' : NetworkFlowEvent,
      (classify dir ⟨t, room⟩ ctx s).2.events = s.events ++ [ev.toBytes] ∧
      (classify dir ⟨t', room⟩ ctx' s').2.events = s'.events ++ [ev'.toBytes] ∧ ev.flowId = ev'.flowId

/-- The probe takes no payload for ports, or takes the same. -/
def PortsAgree (ctx ctx' : TcContext) : Prop :=
  ctx.Accepted → ctx.HasPorts → ctx.LaterFragment → ctx.transportStart = ctx'.transportStart

section
variable {ctx ctx' : TcContext} {dir : UInt8} {i : Nat}

theorem toBytes_inj {e e' : NetworkFlowEvent} (h : e.toBytes = e'.toBytes) : e = e' := by
  rw [← NetworkFlowEvent.readUnaligned_toBytes e, h, NetworkFlowEvent.readUnaligned_toBytes]

namespace SameHeaders

theorem byte_eq (h : SameHeaders ctx ctx') (hi : i < ctx.headersLen) : ctx.byte i = ctx'.byte i := by
  have hget (c : TcContext) : c.byte i = (c.data.take ctx.headersLen).getD i 0 := by
    simp [TcContext.byte, List.getD_eq_getElem?_getD, hi]
  rw [hget ctx, hget ctx', h.headers]

theorem slice_eq (h : SameHeaders ctx ctx') {off w : Nat} (hle : off + w ≤ ctx.headersLen) :
    slice ctx.data off w = slice ctx'.data off w :=
  slice_congr h.headers hle

theorem ihl_eq (h : SameHeaders ctx ctx') : ctx.ihl = ctx'.ihl := by
  unfold TcContext.ihl
  rw [h.byte_eq (by unfold TcContext.headersLen; omega)]

theorem transportOffset_eq (h : SameHeaders ctx ctx') : ctx.transportOffset = ctx'.transportOffset := by
  unfold TcContext.transportOffset
  rw [h.ihl_eq]

theorem hasPorts_iff (h : SameHeaders ctx ctx') : ctx.HasPorts ↔ ctx'.HasPorts := by
  unfold TcContext.HasPorts
  rw [h.byte_eq (by unfold TcContext.headersLen; omega)]

theorem accepted (h : SameHeaders ctx ctx') (ha : ctx.Accepted) : ctx'.Accepted := by
  obtain ⟨hlen, hread, heth, hihl, hports⟩ := ha
  have hbyte (j : Nat) (hj : j < 34) : ctx.byte j = ctx'.byte j :=
    h.byte_eq (by unfold TcContext.headersLen; omega)
  rw [hbyte 12 (by omega), hbyte 13 (by omega)] at heth
  refine ⟨h.len ▸ hlen, h.readable ▸ hread, heth, h.ihl_eq ▸ hihl, fun hp => ?_⟩
  rw [← h.transportOffset_eq, ← h.readable]
  exact hports (h.hasPorts_iff.2 hp)

theorem symm (h : SameHeaders ctx ctx') : SameHeaders ctx' ctx := by
  refine ⟨h.len.symm, h.readable.symm, ?_, ?_⟩
  · have hlen : ctx'.headersLen = ctx.headersLen := by
      unfold TcContext.headersLen
      rw [h.ihl_eq]
    rw [hlen]
    exact h.headers.symm
  · rcases h.transport with ⟨hf, hf'⟩ | ht
    · exact .inl ⟨hf', hf⟩
    · exact .inr ht.symm

end SameHeaders

/-! ### Ports -/

namespace TcContext

theorem port_src (h : ctx.HasPorts) : ctx.port 0 = UInt16.ofNat (fromBe (ctx.transportStart.take 2)) := by
  rw [port, if_pos h, transportStart, slice, slice, List.take_take]
  rfl

theorem port_dst (h : ctx.HasPorts) : ctx.port 2 = UInt16.ofNat (fromBe (ctx.transportStart.drop 2)) := by
  rw [port, if_pos h, transportStart, slice, slice, List.drop_take, List.drop_drop]

theorem Accepted.length_transportStart (h : ctx.Accepted) (hp : ctx.HasPorts) :
    ctx.transportStart.length = 4 :=
  length_slice (h.ports hp)

/-- Two bytes can be read back from the port they make. -/
theorem bytes_of_port {a b : List UInt8} (ha : a.length = 2) (hb : b.length = 2)
    (h : UInt16.ofNat (fromBe a) = UInt16.ofNat (fromBe b)) : a = b := by
  have hlt (l : List UInt8) (hl : l.length = 2) : fromBe l < UInt16.size := by
    have := fromBe_lt l
    rwa [hl] at this
  have hnat := congrArg UInt16.toNat h
  rw [UInt16.toNat_ofNat_of_lt' (hlt a ha), UInt16.toNat_ofNat_of_lt' (hlt b hb)] at hnat
  exact fromBe_inj (ha.trans hb.symm) hnat

end TcContext

/-- Two accepted frames with the same headers are of one flow exactly when their ports agree. -/
theorem flowId_frameEvent_iff (h : SameHeaders ctx ctx') (ha : ctx.Accepted) (t t' : UInt64) :
    (frameEvent dir t ctx).flowId = (frameEvent dir t' ctx').flowId ↔
      (ctx.HasPorts → ctx.transportStart = ctx'.transportStart) := by
  have ha' := h.accepted ha
  have hlong : 34 ≤ ctx.headersLen := by
    unfold TcContext.headersLen
    omega
  have hrest : ctx.port 0 = ctx'.port 0 ∧ ctx.port 2 = ctx'.port 2 ↔
      (frameEvent dir t ctx).flowId = (frameEvent dir t' ctx').flowId := by
    simp only [NetworkFlowEvent.flowId, frameEvent, FlowId.mk.injEq, h.byte_eq (show 23 < _ by omega),
      h.slice_eq (show 26 + 4 ≤ _ by omega), h.slice_eq (show 30 + 4 ≤ _ by omega), true_and, and_true]
  rw [← hrest]
  by_cases hp : ctx.HasPorts
  · have hp' := h.hasPorts_iff.1 hp
    have hlen := ha.length_transportStart hp
    have hlen' := ha'.length_transportStart hp'
    rw [TcContext.port_src hp, TcContext.port_src hp', TcContext.port_dst hp, TcContext.port_dst hp']
    constructor
    · rintro ⟨hsrc, hdst⟩ -
      have hsrc := TcContext.bytes_of_port (by simp [hlen]) (by simp [hlen']) hsrc
      have hdst := TcContext.bytes_of_port (by simp [hlen]) (by simp [hlen']) hdst
      rw [← List.take_append_drop 2 ctx.transportStart, hsrc, hdst, List.take_append_drop]
    · intro hts
      rw [hts hp]
      exact ⟨rfl, rfl⟩
  · have hp' : ¬ ctx'.HasPorts := fun hp' => hp (h.hasPorts_iff.2 hp')
    have hzero {c : TcContext} (hc : ¬ c.HasPorts) (i : Nat) : c.port i = 0 := if_neg hc
    rw [hzero hp, hzero hp', hzero hp, hzero hp']
    exact ⟨fun _ hports => absurd hports hp, fun _ => ⟨rfl, rfl⟩⟩

theorem portsAgree_of_sameFlow (h : SameHeaders ctx ctx') (hsame : SameFlow dir ctx ctx') :
    PortsAgree ctx ctx' := by
  intro ha hp _
  have hsub (c : TcContext) (hc : c.Accepted) :
      (classify dir ⟨0, true⟩ c ⟨[], 0, []⟩).2.events = [] ++ [(frameEvent dir 0 c).toBytes] :=
    ((parsesExactly_classify dir ⟨0, true⟩ c ⟨[], 0, []⟩).submitted hc rfl).1
  rcases hsame true 0 0 ⟨[], 0, []⟩ ⟨[], 0, []⟩ with ⟨hnone, -⟩ | ⟨ev, ev', hev, hev', hid⟩
  · rw [hsub ctx ha] at hnone
    simp at hnone
  · rw [hsub ctx ha] at hev
    rw [hsub ctx' (h.accepted ha)] at hev'
    obtain rfl := toBytes_inj (List.singleton_inj.1 (List.append_cancel_left hev))
    obtain rfl := toBytes_inj (List.singleton_inj.1 (List.append_cancel_left hev'))
    exact (flowId_frameEvent_iff h ha 0 0).1 hid hp

theorem sameFlow_of_portsAgree (h : SameHeaders ctx ctx') (hports : PortsAgree ctx ctx') :
    SameFlow dir ctx ctx' := by
  intro room t t' s s'
  have hspec := parsesExactly_classify dir ⟨t, room⟩ ctx s
  have hspec' := parsesExactly_classify dir ⟨t', room⟩ ctx' s'
  by_cases ha : ctx.Accepted
  · have ha' := h.accepted ha
    cases room with
    | false => exact .inl ⟨(hspec.dropped ha rfl).1, (hspec'.dropped ha' rfl).1⟩
    | true =>
      refine .inr ⟨_, _, (hspec.submitted ha rfl).1, (hspec'.submitted ha' rfl).1, ?_⟩
      rw [flowId_frameEvent_iff h ha t t']
      intro hp
      rcases h.transport with ⟨hf, -⟩ | ht
      · exact hports ha hp hf
      · exact ht
  · have ha' : ¬ ctx'.Accepted := fun ha' => ha (h.symm.accepted ha')
    exact .inl ⟨(hspec.ignored ha).1, (hspec'.ignored ha').1⟩

/-- For two frames that agree in all that a flow's identity may depend on, the probe emits nothing for
both or events of one flow, exactly when it takes no payload of later fragments for ports, or takes
the same. -/
theorem sameFlow_iff (h : SameHeaders ctx ctx') : SameFlow dir ctx ctx' ↔ PortsAgree ctx ctx' :=
  ⟨portsAgree_of_sameFlow h, sameFlow_of_portsAgree h⟩

/-! ### A later fragment -/

/-- The second fragment of a UDP datagram from 10.0.0.5 to 10.0.0.6, with the given first bytes of
its payload. -/
def demoFragment (payload : List UInt8) : TcContext :=
  ⟨[0, 0, 0, 0, 0, 0, 0, 0, 0, 0, 0, 0, 0x08, 0x00,
    0x45, 0, 0, 24, 0, 1, 0, 185, 64, 17, 0, 0, 10, 0, 0, 5, 10, 0, 0, 6] ++ payload, 38⟩

theorem sameHeaders_demoFragment :
    SameHeaders (demoFragment [0, 53, 0, 80]) (demoFragment [0, 54, 0, 80]) :=
  ⟨rfl, rfl, by decide, .inl (by decide)⟩

theorem sameFlow_iff_demo :
    SameFlow direction.EGRESS (demoFragment [0, 53, 0, 80]) (demoFragment [0, 54, 0, 80]) ↔
      PortsAgree (demoFragment [0, 53, 0, 80]) (demoFragment [0, 54, 0, 80]) :=
  sameFlow_iff sameHeaders_demoFragment

/-- Other bytes of payload, another flow. -/
theorem not_sameFlow_fragments :
    ¬ (SameHeaders (demoFragment [0, 53, 0, 80]) (demoFragment [0, 54, 0, 80]) →
      SameFlow direction.EGRESS (demoFragment [0, 53, 0, 80]) (demoFragment [0, 54, 0, 80])) := by
  intro h
  have hports := portsAgree_of_sameFlow sameHeaders_demoFragment (h sameHeaders_demoFragment)
  exact absurd (hports (by decide) (by decide) (by decide)) (by decide)

end

end Orb8
