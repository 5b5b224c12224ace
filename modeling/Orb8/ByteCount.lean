import Orb8.PacketParse
import Orb8.ProbeLoader
import Orb8.EventLoop

/-!
# From the length of a frame to the bytes of its flow

A frame's length goes through a `u16` field of the record into a `u64` total and a `u32` field of the
broadcast message. What comes out is the length modulo 2^16: the accounting is exact for frames of
less than 64 KiB, and short by a multiple of 64 KiB for a larger one.
-/

namespace Orb8
open AMap Trace KeyedFold

/-- A frame at one of the hooks, with what the environment supplies to the probe. -/
structure Frame where
  dir : UInt8
  env : ProbeEnv
  ctx : TcContext

def Frame.event (f : Frame) : NetworkFlowEvent := frameEvent f.dir f.env.ktimeGetNs f.ctx

/-- The maps of the probe after it has run on the frames. -/
def capture (frames : List Frame) : ProbeState :=
  frames.foldl (fun s f => (classify f.dir f.env f.ctx s).2) ⟨[], 0, []⟩

/-- The events of the batches that the loop goes through. -/
def LoopEvent.polled : LoopEvent → List (List NetworkFlowEvent)
  | .poll batch => [batch.map (·.event)]
  | .expireOldFlows _ => []

/-- The frames are all accepted, submitted, polled and processed, and no flow is removed. -/
structure Delivered (cfg : LoopConfig) (maxBatchSize : Nat) (frames : List Frame) (p : PollState)
    (s : EventLoop) : Prop where
  accepted : ∀ f ∈ frames, f.ctx.Accepted ∧ f.env.room = true
  submitted : p.submitted = (capture frames).events
  polls : ∃ acts, run (PollState.step maxBatchSize) .init acts = some p
  polled : p.polled.flatten = wellFormed p.submitted
  handled : ∃ acts, run (EventLoop.step cfg) (.init cfg) acts = some s ∧
    acts.flatMap LoopEvent.polled = p.polled
  processed : ∀ e ∈ p.polled.flatten, isSelfTraffic e cfg.grpcPort cfg.localIps = false
  kept : drops s.logged.log = []

/-- The frames in the order of their processing, each with the key of the flow it went into. -/
def keyed (frames : List Frame) (s : EventLoop) : List (FlowKey × Frame) :=
  ((puts s.logged.log).map Prod.fst).zip frames

/-- The lengths of the frames of one flow, added up. -/
def lengthSum (frames : List Frame) (s : EventLoop) (k : FlowKey) : Nat :=
  (((keyed frames s).filter fun p => p.1 = k).map fun p => p.2.ctx.len.toNat).sum

/-- Every flow has the bytes of its frames, and every broadcast event those of its own. -/
structure ByteExact (frames : List Frame) (s : EventLoop) : Prop where
  flows : ∀ k stats, s.logged.agg.flows.lookup k = some stats → stats.bytes.toNat = lengthSum frames s k
  events : s.sent.map (·.bytes) = frames.map (·.ctx.len)

section
variable {cfg : LoopConfig} {maxBatchSize : Nat} {frames : List Frame} {p : PollState} {s t : EventLoop}

/-! ### From the frames to the polled events -/

theorem capture_events (h : ∀ f ∈ frames, f.ctx.Accepted ∧ f.env.room = true) :
    (capture frames).events = frames.map fun f => f.event.toBytes := by
  have hfold (ps : ProbeState) : (frames.foldl (fun s f => (classify f.dir f.env f.ctx s).2) ps).events =
      ps.events ++ frames.map fun f => f.event.toBytes := by
    induction frames generalizing ps with
    | nil => simp
    | cons f frames ih =>
      obtain ⟨hacc, hroom⟩ := h f List.mem_cons_self
      have hsub := ((parsesExactly_classify f.dir f.env f.ctx ps).submitted hacc hroom).1
      rw [List.foldl_cons, ih fun g hg => h g (List.mem_cons_of_mem f hg), hsub, List.map_cons,
        List.append_assoc]
      rfl
  exact hfold ⟨[], 0, []⟩

theorem wellFormed_toBytes (frames : List Frame) :
    wellFormed (frames.map fun f => f.event.toBytes) = frames.map Frame.event := by
  induction frames with
  | nil => rfl
  | cons f frames ih =>
    rw [List.map_cons, wellFormed_cons_of_eq f.event.length_toBytes, ih,
      NetworkFlowEvent.readUnaligned_toBytes, List.map_cons]

/-! ### From the polled events to the log -/

def EventLoop.processed (s : EventLoop) : List NetworkFlowEvent := (puts s.logged.log).map fun p => p.2.2

theorem processed_handleEvent (q : Polled) (h : isSelfTraffic q.event cfg.grpcPort cfg.localIps = false) :
    (s.handleEvent cfg q).processed = s.processed ++ [q.event] := by
  simp [EventLoop.handleEvent, h, EventLoop.processed, Logged.call]

theorem processed_poll (batch : List Polled)
    (h : ∀ q ∈ batch, isSelfTraffic q.event cfg.grpcPort cfg.localIps = false) :
    (batch.foldl (EventLoop.handleEvent cfg) s).processed = s.processed ++ batch.map (·.event) := by
  induction batch generalizing s with
  | nil => simp
  | cons q batch ih =>
    rw [List.foldl_cons, ih fun r hr => h r (List.mem_cons_of_mem q hr),
      processed_handleEvent q (h q List.mem_cons_self), List.append_assoc]
    rfl

theorem processed_run {acts : List LoopEvent} (ht : run (EventLoop.step cfg) s acts = some t)
    (h : ∀ e ∈ (acts.flatMap LoopEvent.polled).flatten, isSelfTraffic e cfg.grpcPort cfg.localIps = false) :
    t.processed = s.processed ++ (acts.flatMap LoopEvent.polled).flatten := by
  induction acts generalizing s with
  | nil =>
    obtain rfl := Option.some.inj ht
    simp
  | cons a acts ih =>
    obtain ⟨u, hu, ht⟩ := Option.bind_eq_some_iff.1 ht
    rw [List.flatMap_cons, List.flatten_append] at h ⊢
    rw [ih ht fun e he => h e (List.mem_append_right _ he)]
    cases a with
    | poll batch =>
      obtain rfl := Option.some.inj hu
      have hbatch : ∀ q ∈ batch, isSelfTraffic q.event cfg.grpcPort cfg.localIps = false := fun q hq =>
        h q.event (List.mem_append_left _ (by simpa [LoopEvent.polled] using ⟨q, hq, rfl⟩))
      rw [processed_poll batch hbatch]
      simp [LoopEvent.polled]
    | expireOldFlows now =>
      obtain rfl := Option.some.inj hu
      simp [LoopEvent.polled, EventLoop.processed, Logged.call]

theorem Delivered.processed_eq (h : Delivered cfg maxBatchSize frames p s) :
    s.processed = frames.map Frame.event := by
  obtain ⟨acts, hrun, hacts⟩ := h.handled
  rw [processed_run hrun (hacts ▸ h.processed), hacts, h.polled, h.submitted, capture_events h.accepted,
    wellFormed_toBytes]
  rfl

theorem Delivered.inv (h : Delivered cfg maxBatchSize frames p s) : s.Inv := by
  obtain ⟨acts, hrun, -⟩ := h.handled
  exact EventLoop.inv_run hrun

/-! ### Bytes -/

theorem toNat_packetLen (f : Frame) : f.event.packetLen.toNat = f.ctx.len.toNat % 2 ^ 16 := by
  simp [Frame.event, frameEvent]

theorem packetLen_eq_iff (f : Frame) : f.event.packetLen.toUInt32 = f.ctx.len ↔ f.ctx.len.toNat < 2 ^ 16 := by
  rw [← UInt32.toNat_inj, UInt16.toNat_toUInt32, toNat_packetLen]
  omega

theorem Delivered.sent_bytes (h : Delivered cfg maxBatchSize frames p s) :
    s.sent.map (·.bytes) = frames.map fun f => f.event.packetLen.toUInt32 := by
  have hevents : s.sent.map (·.bytes) = s.processed.map fun e => e.packetLen.toUInt32 := by
    rw [h.inv.sent, EventLoop.processed, List.map_map, List.map_map]
    rfl
  rw [hevents, h.processed_eq, List.map_map]
  rfl

/-- Two lists with the same images: whatever is added up over the images is the same for the entries of
one key. -/
theorem sum_filter_zip {K E F G : Type*} [DecidableEq K] {l : List (K × E)} {frames : List F} {g : E → G}
    {h : F → G} (hl : l.map (fun p => g p.2) = frames.map h) (w : G → Nat) (k : K) :
    ((((l.map Prod.fst).zip frames).filter fun p => p.1 = k).map fun p => w (h p.2)).sum =
      ((l.filter fun p => p.1 = k).map fun p => w (g p.2)).sum := by
  induction l generalizing frames with
  | nil => rfl
  | cons p l ih =>
    cases frames with
    | nil => simp at hl
    | cons f frames =>
      obtain ⟨hhead, htail⟩ := List.cons.inj hl
      have hrest := ih htail
      by_cases hk : p.1 = k <;> simp [hk, hrest, hhead]

theorem Delivered.flow_bytes (h : Delivered cfg maxBatchSize frames p s) {k : FlowKey} {stats : FlowStats}
    (hl : s.logged.agg.flows.lookup k = some stats) :
    stats.bytes = UInt64.ofNat
      (((keyed frames s).filter fun q => q.1 = k).map fun q => q.2.event.packetLen.toNat).sum := by
  have hsince : byteSum (since k s.logged.log) =
      (((puts s.logged.log).filter fun q => q.1 = k).map fun q => q.2.2.packetLen.toNat).sum := by
    rw [since_of_drops_eq_nil h.kept, byteSum]
    generalize puts s.logged.log = l
    induction l with
    | nil => rfl
    | cons q l ih => by_cases hk : q.1 = k <;> simp [hk, ih]
  rw [(summary_spec ((h.inv.logged.exact k).symm.trans hl)).2.1, hsince]
  exact congrArg UInt64.ofNat
    (sum_filter_zip (g := fun e : Stamped => e.2) (h := Frame.event) h.processed_eq (·.packetLen.toNat) k).symm

theorem lengthSum_le (frames : List Frame) (s : EventLoop) (k : FlowKey) :
    lengthSum frames s k ≤ (frames.map fun f => f.ctx.len.toNat).sum := by
  unfold lengthSum keyed
  generalize (puts s.logged.log).map Prod.fst = keys
  induction keys generalizing frames with
  | nil => simp
  | cons j keys ih =>
    cases frames with
    | nil => simp
    | cons f frames =>
      have hrest := ih frames
      by_cases hj : j = k <;> simp [hj] <;> omega

/-- If the totals fit in 64 bits, the accounting from the hook to the flow is byte-exact exactly when
every frame is shorter than 64 KiB. -/
theorem byteExact_iff (h : Delivered cfg maxBatchSize frames p s)
    (hsum : ∀ k, lengthSum frames s k < 2 ^ 64) :
    ByteExact frames s ↔ ∀ f ∈ frames, f.ctx.len.toNat < 2 ^ 16 := by
  have hevents : s.sent.map (·.bytes) = frames.map (·.ctx.len) ↔ ∀ f ∈ frames, f.ctx.len.toNat < 2 ^ 16 := by
    rw [h.sent_bytes, List.map_inj_left]
    exact forall₂_congr fun f _ => packetLen_eq_iff f
  refine ⟨fun hexact => hevents.1 hexact.events, fun hshort => ⟨fun k stats hl => ?_, hevents.2 hshort⟩⟩
  have hlen : (((keyed frames s).filter fun q => q.1 = k).map fun q => q.2.event.packetLen.toNat).sum =
      lengthSum frames s k := by
    refine congrArg List.sum (List.map_congr_left fun q hq => ?_)
    have hmem : q.2 ∈ frames := (List.of_mem_zip (List.mem_filter.1 hq).1).2
    rw [toNat_packetLen, Nat.mod_eq_of_lt (hshort q.2 hmem)]
  rw [h.flow_bytes hl, hlen, UInt64.toNat_ofNat_of_lt' (by simpa [UInt64.size] using hsum k)]

end

/-! ### One frame -/

def demoConfig : LoopConfig := ⟨9090, ∅, 10, 30⟩

/-- A UDP datagram of `len` bytes from 10.0.0.5 to 10.0.0.6, of which the headers are readable. -/
def datagram (len : UInt32) : Frame where
  dir := direction.EGRESS
  env := ⟨7, true⟩
  ctx := ⟨[0, 0, 0, 0, 0, 0, 0, 0, 0, 0, 0, 0, 0x08, 0x00,
    0x45, 0, 0, 0, 0, 0, 0, 0, 64, 17, 0, 0, 10, 0, 0, 5, 10, 0, 0, 6, 0, 53, 0, 80], len⟩

def pollDatagram (len : UInt32) : PollState :=
  ⟨[], none, [(datagram len).event.toBytes], [[(datagram len).event]]⟩

def handleDatagram (len : UInt32) : EventLoop :=
  (EventLoop.init demoConfig).handleEvent demoConfig
    ⟨(datagram len).event, PodCache.new 10 HealthState.new, 0, .stored⟩

theorem delivered_datagram {len : UInt32} (h : len = 1400 ∨ len = 65536) :
    Delivered demoConfig 10 [datagram len] (pollDatagram len) (handleDatagram len) := by
  have hacc : ∀ f ∈ [datagram len], f.ctx.Accepted ∧ f.env.room = true := by
    intro f hf
    obtain rfl := List.mem_singleton.1 hf
    rcases h with rfl | rfl <;> exact ⟨by decide, rfl⟩
  have hwf : wellFormed [(datagram len).event.toBytes] = [(datagram len).event] :=
    wellFormed_toBytes [datagram len]
  refine ⟨hacc, (capture_events hacc).symm, ?_, hwf.symm, ?_, ?_, ?_⟩
  · refine ⟨[.submit (datagram len).event.toBytes, .pollEvents, .next, .next], ?_⟩
    simp [PollState.step, PollState.init, PollState.finish, pollBody,
      NetworkFlowEvent.readUnaligned_toBytes, pollDatagram]
  · exact ⟨[.poll [⟨(datagram len).event, PodCache.new 10 HealthState.new, 0, .stored⟩]], rfl, rfl⟩
  · intro e he
    obtain rfl := List.mem_singleton.1 he
    rcases h with rfl | rfl <;> decide
  · rcases h with rfl | rfl <;> decide

theorem lengthSum_datagram (len : UInt32) (s : EventLoop) (k : FlowKey) :
    lengthSum [datagram len] s k < 2 ^ 64 := by
  have hle := lengthSum_le [datagram len] s k
  have hlt := len.toNat_lt
  simp only [List.map_cons, List.map_nil, List.sum_singleton] at hle
  exact hle.trans_lt (hlt.trans (by decide))

theorem byteExact_iff_datagram :
    ByteExact [datagram 1400] (handleDatagram 1400) ↔ ∀ f ∈ [datagram 1400], f.ctx.len.toNat < 2 ^ 16 :=
  byteExact_iff (delivered_datagram (.inl rfl)) (lengthSum_datagram 1400 _)

/-- A segmentation-offloaded datagram of 64 KiB counts for nothing. -/
theorem not_byteExact_datagram :
    ¬ (Delivered demoConfig 10 [datagram 65536] (pollDatagram 65536) (handleDatagram 65536) →
      (∀ k, lengthSum [datagram 65536] (handleDatagram 65536) k < 2 ^ 64) →
        ByteExact [datagram 65536] (handleDatagram 65536)) := by
  intro h
  have hdelivered : Delivered demoConfig 10 [datagram 65536] (pollDatagram 65536) (handleDatagram 65536) :=
    delivered_datagram (.inr rfl)
  have hevents := (h hdelivered (lengthSum_datagram 65536 _)).events
  rw [hdelivered.sent_bytes] at hevents
  exact absurd hevents (by decide)

end Orb8
