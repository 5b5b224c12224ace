import Orb8.GrpcServer
import Orb8.Lib.Trace

/-!
# What the subscribers of the event stream get

The event loop's `event_tx.send` with its error branch, the streams that `stream_events` returns, and
the channel between them. Subscribers come and go; a subscriber that has left stays in the history
with what it got. The output of a stream is always right for what its receiver got. The drop counter
is not: it counts the sends that found no receiver, and `filter_map` discards the lag errors.
-/

namespace Orb8
open AMap Trace Broadcast

structure Subscriber where
  namespaces : List String
  output : List NetworkEvent
  /-- History: the number of events sent before it subscribed. -/
  start : Nat
  /-- History: the position of the next event, if it goes on. -/
  next : Nat
  /-- History: the positions of the events that it lost. -/
  missed : List Nat
deriving DecidableEq

structure Streams where
  channel : Channel NetworkEvent
  health : HealthState
  subscribers : AMap Nat Subscriber

inductive StreamAction where
  | send (event : NetworkEvent)
  /-- A client calls `StreamEvents`. -/
  | subscribe (id : Nat) (namespaces : List String)
  /-- A client's stream is polled and its receiver has something. -/
  | poll (id : Nat)
  | leave (id : Nat)

namespace Subscriber

def new (namespaces : List String) (start : Nat) : Subscriber := ⟨namespaces, [], start, start, []⟩

def deliver (sub : Subscriber) (r : Recv NetworkEvent) : Subscriber :=
  { sub with
    output := sub.output ++ (streamFilter sub.namespaces r).toList
    next := match r with
      | .value _ => sub.next + 1
      | .lagged n => sub.next + n
    missed := match r with
      | .value _ => sub.missed
      | .lagged n => sub.missed ++ List.range' sub.next n }

/-- The output is what was sent since it subscribed and passes its filter, in order, less what it
missed. -/
def Faithful (sent : List NetworkEvent) (sub : Subscriber) : Prop :=
  sub.output = (between sent sub.missed sub.start sub.next).filter (passes sub.namespaces)

/-- The history makes sense: positions are in order and missed at most once. -/
structure Fits (sent : List NetworkEvent) (sub : Subscriber) : Prop where
  start_le : sub.start ≤ sub.next
  next_le : sub.next ≤ sent.length
  missed_lt : ∀ i ∈ sub.missed, sub.start ≤ i ∧ i < sub.next
  nodup : sub.missed.Nodup

end Subscriber

namespace Streams

def init (slots : Nat) : Streams := ⟨.new slots, HealthState.new, ∅⟩

def step (s : Streams) : StreamAction → Option Streams
  | .send event =>
    match s.channel.send event with
    | some channel => some { s with channel }
    | none => some { s with health := s.health.incBroadcastDrops }
  | .subscribe id namespaces =>
    if id ∈ s.subscribers then none
    else some { s with
      channel := s.channel.subscribe id
      subscribers := s.subscribers.insert id (.new namespaces s.channel.sent.length) }
  | .poll id =>
    match s.channel.recv id, s.subscribers.lookup id with
    | some (r, channel), some sub =>
      some { s with channel, subscribers := s.subscribers.insert id (sub.deliver r) }
    | _, _ => none
  | .leave id =>
    if id ∈ s.channel.receivers then some { s with channel := s.channel.unsubscribe id } else none

/-- How many events the subscribers lost, those that have left included. -/
def lost (s : Streams) : Nat := sumOn (fun _ sub => sub.missed.length) s.subscribers

/-- Every stream is faithful, and the drop counter counts exactly the events lost. -/
structure NoSilentLoss (s : Streams) : Prop where
  fits : ∀ id sub, s.subscribers.lookup id = some sub → sub.Fits s.channel.sent
  faithful : ∀ id sub, s.subscribers.lookup id = some sub → sub.Faithful s.channel.sent
  counted : s.health.broadcastDrops = s.lost

/-- Every event sent has a receiver, and no receiver has fallen behind when it receives. -/
def Lossless (s : Streams) : StreamAction → Prop
  | .send _ => len s.channel.receivers ≠ 0
  | .poll id => ∀ next, s.channel.receivers.lookup id = some next → s.channel.oldest ≤ next
  | _ => True

structure Inv (s : Streams) : Prop where
  fits : ∀ id sub, s.subscribers.lookup id = some sub → sub.Fits s.channel.sent
  faithful : ∀ id sub, s.subscribers.lookup id = some sub → sub.Faithful s.channel.sent
  next : ∀ id next, s.channel.receivers.lookup id = some next →
    ∃ sub, s.subscribers.lookup id = some sub ∧ sub.next = next

end Streams

/-! ### One subscriber -/

namespace Subscriber
variable {sent : List NetworkEvent} {sub : Subscriber} {event : NetworkEvent} {oldest : Nat}

theorem fits_new (namespaces : List String) (sent : List NetworkEvent) :
    (new namespaces sent.length).Fits sent :=
  ⟨le_rfl, le_rfl, fun _ h => (nomatch h), List.nodup_nil⟩

theorem faithful_new (namespaces : List String) (start : Nat) :
    (new namespaces start).Faithful sent := by
  show [] = (between sent [] start start).filter _
  rw [between_self, List.filter_nil]

theorem Fits.append (h : sub.Fits sent) (l : List NetworkEvent) : sub.Fits (sent ++ l) :=
  ⟨h.start_le, h.next_le.trans (by simp), h.missed_lt, h.nodup⟩

theorem Faithful.append (h : sub.Faithful sent) (hf : sub.Fits sent) (l : List NetworkEvent) :
    sub.Faithful (sent ++ l) := by
  unfold Faithful
  rw [between_append hf.next_le]
  exact h

theorem Fits.value (h : sub.Fits sent) (hv : sent[sub.next]? = some event) :
    (sub.deliver (.value event)).Fits sent := by
  obtain ⟨hs, -, hm, hn⟩ := h
  have hlt : sub.next < sent.length := (List.getElem?_eq_some_iff.1 hv).1
  exact ⟨Nat.le_succ_of_le hs, hlt, fun i hi => ⟨(hm i hi).1, Nat.lt_succ_of_lt (hm i hi).2⟩, hn⟩

theorem Faithful.value (h : sub.Faithful sent) (hf : sub.Fits sent) (hv : sent[sub.next]? = some event) :
    (sub.deliver (.value event)).Faithful sent := by
  have hm : sub.next ∉ sub.missed := fun hi => lt_irrefl _ (hf.missed_lt _ hi).2
  show sub.output ++ (streamFilter sub.namespaces (.value event)).toList =
    (between sent sub.missed sub.start (sub.next + 1)).filter (passes sub.namespaces)
  rw [between_value hf.start_le hm hv, List.filter_append, ← h]
  by_cases hp : passes sub.namespaces event <;> simp [streamFilter, hp]

theorem Fits.lagged (h : sub.Fits sent) (hlag : sub.next < oldest) (ho : oldest ≤ sent.length) :
    (sub.deliver (.lagged (oldest - sub.next))).Fits sent := by
  obtain ⟨hs, -, hm, hn⟩ := h
  have hnext : sub.next + (oldest - sub.next) = oldest := by omega
  refine ⟨?_, ?_, fun i hi => ?_, ?_⟩
  · show sub.start ≤ sub.next + (oldest - sub.next)
    omega
  · show sub.next + (oldest - sub.next) ≤ sent.length
    omega
  · show sub.start ≤ i ∧ i < sub.next + (oldest - sub.next)
    rcases List.mem_append.1 hi with hi | hi
    · have := hm i hi; omega
    · have := List.mem_range'_1.1 hi; omega
  · refine List.Nodup.append hn List.nodup_range' fun i hi hr => ?_
    have h1 := (hm i hi).2
    have h2 := (List.mem_range'_1.1 hr).1
    omega

theorem Faithful.lagged (h : sub.Faithful sent) (hf : sub.Fits sent) (hlag : sub.next < oldest) :
    (sub.deliver (.lagged (oldest - sub.next))).Faithful sent := by
  have hnext : sub.next + (oldest - sub.next) = oldest := by omega
  show sub.output ++ [] = (between sent (sub.missed ++ List.range' sub.next (oldest - sub.next)) sub.start
    (sub.next + (oldest - sub.next))).filter (passes sub.namespaces)
  rw [hnext, between_lagged hf.start_le hlag.le, List.append_nil]
  exact h

end Subscriber

namespace Streams
variable {s t : Streams} {a : StreamAction} {id : Nat} {event : NetworkEvent}

theorem step_cases (hi : s.Inv) (h : step s a = some t) :
    (∃ event, a = .send event ∧ len s.channel.receivers ≠ 0 ∧
      t = { s with channel := { s.channel with sent := s.channel.sent ++ [event] } }) ∨
    (∃ event, a = .send event ∧ len s.channel.receivers = 0 ∧
      t = { s with health := s.health.incBroadcastDrops }) ∨
    (∃ id namespaces, a = .subscribe id namespaces ∧ id ∉ s.subscribers ∧
      t = { s with
        channel := s.channel.subscribe id
        subscribers := s.subscribers.insert id (.new namespaces s.channel.sent.length) }) ∨
    (∃ id sub event, a = .poll id ∧ s.channel.receivers.lookup id = some sub.next ∧
      s.subscribers.lookup id = some sub ∧ s.channel.oldest ≤ sub.next ∧
      s.channel.sent[sub.next]? = some event ∧
      t = { s with
        channel := { s.channel with receivers := s.channel.receivers.insert id (sub.next + 1) }
        subscribers := s.subscribers.insert id (sub.deliver (.value event)) }) ∨
    (∃ id sub, a = .poll id ∧ s.channel.receivers.lookup id = some sub.next ∧
      s.subscribers.lookup id = some sub ∧ sub.next < s.channel.oldest ∧
      t = { s with
        channel := { s.channel with receivers := s.channel.receivers.insert id s.channel.oldest }
        subscribers := s.subscribers.insert id (sub.deliver (.lagged (s.channel.oldest - sub.next))) }) ∨
    ∃ id, a = .leave id ∧ t = { s with channel := s.channel.unsubscribe id } := by
  cases a with
  | send event =>
    by_cases hr : len s.channel.receivers = 0
    · simp only [step, Channel.send, hr, if_true, Option.some.injEq] at h
      exact .inr (.inl ⟨event, rfl, hr, h.symm⟩)
    · simp only [step, Channel.send, hr, if_false, Option.some.injEq] at h
      exact .inl ⟨event, rfl, hr, h.symm⟩
  | subscribe id namespaces =>
    by_cases hid : id ∈ s.subscribers
    · simp [step, hid] at h
    · simp only [step, hid, if_false, Option.some.injEq] at h
      exact .inr (.inr (.inl ⟨id, namespaces, rfl, hid, h.symm⟩))
  | poll id =>
    simp only [step] at h
    split at h
    · rename_i r channel sub hr hsub
      obtain ⟨next, hnext, hc⟩ := Channel.recv_cases hr
      obtain ⟨sub', hsub', rfl⟩ := hi.next id next hnext
      obtain rfl : sub = sub' := Option.some.inj (hsub.symm.trans hsub')
      rcases hc with ⟨hlag, rfl, rfl⟩ | ⟨event, hold, hv, rfl, rfl⟩
      · exact .inr (.inr (.inr (.inr (.inl ⟨id, sub, rfl, hnext, hsub, hlag, (Option.some.inj h).symm⟩))))
      · exact .inr (.inr (.inr (.inl
          ⟨id, sub, event, rfl, hnext, hsub, hold, hv, (Option.some.inj h).symm⟩)))
    · cases h
  | leave id =>
    by_cases hid : id ∈ s.channel.receivers
    · simp only [step, hid, if_true, Option.some.injEq] at h
      exact .inr (.inr (.inr (.inr (.inr ⟨id, rfl, h.symm⟩))))
    · simp [step, hid] at h

theorem inv_init (slots : Nat) : (init slots).Inv :=
  ⟨fun _ _ h => (nomatch h), fun _ _ h => (nomatch h), fun _ _ h => (nomatch h)⟩

theorem Inv.receive {sub : Subscriber} {r : Recv NetworkEvent} (h : s.Inv) (id : Nat)
    (hfits : (sub.deliver r).Fits s.channel.sent) (hfaith : (sub.deliver r).Faithful s.channel.sent) :
    Inv { s with
      channel := { s.channel with receivers := s.channel.receivers.insert id (sub.deliver r).next }
      subscribers := s.subscribers.insert id (sub.deliver r) } := by
  refine ⟨fun j w hj => ?_, fun j w hj => ?_, fun j next hj => ?_⟩
  · rcases lookup_insert_eq_some hj with ⟨rfl, rfl⟩ | ⟨-, hj⟩
    · exact hfits
    · exact h.fits j w hj
  · rcases lookup_insert_eq_some hj with ⟨rfl, rfl⟩ | ⟨-, hj⟩
    · exact hfaith
    · exact h.faithful j w hj
  · rcases lookup_insert_eq_some hj with ⟨rfl, rfl⟩ | ⟨hne, hj⟩
    · exact ⟨_, AList.lookup_insert _, rfl⟩
    · obtain ⟨w, hw, hn⟩ := h.next j next hj
      exact ⟨w, (AList.lookup_insert_ne hne).trans hw, hn⟩

theorem inv_step (h : s.Inv) (ht : step s a = some t) : t.Inv := by
  rcases step_cases h ht with ⟨event, -, -, rfl⟩ | ⟨event, -, -, rfl⟩ | ⟨id, namespaces, -, hid, rfl⟩ |
    ⟨id, sub, event, -, hnext, hsub, hold, hv, rfl⟩ | ⟨id, sub, -, hnext, hsub, hlag, rfl⟩ | ⟨id, -, rfl⟩
  · exact ⟨fun j w hj => (h.fits j w hj).append _,
      fun j w hj => (h.faithful j w hj).append (h.fits j w hj) _, h.next⟩
  · exact ⟨h.fits, h.faithful, h.next⟩
  · refine ⟨fun j w hj => ?_, fun j w hj => ?_, fun j next hj => ?_⟩
    · rcases lookup_insert_eq_some hj with ⟨rfl, rfl⟩ | ⟨-, hj⟩
      · exact Subscriber.fits_new namespaces _
      · exact h.fits j w hj
    · rcases lookup_insert_eq_some hj with ⟨rfl, rfl⟩ | ⟨-, hj⟩
      · exact Subscriber.faithful_new namespaces _
      · exact h.faithful j w hj
    · rcases lookup_insert_eq_some hj with ⟨rfl, rfl⟩ | ⟨hne, hj⟩
      · exact ⟨_, AList.lookup_insert _, rfl⟩
      · obtain ⟨w, hw, hn⟩ := h.next j next hj
        exact ⟨w, (AList.lookup_insert_ne hne).trans hw, hn⟩
  · have hfits := h.fits id sub hsub
    exact h.receive id (hfits.value hv) ((h.faithful id sub hsub).value hfits hv)
  · have hfits := h.fits id sub hsub
    have hoff : sub.next + (s.channel.oldest - sub.next) = s.channel.oldest := by omega
    have hrec := h.receive id (hfits.lagged hlag s.channel.oldest_le)
      ((h.faithful id sub hsub).lagged hfits hlag)
    have hn : (sub.deliver (.lagged (s.channel.oldest - sub.next))).next = s.channel.oldest := hoff
    rwa [hn] at hrec
  · refine ⟨h.fits, h.faithful, fun j next hj => h.next j next ?_⟩
    by_cases hj' : j = id
    · subst hj'
      rw [show (s.channel.unsubscribe j).receivers = s.channel.receivers.erase j from rfl,
        AList.lookup_erase] at hj
      cases hj
    · exact (lookup_erase_of_ne hj').symm.trans hj

/-! ### The drop counter -/

theorem lost_insert {sub : Subscriber} (h : s.subscribers.lookup id = some sub) (sub' : Subscriber) :
    sumOn (fun _ sub => sub.missed.length) (s.subscribers.insert id sub') + sub.missed.length =
      s.lost + sub'.missed.length := by
  rw [lost, sumOn_of_lookup _ h, sumOn_insert]
  omega

theorem noSilentLoss_step_iff (hi : s.Inv) (hi' : t.Inv) (hp : s.NoSilentLoss)
    (ht : step s a = some t) : t.NoSilentLoss ↔ s.Lossless a := by
  have hof (hc : t.health.broadcastDrops = t.lost) : t.NoSilentLoss := ⟨hi'.fits, hi'.faithful, hc⟩
  have hcount := hp.counted
  rcases step_cases hi ht with ⟨event, rfl, hr, rfl⟩ | ⟨event, rfl, hr, rfl⟩ |
    ⟨id, namespaces, rfl, hid, rfl⟩ | ⟨id, sub, event, rfl, hnext, hsub, hold, hv, rfl⟩ |
    ⟨id, sub, rfl, hnext, hsub, hlag, rfl⟩ | ⟨id, rfl, rfl⟩
  · exact ⟨fun _ => hr, fun _ => hof hcount⟩
  · -- the event is for nobody, and the counter goes up
    refine ⟨fun h => ?_, fun h => absurd hr h⟩
    have hbad : s.health.broadcastDrops + 1 = s.lost := h.counted
    omega
  · refine ⟨fun _ => trivial, fun _ => hof ?_⟩
    show s.health.broadcastDrops = sumOn _ (s.subscribers.insert id _)
    rw [sumOn_insert_of_notMem _ _ hid, hcount]
    exact (Nat.zero_add _).symm
  · refine ⟨fun _ next hn => ?_, fun _ => hof ?_⟩
    · obtain rfl := Option.some.inj (hnext.symm.trans hn)
      exact hold
    · show s.health.broadcastDrops = sumOn _ (s.subscribers.insert id _)
      have hlost := lost_insert hsub (sub.deliver (.value event))
      have hmiss : (sub.deliver (.value event)).missed = sub.missed := rfl
      rw [hmiss] at hlost
      omega
  · -- the receiver has fallen behind, and nobody counts
    constructor
    · intro h
      have hbad : s.health.broadcastDrops = sumOn (fun _ sub => sub.missed.length)
          (s.subscribers.insert id (sub.deliver (.lagged (s.channel.oldest - sub.next)))) := h.counted
      have hlost := lost_insert hsub (sub.deliver (.lagged (s.channel.oldest - sub.next)))
      have hmiss : (sub.deliver (.lagged (s.channel.oldest - sub.next))).missed.length =
          sub.missed.length + (s.channel.oldest - sub.next) := by
        simp [Subscriber.deliver]
      omega
    · intro h
      exact absurd (h sub.next hnext) (not_le.2 hlag)
  · exact ⟨fun _ => trivial, fun _ => hof hcount⟩

/-- In every run, whatever the size of the channel and whoever subscribes, every stream is faithful
and the drop counter counts the events lost, exactly when every event finds a receiver and no
receiver has fallen behind when it receives. -/
theorem noSilentLoss_throughout_iff (slots : Nat) (acts : List StreamAction) :
    Throughout step NoSilentLoss (init slots) acts ↔ EachStep step Lossless (init slots) acts := by
  have hstep : ∀ s a t, Inv s → Inv t → NoSilentLoss s → step s a = some t →
      (NoSilentLoss t ↔ Lossless s a) := fun _ _ _ hi hi' hp ht => noSilentLoss_step_iff hi hi' hp ht
  have hinv : Throughout step Inv (init slots) acts :=
    throughout_of_inv (fun _ _ _ hi ht => inv_step hi ht) (inv_init slots) acts
  have hinit : (init slots).NoSilentLoss :=
    ⟨(inv_init slots).fits, (inv_init slots).faithful, rfl⟩
  exact throughout_iff_eachStep hstep hinv hinit

/-- Whatever happens, the output of every stream is what it did not miss. -/
theorem faithful_throughout (slots : Nat) (acts : List StreamAction) :
    Throughout step (fun s => ∀ id sub, s.subscribers.lookup id = some sub → sub.Faithful s.channel.sent)
      (init slots) acts :=
  (throughout_of_inv (fun _ _ _ hi ht => inv_step hi ht) (inv_init slots) acts).mono
    fun _ hi => hi.faithful

def demoEvent (timestampNs : Int64) : NetworkEvent :=
  ⟨"default", "a", "10.0.0.5", "10.0.0.6", 1, 443, "TCP", "egress", 100, timestampNs⟩

/-- One slot, two events: the subscriber loses the first, and the counter stays at zero. -/
theorem not_noSilentLoss_lagged :
    ¬ Throughout step NoSilentLoss (init 1)
      [.subscribe 0 [], .send (demoEvent 1), .send (demoEvent 2), .poll 0] := by
  intro h
  have hcount := (h.last rfl).counted
  revert hcount
  decide

end Streams

end Orb8
