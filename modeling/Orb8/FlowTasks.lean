import Orb8.Aggregator
import Orb8.Lib.Trace

/-!
# The flow table under two tasks

The event loop calls `process_event`, the expiration task calls `expire_old_flows`, on one `DashMap`.
Here every `DashMap` call is one atomic step, the visit of one entry by an iterator and the decision
of `retain` on one entry included, and the two tasks interleave freely. A task's local variables live
in its program counter. `created`, `taken`, `swept` and `returned` are a history that no step reads,
but for the end of `retain`, which may have missed the entries created while it ran.
-/

namespace Orb8
open AMap Trace

/-- What a finished sweep saw: the two lengths, and how many entries its `retain` removed. -/
structure Sweep where
  before : Nat
  after : Nat
  removed : Nat
deriving DecidableEq, Repr

/-- `before - self.flows.len()` on `usize`; it wraps when it underflows. -/
def Sweep.expired (w : Sweep) : Nat :=
  if w.after ≤ w.before then w.before - w.after else w.before + 2 ^ 64 - w.after

/-- The history at the moment the sweep reads the first length. -/
structure Mark where
  before : Nat
  created : Nat
  taken : Nat
  swept : Nat
deriving DecidableEq, Repr

structure Shared where
  flows : FlowTable
  eventsProcessed : UInt64
  health : HealthState
  /-- The keys of the flows that were created, in order. -/
  created : List FlowKey
  /-- How many entries the `remove` calls of evictions took out. -/
  taken : Nat
  /-- How many entries the sweeps' `retain`s removed. -/
  swept : Nat
  returned : List Sweep
deriving DecidableEq

/-- The next `DashMap` call of `process_event`. -/
inductive LoopPc where
  | idle
  | getMut (key : FlowKey) (event : NetworkFlowEvent)
  | lenCheck (key : FlowKey) (event : NetworkFlowEvent)
  | snapshot (key : FlowKey) (event : NetworkFlowEvent) (candidates : List (FlowKey × Instant))
  | removing (key : FlowKey) (event : NetworkFlowEvent) (candidates : List FlowKey) (evicted : Nat)
  | entry (key : FlowKey) (event : NetworkFlowEvent)
  | capacityFlag
deriving DecidableEq

/-- The next `DashMap` call of `expire_old_flows`. -/
inductive SweepPc where
  | idle
  | lenBefore (now : Instant)
  | retaining (now : Instant) (mark : Mark) (decided : List FlowKey)
  | capacityFlag (sweep : Sweep)
deriving DecidableEq

inductive LoopAction where
  | processEvent (event : NetworkFlowEvent) (namespace_ podName : String)
  | getMut (now : Instant)
  | lenCheck
  | visit (key : FlowKey)
  | sort
  | remove
  | evictDone
  | entry (now : Instant)
  | capacityFlag
deriving DecidableEq

inductive SweepAction where
  | expireOldFlows (now : Instant)
  | lenBefore
  | retain (key : FlowKey)
  | lenAfter
  | capacityFlag
deriving DecidableEq

def loopStep (maxFlows : Nat) (g : Shared) (pc : LoopPc) : LoopAction → Option (Shared × LoopPc)
  | .processEvent event namespace_ podName =>
    match pc with
    | .idle => some ({ g with eventsProcessed := g.eventsProcessed + 1 },
        .getMut (flowKey event namespace_ podName) event)
    | _ => none
  | .getMut now =>
    match pc with
    | .getMut key event =>
      match g.flows.lookup key with
      | some stats => some ({ g with
          flows := g.flows.insert key (stats.update now event.timestampNs event.packetLen) }, .capacityFlag)
      | none => some (g, .lenCheck key event)
    | _ => none
  | .lenCheck =>
    match pc with
    | .lenCheck key event =>
      some (g, if len g.flows ≥ maxFlows then .snapshot key event [] else .entry key event)
    | _ => none
  | .visit k =>
    match pc with
    | .snapshot key event candidates =>
      match g.flows.lookup k with
      | some stats =>
        if k ∈ candidates.map Prod.fst then none
        else some (g, .snapshot key event (candidates ++ [(k, stats.lastSeen)]))
      | none => none
    | _ => none
  | .sort =>
    match pc with
    | .snapshot key event candidates =>
      -- the iterator ends when it has visited every entry
      if ∀ k ∈ g.flows.keys, k ∈ candidates.map Prod.fst then
        some (g, .removing key event ((oldest (evictCount maxFlows) candidates).map Prod.fst) 0)
      else none
    | _ => none
  | .remove =>
    match pc with
    | .removing key event (k :: candidates) evicted =>
      if k ∈ g.flows then some ({ g with flows := g.flows.erase k, taken := g.taken + 1 },
        .removing key event candidates (evicted + 1))
      else some (g, .removing key event candidates evicted)
    | _ => none
  | .evictDone =>
    match pc with
    | .removing key event [] evicted =>
      some ({ g with health := if evicted > 0 then g.health.incFlowEvictions evicted else g.health },
        .entry key event)
    | _ => none
  | .entry now =>
    match pc with
    | .entry key event => some ({ g with
        flows := FlowAggregator.entryInsert g.flows now key event
        created := if key ∈ g.flows then g.created else g.created ++ [key] }, .capacityFlag)
    | _ => none
  | .capacityFlag =>
    match pc with
    | .capacityFlag => some ({ g with health := highFlag maxFlows (len g.flows) g.health }, .idle)
    | _ => none

def sweepStep (maxFlows : Nat) (flowTimeout : Duration) (g : Shared) (pc : SweepPc) :
    SweepAction → Option (Shared × SweepPc)
  | .expireOldFlows now =>
    match pc with
    | .idle => some (g, .lenBefore now)
    | _ => none
  | .lenBefore =>
    match pc with
    | .lenBefore now => some (g, .retaining now ⟨len g.flows, g.created.length, g.taken, g.swept⟩ [])
    | _ => none
  | .retain k =>
    match pc with
    | .retaining now mark decided =>
      match g.flows.lookup k with
      | some stats =>
        if k ∈ decided then none
        else if FlowAggregator.unexpired flowTimeout now stats then
          some (g, .retaining now mark (decided ++ [k]))
        else some ({ g with flows := g.flows.erase k, swept := g.swept + 1 },
          .retaining now mark (decided ++ [k]))
      | none => none
    | _ => none
  | .lenAfter =>
    match pc with
    | .retaining _ mark decided =>
      -- `retain` has decided on every entry that was there all along
      if ∀ k ∈ g.flows.keys, k ∈ decided ∨ k ∈ g.created.drop mark.created then
        some (g, .capacityFlag ⟨mark.before, len g.flows, g.swept - mark.swept⟩)
      else none
    | _ => none
  | .capacityFlag =>
    match pc with
    | .capacityFlag sweep =>
      some ({ g with
        health := lowFlag maxFlows (len g.flows) g.health
        returned := g.returned ++ [sweep] }, .idle)
    | _ => none

structure Tasks where
  shared : Shared
  loop : LoopPc
  sweep : SweepPc
deriving DecidableEq

inductive TaskAction where
  | loop (a : LoopAction)
  | sweep (a : SweepAction)
deriving DecidableEq

namespace Tasks

def init : Tasks := ⟨⟨∅, 0, HealthState.new, [], 0, 0, []⟩, .idle, .idle⟩

def step (maxFlows : Nat) (flowTimeout : Duration) (s : Tasks) : TaskAction → Option Tasks
  | .loop a => (loopStep maxFlows s.shared s.loop a).map fun r => { s with shared := r.1, loop := r.2 }
  | .sweep a =>
    (sweepStep maxFlows flowTimeout s.shared s.sweep a).map fun r =>
      { s with shared := r.1, sweep := r.2 }

end Tasks

/-! ### What a step can do -/

section
variable {maxFlows : Nat} {flowTimeout : Duration} {g g' : Shared}

/-- The steps of the event loop, one constructor for each way to go on. -/
inductive LoopStep (maxFlows : Nat) (g : Shared) : LoopPc → LoopAction → Shared → LoopPc → Prop
  | processEvent (event namespace_ podName) :
    LoopStep maxFlows g .idle (.processEvent event namespace_ podName)
      { g with eventsProcessed := g.eventsProcessed + 1 } (.getMut (flowKey event namespace_ podName) event)
  | found (key event now stats) (h : g.flows.lookup key = some stats) :
    LoopStep maxFlows g (.getMut key event) (.getMut now)
      { g with flows := g.flows.insert key (stats.update now event.timestampNs event.packetLen) } .capacityFlag
  | missing (key event now) (h : g.flows.lookup key = none) :
    LoopStep maxFlows g (.getMut key event) (.getMut now) g (.lenCheck key event)
  | full (key event) (h : maxFlows ≤ len g.flows) :
    LoopStep maxFlows g (.lenCheck key event) .lenCheck g (.snapshot key event [])
  | room (key event) (h : len g.flows < maxFlows) :
    LoopStep maxFlows g (.lenCheck key event) .lenCheck g (.entry key event)
  | visit (key event candidates k stats) (h : g.flows.lookup k = some stats)
      (hnew : k ∉ candidates.map Prod.fst) :
    LoopStep maxFlows g (.snapshot key event candidates) (.visit k) g
      (.snapshot key event (candidates ++ [(k, stats.lastSeen)]))
  | sort (key event candidates) (h : ∀ k ∈ g.flows.keys, k ∈ candidates.map Prod.fst) :
    LoopStep maxFlows g (.snapshot key event candidates) .sort g
      (.removing key event ((oldest (evictCount maxFlows) candidates).map Prod.fst) 0)
  | remove (key event k candidates evicted) (h : k ∈ g.flows) :
    LoopStep maxFlows g (.removing key event (k :: candidates) evicted) .remove
      { g with flows := g.flows.erase k, taken := g.taken + 1 } (.removing key event candidates (evicted + 1))
  | gone (key event k candidates evicted) (h : k ∉ g.flows) :
    LoopStep maxFlows g (.removing key event (k :: candidates) evicted) .remove g
      (.removing key event candidates evicted)
  | evictDone (key event evicted) :
    LoopStep maxFlows g (.removing key event [] evicted) .evictDone
      { g with health := if evicted > 0 then g.health.incFlowEvictions evicted else g.health }
      (.entry key event)
  | entry (key event now) :
    LoopStep maxFlows g (.entry key event) (.entry now)
      { g with
        flows := FlowAggregator.entryInsert g.flows now key event
        created := if key ∈ g.flows then g.created else g.created ++ [key] } .capacityFlag
  | capacityFlag :
    LoopStep maxFlows g .capacityFlag .capacityFlag
      { g with health := highFlag maxFlows (len g.flows) g.health } .idle

theorem loopStep_cases {pc pc' : LoopPc} {l : LoopAction} (h : loopStep maxFlows g pc l = some (g', pc')) :
    LoopStep maxFlows g pc l g' pc' := by
  unfold loopStep at h
  cases l with
  | processEvent event namespace_ podName =>
    cases pc <;> simp only [reduceCtorEq, Option.some.injEq, Prod.mk.injEq] at h
    obtain ⟨rfl, rfl⟩ := h
    exact .processEvent event namespace_ podName
  | getMut now =>
    cases pc <;> simp only [reduceCtorEq] at h
    split at h
    · rename_i stats hl
      obtain ⟨rfl, rfl⟩ := Prod.mk.inj (Option.some.inj h)
      exact .found _ _ now stats hl
    · rename_i hl
      obtain ⟨rfl, rfl⟩ := Prod.mk.inj (Option.some.inj h)
      exact .missing _ _ now hl
  | lenCheck =>
    cases pc <;> simp only [reduceCtorEq] at h
    obtain ⟨rfl, rfl⟩ := Prod.mk.inj (Option.some.inj h)
    split
    · rename_i hfull
      exact .full _ _ hfull
    · rename_i hroom
      exact .room _ _ (not_le.1 hroom)
  | visit k =>
    cases pc <;> simp only [reduceCtorEq] at h
    split at h
    · rename_i stats hl
      split at h
      · cases h
      · rename_i hnew
        obtain ⟨rfl, rfl⟩ := Prod.mk.inj (Option.some.inj h)
        exact .visit _ _ _ k stats hl hnew
    · cases h
  | sort =>
    cases pc <;> simp only [reduceCtorEq] at h
    split at h
    · rename_i hall
      obtain ⟨rfl, rfl⟩ := Prod.mk.inj (Option.some.inj h)
      exact .sort _ _ _ hall
    · cases h
  | remove =>
    cases pc with
    | removing key event candidates evicted =>
      cases candidates with
      | nil => cases h
      | cons k candidates =>
        simp only at h
        split at h
        · rename_i hmem
          obtain ⟨rfl, rfl⟩ := Prod.mk.inj (Option.some.inj h)
          exact .remove _ _ _ _ _ hmem
        · rename_i hmem
          obtain ⟨rfl, rfl⟩ := Prod.mk.inj (Option.some.inj h)
          exact .gone _ _ _ _ _ hmem
    | _ => cases h
  | evictDone =>
    cases pc with
    | removing key event candidates evicted =>
      cases candidates with
      | nil =>
        obtain ⟨rfl, rfl⟩ := Prod.mk.inj (Option.some.inj h)
        exact .evictDone _ _ _
      | cons k candidates => cases h
    | _ => cases h
  | entry now =>
    cases pc <;> simp only [reduceCtorEq] at h
    obtain ⟨rfl, rfl⟩ := Prod.mk.inj (Option.some.inj h)
    exact .entry _ _ now
  | capacityFlag =>
    cases pc <;> simp only [reduceCtorEq] at h
    obtain ⟨rfl, rfl⟩ := Prod.mk.inj (Option.some.inj h)
    exact .capacityFlag

inductive SweepStep (maxFlows : Nat) (flowTimeout : Duration) (g : Shared) :
    SweepPc → SweepAction → Shared → SweepPc → Prop
  | expireOldFlows (now) :
    SweepStep maxFlows flowTimeout g .idle (.expireOldFlows now) g (.lenBefore now)
  | lenBefore (now) :
    SweepStep maxFlows flowTimeout g (.lenBefore now) .lenBefore g
      (.retaining now ⟨len g.flows, g.created.length, g.taken, g.swept⟩ [])
  | keep (now mark decided k stats) (h : g.flows.lookup k = some stats)
      (hlive : FlowAggregator.unexpired flowTimeout now stats = true) :
    SweepStep maxFlows flowTimeout g (.retaining now mark decided) (.retain k) g
      (.retaining now mark (decided ++ [k]))
  | remove (now mark decided k stats) (h : g.flows.lookup k = some stats)
      (hlive : FlowAggregator.unexpired flowTimeout now stats = false) :
    SweepStep maxFlows flowTimeout g (.retaining now mark decided) (.retain k)
      { g with flows := g.flows.erase k, swept := g.swept + 1 } (.retaining now mark (decided ++ [k]))
  | lenAfter (now mark decided)
      (h : ∀ k ∈ g.flows.keys, k ∈ decided ∨ k ∈ g.created.drop mark.created) :
    SweepStep maxFlows flowTimeout g (.retaining now mark decided) .lenAfter g
      (.capacityFlag ⟨mark.before, len g.flows, g.swept - mark.swept⟩)
  | capacityFlag (sweep) :
    SweepStep maxFlows flowTimeout g (.capacityFlag sweep) .capacityFlag
      { g with health := lowFlag maxFlows (len g.flows) g.health, returned := g.returned ++ [sweep] } .idle

theorem sweepStep_cases {pc pc' : SweepPc} {l : SweepAction}
    (h : sweepStep maxFlows flowTimeout g pc l = some (g', pc')) :
    SweepStep maxFlows flowTimeout g pc l g' pc' := by
  unfold sweepStep at h
  cases l with
  | expireOldFlows now =>
    cases pc <;> simp only [reduceCtorEq] at h
    obtain ⟨rfl, rfl⟩ := Prod.mk.inj (Option.some.inj h)
    exact .expireOldFlows now
  | lenBefore =>
    cases pc <;> simp only [reduceCtorEq] at h
    obtain ⟨rfl, rfl⟩ := Prod.mk.inj (Option.some.inj h)
    exact .lenBefore _
  | retain k =>
    cases pc <;> simp only [reduceCtorEq] at h
    split at h
    · rename_i stats hl
      split at h
      · cases h
      · split at h
        · rename_i hlive
          obtain ⟨rfl, rfl⟩ := Prod.mk.inj (Option.some.inj h)
          exact .keep _ _ _ k stats hl hlive
        · rename_i hlive
          obtain ⟨rfl, rfl⟩ := Prod.mk.inj (Option.some.inj h)
          exact .remove _ _ _ k stats hl (Bool.eq_false_iff.2 hlive)
    · cases h
  | lenAfter =>
    cases pc <;> simp only [reduceCtorEq] at h
    split at h
    · rename_i hall
      obtain ⟨rfl, rfl⟩ := Prod.mk.inj (Option.some.inj h)
      exact .lenAfter _ _ _ hall
    · cases h
  | capacityFlag =>
    cases pc <;> simp only [reduceCtorEq] at h
    obtain ⟨rfl, rfl⟩ := Prod.mk.inj (Option.some.inj h)
    exact .capacityFlag _

end

namespace Tasks
variable {maxFlows : Nat} {flowTimeout : Duration} {s t : Tasks} {a : TaskAction}

theorem step_cases (h : step maxFlows flowTimeout s a = some t) :
    (∃ l g' pc', a = .loop l ∧ LoopStep maxFlows s.shared s.loop l g' pc' ∧ t = ⟨g', pc', s.sweep⟩) ∨
    ∃ l g' pc', a = .sweep l ∧ SweepStep maxFlows flowTimeout s.shared s.sweep l g' pc' ∧
      t = ⟨g', s.loop, pc'⟩ := by
  cases a with
  | loop l =>
    obtain ⟨⟨g', pc'⟩, hr, rfl⟩ := Option.map_eq_some_iff.1 h
    exact .inl ⟨l, g', pc', rfl, loopStep_cases hr, rfl⟩
  | sweep l =>
    obtain ⟨⟨g', pc'⟩, hr, rfl⟩ := Option.map_eq_some_iff.1 h
    exact .inr ⟨l, g', pc', rfl, sweepStep_cases hr, rfl⟩

end Tasks

end Orb8
