import Orb8.FlowTasks

/-!
# The flow table stays within its bound

`process_event` checks the length, evicts and inserts in separate steps, and the expiration task may
take the candidates of an eviction away before they are removed. What saves the bound is that only
the event loop inserts: once the table has been seen below the bound it stays below until the
insertion, and while it is still at the bound, every candidate is still in it (`Fits`).
-/

namespace Orb8
open AMap Trace

def LoopPc.evicting : LoopPc → Bool
  | .snapshot .. | .removing .. => true
  | _ => false

/-- The entries that the eviction in progress has taken out and not counted yet. -/
def LoopPc.uncounted : LoopPc → Nat
  | .removing _ _ _ evicted => evicted
  | _ => 0

/-- The table fits in `bound` entries, with one to spare when an insertion comes next. -/
def Fits (bound : Nat) (flows : FlowTable) : LoopPc → Prop
  | .snapshot _ _ candidates => len flows ≤ bound ∧ (len flows = bound → ∀ c ∈ candidates, c.1 ∈ flows)
  | .removing _ _ candidates _ =>
    len flows ≤ bound ∧ (len flows = bound → ∃ k, candidates.head? = some k ∧ k ∈ flows)
  | .entry _ _ => len flows < bound
  | _ => len flows ≤ bound

section
variable {bound maxFlows n : Nat} {flows : FlowTable} {pc pc' : LoopPc} {l : LoopAction} {g g' : Shared}
  {k : FlowKey} {candidates : List (FlowKey × Instant)}

theorem Fits.le (h : Fits bound flows pc) : len flows ≤ bound := by
  cases pc with
  | snapshot | removing => exact h.1
  | entry => exact Nat.le_of_lt h
  | _ => exact h

theorem fits_of_lt (h : len flows < bound) : Fits bound flows pc := by
  cases pc with
  | snapshot | removing => exact ⟨h.le, fun he => absurd he h.ne⟩
  | entry => exact h
  | _ => exact h.le

/-- Whoever removes an entry makes room. -/
theorem Fits.erase (h : Fits bound flows pc) (hk : k ∈ flows) : Fits bound (flows.erase k) pc := by
  have hlen := len_erase_of_mem hk
  have hle := h.le
  exact fits_of_lt (by omega)

theorem one_le_evictCount (maxFlows : Nat) : 1 ≤ evictCount maxFlows := Nat.le_max_right ..

theorem exists_head_oldest (hn : 1 ≤ n) (h : candidates ≠ []) :
    ∃ c ∈ candidates, (oldest n candidates).head? = some c := by
  have htop := isTop_oldest n candidates
  cases ho : oldest n candidates with
  | nil =>
    have hlen := htop.length
    have hpos := List.length_pos_iff.2 h
    rw [ho, List.length_nil] at hlen
    omega
  | cons c rest => exact ⟨c, htop.mem (ho ▸ List.mem_cons_self), rfl⟩

theorem fits_sort (hb : 1 ≤ bound) (hn : 1 ≤ n) {key : FlowKey} {event : NetworkFlowEvent}
    (h : Fits bound flows (.snapshot key event candidates))
    (hall : ∀ k ∈ flows.keys, k ∈ candidates.map Prod.fst) :
    Fits bound flows (.removing key event ((oldest n candidates).map Prod.fst) 0) := by
  obtain ⟨hle, hin⟩ := h
  refine ⟨hle, fun hlen => ?_⟩
  have hne : candidates ≠ [] := by
    rintro rfl
    have hkeys : flows.keys = [] := List.eq_nil_iff_forall_not_mem.2 fun k hk => by simpa using hall k hk
    have hzero := length_keys flows
    rw [hkeys] at hzero
    have hzero : len flows = 0 := hzero.symm
    omega
  obtain ⟨c, hc, hhead⟩ := exists_head_oldest hn hne
  exact ⟨c.1, by simp [List.head?_map, hhead], hin hlen c hc⟩

theorem LoopStep.fits (hs : LoopStep maxFlows g pc l g' pc') (h : Fits (max maxFlows 1) g.flows pc) :
    Fits (max maxFlows 1) g'.flows pc' := by
  have hb : 1 ≤ max maxFlows 1 := Nat.le_max_right ..
  cases hs with
  | processEvent | missing | capacityFlag => exact h
  | found key event now stats hl =>
    show len (g.flows.insert key _) ≤ _
    rw [len_insert_of_mem _ (mem_iff_lookup.2 ⟨stats, hl⟩)]
    exact h
  | full key event hfull => exact ⟨h, fun _ c hc => nomatch hc⟩
  | room key event hroom => exact lt_of_lt_of_le hroom (Nat.le_max_left ..)
  | visit key event candidates k stats hk =>
    obtain ⟨hle, hin⟩ := h
    refine ⟨hle, fun hlen c hc => ?_⟩
    rcases List.mem_append.1 hc with hc | hc
    · exact hin hlen c hc
    · obtain rfl := List.mem_singleton.1 hc
      exact mem_iff_lookup.2 ⟨stats, hk⟩
  | sort key event candidates hall => exact fits_sort hb (one_le_evictCount _) h hall
  | remove key event k candidates evicted hk =>
    have hlen := len_erase_of_mem hk
    have hle := h.1
    exact fits_of_lt (show len (g.flows.erase k) < _ by omega)
  | gone key event k candidates evicted hk =>
    refine fits_of_lt (lt_of_le_of_ne h.1 fun hlen => ?_)
    obtain ⟨j, hj, hmem⟩ := h.2 hlen
    obtain rfl : k = j := Option.some.inj hj
    exact hk hmem
  | evictDone key event evicted =>
    refine lt_of_le_of_ne h.1 fun hlen => ?_
    obtain ⟨j, hj, -⟩ := h.2 hlen
    cases hj
  | entry key event now =>
    have hins := FlowAggregator.len_entryInsert_le g.flows now key event
    have hlt : len g.flows < max maxFlows 1 := h
    exact hins.trans hlt

theorem LoopStep.counted (hs : LoopStep maxFlows g pc l g' pc')
    (h : g.health.flowEvictions + pc.uncounted = g.taken) :
    g'.health.flowEvictions + pc'.uncounted = g'.taken := by
  cases hs with
  | processEvent | found | missing | full | room | visit | sort | gone | entry => exact h
  | remove =>
    show g.health.flowEvictions + (_ + 1) = g.taken + 1
    rw [← h]; rfl
  | evictDone key event evicted =>
    show (if evicted > 0 then g.health.incFlowEvictions evicted else g.health).flowEvictions + 0 = g.taken
    have h : g.health.flowEvictions + evicted = g.taken := h
    split
    · exact h
    · omega
  | capacityFlag =>
    show (highFlag _ _ _).flowEvictions + 0 = _
    rw [highFlag_flowEvictions]
    exact h

end

namespace Tasks
variable {maxFlows : Nat} {flowTimeout : Duration} {s t : Tasks} {a : TaskAction}

structure Inv (maxFlows : Nat) (s : Tasks) : Prop where
  fits : Fits (max maxFlows 1) s.shared.flows s.loop
  counted : s.shared.health.flowEvictions + s.loop.uncounted = s.shared.taken

theorem inv_init (maxFlows : Nat) : Inv maxFlows init := ⟨Nat.zero_le _, rfl⟩

theorem inv_step (h : Inv maxFlows s) (ht : step maxFlows flowTimeout s a = some t) : Inv maxFlows t := by
  obtain ⟨g, loop, sweep⟩ := s
  obtain ⟨hfits, hcount⟩ := h
  rcases step_cases ht with ⟨_, g', pc', -, hs, rfl⟩ | ⟨_, g', pc', -, hs, rfl⟩
  · exact ⟨hs.fits hfits, hs.counted hcount⟩
  · cases hs with
    | expireOldFlows | lenBefore | keep | lenAfter => exact ⟨hfits, hcount⟩
    | remove now mark decided k stats hk =>
      exact ⟨hfits.erase (mem_iff_lookup.2 ⟨stats, hk⟩), hcount⟩
    | capacityFlag =>
      refine ⟨hfits, ?_⟩
      show (lowFlag _ _ _).flowEvictions + _ = _
      rw [lowFlag_flowEvictions]
      exact hcount

/-- The table is within its bound, and the evictions are counted whenever none is in progress. -/
structure Bounded (maxFlows : Nat) (s : Tasks) : Prop where
  bounded : len s.shared.flows ≤ max maxFlows 1
  counted : s.loop.evicting = false → s.shared.health.flowEvictions = s.shared.taken

theorem Inv.bounded (h : Inv maxFlows s) : Bounded maxFlows s := by
  refine ⟨h.fits.le, fun hpc => ?_⟩
  rw [← h.counted]
  cases hl : s.loop <;> simp_all [LoopPc.evicting, LoopPc.uncounted]

/-- In every interleaving of the two tasks, the flow table never exceeds its bound in any
intermediate state, and `flow_evictions` counts exactly what evictions removed. -/
theorem bounded_throughout (maxFlows : Nat) (flowTimeout : Duration) (acts : List TaskAction) :
    Throughout (step maxFlows flowTimeout) (Bounded maxFlows) init acts :=
  (throughout_of_inv (fun _ _ _ h ht => inv_step h ht) (inv_init maxFlows) acts).mono
    fun _ h => h.bounded

end Tasks

end Orb8
