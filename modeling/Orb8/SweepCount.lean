import Orb8.TableBound

/-!
# What the expiration sweep counts

`expire_old_flows` subtracts the length of the table after its `retain` from the length before. In
between, the event loop may create flows and evict others. The history tells the three kinds of
change apart: created flows are live, evicted or swept. So a sweep counts exactly what its `retain`
removed if and only if the event loop created as many flows as it evicted between the two readings.
-/

namespace Orb8
open AMap Trace

/-- The sweep between its subtraction and its return. -/
def SweepPc.counted : SweepPc → List Sweep
  | .capacityFlag sweep => [sweep]
  | _ => []

namespace Sweep

/-- The subtraction does not underflow and counts the entries removed. -/
def Exact (w : Sweep) : Prop := w.after ≤ w.before ∧ w.expired = w.removed

theorem exact_iff (w : Sweep) : w.Exact ↔ w.before = w.after + w.removed := by
  unfold Exact expired
  split <;> omega

end Sweep

namespace Tasks

/-- Every sweep counted exactly what it removed, and between calls every flow created is accounted
for. -/
structure SweepsExact (s : Tasks) : Prop where
  exact : ∀ w ∈ s.shared.returned ++ s.sweep.counted, w.Exact
  conserved : s.loop = .idle → s.sweep = .idle →
    s.shared.created.length = len s.shared.flows + s.shared.health.flowEvictions +
      (s.shared.returned.map Sweep.expired).sum

/-- When the sweep reads the second length, the event loop has created as many flows as it has
evicted since the first. -/
def Balanced (s : Tasks) (a : TaskAction) : Prop :=
  a = .sweep .lenAfter → ∀ now mark decided, s.sweep = .retaining now mark decided →
    s.shared.created.length - mark.created = s.shared.taken - mark.taken

def removedBy (l : List Sweep) : Nat := (l.map Sweep.removed).sum

/-- What the history says of the sweep in progress; `total` is what the sweeps before it removed. -/
def SweepFits (g : Shared) (total : Nat) : SweepPc → Prop
  | .retaining _ mark _ =>
    mark.created = mark.before + mark.taken + mark.swept ∧ mark.created ≤ g.created.length ∧
      mark.taken ≤ g.taken ∧ mark.swept = total ∧ total ≤ g.swept
  | .capacityFlag sweep => total + sweep.removed = g.swept
  | _ => total = g.swept

/-- The history accounts for every flow. -/
structure History (s : Tasks) : Prop where
  created : s.shared.created.length = len s.shared.flows + s.shared.taken + s.shared.swept
  sweep : SweepFits s.shared (removedBy s.shared.returned) s.sweep

end Tasks

/-! ### The event loop -/

section
variable {maxFlows : Nat} {flowTimeout : Duration} {pc pc' : LoopPc} {l : LoopAction}
  {g g' : Shared}

theorem LoopStep.history (hs : LoopStep maxFlows g pc l g' pc') :
    g'.swept = g.swept ∧ g'.returned = g.returned ∧ g.created.length ≤ g'.created.length ∧
      g.taken ≤ g'.taken ∧
      (g.created.length = len g.flows + g.taken + g.swept →
        g'.created.length = len g'.flows + g'.taken + g'.swept) := by
  cases hs with
  | processEvent | missing | full | room | visit | sort | gone | evictDone | capacityFlag =>
    exact ⟨rfl, rfl, le_rfl, le_rfl, id⟩
  | found key event now stats hl =>
    refine ⟨rfl, rfl, le_rfl, le_rfl, fun h => ?_⟩
    show _ = len (g.flows.insert key _) + _ + _
    rw [len_insert_of_mem _ (mem_iff_lookup.2 ⟨stats, hl⟩)]
    exact h
  | remove key event k candidates evicted hk =>
    refine ⟨rfl, rfl, le_rfl, Nat.le_succ _, fun h => ?_⟩
    have hlen := len_erase_of_mem hk
    show g.created.length = len (g.flows.erase k) + (g.taken + 1) + g.swept
    omega
  | entry key event now =>
    refine ⟨rfl, rfl, ?_, le_rfl, fun h => ?_⟩
    · show _ ≤ (if key ∈ g.flows then g.created else g.created ++ [key]).length
      split
      · exact le_rfl
      · simp
    · show (if key ∈ g.flows then g.created else g.created ++ [key]).length =
        len (FlowAggregator.entryInsert g.flows now key event) + g.taken + g.swept
      unfold FlowAggregator.entryInsert
      split
      · rename_i hk
        rw [len_insert_of_mem _ hk]
        exact h
      · rename_i hk
        rw [len_insert_of_notMem _ hk, List.length_append, List.length_singleton]
        omega

end

namespace Tasks
variable {maxFlows : Nat} {flowTimeout : Duration} {s t : Tasks} {a : TaskAction}

theorem SweepFits.mono {g g' : Shared} {total : Nat} {pc : SweepPc} (h : SweepFits g total pc)
    (hswept : g'.swept = g.swept) (hcreated : g.created.length ≤ g'.created.length)
    (htaken : g.taken ≤ g'.taken) : SweepFits g' total pc := by
  cases pc with
  | retaining now mark decided =>
    obtain ⟨hmark, hc, ht, hs, hle⟩ := h
    exact ⟨hmark, hc.trans hcreated, ht.trans htaken, hs, hswept ▸ hle⟩
  | _ => unfold SweepFits at h ⊢; rwa [hswept]

theorem history_init : History init := ⟨rfl, rfl⟩

theorem history_step (h : s.History) (ht : step maxFlows flowTimeout s a = some t) : t.History := by
  obtain ⟨g, loop, sweep⟩ := s
  obtain ⟨hcreated, hsweep⟩ := h
  rcases step_cases ht with ⟨_, g', pc', -, hs, rfl⟩ | ⟨_, g', pc', -, hs, rfl⟩
  · obtain ⟨hswept, hret, hc, htaken, hsum⟩ := hs.history
    refine ⟨hsum hcreated, ?_⟩
    show SweepFits g' (removedBy g'.returned) sweep
    rw [hret]
    exact SweepFits.mono hsweep hswept hc htaken
  · cases hs with
    | expireOldFlows now => exact ⟨hcreated, hsweep⟩
    | lenBefore now => exact ⟨hcreated, hcreated, le_rfl, le_rfl, Eq.symm hsweep, Nat.le_of_eq hsweep⟩
    | keep now mark decided k stats hk => exact ⟨hcreated, hsweep⟩
    | remove now mark decided k stats hk =>
      obtain ⟨hmark, hc, htaken, hs, hle⟩ := hsweep
      refine ⟨?_, hmark, hc, htaken, hs, Nat.le_succ_of_le hle⟩
      have hlen : len (g.flows.erase k) + 1 = len g.flows := len_erase_of_mem (mem_iff_lookup.2 ⟨stats, hk⟩)
      have hcreated : g.created.length = len g.flows + g.taken + g.swept := hcreated
      show g.created.length = len (g.flows.erase k) + g.taken + (g.swept + 1)
      omega
    | lenAfter now mark decided =>
      obtain ⟨-, -, -, hs, hle⟩ := hsweep
      refine ⟨hcreated, ?_⟩
      show removedBy g.returned + (g.swept - mark.swept) = g.swept
      have hs : mark.swept = removedBy g.returned := hs
      have hle : removedBy g.returned ≤ g.swept := hle
      omega
    | capacityFlag sweep =>
      refine ⟨hcreated, ?_⟩
      show removedBy (g.returned ++ [sweep]) = g.swept
      have hsum : removedBy g.returned + sweep.removed = g.swept := hsweep
      simpa [removedBy] using hsum

/-! ### The sweeps -/

/-- Exact counts add up to what was removed, so the account is settled between calls. -/
theorem conserved_of_exact (h : s.History) (hi : Inv maxFlows s)
    (hexact : ∀ w ∈ s.shared.returned ++ s.sweep.counted, w.Exact) : s.SweepsExact := by
  refine ⟨hexact, fun hloop hsweep => ?_⟩
  have hsum : (s.shared.returned.map Sweep.expired).sum = removedBy s.shared.returned :=
    congrArg List.sum (List.map_congr_left fun w hw => (hexact w (List.mem_append_left _ hw)).2)
  have hswept := h.sweep
  rw [hsweep] at hswept
  have hswept : removedBy s.shared.returned = s.shared.swept := hswept
  have hcount := hi.counted
  rw [hloop] at hcount
  have hcount : s.shared.health.flowEvictions = s.shared.taken := hcount
  rw [h.created, hsum, hcount, hswept]

theorem exact_lenAfter_iff {now : Instant} {mark : Mark} {decided : List FlowKey} {g : Shared}
    {total : Nat} (h : g.created.length = len g.flows + g.taken + g.swept)
    (hsweep : SweepFits g total (.retaining now mark decided)) :
    Sweep.Exact ⟨mark.before, len g.flows, g.swept - mark.swept⟩ ↔
      g.created.length - mark.created = g.taken - mark.taken := by
  obtain ⟨hmark, hc, ht, hs, hle⟩ := hsweep
  rw [Sweep.exact_iff]
  show mark.before = len g.flows + (g.swept - mark.swept) ↔ _
  omega

theorem sweepsExact_step_iff (hi : Inv maxFlows t) (h : s.History) (h' : t.History) (hp : s.SweepsExact)
    (ht : step maxFlows flowTimeout s a = some t) : t.SweepsExact ↔ s.Balanced a := by
  obtain ⟨g, loop, sweep⟩ := s
  have hsame (heq : t.shared.returned ++ t.sweep.counted = g.returned ++ sweep.counted) : t.SweepsExact :=
    conserved_of_exact h' hi (heq ▸ hp.exact)
  rcases step_cases ht with ⟨_, g', pc', rfl, hs, rfl⟩ | ⟨_, g', pc', rfl, hs, rfl⟩
  · obtain ⟨-, hret, -⟩ := hs.history
    exact ⟨fun _ hl => (nomatch hl), fun _ => hsame (congrArg (· ++ sweep.counted) hret)⟩
  · cases hs with
    | expireOldFlows | lenBefore | keep | remove =>
      exact ⟨fun _ hl => (nomatch hl), fun _ => hsame rfl⟩
    | capacityFlag sweep =>
      exact ⟨fun _ hl => (nomatch hl), fun _ => hsame (List.append_nil _)⟩
    | lenAfter now mark decided =>
      have hiff := exact_lenAfter_iff h.created h.sweep
      constructor
      · rintro hx - now' mark' decided' he
        obtain ⟨rfl, rfl, rfl⟩ := SweepPc.retaining.inj he
        exact hiff.1 (hx.exact _ (List.mem_append_right _ (List.mem_singleton_self _)))
      · intro hbal
        refine conserved_of_exact h' hi fun w hw => ?_
        rcases List.mem_append.1 hw with hw | hw
        · exact hp.exact w (List.mem_append_left _ hw)
        · obtain rfl := List.mem_singleton.1 hw
          exact hiff.2 (hbal rfl now mark decided rfl)

theorem sweepsExact_init : SweepsExact init := ⟨fun _ hw => (nomatch hw), fun _ _ => rfl⟩

/-- In every interleaving, every sweep counts exactly what it removed, and every flow created is
accounted for between calls, exactly when between the two readings of every sweep the event loop
creates as many flows as it evicts. -/
theorem sweepsExact_throughout_iff (maxFlows : Nat) (flowTimeout : Duration) (acts : List TaskAction) :
    Throughout (step maxFlows flowTimeout) SweepsExact init acts ↔
      EachStep (step maxFlows flowTimeout) Balanced init acts := by
  have hstep : ∀ s a t, (Inv maxFlows s ∧ History s) → (Inv maxFlows t ∧ History t) → SweepsExact s →
      step maxFlows flowTimeout s a = some t → (SweepsExact t ↔ Balanced s a) :=
    fun _ _ _ hs ht hp h => sweepsExact_step_iff ht.1 hs.2 ht.2 hp h
  have hinv : Throughout (step maxFlows flowTimeout) (fun s => Inv maxFlows s ∧ History s) init acts :=
    throughout_of_inv (fun _ _ _ h ht => ⟨inv_step h.1 ht, history_step h.2 ht⟩)
      ⟨inv_init maxFlows, history_init⟩ acts
  exact throughout_iff_eachStep hstep hinv sweepsExact_init

/-- A flow is created between the two readings of a sweep that expires nothing: the length grows. -/
theorem not_sweepsExact_insertion :
    ¬ Throughout (step 10 30) SweepsExact init
      [.loop (.processEvent ⟨5, 0, 1, 2, 1, 443, 6, 1, 100⟩ "default" "a"), .loop (.getMut 0),
        .loop .lenCheck, .loop (.entry 0), .loop .capacityFlag,
        .sweep (.expireOldFlows 1), .sweep .lenBefore,
        .loop (.processEvent ⟨6, 0, 1, 2, 2, 443, 6, 1, 100⟩ "default" "a"), .loop (.getMut 1),
        .loop .lenCheck, .loop (.entry 1),
        .sweep (.retain ⟨"default", "a", 1, 2, 1, 443, 6, 1⟩), .sweep .lenAfter] := by
  intro h
  have hle := ((h.last rfl).exact ⟨1, 2, 0⟩ (by decide)).1
  revert hle
  decide

end Tasks

end Orb8
