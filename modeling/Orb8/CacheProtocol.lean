import Orb8.CacheBound

/-!
# What the pod cache says about refused addresses

An address that is present is replaced, a new one is inserted if there is room and refused otherwise.
`podCacheEvictions` counts the refusals, and `podCacheAtCapacity` remembers the latest of them until a
removal of a pod leaves room.
-/

namespace Orb8
open AMap Trace

/-- The address that a call inserts, with its metadata. -/
def CacheCall.inserts : CacheCall → Option (UInt32 × PodMetadata)
  | .insert _ metadata | .insertByIp metadata => metadata.podIp.map fun ip => (ip, metadata)
  | .remove _ | .removePod _ => none

namespace PodCache

/-- The call inserts an address, which does not get the inserted metadata. -/
def refused (c : PodCache) (a : CacheCall) : Bool :=
  a.inserts.any fun e => (c.call a).getByIp e.1 != some e.2

/-- The number of refused insertions in a run. -/
def refusals (c : PodCache) : List CacheCall → Nat
  | [] => 0
  | a :: as => (if c.refused a then 1 else 0) + (c.call a).refusals as

/-- The call is a `remove_pod` that ends with room for an address. -/
def Frees (c : PodCache) : CacheCall → Prop
  | a@(.removePod _) => len (c.call a).byIp < c.maxEntries
  | _ => False

/-- What holds of a cache `c` after a run of `calls` on a new one. -/
structure CapacityProtocol (maxEntries : Nat) (calls : List CacheCall) (c : PodCache) : Prop where
  replaces : ∀ a ip md, a.inserts = some (ip, md) → ip ∈ c.byIp →
    (c.call a).getByIp ip = some md ∧ (c.call a).health.podCacheEvictions = c.health.podCacheEvictions
  inserts : ∀ a ip md, a.inserts = some (ip, md) → ip ∉ c.byIp →
    ((c.call a).getByIp ip = some md ↔ len c.byIp < maxEntries)
  evictions : c.health.podCacheEvictions = (PodCache.new maxEntries HealthState.new).refusals calls
  /-- The latest refusal of the run has no `remove_pod` after it that ends with room. -/
  flag : c.health.podCacheAtCapacity = true ↔
    SwitchedOn step (fun c a => c.refused a = true) (fun c a => c.refused a = true ∨ c.Frees a)
      (PodCache.new maxEntries HealthState.new) calls

variable {c c' : PodCache} {a : CacheCall} {ip : UInt32} {md : PodMetadata} {calls : List CacheCall}
  {maxEntries : Nat}

/-! ### One call -/

theorem call_of_inserts (h : a.inserts = some (ip, md)) : (c.call a).byIp = (c.insertIp ip md).byIp ∧
    (c.call a).health = (c.insertIp ip md).health := by
  cases a with
  | insert g metadata =>
    obtain ⟨ip', hip, hpair⟩ := Option.map_eq_some_iff.1 h
    obtain ⟨rfl, rfl⟩ := Prod.mk.inj hpair
    rw [PodCache.call, insert_eq, insertByIp_of_some hip]
    exact ⟨rfl, rfl⟩
  | insertByIp metadata =>
    obtain ⟨ip', hip, hpair⟩ := Option.map_eq_some_iff.1 h
    obtain ⟨rfl, rfl⟩ := Prod.mk.inj hpair
    rw [PodCache.call, insertByIp_of_some hip]
    exact ⟨rfl, rfl⟩
  | remove g => cases h
  | removePod uid => cases h

theorem call_of_admits (h : a.inserts = some (ip, md)) (hadmits : c.Admits ip) :
    (c.call a).getByIp ip = some md ∧ (c.call a).health = c.health := by
  obtain ⟨hmap, hhealth⟩ := call_of_inserts (c := c) h
  rw [insertIp_eq, if_pos hadmits] at hmap hhealth
  exact ⟨(congrArg (AList.lookup ip) hmap).trans (AList.lookup_insert _), hhealth⟩

theorem call_of_not_admits (h : a.inserts = some (ip, md)) (hn : ¬ c.Admits ip) :
    (c.call a).getByIp ip = none ∧
      (c.call a).health = (c.health.setPodCacheAtCapacity true).incPodCacheEvictions := by
  obtain ⟨hmap, hhealth⟩ := call_of_inserts (c := c) h
  rw [insertIp_eq, if_neg hn] at hmap hhealth
  refine ⟨?_, hhealth⟩
  rw [getByIp, hmap]
  exact AList.lookup_eq_none.2 fun hin => hn (.inl hin)

theorem refused_iff (h : a.inserts = some (ip, md)) : c.refused a = true ↔ ¬ c.Admits ip := by
  rw [refused, h, Option.any_some, bne_iff_ne]
  constructor
  · intro hne hadmits
    exact hne (call_of_admits h hadmits).1
  · intro hn hget
    rw [(call_of_not_admits h hn).1] at hget
    cases hget

theorem not_refused_of_none (h : a.inserts = none) : c.refused a = false := by rw [refused, h, Option.any_none]

theorem call_health_of_none (h : a.inserts = none) (hfrees : ¬ c.Frees a) : (c.call a).health = c.health := by
  cases a with
  | insert g metadata =>
    rw [PodCache.call, insert_eq, insertByIp_of_none (Option.map_eq_none_iff.1 h)]
  | insertByIp metadata => rw [PodCache.call, insertByIp_of_none (Option.map_eq_none_iff.1 h)]
  | remove g => rfl
  | removePod uid => exact removePod_health.trans (if_neg hfrees)

theorem call_health_of_frees (h : c.Frees a) : (c.call a).health = c.health.setPodCacheAtCapacity false := by
  cases a with
  | removePod uid => exact removePod_health.trans (if_pos h)
  | _ => exact h.elim

theorem Frees.inserts_eq_none (h : c.Frees a) : a.inserts = none := by
  cases a with
  | removePod uid => rfl
  | _ => exact h.elim

/-- A call leaves the health as it is, or it is a refusal, or it leaves room. -/
theorem call_health_cases (c : PodCache) (a : CacheCall) :
    (c.refused a = true ∧ ¬ c.Frees a ∧
      (c.call a).health = (c.health.setPodCacheAtCapacity true).incPodCacheEvictions) ∨
    (c.refused a = false ∧ c.Frees a ∧ (c.call a).health = c.health.setPodCacheAtCapacity false) ∨
    (c.refused a = false ∧ ¬ c.Frees a ∧ (c.call a).health = c.health) := by
  cases hins : a.inserts with
  | none =>
    have hnot := not_refused_of_none (c := c) hins
    by_cases hfrees : c.Frees a
    · exact .inr (.inl ⟨hnot, hfrees, call_health_of_frees hfrees⟩)
    · exact .inr (.inr ⟨hnot, hfrees, call_health_of_none hins hfrees⟩)
  | some e =>
    obtain ⟨ip, md⟩ := e
    have hfrees : ¬ c.Frees a := fun h => by rw [h.inserts_eq_none] at hins; cases hins
    by_cases hadmits : c.Admits ip
    · have hnot : c.refused a = false := by
        rw [Bool.eq_false_iff, ne_eq, refused_iff hins, not_not]
        exact hadmits
      exact .inr (.inr ⟨hnot, hfrees, (call_of_admits hins hadmits).2⟩)
    · exact .inl ⟨(refused_iff hins).2 hadmits, hfrees, (call_of_not_admits hins hadmits).2⟩

/-! ### Runs -/

theorem call_maxEntries (c : PodCache) (a : CacheCall) : (c.call a).maxEntries = c.maxEntries := by
  cases a with
  | insert g md => exact insert_maxEntries
  | insertByIp md => exact (upserts_insertByIp (P := fun _ => True) md trivial).maxEntries
  | remove g => rfl
  | removePod uid => exact removePod_maxEntries

theorem podCacheEvictions_run (h : run step c calls = some c') :
    c'.health.podCacheEvictions = c.health.podCacheEvictions + c.refusals calls := by
  induction calls generalizing c with
  | nil =>
    obtain rfl := Option.some.inj h
    rfl
  | cons a calls ih =>
    rw [ih h, refusals, ← Nat.add_assoc]
    congr 1
    rcases call_health_cases c a with ⟨hr, -, hhealth⟩ | ⟨hr, -, hhealth⟩ | ⟨hr, -, hhealth⟩ <;>
      rw [hr, hhealth] <;> rfl

theorem podCacheAtCapacity_step_iff (h : step c a = some c') : c'.health.podCacheAtCapacity = true ↔
    c.refused a = true ∨ c.health.podCacheAtCapacity = true ∧ ¬ (c.refused a = true ∨ c.Frees a) := by
  obtain rfl := Option.some.inj h
  rcases call_health_cases c a with ⟨hr, -, hhealth⟩ | ⟨hr, hf, hhealth⟩ | ⟨hr, hf, hhealth⟩
  · exact iff_of_true (by rw [hhealth]; rfl) (.inl hr)
  · rw [hhealth, hr]
    simp [hf, HealthState.setPodCacheAtCapacity]
  · rw [hhealth, hr]
    simp [hf]

/-- After every run of calls, the cache replaces addresses that are present, inserts new ones exactly
if there is room, has counted what it refused, and shows by the flag whether it has had room again
since the latest refusal. -/
theorem capacityProtocol_of_run (maxEntries : Nat) (calls : List CacheCall) (c : PodCache)
    (h : run step (PodCache.new maxEntries HealthState.new) calls = some c) :
    CapacityProtocol maxEntries calls c := by
  have hmax : c.maxEntries = maxEntries := by
    have hstep : ∀ c a c', c.maxEntries = maxEntries → step c a = some c' → c'.maxEntries = maxEntries := by
      intro c a c' hc hc'
      obtain rfl := Option.some.inj hc'
      exact (call_maxEntries c a).trans hc
    exact run_inv (I := fun c => c.maxEntries = maxEntries) hstep rfl h
  refine ⟨fun a ip md hins hin => ?_, fun a ip md hins hout => ?_, ?_, ?_⟩
  · obtain ⟨hget, hhealth⟩ := call_of_admits hins (.inl hin)
    exact ⟨hget, by rw [hhealth]⟩
  · constructor
    · intro hget
      by_contra hfull
      have hn : ¬ c.Admits ip := fun hadmits => hfull (hmax ▸ hadmits.resolve_left hout)
      rw [(call_of_not_admits hins hn).1] at hget
      cases hget
    · intro hroom
      exact (call_of_admits hins (.inr (hmax.symm ▸ hroom))).1
  · rw [podCacheEvictions_run h]
    exact Nat.zero_add _
  · have hstep : ∀ c a c', True → step c a = some c' → (c'.health.podCacheAtCapacity = true ↔
        c.refused a = true ∨ c.health.podCacheAtCapacity = true ∧ ¬ (c.refused a = true ∨ c.Frees a)) :=
      fun _ _ _ _ hc => podCacheAtCapacity_step_iff hc
    have hnew : ¬ (PodCache.new maxEntries HealthState.new).health.podCacheAtCapacity = true := by
      simp [PodCache.new, HealthState.new]
    exact flag_iff_switchedOn (fun _ _ _ _ _ => trivial) hstep trivial hnew h

/-- Room for one address: a second one is refused, and the first pod is removed. -/
def refusedCalls : List CacheCall :=
  [.insertByIp ⟨"default", "a", "a", "", "", some 0x0500000A⟩,
    .insertByIp ⟨"default", "b", "b", "", "", some 0x0600000A⟩, .removePod "a"]

theorem capacityProtocol_of_run_demo : (PodCache.new 1 HealthState.new).refusals refusedCalls = 1 ∧
    ∀ c, run step (PodCache.new 1 HealthState.new) refusedCalls = some c →
      CapacityProtocol 1 refusedCalls c :=
  ⟨by decide, fun c h => capacityProtocol_of_run 1 refusedCalls c h⟩

end PodCache

end Orb8
