import Orb8.PodLookup

/-!
# What a cleared capacity flag means

A pod that is refused is not remembered, and any Delete that leaves room clears the flag. So the flag
speaks for the whole cache as long as no Delete makes room, or finds room, while another pod is
missing.
-/

namespace Orb8
open AMap Trace

namespace CapacityFlag

def step (resolver : CgroupResolver) (c : PodCache) : PodCall → Option PodCache
  | .apply fs pod => some (handlePodApply resolver fs c pod)
  | .delete pod => some (handlePodDelete c pod)

/-- The addresses of the live pods: what a pod was last applied with, until it is deleted. -/
def seeAddress (address : String → Option UInt32) : PodCall → String → Option UInt32
  | .apply _ pod =>
    if pod.podUid = "" ∨ pod.ip = none then address else Function.update address pod.podUid pod.ip
  | .delete pod => if pod.podUid = "" then address else Function.update address pod.podUid none

/-- The pods that are applied keep their addresses, and no two of them have the same. -/
def FixedAddresses (calls : List PodCall) : Prop :=
  ∀ fs p fs' q x y, .apply fs p ∈ calls → .apply fs' q ∈ calls → p.podUid ≠ "" → q.podUid ≠ "" →
    p.ip = some x → q.ip = some y → (p.podUid = q.podUid ↔ x = y)

def Found (c : PodCache) (uid : String) (x : UInt32) : Prop :=
  ∃ m, c.getByIp x = some m ∧ m.podUid = uid

/-- If the flag is cleared, every live pod is found at its address. -/
def NoneMissing (s : PodCache × (String → Option UInt32)) : Prop :=
  s.1.health.podCacheAtCapacity = false → ∀ uid x, s.2 uid = some x → Found s.1 uid x

/-- If a Delete finds room, or makes some by taking out an entry of its pod, then every other live pod
is found at its address. -/
def ClearsRightly (s : PodCache × (String → Option UInt32)) (a : PodCall) : Prop :=
  ∀ pod, a = .delete pod → pod.podUid ≠ "" →
    (len s.1.byIp < s.1.maxEntries ∨ ∃ x m, s.1.byIp.lookup x = some m ∧ m.podUid = pod.podUid) →
      ∀ uid x, uid ≠ pod.podUid → s.2 uid = some x → Found s.1 uid x

/-- What a run of `calls` keeps. -/
structure Inv (calls : List PodCall) (s : PodCache × (String → Option UInt32)) : Prop where
  size : len s.1.byIp ≤ s.1.maxEntries
  origin : ∀ uid x, s.2 uid = some x →
    ∃ fs pod, .apply fs pod ∈ calls ∧ pod.podUid = uid ∧ uid ≠ "" ∧ pod.ip = some x

variable {resolver : CgroupResolver} {fs : Fs} {c : PodCache} {pod : Pod} {md : PodMetadata} {uid : String}
  {x : UInt32} {calls : List PodCall} {s t : PodCache × (String → Option UInt32)} {a : PodCall}
  {address : String → Option UInt32}

/-! ### The flag -/

theorem insertByIp_health_of_admits (h : ∀ x, md.podIp = some x → c.Admits x) :
    (c.insertByIp md).health = c.health := by
  cases hip : md.podIp with
  | none => rw [PodCache.insertByIp_of_none hip]
  | some x => rw [PodCache.insertByIp_of_some hip, PodCache.insertIp_eq, if_pos (h x hip)]

theorem insertByIp_flag_of_refused (hip : md.podIp = some x) (h : ¬ c.Admits x) :
    (c.insertByIp md).health.podCacheAtCapacity = true := by
  rw [PodCache.insertByIp_of_some hip, PodCache.insertIp_eq, if_neg h]
  rfl

/-- The flag after an Apply: raised if the address is refused, as it was otherwise. -/
structure Marks (oip : Option UInt32) (c c' : PodCache) : Prop where
  upserts : PodCache.Upserts (fun _ => True) oip c c'
  kept : (∀ x, oip = some x → c.Admits x) → c'.health.podCacheAtCapacity = c.health.podCacheAtCapacity
  raised : ∀ x, oip = some x → ¬ c.Admits x → c'.health.podCacheAtCapacity = true

theorem marks_insertByIp (c : PodCache) (md : PodMetadata) : Marks md.podIp c (c.insertByIp md) where
  upserts := PodCache.upserts_insertByIp md trivial
  kept := fun h => by rw [insertByIp_health_of_admits h]
  raised := fun _ hip h => insertByIp_flag_of_refused hip h

theorem Marks.trans {oip : Option UInt32} {c c' c'' : PodCache} (h : Marks oip c c') (h' : Marks oip c' c'') :
    Marks oip c c'' := by
  refine ⟨h.upserts.trans h'.upserts, fun hall => ?_, fun x hx hn => ?_⟩
  · rw [h'.kept fun x hx => ?_, h.kept hall]
    obtain ⟨m, hm, -⟩ := h.upserts.own x hx (hall x hx)
    exact .inl (mem_iff_lookup.2 ⟨m, hm⟩)
  · have hflag := h.raised x hx hn
    by_cases ha : c'.Admits x
    · rw [h'.kept fun y hy => (Option.some.inj (hx.symm.trans hy)) ▸ ha, hflag]
    · exact h'.raised x hx ha

theorem Marks.insert {oip : Option UInt32} {c c' : PodCache} (h : Marks oip c c') (g : UInt64)
    (hip : md.podIp = oip) : Marks oip c (c'.insert g md) := by
  subst hip
  obtain ⟨⟨hother, hown, hrefused, hmax⟩, hkept, hraised⟩ := h.trans (marks_insertByIp c' md)
  exact ⟨⟨hother, hown, hrefused, hmax⟩, hkept, hraised⟩

theorem marks_handlePodApply (resolver : CgroupResolver) (fs : Fs) (c : PodCache) (hu : pod.podUid ≠ "") :
    Marks pod.ip c (handlePodApply resolver fs c pod) := by
  refine handlePodApply_induct hu (fun hnone => ?_) (fun x md _ _ hip => ?_) fun c' g md h _ hip => ?_
  · rw [hnone]
    exact ⟨.refl_none, fun _ => rfl, fun _ h => by cases h⟩
  · rw [← hip]
    exact marks_insertByIp c md
  · exact h.insert g hip

/-! ### The number of entries -/

theorem size_insertByIp (h : len c.byIp ≤ c.maxEntries) :
    len (c.insertByIp md).byIp ≤ (c.insertByIp md).maxEntries :=
  (PodCache.len_byIp_insertByIp h).trans
    (PodCache.upserts_insertByIp (P := fun _ => True) md trivial).maxEntries.ge

theorem size_handlePodApply (h : len c.byIp ≤ c.maxEntries) :
    len (handlePodApply resolver fs c pod).byIp ≤ (handlePodApply resolver fs c pod).maxEntries := by
  by_cases hu : pod.podUid = ""
  · rwa [handlePodApply_of_uid_empty hu]
  · exact handlePodApply_induct (R := fun c' => len c'.byIp ≤ c'.maxEntries) hu (fun _ => h)
      (fun _ _ _ _ _ => size_insertByIp h) fun _ _ _ h' _ _ => size_insertByIp h'

theorem size_removePod (h : len c.byIp ≤ c.maxEntries) :
    len (c.removePod uid).byIp ≤ (c.removePod uid).maxEntries := by
  rw [PodCache.removePod_byIp, PodCache.removePod_maxEntries]
  exact (len_retain_le _ _).trans h

/-- There is room after a Delete if there was, or if an entry of the pod goes. -/
theorem room_removePod_iff (uid : String) (h : len c.byIp ≤ c.maxEntries) : len (c.removePod uid).byIp < c.maxEntries ↔
    len c.byIp < c.maxEntries ∨ ∃ x m, c.byIp.lookup x = some m ∧ m.podUid = uid := by
  have hlt : len (c.removePod uid).byIp < len c.byIp ↔ ∃ x m, c.byIp.lookup x = some m ∧ m.podUid = uid := by
    rw [PodCache.removePod_byIp, len_retain_lt_iff]
    simp
  have hle : len (c.removePod uid).byIp ≤ len c.byIp := by
    rw [PodCache.removePod_byIp]
    exact len_retain_le _ _
  rw [← hlt]
  omega

/-! ### Addresses -/

theorem seeAddress_apply (hu : pod.podUid ≠ "") (hip : pod.ip = some x) :
    seeAddress address (.apply fs pod) = Function.update address pod.podUid (some x) := by
  simp [seeAddress, hu, hip]

theorem seeAddress_apply_of_none (hip : pod.ip = none) : seeAddress address (.apply fs pod) = address := by
  simp [seeAddress, hip]

theorem seeAddress_delete (hu : pod.podUid ≠ "") :
    seeAddress address (.delete pod) = Function.update address pod.podUid none := if_neg hu

theorem seeAddress_of_uid_empty (hu : a.pod.podUid = "") : seeAddress address a = address := by
  cases a <;> simp only [PodCall.pod] at hu <;> simp [seeAddress, hu]

/-- What a call can do, apart from the calls with an empty uid, which do nothing. -/
theorem step_cases (ht : observe (step resolver) seeAddress s a = some t) :
    (a.pod.podUid = "" ∧ t = s) ∨
    (∃ fs pod, a = .apply fs pod ∧ pod.podUid ≠ "" ∧ pod.ip = none ∧
      t = (handlePodApply resolver fs s.1 pod, s.2)) ∨
    (∃ fs pod x, a = .apply fs pod ∧ pod.podUid ≠ "" ∧ pod.ip = some x ∧
      t = (handlePodApply resolver fs s.1 pod, Function.update s.2 pod.podUid (some x))) ∨
    ∃ pod, a = .delete pod ∧ pod.podUid ≠ "" ∧
      t = (s.1.removePod pod.podUid, Function.update s.2 pod.podUid none) := by
  obtain ⟨c, address⟩ := s
  obtain ⟨c', address'⟩ := t
  obtain ⟨hstep, rfl⟩ := observe_eq_some.1 ht
  cases a with
  | apply fs pod =>
    obtain rfl := Option.some.inj hstep
    by_cases hu : pod.podUid = ""
    · exact .inl ⟨hu, by rw [seeAddress_of_uid_empty (a := .apply fs pod) hu, handlePodApply_of_uid_empty hu]⟩
    · cases hip : pod.ip with
      | none => exact .inr (.inl ⟨fs, pod, rfl, hu, hip, by rw [seeAddress_apply_of_none hip]⟩)
      | some x => exact .inr (.inr (.inl ⟨fs, pod, x, rfl, hu, hip, by rw [seeAddress_apply hu hip]⟩))
  | delete pod =>
    obtain rfl := Option.some.inj hstep
    by_cases hu : pod.podUid = ""
    · exact .inl ⟨hu, by rw [seeAddress_of_uid_empty (a := .delete pod) hu, handlePodDelete, if_pos hu]⟩
    · exact .inr (.inr (.inr ⟨pod, rfl, hu, by rw [seeAddress_delete hu, handlePodDelete, if_neg hu]⟩))

theorem inv_step (h : Inv calls s) (ha : a ∈ calls) (ht : observe (step resolver) seeAddress s a = some t) :
    Inv calls t := by
  rcases step_cases ht with ⟨-, rfl⟩ | ⟨fs, pod, -, -, -, rfl⟩ | ⟨fs, pod, x, rfl, hu, hip, rfl⟩ |
    ⟨pod, -, -, rfl⟩
  · exact h
  · exact ⟨size_handlePodApply h.size, h.origin⟩
  · refine ⟨size_handlePodApply h.size, fun uid y hy => ?_⟩
    by_cases huid : uid = pod.podUid
    · subst huid
      obtain rfl : x = y := by simpa using hy
      exact ⟨fs, pod, ha, rfl, hu, hip⟩
    · exact h.origin uid y (by simpa [huid] using hy)
  · refine ⟨size_removePod h.size, fun uid y hy => ?_⟩
    by_cases huid : uid = pod.podUid
    · simp [huid] at hy
    · exact h.origin uid y (by simpa [huid] using hy)

/-! ### The step -/

theorem noneMissing_apply (hfixed : FixedAddresses calls) (hinv : Inv calls s) (ha : .apply fs pod ∈ calls)
    (hu : pod.podUid ≠ "") (hip : pod.ip = some x) (h : NoneMissing s) :
    NoneMissing (handlePodApply resolver fs s.1 pod, Function.update s.2 pod.podUid (some x)) := by
  obtain ⟨hups, hkept, hraised⟩ := marks_handlePodApply resolver fs s.1 hu
  intro hflag uid y hy
  have hroom : s.1.Admits x := by
    by_contra hfull
    exact absurd (hraised x hip hfull) (by simpa using hflag)
  have hclear : s.1.health.podCacheAtCapacity = false := by
    rw [← hkept fun y hy => (Option.some.inj (hip.symm.trans hy)) ▸ hroom]
    exact hflag
  by_cases huid : uid = pod.podUid
  · subst huid
    obtain rfl : x = y := by simpa using hy
    obtain ⟨m, hm, ho⟩ := (upserts_handlePodApply resolver fs s.1 hu).own x hip hroom
    exact ⟨m, hm, ho.1⟩
  · have hy : s.2 uid = some y := by simpa [huid] using hy
    obtain ⟨fs', q, hq, rfl, hqu, hqip⟩ := hinv.origin uid y hy
    have hne : pod.ip ≠ some y := by
      intro hpy
      exact huid ((hfixed fs pod fs' q y y ha hq hu hqu hpy hqip).2 rfl).symm
    obtain ⟨m, hm, hmu⟩ := h hclear q.podUid y hy
    exact ⟨m, (hups.other y hne).trans hm, hmu⟩

theorem noneMissing_delete_iff (hinv : Inv calls s) (hu : pod.podUid ≠ "") (h : NoneMissing s) :
    NoneMissing (s.1.removePod pod.podUid, Function.update s.2 pod.podUid none) ↔
      ClearsRightly s (.delete pod) := by
  have hroom := room_removePod_iff pod.podUid hinv.size
  have hfound (uid : String) (y : UInt32) (huid : uid ≠ pod.podUid) :
      Found (s.1.removePod pod.podUid) uid y ↔ Found s.1 uid y := by
    constructor
    · rintro ⟨m, hm, hmu⟩
      exact ⟨m, (PodCache.lookup_removePod.1 hm).1, hmu⟩
    · rintro ⟨m, hm, rfl⟩
      exact ⟨m, PodCache.lookup_removePod.2 ⟨hm, huid⟩, rfl⟩
  constructor
  · rintro hN _ ⟨⟩ - hfree uid y huid hy
    have hclear : (s.1.removePod pod.podUid).health.podCacheAtCapacity = false := by
      rw [PodCache.removePod_health, if_pos (hroom.2 hfree)]
      rfl
    exact (hfound uid y huid).1 (hN hclear uid y (by simpa [huid] using hy))
  · intro hC hflag uid y hy
    by_cases huid : uid = pod.podUid
    · simp [huid] at hy
    · have hy : s.2 uid = some y := by simpa [huid] using hy
      rw [hfound uid y huid]
      by_cases hfree : len (s.1.removePod pod.podUid).byIp < s.1.maxEntries
      · exact hC pod rfl hu (hroom.1 hfree) uid y huid hy
      · have hclear : (s.1.removePod pod.podUid).health = s.1.health := by
          rw [PodCache.removePod_health, if_neg hfree]
        exact h (hclear ▸ hflag) uid y hy

theorem noneMissing_step_iff (hfixed : FixedAddresses calls) (hinv : Inv calls s) (ha : a ∈ calls)
    (h : NoneMissing s) (ht : observe (step resolver) seeAddress s a = some t) :
    NoneMissing t ↔ ClearsRightly s a := by
  rcases step_cases ht with ⟨hu, rfl⟩ | ⟨fs, pod, rfl, hu, hip, rfl⟩ | ⟨fs, pod, x, rfl, hu, hip, rfl⟩ |
    ⟨pod, rfl, hu, rfl⟩
  · exact iff_of_true h fun pod hp hne => absurd hu (hp ▸ hne)
  · obtain ⟨hups, hkept, -⟩ := marks_handlePodApply resolver fs s.1 hu
    refine iff_of_true (fun hflag uid y hy => ?_) fun pod hp => (nomatch hp)
    have hclear := (hkept fun y hy => by rw [hip] at hy; cases hy).symm.trans hflag
    obtain ⟨m, hm, hmu⟩ := h hclear uid y hy
    exact ⟨m, (hups.other y (by simp [hip])).trans hm, hmu⟩
  · exact iff_of_true (noneMissing_apply hfixed hinv ha hu hip h) fun pod hp => (nomatch hp)
  · exact noneMissing_delete_iff hinv hu h

/-- In every run of calls over pods with fixed and distinct addresses, a cleared flag means in every
state that no live pod is missing, exactly when no Delete finds or makes room while another live pod is
missing. -/
theorem noneMissing_throughout_iff (resolver : CgroupResolver) (maxEntries : Nat) (calls : List PodCall)
    (hfixed : FixedAddresses calls) :
    Throughout (observe (step resolver) seeAddress) NoneMissing
        (PodCache.new maxEntries HealthState.new, fun _ => none) calls ↔
      EachStep (observe (step resolver) seeAddress) ClearsRightly
        (PodCache.new maxEntries HealthState.new, fun _ => none) calls := by
  have hinit : Inv calls (PodCache.new maxEntries HealthState.new, fun _ => none) :=
    ⟨Nat.zero_le _, fun _ _ h => by cases h⟩
  have hinv : ∀ s a t, Inv calls s → a ∈ calls → observe (step resolver) seeAddress s a = some t →
      Inv calls t := fun _ _ _ h ha ht => inv_step h ha ht
  have hstep : ∀ s a t, Inv calls s → Inv calls t → a ∈ calls → NoneMissing s →
      observe (step resolver) seeAddress s a = some t → (NoneMissing t ↔ ClearsRightly s a) :=
    fun _ _ _ hi _ ha h ht => noneMissing_step_iff hfixed hi ha h ht
  have hall : ∀ a ∈ calls, a ∈ calls := fun _ ha => ha
  exact throughout_iff_eachStep_of_forall hstep (throughout_of_inv_of_forall hinv hinit hall) hall
    fun _ _ _ h => by cases h

/-- Room for one pod: `b` is refused, and then `a` is deleted. -/
def overflow : List PodCall :=
  [.apply demoFs (demoPod "a" "10.0.0.5"), .apply demoFs (demoPod "b" "10.0.0.6"),
    .delete (demoPod "a" "10.0.0.5")]

theorem fixedAddresses_overflow : FixedAddresses overflow := by
  intro fs p fs' q x y hp hq _ _ hx hy
  simp only [overflow, List.mem_cons, PodCall.apply.injEq, reduceCtorEq, List.not_mem_nil, or_false] at hp hq
  have ha : (demoPod "a" "10.0.0.5").ip = some 0x0500000A := by decide
  have hb : (demoPod "b" "10.0.0.6").ip = some 0x0600000A := by decide
  rcases hp with ⟨-, rfl⟩ | ⟨-, rfl⟩ <;> rcases hq with ⟨-, rfl⟩ | ⟨-, rfl⟩ <;>
    simp only [ha, hb, Option.some.injEq] at hx hy <;> subst hx hy <;> decide

theorem noneMissing_throughout_iff_overflow :
    Throughout (observe (step .new) seeAddress) NoneMissing (PodCache.new 1 HealthState.new, fun _ => none)
        overflow ↔
      EachStep (observe (step .new) seeAddress) ClearsRightly
        (PodCache.new 1 HealthState.new, fun _ => none) overflow :=
  noneMissing_throughout_iff .new 1 overflow fixedAddresses_overflow

/-- Pod `b` still lives and is still missing, but the flag is cleared. -/
theorem not_noneMissing_overflow :
    ¬ (FixedAddresses overflow → Throughout (observe (step .new) seeAddress) NoneMissing
      (PodCache.new 1 HealthState.new, fun _ => none) overflow) := by
  intro h
  obtain ⟨m, hm, -⟩ := (h fixedAddresses_overflow).last rfl (by decide) "b" 0x0600000A (by decide)
  revert hm
  decide +revert

end CapacityFlag

end Orb8
