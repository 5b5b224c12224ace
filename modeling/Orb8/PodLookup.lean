import Orb8.K8sWatcher
import Mathlib.Data.Finset.Basic

/-!
# What a lookup by address means

`Cluster` is what the calls of `handle_pod_apply` and `handle_pod_delete` say about the pods, without
any cache: which pods live, and the address each one reported last. `Sound` and `Complete` compare
the cache's answers with it. Neither holds of all call sequences, because an Apply never takes back
the address the pod had before and a Delete takes it away from every other pod that shares it; both
are kept exactly by the calls that do neither.
-/

namespace Orb8
open AMap Trace

structure Cluster where
  /-- Pods applied and not deleted since. -/
  live : Finset String
  /-- The pod IP of the latest Apply. -/
  latestIp : String → Option UInt32
  /-- The pod IP of the latest Apply that carried a status. -/
  statusIp : String → Option UInt32

namespace Cluster

def empty : Cluster := ⟨∅, fun _ => none, fun _ => none⟩

def apply (v : Cluster) (pod : Pod) : Cluster :=
  if pod.podUid = "" then v
  else
    { live := insert pod.podUid v.live
      latestIp := Function.update v.latestIp pod.podUid pod.ip
      statusIp := if pod.status.isSome then Function.update v.statusIp pod.podUid pod.ip else v.statusIp }

def delete (v : Cluster) (pod : Pod) : Cluster :=
  if pod.podUid = "" then v else { v with live := v.live.erase pod.podUid }

end Cluster

inductive PodCall where
  | apply (fs : Fs) (pod : Pod)
  | delete (pod : Pod)

def PodCall.pod : PodCall → Pod
  | .apply _ pod | .delete pod => pod

/-- The address that the call leaves its pod with. -/
def PodCall.newIp : PodCall → Option UInt32
  | .apply _ pod => pod.ip
  | .delete _ => none

/-- The cache beside the cluster it is a cache of. -/
structure Tracked where
  cache : PodCache
  cluster : Cluster

namespace Tracked

def init (maxEntries : Nat) : Tracked := ⟨PodCache.new maxEntries HealthState.new, .empty⟩

def step (resolver : CgroupResolver) (s : Tracked) : PodCall → Option Tracked
  | .apply fs pod => some ⟨handlePodApply resolver fs s.cache pod, s.cluster.apply pod⟩
  | .delete pod => some ⟨handlePodDelete s.cache pod, s.cluster.delete pod⟩

def HasRoom (s : Tracked) : Prop := s.cache.ipEntriesCount < s.cache.maxEntries

/-- Every entry is of a live pod that reports its address. -/
def Sound (s : Tracked) : Prop :=
  ∀ x m, s.cache.byIp.lookup x = some m →
    m.podUid ∈ s.cluster.live ∧ s.cluster.statusIp m.podUid = some x

/-- Every address that a live pod reports is answered with a live pod that reports it. -/
def Complete (s : Tracked) : Prop :=
  ∀ x uid, uid ∈ s.cluster.live → s.cluster.latestIp uid = some x →
    ∃ m, s.cache.getByIp x = some m ∧ m.podUid ∈ s.cluster.live ∧ s.cluster.latestIp m.podUid = some x

/-- The pod of the call holds no address but the one the call leaves it with. -/
def LeavesNoOld (s : Tracked) (a : PodCall) : Prop :=
  ∀ fs pod, a = .apply fs pod → pod.podUid ≠ "" → pod.status.isSome →
    ∀ x m, s.cache.byIp.lookup x = some m → m.podUid = pod.podUid → pod.ip = some x

/-- No other live pod reports an address that the pod of the call holds and gives up. -/
def OrphansNone (s : Tracked) (a : PodCall) : Prop :=
  a.pod.podUid ≠ "" → ∀ x m, s.cache.byIp.lookup x = some m → m.podUid = a.pod.podUid →
    a.newIp ≠ some x → ∀ uid ∈ s.cluster.live, uid ≠ a.pod.podUid → s.cluster.latestIp uid ≠ some x

variable {resolver : CgroupResolver} {s t : Tracked} {a : PodCall} {fs : Fs} {pod : Pod}
  {x : UInt32} {m : PodMetadata}

theorem step_cases (h : step resolver s a = some t) :
    (a.pod.podUid = "" ∧ t = s) ∨
    (∃ fs pod, a = .apply fs pod ∧ pod.podUid ≠ "" ∧
      t = ⟨handlePodApply resolver fs s.cache pod, s.cluster.apply pod⟩) ∨
    ∃ pod, a = .delete pod ∧ pod.podUid ≠ "" ∧
      t = ⟨s.cache.removePod pod.podUid, s.cluster.delete pod⟩ := by
  cases a with
  | apply fs pod =>
    obtain rfl := Option.some.inj h
    by_cases hu : pod.podUid = ""
    · exact .inl ⟨hu, by simp [handlePodApply, Cluster.apply, hu]⟩
    · exact .inr (.inl ⟨fs, pod, rfl, hu, rfl⟩)
  | delete pod =>
    obtain rfl := Option.some.inj h
    by_cases hu : pod.podUid = ""
    · exact .inl ⟨hu, by simp [handlePodDelete, Cluster.delete, hu]⟩
    · exact .inr (.inr ⟨pod, rfl, hu, by simp [handlePodDelete, hu]⟩)

end Tracked

namespace Cluster
variable {v : Cluster} {pod : Pod} {uid : String}

theorem live_apply (hu : pod.podUid ≠ "") : (v.apply pod).live = insert pod.podUid v.live := by
  simp [apply, hu]

theorem latestIp_apply_self (hu : pod.podUid ≠ "") : (v.apply pod).latestIp pod.podUid = pod.ip := by
  simp [apply, hu]

theorem latestIp_apply_of_ne (h : uid ≠ pod.podUid) :
    (v.apply pod).latestIp uid = v.latestIp uid := by
  unfold apply; split
  · rfl
  · exact Function.update_of_ne h ..

theorem statusIp_apply_self (hu : pod.podUid ≠ "") (hs : pod.status.isSome) :
    (v.apply pod).statusIp pod.podUid = pod.ip := by
  simp [apply, hu, hs]

theorem statusIp_apply_of_ne (h : uid ≠ pod.podUid) :
    (v.apply pod).statusIp uid = v.statusIp uid := by
  unfold apply; split
  · rfl
  · simp only; split
    · exact Function.update_of_ne h ..
    · rfl

theorem statusIp_apply_of_none (hs : pod.status.isSome = false) :
    (v.apply pod).statusIp uid = v.statusIp uid := by
  unfold apply; split
  · rfl
  · simp [hs]

theorem live_delete (hu : pod.podUid ≠ "") : (v.delete pod).live = v.live.erase pod.podUid := by
  simp [delete, hu]

theorem latestIp_delete : (v.delete pod).latestIp = v.latestIp := by
  unfold delete; split <;> rfl

theorem statusIp_delete : (v.delete pod).statusIp = v.statusIp := by
  unfold delete; split <;> rfl

end Cluster

theorem Pod.status_isSome_of_ip {pod : Pod} {x : UInt32} (h : pod.ip = some x) : pod.status.isSome := by
  unfold Pod.ip at h
  cases hs : pod.status with
  | none => simp [hs] at h
  | some status => rfl

namespace Tracked
variable {resolver : CgroupResolver} {s t : Tracked} {a : PodCall} {fs : Fs} {pod : Pod}
  {x : UInt32} {m : PodMetadata}

/-! ### Soundness -/

theorem sound_apply_iff (hu : pod.podUid ≠ "") (h : s.Sound) :
    Sound ⟨handlePodApply resolver fs s.cache pod, s.cluster.apply pod⟩ ↔
      s.LeavesNoOld (.apply fs pod) := by
  constructor
  · rintro hS _ _ ⟨⟩ - hst x m hm hmu
    by_contra hx
    have hkeep := (upserts_handlePodApply resolver fs s.cache hu).other x hx
    have hip := (hS x m (hkeep.trans hm)).2
    rw [hmu, Cluster.statusIp_apply_self hu hst] at hip
    exact hx hip
  · intro hL x m hm
    rcases lookup_byIp_handlePodApply hu hm with ⟨ho, hx⟩ | ⟨hm, hx⟩
    · rw [ho.1]
      exact ⟨by rw [Cluster.live_apply hu]; exact Finset.mem_insert_self ..,
        (Cluster.statusIp_apply_self hu (Pod.status_isSome_of_ip hx)).trans hx⟩
    · obtain ⟨hlive, hip⟩ := h x m hm
      refine ⟨by rw [Cluster.live_apply hu]; exact Finset.mem_insert_of_mem hlive, ?_⟩
      cases hst : pod.status.isSome with
      | false => rwa [Cluster.statusIp_apply_of_none hst]
      | true =>
        have hne : m.podUid ≠ pod.podUid := fun hmu => hx (hL fs pod rfl hu hst x m hm hmu)
        rwa [Cluster.statusIp_apply_of_ne hne]

theorem sound_delete (hu : pod.podUid ≠ "") (h : s.Sound) :
    Sound ⟨s.cache.removePod pod.podUid, s.cluster.delete pod⟩ := by
  intro x m hm
  obtain ⟨hm, hne⟩ := PodCache.lookup_removePod.1 hm
  obtain ⟨hlive, hip⟩ := h x m hm
  exact ⟨by rw [Cluster.live_delete hu]; exact Finset.mem_erase.2 ⟨hne, hlive⟩,
    by rwa [Cluster.statusIp_delete]⟩

theorem sound_step_iff (h : s.Sound) (ht : step resolver s a = some t) :
    t.Sound ↔ s.LeavesNoOld a := by
  rcases step_cases ht with ⟨hu, rfl⟩ | ⟨fs, pod, rfl, hu, rfl⟩ | ⟨pod, rfl, hu, rfl⟩
  · exact ⟨fun _ fs pod he hu' => by subst he; exact absurd hu hu', fun _ => h⟩
  · exact sound_apply_iff hu h
  · exact ⟨fun _ _ _ he => (nomatch he), fun _ => sound_delete hu h⟩

theorem sound_init (maxEntries : Nat) : (init maxEntries).Sound := fun _ _ h => nomatch h

/-- In every run of calls, the lookup is sound in every state exactly when no Apply gives its pod a
status while the pod holds another address than the one it carries. -/
theorem sound_throughout_iff (resolver : CgroupResolver) (maxEntries : Nat) (calls : List PodCall) :
    Throughout (step resolver) Sound (init maxEntries) calls ↔
      EachStep (step resolver) LeavesNoOld (init maxEntries) calls :=
  throughout_iff_eachStep (fun _ _ _ _ _ h ht => sound_step_iff h ht)
    (throughout_true _ calls)
    (sound_init maxEntries)

/-- The sandbox of a pod is recreated with a new address: the old one still answers with the pod. -/
theorem not_sound_new_address :
    ¬ Throughout (step .new) Sound (init 10)
      [.apply demoFs (demoPod "a" "10.0.0.5"), .apply demoFs (demoPod "a" "10.0.0.6")] := by
  intro h
  have hip := (h.last rfl 0x0500000A ⟨"default", "a", "a", "", "", some 0x0500000A⟩ (by decide)).2
  revert hip
  decide

/-! ### Completeness -/

theorem complete_apply_iff (hu : pod.podUid ≠ "") (hroom : s.HasRoom) (h : s.Complete) :
    Complete ⟨handlePodApply resolver fs s.cache pod, s.cluster.apply pod⟩ ↔
      s.OrphansNone (.apply fs pod) := by
  have hup := upserts_handlePodApply resolver fs s.cache hu
  have hother : ∀ x, pod.ip ≠ some x →
      (handlePodApply resolver fs s.cache pod).getByIp x = s.cache.byIp.lookup x := hup.other
  constructor
  · intro hC _ x m hm hmu hx uid hlive hne hip
    obtain ⟨m', hm', -, hip'⟩ := hC x uid (by rw [Cluster.live_apply hu]; exact Finset.mem_insert_of_mem hlive)
      ((Cluster.latestIp_apply_of_ne hne).trans hip)
    rw [hother x hx, hm] at hm'
    obtain rfl := Option.some.inj hm'
    rw [hmu] at hip'
    exact hx ((Cluster.latestIp_apply_self hu).symm.trans hip')
  · intro hO x uid hlive hip
    by_cases hx : pod.ip = some x
    · obtain ⟨m, hm, ho⟩ := hup.own x hx (.inr hroom)
      refine ⟨m, hm, ?_, ?_⟩ <;> rw [ho.1]
      · rw [Cluster.live_apply hu]; exact Finset.mem_insert_self ..
      · exact (Cluster.latestIp_apply_self hu).trans hx
    · have hne : uid ≠ pod.podUid := by
        rintro rfl
        exact hx ((Cluster.latestIp_apply_self hu).symm.trans hip)
      rw [Cluster.live_apply hu, Finset.mem_insert] at hlive
      have hlive := hlive.resolve_left hne
      rw [Cluster.latestIp_apply_of_ne hne] at hip
      obtain ⟨m, hm, hmlive, hmip⟩ := h x uid hlive hip
      have hmne : m.podUid ≠ pod.podUid := fun hmu => hO hu x m hm hmu hx uid hlive hne hip
      refine ⟨m, (hother x hx).trans hm, ?_, (Cluster.latestIp_apply_of_ne hmne).trans hmip⟩
      rw [Cluster.live_apply hu]; exact Finset.mem_insert_of_mem hmlive

theorem complete_delete_iff (hu : pod.podUid ≠ "") (h : s.Complete) :
    Complete ⟨s.cache.removePod pod.podUid, s.cluster.delete pod⟩ ↔ s.OrphansNone (.delete pod) := by
  constructor
  · intro hC _ x m hm hmu _ uid hlive hne hip
    obtain ⟨m', hm', -⟩ := hC x uid (by rw [Cluster.live_delete hu]; exact Finset.mem_erase.2 ⟨hne, hlive⟩)
      (by rwa [Cluster.latestIp_delete])
    obtain ⟨hm', hne'⟩ := PodCache.lookup_removePod.1 hm'
    rw [hm] at hm'
    exact hne' (Option.some.inj hm' ▸ hmu)
  · intro hO x uid hlive hip
    rw [Cluster.live_delete hu, Finset.mem_erase] at hlive
    rw [Cluster.latestIp_delete] at hip
    obtain ⟨m, hm, hmlive, hmip⟩ := h x uid hlive.2 hip
    have hne : m.podUid ≠ pod.podUid := fun hmu =>
      hO hu x m hm hmu (by simp [PodCall.newIp]) uid hlive.2 hlive.1 hip
    refine ⟨m, PodCache.lookup_removePod.2 ⟨hm, hne⟩, ?_, by rwa [Cluster.latestIp_delete]⟩
    rw [Cluster.live_delete hu]; exact Finset.mem_erase.2 ⟨hne, hmlive⟩

theorem complete_step_iff (hroom : s.HasRoom) (h : s.Complete) (ht : step resolver s a = some t) :
    t.Complete ↔ s.OrphansNone a := by
  rcases step_cases ht with ⟨hu, rfl⟩ | ⟨fs, pod, rfl, hu, rfl⟩ | ⟨pod, rfl, hu, rfl⟩
  · exact ⟨fun _ hu' => absurd hu hu', fun _ => h⟩
  · exact complete_apply_iff hu hroom h
  · exact complete_delete_iff hu h

theorem complete_init (maxEntries : Nat) : (init maxEntries).Complete :=
  fun _ _ h => absurd h (Finset.notMem_empty _)

/-- In every run of calls during which `by_ip` stays below its capacity, the lookup is complete in
every state exactly when no call takes an address from the pod that holds it while another live pod
reports that address. -/
theorem complete_throughout_iff (resolver : CgroupResolver) (maxEntries : Nat) (calls : List PodCall)
    (hroom : Throughout (step resolver) HasRoom (init maxEntries) calls) :
    Throughout (step resolver) Complete (init maxEntries) calls ↔
      EachStep (step resolver) OrphansNone (init maxEntries) calls := by
  have hstep : ∀ s a t, HasRoom s → HasRoom t → Complete s → step resolver s a = some t →
      (Complete t ↔ OrphansNone s a) := fun _ _ _ hroom _ h ht => complete_step_iff hroom h ht
  exact throughout_iff_eachStep hstep hroom (complete_init maxEntries)

/-- Two pods on the node's address; the one indexed last is deleted. -/
def demoCalls : List PodCall :=
  [.apply demoFs (demoPod "a" "10.0.0.5"), .apply demoFs (demoPod "b" "10.0.0.5"),
    .delete (demoPod "b" "10.0.0.5")]

theorem hasRoom_demoCalls : Throughout (step .new) HasRoom (init 10) demoCalls := by
  simp only [demoCalls, Throughout, step, Option.some.injEq, forall_eq']
  unfold HasRoom
  decide

theorem complete_throughout_iff_demo :
    Throughout (step .new) HasRoom (init 10) demoCalls ∧
      (Throughout (step .new) Complete (init 10) demoCalls ↔
        EachStep (step .new) OrphansNone (init 10) demoCalls) :=
  ⟨hasRoom_demoCalls, complete_throughout_iff .new 10 demoCalls hasRoom_demoCalls⟩

/-- Pod `a` still lives at the address, and the address is not answered any more. -/
theorem not_complete_shared_address :
    ¬ (Throughout (step .new) HasRoom (init 10) demoCalls →
      Throughout (step .new) Complete (init 10) demoCalls) := by
  intro h
  obtain ⟨m, hm, -⟩ := (h hasRoom_demoCalls).last rfl 0x0500000A "a" (by decide) (by decide)
  revert hm
  decide +revert

end Tracked

end Orb8
