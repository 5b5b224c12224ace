import Orb8.K8sWatcher

/-!
# How large the pod cache gets

The capacity is checked where an address is indexed. `byIp` never outgrows it; `byCgroup` takes
every cgroup that is inserted, also when the address of the same call is refused, and gives them back
only when the pod is removed.
-/

namespace Orb8
open AMap Trace

/-- The calls that change the cache. -/
inductive CacheCall where
  | insert (cgroupId : UInt64) (metadata : PodMetadata)
  | insertByIp (metadata : PodMetadata)
  | remove (cgroupId : UInt64)
  | removePod (podUid : String)

namespace PodCache

def call (c : PodCache) : CacheCall → PodCache
  | .insert cgroupId metadata => c.insert cgroupId metadata
  | .insertByIp metadata => c.insertByIp metadata
  | .remove cgroupId => c.remove cgroupId
  | .removePod podUid => c.removePod podUid

def step (c : PodCache) (a : CacheCall) : Option PodCache := some (c.call a)

structure Bounded (c : PodCache) : Prop where
  byIp : len c.byIp ≤ c.maxEntries
  byCgroup : len c.byCgroup ≤ c.maxEntries

/-- There is no room for the address in the metadata. -/
def Refuses (c : PodCache) (md : PodMetadata) : Prop := ∃ ip, md.podIp = some ip ∧ ¬ c.Admits ip

structure SameMaps (c c' : PodCache) : Prop where
  byIp : ∀ ip, c'.getByIp ip = c.getByIp ip
  byCgroup : ∀ g, c'.get g = c.get g

/-- An insertion that is refused leaves both maps as they are. -/
def RefusalKeeps (c : PodCache) : CacheCall → Prop
  | .insert cgroupId metadata => c.Refuses metadata → c.SameMaps (c.insert cgroupId metadata)
  | .insertByIp metadata => c.Refuses metadata → c.SameMaps (c.insertByIp metadata)
  | _ => True

/-- The cgroup is indexed already or has room, and if the address has none, the cgroup is indexed with
the very metadata that is inserted. -/
def Fits (c : PodCache) : CacheCall → Prop
  | .insert cgroupId metadata =>
    (cgroupId ∈ c.byCgroup ∨ len c.byCgroup < c.maxEntries) ∧
      (c.Refuses metadata → c.byCgroup.lookup cgroupId = some metadata)
  | _ => True

variable {c c' : PodCache} {a : CacheCall} {g : UInt64} {md : PodMetadata}

theorem insert_maxEntries : (c.insert g md).maxEntries = c.maxEntries :=
  (upserts_insert (P := fun _ => True) trivial).maxEntries

theorem insertByIp_of_refuses (h : c.Refuses md) : (c.insertByIp md).byIp = c.byIp := by
  obtain ⟨ip, hip, hn⟩ := h
  exact (upserts_insertByIp (P := fun _ => True) md trivial).refused ip hip hn

theorem bounded_insert_iff (h : c.Bounded) :
    (c.insert g md).Bounded ↔ g ∈ c.byCgroup ∨ len c.byCgroup < c.maxEntries := by
  rw [← len_insert_le_iff (v := md) h.byCgroup]
  constructor
  · rintro ⟨-, hcg⟩
    rwa [insert_byCgroup, insert_maxEntries] at hcg
  · intro hcg
    refine ⟨?_, ?_⟩ <;> rw [insert_maxEntries]
    · exact len_byIp_insertByIp h.byIp
    · rwa [insert_byCgroup]

theorem sameMaps_insert_iff (h : c.Refuses md) :
    c.SameMaps (c.insert g md) ↔ c.byCgroup.lookup g = some md := by
  constructor
  · rintro ⟨-, hcg⟩
    rw [← PodCache.get, ← hcg g, PodCache.get, insert_byCgroup, AList.lookup_insert]
  · intro hl
    refine ⟨fun ip => ?_, fun g' => ?_⟩
    · exact congrArg (AList.lookup ip) (insertByIp_of_refuses h)
    · rw [PodCache.get, PodCache.get, insert_byCgroup]
      by_cases hg : g' = g
      · rw [hg, AList.lookup_insert, hl]
      · rw [AList.lookup_insert_ne hg]

theorem bounded_step_iff (h : c.Bounded) (ht : step c a = some c') :
    c'.Bounded ∧ c.RefusalKeeps a ↔ c.Fits a := by
  obtain rfl := Option.some.inj ht
  cases a with
  | insert g md =>
    refine and_congr (bounded_insert_iff h) ?_
    exact forall_congr' fun hrefuses => sameMaps_insert_iff hrefuses
  | insertByIp md =>
    have hmax : (c.insertByIp md).maxEntries = c.maxEntries :=
      (upserts_insertByIp (P := fun _ => True) md trivial).maxEntries
    refine iff_of_true ⟨⟨?_, ?_⟩, fun hrefuses => ⟨fun ip => ?_, fun g => ?_⟩⟩ trivial
    · exact (len_byIp_insertByIp h.byIp).trans hmax.ge
    · exact (congrArg len insertByIp_byCgroup).le.trans (h.byCgroup.trans hmax.ge)
    · exact congrArg (AList.lookup ip) (insertByIp_of_refuses hrefuses)
    · exact congrArg (AList.lookup g) insertByIp_byCgroup
  | remove g =>
    refine iff_of_true ⟨⟨h.byIp, ?_⟩, trivial⟩ trivial
    show len (c.byCgroup.erase g) ≤ c.maxEntries
    rw [erase_eq_retain]
    exact (len_retain_le _ _).trans h.byCgroup
  | removePod uid =>
    refine iff_of_true ⟨⟨?_, ?_⟩, trivial⟩ trivial
    · show len (c.removePod uid).byIp ≤ (c.removePod uid).maxEntries
      rw [removePod_byIp, removePod_maxEntries]
      exact (len_retain_le _ _).trans h.byIp
    · show len (c.removePod uid).byCgroup ≤ (c.removePod uid).maxEntries
      rw [removePod_byCgroup, removePod_maxEntries]
      exact (len_retain_le _ _).trans h.byCgroup

/-- In every run of calls, both maps stay within the capacity and every refused insertion leaves them
as they are, exactly when every insertion fits. -/
theorem bounded_throughout_iff (maxEntries : Nat) (calls : List CacheCall) :
    Throughout step Bounded (PodCache.new maxEntries HealthState.new) calls ∧
        EachStep step RefusalKeeps (PodCache.new maxEntries HealthState.new) calls ↔
      EachStep step Fits (PodCache.new maxEntries HealthState.new) calls := by
  have hstep : ∀ c a c', True → True → True → Bounded c → step c a = some c' →
      (Bounded c' ∧ RefusalKeeps c a ↔ Fits c a) := fun _ _ _ _ _ _ h ht => bounded_step_iff h ht
  exact throughout_and_eachStep_iff hstep (throughout_true _ calls) (fun _ _ => trivial) ⟨Nat.zero_le _, Nat.zero_le _⟩

/-- The calls of an Apply of a pod with one address and two containers. -/
def twoContainers : List CacheCall :=
  [.insertByIp ⟨"default", "a", "a", "", "", some 0x0500000A⟩,
    .insert 1 ⟨"default", "a", "a", "main", "c1", some 0x0500000A⟩,
    .insert 2 ⟨"default", "a", "a", "sidecar", "c2", some 0x0500000A⟩]

/-- A cache of one entry holds two cgroups. -/
theorem not_bounded_twoContainers :
    ¬ (Throughout step Bounded (PodCache.new 1 HealthState.new) twoContainers ∧
      EachStep step RefusalKeeps (PodCache.new 1 HealthState.new) twoContainers) := by
  rintro ⟨h, -⟩
  exact absurd (h.last rfl).byCgroup (by decide)

/-! ### The watcher's calls -/

/-- An Apply is a run of insertions of the pod's metadata. -/
theorem exists_run_handlePodApply (resolver : CgroupResolver) (fs : Fs) (c : PodCache) (pod : Pod) :
    ∃ calls, run step c calls = some (handlePodApply resolver fs c pod) := by
  by_cases hu : pod.podUid = ""
  · exact ⟨[], by rw [handlePodApply_of_uid_empty hu, run_nil]⟩
  · refine handlePodApply_induct (R := fun c' => ∃ calls, run step c calls = some c') hu
      (fun _ => ⟨[], rfl⟩) (fun _ md _ _ _ => ⟨[.insertByIp md], rfl⟩) ?_
    rintro c' g md ⟨calls, hrun⟩ - -
    exact ⟨calls ++ [.insert g md], by rw [run_append, hrun]; rfl⟩

theorem exists_run_handlePodDelete (c : PodCache) (pod : Pod) :
    ∃ calls, run step c calls = some (handlePodDelete c pod) := by
  unfold handlePodDelete
  split
  · exact ⟨[], rfl⟩
  · exact ⟨[.removePod pod.podUid], rfl⟩

end PodCache

end Orb8
