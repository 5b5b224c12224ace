import Orb8.Health
import Orb8.Lib.AMap

/-!
# The pod cache (`pod_cache.rs`)

Two maps over one pool of pod metadata. Only `insertIp` looks at the capacity, and only at the size
of `byIp`. `Upserts` says what inserting metadata of one pod can do to `byIp`: it is closed under
composition, so it also describes a whole series of insertions for that pod.
-/

namespace Orb8

structure PodMetadata where
  namespace_ : String
  podName : String
  podUid : String
  containerName : String
  containerId : String
  podIp : Option UInt32
deriving DecidableEq, Repr

structure PodCache where
  byCgroup : AMap UInt64 PodMetadata
  byIp : AMap UInt32 PodMetadata
  maxEntries : Nat
  health : HealthState
deriving DecidableEq

namespace PodCache
open AMap

def new (maxEntries : Nat) (health : HealthState) : PodCache := ⟨∅, ∅, maxEntries, health⟩

def insertIp (c : PodCache) (ip : UInt32) (metadata : PodMetadata) : PodCache :=
  if ip ∈ c.byIp then { c with byIp := c.byIp.insert ip metadata }
  else if len c.byIp ≥ c.maxEntries then
    { c with health := (c.health.setPodCacheAtCapacity true).incPodCacheEvictions }
  else { c with byIp := c.byIp.insert ip metadata }

def insert (c : PodCache) (cgroupId : UInt64) (metadata : PodMetadata) : PodCache :=
  let c := match metadata.podIp with
    | some ip => c.insertIp ip metadata
    | none => c
  { c with byCgroup := c.byCgroup.insert cgroupId metadata }

def insertByIp (c : PodCache) (metadata : PodMetadata) : PodCache :=
  match metadata.podIp with
  | some ip => c.insertIp ip metadata
  | none => c

def get (c : PodCache) (cgroupId : UInt64) : Option PodMetadata := c.byCgroup.lookup cgroupId

def getByIp (c : PodCache) (ip : UInt32) : Option PodMetadata := c.byIp.lookup ip

def remove (c : PodCache) (cgroupId : UInt64) : PodCache :=
  { c with byCgroup := c.byCgroup.erase cgroupId }

def removePod (c : PodCache) (podUid : String) : PodCache :=
  let c := { c with
    byCgroup := retain (fun _ v => v.podUid != podUid) c.byCgroup
    byIp := retain (fun _ v => v.podUid != podUid) c.byIp }
  if len c.byIp < c.maxEntries then { c with health := c.health.setPodCacheAtCapacity false } else c

def ipEntriesCount (c : PodCache) : Nat := len c.byIp

/-- `byIp` has an entry for `ip`, or room for one. -/
def Admits (c : PodCache) (ip : UInt32) : Prop := ip ∈ c.byIp ∨ len c.byIp < c.maxEntries

instance (c : PodCache) (ip : UInt32) : Decidable (c.Admits ip) :=
  inferInstanceAs (Decidable (_ ∨ _))

variable {c c' c'' : PodCache} {ip x : UInt32} {g : UInt64} {uid : String} {m md : PodMetadata}

/-! ### Insertions -/

theorem insertIp_eq (c : PodCache) (ip : UInt32) (md : PodMetadata) :
    c.insertIp ip md = if c.Admits ip then { c with byIp := c.byIp.insert ip md }
      else { c with health := (c.health.setPodCacheAtCapacity true).incPodCacheEvictions } := by
  unfold insertIp Admits
  by_cases hmem : ip ∈ c.byIp
  · simp [hmem]
  · by_cases hfull : len c.byIp ≥ c.maxEntries
    · simp [hmem, hfull, Nat.not_lt.2 hfull]
    · simp [hmem, hfull, Nat.lt_of_not_ge hfull]

theorem insertByIp_of_some (h : md.podIp = some ip) : c.insertByIp md = c.insertIp ip md := by
  simp [insertByIp, h]

theorem insertByIp_of_none (h : md.podIp = none) : c.insertByIp md = c := by
  simp [insertByIp, h]

theorem len_byIp_insertByIp (h : len c.byIp ≤ c.maxEntries) :
    len (c.insertByIp md).byIp ≤ c.maxEntries := by
  cases hip : md.podIp with
  | none => rwa [insertByIp_of_none hip]
  | some ip =>
    rw [insertByIp_of_some hip, insertIp_eq]
    split
    · rename_i hadmits
      show len (c.byIp.insert ip md) ≤ c.maxEntries
      rcases hadmits with hmem | hroom
      · rwa [len_insert_of_mem md hmem]
      · exact (len_insert_le c.byIp ip md).trans hroom
    · exact h

/-- Going from `c` to `c'`, `byIp` changed at most at the address `ip`, where it now has an entry that
satisfies `P` unless there was no room. -/
structure Upserts (P : PodMetadata → Prop) (ip : Option UInt32) (c c' : PodCache) : Prop where
  other : ∀ x, ip ≠ some x → c'.byIp.lookup x = c.byIp.lookup x
  own : ∀ x, ip = some x → c.Admits x → ∃ m, c'.byIp.lookup x = some m ∧ P m
  refused : ∀ x, ip = some x → ¬ c.Admits x → c'.byIp = c.byIp
  maxEntries : c'.maxEntries = c.maxEntries

variable {P : PodMetadata → Prop} {oip : Option UInt32}

theorem Upserts.refl_none : Upserts P none c c :=
  ⟨fun _ _ => rfl, fun _ h => by simp at h, fun _ _ _ => rfl, rfl⟩

theorem Upserts.trans (h : Upserts P oip c c') (h' : Upserts P oip c' c'') : Upserts P oip c c'' := by
  refine ⟨fun x hx => (h'.other x hx).trans (h.other x hx), fun x hx ha => ?_, fun x hx ha => ?_,
    h'.maxEntries.trans h.maxEntries⟩
  · obtain ⟨m, hm, -⟩ := h.own x hx ha
    exact h'.own x hx (.inl (mem_iff_lookup.2 ⟨m, hm⟩))
  · have hb := h.refused x hx ha
    have ha' : ¬ c'.Admits x := by rwa [Admits, hb, h.maxEntries]
    exact (h'.refused x hx ha').trans hb

theorem upserts_insertIp (hP : P md) : Upserts P (some ip) c (c.insertIp ip md) := by
  rw [insertIp_eq]
  by_cases ha : c.Admits ip
  · rw [if_pos ha]
    refine ⟨fun x hx => ?_, fun x hx _ => ?_, fun x hx hn => ?_, rfl⟩
    · exact AList.lookup_insert_ne fun h => hx (by rw [h])
    · obtain rfl := Option.some.inj hx
      exact ⟨md, AList.lookup_insert _, hP⟩
    · obtain rfl := Option.some.inj hx
      exact absurd ha hn
  · rw [if_neg ha]
    refine ⟨fun _ _ => rfl, fun x hx ha' => ?_, fun _ _ _ => rfl, rfl⟩
    obtain rfl := Option.some.inj hx
    exact absurd ha' ha

theorem upserts_insertByIp (md : PodMetadata) (hP : P md) : Upserts P md.podIp c (c.insertByIp md) := by
  cases hip : md.podIp with
  | none =>
    rw [insertByIp_of_none hip]
    exact .refl_none
  | some ip =>
    rw [insertByIp_of_some hip]
    exact upserts_insertIp hP

theorem insertByIp_byCgroup : (c.insertByIp md).byCgroup = c.byCgroup := by
  cases hip : md.podIp with
  | none => rw [insertByIp_of_none hip]
  | some ip =>
    rw [insertByIp_of_some hip, insertIp_eq]
    split <;> rfl

theorem insertByIp_k8sWatcherConnected :
    (c.insertByIp md).health.k8sWatcherConnected = c.health.k8sWatcherConnected := by
  cases hip : md.podIp with
  | none => rw [insertByIp_of_none hip]
  | some ip =>
    rw [insertByIp_of_some hip, insertIp_eq]
    split <;> rfl

theorem insert_eq (c : PodCache) (g : UInt64) (md : PodMetadata) :
    c.insert g md = { c.insertByIp md with byCgroup := (c.insertByIp md).byCgroup.insert g md } := rfl

theorem upserts_insert (hP : P md) : Upserts P md.podIp c (c.insert g md) := by
  obtain ⟨h1, h2, h3, h4⟩ := upserts_insertByIp (c := c) md hP
  rw [insert_eq]
  exact ⟨h1, h2, h3, h4⟩

theorem insert_byCgroup : (c.insert g md).byCgroup = c.byCgroup.insert g md := by
  rw [insert_eq, insertByIp_byCgroup]

/-! ### Removals -/

theorem removePod_byIp : (c.removePod uid).byIp = retain (fun _ v => v.podUid != uid) c.byIp := by
  simp only [removePod]; split <;> rfl

theorem removePod_byCgroup :
    (c.removePod uid).byCgroup = retain (fun _ v => v.podUid != uid) c.byCgroup := by
  simp only [removePod]; split <;> rfl

theorem removePod_maxEntries : (c.removePod uid).maxEntries = c.maxEntries := by
  simp only [removePod]; split <;> rfl

theorem removePod_health : (c.removePod uid).health = if len (c.removePod uid).byIp < c.maxEntries
    then c.health.setPodCacheAtCapacity false else c.health := by
  rw [removePod_byIp]
  simp only [removePod]
  split <;> rfl

theorem lookup_removePod : (c.removePod uid).byIp.lookup x = some m ↔
    c.byIp.lookup x = some m ∧ m.podUid ≠ uid := by
  simp [removePod_byIp, lookup_retain_eq_some]

end PodCache

end Orb8
