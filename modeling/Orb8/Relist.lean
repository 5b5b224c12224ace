import Orb8.K8sWatcher

/-!
# What a re-list reconciles

After a disconnection the watcher learns the current pods again: from a new session (`Init`, one
`InitApply` for each pod, `InitDone`) or from `resync_all`. Both only apply the pods of the list, so
an entry of a pod that has disappeared goes away exactly when a pod of the list claims its key.
-/

namespace Orb8
open AMap Trace

def Listed (l : List (Fs × Pod)) (uid : String) : Prop := ∃ p ∈ l, p.2.metadata.uid = some uid

/-- Some pod of the list reports the address `x`. -/
def Reported (l : List (Fs × Pod)) (x : UInt32) : Prop :=
  ∃ p ∈ l, p.2.podUid ≠ "" ∧ p.2.ip = some x

/-- A container of some pod of the list resolves to the cgroup `g`. -/
def Resolved (resolver : CgroupResolver) (l : List (Fs × Pod)) (g : UInt64) : Prop :=
  ∃ p ∈ l, p.2.podUid ≠ "" ∧ p.2.Resolves resolver p.1 p.2.containers g

/-- Every entry of both maps belongs to a listed pod. -/
structure Reconciled (l : List (Fs × Pod)) (c : PodCache) : Prop where
  byIp : ∀ x m, c.byIp.lookup x = some m → Listed l m.podUid
  byCgroup : ∀ g m, c.byCgroup.lookup g = some m → Listed l m.podUid

/-- The key of every entry of an unlisted pod is claimed by a pod of the list. -/
structure Superseded (resolver : CgroupResolver) (l : List (Fs × Pod)) (c : PodCache) : Prop where
  byIp : ∀ x m, c.byIp.lookup x = some m → ¬ Listed l m.podUid → Reported l x
  byCgroup : ∀ g m, c.byCgroup.lookup g = some m → ¬ Listed l m.podUid → Resolved resolver l g

section
variable {w : PodWatcher} {l : List (Fs × Pod)} {p : Fs × Pod} {c : PodCache} {x : UInt32}
  {g : UInt64} {m : PodMetadata}

theorem Pod.Owns.uid_eq {pod : Pod} (h : pod.Owns m) (hu : pod.podUid ≠ "") :
    pod.metadata.uid = some m.podUid := by
  rw [h.1]
  unfold Pod.podUid at hu ⊢
  cases hm : pod.metadata.uid with
  | none => simp [hm] at hu
  | some uid => rfl

theorem Listed.cons {uid : String} (h : Listed l uid) : Listed (p :: l) uid :=
  let ⟨q, hq, hu⟩ := h; ⟨q, List.mem_cons_of_mem _ hq, hu⟩

/-- An entry after the list is applied is of a listed pod, or was there and is claimed by none. -/
theorem lookup_byIp_applyAll (h : (w.applyAll c l).byIp.lookup x = some m) :
    Listed l m.podUid ∨ (c.byIp.lookup x = some m ∧ ¬ Reported l x) := by
  induction l generalizing c with
  | nil => exact .inr ⟨h, fun ⟨_, hp, _⟩ => nomatch hp⟩
  | cons p l ih =>
    rw [PodWatcher.applyAll_cons] at h
    rcases ih h with hl | ⟨h, hn⟩
    · exact .inl hl.cons
    · have hcons : ¬ (p.2.podUid ≠ "" ∧ p.2.ip = some x) → ¬ Reported (p :: l) x := by
        rintro hp ⟨q, hq, hr⟩
        rcases List.mem_cons.1 hq with rfl | hq
        · exact hp hr
        · exact hn ⟨q, hq, hr⟩
      by_cases hu : p.2.podUid = ""
      · rw [handlePodApply_of_uid_empty hu] at h
        exact .inr ⟨h, hcons fun h => h.1 hu⟩
      · rcases lookup_byIp_handlePodApply hu h with ⟨ho, -⟩ | ⟨h, hx⟩
        · exact .inl ⟨p, List.mem_cons_self, ho.uid_eq hu⟩
        · exact .inr ⟨h, hcons fun h => hx h.2⟩

theorem lookup_byIp_applyAll_of_not_reported (hn : ¬ Reported l x) :
    (w.applyAll c l).byIp.lookup x = c.byIp.lookup x := by
  induction l generalizing c with
  | nil => rfl
  | cons p l ih =>
    have hp : ¬ (p.2.podUid ≠ "" ∧ p.2.ip = some x) := fun h => hn ⟨p, List.mem_cons_self, h⟩
    rw [PodWatcher.applyAll_cons]
    refine (ih fun ⟨q, hq, hr⟩ => hn ⟨q, List.mem_cons_of_mem _ hq, hr⟩).trans ?_
    by_cases hu : p.2.podUid = ""
    · rw [handlePodApply_of_uid_empty hu]
    · exact (upserts_handlePodApply _ _ _ hu).other x fun hx => hp ⟨hu, hx⟩

theorem lookup_byCgroup_applyAll (h : (w.applyAll c l).byCgroup.lookup g = some m) :
    Listed l m.podUid ∨ (c.byCgroup.lookup g = some m ∧ ¬ Resolved w.cgroupResolver l g) := by
  induction l generalizing c with
  | nil => exact .inr ⟨h, fun ⟨_, hp, _⟩ => nomatch hp⟩
  | cons p l ih =>
    rw [PodWatcher.applyAll_cons] at h
    rcases ih h with hl | ⟨h, hn⟩
    · exact .inl hl.cons
    · have hcons : ¬ (p.2.podUid ≠ "" ∧ p.2.Resolves w.cgroupResolver p.1 p.2.containers g) →
          ¬ Resolved w.cgroupResolver (p :: l) g := by
        rintro hp ⟨q, hq, hr⟩
        rcases List.mem_cons.1 hq with rfl | hq
        · exact hp hr
        · exact hn ⟨q, hq, hr⟩
      by_cases hu : p.2.podUid = ""
      · rw [handlePodApply_of_uid_empty hu] at h
        exact .inr ⟨h, hcons fun h => h.1 hu⟩
      · rcases lookup_byCgroup_handlePodApply hu g with ⟨-, m', ho, hm'⟩ | ⟨hr, he⟩
        · rw [h] at hm'
          exact .inl ⟨p, List.mem_cons_self, (Option.some.inj hm' ▸ ho).uid_eq hu⟩
        · exact .inr ⟨he ▸ h, hcons fun h => hr h.2⟩

theorem lookup_byCgroup_applyAll_of_not_resolved (hn : ¬ Resolved w.cgroupResolver l g) :
    (w.applyAll c l).byCgroup.lookup g = c.byCgroup.lookup g := by
  induction l generalizing c with
  | nil => rfl
  | cons p l ih =>
    rw [PodWatcher.applyAll_cons]
    refine (ih fun ⟨q, hq, hr⟩ => hn ⟨q, List.mem_cons_of_mem _ hq, hr⟩).trans ?_
    by_cases hu : p.2.podUid = ""
    · rw [handlePodApply_of_uid_empty hu]
    · rcases lookup_byCgroup_handlePodApply hu g with ⟨hr, -⟩ | ⟨-, he⟩
      · exact absurd ⟨p, List.mem_cons_self, hu, hr⟩ hn
      · exact he

/-- Applying a list reconciles the cache exactly when the list claims every key of an unlisted pod. -/
theorem reconciled_applyAll_iff :
    Reconciled l (w.applyAll c l) ↔ Superseded w.cgroupResolver l c := by
  constructor
  · rintro ⟨hip, hcg⟩
    refine ⟨fun x m hm hl => ?_, fun g m hm hl => ?_⟩ <;> by_contra hn
    · exact hl (hip x m (by rwa [lookup_byIp_applyAll_of_not_reported hn]))
    · exact hl (hcg g m (by rwa [lookup_byCgroup_applyAll_of_not_resolved hn]))
  · rintro ⟨hip, hcg⟩
    refine ⟨fun x m hm => ?_, fun g m hm => ?_⟩
    · rcases lookup_byIp_applyAll hm with hl | ⟨hm, hn⟩
      · exact hl
      · by_contra hl
        exact hn (hip x m hm hl)
    · rcases lookup_byCgroup_applyAll hm with hl | ⟨hm, hn⟩
      · exact hl
      · by_contra hl
        exact hn (hcg g m hm hl)

theorem Reconciled.congr {c c' : PodCache} (hip : c'.byIp = c.byIp) (hcg : c'.byCgroup = c.byCgroup) :
    Reconciled l c' ↔ Reconciled l c := by
  constructor <;> rintro ⟨h1, h2⟩ <;> refine ⟨?_, ?_⟩
  · rwa [hip] at h1
  · rwa [hcg] at h2
  · rwa [hip]
  · rwa [hcg]

end

/-! ### The two ways to re-list -/

namespace PodWatcher
variable {w : PodWatcher} {s t : WatcherState} {l : List (Fs × Pod)}

def relist (fs : Fs) (l : List (Fs × Pod)) : List WatchAction :=
  .deliver fs .init :: l.map (fun p => .deliver p.1 (.initApply p.2)) ++ [.deliver fs .initDone]

theorem run_initApply (c : PodCache) (backoff : Nat) :
    run w.step ⟨c, backoff, .watching⟩ (l.map fun p => .deliver p.1 (.initApply p.2)) =
      some ⟨w.applyAll c l, backoff, .watching⟩ := by
  induction l generalizing c with
  | nil => rfl
  | cons p l ih => simpa [step, watchPods] using ih _

theorem reconciled_relist_iff {fs : Fs} (h : run w.step s (relist fs l) = some t) :
    Reconciled l t.cache ↔ Superseded w.cgroupResolver l s.cache := by
  obtain ⟨c, backoff, phase⟩ := s
  cases phase with
  | watching =>
    simp only [relist, List.cons_append, run_cons, step, Option.bind_some, watchPods, run_append,
      run_initApply, run_nil, Option.some.injEq] at h
    rw [← reconciled_applyAll_iff, ← h]
    exact Reconciled.congr rfl rfl
  | _ => simp [relist, step] at h

theorem reconciled_resync_iff (h : w.step s (.resync (some l)) = some t) :
    Reconciled l t.cache ↔ Superseded w.cgroupResolver l s.cache := by
  obtain ⟨c, backoff, phase⟩ := s
  cases step_cases h with
  | resynced podList =>
    rw [← reconciled_applyAll_iff]
    exact Reconciled.congr rfl rfl

/-- After any history, a re-list leaves only entries of the pods it lists exactly when each entry of
another pod has its key claimed by one of them. -/
theorem reconciled_iff (w : PodWatcher) (maxEntries : Nat) (acts : List WatchAction)
    (l : List (Fs × Pod)) (s t : WatcherState)
    (_hs : run w.step (w.start (PodCache.new maxEntries HealthState.new)) acts = some s)
    (ht : (∃ fs, run w.step s (relist fs l) = some t) ∨ w.step s (.resync (some l)) = some t) :
    Reconciled l t.cache ↔ Superseded w.cgroupResolver l s.cache := by
  rcases ht with ⟨fs, ht⟩ | ht
  · exact reconciled_relist_iff ht
  · exact reconciled_resync_iff ht

theorem reconciled_iff_demo :
    Reconciled [(demoFs, demoPod "b" "10.0.0.6")]
        (demo.resyncAll (PodCache.new 10 HealthState.new) [(demoFs, demoPod "b" "10.0.0.6")]) ↔
      Superseded .new [(demoFs, demoPod "b" "10.0.0.6")] (PodCache.new 10 HealthState.new) :=
  reconciled_iff demo 10 [.sessionEnd] [(demoFs, demoPod "b" "10.0.0.6")] _
    ⟨demo.resyncAll (PodCache.new 10 HealthState.new) [(demoFs, demoPod "b" "10.0.0.6")],
      1000000000, .watching⟩ rfl (.inr rfl)

/-- Pod `a` is listed, the stream breaks, `a` is deleted, the re-list of the next session is empty:
`a` still answers for its address. -/
theorem not_reconciled_deleted :
    ¬ ∀ t, run demo.step (demo.start (PodCache.new 10 HealthState.new))
        (relist demoFs [(demoFs, demoPod "a" "10.0.0.5")] ++
          [.sessionErr 0, .wake, .resync none] ++ relist demoFs []) = some t →
      Reconciled [] t.cache := by
  intro h
  obtain ⟨_, hp, -⟩ := (h _ rfl).byIp 0x0500000A ⟨"default", "a", "a", "", "", some 0x0500000A⟩ (by decide)
  exact nomatch hp

end PodWatcher

end Orb8
