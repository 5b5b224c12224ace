import Orb8.K8sWatcher

/-!
# The reconnection loop over its whole history

Two things `PodWatcher::run` carries from one session to the next: the backoff, which goes back to its
minimum when a session ends without error and at no other moment, and the connection flag, which a
session that ends with an error clears and one that ends without error does not.
-/

namespace Orb8
open Trace

namespace PodWatcher
variable {w : PodWatcher} {s t : WatcherState} {a : WatchAction} {acts : List WatchAction} {c : PodCache}
  {k : Nat}

/-! ### The backoff -/

/-- One more failed session, or a new start of the count. -/
def countFailures (resets : WatchAction → Bool) (k : Nat) (a : WatchAction) : Nat :=
  if resets a then 0 else match a with
    | .sessionErr _ => k + 1
    | _ => k

/-- The failed sessions since the last action that starts the count again. -/
def failuresSince (resets : WatchAction → Bool) (acts : List WatchAction) : Nat :=
  acts.foldl (countFailures resets) 0

/-- A session ends without error. -/
def endsCleanly : WatchAction → Bool
  | .sessionEnd => true
  | _ => false

/-- A session ends without error, or completes its initial sync. -/
def succeeds : WatchAction → Bool
  | .sessionEnd | .deliver _ .initDone => true
  | _ => false

/-- The watcher sleeps after the last of `k` failures. -/
structure Waits (w : PodWatcher) (k : Nat) (s : WatcherState) : Prop where
  base : s.backoff = min (w.backoffMin * 2 ^ (k - 1)) w.backoffMax
  sleep : ∃ duration, s.phase = .sleeping duration ∧ s.backoff ≤ duration ∧
    duration ≤ s.backoff + s.backoff / 4

/-- In every run, a failed session is followed by the sleep that is due after the failures since the
last reset. -/
def BacksOff (w : PodWatcher) (resets : WatchAction → Bool) : Prop :=
  ∀ c acts subsecNanos s, run w.step (w.start c) (acts ++ [.sessionErr subsecNanos]) = some s →
    w.Waits (failuresSince resets (acts ++ [.sessionErr subsecNanos])) s

def delay (w : PodWatcher) (k : Nat) : Nat := min (w.backoffMin * 2 ^ k) w.backoffMax

theorem delay_zero (h : w.backoffMin ≤ w.backoffMax) : w.delay 0 = w.backoffMin := by
  rw [delay, pow_zero, Nat.mul_one, Nat.min_eq_left h]

theorem delay_succ (k : Nat) : w.delay (k + 1) = min (w.delay k * 2) w.backoffMax := by
  unfold delay
  rw [pow_succ, ← Nat.mul_assoc]
  omega

theorem jitterMillis_le (backoff subsecNanos : Nat) :
    jitterMillis backoff subsecNanos * 1000000 ≤ backoff / 4 := by
  unfold jitterMillis
  dsimp only
  split
  · rw [Nat.zero_mul]
    exact Nat.zero_le _
  · rename_i hne
    have hlt := Nat.mod_lt subsecNanos (Nat.pos_of_ne_zero hne)
    calc subsecNanos % (backoff / 1000000 / 4 % 2 ^ 64) * 1000000
      _ ≤ backoff / 1000000 / 4 * 1000000 := Nat.mul_le_mul_right _ (hlt.le.trans (Nat.mod_le _ _))
      _ ≤ backoff / 4 := by omega

/-- What the variable `backoff` holds after `k` failures: before it is doubled, it is still the delay
of the failure slept on. -/
def Due (w : PodWatcher) (k : Nat) (s : WatcherState) : Prop :=
  match s.phase with
  | .watching | .resyncing => s.backoff = w.delay k
  | .sleeping _ => 0 < k ∧ s.backoff = w.delay (k - 1)
  | .stopped => True

theorem due_step (hmin : w.backoffMin ≤ w.backoffMax) (h : w.Due k s) (ht : w.step s a = some t) :
    w.Due (countFailures endsCleanly k a) t := by
  obtain ⟨c, backoff, phase⟩ := s
  cases step_cases ht with
  | deliver fs event => exact h
  | sessionEnd => exact (delay_zero hmin).symm
  | sessionErr subsecNanos => exact ⟨Nat.succ_pos k, h⟩
  | wake duration =>
    obtain ⟨hk, hdue⟩ : 0 < k ∧ backoff = w.delay (k - 1) := h
    show min (backoff * 2) w.backoffMax = w.delay k
    rw [hdue, ← delay_succ, Nat.sub_add_cancel hk]
  | resynced podList => exact h
  | resyncFailed => exact h
  | cancel phase hne => trivial

theorem due_run (hmin : w.backoffMin ≤ w.backoffMax) (h : run w.step (w.start c) acts = some s) :
    w.Due (failuresSince endsCleanly acts) s := by
  have hstep : ∀ (p : WatcherState × Nat) a q, w.Due p.2 p.1 →
      observe w.step (countFailures endsCleanly) p a = some q → w.Due q.2 q.1 := by
    intro p a q hp hq
    obtain ⟨ht, hk⟩ := observe_eq_some.1 hq
    rw [hk]
    exact due_step hmin hp ht
  have hstart : w.Due 0 (w.start c) := (delay_zero hmin).symm
  have hrun := run_observe w.step (countFailures endsCleanly) (w.start c) 0 acts
  rw [h, Option.map_some] at hrun
  exact run_inv (I := fun p : WatcherState × Nat => w.Due p.2 p.1) hstep hstart hrun

/-- The sleep after a failed session is that of the failures since a session last ended without
error. -/
theorem backsOff_endsCleanly (w : PodWatcher) (hmin : w.backoffMin ≤ w.backoffMax) :
    w.BacksOff endsCleanly := by
  intro c acts subsecNanos s h
  have hdue := due_run hmin h
  rw [run_append] at h
  obtain ⟨⟨c, backoff, phase⟩, -, hlast⟩ := Option.bind_eq_some_iff.1 h
  obtain ⟨t, hstep, ht⟩ := Option.bind_eq_some_iff.1 hlast
  obtain rfl := Option.some.inj ht
  cases step_cases hstep with
  | sessionErr =>
    refine ⟨hdue.2, _, rfl, Nat.le_add_right _ _, ?_⟩
    exact Nat.add_le_add_left (jitterMillis_le backoff subsecNanos) backoff

theorem backsOff_endsCleanly_demo : demo.BacksOff endsCleanly :=
  backsOff_endsCleanly demo (by decide)

/-- A session fails, the next one completes its initial sync and fails: the sleep is that of a second
failure. -/
theorem not_backsOff_succeeds : ¬ (demo.backoffMin ≤ demo.backoffMax → demo.BacksOff succeeds) := by
  intro h
  have hwaits := h (by decide) (PodCache.new 10 HealthState.new)
    [.sessionErr 0, .wake, .resync (some []), .deliver demoFs .initDone] 0 _ rfl
  exact absurd hwaits.base (by decide)

/-! ### The connection flag -/

/-- Whether the latest event that says something about the connection is a success. -/
def seeConnection (latest : Option Bool) : WatchAction → Option Bool
  | .deliver _ .initDone | .resync (some _) => some true
  | .sessionEnd | .sessionErr _ => some false
  | _ => latest

/-- The flag says what the latest such event says. -/
def Connected (s : WatcherState × Option Bool) : Prop :=
  s.1.cache.health.k8sWatcherConnected = true ↔ s.2 = some true

/-- No session ends without error while the latest event is a success. -/
def EndsUnconnected (s : WatcherState × Option Bool) (a : WatchAction) : Prop :=
  a = .sessionEnd → s.2 ≠ some true

theorem handlePodApply_connected (resolver : CgroupResolver) (fs : Fs) (c : PodCache) (pod : Pod) :
    (handlePodApply resolver fs c pod).health.k8sWatcherConnected = c.health.k8sWatcherConnected := by
  by_cases hu : pod.podUid = ""
  · rw [handlePodApply_of_uid_empty hu]
  · refine handlePodApply_induct
      (R := fun c' => c'.health.k8sWatcherConnected = c.health.k8sWatcherConnected) hu (fun _ => rfl) ?_ ?_
    · intro _ md _ _ _
      exact PodCache.insertByIp_k8sWatcherConnected
    · intro c' g md h _ _
      exact PodCache.insertByIp_k8sWatcherConnected.trans h

theorem handlePodDelete_connected (c : PodCache) (pod : Pod) :
    (handlePodDelete c pod).health.k8sWatcherConnected = c.health.k8sWatcherConnected := by
  unfold handlePodDelete
  split
  · rfl
  · rw [PodCache.removePod_health]
    split <;> rfl

theorem connected_step_iff {p q : WatcherState × Option Bool} (h : Connected p)
    (hq : observe w.step seeConnection p a = some q) : Connected q ↔ EndsUnconnected p a := by
  obtain ⟨⟨c, backoff, phase⟩, latest⟩ := p
  obtain ⟨t, latest'⟩ := q
  obtain ⟨ht, rfl⟩ := observe_eq_some.1 hq
  have hkeep (c' : PodCache) (hc : c'.health.k8sWatcherConnected = c.health.k8sWatcherConnected) :
      (c'.health.k8sWatcherConnected = true ↔ latest = some true) := by rw [hc]; exact h
  cases step_cases ht with
  | deliver fs event =>
    refine iff_of_true ?_ (fun h => nomatch h)
    cases event with
    | apply pod | initApply pod => exact hkeep _ (handlePodApply_connected ..)
    | delete pod => exact hkeep _ (handlePodDelete_connected ..)
    | init => exact h
    | initDone => exact iff_of_true rfl rfl
  | sessionEnd =>
    -- the flag stays as it is, and the session has ended
    constructor
    · intro hflag _ hlatest
      exact absurd (hflag.1 (h.2 hlatest)) (by simp [seeConnection])
    · intro hends
      exact iff_of_false (fun hflag => hends rfl (h.1 hflag)) (by simp [seeConnection])
  | sessionErr subsecNanos =>
    exact iff_of_true (iff_of_false (by simp [HealthState.setK8sWatcherConnected]) (by simp [seeConnection]))
      (fun h => nomatch h)
  | resynced podList => exact iff_of_true (iff_of_true rfl rfl) (fun h => nomatch h)
  | wake duration => exact iff_of_true h (fun h => nomatch h)
  | resyncFailed => exact iff_of_true h (fun h => nomatch h)
  | cancel phase hne => exact iff_of_true h (fun h => nomatch h)

/-- In every run, the flag is true in exactly the states whose latest event is a success, exactly when
no session ends without error right after a success. -/
theorem connected_throughout_iff (w : PodWatcher) (maxEntries : Nat) (acts : List WatchAction) :
    Throughout (observe w.step seeConnection) Connected
        (w.start (PodCache.new maxEntries HealthState.new), none) acts ↔
      EachStep (observe w.step seeConnection) EndsUnconnected
        (w.start (PodCache.new maxEntries HealthState.new), none) acts :=
  throughout_iff_eachStep (fun _ _ _ _ _ h ht => connected_step_iff h ht)
    (throughout_true _ acts)
    (iff_of_false (by simp [start, PodCache.new, HealthState.new]) (by simp))

/-- The stream of a synchronised watcher ends: the agent goes on to report the watcher as connected. -/
theorem not_connected_sessionEnd :
    ¬ Throughout (observe demo.step seeConnection) Connected
      (demo.start (PodCache.new 10 HealthState.new), none) [.deliver demoFs .initDone, .sessionEnd] := by
  intro h
  exact absurd ((h.last rfl).1 rfl) (by decide)

end PodWatcher
end Orb8
