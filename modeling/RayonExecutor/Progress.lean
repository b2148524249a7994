import RayonExecutor.Ownership

/-!
# How the termination predicate changes

The termination predicate is not stored: every method recomputes it from the lifecycle and three
counters. `Progress` says once what a step can do to it. It never becomes false again, the observed
lifecycle never moves backwards, and a step that makes it true wakes the blocking waiters in the
same critical section and owes the publication. `Published` follows the publications that are owed
to the watch channel.
-/

namespace RayonExecutor

open Transition Pool

variable {W : Watch} {J : Type}

/-- What a step from `st` to `st'` that leaves its thread with `new` can do to the termination
predicate. -/
structure Progress (st st' : RayonExecutorServiceState W J) (new : Multiset (Thread W J)) :
    Prop where
  final : st.inner.Terminated → st'.inner.Terminated
  stored : st.inner.lifecycle ≠ .terminated →
    st'.inner.lifecycle ≠ .terminated ∧ st.inner.lifecycle.rank ≤ st'.inner.lifecycle.rank
  notified : st.terminated.notifications ≤ st'.terminated.notifications
  woken : ¬ st.inner.Terminated → st'.inner.Terminated →
    st.terminated.notifications < st'.terminated.notifications ∧
      ∃ t ∈ new, t.changes.terminated = true

/-- `notify_if_terminated_locked` notifies when the predicate holds. -/
theorem RayonExecutorServiceState.notifications_notifiedWith (st : RayonExecutorServiceState W J)
    (inner : RayonExecutorServiceInner J) : (st.notifiedWith inner).terminated.notifications =
      if inner.Terminated then st.terminated.notifications + 1
      else st.terminated.notifications := by
  rw [RayonExecutorServiceState.notifiedWith_terminated]
  split_ifs <;> rfl

namespace Progress

variable {st st' : RayonExecutorServiceState W J} {new : Multiset (Thread W J)}
  {inner : RayonExecutorServiceInner J}

/-- A step that leaves the data and the condition variable alone. -/
theorem silent (hi : st'.inner = st.inner) (ht : st'.terminated = st.terminated) :
    Progress st st' new where
  final h := hi ▸ h
  stored h := by rw [hi]; exact ⟨h, le_rfl⟩
  notified := by rw [ht]
  woken h h' := absurd (hi ▸ h') h

/-- A step between states that are both not terminated. -/
theorem busy (h : ¬ st.inner.Terminated) (h' : ¬ st'.inner.Terminated)
    (hl : st'.inner.lifecycle = st.inner.lifecycle) (ht : st'.terminated = st.terminated) :
    Progress st st' new where
  final h1 := absurd h1 h
  stored h := by rw [hl]; exact ⟨h, le_rfl⟩
  notified := by rw [ht]
  woken _ h1 := absurd h1 h'

/-- A critical section that ends with `notify_if_terminated_locked`. -/
theorem notifiedWith {changes : AsyncChanges} {control : Control W J}
    (hf : st.inner.Terminated → inner.Terminated)
    (hl : st.inner.lifecycle ≠ .terminated →
      inner.lifecycle ≠ .terminated ∧ st.inner.lifecycle.rank ≤ inner.lifecycle.rank)
    (hc : changes.terminated = inner.Terminated) :
    Progress st (st.notifiedWith inner) {⟨changes, control⟩} where
  final h := by
    rw [RayonExecutorServiceState.notifiedWith_inner]
    exact hf h
  stored := by
    rw [RayonExecutorServiceState.notifiedWith_inner]
    exact hl
  notified := by
    rw [RayonExecutorServiceState.notifications_notifiedWith]
    split_ifs <;> omega
  woken _ h' := by
    rw [RayonExecutorServiceState.notifiedWith_inner] at h'
    rw [RayonExecutorServiceState.notifications_notifiedWith, if_pos h']
    exact ⟨Nat.lt_succ_self _, _, Multiset.mem_singleton_self _, by simp [hc, h']⟩

/-- The additional `notify_all` of `finish_cancelling`. -/
theorem notifyAll (h : Progress st st' new) :
    Progress st { st' with terminated := st'.terminated.notifyAll } new where
  final := h.final
  stored := h.stored
  notified := le_trans h.notified (Nat.le_succ _)
  woken h1 h2 := ⟨lt_trans (h.woken h1 h2).1 (Nat.lt_succ_self _), (h.woken h1 h2).2⟩

/-- The first action of an operation. -/
theorem call {bits : ℕ} {e : Event W J} (hc : Call bits st e st' new) : Progress st st' new := by
  cases hc with
  | admitJob ha =>
    cases RayonExecutorServiceState.admitJob_cases ha with
    | shutdown | saturated | exhausted => exact silent rfl rfl
    | unwound hl | accepted hl =>
      -- past the lifecycle check the service is running, before and afterwards
      exact busy (fun h => h.1 hl) (fun h => h.1 hl) rfl rfl
  | cancel hd =>
    cases RayonExecutorServiceState.cancelPendingTask_cases hd with
    | owned hr =>
      -- the claimed task was queued before, and is being cancelled afterwards
      refine busy (fun h => ?_) (fun h => ?_) rfl rfl
      · have hlen := OrderedMap.length_of_remove hr
        have hzero := (RayonExecutorServiceInner.terminated_iff.1 h).2.1
        omega
      · exact Finset.insert_ne_empty _ _ (RayonExecutorServiceInner.terminated_iff.1 h).2.2.2
    | inProgress | absent => exact silent rfl rfl
  | shutdown hs =>
    obtain ⟨inner, lifecycle, rfl, hl, rfl, rfl⟩ := RayonExecutorServiceState.shutdown_cases hs
    refine notifiedWith (fun h => ?_) (fun h => ?_) (by simp)
    · -- a terminated service is not running, so its lifecycle stays
      rcases hl with ⟨hl, rfl⟩ | ⟨hl, rfl⟩
      · exact absurd hl h.1
      · exact h
    · rcases hl with ⟨hl, rfl⟩ | ⟨hl, rfl⟩
      · simp [ExecutorServiceLifecycle.rank, hl]
      · exact ⟨h, le_rfl⟩
  | stop hs =>
    obtain ⟨inner, cancelling, rfl, hcan, hjobs, -, rfl, rfl⟩ :=
      RayonExecutorServiceState.stop_cases hs
    refine notifiedWith (fun h => ?_) (fun h => ?_) (by simp)
    · -- with nothing queued the loop claims nothing
      obtain ⟨hl, hq, hr, hc⟩ := RayonExecutorServiceInner.terminated_iff.1 h
      have hentries : st.inner.queue.entries = [] := List.length_eq_zero_iff.1 hq
      rw [hjobs, hentries, RayonExecutorServiceState.claimJobs] at hcan
      exact RayonExecutorServiceInner.terminated_iff.2 ⟨by simp, rfl, hr, hcan.trans hc⟩
    · -- no stored lifecycle is above `Stopping`
      refine ⟨by simp, ?_⟩
      cases hl : st.inner.lifecycle <;> simp_all [ExecutorServiceLifecycle.rank]
  | _ => exact silent rfl rfl

/-- An action of a thread. -/
theorem action {t : Thread W J} {e : Event W J} (ha : Action t st e st' new) :
    Progress st st' new := by
  cases ha with
  | takeNext hs =>
    cases RayonExecutorServiceState.takeNext_cases hs with
    | idle hinner =>
      subst hinner
      exact notifiedWith (fun h => h) (fun h => ⟨h, le_rfl⟩) (by simp)
    | taken hp =>
      -- the taken task was queued before, and runs afterwards
      refine busy (fun h => ?_) (fun h => ?_) rfl rfl
      · have hlen := OrderedMap.length_of_popFirst hp
        have hzero := (RayonExecutorServiceInner.terminated_iff.1 h).2.1
        omega
      · exact Nat.succ_ne_zero _ (RayonExecutorServiceInner.terminated_iff.1 h).2.2.1
  | finishRunning hs =>
    obtain ⟨inner, scheduled, rfl, -, rfl, rfl⟩ := RayonExecutorServiceState.finishRunning_cases hs
    refine notifiedWith (fun h => ?_) (fun h => ⟨h, le_rfl⟩) (by simp)
    obtain ⟨hl, hq, hr, hc⟩ := RayonExecutorServiceInner.terminated_iff.1 h
    exact RayonExecutorServiceInner.terminated_iff.2 ⟨hl, hq, by simp [hr], hc⟩
  | finishCancelling hs =>
    obtain ⟨inner, rfl, rfl, rfl⟩ := RayonExecutorServiceState.finishCancelling_cases hs
    refine notifyAll (notifiedWith (fun h => ?_) (fun h => ⟨h, le_rfl⟩) (by simp))
    obtain ⟨hl, hq, hr, hc⟩ := RayonExecutorServiceInner.terminated_iff.1 h
    exact RayonExecutorServiceInner.terminated_iff.2 ⟨hl, hq, hr, by simp [hc]⟩
  | _ => exact silent rfl rfl

/-- A step that makes progress does so among more threads. -/
theorem mono (h : Progress st st' new) (ts : Multiset (Thread W J)) :
    Progress st st' (new + ts) where
  final := h.final
  stored := h.stored
  notified := h.notified
  woken h1 h2 := by
    obtain ⟨hlt, t, ht, hc⟩ := h.woken h1 h2
    exact ⟨hlt, t, Multiset.mem_add.2 (Or.inl ht), hc⟩

end Progress

/-- What a step of the service can do to the termination predicate. -/
theorem Service.Step.progress {cfg : Config} {s s' : Service W J} {e : Event W J}
    (h : Service.Step cfg s e s') : Progress s.shared s'.shared s'.threads := by
  rcases h with hc | ⟨⟨ha⟩⟩
  · exact (Progress.call hc).mono _
  · exact (Progress.action ha).mono _

/-! ## The lifecycle -/

/-- The stored lifecycle is never `Terminated`, which only the queries report. -/
theorem Service.Run.stored {cfg : Config} {tr : List (Event W J)} {s : Service W J}
    (h : Service.Run cfg tr s) : s.shared.inner.lifecycle ≠ .terminated :=
  h.invariant (P := fun _ s => s.shared.inner.lifecycle ≠ .terminated)
    (by simp [RayonExecutorServiceState.new]) fun _ h hs => (hs.progress.stored h).1

/-- `lifecycle` reports `Terminated` exactly when the predicate holds. -/
theorem RayonExecutorServiceState.lifecycle_eq_terminated {st : RayonExecutorServiceState W J}
    (h : st.inner.lifecycle ≠ .terminated) : st.lifecycle = .terminated ↔ st.inner.Terminated := by
  unfold RayonExecutorServiceState.lifecycle
  split_ifs with ht
  · simp [ht]
  · simp [ht, h]

/-- `lifecycle` does not move backwards. -/
theorem Service.Step.rank_le {cfg : Config} {s s' : Service W J} {e : Event W J}
    (h : Service.Step cfg s e s') (hl : s.shared.inner.lifecycle ≠ .terminated) :
    s.shared.lifecycle.rank ≤ s'.shared.lifecycle.rank := by
  have hp := h.progress
  have hstored := (hp.stored hl).2
  have htop : ∀ lifecycle : ExecutorServiceLifecycle, lifecycle.rank ≤ 3 := by
    intro lifecycle
    cases lifecycle <;> decide
  unfold RayonExecutorServiceState.lifecycle
  by_cases ht : s.shared.inner.Terminated
  · -- the predicate is final, so both report the top
    rw [if_pos ht, if_pos (hp.final ht)]
  · rw [if_neg ht]
    split_ifs
    · exact htop _
    · exact hstored

/-- The two operations that leave `Running`. -/
def Event.Closes : Event W J → Prop
  | .shutdown | .stop _ _ => True
  | _ => False

/-- Only `shutdown` and `stop` leave `Running`. -/
theorem Service.Step.closes {cfg : Config} {s s' : Service W J} {e : Event W J}
    (h : Service.Step cfg s e s') (hl : s.shared.inner.lifecycle = .running)
    (hl' : s'.shared.inner.lifecycle ≠ .running) : e.Closes := by
  rcases h with hc | ⟨⟨ha⟩⟩
  · cases hc with
    | shutdown | stop => trivial
    | admitJob ha =>
      cases RayonExecutorServiceState.admitJob_cases ha <;> exact absurd hl hl'
    | cancel hd =>
      cases RayonExecutorServiceState.cancelPendingTask_cases hd <;> exact absurd hl hl'
    | _ => exact absurd hl hl'
  · cases ha with
    | takeNext hs =>
      cases RayonExecutorServiceState.takeNext_cases hs with
      | idle hinner =>
        subst hinner
        exact absurd (by simpa using hl) hl'
      | taken => exact absurd hl hl'
    | finishRunning hs =>
      obtain ⟨inner, _, rfl, -, rfl, rfl⟩ := RayonExecutorServiceState.finishRunning_cases hs
      exact absurd (by simpa using hl) hl'
    | finishCancelling hs =>
      obtain ⟨inner, rfl, rfl, rfl⟩ := RayonExecutorServiceState.finishCancelling_cases hs
      exact absurd (by simpa using hl) hl'
    | _ => exact absurd hl hl'

/-- A service that is not running has been shut down or stopped. -/
theorem Service.Run.closed {cfg : Config} {tr : List (Event W J)} {s : Service W J}
    (h : Service.Run cfg tr s) (hl : s.shared.inner.lifecycle ≠ .running) :
    ∃ e ∈ tr, e.Closes := by
  revert hl
  refine h.invariant (P := fun tr s => s.shared.inner.lifecycle ≠ .running → ∃ e ∈ tr, e.Closes)
    (fun hl => absurd rfl hl) ?_
  intro tr s e s' _ ih hs hl'
  by_cases hl : s.shared.inner.lifecycle = .running
  · exact ⟨e, List.mem_cons_self, hs.closes hl hl'⟩
  · obtain ⟨e', he', hc⟩ := ih hl
    exact ⟨e', List.mem_cons_of_mem _ he', hc⟩

/-! ## Publications -/

/-- The publications of termination that changed the watch value. -/
def Event.publications : Event W J → ℕ
  | .publishTermination true => 1
  | _ => 0

/-- The publications that a history owes, and those it has made. -/
structure Published (tr : List (Event W J)) (st : RayonExecutorServiceState W J)
    (ts : Multiset (Thread W J)) : Prop where
  sound : W.borrow st.termination_tx = true → st.inner.Terminated
  owed_sound : ∀ t ∈ ts, t.changes.terminated = true → st.inner.Terminated
  owed : st.inner.Terminated →
    W.borrow st.termination_tx = true ∨ ∃ t ∈ ts, t.changes.terminated = true
  once : tally Event.publications tr = if W.borrow st.termination_tx then 1 else 0

section
variable {st st' : RayonExecutorServiceState W J} {new : Multiset (Thread W J)} {e : Event W J}

/-- Only the publication of termination touches its channel. -/
theorem Action.termination_tx {t : Thread W J} (h : Action t st e st' new)
    (he : ∀ modified, e ≠ .publishTermination modified) :
    st'.termination_tx = st.termination_tx := by
  rcases h.frame_or_publish with ⟨-, hf⟩ | ⟨-, -, rfl⟩ | ⟨-, ⟨modified, rfl⟩, -⟩
  · exact hf.termination_tx
  · rfl
  · exact absurd rfl (he modified)

/-- An operation starts with a publication of termination to make only when the predicate holds. -/
theorem Call.owes {bits : ℕ} (h : Call bits st e st' new) :
    ∀ t ∈ new, t.changes.terminated = true → st'.inner.Terminated := by
  cases h with
  | admitJob ha =>
    rename_i outcome
    cases outcome <;> simp [AsyncChanges.none]
  | shutdown hs =>
    obtain ⟨_, _, -, -, rfl, rfl⟩ := RayonExecutorServiceState.shutdown_cases hs
    simp
  | stop hs =>
    obtain ⟨_, _, -, -, -, -, rfl, rfl⟩ := RayonExecutorServiceState.stop_cases hs
    simp
  | _ => simp [AsyncChanges.none]

/-- An action leaves a publication of termination to make only when the predicate holds, if its
thread did. -/
theorem Action.owes {t : Thread W J} (h : Action t st e st' new)
    (ht : t.changes.terminated = true → st.inner.Terminated) :
    ∀ u ∈ new, u.changes.terminated = true → st'.inner.Terminated := by
  cases h with
  | publishCapacity =>
    intro u hu huc
    obtain rfl := Multiset.mem_singleton.1 hu
    exact ht huc
  | takeNext hs =>
    cases RayonExecutorServiceState.takeNext_cases hs <;> simp [AsyncChanges.none]
  | finishRunning hs =>
    obtain ⟨_, _, -, -, rfl, rfl⟩ := RayonExecutorServiceState.finishRunning_cases hs
    simp
  | finishCancelling hs =>
    obtain ⟨_, -, rfl, rfl⟩ := RayonExecutorServiceState.finishCancelling_cases hs
    simp
  | _ => simp [AsyncChanges.none]

/-- What `publish_termination` leaves in the channel. -/
theorem RayonExecutorServiceState.borrow_publishTermination (st : RayonExecutorServiceState W J) :
    W.borrow st.publishTermination.termination_tx = true := by
  unfold RayonExecutorServiceState.publishTermination RayonExecutorServiceState.setTerminated
  rw [Watch.borrow_sendIfModified]
  split_ifs with hcurrent <;> simp [hcurrent]

/-- A publication of termination that is owed stays owed until it is made. -/
theorem Action.keeps_owed {t : Thread W J} (h : Action t st e st' new)
    (ht : t.changes.terminated = true) :
    W.borrow st'.termination_tx = true ∨ ∃ u ∈ new, u.changes.terminated = true := by
  cases h with
  | publishCapacity => exact Or.inr ⟨_, Multiset.mem_singleton_self _, ht⟩
  | publishTermination => exact Or.inl st.borrow_publishTermination
  | _ => exact absurd ht Bool.false_ne_true

end

namespace Published

variable {tr : List (Event W J)} {st st' : RayonExecutorServiceState W J}
  {ts new : Multiset (Thread W J)} {e : Event W J}

/-- The first action of an operation. -/
theorem call (h : Published tr st ts) {bits : ℕ} (hc : Call bits st e st' new) :
    Published (e :: tr) st' (new + ts) := by
  have hp := Progress.call hc
  have htx := hc.frame.termination_tx
  have he : e.publications = 0 := by cases hc <;> rfl
  constructor
  · rw [htx]
    exact fun hv => hp.final (h.sound hv)
  · intro t ht hchanges
    rcases Multiset.mem_add.1 ht with ht | ht
    · exact hc.owes t ht hchanges
    · exact hp.final (h.owed_sound t ht hchanges)
  · intro hterm
    rw [htx]
    by_cases hold : st.inner.Terminated
    · refine (h.owed hold).imp_right ?_
      rintro ⟨t, ht, hchanges⟩
      exact ⟨t, Multiset.mem_add.2 (Or.inr ht), hchanges⟩
    · -- this step has made the predicate true, and its thread owes the publication
      obtain ⟨-, t, ht, hchanges⟩ := hp.woken hold hterm
      exact Or.inr ⟨t, Multiset.mem_add.2 (Or.inl ht), hchanges⟩
  · rw [tally_cons, he, zero_add, htx]
    exact h.once

/-- An action of a thread. -/
theorem action {t : Thread W J} (h : Published tr st (t ::ₘ ts)) (ha : Action t st e st' new) :
    Published (e :: tr) st' (new + ts) := by
  have hp := Progress.action ha
  have hmem := Multiset.mem_cons_self t ts
  constructor
  · intro hv
    by_cases he : ∀ modified, e ≠ .publishTermination modified
    · rw [ha.termination_tx he] at hv
      exact hp.final (h.sound hv)
    · push Not at he
      obtain ⟨modified, rfl⟩ := he
      cases ha
      exact h.owed_sound _ hmem rfl
  · intro u hu hchanges
    rcases Multiset.mem_add.1 hu with hu | hu
    · exact ha.owes (h.owed_sound t hmem) u hu hchanges
    · exact hp.final (h.owed_sound u (Multiset.mem_cons_of_mem hu) hchanges)
  · intro hterm
    by_cases hold : st.inner.Terminated
    · rcases h.owed hold with hv | ⟨u, hu, hchanges⟩
      · left
        by_cases he : ∀ modified, e ≠ .publishTermination modified
        · rw [ha.termination_tx he, hv]
        · push Not at he
          obtain ⟨modified, rfl⟩ := he
          cases ha
          exact st.borrow_publishTermination
      · -- the publication was owed by the acting thread or by another one
        rcases Multiset.mem_cons.1 hu with rfl | hu
        · refine (ha.keeps_owed hchanges).imp_right ?_
          rintro ⟨v, hv, hvc⟩
          exact ⟨v, Multiset.mem_add.2 (Or.inl hv), hvc⟩
        · exact Or.inr ⟨u, Multiset.mem_add.2 (Or.inr hu), hchanges⟩
    · obtain ⟨-, u, hu, hchanges⟩ := hp.woken hold hterm
      exact Or.inr ⟨u, Multiset.mem_add.2 (Or.inl hu), hchanges⟩
  · by_cases he : ∀ modified, e ≠ .publishTermination modified
    · have hzero : e.publications = 0 := by
        cases e with
        | publishTermination modified => exact absurd rfl (he modified)
        | _ => rfl
      rw [tally_cons, hzero, zero_add, ha.termination_tx he]
      exact h.once
    · -- the value was false exactly if this publication is the one that changes it
      push Not at he
      obtain ⟨modified, rfl⟩ := he
      cases ha
      rw [tally_cons, h.once, st.borrow_publishTermination]
      cases hv : W.borrow st.termination_tx <;>
        simp [RayonExecutorServiceState.setTerminated, Event.publications]

end Published

/-- The publications of termination are accounted for in every reachable state. -/
theorem Service.Run.published {cfg : Config} {tr : List (Event W J)} {s : Service W J}
    (h : Service.Run cfg tr s) : Published tr s.shared s.threads := by
  refine Pool.invariant (P := Published) ?_ (fun _ h hc => h.call hc) (fun _ h ha => h.action ha) h
  constructor <;> simp [RayonExecutorServiceState.new, RayonExecutorServiceInner.Terminated]

end RayonExecutor
