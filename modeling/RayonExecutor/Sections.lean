import RayonExecutor.Code

/-!
# The critical sections

What each critical section of the code does under the lock: it reads and writes the data, notifies
the condition variable, subscribes, and calls `accept`. It runs no user code. The one statement that
could is the `insert` into the queue, which drops what it displaces. It displaces nothing, because
queued tasks have identifiers below the next one (`Fresh`), and every section leaves the data so.
-/

namespace RayonExecutor

open Program

/-- Queued tasks have identifiers that have been handed out. -/
def RayonExecutorServiceInner.Fresh {J : Type} (inner : RayonExecutorServiceInner J) : Prop :=
  ∀ id ∈ inner.queue.keys, id < inner.next_task_id

namespace RayonExecutorServiceInner.Fresh

variable {J : Type} {inner inner' : RayonExecutorServiceInner J}

/-- A new service has no tasks. -/
theorem new (W : Watch) (J : Type) (task_capacity num_threads : ℕ) :
    (RayonExecutorServiceState.new W J task_capacity num_threads).inner.Fresh := by
  intro id hid
  simp [RayonExecutorServiceState.new] at hid

/-- The next identifier is not in use. -/
theorem get?_next (h : inner.Fresh) : inner.queue.get? inner.next_task_id = none :=
  OrderedMap.get?_eq_none.2 fun hm => absurd (h _ hm) (lt_irrefl _)

/-- The data stay fresh when tasks leave the queue and identifiers are handed out. -/
theorem mono (h : inner.Fresh) (hqueue : ∀ id ∈ inner'.queue.keys, id ∈ inner.queue.keys)
    (hnext : inner.next_task_id ≤ inner'.next_task_id) : inner'.Fresh :=
  fun id hid => lt_of_lt_of_le (h id (hqueue id hid)) hnext

/-- The data stay fresh when the next task enters the queue. -/
theorem insert (h : inner.Fresh) {job : J}
    (hqueue : inner'.queue = inner.queue.insert inner.next_task_id job)
    (hnext : inner'.next_task_id = inner.next_task_id + 1) : inner'.Fresh := by
  intro id hid
  rw [hqueue] at hid
  rw [hnext]
  rcases OrderedMap.mem_keys_insert hid with rfl | hm
  · exact Nat.lt_succ_self _
  · exact Nat.lt_succ_of_lt (h id hm)

end RayonExecutorServiceInner.Fresh

/-- A checked sum that does not overflow is the sum. -/
theorem eq_add_of_checkedAdd {bits a b c : ℕ} (h : checkedAdd bits a b = some c) : c = a + b := by
  unfold checkedAdd at h
  split_ifs at h
  exact (Option.some.inj h).symm

variable {W : Watch} {C : Client} {α : Type}

/-- Whether what an effect answers is up to the users: which tasks wait for a channel, and how a
task has ended. -/
def Op.outer : Op W C → Bool
  | .sendCapacity => true
  | .sendTermination => true
  | .status _ => true
  | .fallback _ => true
  | _ => false

namespace Code

/-- A critical section of the service. -/
abbrev Section (body : Code W C α) : Prop :=
  Critical RayonExecutorServiceInner.Fresh Op.outer body

/-- The queries. -/
theorem query_section (f : RayonExecutorServiceInner C.Job → α) : Section (do
    let inner ← Program.read
    pure (f inner) : Code W C α) := Critical.read fun _ _ => trivial

/-- `notify_if_terminated_locked`. -/
theorem notifyIfTerminatedLocked_section :
    Section (notifyIfTerminatedLocked : Code W C Bool) := by
  refine Critical.read fun inner _ => ?_
  split_ifs
  · exact Critical.other rfl fun _ => trivial
  · trivial

/-- `admit` displaces nothing. -/
theorem admitLocked_section (bits : ℕ) (job : C.Job) :
    Section (admitLocked bits job : Code W C (Except SubmissionError Admission)) := by
  refine Critical.read fun inner hfresh => ?_
  split_ifs
  · trivial
  · trivial
  · cases hnext : checkedAdd bits inner.next_task_id 1 with
    | none => trivial
    | some next_task_id =>
      have hn : next_task_id = inner.next_task_id + 1 := eq_add_of_checkedAdd hnext
      have hle : inner.next_task_id ≤ next_task_id := hn ▸ Nat.le_succ _
      refine Critical.write (hfresh.mono (fun _ hid => hid) hle) (Critical.other rfl fun r => ?_)
      cases r with
      | error payload => trivial
      | ok u =>
        refine Critical.write (hfresh.insert rfl hn) ?_
        simp only [hfresh.get?_next]
        exact Critical.write (hfresh.insert rfl hn) trivial

/-- `take_next`. -/
theorem takeNextLocked_section : Section (takeNextLocked : Code W C (Bool ⊕ ℕ × C.Job)) := by
  refine Critical.read fun inner hfresh => ?_
  cases hp : inner.queue.popFirst with
  | none =>
    refine Critical.write (hfresh.mono (fun _ hid => hid) le_rfl) ?_
    exact notifyIfTerminatedLocked_section.bind fun _ => trivial
  | some e =>
    exact Critical.write
      (hfresh.mono (fun _ hid => OrderedMap.mem_keys_of_popFirst hp hid) le_rfl) trivial

/-- `finish_running`. -/
theorem finishRunningLocked_section (task_id : ℕ) :
    Section (finishRunningLocked task_id : Code W C (Bool × Bool)) := by
  refine Critical.read fun inner hfresh => Critical.write ?_ ?_
  · split_ifs <;> exact hfresh.mono (fun _ hid => hid) le_rfl
  · exact notifyIfTerminatedLocked_section.bind fun _ => trivial

/-- `cancel_pending_task`. -/
theorem cancelPendingTaskLocked_section (task_id : ℕ) :
    Section (cancelPendingTaskLocked task_id : Code W C (CancelDisposition C.Job)) := by
  refine Critical.read fun inner hfresh => ?_
  cases hr : inner.queue.remove task_id with
  | none =>
    dsimp only
    split_ifs <;> trivial
  | some e =>
    exact Critical.write
      (hfresh.mono (fun _ hid => OrderedMap.mem_keys_of_remove hr hid) le_rfl) trivial

/-- `finish_cancelling`. -/
theorem finishCancellingLocked_section (task_id : ℕ) :
    Section (finishCancellingLocked task_id : Code W C Bool) := by
  refine Critical.read fun inner hfresh => Critical.write ?_ ?_
  · exact hfresh.mono (fun _ hid => hid) le_rfl
  · exact notifyIfTerminatedLocked_section.bind fun _ => Critical.other rfl fun _ => trivial

/-- `shutdown`. -/
theorem shutdownLocked_section : Section (shutdownLocked : Code W C Bool) := by
  refine Critical.read fun inner hfresh => Critical.write ?_ notifyIfTerminatedLocked_section
  split_ifs
  · exact hfresh.mono (fun _ hid => hid) le_rfl
  · exact hfresh

/-- `stop`. -/
theorem stopLocked_section :
    Section (stopLocked : Code W C ((StopReport × List (ℕ × C.Job)) × Bool)) := by
  refine Critical.read fun inner hfresh => Critical.write ?_ ?_
  · intro id hid
    simp at hid
  · exact notifyIfTerminatedLocked_section.bind fun _ => trivial

end Code

end RayonExecutor
