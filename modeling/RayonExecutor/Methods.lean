import RayonExecutor.Sections

/-!
# The critical sections compute the methods

`State.lean` has the critical section of a method as one function of the state, `Code.lean` as a
program. Here the two translations meet. `Within body st Q` says how a program ends that runs under
the lock from the state `st`, for all answers that do not come from the state. For each method, its
section ends with what the function returns, and in the state that the function leaves.
-/

namespace RayonExecutor

open Program

variable {W : Watch} {C : Client} {α β : Type}

namespace Code

/-- Under the lock the program ends in `Q` from the state `st`, however `accept` ends and whatever
receivers it is given. -/
def Within : Code W C α → RayonExecutorServiceState W C.Job →
    (Except C.Payload α → RayonExecutorServiceState W C.Job → Prop) → Prop
  | .ret a, st, Q => Q (.ok a) st
  | .unwind payload, st, Q => Q (.error payload) st
  | .effect .get k, st, Q => Within (k st.inner) st Q
  | .effect (.set inner) k, st, Q => Within (k ()) { st with inner := inner } Q
  | .effect (.other .notifyAll) k, st, Q =>
    Within (k ()) { st with terminated := st.terminated.notifyAll } Q
  | .effect (.other (.accept _)) k, st, Q => ∀ r, Within (k r) st Q
  | .effect (.other .subscribeCapacity) k, st, Q => ∀ r, Within (k r) st Q
  | .effect _ _, _, _ => False

section Within
variable {st : RayonExecutorServiceState W C.Job}
  {Q : Except C.Payload α → RayonExecutorServiceState W C.Job → Prop}

/-- A program may be asked to end in less. -/
theorem Within.mono {m : Code W C α} (hm : Within m st Q)
    {Q' : Except C.Payload α → RayonExecutorServiceState W C.Job → Prop}
    (hQ : ∀ o st', Q o st' → Q' o st') : Within m st Q' := by
  induction m generalizing st with
  | ret | unwind => exact hQ _ _ hm
  | effect e k ih =>
    cases e with
    | get => exact ih st.inner hm
    | set => exact ih () hm
    | other o =>
      cases o with
      | notifyAll => exact ih () hm
      | accept | subscribeCapacity => exact fun r => ih r (hm r)
      | _ => exact absurd hm id
    | _ => exact absurd hm id

/-- The rule for sequences. -/
theorem Within.bind {m : Code W C β} {f : β → Code W C α}
    (hm : Within m st fun o st' => match o with
      | .ok b => Within (f b) st' Q
      | .error payload => Q (.error payload) st') : Within (m >>= f) st Q := by
  induction m generalizing st with
  | ret | unwind => exact hm
  | effect e k ih =>
    cases e with
    | get => exact ih st.inner hm
    | set => exact ih () hm
    | other o =>
      cases o with
      | notifyAll => exact ih () hm
      | accept | subscribeCapacity => exact fun r => ih r (hm r)
      | _ => exact absurd hm id
    | _ => exact absurd hm id

/-- The rule for reading. -/
theorem Within.read {f : RayonExecutorServiceInner C.Job → Code W C α}
    (hf : Within (f st.inner) st Q) : Within (Program.read >>= f) st Q := hf

/-- The rule for writing. -/
theorem Within.write {inner : RayonExecutorServiceInner C.Job} {f : Unit → Code W C α}
    (hf : Within (f ()) { st with inner := inner } Q) :
    Within (Program.write inner >>= f) st Q := hf

/-- The rule for `notify_if_terminated_locked`. -/
theorem Within.notify {f : Bool → Code W C α}
    (hf : Within (f st.notifyIfTerminatedLocked.1) st.notifyIfTerminatedLocked.2 Q) :
    Within (notifyIfTerminatedLocked >>= f) st Q := by
  refine Within.bind (Within.read ?_)
  unfold RayonExecutorServiceState.notifyIfTerminatedLocked at hf
  split_ifs at hf ⊢ <;> exact hf

end Within

/-! ## The methods -/

/-- The outcome of `admit` as long as it holds the lock. -/
def AdmitOutcome.Matches {P : Type} :
    AdmitOutcome → Except P (Except SubmissionError Admission) → Prop
  | .ok admission, o => o = .ok (.ok admission)
  | .err error, o => o = .ok (.error error)
  | .unwind _, o => ∃ payload, o = .error payload

variable (st : RayonExecutorServiceState W C.Job)

/-- `admit`, when the next identifier is not in use. -/
theorem admitLocked_within (bits : ℕ) (job : C.Job) (hfresh : st.inner.Fresh) :
    Within (admitLocked bits job) st fun o st' => ∃ accept : Exit,
      AdmitOutcome.Matches (st.admitJob bits accept job).1 o ∧
        st' = (st.admitJob bits accept job).2 := by
  unfold admitLocked RayonExecutorServiceState.admitJob
  refine Within.read ?_
  by_cases hl : st.inner.lifecycle ≠ .running
  · simp only [if_pos hl]
    exact ⟨.returned, rfl, rfl⟩
  · by_cases ho : st.inner.occupied ≥ st.inner.task_capacity
    · simp only [if_neg hl, if_pos ho]
      exact ⟨.returned, rfl, rfl⟩
    · simp only [if_neg hl, if_neg ho]
      cases hid : checkedAdd bits st.inner.next_task_id 1 with
      | none => exact ⟨.returned, ⟨_, rfl⟩, rfl⟩
      | some next_task_id =>
        refine Within.write fun r => ?_
        cases r with
        | error payload => exact ⟨.unwound, ⟨payload, rfl⟩, rfl⟩
        | ok u =>
          refine Within.write ?_
          simp only [hfresh.get?_next]
          exact ⟨.returned, rfl, rfl⟩

/-- `take_next`. -/
theorem takeNextLocked_within : Within takeNextLocked st fun o st' =>
    o = .ok (match st.takeNext.value with
      | none => .inl st.takeNext.changes.terminated
      | some taken => .inr taken) ∧ st' = st.takeNext.state := by
  unfold takeNextLocked RayonExecutorServiceState.takeNext
  refine Within.read ?_
  cases hp : st.inner.queue.popFirst with
  | none =>
    simp only [hp]
    exact Within.write (Within.notify ⟨rfl, rfl⟩)
  | some e =>
    simp only [hp]
    exact Within.write ⟨rfl, rfl⟩

/-- `finish_running`. -/
theorem finishRunningLocked_within (task_id : ℕ) :
    Within (finishRunningLocked task_id) st fun o st' =>
      o = .ok ((st.finishRunning task_id).value, (st.finishRunning task_id).changes.terminated) ∧
        st' = (st.finishRunning task_id).state := by
  unfold finishRunningLocked RayonExecutorServiceState.finishRunning
  exact Within.read (Within.write (Within.notify ⟨rfl, rfl⟩))

/-- `cancel_pending_task`. -/
theorem cancelPendingTaskLocked_within (task_id : ℕ) :
    Within (cancelPendingTaskLocked task_id) st fun o st' =>
      o = .ok (st.cancelPendingTask task_id).1 ∧ st' = (st.cancelPendingTask task_id).2 := by
  unfold cancelPendingTaskLocked RayonExecutorServiceState.cancelPendingTask
  refine Within.read ?_
  cases hr : st.inner.queue.remove task_id with
  | none =>
    simp only [hr]
    split_ifs <;> exact ⟨rfl, rfl⟩
  | some e =>
    simp only [hr]
    exact Within.write ⟨rfl, rfl⟩

/-- `finish_cancelling`. -/
theorem finishCancellingLocked_within (task_id : ℕ) :
    Within (finishCancellingLocked task_id) st fun o st' =>
      o = .ok (st.finishCancelling task_id).changes.terminated ∧
        st' = (st.finishCancelling task_id).state := by
  unfold finishCancellingLocked RayonExecutorServiceState.finishCancelling
  exact Within.read (Within.write (Within.notify ⟨rfl, rfl⟩))

/-- `shutdown`. -/
theorem shutdownLocked_within : Within shutdownLocked st fun o st' =>
    o = .ok st.shutdown.changes.terminated ∧ st' = st.shutdown.state := by
  unfold shutdownLocked RayonExecutorServiceState.shutdown
  rw [← bind_ret notifyIfTerminatedLocked]
  exact Within.read (Within.write (Within.notify ⟨rfl, rfl⟩))

/-- `stop`. -/
theorem stopLocked_within : Within stopLocked st fun o st' =>
    o = .ok (st.stop.value, st.stop.changes.terminated) ∧ st' = st.stop.state := by
  unfold stopLocked RayonExecutorServiceState.stop
  exact Within.read (Within.write (Within.notify ⟨rfl, rfl⟩))

/-- The queries. -/
theorem query_within (f : RayonExecutorServiceInner C.Job → α) : Within (do
    let inner ← Program.read
    pure (f inner) : Code W C α) st fun o st' => o = .ok (f st.inner) ∧ st' = st := ⟨rfl, rfl⟩

end Code

end RayonExecutor
