import RayonExecutor.Inner
import RayonExecutor.Lib.Watch
import Mathlib.Algebra.Group.Nat.Defs

/-!
# The methods of the service state

`RayonExecutorServiceState` and its methods, from `src/rayon_executor_service_state.rs`. A method
that locks the mutex is the function that its critical section computes on the whole state. Where
the source calls `notify_async_changes` after it has released the lock, the function returns the
arguments of that call (`AsyncChanges`), and the publication itself is `publishCapacity` and
`publishTermination`, which run without the lock.

Each method has one lemma that says everything it can do (`admitJob_cases`, `takeNext_cases`, and so
on). Proofs about runs use these and never unfold a method.
-/

namespace RayonExecutor

/-- How a call of code outside this crate ends. -/
inductive Exit
  | returned
  | unwound
  deriving DecidableEq, Repr

/-- The unwinding exits of `admit`. -/
inductive AdmitPanic
  | taskIdExhausted
  | accept
  deriving DecidableEq, Repr

/-- How a call of `admit` ends. -/
inductive AdmitOutcome
  | ok (admission : Admission)
  | err (error : SubmissionError)
  | unwind (panic : AdmitPanic)
  deriving DecidableEq, Repr

/-- `usize::checked_add` at `bits` bits. -/
def checkedAdd (bits a b : ℕ) : Option ℕ := if a + b < 2^bits then some (a + b) else none

/-- The condition variable for blocking waiters, as the number of `notify_all` calls so far: a
waiter that parked at an earlier count has been notified since. -/
structure Condvar where
  notifications : ℕ
  deriving DecidableEq, Repr

/-- `notify_all`. -/
def Condvar.notifyAll (c : Condvar) : Condvar := ⟨c.notifications + 1⟩

/-- `RayonExecutorServiceState`. -/
structure RayonExecutorServiceState (W : Watch) (J : Type) where
  inner : RayonExecutorServiceInner J
  terminated : Condvar
  termination_tx : W.Sender Bool
  capacity_tx : W.Sender ℕ

/-- The arguments of a call of `notify_async_changes`. -/
structure AsyncChanges where
  capacity_changed : Bool
  terminated : Bool
  deriving DecidableEq, Repr

/-- No call, or a call that publishes nothing. -/
def AsyncChanges.none : AsyncChanges := ⟨false, false⟩

/-- What a method holds when it has released the lock: its result, the publications that it owes,
and the state it has left behind. -/
structure Unlocked (W : Watch) (J α : Type) where
  value : α
  changes : AsyncChanges
  state : RayonExecutorServiceState W J

namespace RayonExecutorServiceState

variable {W : Watch} {J : Type}

/-- `new`. -/
def new (W : Watch) (J : Type) (task_capacity num_threads : ℕ) : RayonExecutorServiceState W J where
  inner :=
    { lifecycle := .running
      task_capacity
      num_threads
      next_task_id := 0
      running := 0
      running_tasks := ∅
      scheduled := 0
      queue := OrderedMap.empty
      cancelling := ∅ }
  terminated := ⟨0⟩
  termination_tx := W.channel false
  capacity_tx := W.channel 0

/-- `notify_if_terminated_locked`: wakes the blocking waiters when the predicate holds. -/
def notifyIfTerminatedLocked (st : RayonExecutorServiceState W J) :
    Bool × RayonExecutorServiceState W J :=
  if st.inner.Terminated then (true, { st with terminated := st.terminated.notifyAll })
  else (false, st)

/-- `lifecycle`. -/
def lifecycle (st : RayonExecutorServiceState W J) : ExecutorServiceLifecycle :=
  if st.inner.Terminated then .terminated else st.inner.lifecycle

/-- `stats`. -/
def stats (st : RayonExecutorServiceState W J) : RayonExecutorServiceStats where
  lifecycle := if st.inner.Terminated then .terminated else st.inner.lifecycle
  task_capacity := st.inner.task_capacity
  queued := st.inner.queue.length
  running := st.inner.running
  cancelling := st.inner.cancelling.card

/-- `is_not_running`. -/
def isNotRunning (st : RayonExecutorServiceState W J) : Bool := st.inner.lifecycle ≠ .running

/-- `admit`, where `accept` is how `job.accept()` ends. The identifier is taken before that call,
so an unwinding `accept` leaves `next_task_id` advanced. -/
def admitJob (bits : ℕ) (accept : Exit) (job : J) (st : RayonExecutorServiceState W J) :
    AdmitOutcome × RayonExecutorServiceState W J :=
  let inner := st.inner
  if inner.lifecycle ≠ .running then (.err .shutdown, st)
  else if inner.occupied ≥ inner.task_capacity then (.err .saturated, st)
  else
    let task_id := inner.next_task_id
    match checkedAdd bits inner.next_task_id 1 with
    -- `expect` unwinds before anything is written
    | none => (.unwind .taskIdExhausted, st)
    | some next_task_id =>
      let inner := { inner with next_task_id := next_task_id }
      match accept with
      | .unwound => (.unwind .accept, { st with inner := inner })
      | .returned =>
        let inner := { inner with queue := inner.queue.insert task_id job }
        -- `saturating_sub` is the subtraction of natural numbers
        let dispatch_count := min inner.queue.length (inner.num_threads - inner.scheduled)
        let inner := { inner with scheduled := inner.scheduled + dispatch_count }
        (.ok ⟨task_id, dispatch_count⟩, { st with inner := inner })

/-- `take_next`. -/
def takeNext (st : RayonExecutorServiceState W J) : Unlocked W J (Option (ℕ × J)) :=
  let inner := st.inner
  match inner.queue.popFirst with
  | none =>
    -- a closure without work gives its reservation back
    let inner := { inner with scheduled := inner.scheduled - 1 }
    let notified := notifyIfTerminatedLocked { st with inner := inner }
    ⟨none, ⟨false, notified.1⟩, notified.2⟩
  | some ((task_id, job), queue) =>
    let inner := { inner with queue := queue }
    let inner := { inner with running := inner.running + 1 }
    let inner := { inner with running_tasks := insert task_id inner.running_tasks }
    ⟨some (task_id, job), .none, { st with inner := inner }⟩

/-- `is_running_task`. -/
def isRunningTask (task_id : ℕ) (st : RayonExecutorServiceState W J) : Bool :=
  task_id ∈ st.inner.running_tasks

/-- `finish_running`. -/
def finishRunning (task_id : ℕ) (st : RayonExecutorServiceState W J) : Unlocked W J Bool :=
  let inner := st.inner
  let inner := { inner with running_tasks := inner.running_tasks.erase task_id }
  let inner := { inner with running := inner.running - 1 }
  -- while work is queued the reservation passes to a successor
  let dispatch := !inner.queue.isEmpty
  let inner := if !dispatch then { inner with scheduled := inner.scheduled - 1 } else inner
  let notified := notifyIfTerminatedLocked { st with inner := inner }
  ⟨dispatch, ⟨true, notified.1⟩, notified.2⟩

/-- `cancel_pending_task`. -/
def cancelPendingTask (task_id : ℕ) (st : RayonExecutorServiceState W J) :
    CancelDisposition J × RayonExecutorServiceState W J :=
  let inner := st.inner
  match inner.queue.remove task_id with
  | some (job, queue) =>
    let inner := { inner with queue := queue }
    let inner := { inner with cancelling := insert task_id inner.cancelling }
    (.owned job, { st with inner := inner })
  | none => if task_id ∈ inner.cancelling then (.inProgress, st) else (.absent, st)

/-- `finish_cancelling`, which notifies the blocking waiters whatever the predicate says. -/
def finishCancelling (task_id : ℕ) (st : RayonExecutorServiceState W J) : Unlocked W J Unit :=
  let inner := st.inner
  let inner := { inner with cancelling := inner.cancelling.erase task_id }
  let notified := notifyIfTerminatedLocked { st with inner := inner }
  ⟨(), ⟨true, notified.1⟩, { notified.2 with terminated := notified.2.terminated.notifyAll }⟩

/-- `shutdown`. -/
def shutdown (st : RayonExecutorServiceState W J) : Unlocked W J Unit :=
  let inner := st.inner
  let inner := if inner.lifecycle = .running then { inner with lifecycle := .shuttingDown }
    else inner
  let notified := notifyIfTerminatedLocked { st with inner := inner }
  ⟨(), ⟨true, notified.1⟩, notified.2⟩

/-- The loop of `stop`: each job of the old queue is claimed and pushed to the owned jobs. -/
def claimJobs (cancelling : Finset ℕ) (owned : List (ℕ × J)) :
    List (ℕ × J) → Finset ℕ × List (ℕ × J)
  | [] => (cancelling, owned)
  | (task_id, job) :: jobs =>
    claimJobs (insert task_id cancelling) (owned ++ [(task_id, job)]) jobs

/-- `stop`. -/
def stop (st : RayonExecutorServiceState W J) :
    Unlocked W J (StopReport × List (ℕ × J)) :=
  let inner := st.inner
  let inner := { inner with lifecycle := .stopping }
  let queued := inner.queue.length
  let running := inner.running
  -- `mem::take`, and the iteration in key order
  let jobs := inner.queue.entries
  let inner := { inner with queue := OrderedMap.empty }
  let claimed := claimJobs inner.cancelling [] jobs
  let inner := { inner with cancelling := claimed.1 }
  let notified := notifyIfTerminatedLocked { st with inner := inner }
  ⟨(⟨queued, running, claimed.2.length⟩, claimed.2), ⟨true, notified.1⟩, notified.2⟩

/-- The first publication of `notify_async_changes`: the capacity generation advances. -/
def publishCapacity (st : RayonExecutorServiceState W J) : RayonExecutorServiceState W J :=
  { st with capacity_tx := W.sendModify st.capacity_tx (fun generation => (generation + 1) % 2^64) }

/-- The closure that `notify_async_changes` and `subscribe_termination` pass to
`send_if_modified`. -/
def setTerminated (current : Bool) : Bool × Bool :=
  if current then (current, false) else (true, true)

/-- The second publication of `notify_async_changes`, which is also the repair of
`subscribe_termination`: the termination value becomes true. -/
def publishTermination (st : RayonExecutorServiceState W J) : RayonExecutorServiceState W J :=
  { st with termination_tx := W.sendIfModified st.termination_tx setTerminated }

/-- `notify_async_changes`, when nothing comes between its publications. -/
def notifyAsyncChanges (changes : AsyncChanges) (st : RayonExecutorServiceState W J) :
    RayonExecutorServiceState W J :=
  let st := if changes.capacity_changed then st.publishCapacity else st
  if changes.terminated then st.publishTermination else st

/-! ## What each method can do -/

/-- The state after a critical section that has put `inner` under the mutex and ends with
`notify_if_terminated_locked`. -/
def notifiedWith (st : RayonExecutorServiceState W J) (inner : RayonExecutorServiceInner J) :
    RayonExecutorServiceState W J := (notifyIfTerminatedLocked { st with inner := inner }).2

section notifiedWith
variable (st : RayonExecutorServiceState W J) (inner : RayonExecutorServiceInner J)

@[simp] theorem notifyIfTerminatedLocked_fst :
    (notifyIfTerminatedLocked st).1 = decide st.inner.Terminated := by
  unfold notifyIfTerminatedLocked
  split_ifs with h <;> simp [h]

@[simp] theorem notifiedWith_inner : (st.notifiedWith inner).inner = inner := by
  unfold notifiedWith notifyIfTerminatedLocked
  split_ifs <;> rfl

@[simp] theorem notifiedWith_termination_tx :
    (st.notifiedWith inner).termination_tx = st.termination_tx := by
  unfold notifiedWith notifyIfTerminatedLocked
  split_ifs <;> rfl

@[simp] theorem notifiedWith_capacity_tx :
    (st.notifiedWith inner).capacity_tx = st.capacity_tx := by
  unfold notifiedWith notifyIfTerminatedLocked
  split_ifs <;> rfl

theorem notifiedWith_terminated : (st.notifiedWith inner).terminated =
    if inner.Terminated then st.terminated.notifyAll else st.terminated := by
  unfold notifiedWith notifyIfTerminatedLocked
  split_ifs <;> rfl

end notifiedWith

/-- What `admit` can do: it rejects without an effect, unwinds, or queues the job under a fresh
identifier and reserves the closures that it tells its caller to dispatch. -/
inductive AdmitJobCases (bits : ℕ) (job : J) (st : RayonExecutorServiceState W J) :
    Exit → AdmitOutcome → RayonExecutorServiceState W J → Prop
  | shutdown {accept : Exit} (hl : st.inner.lifecycle ≠ .running) :
      AdmitJobCases bits job st accept (.err .shutdown) st
  | saturated {accept : Exit} (hl : st.inner.lifecycle = .running)
      (ho : st.inner.task_capacity ≤ st.inner.occupied) :
      AdmitJobCases bits job st accept (.err .saturated) st
  | exhausted {accept : Exit} (hl : st.inner.lifecycle = .running)
      (ho : st.inner.occupied < st.inner.task_capacity)
      (hid : 2^bits ≤ st.inner.next_task_id + 1) :
      AdmitJobCases bits job st accept (.unwind .taskIdExhausted) st
  | unwound (hl : st.inner.lifecycle = .running) (ho : st.inner.occupied < st.inner.task_capacity)
      (hid : st.inner.next_task_id + 1 < 2^bits) :
      AdmitJobCases bits job st .unwound (.unwind .accept)
        { st with inner := { st.inner with next_task_id := st.inner.next_task_id + 1 } }
  | accepted {count : ℕ} (hl : st.inner.lifecycle = .running)
      (ho : st.inner.occupied < st.inner.task_capacity)
      (hid : st.inner.next_task_id + 1 < 2^bits)
      (hcount : count = min (st.inner.queue.insert st.inner.next_task_id job).length
        (st.inner.num_threads - st.inner.scheduled)) :
      AdmitJobCases bits job st .returned (.ok ⟨st.inner.next_task_id, count⟩)
        { st with inner := { st.inner with
          next_task_id := st.inner.next_task_id + 1
          queue := st.inner.queue.insert st.inner.next_task_id job
          scheduled := st.inner.scheduled + count } }

/-- `admit` does nothing else. -/
theorem admitJob_cases {bits : ℕ} {accept : Exit} {job : J} {st st' : RayonExecutorServiceState W J}
    {outcome : AdmitOutcome} (h : admitJob bits accept job st = (outcome, st')) :
    AdmitJobCases bits job st accept outcome st' := by
  unfold admitJob checkedAdd at h
  dsimp only at h
  by_cases hl : st.inner.lifecycle = .running
  · rw [if_neg (not_not.2 hl)] at h
    by_cases hc : st.inner.occupied ≥ st.inner.task_capacity
    · rw [if_pos hc] at h
      obtain ⟨rfl, rfl⟩ := Prod.mk.inj h
      exact .saturated hl hc
    · have hc' := not_le.1 hc
      rw [if_neg hc] at h
      by_cases hn : st.inner.next_task_id + 1 < 2^bits
      · rw [if_pos hn] at h
        cases accept with
        | unwound =>
          obtain ⟨rfl, rfl⟩ := Prod.mk.inj h
          exact .unwound hl hc' hn
        | returned =>
          obtain ⟨rfl, rfl⟩ := Prod.mk.inj h
          exact .accepted hl hc' hn rfl
      · rw [if_neg hn] at h
        obtain ⟨rfl, rfl⟩ := Prod.mk.inj h
        exact .exhausted hl hc' (not_lt.1 hn)
  · rw [if_pos hl] at h
    obtain ⟨rfl, rfl⟩ := Prod.mk.inj h
    exact .shutdown hl

/-- What `take_next` can do: it gives a reservation back when the queue is empty, and otherwise
moves the oldest queued task to the running ones. -/
inductive TakeNextCases (st : RayonExecutorServiceState W J) :
    Option (ℕ × J) → AsyncChanges → RayonExecutorServiceState W J → Prop
  | idle {inner : RayonExecutorServiceInner J}
      (hinner : inner = { st.inner with scheduled := st.inner.scheduled - 1 })
      (hq : st.inner.queue.length = 0) :
      TakeNextCases st none ⟨false, inner.Terminated⟩ (st.notifiedWith inner)
  | taken {task_id : ℕ} {job : J} {queue : OrderedMap ℕ J}
      (hp : st.inner.queue.popFirst = some ((task_id, job), queue)) :
      TakeNextCases st (some (task_id, job)) .none
        { st with inner := { st.inner with
          queue := queue
          running := st.inner.running + 1
          running_tasks := insert task_id st.inner.running_tasks } }

/-- `take_next` does nothing else. -/
theorem takeNext_cases {st st' : RayonExecutorServiceState W J} {taken : Option (ℕ × J)}
    {changes : AsyncChanges} (h : takeNext st = ⟨taken, changes, st'⟩) :
    TakeNextCases st taken changes st' := by
  unfold takeNext at h
  cases hp : st.inner.queue.popFirst with
  | none =>
    simp only [hp, notifyIfTerminatedLocked_fst, Unlocked.mk.injEq] at h
    obtain ⟨rfl, rfl, rfl⟩ := h
    exact .idle rfl (OrderedMap.popFirst_eq_none.1 hp)
  | some e =>
    obtain ⟨⟨task_id, job⟩, queue⟩ := e
    simp only [hp, Unlocked.mk.injEq] at h
    obtain ⟨rfl, rfl, rfl⟩ := h
    exact .taken hp

/-- `finish_running` releases the task, and its reservation too unless work is queued. -/
theorem finishRunning_cases {task_id : ℕ} {st st' : RayonExecutorServiceState W J}
    {dispatch : Bool} {changes : AsyncChanges}
    (h : finishRunning task_id st = ⟨dispatch, changes, st'⟩) :
    ∃ inner scheduled, inner = { st.inner with
        running_tasks := st.inner.running_tasks.erase task_id
        running := st.inner.running - 1
        scheduled := scheduled } ∧
      ((dispatch = true ∧ st.inner.queue.length ≠ 0 ∧ scheduled = st.inner.scheduled) ∨
        (dispatch = false ∧ st.inner.queue.length = 0 ∧ scheduled = st.inner.scheduled - 1)) ∧
      changes = ⟨true, inner.Terminated⟩ ∧ st' = st.notifiedWith inner := by
  unfold finishRunning at h
  simp only [notifyIfTerminatedLocked_fst, Unlocked.mk.injEq] at h
  obtain ⟨rfl, rfl, rfl⟩ := h
  cases he : st.inner.queue.isEmpty with
  | true =>
    refine ⟨_, _, rfl, Or.inr ⟨rfl, st.inner.queue.isEmpty_iff.1 he, rfl⟩, ?_, ?_⟩ <;>
      simp [notifiedWith]
  | false =>
    have hne : st.inner.queue.length ≠ 0 := fun h0 => by
      rw [st.inner.queue.isEmpty_iff.2 h0] at he
      contradiction
    refine ⟨_, _, rfl, Or.inl ⟨rfl, hne, rfl⟩, ?_, ?_⟩ <;> simp [notifiedWith]

/-- What `cancel_pending_task` can do: it claims a queued task, and otherwise only looks. -/
inductive CancelPendingTaskCases (task_id : ℕ) (st : RayonExecutorServiceState W J) :
    CancelDisposition J → RayonExecutorServiceState W J → Prop
  | owned {job : J} {queue : OrderedMap ℕ J}
      (hr : st.inner.queue.remove task_id = some (job, queue)) :
      CancelPendingTaskCases task_id st (.owned job)
        { st with inner := { st.inner with
          queue := queue
          cancelling := insert task_id st.inner.cancelling } }
  | inProgress (hq : task_id ∉ st.inner.queue.keys) (hm : task_id ∈ st.inner.cancelling) :
      CancelPendingTaskCases task_id st .inProgress st
  | absent (hq : task_id ∉ st.inner.queue.keys) (hm : task_id ∉ st.inner.cancelling) :
      CancelPendingTaskCases task_id st .absent st

/-- `cancel_pending_task` does nothing else. -/
theorem cancelPendingTask_cases {task_id : ℕ} {st st' : RayonExecutorServiceState W J}
    {disposition : CancelDisposition J}
    (h : cancelPendingTask task_id st = (disposition, st')) :
    CancelPendingTaskCases task_id st disposition st' := by
  unfold cancelPendingTask at h
  cases hr : st.inner.queue.remove task_id with
  | some e =>
    simp only [hr, Prod.mk.injEq] at h
    obtain ⟨rfl, rfl⟩ := h
    exact .owned hr
  | none =>
    have hq := OrderedMap.remove_eq_none.1 hr
    simp only [hr] at h
    split_ifs at h with hm
    · obtain ⟨rfl, rfl⟩ := Prod.mk.inj h
      exact .inProgress hq hm
    · obtain ⟨rfl, rfl⟩ := Prod.mk.inj h
      exact .absent hq hm

/-- `finish_cancelling` releases the task and wakes the blocking waiters in any case. -/
theorem finishCancelling_cases {task_id : ℕ} {st st' : RayonExecutorServiceState W J} {u : Unit}
    {changes : AsyncChanges} (h : finishCancelling task_id st = ⟨u, changes, st'⟩) :
    ∃ inner, inner = { st.inner with cancelling := st.inner.cancelling.erase task_id } ∧
      changes = ⟨true, inner.Terminated⟩ ∧
      st' = { st.notifiedWith inner with
        terminated := (st.notifiedWith inner).terminated.notifyAll } := by
  unfold finishCancelling at h
  simp only [notifyIfTerminatedLocked_fst, Unlocked.mk.injEq] at h
  obtain ⟨-, rfl, rfl⟩ := h
  exact ⟨_, rfl, rfl, rfl⟩

/-- `shutdown` leaves `Running` and otherwise only notifies. -/
theorem shutdown_cases {st st' : RayonExecutorServiceState W J} {u : Unit}
    {changes : AsyncChanges} (h : shutdown st = ⟨u, changes, st'⟩) :
    ∃ inner lifecycle, inner = { st.inner with lifecycle := lifecycle } ∧
      ((st.inner.lifecycle = .running ∧ lifecycle = .shuttingDown) ∨
        (st.inner.lifecycle ≠ .running ∧ lifecycle = st.inner.lifecycle)) ∧
      changes = ⟨true, inner.Terminated⟩ ∧ st' = st.notifiedWith inner := by
  unfold shutdown at h
  simp only [notifyIfTerminatedLocked_fst, Unlocked.mk.injEq] at h
  obtain ⟨-, rfl, rfl⟩ := h
  by_cases hl : st.inner.lifecycle = .running
  · refine ⟨_, _, rfl, Or.inl ⟨hl, rfl⟩, ?_, ?_⟩ <;> simp [hl, notifiedWith]
  · refine ⟨_, _, rfl, Or.inr ⟨hl, rfl⟩, ?_, ?_⟩ <;> simp [hl, notifiedWith]

/-- The loop of `stop` hands over every job in order. -/
theorem claimJobs_snd (cancelling : Finset ℕ) (owned jobs : List (ℕ × J)) :
    (claimJobs cancelling owned jobs).2 = owned ++ jobs := by
  induction jobs generalizing cancelling owned with
  | nil => simp [claimJobs]
  | cons e jobs ih => simp [claimJobs, ih]

/-- The loop of `stop` claims every key. -/
theorem claimJobs_fst_val (cancelling : Finset ℕ) (owned jobs : List (ℕ × J))
    (h : ((jobs.map Prod.fst : Multiset ℕ) + cancelling.val).Nodup) :
    (claimJobs cancelling owned jobs).1.val = jobs.map Prod.fst + cancelling.val := by
  induction jobs generalizing cancelling owned with
  | nil => simp [claimJobs]
  | cons e jobs ih =>
    obtain ⟨task_id, job⟩ := e
    simp only [List.map_cons, ← Multiset.cons_coe, Multiset.cons_add, Multiset.nodup_cons] at h
    have hnot : task_id ∉ cancelling := fun hm => h.1 (Multiset.mem_add.2 (Or.inr hm))
    have hins : (insert task_id cancelling).val = task_id ::ₘ cancelling.val :=
      Finset.insert_val_of_notMem hnot
    have := ih (insert task_id cancelling) (owned ++ [(task_id, job)]) (by
      rw [hins, Multiset.add_cons]
      exact Multiset.nodup_cons.2 h)
    rw [claimJobs, this, hins, List.map_cons, ← Multiset.cons_coe, Multiset.cons_add,
      Multiset.add_cons]

/-- `stop` takes every queued job and claims it for cancellation. -/
theorem stop_cases {st st' : RayonExecutorServiceState W J} {report : StopReport}
    {jobs : List (ℕ × J)} {changes : AsyncChanges}
    (h : stop st = ⟨(report, jobs), changes, st'⟩) :
    ∃ inner cancelling, inner = { st.inner with
        lifecycle := .stopping
        queue := OrderedMap.empty
        cancelling := cancelling } ∧
      cancelling = (claimJobs st.inner.cancelling [] jobs).1 ∧ jobs = st.inner.queue.entries ∧
      report = ⟨st.inner.queue.length, st.inner.running, st.inner.queue.length⟩ ∧
      changes = ⟨true, inner.Terminated⟩ ∧ st' = st.notifiedWith inner := by
  unfold stop at h
  simp only [claimJobs_snd, List.nil_append, notifyIfTerminatedLocked_fst, Unlocked.mk.injEq,
    Prod.mk.injEq] at h
  obtain ⟨⟨rfl, rfl⟩, rfl, rfl⟩ := h
  exact ⟨_, _, rfl, rfl, rfl, rfl, rfl, rfl⟩

/-! ## The senders -/

/-- A state with other senders. -/
def withSenders (termination_tx : W.Sender Bool) (capacity_tx : W.Sender ℕ)
    (st : RayonExecutorServiceState W J) : RayonExecutorServiceState W J :=
  { st with termination_tx := termination_tx, capacity_tx := capacity_tx }

end RayonExecutorServiceState

/-- The end of a critical section with other senders in the state. -/
def Unlocked.withSenders {W : Watch} {J α : Type} (termination_tx : W.Sender Bool)
    (capacity_tx : W.Sender ℕ) (u : Unlocked W J α) : Unlocked W J α :=
  { u with state := u.state.withSenders termination_tx capacity_tx }

namespace RayonExecutorServiceState

section withSenders
variable {W : Watch} {J : Type} (termination_tx : W.Sender Bool) (capacity_tx : W.Sender ℕ)
  (st : RayonExecutorServiceState W J)

@[simp] theorem withSenders_inner :
    (st.withSenders termination_tx capacity_tx).inner = st.inner := rfl

/-- No critical section uses the senders. -/
theorem notifyIfTerminatedLocked_withSenders :
    (st.withSenders termination_tx capacity_tx).notifyIfTerminatedLocked =
      (st.notifyIfTerminatedLocked.1,
        st.notifyIfTerminatedLocked.2.withSenders termination_tx capacity_tx) := by
  unfold notifyIfTerminatedLocked
  rw [withSenders_inner]
  split_ifs <;> rfl

theorem admitJob_withSenders (bits : ℕ) (accept : Exit) (job : J) :
    (st.withSenders termination_tx capacity_tx).admitJob bits accept job =
      ((st.admitJob bits accept job).1,
        (st.admitJob bits accept job).2.withSenders termination_tx capacity_tx) := by
  unfold admitJob
  rw [withSenders_inner]
  dsimp only
  split_ifs
  · rfl
  · rfl
  · cases checkedAdd bits st.inner.next_task_id 1 with
    | none => rfl
    | some => cases accept <;> rfl

theorem takeNext_withSenders : (st.withSenders termination_tx capacity_tx).takeNext =
    st.takeNext.withSenders termination_tx capacity_tx := by
  unfold takeNext
  rw [withSenders_inner]
  dsimp only
  cases st.inner.queue.popFirst with
  | none =>
    exact congrArg (fun n => Unlocked.mk _ ⟨false, n.1⟩ n.2)
      (notifyIfTerminatedLocked_withSenders termination_tx capacity_tx { st with inner := _ })
  | some e => rfl

theorem finishRunning_withSenders (task_id : ℕ) :
    (st.withSenders termination_tx capacity_tx).finishRunning task_id =
      (st.finishRunning task_id).withSenders termination_tx capacity_tx :=
  congrArg (fun n => Unlocked.mk _ ⟨true, n.1⟩ n.2)
    (notifyIfTerminatedLocked_withSenders termination_tx capacity_tx { st with inner := _ })

theorem cancelPendingTask_withSenders (task_id : ℕ) :
    (st.withSenders termination_tx capacity_tx).cancelPendingTask task_id =
      ((st.cancelPendingTask task_id).1,
        (st.cancelPendingTask task_id).2.withSenders termination_tx capacity_tx) := by
  unfold cancelPendingTask
  rw [withSenders_inner]
  dsimp only
  cases st.inner.queue.remove task_id with
  | some e => rfl
  | none =>
    dsimp only
    split_ifs <;> rfl

theorem finishCancelling_withSenders (task_id : ℕ) :
    (st.withSenders termination_tx capacity_tx).finishCancelling task_id =
      (st.finishCancelling task_id).withSenders termination_tx capacity_tx :=
  congrArg
    (fun n => Unlocked.mk () ⟨true, n.1⟩ { n.2 with terminated := n.2.terminated.notifyAll })
    (notifyIfTerminatedLocked_withSenders termination_tx capacity_tx { st with inner := _ })

theorem shutdown_withSenders : (st.withSenders termination_tx capacity_tx).shutdown =
    st.shutdown.withSenders termination_tx capacity_tx :=
  congrArg (fun n => Unlocked.mk () ⟨true, n.1⟩ n.2)
    (notifyIfTerminatedLocked_withSenders termination_tx capacity_tx { st with inner := _ })

theorem stop_withSenders : (st.withSenders termination_tx capacity_tx).stop =
    st.stop.withSenders termination_tx capacity_tx :=
  congrArg (fun n => Unlocked.mk _ ⟨true, n.1⟩ n.2)
    (notifyIfTerminatedLocked_withSenders termination_tx capacity_tx { st with inner := _ })

end withSenders

end RayonExecutorServiceState

end RayonExecutor
