import RayonExecutor.Service
import RayonExecutor.Lib.Mutex

/-!
# The code

The functions of the crate as programs with their lock, their unwind boundaries and their user code.
`State.lean` has the same methods with a critical section as one function of the state; here a
critical section is the scope of a guard, and what runs inside and outside of it is written out in
the order of the source. User code is foreign code: the pieces that a job's `run`, `cancel` and
destructor consist of, the destructors of panic payloads, and the wakers of waiting tasks. Each
piece may return or unwind.
-/

namespace RayonExecutor

open Program

/-- `discard_panic_payload`, where `drop` is the destructor of the payload. -/
def discardPanicPayload {E : Type} {R : E → Type} {P : Type} (drop : Program E R P Unit) :
    Program E R P Unit := do
  match ← drop.catchUnwind with
  | .ok () => pure ()
  -- `mem::forget`
  | .error _secondary => pure ()

/-- What the service is given by its users: job objects with the programs of `QueuedJob::run`, of
`QueuedJob::cancel` and of their destructors, panic payloads, and wakers. -/
structure Client where
  Job : Type
  /-- The pieces of user code that a job consists of, and how they answer. -/
  Piece : Type
  Answer : Piece → Type
  Payload : Type
  Waker : Type
  run : Job → Program Piece Answer Payload Unit
  cancel : Job → Program Piece Answer Payload Unit
  drop : Job → Program Piece Answer Payload Unit
  /-- The payload of a panic with a message. -/
  message : String → Payload

/-- The pieces of user code. -/
inductive UserCode (C : Client)
  | piece (p : C.Piece)
  | dropPayload (payload : C.Payload)
  | wake (waker : C.Waker)

/-- How the pieces of user code answer. -/
@[reducible] def UserCode.Answer {C : Client} : UserCode C → Type
  | .piece p => C.Answer p
  | .dropPayload _ => Except C.Payload Unit
  | .wake _ => Except C.Payload Unit

/-- A waker, as a channel stores it: a task's own, or a `PanicIsolatingWake` around another. -/
inductive Waker (C : Client)
  | task (waker : C.Waker)
  | isolating (waker : Waker C)

/-- The other effects: those of the condition variable, the watch channels, Rayon and the executor
interface, the calls of a job's methods, and the return to the caller. A send answers the registered
wakers that it has to wake. -/
inductive Op (W : Watch) (C : Client)
  | notifyAll
  | sendCapacity
  | sendTermination
  | subscribeCapacity
  | subscribeTermination
  | spawn
  | accept (job : C.Job)
  | run (task_id : ℕ) (job : C.Job)
  | cancel (task_id : ℕ) (job : C.Job)
  | status (task_id : ℕ)
  | fallback (task_id : ℕ)
  | returned (ret : Return W)

/-- How the other effects answer. -/
@[reducible] def Op.Answer {W : Watch} {C : Client} : Op W C → Type
  | .sendCapacity => List (Waker C)
  | .sendTermination => List (Waker C)
  | .subscribeCapacity => W.Receiver ℕ
  | .subscribeTermination => W.Receiver Bool
  | .accept _ => Except C.Payload Unit
  | .status _ => TaskStatus
  | .fallback _ => CancelResult
  | _ => Unit

/-- The effects of the crate. -/
abbrev Effect (W : Watch) (C : Client) :=
  Guarded (RayonExecutorServiceInner C.Job) (UserCode C) (Op W C)

/-- A program of the crate. -/
abbrev Code (W : Watch) (C : Client) (α : Type) :=
  Program (Effect W C) (Guarded.Answer UserCode.Answer Op.Answer) C.Payload α

namespace Code

variable {W : Watch} {C : Client}

/-- A piece of user code. -/
abbrev user (u : UserCode C) : Code W C u.Answer := foreign u

/-- An effect on an object outside of the mutex. -/
abbrev call (o : Op W C) : Code W C o.Answer := other o

/-! ## Unwind boundaries -/

/-- A program of a job is a program of the crate. -/
def ofJob {α : Type} : Program C.Piece C.Answer C.Payload α → Code W C α
  | .ret a => .ret a
  | .unwind payload => .unwind payload
  | .effect p k => .effect (.user (.piece p)) fun r => ofJob (k r)

/-- `if let Err(payload) = catch_unwind(..) { discard_panic_payload(payload) }`. -/
def contain (m : Code W C Unit) : Code W C Unit := do
  match ← m.catchUnwind with
  | .ok () => pure ()
  | .error payload => discardPanicPayload do resume (← user (.dropPayload payload))

/-! ## Notifications -/

/-- `wake_by_ref` of a stored waker. -/
def wakeByRef : Waker C → Code W C Unit
  | .task waker => do resume (← user (.wake waker))
  | .isolating waker => contain (wakeByRef waker)

/-- A send wakes the registered wakers one after another. -/
def wakeAll : List (Waker C) → Code W C Unit
  | [] => pure ()
  | waker :: wakers => do
    wakeByRef waker
    wakeAll wakers

/-- `send_modify` on the capacity channel, which advances the generation. -/
def sendModifyCapacity : Code W C Unit := do
  wakeAll (← call .sendCapacity)

/-- `send_if_modified` on the termination channel. -/
def sendIfModifiedTermination : Code W C Unit := do
  wakeAll (← call .sendTermination)

/-- `notify_async_changes`. -/
def notifyAsyncChanges (capacity_changed terminated : Bool) : Code W C Unit := do
  if capacity_changed then contain sendModifyCapacity
  if terminated then contain sendIfModifiedTermination

/-- `notify_if_terminated_locked`. -/
def notifyIfTerminatedLocked : Code W C Bool := do
  let inner ← read
  if inner.Terminated then
    call .notifyAll
    pure true
  else pure false

/-! ## The methods of the state -/

/-- `admit` as long as it holds the lock. -/
def admitLocked (bits : ℕ) (job : C.Job) : Code W C (Except SubmissionError Admission) := do
  let inner ← read
  if inner.lifecycle ≠ .running then pure (.error .shutdown)
  else if inner.occupied ≥ inner.task_capacity then pure (.error .saturated)
  else
    let task_id := inner.next_task_id
    match checkedAdd bits inner.next_task_id 1 with
    | none => .unwind (C.message "task id exhausted")
    | some next_task_id =>
      let inner := { inner with next_task_id := next_task_id }
      write inner
      resume (← call (.accept job))
      let displaced := inner.queue.get? task_id
      let inner := { inner with queue := inner.queue.insert task_id job }
      write inner
      -- what `insert` returns is dropped at the end of the statement
      match displaced with
      | some displaced => ofJob (C.drop displaced)
      | none => pure ()
      let dispatch_count := min inner.queue.length (inner.num_threads - inner.scheduled)
      write { inner with scheduled := inner.scheduled + dispatch_count }
      pure (.ok ⟨task_id, dispatch_count⟩)

/-- `admit`. The guard is a local variable, so it is dropped before the parameter `job`, which is
dropped unless it has been moved into the queue. -/
def admitJob (bits : ℕ) (job : C.Job) : Code W C (Except SubmissionError Admission) := do
  match ← (scope (admitLocked bits job)).catchUnwind with
  | .ok (.ok admission) => pure (.ok admission)
  | .ok (.error error) =>
    ofJob (C.drop job)
    pure (.error error)
  | .error payload =>
    -- a destructor that unwinds here as well would abort the process
    let _dropped ← (ofJob (C.drop job)).catchUnwind
    .unwind payload

/-- `take_next` as long as it holds the lock: a job, or whether the service has terminated. -/
def takeNextLocked : Code W C (Bool ⊕ ℕ × C.Job) := do
  let inner ← read
  match inner.queue.popFirst with
  | none =>
    write { inner with scheduled := inner.scheduled - 1 }
    pure (.inl (← notifyIfTerminatedLocked))
  | some ((task_id, job), queue) =>
    write { inner with
      queue := queue
      running := inner.running + 1
      running_tasks := insert task_id inner.running_tasks }
    pure (.inr (task_id, job))

/-- `take_next`. -/
def takeNext : Code W C (Option (ℕ × C.Job)) := do
  match ← scope takeNextLocked with
  | .inl terminated =>
    notifyAsyncChanges false terminated
    pure none
  | .inr taken => pure (some taken)

/-- `is_running_task`. -/
def isRunningTask (task_id : ℕ) : Code W C Bool := scope do
  let inner ← read
  pure (decide (task_id ∈ inner.running_tasks))

/-- `finish_running` as long as it holds the lock. -/
def finishRunningLocked (task_id : ℕ) : Code W C (Bool × Bool) := do
  let inner ← read
  let inner := { inner with
    running_tasks := inner.running_tasks.erase task_id
    running := inner.running - 1 }
  let dispatch := !inner.queue.isEmpty
  write (if !dispatch then { inner with scheduled := inner.scheduled - 1 } else inner)
  pure (dispatch, ← notifyIfTerminatedLocked)

/-- `finish_running`. -/
def finishRunning (task_id : ℕ) : Code W C Bool := do
  let (dispatch, terminated) ← scope (finishRunningLocked task_id)
  notifyAsyncChanges true terminated
  pure dispatch

/-- `cancel_pending_task` as long as it holds the lock. -/
def cancelPendingTaskLocked (task_id : ℕ) : Code W C (CancelDisposition C.Job) := do
  let inner ← read
  match inner.queue.remove task_id with
  | some (job, queue) =>
    write { inner with queue := queue, cancelling := insert task_id inner.cancelling }
    pure (.owned job)
  | none => if task_id ∈ inner.cancelling then pure .inProgress else pure .absent

/-- `cancel_pending_task`. -/
def cancelPendingTask (task_id : ℕ) : Code W C (CancelDisposition C.Job) :=
  scope (cancelPendingTaskLocked task_id)

/-- `finish_cancelling` as long as it holds the lock. -/
def finishCancellingLocked (task_id : ℕ) : Code W C Bool := do
  let inner ← read
  write { inner with cancelling := inner.cancelling.erase task_id }
  let terminated ← notifyIfTerminatedLocked
  call .notifyAll
  pure terminated

/-- `finish_cancelling`. -/
def finishCancelling (task_id : ℕ) : Code W C Unit := do
  let terminated ← scope (finishCancellingLocked task_id)
  notifyAsyncChanges true terminated

/-- `shutdown` as long as it holds the lock. -/
def shutdownLocked : Code W C Bool := do
  let inner ← read
  write (if inner.lifecycle = .running then { inner with lifecycle := .shuttingDown } else inner)
  notifyIfTerminatedLocked

/-- `shutdown`. -/
def shutdown : Code W C Unit := do
  let terminated ← scope shutdownLocked
  notifyAsyncChanges true terminated

/-- `RayonExecutorServiceState::stop` as long as it holds the lock. -/
def stopLocked : Code W C ((StopReport × List (ℕ × C.Job)) × Bool) := do
  let inner ← read
  let claimed := RayonExecutorServiceState.claimJobs inner.cancelling [] inner.queue.entries
  write { inner with
    lifecycle := .stopping
    queue := OrderedMap.empty
    cancelling := claimed.1 }
  let report : StopReport := ⟨inner.queue.length, inner.running, claimed.2.length⟩
  pure ((report, claimed.2), ← notifyIfTerminatedLocked)

/-- `RayonExecutorServiceState::stop`. -/
def stopState : Code W C (StopReport × List (ℕ × C.Job)) := do
  let (stopped, terminated) ← scope stopLocked
  notifyAsyncChanges true terminated
  pure stopped

/-- `lifecycle`. -/
def lifecycle : Code W C ExecutorServiceLifecycle := scope do
  let inner ← read
  pure (if inner.Terminated then .terminated else inner.lifecycle)

/-- `stats`. -/
def stats : Code W C RayonExecutorServiceStats := scope do
  let inner ← read
  pure
    { lifecycle := if inner.Terminated then .terminated else inner.lifecycle
      task_capacity := inner.task_capacity
      queued := inner.queue.length
      running := inner.running
      cancelling := inner.cancelling.card }

/-- `is_not_running`. -/
def isNotRunning : Code W C Bool := scope do
  let inner ← read
  pure (decide (inner.lifecycle ≠ .running))

/-- `capacity_changes`, which subscribes under the lock. -/
def capacityChanges : Code W C (W.Receiver ℕ) := scope (call .subscribeCapacity)

/-- `subscribe_termination`. -/
def subscribeTermination : Code W C (W.Receiver Bool) := do
  let receiver ← call .subscribeTermination
  let terminated ← scope do
    let inner ← read
    pure (decide inner.Terminated)
  if terminated then contain sendIfModifiedTermination
  pure receiver

/-! ## The operations of the service -/

/-- `dispatch`. -/
def dispatch : ℕ → Code W C Unit
  | 0 => pure ()
  | count + 1 => do
    call .spawn
    dispatch count

/-- The submissions: `submit_callable_with`, `submit_runnable` and `submit_tracked_callable`, up to
the endpoint that they return. -/
def submit (bits : ℕ) (job : C.Job) : Code W C (Except SubmissionError ℕ) := do
  match ← admitJob bits job with
  | .error error => pure (.error error)
  | .ok admission =>
    dispatch admission.dispatch_count
    pure (.ok admission.task_id)

/-- The call of `job.run()`. -/
def runJob (task_id : ℕ) (job : C.Job) : Code W C Unit := do
  call (.run task_id job)
  ofJob (C.run job)

/-- The call of `job.cancel()`. -/
def cancelJob (task_id : ℕ) (job : C.Job) : Code W C Unit := do
  call (.cancel task_id job)
  ofJob (C.cancel job)

/-- `run_one`. -/
def runOne : Code W C Unit := do
  match ← takeNext with
  | none => pure ()
  | some (task_id, job) =>
    contain (runJob task_id job)
    if ← finishRunning task_id then call .spawn

/-- `cancel_task`. -/
def cancelTask (task_id : ℕ) (absent : Code W C CancelResult) : Code W C CancelResult := do
  match ← cancelPendingTask task_id with
  | .owned job =>
    contain (cancelJob task_id job)
    finishCancelling task_id
    pure .cancelled
  | .inProgress => pure .cancelled
  | .absent => absent

/-- `RayonTaskHandle::cancel`, and `cancel` of the `TaskCancellationHandle` that
`cancellation_handle` returns. -/
def cancel : Endpoint → ℕ → Code W C CancelResult
  | .handle, task_id => cancelTask task_id do
    pure (cancellationResultForStatus (← call (.status task_id)))
  | .cancellationHandle, task_id => cancelTask task_id do
    if ← isRunningTask task_id then pure .alreadyRunning
    else call (.fallback task_id)

/-- The loop of `stop`. -/
def cancelJobs : List (ℕ × C.Job) → Code W C Unit
  | [] => pure ()
  | (task_id, job) :: jobs => do
    contain (cancelJob task_id job)
    finishCancelling task_id
    cancelJobs jobs

/-- `RayonExecutorService::stop`. -/
def stop : Code W C StopReport := do
  let (report, jobs) ← stopState
  cancelJobs jobs
  pure report

end Code

/-! ## The operations as threads -/

/-- The public operations, and the closure that is spawned. -/
inductive Operation (C : Client)
  | submit (job : C.Job)
  | runOne
  | cancel (endpoint : Endpoint) (task_id : ℕ)
  | stop
  | shutdown
  | lifecycle
  | stats
  | isNotRunning
  | capacityChanges
  | subscribeTermination

/-- What the thread of an operation does, up to its return. A submission may unwind into its caller,
which is the end of its thread. The result of `cancel`, the answers of the queries and the rejection
of a submission are not effects: nothing is said here of how their callers are told. -/
def Operation.program {W : Watch} {C : Client} (bits : ℕ) : Operation C → Code W C Unit
  | .submit job => do
    match ← (Code.submit bits job).catchUnwind with
    | .ok (.ok task_id) => Code.call (.returned (.submitted task_id))
    | _ => pure ()
  | .runOne => do
    Code.runOne
    Code.call (.returned .runOne)
  | .cancel endpoint task_id => do let _result ← Code.cancel endpoint task_id
  | .stop => do
    let report ← Code.stop
    Code.call (.returned (.stop report))
  | .shutdown => do
    Code.shutdown
    Code.call (.returned .shutdown)
  | .lifecycle => do let _answer ← Code.lifecycle
  | .stats => do let _answer ← Code.stats
  | .isNotRunning => do let _answer ← Code.isNotRunning
  | .capacityChanges => do let _receiver ← Code.capacityChanges
  | .subscribeTermination => do
    let receiver ← Code.subscribeTermination
    Code.call (.returned (.receiver receiver))

/-- Jobs that are one piece of user code when they run and one when they are cancelled. Payloads and
wakers are numbers. -/
abbrev tinyClient : Client where
  Job := ℕ
  Piece := ℕ
  Answer _ := Except ℕ Unit
  Payload := ℕ
  Waker := ℕ
  run job := do Program.resume (← Program.perform job)
  cancel job := do Program.resume (← Program.perform job)
  drop job := do Program.resume (← Program.perform job)
  message s := s.length

end RayonExecutor
