import RayonExecutor.State
import RayonExecutor.Lib.Pool

/-!
# The running service

The service as a pool of threads over its state (`Pool`). A thread is the rest of an operation:
what it still has to publish (`Thread.changes`) and then the point of the code it has reached
(`Control`). The atomic actions are the critical sections of `State.lean`, the publications after
them, the spawning of a Rayon closure, and the hand-over of a job to `run` or `cancel`. Calls of
the public operations may start at any time, from any number of callers.

User code runs between two actions of its thread, and other threads act meanwhile: a job body
between `run` and `finishRunning`, a cancellation's cleanup between `cancel` and
`finishCancelling`. A body that calls the service itself is one more caller.
-/

namespace RayonExecutor

open Transition Pool

/-- `TaskStatus` of the executor interface. -/
inductive TaskStatus
  | pending
  | running
  | succeeded
  | failed
  | panicked
  | cancelled
  deriving DecidableEq, Repr

/-- A status after which the result does not change. -/
def TaskStatus.Terminal (status : TaskStatus) : Prop := status ≠ .pending ∧ status ≠ .running

instance (status : TaskStatus) : Decidable status.Terminal :=
  inferInstanceAs (Decidable (_ ∧ _))

/-- `cancellation_result_for_status`. -/
def cancellationResultForStatus : TaskStatus → CancelResult
  | .pending | .running => .alreadyRunning
  | _ => .alreadyFinished

/-- The status of a finished task answers a cancel call with `AlreadyFinished`. -/
theorem cancellationResultForStatus_of_terminal {status : TaskStatus} (h : status.Terminal) :
    cancellationResultForStatus status = .alreadyFinished := by
  revert h
  cases status <;> simp [TaskStatus.Terminal, cancellationResultForStatus]

/-- The status of a task without a result answers a cancel call with `AlreadyRunning`. -/
theorem cancellationResultForStatus_of_not_terminal {status : TaskStatus}
    (h : ¬ status.Terminal) : cancellationResultForStatus status = .alreadyRunning := by
  revert h
  cases status <;> simp [TaskStatus.Terminal, cancellationResultForStatus]

/-- The two ways to cancel a tracked task: `RayonTaskHandle::cancel`, and the
`TaskCancellationHandle` that `cancellation_handle` returns. -/
inductive Endpoint
  | handle
  | cancellationHandle
  deriving DecidableEq, Repr

/-- What an operation returns to its caller. -/
inductive Return (W : Watch)
  | submitted (task_id : ℕ)
  | runOne
  | cancel (endpoint : Endpoint) (task_id : ℕ) (result : CancelResult)
  | shutdown
  | stop (report : StopReport)
  | receiver (r : W.Receiver Bool)

/-- The points of the code between two atomic actions. -/
inductive Control (W : Watch) (J : Type)
  /-- `dispatch`, or the end of `run_one`: closures still to spawn before the operation returns. -/
  | dispatching (count : ℕ) (ret : Return W)
  /-- A spawned `run_one` that has not executed `take_next`. It owns clones of the pool and the
  state, for every later point of `run_one`. -/
  | closure
  /-- `run_one` between `take_next` and `job.run()`. -/
  | claimed (task_id : ℕ) (job : J)
  /-- `run_one` from the call of `job.run()` to `finish_running`. -/
  | running (task_id : ℕ)
  /-- `cancel_task`, or the loop of `stop`: jobs still to cancel before the operation returns. -/
  | cleanup (jobs : List (ℕ × J)) (ret : Return W)
  /-- `cancel_task`, or the loop of `stop`, from the call of `job.cancel()` to
  `finish_cancelling`. -/
  | cancelling (task_id : ℕ) (jobs : List (ℕ × J)) (ret : Return W)
  /-- `cancel_task` at its fallback. -/
  | absent (endpoint : Endpoint) (task_id : ℕ)
  /-- The fallback of `cancellation_handle` at `task.cancel()`. -/
  | fallback (task_id : ℕ)
  /-- `subscribe_termination` before its critical section. -/
  | subscribed (r : W.Receiver Bool)
  | returning (ret : Return W)

/-- A thread in the middle of an operation: the publications that it owes, then the rest. -/
structure Thread (W : Watch) (J : Type) where
  changes : AsyncChanges
  control : Control W J

/-- The atomic actions, with what they observed. -/
inductive Event (W : Watch) (J : Type)
  | admitJob (job : J) (outcome : AdmitOutcome)
  | cancelPendingTask (endpoint : Endpoint) (task_id : ℕ) (disposition : CancelDisposition J)
  | shutdown
  | stop (report : StopReport) (jobs : List (ℕ × J))
  | subscribeTermination
  | capacityChanges (r : W.Receiver ℕ)
  | lifecycle (lifecycle : ExecutorServiceLifecycle)
  | stats (stats : RayonExecutorServiceStats)
  | isNotRunning (answer : Bool)
  | publishCapacity
  | publishTermination (modified : Bool)
  | spawn
  | takeNext (taken : Option (ℕ × J))
  | run (task_id : ℕ) (job : J)
  | finishRunning (task_id : ℕ) (dispatch : Bool)
  | cancel (task_id : ℕ) (job : J)
  | finishCancelling (task_id : ℕ)
  | status (task_id : ℕ) (status : TaskStatus)
  | isRunningTask (task_id : ℕ) (answer : Bool)
  | fallback (task_id : ℕ) (result : CancelResult)
  | checkTerminated (terminated : Bool)
  | returned (ret : Return W)

variable {W : Watch} {J : Type}

/-- A submission after `admit`: an accepted one dispatches, the others are over. -/
def afterAdmit : AdmitOutcome → Multiset (Thread W J)
  | .ok ⟨task_id, dispatch_count⟩ => {⟨.none, .dispatching dispatch_count (.submitted task_id)⟩}
  | _ => 0

@[simp] theorem afterAdmit_ok (admission : Admission) : (afterAdmit (.ok admission) :
    Multiset (Thread W J)) =
      {⟨.none, .dispatching admission.dispatch_count (.submitted admission.task_id)⟩} := rfl

@[simp] theorem afterAdmit_err (error : SubmissionError) :
    (afterAdmit (.err error) : Multiset (Thread W J)) = 0 := rfl

@[simp] theorem afterAdmit_unwind (panic : AdmitPanic) :
    (afterAdmit (.unwind panic) : Multiset (Thread W J)) = 0 := rfl

/-- `cancel_task` after `cancel_pending_task`. -/
@[simp] def afterClaim (endpoint : Endpoint) (task_id : ℕ) : CancelDisposition J → Control W J
  | .owned job => .cleanup [(task_id, job)] (.cancel endpoint task_id .cancelled)
  | .inProgress => .returning (.cancel endpoint task_id .cancelled)
  | .absent => .absent endpoint task_id

/-- `run_one` after `take_next`. -/
@[simp] def afterTake : Option (ℕ × J) → Control W J
  | none => .returning .runOne
  | some (task_id, job) => .claimed task_id job

/-- `run_one` after `finish_running`. -/
@[simp] def afterFinish (dispatch : Bool) : Control W J :=
  .dispatching (if dispatch then 1 else 0) .runOne

/-- The first action of a public operation. The queries are over with it. -/
inductive Call (bits : ℕ) : RayonExecutorServiceState W J → Event W J →
    RayonExecutorServiceState W J → Multiset (Thread W J) → Prop
  | admitJob {st st' : RayonExecutorServiceState W J} {accept : Exit} {job : J}
      {outcome : AdmitOutcome} (h : st.admitJob bits accept job = (outcome, st')) :
      Call bits st (.admitJob job outcome) st' (afterAdmit outcome)
  | cancel {st st' : RayonExecutorServiceState W J} {endpoint : Endpoint} {task_id : ℕ}
      {disposition : CancelDisposition J}
      (h : st.cancelPendingTask task_id = (disposition, st')) :
      Call bits st (.cancelPendingTask endpoint task_id disposition) st'
        {⟨.none, afterClaim endpoint task_id disposition⟩}
  | shutdown {st st' : RayonExecutorServiceState W J} {changes : AsyncChanges}
      (h : st.shutdown = ⟨(), changes, st'⟩) :
      Call bits st .shutdown st' {⟨changes, .returning .shutdown⟩}
  | stop {st st' : RayonExecutorServiceState W J} {report : StopReport} {jobs : List (ℕ × J)}
      {changes : AsyncChanges} (h : st.stop = ⟨(report, jobs), changes, st'⟩) :
      Call bits st (.stop report jobs) st' {⟨changes, .cleanup jobs (.stop report)⟩}
  | subscribeTermination {st : RayonExecutorServiceState W J} :
      Call bits st .subscribeTermination st {⟨.none, .subscribed (W.subscribe st.termination_tx)⟩}
  | capacityChanges {st : RayonExecutorServiceState W J} :
      Call bits st (.capacityChanges (W.subscribe st.capacity_tx)) st 0
  | lifecycle {st : RayonExecutorServiceState W J} : Call bits st (.lifecycle st.lifecycle) st 0
  | stats {st : RayonExecutorServiceState W J} : Call bits st (.stats st.stats) st 0
  | isNotRunning {st : RayonExecutorServiceState W J} :
      Call bits st (.isNotRunning st.isNotRunning) st 0

/-- The next action of a thread. What it owes to the watch channels comes first. -/
inductive Action : Thread W J → RayonExecutorServiceState W J → Event W J →
    RayonExecutorServiceState W J → Multiset (Thread W J) → Prop
  | publishCapacity {st : RayonExecutorServiceState W J} {terminated : Bool}
      {control : Control W J} :
      Action ⟨⟨true, terminated⟩, control⟩ st .publishCapacity st.publishCapacity
        {⟨⟨false, terminated⟩, control⟩}
  | publishTermination {st : RayonExecutorServiceState W J} {control : Control W J} :
      Action ⟨⟨false, true⟩, control⟩ st
        (.publishTermination (RayonExecutorServiceState.setTerminated
          (W.borrow st.termination_tx)).2) st.publishTermination {⟨.none, control⟩}
  | spawn {st : RayonExecutorServiceState W J} {count : ℕ} {ret : Return W} :
      Action ⟨.none, .dispatching (count + 1) ret⟩ st .spawn st
        {⟨.none, .dispatching count ret⟩, ⟨.none, .closure⟩}
  | dispatched {st : RayonExecutorServiceState W J} {ret : Return W} :
      Action ⟨.none, .dispatching 0 ret⟩ st (.returned ret) st 0
  | takeNext {st st' : RayonExecutorServiceState W J} {taken : Option (ℕ × J)}
      {changes : AsyncChanges} (h : st.takeNext = ⟨taken, changes, st'⟩) :
      Action ⟨.none, .closure⟩ st (.takeNext taken) st' {⟨changes, afterTake taken⟩}
  | run {st : RayonExecutorServiceState W J} {task_id : ℕ} {job : J} :
      Action ⟨.none, .claimed task_id job⟩ st (.run task_id job) st {⟨.none, .running task_id⟩}
  | finishRunning {st st' : RayonExecutorServiceState W J} {task_id : ℕ} {dispatch : Bool}
      {changes : AsyncChanges} (h : st.finishRunning task_id = ⟨dispatch, changes, st'⟩) :
      Action ⟨.none, .running task_id⟩ st (.finishRunning task_id dispatch) st'
        {⟨changes, afterFinish dispatch⟩}
  | cancel {st : RayonExecutorServiceState W J} {task_id : ℕ} {job : J} {jobs : List (ℕ × J)}
      {ret : Return W} :
      Action ⟨.none, .cleanup ((task_id, job) :: jobs) ret⟩ st (.cancel task_id job) st
        {⟨.none, .cancelling task_id jobs ret⟩}
  | finishCancelling {st st' : RayonExecutorServiceState W J} {task_id : ℕ}
      {jobs : List (ℕ × J)} {ret : Return W} {changes : AsyncChanges}
      (h : st.finishCancelling task_id = ⟨(), changes, st'⟩) :
      Action ⟨.none, .cancelling task_id jobs ret⟩ st (.finishCancelling task_id) st'
        {⟨changes, .cleanup jobs ret⟩}
  | cleaned {st : RayonExecutorServiceState W J} {ret : Return W} :
      Action ⟨.none, .cleanup [] ret⟩ st (.returned ret) st 0
  | status {st : RayonExecutorServiceState W J} {task_id : ℕ} {status : TaskStatus} :
      Action ⟨.none, .absent .handle task_id⟩ st (.status task_id status) st
        {⟨.none, .returning (.cancel .handle task_id (cancellationResultForStatus status))⟩}
  | isRunningTask {st : RayonExecutorServiceState W J} {task_id : ℕ} :
      Action ⟨.none, .absent .cancellationHandle task_id⟩ st
        (.isRunningTask task_id (st.isRunningTask task_id)) st
        {⟨.none, if st.isRunningTask task_id then
          .returning (.cancel .cancellationHandle task_id .alreadyRunning)
        else .fallback task_id⟩}
  | fallback {st : RayonExecutorServiceState W J} {task_id : ℕ} {result : CancelResult} :
      Action ⟨.none, .fallback task_id⟩ st (.fallback task_id result) st
        {⟨.none, .returning (.cancel .cancellationHandle task_id result)⟩}
  | subscribed {st : RayonExecutorServiceState W J} {r : W.Receiver Bool} :
      Action ⟨.none, .subscribed r⟩ st (.checkTerminated st.inner.Terminated) st
        {⟨⟨false, st.inner.Terminated⟩, .returning (.receiver r)⟩}
  | returning {st : RayonExecutorServiceState W J} {ret : Return W} :
      Action ⟨.none, .returning ret⟩ st (.returned ret) st 0

/-! ## Runs -/

/-- The total over all threads of what each contributes by its control point. -/
def across {M : Type} [AddCommMonoid M] (f : Control W J → M) (ts : Multiset (Thread W J)) : M :=
  total (fun t => f t.control) ts

section across
variable {M : Type} [AddCommMonoid M] (f : Control W J → M)

@[simp] theorem across_zero : across f 0 = 0 := total_zero _

@[simp] theorem across_cons (t : Thread W J) (ts : Multiset (Thread W J)) :
    across f (t ::ₘ ts) = f t.control + across f ts := total_cons _ _ _

@[simp] theorem across_singleton (t : Thread W J) : across f {t} = f t.control :=
  total_singleton _ _

@[simp] theorem across_add (ts us : Multiset (Thread W J)) :
    across f (ts + us) = across f ts + across f us := total_add _ _ _

end across

/-- The parameters of a service: the width of `usize` and the two numbers given to `new`. -/
structure Config where
  bits : ℕ
  task_capacity : ℕ
  num_threads : ℕ
  task_capacity_lt : task_capacity < 2^bits
  num_threads_lt : num_threads < 2^bits

/-- A service state with the threads that work on it. -/
abbrev Service (W : Watch) (J : Type) := Pool (RayonExecutorServiceState W J) (Thread W J)

namespace Service

/-- A new service, with no operation in progress. -/
abbrev init (cfg : Config) : Service W J :=
  ⟨.new W J cfg.task_capacity cfg.num_threads, 0⟩

/-- One atomic action of any caller or thread. -/
abbrev Step (cfg : Config) : Service W J → Event W J → Service W J → Prop :=
  Pool.Step (Call cfg.bits) Action

/-- The runs of a service from its creation, with their history of events, latest first. -/
abbrev Run (cfg : Config) : List (Event W J) → Service W J → Prop :=
  Transition.Run (init cfg) (Step cfg)

end Service

/-- What stays as it is between two publications: the two numbers given to `new`, and the watch
channels. -/
structure RayonExecutorServiceState.Frame (st st' : RayonExecutorServiceState W J) : Prop where
  task_capacity : st'.inner.task_capacity = st.inner.task_capacity
  num_threads : st'.inner.num_threads = st.inner.num_threads
  termination_tx : st'.termination_tx = st.termination_tx
  capacity_tx : st'.capacity_tx = st.capacity_tx

/-- No method changes the frame. -/
theorem Call.frame {bits : ℕ} {st st' : RayonExecutorServiceState W J} {e : Event W J}
    {new : Multiset (Thread W J)} (h : Call bits st e st' new) : st.Frame st' := by
  cases h with
  | admitJob ha =>
    cases RayonExecutorServiceState.admitJob_cases ha <;> constructor <;> rfl
  | cancel hc =>
    cases RayonExecutorServiceState.cancelPendingTask_cases hc <;> constructor <;> rfl
  | shutdown hs =>
    obtain ⟨_, _, rfl, -, -, rfl⟩ := RayonExecutorServiceState.shutdown_cases hs
    constructor <;> simp
  | stop hs =>
    obtain ⟨_, _, rfl, -, -, -, -, rfl⟩ := RayonExecutorServiceState.stop_cases hs
    constructor <;> simp
  | subscribeTermination | capacityChanges | lifecycle | stats | isNotRunning =>
    constructor <;> rfl

/-- A thread first makes the publications that it owes. Its other actions do not change the
frame. -/
theorem Action.frame_or_publish {t : Thread W J} {st st' : RayonExecutorServiceState W J}
    {e : Event W J} {new : Multiset (Thread W J)} (h : Action t st e st' new) :
    t.changes = .none ∧ st.Frame st' ∨
    t.changes.capacity_changed = true ∧ e = .publishCapacity ∧ st' = st.publishCapacity ∨
    t.changes = ⟨false, true⟩ ∧ (∃ modified, e = .publishTermination modified) ∧
      st' = st.publishTermination := by
  cases h with
  | publishCapacity => exact Or.inr (Or.inl ⟨rfl, rfl, rfl⟩)
  | publishTermination => exact Or.inr (Or.inr ⟨rfl, ⟨_, rfl⟩, rfl⟩)
  | takeNext hs =>
    refine Or.inl ⟨rfl, ?_⟩
    cases RayonExecutorServiceState.takeNext_cases hs with
    | idle hinner =>
      subst hinner
      constructor <;> simp
    | taken => constructor <;> rfl
  | finishRunning hs =>
    refine Or.inl ⟨rfl, ?_⟩
    obtain ⟨_, _, rfl, -, -, rfl⟩ := RayonExecutorServiceState.finishRunning_cases hs
    constructor <;> simp
  | finishCancelling hs =>
    refine Or.inl ⟨rfl, ?_⟩
    obtain ⟨_, rfl, -, rfl⟩ := RayonExecutorServiceState.finishCancelling_cases hs
    constructor <;> simp
  | _ => exact Or.inl ⟨rfl, rfl, rfl, rfl, rfl⟩

/-- A service keeps its configuration. -/
theorem Service.Run.config {cfg : Config} {tr : List (Event W J)} {s : Service W J}
    (h : Service.Run cfg tr s) : s.shared.inner.task_capacity = cfg.task_capacity ∧
      s.shared.inner.num_threads = cfg.num_threads :=
  Pool.invariant (P := fun _ st _ => st.inner.task_capacity = cfg.task_capacity ∧
      st.inner.num_threads = cfg.num_threads) ⟨rfl, rfl⟩
    (fun _ h hc => ⟨hc.frame.task_capacity.trans h.1, hc.frame.num_threads.trans h.2⟩)
    (fun _ h ha => by
      rcases ha.frame_or_publish with ⟨-, hf⟩ | ⟨-, -, rfl⟩ | ⟨-, -, rfl⟩
      · exact ⟨hf.task_capacity.trans h.1, hf.num_threads.trans h.2⟩
      · exact h
      · exact h) h

/-! ## Small runs -/

/-- A thread acts and goes on as one thread. -/
theorem Service.Run.acts {cfg : Config} {tr : List (Event W J)}
    {st st' : RayonExecutorServiceState W J} {t u : Thread W J} {ts : Multiset (Thread W J)}
    {e : Event W J} (h : Service.Run cfg tr ⟨st, t ::ₘ ts⟩) (ha : Action t st e st' {u}) :
    Service.Run cfg (e :: tr) ⟨st', u ::ₘ ts⟩ :=
  h.step (.act (.of_eq ha rfl (Multiset.singleton_add u ts).symm))

/-- A service with room for two tasks and one worker. -/
def tinyConfig : Config := ⟨64, 2, 1, by decide, by decide⟩

/-- The state of that service after it has accepted a job. -/
def tinyAdmitted : RayonExecutorServiceState Watch.versioned ℕ :=
  ((RayonExecutorServiceState.new Watch.versioned ℕ 2 1).admitJob 64 .returned 7).2

/-- A job is accepted, and a closure is promised for it. -/
theorem tinyAdmitted_run : Service.Run tinyConfig [.admitJob 7 (.ok ⟨0, 1⟩)]
    ⟨tinyAdmitted, {⟨.none, .dispatching 1 (.submitted 0)⟩}⟩ :=
  have ha : (RayonExecutorServiceState.new Watch.versioned ℕ 2 1).admitJob 64 .returned 7 =
      (.ok ⟨0, 1⟩, tinyAdmitted) := rfl
  .step .init (.first (.admitJob ha))

/-- The closure of the accepted job is spawned. -/
theorem tinySpawned_run : Service.Run tinyConfig [.spawn, .admitJob 7 (.ok ⟨0, 1⟩)]
    ⟨tinyAdmitted, {⟨.none, .closure⟩, ⟨.none, .dispatching 0 (.submitted 0)⟩}⟩ :=
  .step tinyAdmitted_run
    (.act (.of_eq .spawn rfl ((Multiset.pair_comm _ _).trans (add_zero _).symm)))

/-- The state after a worker has taken the job. -/
def tinyTaken : RayonExecutorServiceState Watch.versioned ℕ := tinyAdmitted.takeNext.state

/-- A job is accepted, its closure spawned, and the task taken before the submission returns. -/
theorem tinyTaken_run : Service.Run tinyConfig
    [.takeNext (some (0, 7)), .spawn, .admitJob 7 (.ok ⟨0, 1⟩)]
    ⟨tinyTaken, {⟨.none, .claimed 0 7⟩, ⟨.none, .dispatching 0 (.submitted 0)⟩}⟩ :=
  Service.Run.acts tinySpawned_run (.takeNext rfl)

/-- The state after the worker has finished the task. -/
def tinyFinished : RayonExecutorServiceState Watch.versioned ℕ :=
  (tinyTaken.finishRunning 0).state.publishCapacity

/-- The service is shut down when its one task is finished. -/
theorem tinyFinished_run : Service.Run tinyConfig
    [.shutdown, .publishCapacity, .finishRunning 0 false, .run 0 7, .takeNext (some (0, 7)), .spawn,
      .admitJob 7 (.ok ⟨0, 1⟩)]
    ⟨tinyFinished.shutdown.state, {⟨⟨true, true⟩, .returning .shutdown⟩,
      ⟨.none, .dispatching 0 .runOne⟩, ⟨.none, .dispatching 0 (.submitted 0)⟩}⟩ := by
  have hf : tinyTaken.finishRunning 0 =
      ⟨false, ⟨true, false⟩, (tinyTaken.finishRunning 0).state⟩ := rfl
  have hs : tinyFinished.shutdown = ⟨(), ⟨true, true⟩, tinyFinished.shutdown.state⟩ := rfl
  have h1 := Service.Run.acts tinyTaken_run .run
  have h2 := Service.Run.acts h1 (.finishRunning hf)
  have h3 := Service.Run.acts h2 .publishCapacity
  exact .step h3 (.call (Call.shutdown hs))

/-- The state in which a second job has joined the queue. -/
def tinyJoined : RayonExecutorServiceState Watch.versioned ℕ :=
  (tinyAdmitted.admitJob 64 .returned 8).2

/-- The second job is accepted before the first is taken, and is queued. -/
theorem tinyJoined_run : Service.Run tinyConfig
    [.takeNext (some (0, 7)), .admitJob 8 (.ok ⟨1, 0⟩), .spawn, .admitJob 7 (.ok ⟨0, 1⟩)]
    ⟨tinyJoined.takeNext.state, {⟨.none, .claimed 0 7⟩, ⟨.none, .dispatching 0 (.submitted 1)⟩,
      ⟨.none, .dispatching 0 (.submitted 0)⟩}⟩ := by
  have hb : tinyAdmitted.admitJob 64 .returned 8 = (.ok ⟨1, 0⟩, tinyJoined) := rfl
  have h1 : Service.Run tinyConfig [.admitJob 8 (.ok ⟨1, 0⟩), .spawn, .admitJob 7 (.ok ⟨0, 1⟩)]
      ⟨tinyJoined, {⟨.none, .closure⟩, ⟨.none, .dispatching 0 (.submitted 1)⟩,
        ⟨.none, .dispatching 0 (.submitted 0)⟩}⟩ := by
    rw [Multiset.insert_eq_cons, Multiset.insert_eq_cons, Multiset.cons_swap]
    exact .step tinySpawned_run (.call (Call.admitJob hb))
  exact Service.Run.acts h1 (.takeNext rfl)

/-- The state in which both jobs have been taken, and the first is finished. -/
def tinyBoth : RayonExecutorServiceState Watch.versioned ℕ :=
  (tinyJoined.takeNext.state.finishRunning 0).state.publishCapacity.takeNext.state

/-- The worker finishes the first job, spawns a successor, and that takes the second. -/
theorem tinyBoth_run : Service.Run tinyConfig
    [.takeNext (some (1, 8)), .spawn, .publishCapacity, .finishRunning 0 true, .run 0 7,
      .takeNext (some (0, 7)), .admitJob 8 (.ok ⟨1, 0⟩), .spawn, .admitJob 7 (.ok ⟨0, 1⟩)]
    ⟨tinyBoth, {⟨.none, .claimed 1 8⟩, ⟨.none, .dispatching 0 .runOne⟩,
      ⟨.none, .dispatching 0 (.submitted 1)⟩, ⟨.none, .dispatching 0 (.submitted 0)⟩}⟩ := by
  have hf : tinyJoined.takeNext.state.finishRunning 0 =
      ⟨true, ⟨true, false⟩, (tinyJoined.takeNext.state.finishRunning 0).state⟩ := rfl
  have h1 := Service.Run.acts tinyJoined_run .run
  have h2 := Service.Run.acts h1 (.finishRunning hf)
  have h3 := Service.Run.acts h2 .publishCapacity
  have h4 : Service.Run tinyConfig _ ⟨_, {⟨.none, .closure⟩, ⟨.none, .dispatching 0 .runOne⟩,
      ⟨.none, .dispatching 0 (.submitted 1)⟩, ⟨.none, .dispatching 0 (.submitted 0)⟩}⟩ :=
    h3.step (.act (.of_eq .spawn rfl (Multiset.cons_swap _ _ _)))
  exact Service.Run.acts h4 (.takeNext rfl)

end RayonExecutor
