import RayonExecutor.Sections
import RayonExecutor.Unwinding
import RayonExecutor.Lib.Stacks

/-!
# User code and the lock

Every operation is written out as the effects of its thread, with each piece of user code where it
runs: the job that is dropped after a rejection or a panic in `admit`, what a job does when it runs
or is cancelled, the destructors of payloads, and the wakers that a publication wakes. None of them
runs in the scope of a guard (`Operation.free`): the publications come after the scope, parameters
are dropped after the guard, and what `insert` could displace does not exist. So user code may call
the operations of the service in turn, to any depth, and no thread locks the mutex that it has
locked.
-/

namespace RayonExecutor

open Program

variable {W : Watch} {C : Client} {α : Type}

namespace Code

/-- The program may run in a thread that does not have the lock, so user code may call it. -/
abbrev Reentrant (m : Code W C α) : Prop := Free RayonExecutorServiceInner.Fresh m

/-- Containing a program runs one destructor more. -/
theorem Reentrant.contain {m : Code W C Unit} (h : Reentrant m) : Reentrant (Code.contain m) := by
  refine (Free.catchUnwind h).bind fun o => ?_
  cases o with
  | ok u => rfl
  | error payload =>
    refine ⟨rfl, fun r => ?_⟩
    cases r <;> rfl

/-- `notify_async_changes`, which is called after the lock has been released. -/
theorem Reentrant.notifyAsyncChanges (capacity_changed terminated : Bool) :
    Reentrant (Code.notifyAsyncChanges capacity_changed terminated : Code W C Unit) := by
  have hwakers : ∀ wakers, Reentrant (wakeAll wakers : Code W C Unit) :=
    fun wakers => (wakeAll_hidden wakers).free
  have hfirst : Reentrant (Code.contain sendModifyCapacity : Code W C Unit) :=
    Reentrant.contain (Free.other hwakers)
  have hsecond : Reentrant (Code.contain sendIfModifiedTermination : Code W C Unit) :=
    Reentrant.contain (Free.other hwakers)
  cases capacity_changed with
  | false => cases terminated with
    | false => rfl
    | true => exact hsecond
  | true => cases terminated with
    | false => exact Free.bind hfirst fun _ => rfl
    | true => exact Free.bind hfirst fun _ => hsecond

/-- `admit` drops the job that it does not accept after the guard. -/
theorem Reentrant.admitJob (bits : ℕ) (job : C.Job) :
    Reentrant (Code.admitJob bits job : Code W C (Except SubmissionError Admission)) := by
  have hdrop : Reentrant (ofJob (C.drop job) : Code W C Unit) := (ofJob_hidden _).free
  refine Free.bind (Free.catchUnwind (admitLocked_section bits job).free) fun o => ?_
  rcases o with payload | error | admission
  · exact Free.bind (Free.catchUnwind hdrop) fun _ => rfl
  · exact Free.bind hdrop fun _ => rfl
  · rfl

/-- The submissions. -/
theorem Reentrant.submit (bits : ℕ) (job : C.Job) :
    Reentrant (Code.submit bits job : Code W C (Except SubmissionError ℕ)) := by
  have hdispatch : ∀ count, Reentrant (Code.dispatch count : Code W C Unit) := by
    intro count
    induction count with
    | zero => rfl
    | succ count ih => exact Free.other fun _ => ih
  refine Free.bind (Reentrant.admitJob bits job) fun r => ?_
  cases r with
  | error error => rfl
  | ok admission => exact Free.bind (hdispatch _) fun _ => rfl

/-- `take_next`. -/
theorem Reentrant.takeNext : Reentrant (Code.takeNext : Code W C (Option (ℕ × C.Job))) := by
  refine Free.bind takeNextLocked_section.free fun taken => ?_
  cases taken with
  | inl terminated => exact Free.bind (Reentrant.notifyAsyncChanges _ _) fun _ => rfl
  | inr taken => rfl

/-- `finish_running`. -/
theorem Reentrant.finishRunning (task_id : ℕ) :
    Reentrant (Code.finishRunning task_id : Code W C Bool) :=
  Free.bind (finishRunningLocked_section task_id).free fun _ =>
    Free.bind (Reentrant.notifyAsyncChanges _ _) fun _ => rfl

/-- `finish_cancelling`. -/
theorem Reentrant.finishCancelling (task_id : ℕ) :
    Reentrant (Code.finishCancelling task_id : Code W C Unit) :=
  Free.bind (finishCancellingLocked_section task_id).free fun _ => Reentrant.notifyAsyncChanges _ _

/-- `shutdown`. -/
theorem Reentrant.shutdown : Reentrant (Code.shutdown : Code W C Unit) :=
  Free.bind shutdownLocked_section.free fun _ => Reentrant.notifyAsyncChanges _ _

/-- The call of a method of a job. -/
theorem Reentrant.callJob {o : Op W C} {m : Program C.Piece C.Answer C.Payload Unit} :
    Reentrant (Code.contain (call o >>= fun _ => ofJob m)) :=
  Reentrant.contain (Free.other fun _ => (ofJob_hidden m).free)

/-- `run_one`. -/
theorem Reentrant.runOne : Reentrant (Code.runOne : Code W C Unit) := by
  refine Free.bind Reentrant.takeNext fun taken => ?_
  cases taken with
  | none => rfl
  | some e =>
    refine Free.bind Reentrant.callJob fun _ =>
      Free.bind (Reentrant.finishRunning e.1) fun dispatch => ?_
    cases dispatch with
    | false => rfl
    | true => exact Free.other fun _ => rfl

/-- `cancel_task`. -/
theorem Reentrant.cancelTask (task_id : ℕ) {absent : Code W C CancelResult}
    (h : Reentrant absent) : Reentrant (Code.cancelTask task_id absent) := by
  refine Free.bind (cancelPendingTaskLocked_section task_id).free fun disposition => ?_
  cases disposition with
  | owned job =>
    exact Free.bind Reentrant.callJob fun _ =>
      Free.bind (Reentrant.finishCancelling task_id) fun _ => rfl
  | inProgress => rfl
  | absent => exact h

/-- Both endpoints. -/
theorem Reentrant.cancel (endpoint : Endpoint) (task_id : ℕ) :
    Reentrant (Code.cancel endpoint task_id : Code W C CancelResult) := by
  rw [cancel_eq]
  refine Reentrant.cancelTask task_id ?_
  cases endpoint with
  | handle => exact Free.other fun _ => rfl
  | cancellationHandle =>
    refine Free.bind (query_section _).free fun running => ?_
    cases running with
    | false => exact Free.other fun _ => rfl
    | true => rfl

/-- `stop`. -/
theorem Reentrant.stop : Reentrant (Code.stop : Code W C StopReport) := by
  have hstate : Reentrant (Code.stopState : Code W C (StopReport × List (ℕ × C.Job))) :=
    Free.bind stopLocked_section.free fun _ =>
      Free.bind (Reentrant.notifyAsyncChanges _ _) fun _ => rfl
  have hloop : ∀ jobs, Reentrant (Code.cancelJobs jobs : Code W C Unit) := by
    intro jobs
    induction jobs with
    | nil => rfl
    | cons e jobs ih =>
      exact Free.bind Reentrant.callJob fun _ =>
        Free.bind (Reentrant.finishCancelling e.1) fun _ => ih
  exact Free.bind hstate fun r => Free.bind (hloop r.2) fun _ => rfl

/-- `subscribe_termination`. -/
theorem Reentrant.subscribeTermination :
    Reentrant (Code.subscribeTermination : Code W C (W.Receiver Bool)) := by
  refine Free.other fun receiver => Free.bind (query_section _).free fun terminated => ?_
  cases terminated with
  | false => rfl
  | true => exact Free.bind (Reentrant.notifyAsyncChanges false true) fun _ => rfl

end Code

/-- Every operation may be called by user code. -/
theorem Operation.free (bits : ℕ) (op : Operation C) :
    Code.Reentrant (op.program bits : Code W C Unit) := by
  have hreturned : ∀ ret : Return W, Code.Reentrant (Code.call (.returned ret) : Code W C Unit) :=
    fun _ => Free.other fun _ => rfl
  cases op with
  | submit job =>
    refine Free.bind (Free.catchUnwind (Code.Reentrant.submit bits job)) fun o => ?_
    rcases o with payload | error | task_id
    · rfl
    · rfl
    · exact hreturned _
  | runOne => exact Free.bind Code.Reentrant.runOne fun _ => hreturned _
  | cancel endpoint task_id => exact Free.bind (Code.Reentrant.cancel endpoint task_id) fun _ => rfl
  | stop => exact Free.bind Code.Reentrant.stop fun _ => hreturned _
  | shutdown => exact Free.bind Code.Reentrant.shutdown fun _ => hreturned _
  | lifecycle | stats | isNotRunning => exact Free.bind (Code.query_section _).free fun _ => rfl
  | capacityChanges =>
    have hsubscribe : Code.Section (Code.call .subscribeCapacity : Code W C (W.Receiver ℕ)) :=
      Critical.other rfl fun _ => trivial
    exact Free.bind hsubscribe.free fun _ => rfl
  | subscribeTermination => exact Free.bind Code.Reentrant.subscribeTermination fun _ => hreturned _

/-! ## Executions with nested calls -/

/-- What happens in an execution. -/
abbrev ReentrantEvent (W : Watch) (C : Client) :=
  Stack.Event (Operation C) (RayonExecutorServiceInner C.Job) (UserCode C) (Op W C)

/-- A thread that runs operations, of which each but the innermost has come to user code that has
called the next. -/
abbrev ReentrantThread (W : Watch) (C : Client) :=
  Stack (RayonExecutorServiceInner C.Job) (UserCode C) (Op W C) C.Payload UserCode.Answer Op.Answer

/-- The executions from the creation of the service. -/
abbrev ReentrantRun (cfg : Config) : List (ReentrantEvent W C) →
    Pool (Locked (RayonExecutorServiceInner C.Job)) (ReentrantThread W C) → Prop :=
  StackRun (Operation.program cfg.bits)
    (RayonExecutorServiceState.new W C.Job cfg.task_capacity cfg.num_threads).inner

/-- User code never runs under the lock, and no thread locks the mutex that it has locked. -/
structure ReentrancySafe (cfg : Config)
    (p : Pool (Locked (RayonExecutorServiceInner C.Job)) (ReentrantThread W C)) : Prop where
  /-- A thread that is about to run a piece of user code does not have the lock. -/
  user : ∀ t ∈ p.threads, ∀ u, t.next = some (.user u) → t.held = false
  /-- A thread that is about to lock does not have the lock, in whatever depth of calls. -/
  lock : ∀ t ∈ p.threads, t.next = some .lock → t.held = false
  /-- The thread that has the lock waits for nobody. -/
  goes_on : ∀ t ∈ p.threads, t.held = true →
    ∃ e y new, Stack.Act (Operation.program cfg.bits) t p.shared e y new

/-- Every effect can be answered. -/
theorem Op.nonempty_answer (o : Op W C) : Nonempty o.Answer := by
  cases o with
  | sendCapacity | sendTermination => exact ⟨[]⟩
  | subscribeCapacity => exact ⟨W.subscribe (W.channel 0)⟩
  | subscribeTermination => exact ⟨W.subscribe (W.channel false)⟩
  | accept => exact ⟨.ok ()⟩
  | status => exact ⟨.pending⟩
  | fallback => exact ⟨.cancelled⟩
  | notifyAll | spawn | run | cancel | returned => exact ⟨()⟩

/-- Every reachable state is safe for nested calls. -/
theorem reentrancy_safe {cfg : Config} {tr : List (ReentrantEvent W C)}
    {p : Pool (Locked (RayonExecutorServiceInner C.Job)) (ReentrantThread W C)}
    (h : ReentrantRun cfg tr p) : ReentrancySafe cfg p := by
  have hfree := Operation.free (W := W) (C := C) cfg.bits
  have hnew := RayonExecutorServiceInner.Fresh.new W C.Job cfg.task_capacity cfg.num_threads
  exact
    { user := fun t ht u hu => h.guarded hfree hnew ht (.inr ⟨u, hu⟩)
      lock := fun t ht hl => h.guarded hfree hnew ht (.inl hl)
      goes_on := fun t ht hheld => h.exists_act hfree hnew ht hheld Op.nonempty_answer }

/-- The only thread goes on. -/
theorem ReentrantRun.alone {cfg : Config} {tr : List (ReentrantEvent W C)}
    {x y : Locked (RayonExecutorServiceInner C.Job)} {t t' : ReentrantThread W C}
    {e : ReentrantEvent W C} (h : ReentrantRun cfg tr ⟨x, {t}⟩)
    (ha : Stack.Act (Operation.program cfg.bits) t x e y {t'}) :
    ReentrantRun cfg (e :: tr) ⟨y, {t'}⟩ := h.step (.act (.of_eq ha rfl rfl))

/-- The data after the shutdown of a new service. -/
def tinyShutInner : RayonExecutorServiceInner ℕ :=
  { (RayonExecutorServiceState.new Watch.versioned ℕ 2 1).inner with lifecycle := .shuttingDown }

/-- The waker that a `shutdown` wakes asks for the `stats`. -/
theorem tinyNested_run : ∃ t, ReentrantRun (W := Watch.versioned) (C := tinyClient) tinyConfig
    [.performed .lock, .call .stats, .performed (.other .sendCapacity), .performed .unlock,
      .performed (.other .notifyAll), .performed .get, .performed (.set tinyShutInner),
      .performed .get, .performed .lock, .start .shutdown] ⟨⟨tinyShutInner, true⟩, {t}⟩ ∧
    t.held = true ∧ t.below.length = 1 := by
  have h0 : ReentrantRun (W := Watch.versioned) (C := tinyClient) tinyConfig [.start .shutdown]
      ⟨⟨(RayonExecutorServiceState.new Watch.versioned ℕ 2 1).inner, false⟩,
        {⟨false, Operation.program 64 .shutdown, []⟩}⟩ := .step .init (.first .start)
  have h1 := h0.alone (.lock rfl)
  have h2 := h1.alone .get
  have h3 := h2.alone .set
  have h4 := h3.alone .get
  have h5 := h4.alone (.other ())
  have h6 := h5.alone .unlock
  have h7 := h6.alone (.other [.task (4 : ℕ)])
  have h8 := h7.alone (.call .stats)
  have h9 := h8.alone (.lock rfl)
  exact ⟨_, h9, rfl, rfl⟩

/-- The call has the lock, and the waker has waited for it without. -/
theorem reentrancy_safe_tiny : ∃ t : ReentrantThread Watch.versioned tinyClient,
    ReentrancySafe tinyConfig ⟨⟨tinyShutInner, true⟩, {t}⟩ ∧ t.held = true ∧
      t.below.length = 1 := by
  obtain ⟨t, hrun, hheld, hbelow⟩ := tinyNested_run
  exact ⟨t, reentrancy_safe hrun, hheld, hbelow⟩

end RayonExecutor
