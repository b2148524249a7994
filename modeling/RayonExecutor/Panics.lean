import RayonExecutor.Sections
import RayonExecutor.Unwinding

/-!
# Panics never change the accounting

Threads run the operations of the service over one shared state, one effect at a time (`CodeRun`).
What is left of an operation without its user code is the same whatever that answers
(`Operation.unmoved`), since every piece that may unwind is inside of a boundary behind which the
code goes on in one way only. So two runs that differ in which pieces unwind, and are interleaved
alike, go through the same service states. What the single operations do meanwhile is said by their
traces.
-/

namespace RayonExecutor

open Program Transition

variable {W : Watch} {C : Client} {α β : Type}

/-- The accounting of the crate: all but user code, and what is up to the users. -/
abbrev accounting (W : Watch) (C : Client) :
    Erasure (Effect W C) (Guarded.Answer UserCode.Answer Op.Answer) :=
  foreignErasure RayonExecutorServiceInner.Fresh Op.outer

namespace Code

/-! ## The code without its user code -/

/-- What is left of the program without its user code does not depend on how that answers. -/
abbrev Unmoved (m : Code W C α) : Prop := Erasable (accounting W C) m

/-- User code that is caught leaves nothing, if the code goes on in one way. -/
theorem Unmoved.caught {m : Code W C β} (h : m.Hidden Guarded.isUser)
    {f : Except C.Payload β → Code W C α} {n : Code W C α} (hn : Unmoved n) (hf : ∀ o, f o = n) :
    Unmoved (m.catchUnwind >>= f) := by
  obtain ⟨n', hn'⟩ := hn
  have hleads : Leads Guarded.isUser (m.catchUnwind >>= f) n :=
    h.leads fun o => (hf o).symm ▸ Leads.refl n
  exact ⟨n', Leads.erases hleads hn'⟩

/-- User code that is contained leaves nothing. -/
theorem contain_erases {m : Code W C Unit} (h : m.Hidden Guarded.isUser) :
    Erases (accounting W C) (contain m) (.ret ()) := Leads.erases (contain_leads h) (.ret _)

/-- A publication leaves its send, whichever wakers there are. -/
theorem Unmoved.send {o : Op W C} {f : o.Answer → List (Waker C)} :
    Unmoved (contain (call o >>= fun r => wakeAll (f r))) :=
  ⟨_, Erases.other fun r => contain_erases (wakeAll_hidden (f r))⟩

/-- `notify_async_changes`. -/
theorem Unmoved.notifyAsyncChanges (capacity_changed terminated : Bool) :
    Unmoved (Code.notifyAsyncChanges capacity_changed terminated : Code W C Unit) := by
  have hfirst : Unmoved (contain sendModifyCapacity : Code W C Unit) := Unmoved.send
  have hsecond : Unmoved (contain sendIfModifiedTermination : Code W C Unit) := Unmoved.send
  cases capacity_changed with
  | false => cases terminated with
    | false => exact Erasable.ret
    | true => exact hsecond
  | true => cases terminated with
    | false => exact hfirst.bind fun _ => Erasable.ret
    | true => exact hfirst.bind fun _ => hsecond

/-- `take_next`. -/
theorem Unmoved.takeNext : Unmoved (Code.takeNext : Code W C (Option (ℕ × C.Job))) := by
  refine takeNextLocked_section.erasable_scope.bind fun taken => ?_
  cases taken with
  | inl terminated => exact (Unmoved.notifyAsyncChanges _ _).bind fun _ => Erasable.ret
  | inr taken => exact Erasable.ret

/-- `finish_running`. -/
theorem Unmoved.finishRunning (task_id : ℕ) :
    Unmoved (Code.finishRunning task_id : Code W C Bool) :=
  (finishRunningLocked_section task_id).erasable_scope.bind fun _ =>
    (Unmoved.notifyAsyncChanges _ _).bind fun _ => Erasable.ret

/-- `finish_cancelling`. -/
theorem Unmoved.finishCancelling (task_id : ℕ) :
    Unmoved (Code.finishCancelling task_id : Code W C Unit) :=
  (finishCancellingLocked_section task_id).erasable_scope.bind fun _ =>
    Unmoved.notifyAsyncChanges _ _

/-- `shutdown`. -/
theorem Unmoved.shutdown : Unmoved (Code.shutdown : Code W C Unit) :=
  shutdownLocked_section.erasable_scope.bind fun _ => Unmoved.notifyAsyncChanges _ _

/-- A submission after `admit`, when its thread is over with it. -/
theorem Unmoved.submit (bits : ℕ) (job : C.Job)
    {f : Except C.Payload (Except SubmissionError ℕ) → Code W C α} {n : Code W C α}
    (hn : Unmoved n) (haccepted : ∀ task_id, Unmoved (f (.ok (.ok task_id))))
    (herror : ∀ error, f (.ok (.error error)) = n) (hunwind : ∀ payload, f (.error payload) = n) :
    Unmoved ((Code.submit bits job).catchUnwind >>= f) := by
  have hf : ∀ o, Unmoved (f o) := by
    rintro (payload | error | task_id)
    · exact hunwind payload ▸ hn
    · exact herror error ▸ hn
    · exact haccepted task_id
  have hlocked : Unmoved (Program.scope (admitLocked bits job)).catchUnwind :=
    (admitLocked_section (W := W) bits job).erasable_scope.catchUnwind
  have hdrop : (ofJob (C.drop job) : Code W C Unit).Hidden Guarded.isUser := ofJob_hidden _
  unfold Code.submit Code.admitJob
  simp only [catchUnwind_bind, bind_assoc]
  refine (Erasable.catchUnwind hlocked).bind fun o => ?_
  rcases o with payload | payload | error | admission
  · exact hf _
  · -- the rejected job is dropped while the panic goes on
    simp only [catchUnwind_bind, bind_assoc]
    refine Unmoved.caught hdrop.catchUnwind hn fun o => ?_
    cases o <;> exact hunwind _
  · -- the rejected job is dropped after the guard, and may unwind into the caller
    simp only [catchUnwind_bind, bind_assoc]
    refine Unmoved.caught hdrop hn fun o => ?_
    cases o with
    | ok u => exact herror error
    | error payload => exact hunwind payload
  · have hdispatch : ∀ count, Unmoved (Code.dispatch count : Code W C Unit) := by
      intro count
      induction count with
      | zero => exact Erasable.ret
      | succ count ih => exact Erasable.other rfl fun _ => ih
    simp only [pure_eq, catchUnwind_ret, ret_bind, catchUnwind_bind, bind_assoc]
    refine (Erasable.catchUnwind (hdispatch _)).bind fun o => ?_
    cases o <;> exact hf _

/-- `run_one`. -/
theorem Unmoved.runOne : Unmoved (Code.runOne : Code W C Unit) := by
  refine Unmoved.takeNext.bind fun taken => ?_
  cases taken with
  | none => exact Erasable.ret
  | some e =>
    obtain ⟨task_id, job⟩ := e
    have hrun : Unmoved (contain (runJob task_id job) : Code W C Unit) :=
      Erasable.other rfl fun _ => ⟨_, contain_erases (ofJob_hidden (C.run job))⟩
    refine hrun.bind fun _ => (Unmoved.finishRunning task_id).bind fun dispatch => ?_
    cases dispatch with
    | false => exact Erasable.ret
    | true => exact Erasable.other rfl fun _ => Erasable.ret

/-- The cleanup of one job. -/
theorem Unmoved.cancelJob (task_id : ℕ) (job : C.Job) :
    Unmoved (contain (Code.cancelJob task_id job) : Code W C Unit) :=
  Erasable.other rfl fun _ => ⟨_, contain_erases (ofJob_hidden (C.cancel job))⟩

/-- `cancel_task`, when its thread is over with it. The result may depend on how the task has ended,
but nothing else does. -/
theorem Unmoved.cancelTask (task_id : ℕ) {absent : Code W C CancelResult} {n : Code W C α}
    (hn : Unmoved n) (h : Unmoved (absent >>= fun _ => n)) :
    Unmoved (Code.cancelTask task_id absent >>= fun _ => n) := by
  unfold Code.cancelTask
  rw [bind_assoc]
  refine (cancelPendingTaskLocked_section task_id).erasable_scope.bind fun disposition => ?_
  cases disposition with
  | owned job =>
    simp only [bind_assoc]
    exact (Unmoved.cancelJob task_id job).bind fun _ =>
      (Unmoved.finishCancelling task_id).bind fun _ => hn
  | inProgress => exact hn
  | absent => exact h

/-- Both endpoints. -/
theorem Unmoved.cancel (endpoint : Endpoint) (task_id : ℕ) {n : Code W C α} (hn : Unmoved n) :
    Unmoved (Code.cancel endpoint task_id >>= fun _ => n) := by
  rw [cancel_eq]
  refine Unmoved.cancelTask task_id hn ?_
  obtain ⟨n', hn'⟩ := hn
  cases endpoint with
  | handle => exact ⟨_, Erases.other fun _ => hn'⟩
  | cancellationHandle =>
    unfold absentResult
    rw [bind_assoc]
    refine (query_section _).erasable_scope.bind fun running => ?_
    cases running with
    | false => exact ⟨_, Erases.other fun _ => hn'⟩
    | true => exact ⟨n', hn'⟩

/-- `stop`. -/
theorem Unmoved.stop : Unmoved (Code.stop : Code W C StopReport) := by
  have hstate : Unmoved (Code.stopState : Code W C (StopReport × List (ℕ × C.Job))) :=
    stopLocked_section.erasable_scope.bind fun _ =>
      (Unmoved.notifyAsyncChanges _ _).bind fun _ => Erasable.ret
  have hloop : ∀ jobs, Unmoved (Code.cancelJobs jobs : Code W C Unit) := by
    intro jobs
    induction jobs with
    | nil => exact Erasable.ret
    | cons e jobs ih =>
      exact (Unmoved.cancelJob e.1 e.2).bind fun _ =>
        (Unmoved.finishCancelling e.1).bind fun _ => ih
  exact hstate.bind fun r => (hloop r.2).bind fun _ => Erasable.ret

/-- `subscribe_termination`. -/
theorem Unmoved.subscribeTermination :
    Unmoved (Code.subscribeTermination : Code W C (W.Receiver Bool)) := by
  refine Erasable.other rfl fun receiver =>
    (query_section _).erasable_scope.bind fun terminated => ?_
  cases terminated with
  | false => exact Erasable.ret
  | true =>
    exact (Unmoved.notifyAsyncChanges false true).bind fun _ => Erasable.ret

end Code

/-- What the thread of an operation does, but for its user code, does not depend on that. -/
theorem Operation.unmoved (bits : ℕ) (op : Operation C) :
    Code.Unmoved (op.program bits : Code W C Unit) := by
  have hreturned : ∀ ret : Return W, Code.Unmoved (Code.call (.returned ret) : Code W C Unit) :=
    fun _ => Erasable.other rfl fun _ => Erasable.ret
  cases op with
  | submit job =>
    exact Code.Unmoved.submit bits job Erasable.ret (fun _ => hreturned _) (fun _ => rfl)
      fun _ => rfl
  | runOne => exact Code.Unmoved.runOne.bind fun _ => hreturned _
  | cancel endpoint task_id => exact Code.Unmoved.cancel endpoint task_id Erasable.ret
  | stop => exact Code.Unmoved.stop.bind fun _ => hreturned _
  | shutdown => exact Code.Unmoved.shutdown.bind fun _ => hreturned _
  | lifecycle | stats | isNotRunning =>
    exact (Code.query_section _).erasable_scope.bind fun _ => Erasable.ret
  | capacityChanges =>
    have hsubscribe : Code.Section (Code.call .subscribeCapacity : Code W C (W.Receiver ℕ)) :=
      Critical.other rfl fun _ => trivial
    exact hsubscribe.erasable_scope.bind fun _ => Erasable.ret
  | subscribeTermination => exact Code.Unmoved.subscribeTermination.bind fun _ => hreturned _

/-- No operation unwinds in its thread. -/
theorem Operation.returns (bits : ℕ) (op : Operation C) :
    (op.program bits : Code W C Unit).Returns := by
  cases op with
  | submit job =>
    refine (Returns.catchUnwind _).bind fun o => ?_
    rcases o with payload | error | task_id
    · trivial
    · trivial
    · exact fun _ => trivial
  | runOne => exact Code.runOne_returns.bind fun _ _ => trivial
  | cancel endpoint task_id => exact (Code.cancel_returns endpoint task_id).bind fun _ => trivial
  | stop => exact Code.stop_returns.bind fun _ _ => trivial
  | shutdown => exact Code.shutdown_returns.bind fun _ _ => trivial
  | lifecycle | stats | isNotRunning => exact (Code.query_returns _).bind fun _ => trivial
  | capacityChanges =>
    have hsubscribe : (Code.call .subscribeCapacity : Code W C (W.Receiver ℕ)).Returns :=
      fun _ => trivial
    exact hsubscribe.scope.bind fun _ => trivial
  | subscribeTermination =>
    exact Code.subscribeTermination_returns.bind fun _ _ => trivial

/-! ## Runs of the code -/

/-- What the threads share: the state of the service, and whether its mutex is locked. -/
structure SharedState (W : Watch) (C : Client) where
  state : RayonExecutorServiceState W C.Job
  locked : Bool

/-- The answers to an effect, with what they do to the shared state, and the operations that they
start. Nothing is assumed of user code and of the executor interface but that they answer. A piece
of user code that calls the service starts the operations that it calls like any other thread. -/
inductive Answers : (e : Effect W C) → SharedState W C →
    Guarded.Answer UserCode.Answer Op.Answer e → SharedState W C → Multiset (Operation C) → Prop
  | lock {x : SharedState W C} (h : x.locked = false) :
      Answers .lock x () { x with locked := true } 0
  | unlock {x : SharedState W C} : Answers .unlock x () { x with locked := false } 0
  | get {x : SharedState W C} : Answers .get x x.state.inner x 0
  | set {x : SharedState W C} {inner : RayonExecutorServiceInner C.Job} :
      Answers (.set inner) x () { x with state := { x.state with inner := inner } } 0
  | user {x : SharedState W C} {u : UserCode C} (r : u.Answer) : Answers (.user u) x r x 0
  | notifyAll {x : SharedState W C} : Answers (.other .notifyAll) x ()
      { x with state := { x.state with terminated := x.state.terminated.notifyAll } } 0
  | sendCapacity {x : SharedState W C} (wakers : List (Waker C)) :
      Answers (.other .sendCapacity) x wakers { x with state := x.state.publishCapacity } 0
  | sendTermination {x : SharedState W C} (wakers : List (Waker C)) :
      Answers (.other .sendTermination) x wakers { x with state := x.state.publishTermination } 0
  | subscribeCapacity {x : SharedState W C} :
      Answers (.other .subscribeCapacity) x (W.subscribe x.state.capacity_tx) x 0
  | subscribeTermination {x : SharedState W C} :
      Answers (.other .subscribeTermination) x (W.subscribe x.state.termination_tx) x 0
  | spawn {x : SharedState W C} : Answers (.other .spawn) x () x {.runOne}
  | accept {x : SharedState W C} {job : C.Job} (r : Except C.Payload Unit) :
      Answers (.other (.accept job)) x r x 0
  | run {x : SharedState W C} {task_id : ℕ} {job : C.Job} :
      Answers (.other (.run task_id job)) x () x 0
  | cancel {x : SharedState W C} {task_id : ℕ} {job : C.Job} :
      Answers (.other (.cancel task_id job)) x () x 0
  | status {x : SharedState W C} {task_id : ℕ} (r : TaskStatus) :
      Answers (.other (.status task_id)) x r x 0
  | fallback {x : SharedState W C} {task_id : ℕ} (r : CancelResult) :
      Answers (.other (.fallback task_id)) x r x 0
  | returned {x : SharedState W C} {ret : Return W} : Answers (.other (.returned ret)) x () x 0

/-- What happens in a run of the code, with the shared state after it. -/
abbrev CodeEvent (W : Watch) (C : Client) :=
  Happening (Operation C) (Effect W C) (Guarded.Answer UserCode.Answer Op.Answer) × SharedState W C

/-- The runs of the code from the creation of the service, one effect at a time. -/
abbrev CodeRun (cfg : Config) : List (CodeEvent W C) → Pool (SharedState W C) (Code W C Unit) →
    Prop :=
  PoolRun (Operation.program cfg.bits) Answers
    ⟨.new W C.Job cfg.task_capacity cfg.num_threads, false⟩

/-- The operations may be observed without their user code. -/
theorem codeRun_observable (bits : ℕ) : Observable (accounting W C) (Operation.program bits) Answers
    fun x => x.state.inner.Fresh where
  hidden e x r y as he := by
    cases e with
    | user u =>
      constructor
      · rintro ⟨⟩
        exact ⟨rfl, rfl⟩
      · rintro ⟨rfl, rfl⟩
        exact .user r
    | lock | unlock | get | set | other =>
      exact absurd he (by simp [foreignErasure, Guarded.isUser])
  outer e x r r' y as he ha := by
    cases ha with
    | sendCapacity => exact .sendCapacity r'
    | sendTermination => exact .sendTermination r'
    | status => exact .status r'
    | fallback => exact .fallback r'
    | _ => exact absurd he (by simp [foreignErasure, Op.outer])
  ok e x r y as _ hfresh ha := by
    cases ha with
    | get => exact hfresh
    | _ => trivial
  keeps e x r y as he hgood hfresh ha := by
    cases ha with
    | set => exact hgood
    | _ => exact hfresh
  erasable := Operation.unmoved bits

/-- Panics do not change the accounting. The pieces of user code that unwind in a run are any, and
so are the wakers that it finds and what it is told about tasks that have ended. -/
structure PanicsInvisible (cfg : Config) (tr : List (CodeEvent W C))
    (p : Pool (SharedState W C) (Code W C Unit)) : Prop where
  /-- For every other choice of these there is a run with the same operations, the same effects of
  the crate in the same order, and the same states of the service after each of them. -/
  same : ∀ choice, ∃ us q, CodeRun cfg us q ∧ Chosen (accounting W C) choice us ∧
    shown (accounting W C) us = shown (accounting W C) tr ∧ q.shared = p.shared
  /-- Each thread is on its way through a trace of an operation, and will not unwind. -/
  thread : ∀ t ∈ p.threads, t.Returns ∧ ∃ op us, (Operation.program cfg.bits op).After us t ∧
    ∀ vs o, t.Runs vs o → (Operation.program cfg.bits op).Runs (us ++ vs) o
  /-- `run_one` finishes the run of the task that it has taken, once, and spawns a successor exactly
  if `finish_running` has told it to. -/
  run_one : ∀ us o, (Code.runOne : Code W C Unit).Runs us o → o = .ok () ∧ Code.RunsOne us
  /-- `cancel` finishes the cleanup of the task that it has claimed, and returns `Cancelled`. -/
  cancel : ∀ endpoint task_id us o,
    (Code.cancel endpoint task_id : Code W C CancelResult).Runs us o → ∃ result, o = .ok result ∧
      Code.CancelsTask task_id (Code.absentResult endpoint task_id) us result
  /-- `stop` hands every job that it has taken to `cancel`, and finishes its cleanup. It returns the
  report that it has made when it took them. -/
  stop : ∀ us o, (Code.stop : Code W C StopReport).Runs us o → ∃ vs ws report jobs, us = vs ++ ws ∧
    Code.stopState.Runs vs (.ok (report, jobs)) ∧ Code.CleansUp jobs ws ∧
    (ws.map Sigma.fst).filterMap Code.cancels? = jobs ∧ o = .ok report
  /-- The methods of the state come to their ends. -/
  completes : (Code.shutdown : Code W C Unit).Returns ∧
    (Code.takeNext : Code W C (Option (ℕ × C.Job))).Returns ∧
    (∀ task_id, (Code.finishRunning task_id : Code W C Bool).Returns) ∧
    ∀ task_id, (Code.finishCancelling task_id : Code W C Unit).Returns

/-- Panics are invisible to the accounting in every run. -/
theorem panics_invisible {cfg : Config} {tr : List (CodeEvent W C)}
    {p : Pool (SharedState W C) (Code W C Unit)} (h : CodeRun cfg tr p) :
    PanicsInvisible cfg tr p where
  same choice := exists_run_of_choice (codeRun_observable cfg.bits)
    (RayonExecutorServiceInner.Fresh.new W C.Job cfg.task_capacity cfg.num_threads) choice h
  thread t ht := by
    obtain ⟨op, us, hafter⟩ := PoolRun.exists_after h t ht
    exact ⟨(op.returns cfg.bits).after hafter, op, us, hafter, fun _ _ => hafter.runs⟩
  run_one us o hr := ⟨(Code.runOne_returns.of_runs hr).elim fun _ ho => ho, Code.runOne_runs hr⟩
  cancel endpoint task_id us o hr := by
    rw [Code.cancel_eq] at hr
    exact Code.cancelTask_runs (Code.absentResult_returns endpoint task_id) hr
  stop us o hr := by
    obtain ⟨vs, ws, report, jobs, hsplit, hstop, hclean, ho⟩ := Code.stop_runs hr
    exact ⟨vs, ws, report, jobs, hsplit, hstop, hclean, hclean.cancels, ho⟩
  completes := ⟨Code.shutdown_returns, Code.takeNext_returns, Code.finishRunning_returns,
    Code.finishCancelling_returns⟩

/-- An operation starts on a thread of its own. -/
theorem CodeRun.starts {cfg : Config} {tr : List (CodeEvent W C)} {x : SharedState W C}
    {ms : Multiset (Code W C Unit)} (h : CodeRun cfg tr ⟨x, ms⟩) (op : Operation C) :
    CodeRun cfg ((.start op, x) :: tr) ⟨x, op.program cfg.bits ::ₘ ms⟩ := by
  rw [← Multiset.singleton_add]
  exact .step h (.call .start)

/-- A thread of a pool performs its next effect. -/
theorem CodeRun.acts {cfg : Config} {tr : List (CodeEvent W C)} {x y : SharedState W C}
    {e : Effect W C} {k : Guarded.Answer UserCode.Answer Op.Answer e → Code W C Unit}
    {ms : Multiset (Code W C Unit)} (h : CodeRun cfg tr ⟨x, .effect e k ::ₘ ms⟩)
    {r : Guarded.Answer UserCode.Answer Op.Answer e} (ha : Answers e x r y 0) :
    CodeRun cfg ((.performed e r, y) :: tr) ⟨y, k r ::ₘ ms⟩ :=
  h.step (.act (.of_eq (.effect ha) rfl (Multiset.singleton_add _ _).symm))

/-- The history of a submission in the state `st`, up to the end of its critical section. -/
def tinySubmits (st : RayonExecutorServiceState Watch.versioned ℕ) (job : ℕ) :
    List (CodeEvent Watch.versioned tinyClient) :=
  let numbered := { st with inner := { st.inner with next_task_id := st.inner.next_task_id + 1 } }
  let queued := { numbered with inner := { numbered.inner with
    queue := st.inner.queue.insert st.inner.next_task_id job } }
  let admitted := (st.admitJob 64 .returned job).2
  [(.performed .unlock (), ⟨admitted, false⟩),
    (.performed (.set admitted.inner) (), ⟨admitted, true⟩),
    (.performed (.set queued.inner) (), ⟨queued, true⟩),
    (.performed (.other (.accept job)) (.ok ()), ⟨numbered, true⟩),
    (.performed (.set numbered.inner) (), ⟨numbered, true⟩),
    (.performed .get st.inner, ⟨st, true⟩),
    (.performed .lock (), ⟨st, true⟩),
    (.start (.submit job), ⟨st, false⟩)]

/-- The state in which a second job has been accepted while the first is running. -/
def tinyQueued : RayonExecutorServiceState Watch.versioned ℕ :=
  (tinyTaken.admitJob 64 .returned 8).2

/-- The history in which a job is accepted, and unwinds when it is run, as does the destructor of
its payload. Another thread submits a second job before `finish_running`. -/
def tinyPanicked : List (CodeEvent Watch.versioned tinyClient) :=
  (.performed (.other (.returned (.submitted 1))) (), ⟨tinyQueued, false⟩) ::
    tinySubmits tinyTaken 8 ++
  [(.performed (.user (.dropPayload (8 : ℕ))) (.error (9 : ℕ)), ⟨tinyTaken, false⟩),
    (.performed (.user (.piece (7 : ℕ))) (.error (8 : ℕ)), ⟨tinyTaken, false⟩),
    (.performed (.other (.run 0 (7 : ℕ))) (), ⟨tinyTaken, false⟩),
    (.performed .unlock (), ⟨tinyTaken, false⟩),
    (.performed (.set tinyTaken.inner) (), ⟨tinyTaken, true⟩),
    (.performed .get tinyAdmitted.inner, ⟨tinyAdmitted, true⟩),
    (.performed .lock (), ⟨tinyAdmitted, true⟩),
    (.performed (.other (.returned (.submitted 0))) (), ⟨tinyAdmitted, false⟩),
    (.performed (.other .spawn) (), ⟨tinyAdmitted, false⟩)] ++
    tinySubmits (.new _ _ 2 1) 7

/-- What the closure has still to do when its job has unwound. -/
def tinyWorker : Code Watch.versioned tinyClient Unit :=
  (do if ← Code.finishRunning 0 then Code.call .spawn) >>= fun _ => Code.call (.returned .runOne)

/-- Both submissions have returned, and the worker goes on. -/
theorem tinyPanicked_run :
    CodeRun tinyConfig tinyPanicked ⟨⟨tinyQueued, false⟩, {.ret (), tinyWorker, .ret ()}⟩ := by
  have h0 : CodeRun (W := Watch.versioned) (C := tinyClient) tinyConfig [] _ := .init
  have h1 := CodeRun.starts h0 (.submit (7 : ℕ))
  have h2 := CodeRun.acts h1 (.lock rfl)
  have h3 := CodeRun.acts h2 .get
  have h4 := CodeRun.acts h3 .set
  have h5 := CodeRun.acts h4 (.accept (.ok ()))
  have h6 := CodeRun.acts h5 .set
  have h7 := CodeRun.acts h6 .set
  have h8 := CodeRun.acts h7 .unlock
  have h9 : CodeRun tinyConfig
      ((.performed (.other .spawn) (), ⟨tinyAdmitted, false⟩) :: tinySubmits (.new _ _ 2 1) 7)
      ⟨⟨tinyAdmitted, false⟩, Code.call (.returned (.submitted 0)) ::ₘ
        Operation.program 64 .runOne ::ₘ 0⟩ :=
    .step h8 (.act (.of_eq (.effect .spawn) rfl rfl))
  have h10 := CodeRun.acts h9 .returned
  rw [Multiset.cons_swap] at h10
  have h11 := CodeRun.acts h10 (.lock rfl)
  have h12 := CodeRun.acts h11 .get
  have h13 := CodeRun.acts h12 .set
  have h14 := CodeRun.acts h13 .unlock
  have h15 := CodeRun.acts h14 .run
  have h16 := CodeRun.acts h15 (.user (Except.error (8 : ℕ)))
  have h17 := CodeRun.acts h16 (.user (Except.error (9 : ℕ)))
  have h18 := CodeRun.starts h17 (.submit (8 : ℕ))
  have h19 := CodeRun.acts h18 (.lock rfl)
  have h20 := CodeRun.acts h19 .get
  have h21 := CodeRun.acts h20 .set
  have h22 := CodeRun.acts h21 (.accept (.ok ()))
  have h23 := CodeRun.acts h22 .set
  have h24 := CodeRun.acts h23 .set
  have h25 := CodeRun.acts h24 .unlock
  exact CodeRun.acts h25 .returned

/-- A job that unwinds, with the destructor of its payload, is invisible to the accounting. -/
theorem panics_invisible_tiny : PanicsInvisible tinyConfig tinyPanicked
    ⟨⟨tinyQueued, false⟩, {.ret (), tinyWorker, .ret ()}⟩ :=
  panics_invisible tinyPanicked_run

end RayonExecutor
