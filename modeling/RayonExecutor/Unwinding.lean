import RayonExecutor.Code

/-!
# What unwinds, and what does not

The traces of the code, for any answers that its user code gives. A piece that unwinds is caught by
the nearest boundary, and what comes after the boundary runs as if the piece had returned. So the
publications and the operations that start with the lock return (`Returns`), and a trace of an
operation is made of the traces of its parts, none of which is left out.
-/

namespace RayonExecutor

open Program

variable {W : Watch} {C : Client} {α : Type}

/-- An effect of the crate with its answer. -/
abbrev Performed (W : Watch) (C : Client) :=
  Σ e : Effect W C, Guarded.Answer UserCode.Answer Op.Answer e

/-- The tasks' wakers that are invoked, in order. -/
def woken (es : List (Effect W C)) : List C.Waker :=
  es.filterMap fun e => match e with
    | .user (.wake waker) => some waker
    | _ => none

/-- The task's own waker at the bottom of a waker. -/
def Waker.task_waker : Waker C → C.Waker
  | .task waker => waker
  | .isolating waker => waker.task_waker

/-- The waker is a `PanicIsolatingWake`. -/
def Waker.Isolated (waker : Waker C) : Prop := ∃ inner, waker = .isolating inner

namespace Code

/-! ## The boundaries -/

/-- The code of a job is user code. -/
theorem ofJob_hidden (m : Program C.Piece C.Answer C.Payload α) :
    (ofJob m : Code W C α).Hidden Guarded.isUser := by
  induction m with
  | ret | unwind => trivial
  | effect p k ih => exact ⟨rfl, fun r => ih r⟩

/-- Whether an effect is the destructor of a panic payload. -/
def isDropPayload : Effect W C → Bool
  | .user (.dropPayload _) => true
  | _ => false

/-- `discard_panic_payload` returns, whatever the destructor does. -/
theorem discardPanicPayload_returns (drop : Code W C Unit) :
    (discardPanicPayload drop).Returns := by
  refine (Returns.catchUnwind drop).bind fun o => ?_
  cases o <;> trivial

/-- `discard_panic_payload` runs the destructor of the payload and nothing else. -/
theorem discardPanicPayload_hidden (payload : C.Payload) : (discardPanicPayload do
    resume (← user (.dropPayload payload)) : Code W C Unit).Hidden isDropPayload := by
  refine ⟨rfl, fun r => ?_⟩
  cases r <;> trivial

/-- What is contained returns. -/
theorem contain_returns (m : Code W C Unit) : (contain m).Returns := by
  refine (Returns.catchUnwind m).bind fun o => ?_
  cases o with
  | ok u => trivial
  | error payload => exact discardPanicPayload_returns _

/-- A trace of what is contained is one of the contained program, and then the destructor of the
payload if it has unwound. -/
theorem contain_runs {m : Code W C Unit} {tr : List (Performed W C)} {o : Except C.Payload Unit}
    (h : (contain m).Runs tr o) : o = .ok () ∧ ∃ us vs outcome, tr = us ++ vs ∧
      m.Runs us outcome ∧ ∀ ev ∈ vs, isDropPayload ev.1 = true := by
  refine ⟨((contain_returns m).of_runs h).elim fun _ ho => ho, ?_⟩
  obtain ⟨us, vs, outcome, rfl, hm, hrest⟩ := (Returns.catchUnwind m).runs_bind h
  obtain ⟨_, hm, hout⟩ := runs_catchUnwind.1 hm
  obtain rfl := Except.ok.inj hout
  refine ⟨us, vs, outcome, rfl, hm, ?_⟩
  cases outcome with
  | ok u =>
    obtain ⟨rfl, -⟩ := runs_ret.1 hrest
    simp
  | error payload => exact (discardPanicPayload_hidden payload).of_runs hrest

/-- Containing user code leaves nothing but user code. -/
theorem contain_hidden {m : Code W C Unit} (h : m.Hidden Guarded.isUser) :
    (contain m).Hidden Guarded.isUser := by
  refine h.catchUnwind.bind fun o => ?_
  cases o with
  | ok u => trivial
  | error payload =>
    refine ⟨rfl, fun r => ?_⟩
    cases r <;> trivial

/-- After user code that is contained the crate goes on in one way. -/
theorem contain_leads {m : Code W C Unit} (h : m.Hidden Guarded.isUser) :
    Leads Guarded.isUser (contain m) (.ret ()) := by
  refine h.leads fun o => ?_
  cases o with
  | ok u => exact .refl _
  | error payload =>
    refine .hidden rfl fun r => ?_
    cases r <;> exact .refl _

/-! ## Publications -/

@[simp] theorem woken_append (us vs : List (Effect W C)) :
    woken (us ++ vs) = woken us ++ woken vs := List.filterMap_append

/-- The destructor of a payload invokes no waker. -/
theorem woken_eq_nil {tr : List (Performed W C)} (h : ∀ ev ∈ tr, isDropPayload ev.1 = true) :
    woken (tr.map Sigma.fst) = [] := by
  refine List.filterMap_eq_nil_iff.2 fun e he => ?_
  obtain ⟨ev, hev, rfl⟩ := List.mem_map.1 he
  have hdrop := h ev hev
  revert hdrop
  cases ev.1 with
  | user u => cases u <;> simp [isDropPayload]
  | _ => simp

/-- A waker is user code, isolated or not. -/
theorem wakeByRef_hidden (waker : Waker C) :
    (wakeByRef waker : Code W C Unit).Hidden Guarded.isUser := by
  induction waker with
  | task waker =>
    refine ⟨rfl, fun r => ?_⟩
    cases r <;> trivial
  | isolating waker ih => exact contain_hidden ih

/-- A waker invokes the waker of its task once, isolated or not. -/
theorem woken_wakeByRef {waker : Waker C} {tr : List (Performed W C)}
    {o : Except C.Payload Unit} (h : (wakeByRef waker : Code W C Unit).Runs tr o) :
    woken (tr.map Sigma.fst) = [waker.task_waker] := by
  induction waker generalizing tr o with
  | task waker =>
    obtain ⟨r, us, rfl, hr⟩ := runs_effect.1 h
    have hus : us = [] := by
      cases r with
      | ok u => exact (runs_ret.1 hr).1
      | error payload => exact (runs_unwind.1 hr).1
    rw [hus]
    rfl
  | isolating waker ih =>
    obtain ⟨-, us, vs, outcome, rfl, hm, hvs⟩ := contain_runs h
    rw [List.map_append, woken_append, ih hm, woken_eq_nil hvs, List.append_nil]
    rfl

/-- A send to any number of wakers is user code. -/
theorem wakeAll_hidden (wakers : List (Waker C)) :
    (wakeAll wakers : Code W C Unit).Hidden Guarded.isUser := by
  induction wakers with
  | nil => trivial
  | cons waker wakers ih => exact (wakeByRef_hidden waker).bind fun _ => ih

/-- Isolated wakers are invoked one after another to the last, whichever of them unwind. -/
theorem woken_wakeAll {wakers : List (Waker C)} (hiso : ∀ waker ∈ wakers, waker.Isolated)
    {tr : List (Performed W C)} {o : Except C.Payload Unit}
    (h : (wakeAll wakers : Code W C Unit).Runs tr o) :
    woken (tr.map Sigma.fst) = wakers.map Waker.task_waker := by
  induction wakers generalizing tr o with
  | nil =>
    obtain ⟨rfl, -⟩ := runs_ret.1 h
    rfl
  | cons waker wakers ih =>
    obtain ⟨inner, rfl⟩ := hiso waker List.mem_cons_self
    -- an isolated waker returns, so the send goes on
    have hret : (wakeByRef (.isolating inner) : Code W C Unit).Returns := contain_returns _
    obtain ⟨us, vs, u, rfl, hwake, hrest⟩ := hret.runs_bind h
    have hvs := ih (fun waker hm => hiso waker (List.mem_cons_of_mem _ hm)) hrest
    rw [List.map_append, woken_append, woken_wakeByRef hwake, hvs]
    rfl

/-- What comes after a send that has `wakers` to wake. -/
structure Wakes (wakers : List (Waker C)) (tr : List (Performed W C)) : Prop where
  user : ∀ ev ∈ tr, Guarded.isUser ev.1 = true
  woken : (∀ waker ∈ wakers, waker.Isolated) →
    woken (tr.map Sigma.fst) = wakers.map Waker.task_waker

/-- A contained send wakes its wakers. -/
theorem contain_wakeAll_runs {wakers : List (Waker C)} {tr : List (Performed W C)}
    {o : Except C.Payload Unit} (h : (contain (wakeAll wakers) : Code W C Unit).Runs tr o) :
    Wakes wakers tr where
  user := (contain_hidden (wakeAll_hidden wakers)).of_runs h
  woken hiso := by
    obtain ⟨-, us, vs, outcome, rfl, hm, hvs⟩ := contain_runs h
    rw [List.map_append, woken_append, woken_wakeAll hiso hm, woken_eq_nil hvs, List.append_nil]

/-- A trace of the first publication. -/
def SendsCapacity (changed : Bool) (tr : List (Performed W C)) : Prop :=
  if changed then ∃ wakers us, tr = ⟨.other .sendCapacity, wakers⟩ :: us ∧ Wakes wakers us
  else tr = []

/-- A trace of the second publication. -/
def SendsTermination (changed : Bool) (tr : List (Performed W C)) : Prop :=
  if changed then ∃ wakers us, tr = ⟨.other .sendTermination, wakers⟩ :: us ∧ Wakes wakers us
  else tr = []

/-- `notify_async_changes` returns. -/
theorem notifyAsyncChanges_returns (capacity_changed terminated : Bool) :
    (notifyAsyncChanges capacity_changed terminated : Code W C Unit).Returns := by
  cases capacity_changed with
  | false => cases terminated with
    | false => trivial
    | true => exact contain_returns _
  | true => cases terminated with
    | false => exact (contain_returns _).bind fun _ => trivial
    | true => exact (contain_returns _).bind fun _ => contain_returns _

/-- `notify_async_changes` makes its publications one after the other. -/
theorem notifyAsyncChanges_runs {capacity_changed terminated : Bool} {tr : List (Performed W C)}
    {o : Except C.Payload Unit} (h : (notifyAsyncChanges capacity_changed terminated).Runs tr o) :
    ∃ us vs, tr = us ++ vs ∧ SendsCapacity capacity_changed us ∧
      SendsTermination terminated vs := by
  have hsecond : ∀ {tr o}, (if terminated then contain sendIfModifiedTermination else pure () :
      Code W C Unit).Runs tr o → SendsTermination terminated tr := by
    intro tr o h
    unfold SendsTermination
    cases terminated with
    | false => exact (runs_ret.1 h).1
    | true =>
      obtain ⟨wakers, us, rfl, hus⟩ := runs_effect.1 h
      exact ⟨wakers, us, rfl, contain_wakeAll_runs hus⟩
  cases capacity_changed with
  | false => exact ⟨[], tr, rfl, rfl, hsecond h⟩
  | true =>
    obtain ⟨us, vs, u, rfl, hfirst, hrest⟩ := (contain_returns sendModifyCapacity).runs_bind h
    obtain ⟨wakers, us, rfl, hus⟩ := runs_effect.1 hfirst
    exact ⟨_, vs, rfl, ⟨wakers, us, rfl, contain_wakeAll_runs hus⟩, hsecond hrest⟩

/-! ## The methods of the state -/

/-- `notify_if_terminated_locked` returns. -/
theorem notifyIfTerminatedLocked_returns :
    (notifyIfTerminatedLocked : Code W C Bool).Returns := by
  refine Returns.perform fun inner => ?_
  split_ifs
  · exact fun _ => trivial
  · trivial

/-- The queries return. -/
theorem query_returns (f : RayonExecutorServiceInner C.Job → α) : (scope do
    let inner ← Program.read
    pure (f inner) : Code W C α).Returns := Returns.scope fun _ => trivial

/-- `take_next` returns. -/
theorem takeNext_returns : (takeNext : Code W C (Option (ℕ × C.Job))).Returns := by
  have hlocked : (takeNextLocked : Code W C (Bool ⊕ ℕ × C.Job)).Returns := by
    refine Returns.perform fun inner => ?_
    cases inner.queue.popFirst with
    | none => exact fun _ => notifyIfTerminatedLocked_returns.bind fun _ => trivial
    | some e => exact fun _ => trivial
  refine hlocked.scope.bind fun taken => ?_
  cases taken with
  | inl terminated => exact (notifyAsyncChanges_returns false terminated).bind fun _ => trivial
  | inr taken => trivial

/-- `finish_running` returns. -/
theorem finishRunning_returns (task_id : ℕ) : (finishRunning task_id : Code W C Bool).Returns := by
  have hlocked : (finishRunningLocked task_id : Code W C (Bool × Bool)).Returns :=
    fun _ _ => notifyIfTerminatedLocked_returns.bind fun _ => trivial
  exact hlocked.scope.bind fun r => (notifyAsyncChanges_returns true r.2).bind fun _ => trivial

/-- `cancel_pending_task` returns. -/
theorem cancelPendingTask_returns (task_id : ℕ) :
    (cancelPendingTask task_id : Code W C (CancelDisposition C.Job)).Returns := by
  refine Returns.scope (Returns.perform fun inner => ?_)
  cases inner.queue.remove task_id with
  | none =>
    dsimp only
    split_ifs <;> trivial
  | some e => exact fun _ => trivial

/-- `finish_cancelling` returns. -/
theorem finishCancelling_returns (task_id : ℕ) :
    (finishCancelling task_id : Code W C Unit).Returns := by
  have hlocked : (finishCancellingLocked task_id : Code W C Bool).Returns :=
    fun _ _ => notifyIfTerminatedLocked_returns.bind fun _ _ => trivial
  exact hlocked.scope.bind fun terminated => notifyAsyncChanges_returns true terminated

/-- `shutdown` returns. -/
theorem shutdown_returns : (shutdown : Code W C Unit).Returns := by
  have hlocked : (shutdownLocked : Code W C Bool).Returns :=
    fun _ _ => notifyIfTerminatedLocked_returns
  exact hlocked.scope.bind fun terminated => notifyAsyncChanges_returns true terminated

/-- `stop` of the state returns. -/
theorem stopState_returns : (stopState : Code W C (StopReport × List (ℕ × C.Job))).Returns := by
  have hlocked : (stopLocked : Code W C ((StopReport × List (ℕ × C.Job)) × Bool)).Returns :=
    fun _ _ => notifyIfTerminatedLocked_returns.bind fun _ => trivial
  exact hlocked.scope.bind fun r => (notifyAsyncChanges_returns true r.2).bind fun _ => trivial

/-- `subscribe_termination` returns. -/
theorem subscribeTermination_returns :
    (subscribeTermination : Code W C (W.Receiver Bool)).Returns := by
  refine fun receiver => (query_returns _).bind fun terminated => ?_
  cases terminated with
  | false => trivial
  | true => exact (contain_returns _).bind fun _ => trivial

/-! ## The operations of the service -/

/-- `run_one` returns. -/
theorem runOne_returns : (runOne : Code W C Unit).Returns := by
  refine takeNext_returns.bind fun taken => ?_
  cases taken with
  | none => trivial
  | some e =>
    refine (contain_returns _).bind fun _ => (finishRunning_returns _).bind fun dispatch => ?_
    cases dispatch with
    | false => trivial
    | true => exact fun _ => trivial

/-- The call of a job's method, contained, is that call and then user code. -/
theorem contain_call_runs {o : Op W C} {f : o.Answer → Code W C Unit}
    (hf : ∀ r, (f r).Hidden Guarded.isUser) {tr : List (Performed W C)}
    {outcome : Except C.Payload Unit} (h : (contain (call o >>= f)).Runs tr outcome) :
    ∃ r us, tr = ⟨.other o, r⟩ :: us ∧ ∀ ev ∈ us, Guarded.isUser ev.1 = true := by
  obtain ⟨r, us, rfl, hus⟩ := runs_effect.1 h
  exact ⟨r, us, rfl, (contain_hidden (hf r)).of_runs hus⟩

/-- A trace of `run_one`: it finds no task, or it runs the one that it has taken and finishes the
run, and spawns a successor if `finish_running` has told it to. -/
inductive RunsOne : List (Performed W C) → Prop
  | idle {us : List (Performed W C)} (htake : takeNext.Runs us (.ok none)) : RunsOne us
  | task {task_id : ℕ} {job : C.Job} {dispatch : Bool} {us vs ws : List (Performed W C)}
      (htake : takeNext.Runs us (.ok (some (task_id, job))))
      (huser : ∀ ev ∈ vs, Guarded.isUser ev.1 = true)
      (hfinish : (finishRunning task_id).Runs ws (.ok dispatch)) :
      RunsOne (us ++ ⟨.other (.run task_id job), ()⟩ :: vs ++ ws ++
        if dispatch then [⟨.other .spawn, ()⟩] else [])

/-- Every trace of `run_one` is one of `RunsOne`. -/
theorem runOne_runs {tr : List (Performed W C)} {o : Except C.Payload Unit}
    (h : runOne.Runs tr o) : RunsOne tr := by
  obtain ⟨us, tr, taken, rfl, htake, h⟩ := takeNext_returns.runs_bind h
  cases taken with
  | none =>
    obtain ⟨rfl, -⟩ := runs_ret.1 h
    rw [List.append_nil]
    exact .idle htake
  | some e =>
    obtain ⟨task_id, job⟩ := e
    obtain ⟨vs, tr, _, rfl, hrun, h⟩ := (contain_returns _).runs_bind h
    obtain ⟨ws, tr, dispatch, rfl, hfinish, h⟩ := (finishRunning_returns _).runs_bind h
    obtain ⟨_, vs, rfl, huser⟩ := contain_call_runs (fun _ => ofJob_hidden (C.run job)) hrun
    have hspawn : tr = if dispatch then [⟨.other .spawn, ()⟩] else [] := by
      cases dispatch with
      | false => exact (runs_ret.1 h).1
      | true =>
        obtain ⟨_, tr, rfl, hspawned⟩ := runs_effect.1 h
        obtain ⟨rfl, -⟩ := runs_ret.1 hspawned
        rfl
    have htask := RunsOne.task htake huser hfinish
    rw [hspawn]
    simpa only [List.append_assoc] using htask

/-- A trace of `cancel_task` with its result: a job that it owns is cancelled and its reservation
released. -/
inductive CancelsTask (task_id : ℕ) (absent : Code W C CancelResult) :
    List (Performed W C) → CancelResult → Prop
  | owned {job : C.Job} {us vs ws : List (Performed W C)}
      (hclaim : (cancelPendingTask task_id).Runs us (.ok (.owned job)))
      (huser : ∀ ev ∈ vs, Guarded.isUser ev.1 = true)
      (hfinish : (finishCancelling task_id).Runs ws (.ok ())) :
      CancelsTask task_id absent (us ++ ⟨.other (.cancel task_id job), ()⟩ :: vs ++ ws) .cancelled
  | inProgress {us : List (Performed W C)}
      (hclaim : (cancelPendingTask task_id).Runs us (.ok .inProgress)) :
      CancelsTask task_id absent us .cancelled
  | absent {us vs : List (Performed W C)} {result : CancelResult}
      (hclaim : (cancelPendingTask task_id).Runs us (.ok .absent))
      (habsent : absent.Runs vs (.ok result)) : CancelsTask task_id absent (us ++ vs) result

/-- Every trace of `cancel_task` is one of `CancelsTask`, with its result. -/
theorem cancelTask_runs {task_id : ℕ} {absent : Code W C CancelResult} (hret : absent.Returns)
    {tr : List (Performed W C)} {o : Except C.Payload CancelResult}
    (h : (cancelTask task_id absent).Runs tr o) :
    ∃ result, o = .ok result ∧ CancelsTask task_id absent tr result := by
  obtain ⟨us, tr, disposition, rfl, hclaim, h⟩ := (cancelPendingTask_returns _).runs_bind h
  cases disposition with
  | owned job =>
    obtain ⟨vs, tr, _, rfl, hcancel, h⟩ := (contain_returns _).runs_bind h
    obtain ⟨ws, tr, _, rfl, hfinish, h⟩ := (finishCancelling_returns _).runs_bind h
    obtain ⟨rfl, rfl⟩ := runs_ret.1 h
    obtain ⟨_, vs, rfl, huser⟩ := contain_call_runs (fun _ => ofJob_hidden (C.cancel job)) hcancel
    have howned := (.owned hclaim huser hfinish : CancelsTask task_id absent _ _)
    exact ⟨_, rfl, by simpa only [List.append_assoc, List.append_nil] using howned⟩
  | inProgress =>
    obtain ⟨rfl, rfl⟩ := runs_ret.1 h
    rw [List.append_nil]
    exact ⟨_, rfl, .inProgress hclaim⟩
  | absent =>
    obtain ⟨result, rfl⟩ := hret.of_runs h
    exact ⟨result, rfl, .absent hclaim h⟩

/-- `cancel_task` returns, if what it does for an absent task does. -/
theorem cancelTask_returns (task_id : ℕ) {absent : Code W C CancelResult}
    (h : absent.Returns) : (cancelTask task_id absent).Returns := by
  refine (cancelPendingTask_returns task_id).bind fun disposition => ?_
  cases disposition with
  | owned job =>
    exact (contain_returns _).bind fun _ => (finishCancelling_returns _).bind fun _ => trivial
  | inProgress => trivial
  | absent => exact h

/-- What the endpoints do for an absent task. -/
def absentResult : Endpoint → ℕ → Code W C CancelResult
  | .handle, task_id => do pure (cancellationResultForStatus (← call (.status task_id)))
  | .cancellationHandle, task_id => do
    if ← isRunningTask task_id then pure .alreadyRunning
    else call (.fallback task_id)

/-- Both endpoints execute `cancel_task`, each with its own fallback. -/
theorem cancel_eq (endpoint : Endpoint) (task_id : ℕ) :
    (cancel endpoint task_id : Code W C CancelResult) =
      cancelTask task_id (absentResult endpoint task_id) := by
  cases endpoint <;> rfl

/-- What the endpoints do for an absent task returns. -/
theorem absentResult_returns (endpoint : Endpoint) (task_id : ℕ) :
    (absentResult endpoint task_id : Code W C CancelResult).Returns := by
  cases endpoint with
  | handle => exact fun _ => trivial
  | cancellationHandle =>
    refine (query_returns _).bind fun running => ?_
    cases running with
    | false => exact fun _ => trivial
    | true => trivial

/-- A cancel call returns, through both endpoints. -/
theorem cancel_returns (endpoint : Endpoint) (task_id : ℕ) :
    (cancel endpoint task_id : Code W C CancelResult).Returns := by
  rw [cancel_eq]
  exact cancelTask_returns task_id (absentResult_returns endpoint task_id)

/-- The loop of `stop` returns. -/
theorem cancelJobs_returns (jobs : List (ℕ × C.Job)) :
    (cancelJobs jobs : Code W C Unit).Returns := by
  induction jobs with
  | nil => trivial
  | cons e jobs ih =>
    exact (contain_returns _).bind fun _ => (finishCancelling_returns _).bind fun _ => ih

/-- The job that is handed to `cancel`. -/
def cancels? : Effect W C → Option (ℕ × C.Job)
  | .other (.cancel task_id job) => some (task_id, job)
  | _ => none

/-- A trace without calls of `cancel`. -/
theorem cancels_eq_nil {m : Code W C α} (h : m.Hidden fun e => (cancels? e).isNone)
    {tr : List (Performed W C)} {o : Except C.Payload α} (hr : m.Runs tr o) :
    (tr.map Sigma.fst).filterMap cancels? = [] := by
  refine List.filterMap_eq_nil_iff.2 fun e he => ?_
  obtain ⟨ev, hev, rfl⟩ := List.mem_map.1 he
  exact Option.isNone_iff_eq_none.1 (h.of_runs hr ev hev)

/-- User code makes no call of `cancel`. -/
theorem cancels_of_user {e : Effect W C} (h : Guarded.isUser e = true) :
    (cancels? e).isNone = true := by
  cases e with
  | user u => rfl
  | _ => exact absurd h (by simp [Guarded.isUser])

/-- `finish_cancelling` makes no call of `cancel`. -/
theorem finishCancelling_quiet (task_id : ℕ) : (finishCancelling task_id : Code W C Unit).Hidden
    fun e => (cancels? e).isNone := by
  have hnotify : (notifyIfTerminatedLocked : Code W C Bool).Hidden
      fun e => (cancels? e).isNone := by
    refine ⟨rfl, fun inner => ?_⟩
    change Hidden _ (ite _ _ _)
    split_ifs
    · exact ⟨rfl, fun _ => trivial⟩
    · trivial
  have hwakers := fun wakers : List (Waker C) =>
    (contain_hidden (wakeAll_hidden (W := W) wakers)).mono fun _ => cancels_of_user
  refine Hidden.bind (Hidden.scope rfl rfl ?_) fun terminated => ?_
  · exact ⟨rfl, fun _ => ⟨rfl, fun _ => hnotify.bind fun _ => ⟨rfl, fun _ => trivial⟩⟩⟩
  · refine Hidden.bind ⟨rfl, hwakers⟩ fun _ => ?_
    cases terminated with
    | false => trivial
    | true => exact ⟨rfl, hwakers⟩

/-- A trace of the loop of `stop`: each job in turn is cancelled, and then its reservation is
released. -/
inductive CleansUp : List (ℕ × C.Job) → List (Performed W C) → Prop
  | nil : CleansUp [] []
  | cons {task_id : ℕ} {job : C.Job} {jobs : List (ℕ × C.Job)} {us vs ws : List (Performed W C)}
      (hcancel : (contain (cancelJob task_id job)).Runs us (.ok ()))
      (hfinish : (finishCancelling task_id).Runs vs (.ok ())) (h : CleansUp jobs ws) :
      CleansUp ((task_id, job) :: jobs) (us ++ vs ++ ws)

/-- Whatever the jobs do, the loop comes to the last of them. -/
theorem cancelJobs_runs {jobs : List (ℕ × C.Job)} {tr : List (Performed W C)}
    {o : Except C.Payload Unit} (h : (cancelJobs jobs).Runs tr o) : CleansUp jobs tr := by
  induction jobs generalizing tr with
  | nil =>
    obtain ⟨rfl, -⟩ := runs_ret.1 h
    exact .nil
  | cons e jobs ih =>
    obtain ⟨us, tr, _, rfl, hcancel, h⟩ := (contain_returns _).runs_bind h
    obtain ⟨vs, ws, _, rfl, hfinish, h⟩ := (finishCancelling_returns _).runs_bind h
    rw [← List.append_assoc]
    exact .cons hcancel hfinish (ih h)

/-- Each job is handed to `cancel` once, in order. -/
theorem CleansUp.cancels {jobs : List (ℕ × C.Job)} {tr : List (Performed W C)}
    (h : CleansUp jobs tr) : (tr.map Sigma.fst).filterMap cancels? = jobs := by
  induction h with
  | nil => rfl
  | @cons task_id job jobs us vs ws hcancel hfinish _ ih =>
    obtain ⟨-, us, xs, outcome, rfl, hc, hxs⟩ := contain_runs hcancel
    obtain ⟨r, us, rfl, hjob⟩ := runs_effect.1 hc
    have hus : (us.map Sigma.fst).filterMap cancels? = [] :=
      cancels_eq_nil ((ofJob_hidden (C.cancel job)).mono fun _ => cancels_of_user) hjob
    have hdrop : (xs.map Sigma.fst).filterMap cancels? = [] := by
      refine List.filterMap_eq_nil_iff.2 fun e he => ?_
      obtain ⟨ev, hev, rfl⟩ := List.mem_map.1 he
      have hd := hxs ev hev
      revert hd
      cases ev.1 with
      | user u => exact fun _ => rfl
      | _ => simp [isDropPayload]
    have hvs := cancels_eq_nil (finishCancelling_quiet task_id) hfinish
    simp only [List.map_append, List.filterMap_append, hvs, ih, hdrop, List.append_nil]
    change (task_id, job) :: (us.map Sigma.fst).filterMap cancels? ++ jobs = _
    rw [hus]
    rfl

/-- A trace of `stop`. -/
theorem stop_runs {tr : List (Performed W C)} {o : Except C.Payload StopReport}
    (h : stop.Runs tr o) : ∃ us vs report jobs, tr = us ++ vs ∧
      stopState.Runs us (.ok (report, jobs)) ∧ CleansUp jobs vs ∧ o = .ok report := by
  obtain ⟨us, tr, ⟨report, jobs⟩, rfl, hstop, h⟩ := stopState_returns.runs_bind h
  obtain ⟨vs, ws, _, rfl, hloop, h⟩ := (cancelJobs_returns jobs).runs_bind h
  obtain ⟨rfl, rfl⟩ := runs_ret.1 h
  rw [List.append_nil]
  exact ⟨us, vs, report, jobs, rfl, hstop, cancelJobs_runs hloop, rfl⟩

/-- `stop` returns. -/
theorem stop_returns : (stop : Code W C StopReport).Returns :=
  stopState_returns.bind fun r => (cancelJobs_returns r.2).bind fun _ => trivial

end Code

end RayonExecutor
