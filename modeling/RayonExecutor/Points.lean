import RayonExecutor.Panics
import RayonExecutor.Methods

/-!
# The code at the points of the control

A thread of the service is at a point of the control (`Control`), with publications that it owes.
The code that is left to do there is `Thread.rest`. A thread of the code is on its way to such a
point (`At`): what comes before is user code, which does not change where it goes. This module says
what each thread of the code does next (`At.next`). It takes the lock for a section that is one step
of the service, or it performs an effect that is one, or it is over.
-/

namespace RayonExecutor

open Program hiding ret
open Transition Pool Code

variable {W : Watch} {C : Client}

/-! ## Points of the code -/

/-- What is left to do for a result: to return it. A cancel call returns it with its last effect. -/
def giveBack : Return W → Code W C Unit
  | .cancel _ _ _ => pure ()
  | ret => call (.returned ret)

/-- `run_one` from `finish_running` on. -/
def finishRun (task_id : ℕ) : Code W C Unit := do
  if ← finishRunning task_id then call .spawn
  giveBack .runOne

/-- The rest of the code at a point of the control. -/
def Control.rest : Control W C.Job → Code W C Unit
  | .dispatching count ret => do
    dispatch count
    giveBack ret
  | .closure => do
    runOne
    giveBack .runOne
  | .claimed task_id job => do
    contain (runJob task_id job)
    finishRun task_id
  | .running task_id => finishRun task_id
  | .cleanup jobs ret => do
    cancelJobs jobs
    giveBack ret
  | .cancelling task_id jobs ret => do
    finishCancelling task_id
    cancelJobs jobs
    giveBack ret
  | .absent endpoint task_id => do let _result ← absentResult endpoint task_id
  | .fallback task_id => do let _result ← call (.fallback task_id)
  | .subscribed r => do
    let terminated ← scope do
      let inner ← Program.read
      pure (decide inner.Terminated)
    notifyAsyncChanges false terminated
    giveBack (.receiver r)
  | .returning ret => giveBack ret

/-- The rest of the code of a thread, after its publications. -/
def Thread.rest (t : Thread W C.Job) : Code W C Unit := do
  notifyAsyncChanges t.changes.capacity_changed t.changes.terminated
  t.control.rest

/-- What threads of the code stand for: operations that are about to begin, and threads of the
service. -/
abbrev Share (W : Watch) (C : Client) := ℕ × Multiset (Thread W C.Job)

/-- A thread of the code that is not under the lock, and what it stands for. -/
inductive At (bits : ℕ) : Code W C Unit → Share W C → Prop
  | start {op : Operation C} (hop : op ≠ .runOne) : At bits (op.program bits) (1, 0)
  | thread {m : Code W C Unit} {t : Thread W C.Job} (h : Leads Guarded.isUser m t.rest) :
      At bits m (0, {t})
  | done {m : Code W C Unit} (h : Leads Guarded.isUser m (.ret ())) : At bits m (0, 0)

/-! ## Steps -/

/-- A step of the service by what a thread of the code stands for: the call of an operation, or the
action of a thread. -/
inductive Moves (bits : ℕ) : Share W C → RayonExecutorServiceState W C.Job →
    Event W C.Job → RayonExecutorServiceState W C.Job → Multiset (Thread W C.Job) → Prop
  | call {st st' : RayonExecutorServiceState W C.Job} {e : Event W C.Job}
      {new : Multiset (Thread W C.Job)} (h : Call bits st e st' new) :
      Moves bits (1, 0) st e st' new
  | act {t : Thread W C.Job} {st st' : RayonExecutorServiceState W C.Job} {e : Event W C.Job}
      {new : Multiset (Thread W C.Job)} (h : Action t st e st' new) :
      Moves bits (0, {t}) st e st' new

/-- A move is a step of the service, whichever other threads there are. -/
theorem Moves.step {cfg : Config} {a : Share W C} {new : Multiset (Thread W C.Job)}
    {st st' : RayonExecutorServiceState W C.Job} {e : Event W C.Job}
    (h : Moves cfg.bits a st e st' new) (rest : Multiset (Thread W C.Job)) :
    Service.Step cfg ⟨st, a.2 + rest⟩ e ⟨st', new + rest⟩ := by
  cases h with
  | call hc =>
    rw [zero_add]
    exact .call hc
  | act ha => exact .act (.of_eq ha (Multiset.singleton_add _ _) rfl)

/-- The effect that an event of the service is. The code does not see whether its second publication
is a change, so `true` stands for both. -/
def Event.effect? : Event W C.Job → Option (Event W C.Job)
  | .publishTermination _ => some (.publishTermination true)
  | .capacityChanges receiver => some (.capacityChanges receiver)
  | .subscribeTermination => some .subscribeTermination
  | .publishCapacity => some .publishCapacity
  | .spawn => some .spawn
  | .run task_id job => some (.run task_id job)
  | .cancel task_id job => some (.cancel task_id job)
  | .status task_id answer => some (.status task_id answer)
  | .fallback task_id result => some (.fallback task_id result)
  | .returned ret => some (.returned ret)
  | _ => none

/-- The event that an effect of the code is. No effect tells the result of a cancel call, the answer
of a query or the rejection of a submission. -/
def Effect.event? : (e : Effect W C) → Guarded.Answer UserCode.Answer Op.Answer e →
    Option (Event W C.Job)
  | .other .subscribeCapacity, receiver => some (.capacityChanges receiver)
  | .other .subscribeTermination, _ => some .subscribeTermination
  | .other .sendCapacity, _ => some .publishCapacity
  | .other .sendTermination, _ => some (.publishTermination true)
  | .other .spawn, _ => some .spawn
  | .other (.run task_id job), _ => some (.run task_id job)
  | .other (.cancel task_id job), _ => some (.cancel task_id job)
  | .other (.status task_id), status => some (.status task_id status)
  | .other (.fallback task_id), result => some (.fallback task_id result)
  | .other (.returned ret), _ => some (.returned ret)
  | _, _ => none

/-- A critical section from `st` to `st'`, after which the code goes on with `m`, is a step of the
service, or leaves the state as it is and is the end of an operation. -/
def Commits (bits : ℕ) (a : Share W C) (st : RayonExecutorServiceState W C.Job)
    (m : Code W C Unit) (st' : RayonExecutorServiceState W C.Job) : Prop :=
  (st' = st ∧ a = (1, 0) ∧ At bits m (0, 0)) ∨
    ∃ e new, e.effect? = none ∧ Moves bits a st e st' new ∧ At bits m (0, new)

/-- The effect leads from `x` to `y` in a step of the service, whoever has the lock and has changed
the data under it. -/
structure Does (bits : ℕ) (a : Share W C) (x : SharedState W C) (e : Event W C.Job)
    (y : SharedState W C) (new : Multiset (Thread W C.Job)) : Prop where
  moves : ∀ inner terminated, Moves bits a
    { x.state with inner := inner, terminated := terminated } e
    { y.state with inner := inner, terminated := terminated } new
  locked : y.locked = x.locked
  inner : y.state.inner = x.state.inner
  terminated : y.state.terminated = x.state.terminated

/-- An effect without the lock, after which the code goes on with `k`, is a step of the service. It
may start closures. -/
def Emits (bits : ℕ) (a : Share W C) (o : Op W C) (k : o.Answer → Code W C Unit) : Prop :=
  ∀ (x : SharedState W C) (r : o.Answer) (y : SharedState W C) (as : Multiset (Operation C)),
    Answers (.other o) x r y as → ∃ e new closures, Does bits a x e y (new + closures.sum.2) ∧
      At bits (k r) (0, new) ∧ closures.sum.1 = 0 ∧
      Multiset.Rel (At bits) (as.map (Operation.program bits)) closures ∧
      Effect.event? (.other o : Effect W C) r = e.effect?

/-- What a thread does next that stands for `a`. -/
inductive Next (bits : ℕ) (a : Share W C) : Code W C Unit → Prop
  | ended : Next bits a (.ret ())
  | enters {α : Type} {body : Code W C α} {f : Except C.Payload α → Code W C Unit}
      (h : ∀ st : RayonExecutorServiceState W C.Job, st.inner.Fresh →
        Within body st fun o st' => Commits bits a st (f o) st') :
      Next bits a (scopeThen body f)
  | emits {o : Op W C} {k : o.Answer → Code W C Unit} (h : Emits bits a o k) :
      Next bits a (.effect (.other o) k)

/-! ## What each thread does next -/

section
variable {bits : ℕ} {a : Share W C} {t : Thread W C.Job}

/-- An effect that leaves the shared state alone and starts nothing. -/
theorem Next.quiet {o : Op W C} {k : o.Answer → Code W C Unit}
    (hquiet : ∀ x r y as, Answers (.other o) x r y as → y = x ∧ as = 0)
    (e : o.Answer → Event W C.Job) (new : o.Answer → Multiset (Thread W C.Job))
    (hat : ∀ r, At bits (k r) (0, new r)) (hmove : ∀ r st, Moves bits a st (e r) st (new r))
    (heffect : ∀ r, Effect.event? (.other o : Effect W C) r = (e r).effect?) :
    Next bits a (.effect (.other o) k) := by
  refine .emits fun x r y as ha => ?_
  obtain ⟨rfl, rfl⟩ := hquiet x r y as ha
  refine ⟨e r, new r, 0, ⟨fun inner terminated => ?_, rfl, rfl, rfl⟩, hat r, rfl, .zero, heffect r⟩
  rw [Multiset.sum_zero, Prod.snd_zero, add_zero]
  exact hmove r _

/-- A thread that has only to return. -/
theorem Next.giveBack {ret : Return W}
    (hmove : ∀ st : RayonExecutorServiceState W C.Job, Moves bits a st (.returned ret) st 0) :
    Next bits a (giveBack ret : Code W C Unit) := by
  have hreturned : Next bits a (call (.returned ret) : Code W C Unit) := by
    refine .quiet ?_ (fun _ => .returned ret) (fun _ => 0) (fun _ => .done (.refl _))
      (fun _ => hmove) fun _ => rfl
    rintro x r y as ⟨⟩
    exact ⟨rfl, rfl⟩
  cases ret with
  | cancel => exact .ended
  | _ => exact hreturned

/-- A call that is contained, and goes on as a thread. -/
theorem contain_at {m : Code W C Unit} (h : m.Hidden Guarded.isUser) :
    At bits (contain m >>= fun _ => t.rest) (0, {t}) := .thread ((contain_leads h).bind _)

/-- The publications come first. -/
theorem Next.publication {changes : AsyncChanges} {control : Control W C.Job}
    (h : changes ≠ .none) :
    Next bits (0, {⟨changes, control⟩}) (Thread.rest ⟨changes, control⟩) := by
  obtain ⟨capacity_changed, terminated⟩ := changes
  cases capacity_changed with
  | true =>
    have hrest : (Thread.rest ⟨⟨true, terminated⟩, control⟩ : Code W C Unit) =
        contain sendModifyCapacity >>= fun _ => Thread.rest ⟨⟨false, terminated⟩, control⟩ :=
      Program.bind_assoc _ _ _
    rw [hrest]
    refine .emits fun x wakers y as ha => ?_
    cases ha
    exact ⟨.publishCapacity, {⟨⟨false, terminated⟩, control⟩}, 0,
      ⟨fun inner notified => .act .publishCapacity, rfl, rfl, rfl⟩,
      contain_at (wakeAll_hidden wakers), rfl, .zero, rfl⟩
  | false =>
    cases terminated with
    | true =>
      have hrest : (Thread.rest ⟨⟨false, true⟩, control⟩ : Code W C Unit) =
          contain sendIfModifiedTermination >>= fun _ => Thread.rest ⟨.none, control⟩ := rfl
      rw [hrest]
      refine .emits fun x wakers y as ha => ?_
      cases ha
      let modified := (RayonExecutorServiceState.setTerminated
        (W.borrow x.state.termination_tx)).2
      exact ⟨.publishTermination modified, {⟨.none, control⟩}, 0,
        ⟨fun inner notified => .act .publishTermination, rfl, rfl, rfl⟩,
        contain_at (wakeAll_hidden wakers), rfl, .zero, rfl⟩
    | false => exact absurd rfl h

/-- A section that ends with a value, in a step of the service. -/
theorem Next.section {α : Type} {body : Code W C α} {f : α → Code W C Unit}
    {value : RayonExecutorServiceState W C.Job → α}
    {state : RayonExecutorServiceState W C.Job → RayonExecutorServiceState W C.Job}
    (hbody : ∀ st, Within body st fun o st' => o = .ok (value st) ∧ st' = state st)
    (hstep : ∀ st, Commits bits a st (f (value st)) (state st)) :
    Next bits a (scope body >>= f) := by
  rw [scope_bind]
  refine .enters fun st _ => (hbody st).mono ?_
  rintro o st' ⟨rfl, rfl⟩
  exact hstep st

/-- What a thread without publications does next. -/
theorem Control.next (c : Control W C.Job) : Next bits (0, {⟨.none, c⟩}) c.rest := by
  cases c with
  | dispatching count ret =>
    cases count with
    | zero => exact Next.giveBack fun st => .act .dispatched
    | succ count =>
      refine .emits fun x r y as ha => ?_
      cases ha
      have hclosure : At bits (Operation.program bits .runOne)
          (0, {(⟨.none, .closure⟩ : Thread W C.Job)}) := .thread (.refl _)
      refine ⟨.spawn, {⟨.none, .dispatching count ret⟩}, {(0, {⟨.none, .closure⟩})},
        ⟨fun inner notified => ?_, rfl, rfl, rfl⟩, .thread (.refl _), rfl, ?_, rfl⟩
      · rw [Multiset.sum_singleton, Multiset.singleton_add]
        exact .act .spawn
      · rw [Multiset.map_singleton]
        exact .cons hclosure .zero
  | closure =>
    have hrest : (Control.rest .closure : Code W C Unit) =
        scope takeNextLocked >>= fun taken => match taken with
          | .inl terminated => notifyAsyncChanges false terminated >>= fun _ => giveBack .runOne
          | .inr (task_id, job) => contain (runJob task_id job) >>= fun _ => finishRun task_id := by
      unfold Control.rest runOne takeNext finishRun
      simp only [Program.bind_assoc]
      refine congrArg _ (funext fun taken => ?_)
      cases taken with
      | inl terminated => simp only [Program.bind_assoc, pure_eq, ret_bind]
      | inr taken =>
        simp only [Program.bind_assoc, pure_eq, ret_bind]
        refine congrArg _ (funext fun _ => congrArg _ (funext fun dispatch => ?_))
        cases dispatch <;> rfl
    rw [hrest]
    refine Next.section takeNextLocked_within fun st => .inr ?_
    generalize hd : st.takeNext = d
    obtain ⟨taken, changes, st'⟩ := d
    refine ⟨.takeNext taken, {⟨changes, afterTake taken⟩}, rfl, .act (.takeNext hd), ?_⟩
    cases RayonExecutorServiceState.takeNext_cases hd with
    | idle => exact .thread (.refl _)
    | taken => exact .thread (.refl _)
  | claimed task_id job =>
    refine .quiet ?_ (fun _ => .run task_id job) (fun _ => {⟨.none, .running task_id⟩})
      (fun _ => contain_at (t := ⟨.none, .running task_id⟩) (ofJob_hidden (C.run job)))
      (fun _ _ => .act .run) fun _ => rfl
    rintro x r y as ⟨⟩
    exact ⟨rfl, rfl⟩
  | running task_id =>
    have hrest : (Control.rest (.running task_id) : Code W C Unit) =
        scope (finishRunningLocked task_id) >>= fun r =>
          notifyAsyncChanges true r.2 >>= fun _ => dispatch (if r.1 then 1 else 0) >>= fun _ =>
            giveBack .runOne := by
      unfold Control.rest finishRun finishRunning
      simp only [Program.bind_assoc, pure_eq, ret_bind]
      refine congrArg _ (funext fun r => congrArg _ (funext fun _ => ?_))
      cases r.1 <;> rfl
    rw [hrest]
    refine Next.section (fun st => finishRunningLocked_within st task_id) fun st => .inr ?_
    generalize hd : st.finishRunning task_id = d
    obtain ⟨dispatch, changes, st'⟩ := d
    refine ⟨.finishRunning task_id dispatch, {⟨changes, afterFinish dispatch⟩}, rfl,
      .act (.finishRunning hd), ?_⟩
    obtain ⟨inner, scheduled, -, -, rfl, -⟩ := RayonExecutorServiceState.finishRunning_cases hd
    exact .thread (.refl _)
  | cleanup jobs ret =>
    cases jobs with
    | nil => exact Next.giveBack fun st => .act .cleaned
    | cons e jobs =>
      obtain ⟨task_id, job⟩ := e
      have hrest : (Control.rest (.cleanup ((task_id, job) :: jobs) ret) : Code W C Unit) =
          contain (cancelJob task_id job) >>= fun _ =>
            Thread.rest ⟨.none, .cancelling task_id jobs ret⟩ := by
        change (contain (cancelJob task_id job) >>= fun _ => finishCancelling task_id >>= fun _ =>
          cancelJobs jobs) >>= (fun _ => giveBack ret) = _
        simp only [Program.bind_assoc]
        rfl
      rw [hrest]
      refine .quiet ?_ (fun _ => .cancel task_id job)
        (fun _ => {⟨.none, .cancelling task_id jobs ret⟩})
        (fun _ => contain_at (ofJob_hidden (C.cancel job))) (fun _ _ => .act .cancel) fun _ => rfl
      rintro x r y as ⟨⟩
      exact ⟨rfl, rfl⟩
  | cancelling task_id jobs ret =>
    have hrest : (Control.rest (.cancelling task_id jobs ret) : Code W C Unit) =
        scope (finishCancellingLocked task_id) >>= fun terminated =>
          Thread.rest ⟨⟨true, terminated⟩, .cleanup jobs ret⟩ := by
      unfold Control.rest finishCancelling
      simp only [Program.bind_assoc]
      rfl
    rw [hrest]
    refine Next.section (fun st => finishCancellingLocked_within st task_id) fun st => .inr ?_
    generalize hd : st.finishCancelling task_id = d
    obtain ⟨⟨⟩, changes, st'⟩ := d
    refine ⟨.finishCancelling task_id, {⟨changes, .cleanup jobs ret⟩}, rfl,
      .act (.finishCancelling hd), ?_⟩
    obtain ⟨inner, -, rfl, -⟩ := RayonExecutorServiceState.finishCancelling_cases hd
    exact .thread (.refl _)
  | absent endpoint task_id =>
    cases endpoint with
    | handle =>
      refine .quiet ?_ (fun status => .status task_id status) (fun status =>
        {⟨.none, .returning (.cancel .handle task_id (cancellationResultForStatus status))⟩})
        (fun status => .thread (.refl _)) (fun _ _ => .act .status) fun _ => rfl
      rintro x r y as ⟨⟩
      exact ⟨rfl, rfl⟩
    | cancellationHandle =>
      have hrest : (Control.rest (.absent .cancellationHandle task_id) : Code W C Unit) =
          (scope do
            let inner ← Program.read
            pure (decide (task_id ∈ inner.running_tasks))) >>= fun running =>
              Thread.rest ⟨.none, if running then
                .returning (.cancel .cancellationHandle task_id .alreadyRunning)
              else .fallback task_id⟩ := by
        unfold Control.rest absentResult isRunningTask
        simp only [Program.bind_assoc]
        refine congrArg _ (funext fun running => ?_)
        cases running <;> rfl
      rw [hrest]
      refine Next.section (fun st => query_within st _) fun st => .inr ?_
      exact ⟨.isRunningTask task_id _, _, rfl, .act .isRunningTask, .thread (.refl _)⟩
  | fallback task_id =>
    refine .quiet ?_ (fun result => .fallback task_id result) (fun result =>
      {⟨.none, .returning (.cancel .cancellationHandle task_id result)⟩})
      (fun result => .thread (.refl _)) (fun _ _ => .act .fallback) fun _ => rfl
    rintro x r y as ⟨⟩
    exact ⟨rfl, rfl⟩
  | subscribed r =>
    have hrest : (Control.rest (.subscribed r) : Code W C Unit) =
        (scope do
          let inner ← Program.read
          pure (decide inner.Terminated)) >>= fun terminated =>
            Thread.rest ⟨⟨false, terminated⟩, .returning (.receiver r)⟩ := rfl
    rw [hrest]
    refine Next.section (fun st => query_within st _) fun st => .inr ?_
    exact ⟨.checkTerminated _, _, rfl, .act .subscribed, .thread (.refl _)⟩
  | returning ret => exact Next.giveBack fun st => .act .returning

/-- What a thread does next. -/
theorem Thread.next (t : Thread W C.Job) : Next bits (0, {t}) t.rest := by
  obtain ⟨changes, control⟩ := t
  by_cases h : changes = .none
  · subst h
    exact control.next
  · exact Next.publication h

/-- A query is one section. -/
theorem Next.query {α : Type} (f : RayonExecutorServiceInner C.Job → α)
    (e : RayonExecutorServiceState W C.Job → Event W C.Job)
    (he : ∀ st, (e st).effect? = none) (hcall : ∀ st, Call bits st (e st) st 0) :
    Next bits (1, 0) ((scope do
      let inner ← Program.read
      pure (f inner)) >>= fun _ => pure () : Code W C Unit) :=
  Next.section (fun st => query_within st f) fun st =>
    .inr ⟨e st, 0, he st, .call (hcall st), .done (.refl _)⟩

/-- What a submission does first. -/
theorem Next.submit (job : C.Job) :
    Next bits (1, 0) (Operation.program bits (.submit job) : Code W C Unit) := by
  have hdrop : (ofJob (C.drop job) : Code W C Unit).Hidden Guarded.isUser := ofJob_hidden _
  have hrest : (Operation.program bits (.submit job) : Code W C Unit) =
      scopeThen (admitLocked bits job) fun o => (match o with
        | .error payload => do
          let _dropped ← (ofJob (C.drop job)).catchUnwind
          .unwind payload
        | .ok (.error error) => do
          ofJob (C.drop job)
          pure (.error error)
        | .ok (.ok admission) => pure (.ok admission) :
          Code W C (Except SubmissionError Admission)).catchUnwind >>= fun o =>
            match o with
            | .error _ => pure ()
            | .ok (.ok admission) => do
              dispatch admission.dispatch_count
              call (.returned (.submitted admission.task_id))
            | .ok (.error _) => pure () := by
    have hdispatch : ∀ count, (dispatch count : Code W C Unit).Returns := by
      intro count
      induction count with
      | zero => trivial
      | succ count ih => exact fun _ => ih
    rw [← scope_catchUnwind_bind]
    unfold Operation.program Code.submit Code.admitJob
    simp only [catchUnwind_bind, Program.bind_assoc]
    rw [(Returns.catchUnwind _).catchUnwind_bind]
    refine congrArg _ (funext fun o => ?_)
    dsimp only
    rw [Program.bind_assoc]
    refine congr (congrArg Bind.bind (congrArg catchUnwind ?_)) (funext fun o => ?_)
    · rcases o with payload | error | admission <;> rfl
    · rcases o with payload | error | admission
      · rfl
      · rfl
      · -- the spawns do not unwind, so there is nothing to catch
        simp only [catchUnwind_bind, Program.bind_assoc, (hdispatch _).catchUnwind_bind]
        rfl
  rw [hrest]
  refine .enters fun st hfresh => (admitLocked_within st bits job hfresh).mono ?_
  rintro o st' ⟨accept, hmatch, rfl⟩
  generalize hadmit : st.admitJob bits accept job = r at hmatch ⊢
  obtain ⟨outcome, st'⟩ := r
  refine .inr ⟨.admitJob job outcome, afterAdmit outcome, rfl, .call (.admitJob hadmit), ?_⟩
  cases outcome with
  | ok admission =>
    obtain rfl := hmatch
    exact .thread (.refl _)
  | err error =>
    obtain rfl := hmatch
    refine .done ?_
    simp only [catchUnwind_bind, Program.bind_assoc]
    refine hdrop.leads fun o => ?_
    cases o <;> exact .refl _
  | unwind panic =>
    obtain ⟨payload, rfl⟩ := hmatch
    refine .done ?_
    simp only [catchUnwind_bind, Program.bind_assoc]
    refine hdrop.catchUnwind.leads fun o => ?_
    cases o <;> exact .refl _

/-- What an operation does first. -/
theorem Operation.next {op : Operation C} (hop : op ≠ .runOne) :
    Next bits (1, 0) (op.program bits : Code W C Unit) := by
  cases op with
  | submit job => exact Next.submit job
  | runOne => exact absurd rfl hop
  | cancel endpoint task_id =>
    have hrest : (Operation.program bits (.cancel endpoint task_id) : Code W C Unit) =
        scope (cancelPendingTaskLocked task_id) >>= fun disposition =>
          Thread.rest ⟨.none, afterClaim endpoint task_id disposition⟩ := by
      change (Code.cancel endpoint task_id >>= fun _ => pure () : Code W C Unit) = _
      rw [cancel_eq]
      unfold cancelTask cancelPendingTask
      simp only [Program.bind_assoc]
      refine congrArg _ (funext fun disposition => ?_)
      cases disposition with
      | owned job =>
        unfold Thread.rest Control.rest afterClaim cancelJobs
        simp only [Program.bind_assoc]
        rfl
      | inProgress => rfl
      | absent => rfl
    rw [hrest]
    refine Next.section (fun st => cancelPendingTaskLocked_within st task_id) fun st => .inr ?_
    exact ⟨.cancelPendingTask endpoint task_id _, _, rfl, .call (.cancel rfl), .thread (.refl _)⟩
  | stop =>
    have hrest : (Operation.program bits .stop : Code W C Unit) =
        scope stopLocked >>= fun r =>
          Thread.rest ⟨⟨true, r.2⟩, .cleanup r.1.2 (.stop r.1.1)⟩ := by
      unfold Operation.program Code.stop stopState Thread.rest Control.rest
      simp only [Program.bind_assoc, pure_eq, ret_bind]
      rfl
    rw [hrest]
    refine Next.section stopLocked_within fun st => .inr ?_
    generalize hd : st.stop = d
    obtain ⟨⟨report, jobs⟩, changes, st'⟩ := d
    refine ⟨.stop report jobs, {⟨changes, .cleanup jobs (.stop report)⟩}, rfl, .call (.stop hd), ?_⟩
    obtain ⟨inner, cancelling, -, -, -, -, rfl, -⟩ := RayonExecutorServiceState.stop_cases hd
    exact .thread (.refl _)
  | shutdown =>
    have hrest : (Operation.program bits .shutdown : Code W C Unit) =
        scope shutdownLocked >>= fun terminated =>
          Thread.rest ⟨⟨true, terminated⟩, .returning .shutdown⟩ := by
      unfold Operation.program Code.shutdown
      simp only [Program.bind_assoc]
      rfl
    rw [hrest]
    refine Next.section shutdownLocked_within fun st => .inr ?_
    generalize hd : st.shutdown = d
    obtain ⟨⟨⟩, changes, st'⟩ := d
    refine ⟨.shutdown, {⟨changes, .returning .shutdown⟩}, rfl, .call (.shutdown hd), ?_⟩
    obtain ⟨inner, lifecycle, -, -, rfl, -⟩ := RayonExecutorServiceState.shutdown_cases hd
    exact .thread (.refl _)
  | lifecycle =>
    exact Next.query _ (fun st => .lifecycle st.lifecycle) (fun _ => rfl) fun _ => .lifecycle
  | stats => exact Next.query _ (fun st => .stats st.stats) (fun _ => rfl) fun _ => .stats
  | isNotRunning =>
    exact Next.query _ (fun st => .isNotRunning st.isNotRunning) (fun _ => rfl)
      fun _ => .isNotRunning
  | capacityChanges =>
    have hrest : (Operation.program bits .capacityChanges : Code W C Unit) =
        scopeThen (call .subscribeCapacity) fun o => resume o >>= fun _ => pure () :=
      scope_bind _ _
    rw [hrest]
    exact .enters fun st _ r => .inl ⟨rfl, rfl, .done (.refl _)⟩
  | subscribeTermination =>
    have hrest : (Operation.program bits .subscribeTermination : Code W C Unit) =
        call .subscribeTermination >>= fun receiver =>
          Thread.rest ⟨.none, .subscribed receiver⟩ := by
      change (Code.subscribeTermination >>= fun receiver =>
        call (.returned (.receiver receiver)) : Code W C Unit) = _
      unfold Code.subscribeTermination
      simp only [Program.bind_assoc]
      refine congrArg _ (funext fun receiver =>
        congrArg (scope _ >>= ·) (funext fun terminated => ?_))
      cases terminated with
      | false => rfl
      | true => exact Program.bind_assoc (contain sendIfModifiedTermination) _ _
    rw [hrest]
    refine .emits fun x r y as ha => ?_
    cases ha
    exact ⟨.subscribeTermination, {⟨.none, .subscribed (W.subscribe x.state.termination_tx)⟩}, 0,
      ⟨fun inner notified => .call .subscribeTermination, rfl, rfl, rfl⟩, .thread (.refl _), rfl,
      .zero, rfl⟩

/-- A thread that is not under the lock is in user code, or does what `Next` says. -/
theorem At.next {m : Code W C Unit} (h : At bits m a) :
    (∃ u k, m = .effect (.user u) k ∧ ∀ r, At bits (k r) a) ∨ Next bits a m := by
  have huser : ∀ {n : Code W C Unit} (new : Share W C),
      (∀ {m}, Leads Guarded.isUser m n → At bits m new) → ∀ {m}, Leads Guarded.isUser m n →
        (∃ u k, m = .effect (.user u) k ∧ ∀ r, At bits (k r) new) ∨ m = n := by
    intro n new hat m hm
    cases hm with
    | refl => exact .inr rfl
    | @hidden e k _ he hk =>
      cases e with
      | user u => exact .inl ⟨u, k, rfl, fun r => hat (hk r)⟩
      | lock | unlock | get | set | other => exact absurd he (by simp [Guarded.isUser])
  cases h with
  | start hop => exact .inr (Operation.next hop)
  | @thread _ t h =>
    rcases huser (0, {t}) .thread h with hu | rfl
    · exact .inl hu
    · exact .inr t.next
  | done h =>
    rcases huser (0, 0) .done h with hu | rfl
    · exact .inl hu
    · exact .inr .ended

end

end RayonExecutor
