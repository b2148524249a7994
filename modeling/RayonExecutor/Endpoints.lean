import RayonExecutor.Identifiers

/-!
# The two cancellation endpoints

A cancel call through a task's handle and one through its cancellation handle, each executed from
the same state with nobody in between. `cancelTask` is that execution as a function of the service
state and the task's slot, and `Tracked.executes_iff` says that it is what the steps of the call
amount to. The two endpoints differ in where they look once the service does not own a queued job:
one asks the slot, the other the set of running tasks first.
-/

namespace RayonExecutor

open Transition Pool

variable {W : Watch} {E : TaskEndpoint} {C T : Type}

/-! ## One call among others -/

namespace Tracked

/-- A step of a service with tracked tasks, seen from some of its threads. -/
inductive Follow (cfg : Config) : Tracked W E C T × Multiset (Thread W (QueuedJob C T)) →
    Bool × TrackedEvent W C T → Tracked W E C T × Multiset (Thread W (QueuedJob C T)) → Prop
  | service {t : Tracked W E C T} {e : Event W (QueuedJob C T)} {s' : Service W (QueuedJob C T)}
      {own own' : Multiset (Thread W (QueuedJob C T))} {mine : Bool}
      (hf : Pool.Follow (Call cfg.bits) Action (t.service, own) (mine, e) (s', own'))
      (h : t.Allows e) :
      Follow cfg (t, own) (mine, .service e) (⟨s', slotsAfter t.slots e, t.handlesAfter e⟩, own')
  | runner {t t' : Tracked W E C T} {e : TrackedEvent W C T}
      {own : Multiset (Thread W (QueuedJob C T))} (hs : Step cfg t e t') (he : e.service? = none) :
      Follow cfg (t, own) (false, e) (t', own)

/-- Whoever is followed, the steps are those of the service. -/
theorem Follow.step {cfg : Config} {t t' : Tracked W E C T} {e : TrackedEvent W C T}
    {own own' : Multiset (Thread W (QueuedJob C T))} {mine : Bool}
    (h : Follow cfg (t, own) (mine, e) (t', own')) : Step cfg t e t' := by
  cases h with
  | service hf h => exact .service hf.step h
  | runner hs _ => exact hs

/-- The action of a single thread that is followed. -/
theorem follow_own_iff {cfg : Config} {t t' : Tracked W E C T} {e : TrackedEvent W C T}
    {th : Thread W (QueuedJob C T)} {own rest : Multiset (Thread W (QueuedJob C T))}
    (ht : t.service.threads = {th} + rest) : Follow cfg (t, {th}) (true, e) (t', own) ↔
      ∃ ev st, e = .service ev ∧ (Action th t.service.shared ev st own ∧ t.Allows ev) ∧
        t' = ⟨⟨st, own + rest⟩, slotsAfter t.slots ev, t.handlesAfter ev⟩ := by
  obtain ⟨⟨shared, threads⟩, slots, handles⟩ := t
  obtain rfl : threads = {th} + rest := ht
  constructor
  · intro h
    cases h with
    | @service _ e s' _ _ _ hf ha =>
      obtain ⟨rest', hrest, hact, hthreads⟩ := hf.own_singleton
      obtain rfl : rest = rest' := by simpa [Multiset.singleton_add] using hrest
      exact ⟨e, s'.shared, rfl, ⟨hact, ha⟩, by rw [← hthreads]⟩
  · rintro ⟨ev, st, rfl, ⟨hact, ha⟩, rfl⟩
    refine .service ?_ ha
    have hf : Pool.Follow (Call cfg.bits) Action (⟨shared, th ::ₘ 0 + rest⟩, th ::ₘ 0) (true, ev)
        (⟨st, own + 0 + rest⟩, own + 0) := .own hact
    simpa using hf

/-- A thread comes to its end, and returns `ret`, with no other step in between. -/
inductive Alone (cfg : Config) :
    Tracked W E C T → Thread W (QueuedJob C T) → Return W → Tracked W E C T → Prop
  | last {t t' : Tracked W E C T} {th : Thread W (QueuedJob C T)} {ret : Return W}
      (h : Follow cfg (t, {th}) (true, .service (.returned ret)) (t', 0)) : Alone cfg t th ret t'
  | next {t t1 t' : Tracked W E C T} {e : TrackedEvent W C T} {th th1 : Thread W (QueuedJob C T)}
      {ret : Return W} (h : Follow cfg (t, {th}) (true, e) (t1, {th1}))
      (hr : Alone cfg t1 th1 ret t') : Alone cfg t th ret t'

/-- A cancel call is executed with no other step in between. -/
def Executes (cfg : Config) (t : Tracked W E C T) (endpoint : Endpoint) (task_id : ℕ)
    (result : CancelResult) (t' : Tracked W E C T) : Prop :=
  ∃ disposition t1, Step cfg t (.service (.cancelPendingTask endpoint task_id disposition)) t1 ∧
    Alone cfg t1 ⟨.none, afterClaim endpoint task_id disposition⟩
      (.cancel endpoint task_id result) t'

/-- A thread with one possible action, which is not its last. -/
theorem alone_next {cfg : Config} {t t' : Tracked W E C T} {th : Thread W (QueuedJob C T)}
    {rest : Multiset (Thread W (QueuedJob C T))} {ret : Return W} (ev : Event W (QueuedJob C T))
    (st1 : RayonExecutorServiceState W (QueuedJob C T)) (th1 : Thread W (QueuedJob C T))
    (ht : t.service.threads = {th} + rest)
    (hact : ∀ e st new, Action th t.service.shared e st new ∧ t.Allows e ↔
      e = ev ∧ st = st1 ∧ new = {th1}) :
    Alone cfg t th ret t' ↔ Alone cfg
      ⟨⟨st1, {th1} + rest⟩, slotsAfter t.slots ev, t.handlesAfter ev⟩ th1 ret t' := by
  constructor
  · rintro (h | ⟨h, hr⟩)
    · obtain ⟨e, st, -, ha, -⟩ := (follow_own_iff ht).1 h
      exact absurd ((hact _ _ _).1 ha).2.2 (Multiset.zero_ne_singleton _)
    · obtain ⟨e, st, -, ha, rfl⟩ := (follow_own_iff ht).1 h
      obtain ⟨rfl, rfl, hth⟩ := (hact _ _ _).1 ha
      obtain rfl := Multiset.singleton_inj.1 hth
      exact hr
  · intro h
    exact .next ((follow_own_iff ht).2 ⟨ev, st1, rfl, (hact _ _ _).2 ⟨rfl, rfl, rfl⟩, rfl⟩) h

/-- A thread whose one possible action is its last. -/
theorem alone_last {cfg : Config} {t t' : Tracked W E C T} {th : Thread W (QueuedJob C T)}
    {rest : Multiset (Thread W (QueuedJob C T))} {ret ret' : Return W}
    (ht : t.service.threads = {th} + rest)
    (hact : ∀ e st new, Action th t.service.shared e st new ∧ t.Allows e ↔
      e = .returned ret' ∧ st = t.service.shared ∧ new = 0) :
    Alone cfg t th ret t' ↔ ret = ret' ∧
      t' = ⟨⟨t.service.shared, rest⟩, t.slots, t.handlesAfter (.returned ret')⟩ := by
  constructor
  · rintro (h | ⟨h, hr⟩)
    · obtain ⟨e, st, he, ha, rfl⟩ := (follow_own_iff ht).1 h
      obtain ⟨rfl, rfl, -⟩ := (hact _ _ _).1 ha
      obtain rfl : ret = ret' := by simpa using he
      exact ⟨rfl, by rw [zero_add]; rfl⟩
    · obtain ⟨e, st, -, ha, -⟩ := (follow_own_iff ht).1 h
      exact absurd ((hact _ _ _).1 ha).2.2.symm (Multiset.zero_ne_singleton _)
  · rintro ⟨rfl, rfl⟩
    exact .last ((follow_own_iff ht).2 ⟨_, _, rfl, (hact _ _ _).2 ⟨rfl, rfl, rfl⟩, by
      rw [zero_add]; rfl⟩)

/-! ## The call as a function -/

section
variable {cfg : Config} {st : RayonExecutorServiceState W (QueuedJob C T)}
  {rest : Multiset (Thread W (QueuedJob C T))} {slots : ℕ → Option E.Slot} {handles : Finset ℕ}
  {t' : Tracked W E C T} {ret : Return W} {endpoint : Endpoint} {id task_id : ℕ}
  {result : CancelResult}

/-- A thread that returns. -/
theorem alone_returning : Alone cfg
      ⟨⟨st, {⟨.none, .returning (.cancel endpoint id result)⟩} + rest⟩, slots, handles⟩
      ⟨.none, .returning (.cancel endpoint id result)⟩ ret t' ↔
    ret = .cancel endpoint id result ∧ t' = ⟨⟨st, rest⟩, slots, handles⟩ := by
  refine alone_last rfl fun e st' new => ⟨?_, ?_⟩
  · rintro ⟨⟨⟩, -⟩
    exact ⟨rfl, rfl, rfl⟩
  · rintro ⟨rfl, rfl, rfl⟩
    exact ⟨.returning, trivial⟩

/-- A thread with its jobs cancelled and nothing to publish. -/
theorem alone_cleaned : Alone cfg
      ⟨⟨st, {⟨.none, .cleanup [] (.cancel endpoint id result)⟩} + rest⟩, slots, handles⟩
      ⟨.none, .cleanup [] (.cancel endpoint id result)⟩ ret t' ↔
    ret = .cancel endpoint id result ∧ t' = ⟨⟨st, rest⟩, slots, handles⟩ := by
  refine alone_last rfl fun e st' new => ⟨?_, ?_⟩
  · rintro ⟨⟨⟩, -⟩
    exact ⟨rfl, rfl, rfl⟩
  · rintro ⟨rfl, rfl, rfl⟩
    exact ⟨.cleaned, trivial⟩

/-- A thread that has the termination to publish at most. -/
theorem alone_publishTermination {terminated : Bool} : Alone cfg
      ⟨⟨st, {⟨⟨false, terminated⟩, .cleanup [] (.cancel endpoint id result)⟩} + rest⟩, slots,
        handles⟩
      ⟨⟨false, terminated⟩, .cleanup [] (.cancel endpoint id result)⟩ ret t' ↔
    ret = .cancel endpoint id result ∧
      t' = ⟨⟨if terminated then st.publishTermination else st, rest⟩, slots, handles⟩ := by
  cases terminated with
  | false => exact alone_cleaned
  | true =>
    refine (alone_next (.publishTermination (RayonExecutorServiceState.setTerminated
      (W.borrow st.termination_tx)).2) st.publishTermination
      ⟨.none, .cleanup [] (.cancel endpoint id result)⟩ rfl
      fun e st' new => ⟨?_, ?_⟩).trans alone_cleaned
    · rintro ⟨⟨⟩, -⟩
      exact ⟨rfl, rfl, rfl⟩
    · rintro ⟨rfl, rfl, rfl⟩
      exact ⟨.publishTermination, trivial⟩

/-- A thread that has just released its task makes its publications and returns. -/
theorem alone_notify {terminated : Bool} : Alone cfg
      ⟨⟨st, {⟨⟨true, terminated⟩, .cleanup [] (.cancel endpoint id result)⟩} + rest⟩, slots,
        handles⟩
      ⟨⟨true, terminated⟩, .cleanup [] (.cancel endpoint id result)⟩ ret t' ↔
    ret = .cancel endpoint id result ∧
      t' = ⟨⟨st.notifyAsyncChanges ⟨true, terminated⟩, rest⟩, slots, handles⟩ := by
  refine (alone_next .publishCapacity st.publishCapacity
    ⟨⟨false, terminated⟩, .cleanup [] (.cancel endpoint id result)⟩ rfl
    fun e st' new => ⟨?_, ?_⟩).trans alone_publishTermination
  · rintro ⟨⟨⟩, -⟩
    exact ⟨rfl, rfl, rfl⟩
  · rintro ⟨rfl, rfl, rfl⟩
    exact ⟨.publishCapacity, trivial⟩

/-- A thread inside the call of `cancel` releases its task next. -/
theorem alone_cancelling : Alone cfg
      ⟨⟨st, {⟨.none, .cancelling task_id [] (.cancel endpoint id result)⟩} + rest⟩, slots, handles⟩
      ⟨.none, .cancelling task_id [] (.cancel endpoint id result)⟩ ret t' ↔
    ret = .cancel endpoint id result ∧ t' = ⟨⟨(st.finishCancelling task_id).state.notifyAsyncChanges
      (st.finishCancelling task_id).changes, rest⟩, slots, handles⟩ := by
  refine (alone_next (.finishCancelling task_id) (st.finishCancelling task_id).state
    ⟨(st.finishCancelling task_id).changes, .cleanup [] (.cancel endpoint id result)⟩ rfl
    fun e st' new => ⟨?_, ?_⟩).trans alone_notify
  · rintro ⟨⟨⟩, -⟩
    rename_i h
    rw [h]
    exact ⟨rfl, rfl, rfl⟩
  · rintro ⟨rfl, rfl, rfl⟩
    exact ⟨.finishCancelling rfl, trivial⟩

/-- A thread that has claimed a task: its job is cancelled, then the task released. -/
theorem alone_cleanup {job : QueuedJob C T} : Alone cfg
      ⟨⟨st, {⟨.none, .cleanup [(task_id, job)] (.cancel endpoint id result)⟩} + rest⟩, slots,
        handles⟩
      ⟨.none, .cleanup [(task_id, job)] (.cancel endpoint id result)⟩ ret t' ↔
    ret = .cancel endpoint id result ∧ t' = ⟨⟨(st.finishCancelling task_id).state.notifyAsyncChanges
      (st.finishCancelling task_id).changes, rest⟩,
        slotsAfter slots (.cancel task_id job : Event W (QueuedJob C T)), handles⟩ := by
  refine (alone_next (.cancel task_id job) st
    ⟨.none, .cancelling task_id [] (.cancel endpoint id result)⟩ rfl
    fun e st' new => ⟨?_, ?_⟩).trans alone_cancelling
  · rintro ⟨⟨⟩, -⟩
    exact ⟨rfl, rfl, rfl⟩
  · rintro ⟨rfl, rfl, rfl⟩
    exact ⟨.cancel, trivial⟩

/-- The fallback of the task's handle asks the slot. -/
theorem alone_handle {slot : E.Slot} (hslot : slots id = some slot) : Alone cfg
      ⟨⟨st, {⟨.none, .absent .handle id⟩} + rest⟩, slots, handles⟩
      ⟨.none, .absent .handle id⟩ ret t' ↔
    ret = .cancel .handle id (cancellationResultForStatus (E.status slot)) ∧
      t' = ⟨⟨st, rest⟩, slots, handles⟩ := by
  refine (alone_next (.status id (E.status slot)) st ⟨.none, .returning
    (.cancel .handle id (cancellationResultForStatus (E.status slot)))⟩ rfl
    fun e st' new => ⟨?_, ?_⟩).trans alone_returning
  · rintro ⟨⟨⟩, slot', hslot', rfl⟩
    obtain rfl := Option.some.inj (hslot.symm.trans hslot')
    exact ⟨rfl, rfl, rfl⟩
  · rintro ⟨rfl, rfl, rfl⟩
    exact ⟨.status, slot, hslot, rfl⟩

/-- The fallback of the cancellation handle asks the slot once the task is not running. -/
theorem alone_fallback {slot : E.Slot} (hslot : slots id = some slot) : Alone cfg
      ⟨⟨st, {⟨.none, .fallback id⟩} + rest⟩, slots, handles⟩ ⟨.none, .fallback id⟩ ret t' ↔
    ret = .cancel .cancellationHandle id (E.cancel slot).1 ∧
      t' = ⟨⟨st, rest⟩, Function.update slots id (some (E.cancel slot).2), handles⟩ := by
  have hafter : slotsAfter slots (.fallback id (E.cancel slot).1 : Event W (QueuedJob C T)) =
      Function.update slots id (some (E.cancel slot).2) := by
    rw [slotsAfter, hslot]
    rfl
  rw [← hafter]
  refine (alone_next (.fallback id (E.cancel slot).1) st ⟨.none, .returning
    (.cancel .cancellationHandle id (E.cancel slot).1)⟩ rfl
    fun e st' new => ⟨?_, ?_⟩).trans alone_returning
  · rintro ⟨⟨⟩, slot', hslot', rfl⟩
    obtain rfl := Option.some.inj (hslot.symm.trans hslot')
    exact ⟨rfl, rfl, rfl⟩
  · rintro ⟨rfl, rfl, rfl⟩
    exact ⟨.fallback, slot, hslot, rfl⟩

/-- The fallback of the cancellation handle asks first whether the task is running. -/
theorem alone_cancellationHandle {slot : E.Slot} (hslot : slots id = some slot) : Alone cfg
      ⟨⟨st, {⟨.none, .absent .cancellationHandle id⟩} + rest⟩, slots, handles⟩
      ⟨.none, .absent .cancellationHandle id⟩ ret t' ↔
    if st.isRunningTask id then ret = .cancel .cancellationHandle id .alreadyRunning ∧
      t' = ⟨⟨st, rest⟩, slots, handles⟩
    else ret = .cancel .cancellationHandle id (E.cancel slot).1 ∧
      t' = ⟨⟨st, rest⟩, Function.update slots id (some (E.cancel slot).2), handles⟩ := by
  refine (alone_next (.isRunningTask id (st.isRunningTask id)) st
    ⟨.none, if st.isRunningTask id then
      .returning (.cancel .cancellationHandle id .alreadyRunning) else .fallback id⟩ rfl
    fun e st' new => ⟨?_, ?_⟩).trans ?_
  · rintro ⟨⟨⟩, -⟩
    exact ⟨rfl, rfl, rfl⟩
  · rintro ⟨rfl, rfl, rfl⟩
    exact ⟨.isRunningTask, trivial⟩
  · split_ifs
    · exact alone_returning
    · exact alone_fallback hslot

end

/-- A cancel call starts with its critical section. -/
theorem step_cancelPendingTask {cfg : Config} {t t1 : Tracked W E C T} {endpoint : Endpoint}
    {id : ℕ} {disposition : CancelDisposition (QueuedJob C T)} :
    Step cfg t (.service (.cancelPendingTask endpoint id disposition)) t1 ↔ ∃ st,
      t.service.shared.cancelPendingTask id = (disposition, st) ∧ id ∈ t.handles ∧
      t1 = ⟨⟨st, {⟨.none, afterClaim endpoint id disposition⟩} + t.service.threads⟩, t.slots,
        t.handles⟩ := by
  obtain ⟨⟨shared, threads⟩, slots, handles⟩ := t
  constructor
  · intro h
    cases h with
    | service hs ha =>
      rcases hs with hc | ⟨⟨hact⟩⟩
      · cases hc with
        | cancel hd => exact ⟨_, hd, ha, rfl⟩
      · cases hact
  · rintro ⟨st, hd, ha, rfl⟩
    exact .of_eq (.call (.cancel hd)) ha rfl rfl

/-- A cancel call with nobody in between, as the source has it. -/
def cancelTask (E : TaskEndpoint) (endpoint : Endpoint) (task_id : ℕ)
    (st : RayonExecutorServiceState W (QueuedJob C T)) (slot : E.Slot) :
    CancelResult × RayonExecutorServiceState W (QueuedJob C T) × E.Slot :=
  match st.cancelPendingTask task_id with
  | (.owned (.callable _), st) =>
    let finished := st.finishCancelling task_id
    (.cancelled, finished.state.notifyAsyncChanges finished.changes, E.cancelUnstarted slot)
  | (.owned (.runnable _), st) =>
    let finished := st.finishCancelling task_id
    (.cancelled, finished.state.notifyAsyncChanges finished.changes, slot)
  | (.inProgress, st) => (.cancelled, st, slot)
  | (.absent, st) =>
    match endpoint with
    | .handle => (cancellationResultForStatus (E.status slot), st, slot)
    | .cancellationHandle =>
      if st.isRunningTask task_id then (.alreadyRunning, st, slot)
      else ((E.cancel slot).1, st, (E.cancel slot).2)

/-- Two ways to say how a call has ended. -/
theorem ends_iff {endpoint : Endpoint} {id : ℕ} {result result' : CancelResult}
    {st : RayonExecutorServiceState W (QueuedJob C T)} {slot : E.Slot} {t t' : Tracked W E C T}
    {f : RayonExecutorServiceState W (QueuedJob C T) → E.Slot → Tracked W E C T}
    (ht : t = f st slot) : (Return.cancel endpoint id result : Return W) =
        .cancel endpoint id result' ∧ t' = t ↔
      ∃ st' slot', (result', st, slot) = (result, st', slot') ∧ t' = f st' slot' := by
  subst ht
  constructor
  · rintro ⟨hret, rfl⟩
    obtain ⟨-, -, rfl⟩ := Return.cancel.inj hret
    exact ⟨st, slot, rfl, rfl⟩
  · rintro ⟨st', slot', h, rfl⟩
    obtain ⟨rfl, rfl, rfl⟩ : result' = result ∧ st = st' ∧ slot = slot' := by simpa using h
    exact ⟨rfl, rfl⟩

/-- The function is what the steps of the call amount to. -/
theorem executes_iff {cfg : Config} {t t' : Tracked W E C T} {endpoint : Endpoint} {id : ℕ}
    {result : CancelResult} {slot : E.Slot} (hid : id ∈ t.handles)
    (hslot : t.slots id = some slot) : t.Executes cfg endpoint id result t' ↔
      ∃ st slot', cancelTask E endpoint id t.service.shared slot = (result, st, slot') ∧
        t' = ⟨⟨st, t.service.threads⟩, Function.update t.slots id (some slot'), t.handles⟩ := by
  have hself : t.slots = Function.update t.slots id (some slot) := by
    rw [← hslot, Function.update_eq_self]
  have hstep : t.Executes cfg endpoint id result t' ↔
      Alone cfg ⟨⟨(t.service.shared.cancelPendingTask id).2, {⟨.none, afterClaim endpoint id
        (t.service.shared.cancelPendingTask id).1⟩} + t.service.threads⟩, t.slots, t.handles⟩
        ⟨.none, afterClaim endpoint id (t.service.shared.cancelPendingTask id).1⟩
        (.cancel endpoint id result) t' := by
    constructor
    · rintro ⟨disposition, t1, hs, h⟩
      obtain ⟨st, hd, -, rfl⟩ := step_cancelPendingTask.1 hs
      rwa [hd]
    · exact fun h => ⟨_, _, step_cancelPendingTask.2 ⟨_, rfl, hid, rfl⟩, h⟩
  rw [hstep]
  unfold cancelTask
  rcases t.service.shared.cancelPendingTask id with ⟨⟨task | task⟩ | _ | _, st⟩
  · refine alone_cleanup.trans (ends_iff ?_)
    rw [slotsAfter, hslot]
    rfl
  · exact alone_cleanup.trans (ends_iff (congrArg (Tracked.mk _ · _) hself))
  · exact alone_returning.trans (ends_iff (congrArg (Tracked.mk _ · _) hself))
  · cases endpoint with
    | handle => exact (alone_handle hslot).trans (ends_iff (congrArg (Tracked.mk _ · _) hself))
    | cancellationHandle =>
      refine (alone_cancellationHandle hslot).trans ?_
      dsimp only
      split_ifs
      · exact ends_iff (congrArg (Tracked.mk _ · _) hself)
      · exact ends_iff rfl

end Tracked

section
variable {cfg : Config} {tr : List (TrackedEvent W C T)} {t : Tracked W E C T} {id : ℕ}
  {slot : E.Slot}

/-- A running task is neither queued nor being cancelled. -/
theorem Tracked.Run.cancelPendingTask_of_running (h : Tracked.Run cfg tr t)
    (hrun : id ∈ t.service.shared.inner.running_tasks) :
    t.service.shared.cancelPendingTask id = (.absent, t.service.shared) := by
  have hl := (Tracked.Run.core h).ledger
  have hq : id ∉ t.service.shared.inner.queue.keys := fun hq => (hl.not_mem_of_queued hq).1 hrun
  have hc := hl.not_cancelling_of_running hrun
  unfold RayonExecutorServiceState.cancelPendingTask
  simp only [OrderedMap.remove_eq_none.2 hq, if_neg hc]

/-- A task that is in none of the containers has a result. -/
theorem Tracked.Run.terminal_of_absent (h : Tracked.Run cfg tr t) (hid : id ∈ t.handles)
    (hslot : t.slots id = some slot) (hq : id ∉ t.service.shared.inner.queue.keys)
    (hc : id ∉ t.service.shared.inner.cancelling)
    (hrun : id ∉ t.service.shared.inner.running_tasks) : (E.status slot).Terminal := by
  have ha := Tracked.Run.agreement h
  have hr := Tracked.Run.core h
  have hacc := ha.accepted_of_handle hid
  rw [hr.ledger.ids] at hacc
  refine ha.terminal hr hslot ?_
  simp only [Multiset.mem_add, Finset.mem_val] at hacc
  tauto

/-- While the task is running, the handle answers by its status and the cancellation handle that it
is running. -/
theorem Tracked.Run.cancelTask_of_running (slot : E.Slot) (h : Tracked.Run cfg tr t)
    (hrun : id ∈ t.service.shared.inner.running_tasks) :
    Tracked.cancelTask E .handle id t.service.shared slot =
        (cancellationResultForStatus (E.status slot), t.service.shared, slot) ∧
      Tracked.cancelTask E .cancellationHandle id t.service.shared slot =
        (.alreadyRunning, t.service.shared, slot) := by
  unfold Tracked.cancelTask
  rw [Tracked.Run.cancelPendingTask_of_running h hrun]
  exact ⟨rfl, if_pos (decide_eq_true hrun)⟩

/-- The two endpoints do the same for a task that is not running. -/
theorem Tracked.Run.cancelTask_of_not_running (h : Tracked.Run cfg tr t) (hid : id ∈ t.handles)
    (hslot : t.slots id = some slot) (hrun : id ∉ t.service.shared.inner.running_tasks) :
    Tracked.cancelTask E .handle id t.service.shared slot =
      Tracked.cancelTask E .cancellationHandle id t.service.shared slot := by
  unfold Tracked.cancelTask
  generalize hd : t.service.shared.cancelPendingTask id = d
  obtain ⟨disposition, st⟩ := d
  cases RayonExecutorServiceState.cancelPendingTask_cases hd with
  | @owned job => cases job <;> rfl
  | inProgress => rfl
  | absent hq hc =>
    -- the task has finished, so its slot answers through both
    have hterm := Tracked.Run.terminal_of_absent h hid hslot hq hc hrun
    have hnot : t.service.shared.isRunningTask id = false := decide_eq_false hrun
    simp only [hnot, Bool.false_eq_true, if_false, E.cancel_of_terminal hterm,
      cancellationResultForStatus_of_terminal hterm]

end

/-! ## Agreement of the endpoints -/

/-- Through both endpoints a cancel call, executed from this state with no other step in between,
has the same answer and leads to the same state. -/
def Tracked.EndpointsAgree (cfg : Config) (t : Tracked W E C T) (id : ℕ) : Prop :=
  ∀ result t1 result' t2, t.Executes cfg .handle id result t1 →
    t.Executes cfg .cancellationHandle id result' t2 → result = result' ∧ t1 = t2

/-- A call through either endpoint can be executed from every reachable state, and the endpoints
agree unless the task has a result and its worker has not retired it yet. -/
theorem endpoints_agree {cfg : Config} {tr : List (TrackedEvent W C T)} {t : Tracked W E C T}
    {id : ℕ} (h : Tracked.Run cfg tr t) (hid : id ∈ t.handles) :
    (∀ endpoint, ∃ result t', t.Executes cfg endpoint id result t') ∧
    (t.EndpointsAgree cfg id ↔ ¬ (id ∈ t.service.shared.inner.running_tasks ∧
      ∃ slot, t.slots id = some slot ∧ (E.status slot).Terminal)) := by
  obtain ⟨slot, hslot⟩ := Option.isSome_iff_exists.1 ((Tracked.Run.agreement h).handles id hid)
  have hexists : ∀ endpoint, ∃ result t', t.Executes cfg endpoint id result t' := fun endpoint =>
    ⟨_, _, (Tracked.executes_iff hid hslot).2 ⟨_, _, rfl, rfl⟩⟩
  refine ⟨hexists, fun hagree => ?_, fun hnot => ?_⟩
  · rintro ⟨hrun, slot', hslot', hterm⟩
    obtain rfl := Option.some.inj (hslot.symm.trans hslot')
    obtain ⟨hhandle, hother⟩ := Tracked.Run.cancelTask_of_running slot h hrun
    rw [cancellationResultForStatus_of_terminal hterm] at hhandle
    have h1 : t.Executes cfg .handle id .alreadyFinished _ :=
      (Tracked.executes_iff hid hslot).2 ⟨_, _, hhandle, rfl⟩
    have h2 : t.Executes cfg .cancellationHandle id .alreadyRunning _ :=
      (Tracked.executes_iff hid hslot).2 ⟨_, _, hother, rfl⟩
    exact absurd (hagree _ _ _ _ h1 h2).1 (by decide)
  · rintro result t1 result' t2 h1 h2
    obtain ⟨st1, slot1, heq1, rfl⟩ := (Tracked.executes_iff hid hslot).1 h1
    obtain ⟨st2, slot2, heq2, rfl⟩ := (Tracked.executes_iff hid hslot).1 h2
    have heq : Tracked.cancelTask E .handle id t.service.shared slot =
        Tracked.cancelTask E .cancellationHandle id t.service.shared slot := by
      by_cases hrun : id ∈ t.service.shared.inner.running_tasks
      · have hterm : ¬ (E.status slot).Terminal := fun hterm => hnot ⟨hrun, slot, hslot, hterm⟩
        obtain ⟨hhandle, hother⟩ := Tracked.Run.cancelTask_of_running slot h hrun
        rw [hhandle, hother, cancellationResultForStatus_of_not_terminal hterm]
      · exact Tracked.Run.cancelTask_of_not_running h hid hslot hrun
    rw [heq1, heq2] at heq
    obtain ⟨rfl, rfl, rfl⟩ : result = result' ∧ st1 = st2 ∧ slot1 = slot2 := by simpa using heq
    exact ⟨rfl, rfl⟩

/-! ## A finished task that is not retired -/

/-- The history in which a worker has published the result of a callable and not retired it. -/
def tinyPublishedHistory : List (TrackedEvent Watch.versioned ℕ ℕ) :=
  [.publish 0 .succeeded, .invoke 0, .service (.run 0 (.callable 7)),
    .service (.takeNext (some (0, .callable 7))), .service (.returned (.submitted 0)),
    .service .spawn, .service (.admitJob (.callable 7) (.ok ⟨0, 1⟩))]

/-- The service when the result is published and the run not finished. -/
def tinyPublished : Tracked Watch.versioned .plain ℕ ℕ :=
  ⟨⟨tinyTracked.takeNext.state, {⟨.none, .running 0⟩}⟩, Function.update (Function.update
    (Function.update (fun _ => none) 0 (some .pending)) 0 (some .running)) 0 (some .succeeded), {0}⟩

/-- The callable is accepted, taken, called, and its result published. -/
theorem tinyPublished_run : Tracked.Run tinyConfig tinyPublishedHistory tinyPublished := by
  have h1 : Tracked.Run tinyConfig
      [.service (.takeNext (some (0, .callable 7))), .service (.returned (.submitted 0)),
        .service .spawn, .service (.admitJob (.callable 7) (.ok ⟨0, 1⟩))]
      (⟨⟨tinyTracked.takeNext.state, {⟨.none, .claimed 0 (.callable 7)⟩}⟩,
        Function.update (fun _ => none) 0 (some .pending), {0}⟩ :
        Tracked Watch.versioned .plain ℕ ℕ) :=
    .step tinySubmitted_run (.of_eq (.act (.of_eq (.takeNext rfl) rfl rfl)) trivial rfl rfl)
  have h2 : Tracked.Run tinyConfig
      [.service (.run 0 (.callable 7)), .service (.takeNext (some (0, .callable 7))),
        .service (.returned (.submitted 0)), .service .spawn,
        .service (.admitJob (.callable 7) (.ok ⟨0, 1⟩))]
      (⟨⟨tinyTracked.takeNext.state, {⟨.none, .running 0⟩}⟩,
        Function.update (fun _ => none) 0 (some .pending), {0}⟩ :
        Tracked Watch.versioned .plain ℕ ℕ) :=
    .step h1 (.of_eq (.act (.of_eq .run rfl rfl)) trivial rfl rfl)
  exact .step (.step h2 (.invoke (Multiset.mem_singleton_self _) rfl rfl))
    (.publish (Multiset.mem_singleton_self _) rfl rfl (Or.inl rfl))

/-- Between the publication of the result and `finish_running` both endpoints answer. -/
theorem endpoints_agree_tiny :
    (∀ endpoint, ∃ result t', tinyPublished.Executes tinyConfig endpoint 0 result t') ∧
    (tinyPublished.EndpointsAgree tinyConfig 0 ↔
      ¬ (0 ∈ tinyPublished.service.shared.inner.running_tasks ∧
        ∃ slot, tinyPublished.slots 0 = some slot ∧ (TaskEndpoint.plain.status slot).Terminal)) :=
  endpoints_agree tinyPublished_run (Finset.mem_singleton_self 0)

/-- The endpoints differ between the publication of the result and `finish_running`: the handle
answers `AlreadyFinished`, the cancellation handle `AlreadyRunning`. -/
theorem endpoints_differ : Tracked.Run tinyConfig tinyPublishedHistory tinyPublished ∧
    0 ∈ tinyPublished.handles ∧
    (∃ t', tinyPublished.Executes tinyConfig .handle 0 .alreadyFinished t') ∧
    (∃ t', tinyPublished.Executes tinyConfig .cancellationHandle 0 .alreadyRunning t') ∧
    ¬ tinyPublished.EndpointsAgree tinyConfig 0 := by
  have hid : 0 ∈ tinyPublished.handles := Finset.mem_singleton_self 0
  have h1 : tinyPublished.Executes tinyConfig .handle 0 .alreadyFinished _ :=
    (Tracked.executes_iff hid rfl).2 ⟨_, _, rfl, rfl⟩
  have h2 : tinyPublished.Executes tinyConfig .cancellationHandle 0 .alreadyRunning _ :=
    (Tracked.executes_iff hid rfl).2 ⟨_, _, rfl, rfl⟩
  exact ⟨tinyPublished_run, hid, ⟨_, h1⟩, ⟨_, h2⟩,
    fun hagree => absurd (hagree _ _ _ _ h1 h2).1 (by decide)⟩

end RayonExecutor
