import RayonExecutor.Service
import Mathlib.Tactic.Abel

/-!
# Who owns a task

Every accepted task is in exactly one place. The ledger (`Ledger`) says so twice: for identifiers,
which move between the three containers of the state and the two ways to be finished, and for job
objects, which move from the queue through the hands of a thread into `run` or `cancel`. Both are
equations between multisets, so they say that nothing is lost and that nothing is duplicated. The
sets that the state keeps of running and cancelling tasks are exactly what the threads hold.
-/

namespace RayonExecutor

open Transition Pool

variable {W : Watch} {J : Type}

/-! ## What the history records -/

namespace Event

/-- The accepted job, with its identifier. -/
@[simp] def accepts : Event W J → Multiset (ℕ × J)
  | .admitJob job (.ok admission) => {(admission.task_id, job)}
  | _ => 0

/-- The job handed to `run`. -/
@[simp] def runs : Event W J → Multiset (ℕ × J)
  | .run task_id job => {(task_id, job)}
  | _ => 0

/-- The job handed to `cancel`. -/
@[simp] def cancels : Event W J → Multiset (ℕ × J)
  | .cancel task_id job => {(task_id, job)}
  | _ => 0

/-- The task whose run `finish_running` has ended. -/
@[simp] def finishesRun : Event W J → Multiset ℕ
  | .finishRunning task_id _ => {task_id}
  | _ => 0

/-- The task whose cancellation `finish_cancelling` has ended. -/
@[simp] def finishesCancel : Event W J → Multiset ℕ
  | .finishCancelling task_id => {task_id}
  | _ => 0

end Event

/-- The identifiers of all tasks accepted so far. -/
def accepted (tr : List (Event W J)) : Multiset ℕ := (tally Event.accepts tr).map Prod.fst

/-! ## What a thread holds -/

namespace Control

/-- The task that a worker owns, from `take_next` to `finish_running`. -/
@[simp] def working : Control W J → Multiset ℕ
  | .claimed task_id _ => {task_id}
  | .running task_id => {task_id}
  | _ => 0

/-- The tasks that a canceller or a stop loop owns, until their `finish_cancelling`. -/
@[simp] def cleaning : Control W J → Multiset ℕ
  | .cleanup jobs _ => jobs.map Prod.fst
  | .cancelling task_id jobs _ => task_id ::ₘ jobs.map Prod.fst
  | _ => 0

/-- The job objects that a thread has taken and not yet consumed. -/
@[simp] def holds : Control W J → Multiset (ℕ × J)
  | .claimed task_id job => {(task_id, job)}
  | .cleanup jobs _ => jobs
  | .cancelling _ jobs _ => jobs
  | _ => 0

end Control

/-- The tasks owned by workers. -/
abbrev workers (ts : Multiset (Thread W J)) : Multiset ℕ := across Control.working ts

/-- The tasks owned by cancellers and stop loops. -/
abbrev cleaners (ts : Multiset (Thread W J)) : Multiset ℕ := across Control.cleaning ts

/-- The job objects in the hands of threads. -/
abbrev held (ts : Multiset (Thread W J)) : Multiset (ℕ × J) := across Control.holds ts

/-! ## The ledger -/

/-- The two conservation laws, and what makes the steps keep them: the state's sets are what the
threads own, and identifiers are fresh. -/
structure Ledger (tr : List (Event W J)) (st : RayonExecutorServiceState W J)
    (ts : Multiset (Thread W J)) : Prop where
  ids : accepted tr = st.inner.queue.keys + st.inner.running_tasks.val + st.inner.cancelling.val +
    tally Event.finishesRun tr + tally Event.finishesCancel tr
  jobs : tally Event.accepts tr = st.inner.queue.toMultiset + held ts + tally Event.runs tr +
    tally Event.cancels tr
  workers_eq : st.inner.running_tasks.val = workers ts
  cleaners_eq : st.inner.cancelling.val = cleaners ts
  fresh : ∀ id ∈ accepted tr, id < st.inner.next_task_id
  nodup : (accepted tr).Nodup
  running : st.inner.running = st.inner.running_tasks.card

@[simp] theorem accepted_nil : accepted ([] : List (Event W J)) = 0 := rfl

@[simp] theorem accepted_cons (e : Event W J) (tr : List (Event W J)) :
    accepted (e :: tr) = e.accepts.map Prod.fst + accepted tr := by simp [accepted]

/-- An event that moves no task and no job. -/
structure Event.Silent (e : Event W J) : Prop where
  accepts : e.accepts = 0
  runs : e.runs = 0
  cancels : e.cancels = 0
  finishesRun : e.finishesRun = 0
  finishesCancel : e.finishesCancel = 0

namespace Ledger

variable {tr : List (Event W J)} {st st' : RayonExecutorServiceState W J}
  {ts new : Multiset (Thread W J)} {task_id : ℕ} {job : J} {jobs : List (ℕ × J)} {ret : Return W}

/-- A queued task is in no other place. -/
theorem not_mem_of_queued (h : Ledger tr st ts) {id : ℕ} (hid : id ∈ st.inner.queue.keys) :
    id ∉ st.inner.running_tasks ∧ id ∉ st.inner.cancelling := by
  -- the places of a task are summands of a multiset without duplicates
  have hn := h.nodup
  rw [h.ids] at hn
  obtain ⟨rest, hrest⟩ := Multiset.exists_cons_of_mem hid
  rw [hrest] at hn
  simp only [Multiset.cons_add, Multiset.nodup_cons, Multiset.mem_add, not_or] at hn
  exact ⟨hn.1.1.1.1.2, hn.1.1.1.2⟩

/-- A running task is not being cancelled. -/
theorem not_cancelling_of_running (h : Ledger tr st ts) {id : ℕ}
    (hid : id ∈ st.inner.running_tasks) : id ∉ st.inner.cancelling := by
  have hn := h.nodup
  rw [h.ids] at hn
  obtain ⟨rest, hrest⟩ := Multiset.exists_cons_of_mem hid
  rw [hrest] at hn
  simp only [Multiset.cons_add, Multiset.add_cons, Multiset.nodup_cons, Multiset.mem_add,
    not_or] at hn
  exact hn.1.1.1.2

/-- The next identifier has not been given to any queued task. -/
theorem next_not_mem (h : Ledger tr st ts) : st.inner.next_task_id ∉ st.inner.queue.keys := by
  intro hm
  refine absurd (h.fresh st.inner.next_task_id ?_) (lt_irrefl _)
  rw [h.ids]
  simp [hm]

/-- A step that moves nothing keeps the ledger. -/
theorem silent (h : Ledger tr st ts) {e : Event W J} (he : e.Silent)
    {us : Multiset (Thread W J)} (hq : st'.inner.queue = st.inner.queue)
    (hr : st'.inner.running_tasks = st.inner.running_tasks)
    (hc : st'.inner.cancelling = st.inner.cancelling)
    (hn : st.inner.next_task_id ≤ st'.inner.next_task_id)
    (hrun : st'.inner.running = st.inner.running) (hw : workers us = workers ts)
    (hcl : cleaners us = cleaners ts) (hh : held us = held ts) :
    Ledger (e :: tr) st' us where
  ids := by
    rw [accepted_cons, tally_cons, tally_cons, he.accepts, he.finishesRun, he.finishesCancel,
      Multiset.map_zero, zero_add, zero_add, zero_add, hq, hr, hc, h.ids]
  jobs := by
    rw [tally_cons, tally_cons, tally_cons, he.accepts, he.runs, he.cancels, zero_add, zero_add,
      zero_add, hq, hh, h.jobs]
  workers_eq := by rw [hr, hw, h.workers_eq]
  cleaners_eq := by rw [hc, hcl, h.cleaners_eq]
  fresh id hid := by
    rw [accepted_cons, he.accepts, Multiset.map_zero, zero_add] at hid
    exact lt_of_lt_of_le (h.fresh id hid) hn
  nodup := by
    rw [accepted_cons, he.accepts, Multiset.map_zero, zero_add]
    exact h.nodup
  running := by rw [hrun, hr, h.running]

/-- A silent step that leaves the state as it is keeps the ledger. -/
theorem unchanged (h : Ledger tr st ts) {e : Event W J} (he : e.Silent)
    {us : Multiset (Thread W J)} (hw : workers us = workers ts) (hcl : cleaners us = cleaners ts)
    (hh : held us = held ts) : Ledger (e :: tr) st us :=
  h.silent he rfl rfl rfl le_rfl rfl hw hcl hh

/-- An accepted submission enters its fresh task into the queue. -/
theorem admitJob (h : Ledger tr st ts) {bits : ℕ} {accept : Exit} {outcome : AdmitOutcome}
    (ha : st.admitJob bits accept job = (outcome, st')) :
    Ledger (.admitJob job outcome :: tr) st' (afterAdmit outcome + ts) := by
  cases RayonExecutorServiceState.admitJob_cases ha with
  | shutdown | saturated | exhausted =>
    exact h.unchanged (by constructor <;> rfl) (by simp) (by simp) (by simp)
  | unwound =>
    -- the unwinding `accept` leaves the identifier used up and nothing else
    exact h.silent (by constructor <;> rfl) rfl rfl rfl (Nat.le_succ _) rfl
      (by simp) (by simp) (by simp)
  | accepted =>
    have hins := OrderedMap.toMultiset_insert job h.next_not_mem
    have hkeys : (st.inner.queue.insert st.inner.next_task_id job).keys =
        st.inner.next_task_id ::ₘ st.inner.queue.keys := by simp [OrderedMap.keys, hins]
    -- identifiers are handed out in increasing order, so this one is new
    have hnot : st.inner.next_task_id ∉ accepted tr :=
      fun hm => absurd (h.fresh _ hm) (lt_irrefl _)
    exact
      { ids := by simp [hkeys, h.ids]
        jobs := by simp [hins, h.jobs]
        workers_eq := by simpa using h.workers_eq
        cleaners_eq := by simpa using h.cleaners_eq
        fresh := by
          intro id hid
          simp only [accepted_cons, Event.accepts, Multiset.map_singleton, Multiset.mem_add,
            Multiset.mem_singleton] at hid
          rcases hid with rfl | hid
          · exact Nat.lt_succ_self _
          · exact lt_trans (h.fresh id hid) (Nat.lt_succ_self _)
        nodup := by
          simpa [Multiset.singleton_add] using Multiset.nodup_cons.2 ⟨hnot, h.nodup⟩
        running := h.running }

/-- A claimed task moves from the queue to the cancelling ones, and its job to the canceller. -/
theorem cancelPendingTask (h : Ledger tr st ts) {endpoint : Endpoint}
    {disposition : CancelDisposition J}
    (hc : st.cancelPendingTask task_id = (disposition, st')) :
    Ledger (.cancelPendingTask endpoint task_id disposition :: tr) st'
      ({⟨.none, afterClaim endpoint task_id disposition⟩} + ts) := by
  cases RayonExecutorServiceState.cancelPendingTask_cases hc with
  | @owned job queue hr =>
    have hq := OrderedMap.toMultiset_of_remove hr
    have hkeys : st.inner.queue.keys = task_id ::ₘ queue.keys := by simp [OrderedMap.keys, hq]
    have hnot := (h.not_mem_of_queued (hkeys ▸ Multiset.mem_cons_self _ _)).2
    have hins := Finset.insert_val_of_notMem hnot
    exact
      { ids := by
          simp only [accepted_cons, Event.accepts, Multiset.map_zero, zero_add, h.ids, hkeys,
            hins, tally_cons, Event.finishesRun, Event.finishesCancel, ← Multiset.singleton_add]
          abel
        jobs := by
          simp only [tally_cons, Event.accepts, Event.runs, Event.cancels, zero_add, h.jobs, hq,
            across_add, across_singleton, afterClaim, Control.holds, Multiset.coe_singleton,
            ← Multiset.singleton_add]
          abel
        workers_eq := by simpa using h.workers_eq
        cleaners_eq := by simp [hins, h.cleaners_eq, Multiset.singleton_add]
        fresh := by simpa using h.fresh
        nodup := by simpa using h.nodup
        running := h.running }
  | inProgress | absent =>
    exact h.unchanged (by constructor <;> rfl) (by simp) (by simp) (by simp)

/-- `stop` moves every queued task to the cancelling ones, and their jobs to its loop. -/
theorem stop (h : Ledger tr st ts) {report : StopReport} {changes : AsyncChanges}
    (hs : st.stop = ⟨(report, jobs), changes, st'⟩) :
    Ledger (.stop report jobs :: tr) st' ({⟨changes, .cleanup jobs (.stop report)⟩} + ts) := by
  obtain ⟨inner, cancelling, rfl, rfl, rfl, -, -, rfl⟩ := RayonExecutorServiceState.stop_cases hs
  have hkeys : (st.inner.queue.entries.map Prod.fst : Multiset ℕ) = st.inner.queue.keys := rfl
  -- no queued task is being cancelled, so each one that the loop claims is new to the set
  have hval := RayonExecutorServiceState.claimJobs_fst_val st.inner.cancelling []
    st.inner.queue.entries (by
      have hn := h.nodup
      rw [h.ids] at hn
      refine Multiset.nodup_of_le ?_ hn
      rw [hkeys, add_assoc, add_assoc, add_assoc]
      refine Multiset.add_le_add_left ?_
      rw [add_left_comm]
      exact Multiset.le_add_right _ _)
  rw [hkeys] at hval
  exact
    { ids := by
        simp only [accepted_cons, Event.accepts, Multiset.map_zero, zero_add, h.ids,
          RayonExecutorServiceState.notifiedWith_inner, hval, OrderedMap.keys_empty, tally_cons,
          Event.finishesRun, Event.finishesCancel]
        abel
      jobs := by
        simp only [tally_cons, Event.accepts, Event.runs, Event.cancels, zero_add, h.jobs,
          across_add, across_singleton, Control.holds, RayonExecutorServiceState.notifiedWith_inner,
          OrderedMap.toMultiset_empty]
        rfl
      workers_eq := by simpa using h.workers_eq
      cleaners_eq := by simp [hval, h.cleaners_eq, ← hkeys]
      fresh := by simpa using h.fresh
      nodup := by simpa using h.nodup
      running := by simpa using h.running }

/-- The first action of an operation keeps the ledger. -/
theorem call (h : Ledger tr st ts) {bits : ℕ} {e : Event W J} (hc : Call bits st e st' new) :
    Ledger (e :: tr) st' (new + ts) := by
  cases hc with
  | admitJob ha => exact h.admitJob ha
  | cancel hc => exact h.cancelPendingTask hc
  | stop hs => exact h.stop hs
  | shutdown hs =>
    obtain ⟨inner, lifecycle, rfl, -, -, rfl⟩ := RayonExecutorServiceState.shutdown_cases hs
    exact h.silent (by constructor <;> rfl) (by simp) (by simp) (by simp) (by simp) (by simp)
      (by simp) (by simp) (by simp)
  | subscribeTermination =>
    exact h.unchanged (by constructor <;> rfl) (by simp) (by simp) (by simp)
  | capacityChanges | lifecycle | stats | isNotRunning =>
    exact h.unchanged (by constructor <;> rfl) (by simp) (by simp) (by simp)

/-- A taken task moves from the queue to the running ones, and its job to the worker. -/
theorem takeNext (h : Ledger tr st (⟨.none, .closure⟩ ::ₘ ts)) {taken : Option (ℕ × J)}
    {changes : AsyncChanges} (hs : st.takeNext = ⟨taken, changes, st'⟩) :
    Ledger (.takeNext taken :: tr) st' ({⟨changes, afterTake taken⟩} + ts) := by
  cases RayonExecutorServiceState.takeNext_cases hs with
  | idle hinner =>
    subst hinner
    exact h.silent (by constructor <;> rfl) (by simp) (by simp) (by simp) (by simp) (by simp)
      (by simp) (by simp) (by simp)
  | @taken task_id job queue hp =>
    have hq := OrderedMap.toMultiset_of_popFirst hp
    have hkeys : st.inner.queue.keys = task_id ::ₘ queue.keys := by simp [OrderedMap.keys, hq]
    have hnot := (h.not_mem_of_queued (hkeys ▸ Multiset.mem_cons_self _ _)).1
    have hins := Finset.insert_val_of_notMem hnot
    exact
      { ids := by
          simp only [accepted_cons, Event.accepts, Multiset.map_zero, zero_add, h.ids, hkeys,
            hins, tally_cons, Event.finishesRun, Event.finishesCancel, ← Multiset.singleton_add]
          abel
        jobs := by
          simp only [tally_cons, Event.accepts, Event.runs, Event.cancels, zero_add, h.jobs, hq,
            across_add, across_singleton, afterTake, Control.holds, ← Multiset.singleton_add]
          abel
        workers_eq := by
          have := h.workers_eq
          simp only [across_cons, Control.working, zero_add] at this
          simp [hins, this, Multiset.singleton_add]
        cleaners_eq := by simpa using h.cleaners_eq
        fresh := by simpa using h.fresh
        nodup := by simpa using h.nodup
        running := by
          rw [Finset.card_insert_of_notMem hnot]
          exact congrArg Nat.succ h.running }

/-- The worker consumes its job object by running it. -/
theorem run (h : Ledger tr st (⟨.none, .claimed task_id job⟩ ::ₘ ts)) :
    Ledger (.run task_id job :: tr) st ({⟨.none, .running task_id⟩} + ts) where
  ids := by simpa using h.ids
  jobs := by
    simp only [tally_cons, Event.accepts, Event.runs, Event.cancels, zero_add, h.jobs, across_add,
      across_cons, across_singleton, Control.holds]
    abel
  workers_eq := by simpa using h.workers_eq
  cleaners_eq := by simpa using h.cleaners_eq
  fresh := by simpa using h.fresh
  nodup := by simpa using h.nodup
  running := h.running

/-- `finish_running` moves the worker's task to the finished ones. -/
theorem finishRunning (h : Ledger tr st (⟨.none, .running task_id⟩ ::ₘ ts)) {dispatch : Bool}
    {changes : AsyncChanges} (hs : st.finishRunning task_id = ⟨dispatch, changes, st'⟩) :
    Ledger (.finishRunning task_id dispatch :: tr) st'
      ({⟨changes, afterFinish dispatch⟩} + ts) := by
  obtain ⟨inner, scheduled, rfl, -, -, rfl⟩ := RayonExecutorServiceState.finishRunning_cases hs
  -- the running tasks are this worker's and those of the other workers
  have hval : st.inner.running_tasks.val = task_id ::ₘ workers ts := by
    have := h.workers_eq
    simpa only [across_cons, Control.working, Multiset.singleton_add] using this
  have hmem : task_id ∈ st.inner.running_tasks := by
    rw [Finset.mem_def, hval]
    exact Multiset.mem_cons_self _ _
  have herase : (st.inner.running_tasks.erase task_id).val = workers ts := by
    rw [Finset.erase_val, hval, Multiset.erase_cons_head]
  exact
    { ids := by
        simp only [accepted_cons, Event.accepts, Multiset.map_zero, zero_add, h.ids, hval,
          RayonExecutorServiceState.notifiedWith_inner, herase, tally_cons, Event.finishesRun,
          Event.finishesCancel, ← Multiset.singleton_add]
        abel
      jobs := by simpa using h.jobs
      workers_eq := by simp [hval]
      cleaners_eq := by simpa using h.cleaners_eq
      fresh := by simpa using h.fresh
      nodup := by simpa using h.nodup
      running := by simp [Finset.card_erase_of_mem hmem, h.running] }

/-- The canceller consumes the first of its job objects by cancelling it. -/
theorem cancel (h : Ledger tr st (⟨.none, .cleanup ((task_id, job) :: jobs) ret⟩ ::ₘ ts)) :
    Ledger (.cancel task_id job :: tr) st ({⟨.none, .cancelling task_id jobs ret⟩} + ts) where
  ids := by simpa using h.ids
  jobs := by
    simp only [tally_cons, Event.accepts, Event.runs, Event.cancels, zero_add, h.jobs, across_add,
      across_singleton, Control.holds, ← Multiset.cons_coe, ← Multiset.singleton_add]
    abel
  workers_eq := by simpa using h.workers_eq
  cleaners_eq := by simpa using h.cleaners_eq
  fresh := by simpa using h.fresh
  nodup := by simpa using h.nodup
  running := h.running

/-- `finish_cancelling` moves the canceller's task to the finished ones. -/
theorem finishCancelling (h : Ledger tr st (⟨.none, .cancelling task_id jobs ret⟩ ::ₘ ts))
    {changes : AsyncChanges} (hs : st.finishCancelling task_id = ⟨(), changes, st'⟩) :
    Ledger (.finishCancelling task_id :: tr) st' ({⟨changes, .cleanup jobs ret⟩} + ts) := by
  obtain ⟨inner, rfl, -, rfl⟩ := RayonExecutorServiceState.finishCancelling_cases hs
  -- a stop loop still owns the jobs that it has not come to
  have hval : st.inner.cancelling.val = task_id ::ₘ (jobs.map Prod.fst + cleaners ts) := by
    have := h.cleaners_eq
    simpa only [across_cons, Control.cleaning, Multiset.cons_add] using this
  have herase : (st.inner.cancelling.erase task_id).val = jobs.map Prod.fst + cleaners ts := by
    rw [Finset.erase_val, hval, Multiset.erase_cons_head]
  exact
    { ids := by
        simp only [accepted_cons, Event.accepts, Multiset.map_zero, zero_add, h.ids, hval,
          RayonExecutorServiceState.notifiedWith_inner, herase, tally_cons, Event.finishesRun,
          Event.finishesCancel, ← Multiset.singleton_add]
        abel
      jobs := by simpa using h.jobs
      workers_eq := by simpa using h.workers_eq
      cleaners_eq := by simp [hval]
      fresh := by simpa using h.fresh
      nodup := by simpa using h.nodup
      running := by simpa using h.running }

/-- Every action of a thread keeps the ledger. -/
theorem action {t : Thread W J} (h : Ledger tr st (t ::ₘ ts)) {e : Event W J}
    (ha : Action t st e st' new) : Ledger (e :: tr) st' (new + ts) := by
  cases ha with
  | takeNext hs => exact h.takeNext hs
  | run => exact h.run
  | finishRunning hs => exact h.finishRunning hs
  | cancel => exact h.cancel
  | finishCancelling hs => exact h.finishCancelling hs
  | publishCapacity | publishTermination =>
    exact h.silent (by constructor <;> rfl) rfl rfl rfl le_rfl rfl (by simp) (by simp) (by simp)
  | isRunningTask =>
    refine h.unchanged (by constructor <;> rfl) ?_ ?_ ?_ <;> split_ifs <;> simp
  | spawn | dispatched | cleaned | status | fallback | subscribed | returning =>
    exact h.unchanged (by constructor <;> rfl) (by simp) (by simp) (by simp)

end Ledger

/-- The ledger holds in every reachable state. -/
theorem Service.Run.ledger {cfg : Config} {tr : List (Event W J)} {s : Service W J}
    (h : Service.Run cfg tr s) : Ledger tr s.shared s.threads :=
  Pool.invariant (P := Ledger)
    { ids := rfl, jobs := rfl, workers_eq := rfl, cleaners_eq := rfl
      fresh := by simp, nodup := by simp, running := rfl }
    (fun _ h hc => h.call hc) (fun _ h ha => h.action ha) h

/-! ## Consumption -/

namespace Control

/-- The task whose job a worker has handed to `run`, until `finish_running`. -/
@[simp] def inRun : Control W J → Multiset ℕ
  | .running task_id => {task_id}
  | _ => 0

/-- The task whose job a canceller has handed to `cancel`, until `finish_cancelling`. -/
@[simp] def inCancel : Control W J → Multiset ℕ
  | .cancelling task_id _ _ => {task_id}
  | _ => 0

end Control

/-- A consumed job's task is inside the call that consumed it, or finished by the matching
`finish` operation. -/
structure Consumption (tr : List (Event W J)) (ts : Multiset (Thread W J)) : Prop where
  runs : (tally Event.runs tr).map Prod.fst =
    across Control.inRun ts + tally Event.finishesRun tr
  cancels : (tally Event.cancels tr).map Prod.fst =
    across Control.inCancel ts + tally Event.finishesCancel tr

namespace Consumption

variable {tr : List (Event W J)} {st st' : RayonExecutorServiceState W J}
  {ts new : Multiset (Thread W J)} {e : Event W J}

/-- A step that moves nothing keeps the account. -/
theorem silent (h : Consumption tr ts) (he : e.runs = 0 ∧ e.cancels = 0 ∧ e.finishesRun = 0 ∧
    e.finishesCancel = 0) {us : Multiset (Thread W J)}
    (hr : across Control.inRun us = across Control.inRun ts)
    (hc : across Control.inCancel us = across Control.inCancel ts) : Consumption (e :: tr) us where
  runs := by
    obtain ⟨hruns, -, hfinish, -⟩ := he
    rw [tally_cons, tally_cons, hruns, hfinish, zero_add, zero_add, hr, h.runs]
  cancels := by
    obtain ⟨-, hcancels, -, hfinish⟩ := he
    rw [tally_cons, tally_cons, hcancels, hfinish, zero_add, zero_add, hc, h.cancels]

/-- The first action of an operation consumes nothing. -/
theorem call (h : Consumption tr ts) {bits : ℕ} (hc : Call bits st e st' new) :
    Consumption (e :: tr) (new + ts) := by
  have hnew : across Control.inRun new = 0 ∧ across Control.inCancel new = 0 := by
    cases hc with
    | admitJob ha =>
      rename_i outcome
      cases outcome <;> simp
    | cancel hd =>
      rename_i disposition
      cases disposition <;> simp
    | _ => simp
  have he : e.runs = 0 ∧ e.cancels = 0 ∧ e.finishesRun = 0 ∧ e.finishesCancel = 0 := by
    cases hc <;> exact ⟨rfl, rfl, rfl, rfl⟩
  exact h.silent he (by simp [hnew]) (by simp [hnew])

/-- A consumed job enters the call, and its `finish` operation takes it out. -/
theorem action {t : Thread W J} (h : Consumption tr (t ::ₘ ts)) (ha : Action t st e st' new) :
    Consumption (e :: tr) (new + ts) := by
  cases ha with
  | run | cancel | finishRunning | finishCancelling =>
    -- on each side of both equations the task moves from one summand to the next
    obtain ⟨hr, hc⟩ := h
    rw [across_cons] at hr hc
    constructor <;>
      simp only [tally_cons, Event.runs, Event.cancels, Event.finishesRun, Event.finishesCancel,
        Multiset.map_add, Multiset.map_singleton, across_add, across_singleton, afterFinish,
        Control.inRun, Control.inCancel, zero_add, hr, hc, add_assoc] <;>
      exact add_left_comm _ _ _
  | takeNext hs =>
    rename_i taken changes
    cases taken <;> exact h.silent ⟨rfl, rfl, rfl, rfl⟩ (by simp) (by simp)
  | isRunningTask =>
    refine h.silent ⟨rfl, rfl, rfl, rfl⟩ ?_ ?_ <;> split_ifs <;> simp
  | _ => exact h.silent ⟨rfl, rfl, rfl, rfl⟩ (by simp) (by simp)

end Consumption

/-- Consumed jobs are accounted for in every reachable state. -/
theorem Service.Run.consumption {cfg : Config} {tr : List (Event W J)} {s : Service W J}
    (h : Service.Run cfg tr s) : Consumption tr s.threads :=
  Pool.invariant (P := fun tr _ ts => Consumption tr ts) ⟨rfl, rfl⟩ (fun _ h hc => h.call hc)
    (fun _ h ha => h.action ha) h

/-- The consumed jobs are accepted ones. -/
theorem Service.Run.consumed_le {cfg : Config} {tr : List (Event W J)} {s : Service W J}
    (h : Service.Run cfg tr s) :
    (tally Event.runs tr + tally Event.cancels tr).map Prod.fst ≤ accepted tr := by
  refine Multiset.map_le_map ?_
  rw [h.ledger.jobs, add_assoc]
  exact Multiset.le_add_left _ _

/-- No job object is consumed twice. -/
theorem Service.Run.consumed_nodup {cfg : Config} {tr : List (Event W J)} {s : Service W J}
    (h : Service.Run cfg tr s) :
    ((tally Event.runs tr + tally Event.cancels tr).map Prod.fst).Nodup :=
  Multiset.nodup_of_le h.consumed_le h.ledger.nodup

/-! ## Exactly-once ownership -/

/-- Exactly-once ownership of every accepted task, after the history `tr` and in the state `s`. -/
structure OwnedOnce (cfg : Config) (tr : List (Event W J)) (s : Service W J) : Prop where
  /-- No identifier is accepted twice. -/
  nodup : (accepted tr).Nodup
  /-- The accepted tasks are the disjoint union of the queued, the running, the cancelling, the
  run and the cancelled ones: as multisets, so none is lost and none is in two places. -/
  partition : accepted tr = s.shared.inner.queue.keys + s.shared.inner.running_tasks.val +
    s.shared.inner.cancelling.val + tally Event.finishesRun tr + tally Event.finishesCancel tr
  /-- The workers' tasks are the running ones, and each has exactly one worker. -/
  workers : workers s.threads = s.shared.inner.running_tasks.val ∧
    ∀ id ∈ s.shared.inner.running_tasks, s.threads.countP (fun t => id ∈ t.control.working) = 1
  /-- The tasks of cancellers and stop loops are the cancelling ones, and each has exactly one. -/
  cleaners : cleaners s.threads = s.shared.inner.cancelling.val ∧
    ∀ id ∈ s.shared.inner.cancelling, s.threads.countP (fun t => id ∈ t.control.cleaning) = 1
  /-- Every accepted job object is in the queue, in the hands of one thread, or consumed. -/
  objects : tally Event.accepts tr = s.shared.inner.queue.toMultiset + held s.threads +
    tally Event.runs tr + tally Event.cancels tr
  /-- A job object is consumed at most once, by one of `run` and `cancel`. -/
  consumed : ((tally Event.runs tr + tally Event.cancels tr).map Prod.fst).Nodup
  /-- A task whose run is finished has had its job consumed by `run`. -/
  ran : tally Event.finishesRun tr ≤ (tally Event.runs tr).map Prod.fst
  /-- A task whose cancellation is finished has had its job consumed by `cancel`. -/
  cancelled : tally Event.finishesCancel tr ≤ (tally Event.cancels tr).map Prod.fst
  /-- A submission that is not accepted enters no container and leaves no thread. -/
  rejected : ∀ job outcome s', Service.Step cfg s (.admitJob job outcome) s' →
    (∀ admission, outcome ≠ .ok admission) →
    s'.shared.inner.queue = s.shared.inner.queue ∧
      s'.shared.inner.running_tasks = s.shared.inner.running_tasks ∧
      s'.shared.inner.cancelling = s.shared.inner.cancelling ∧ s'.threads = s.threads

/-- A submission that is not accepted changes no container and starts no thread. -/
theorem Service.Step.rejected {cfg : Config} {s s' : Service W J} {job : J}
    {outcome : AdmitOutcome} (h : Service.Step cfg s (.admitJob job outcome) s')
    (ho : ∀ admission, outcome ≠ .ok admission) :
    s'.shared.inner.queue = s.shared.inner.queue ∧
      s'.shared.inner.running_tasks = s.shared.inner.running_tasks ∧
      s'.shared.inner.cancelling = s.shared.inner.cancelling ∧ s'.threads = s.threads := by
  rcases h with hc | ⟨⟨ha⟩⟩
  · cases hc with
    | admitJob ha =>
      cases RayonExecutorServiceState.admitJob_cases ha with
      | shutdown | saturated | exhausted | unwound => simp
      | accepted => exact absurd rfl (ho _)
  · cases ha

/-- Every accepted task has exactly one owner in every reachable state, and its job object is
consumed at most once over the run. -/
theorem exactly_once_ownership {cfg : Config} {tr : List (Event W J)} {s : Service W J}
    (h : Service.Run cfg tr s) : OwnedOnce cfg tr s := by
  have hl := h.ledger
  have hc := h.consumption
  exact
    { nodup := hl.nodup
      partition := hl.ids
      workers := by
        refine ⟨hl.workers_eq.symm, fun id hid => countP_eq_one_of_total _ ?_⟩
        change (workers s.threads).count id = 1
        rw [← hl.workers_eq]
        exact Multiset.count_eq_one_of_mem s.shared.inner.running_tasks.nodup hid
      cleaners := by
        refine ⟨hl.cleaners_eq.symm, fun id hid => countP_eq_one_of_total _ ?_⟩
        change (cleaners s.threads).count id = 1
        rw [← hl.cleaners_eq]
        exact Multiset.count_eq_one_of_mem s.shared.inner.cancelling.nodup hid
      objects := hl.jobs
      consumed := h.consumed_nodup
      ran := by
        rw [hc.runs]
        exact Multiset.le_add_left _ _
      cancelled := by
        rw [hc.cancels]
        exact Multiset.le_add_left _ _
      rejected := fun _ _ _ hs ho => hs.rejected ho }

/-- In the first run the one task is in the worker's hands. -/
theorem exactly_once_ownership_tiny :
    OwnedOnce tinyConfig [.takeNext (some (0, 7)), .spawn, .admitJob 7 (.ok ⟨0, 1⟩)]
      ⟨tinyTaken, {⟨.none, .claimed 0 7⟩, ⟨.none, .dispatching 0 (.submitted 0)⟩}⟩ :=
  exactly_once_ownership tinyTaken_run

end RayonExecutor
