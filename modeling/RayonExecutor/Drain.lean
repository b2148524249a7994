import RayonExecutor.Dispatch

/-!
# Draining

What happens once callers stop calling: threads go on with what they have begun, closures that were
spawned execute, and nothing else starts. Every such continuation is finite, because a measure over
the queue and the threads goes down with every action (`Service.fuel`). Where none can go on there
are no threads, so no reservation is left, and by work conservation no queued task either.

The history keeps two more accounts for this (`Claims`): the tasks taken by workers, and the tasks
claimed for cancellation. Internal steps claim nothing, so a task that is queued when callers stop
is run.
-/

namespace RayonExecutor

open Transition Pool

variable {W : Watch} {J : Type}

/-- The continuations by internal steps. -/
abbrev Service.Internal : Service W J → List (Event W J) → Service W J → Prop :=
  Path (Pool.Act Action)

/-- No thread can go on. -/
def Service.Stuck (s : Service W J) : Prop := ∀ e s', ¬ Pool.Act Action s e s'

/-! ## The measure -/

/-- The number of publications that are owed. -/
def AsyncChanges.pending (changes : AsyncChanges) : ℕ :=
  changes.capacity_changed.toNat + changes.terminated.toNat

/-- A bound on the actions that follow from a point of the code, apart from what is queued. -/
def Control.fuel : Control W J → ℕ
  | .dispatching count _ => 1 + 4 * count
  | .closure => 3
  | .claimed _ _ => 9
  | .running _ => 8
  | .cleanup jobs _ => 1 + 4 * jobs.length
  | .cancelling _ jobs _ => 4 + 4 * jobs.length
  | .absent _ _ => 3
  | .fallback _ => 2
  | .subscribed _ => 3
  | .returning _ => 1

/-- A bound on the actions that follow from a thread. -/
def Thread.fuel (t : Thread W J) : ℕ := t.changes.pending + t.control.fuel

/-- A bound on the actions that follow from a service when no operation starts. A queued task is
worth a worker's actions, one closure of the successor included. -/
def Service.fuel (s : Service W J) : ℕ :=
  Pool.measure (fun st => 7 * st.inner.queue.length) Thread.fuel s

/-- What a critical section owes is at most two publications. -/
theorem AsyncChanges.pending_le (changes : AsyncChanges) : changes.pending ≤ 2 := by
  obtain ⟨_ | _, _ | _⟩ := changes <;> decide

/-- Every action of a thread lowers the measure. -/
theorem Action.fuel_lt {t : Thread W J} {st st' : RayonExecutorServiceState W J} {e : Event W J}
    {new : Multiset (Thread W J)} (h : Action t st e st' new) :
    7 * st'.inner.queue.length + total Thread.fuel new <
      7 * st.inner.queue.length + t.fuel := by
  cases h with
  | takeNext hs =>
    cases RayonExecutorServiceState.takeNext_cases hs with
    | @idle inner hinner hq =>
      -- an idle closure can only owe the publication of termination
      have hqueue : inner.queue = st.inner.queue := by rw [hinner]
      have := Bool.toNat_le (decide inner.Terminated)
      simp only [hqueue, RayonExecutorServiceState.notifiedWith_inner, total_singleton, Thread.fuel,
        AsyncChanges.pending, AsyncChanges.none, afterTake, Control.fuel, Bool.toNat_false] at *
      omega
    | taken hp =>
      -- the popped task pays for its worker
      have := OrderedMap.length_of_popFirst hp
      simp only [total_singleton, Thread.fuel, AsyncChanges.pending, AsyncChanges.none, afterTake,
        Control.fuel, Bool.toNat_false]
      omega
  | finishRunning hs =>
    rename_i dispatch changes
    obtain ⟨inner, _, rfl, -, -, rfl⟩ := RayonExecutorServiceState.finishRunning_cases hs
    -- two publications and a successor's closure at most
    have hle := changes.pending_le
    have hif : (if dispatch = true then 1 else 0) ≤ 1 := by split_ifs <;> omega
    simp only [RayonExecutorServiceState.notifiedWith_inner, total_singleton, Thread.fuel,
      afterFinish, Control.fuel] at *
    omega
  | finishCancelling hs =>
    rename_i changes
    obtain ⟨inner, rfl, -, rfl⟩ := RayonExecutorServiceState.finishCancelling_cases hs
    have hle := changes.pending_le
    simp only [RayonExecutorServiceState.notifiedWith_inner, total_singleton, Thread.fuel,
      Control.fuel] at *
    omega
  | isRunningTask =>
    simp only [total_singleton, Thread.fuel, Control.fuel]
    split_ifs <;> simp
  | subscribed =>
    have := Bool.toNat_le (decide st.inner.Terminated)
    simp only [total_singleton, Thread.fuel, AsyncChanges.pending, AsyncChanges.none, Control.fuel,
      Bool.toNat_false]
    omega
  | spawn =>
    simp only [Multiset.insert_eq_cons, total_cons, total_singleton, Thread.fuel,
      AsyncChanges.pending, AsyncChanges.none, Control.fuel, Bool.toNat_false]
    omega
  | publishCapacity | publishTermination | run | cancel | status | fallback =>
    simp only [RayonExecutorServiceState.publishCapacity,
      RayonExecutorServiceState.publishTermination, total_singleton, Thread.fuel,
      AsyncChanges.pending, AsyncChanges.none, Control.fuel, List.length_cons, Bool.toNat_false,
      Bool.toNat_true]
    omega
  | dispatched | cleaned | returning => simp [Thread.fuel, Control.fuel]

/-- Every thread can go on, whatever the state. -/
theorem exists_action (t : Thread W J) (st : RayonExecutorServiceState W J) :
    ∃ e st' new, Action t st e st' new := by
  obtain ⟨⟨capacity_changed, terminated⟩, control⟩ := t
  cases capacity_changed with
  | true => exact ⟨_, _, _, .publishCapacity⟩
  | false =>
    cases terminated with
    | true => exact ⟨_, _, _, .publishTermination⟩
    | false =>
      cases control with
      | dispatching count ret =>
        cases count with
        | zero => exact ⟨_, _, _, .dispatched⟩
        | succ count => exact ⟨_, _, _, .spawn⟩
      | closure => exact ⟨_, _, _, .takeNext rfl⟩
      | claimed task_id job => exact ⟨_, _, _, .run⟩
      | running task_id => exact ⟨_, _, _, .finishRunning rfl⟩
      | cleanup jobs ret =>
        cases jobs with
        | nil => exact ⟨_, _, _, .cleaned⟩
        | cons job jobs => exact ⟨_, _, _, .cancel⟩
      | cancelling task_id jobs ret => exact ⟨_, _, _, .finishCancelling rfl⟩
      | absent endpoint task_id =>
        cases endpoint with
        | handle => exact ⟨_, _, _, @Action.status W J st task_id .cancelled⟩
        | cancellationHandle => exact ⟨_, _, _, .isRunningTask⟩
      | fallback task_id => exact ⟨_, _, _, @Action.fallback W J st task_id .alreadyFinished⟩
      | subscribed r => exact ⟨_, _, _, .subscribed⟩
      | returning ret => exact ⟨_, _, _, .returning⟩

/-- Where no thread can go on there is none. -/
theorem Service.Stuck.threads {s : Service W J} (h : s.Stuck) : s.threads = 0 :=
  Pool.threads_eq_zero_of_stuck exists_action h

/-- Every internal step lowers the measure. -/
theorem Service.fuel_lt {s s' : Service W J} {e : Event W J} (h : Pool.Act Action s e s') :
    s'.fuel < s.fuel := by
  unfold Service.fuel
  exact Pool.measure_lt (fun ha => ha.fuel_lt) h

/-! ## What is claimed -/

namespace Event

/-- The task taken by a worker, with its job. -/
@[simp] def takes : Event W J → Multiset (ℕ × J)
  | .takeNext (some taken) => {taken}
  | _ => 0

/-- The tasks claimed for cancellation. -/
@[simp] def claims : Event W J → Multiset ℕ
  | .cancelPendingTask _ task_id (.owned _) => {task_id}
  | .stop _ jobs => jobs.map Prod.fst
  | _ => 0

/-- Only `take_next` takes a task. -/
theorem eq_takeNext_of_mem {e : Event W J} {taken : ℕ × J} (h : taken ∈ e.takes) :
    e = .takeNext (some taken) := by
  rcases e with _ | _ | _ | _ | _ | _ | _ | _ | _ | _ | _ | _ | (_ | _) | _ <;>
    simp only [takes, Multiset.notMem_zero, Multiset.mem_singleton] at h
  rw [h]

/-- Only a worker runs a job. -/
theorem eq_run_of_mem {e : Event W J} {id : ℕ} {job : J} (h : (id, job) ∈ e.runs) :
    e = .run id job := by
  cases e <;> simp only [runs, Multiset.notMem_zero, Multiset.mem_singleton] at h
  obtain ⟨rfl, rfl⟩ := Prod.mk.inj h
  rfl

/-- Only `finish_running` finishes a run. -/
theorem exists_finishRunning_of_mem {e : Event W J} {id : ℕ} (h : id ∈ e.finishesRun) :
    ∃ dispatch, e = .finishRunning id dispatch := by
  cases e <;> simp only [finishesRun, Multiset.notMem_zero, Multiset.mem_singleton] at h
  exact ⟨_, by rw [h]⟩

end Event

/-- The task that a worker has taken and whose job it has not run. -/
@[simp] def Control.unrun : Control W J → Multiset (ℕ × J)
  | .claimed task_id job => {(task_id, job)}
  | _ => 0

/-- A taken job is in its worker's hands or run, and a task claimed for cancellation is in its
canceller's hands or cancelled. -/
structure Claims (tr : List (Event W J)) (ts : Multiset (Thread W J)) : Prop where
  takes : tally Event.takes tr = across Control.unrun ts + tally Event.runs tr
  claims : tally Event.claims tr = cleaners ts + tally Event.finishesCancel tr

namespace Claims

variable {tr : List (Event W J)} {st st' : RayonExecutorServiceState W J}
  {ts new : Multiset (Thread W J)} {e : Event W J}

/-- The first action of an operation takes no task, and claims what its thread has to clean up. -/
theorem call (h : Claims tr ts) {bits : ℕ} (hc : Call bits st e st' new) :
    Claims (e :: tr) (new + ts) := by
  have htake : e.takes = 0 ∧ e.runs = 0 ∧ across Control.unrun new = 0 := by
    cases hc with
    | admitJob ha =>
      rename_i outcome
      cases outcome <;> simp
    | cancel hd =>
      rename_i disposition
      cases disposition <;> simp
    | _ => simp
  have hclaim : e.claims = cleaners new ∧ e.finishesCancel = 0 := by
    cases hc with
    | admitJob ha =>
      rename_i outcome
      cases outcome <;> simp
    | cancel hd =>
      rename_i disposition
      cases disposition <;> simp
    | _ => simp
  constructor
  · obtain ⟨htakes, hruns, hunrun⟩ := htake
    rw [tally_cons, tally_cons, across_add, htakes, hruns, hunrun, zero_add, zero_add, zero_add,
      h.takes]
  · obtain ⟨hclaims, hfinish⟩ := hclaim
    rw [tally_cons, tally_cons, hclaims, hfinish, zero_add, h.claims, cleaners, cleaners, cleaners,
      across_add, add_assoc]

/-- An action of a thread claims nothing, and moves a job on. -/
theorem action {t : Thread W J} (h : Claims tr (t ::ₘ ts)) (ha : Action t st e st' new) :
    Claims (e :: tr) (new + ts) := by
  obtain ⟨ht, hc⟩ := h
  simp only [cleaners, across_cons] at ht hc
  -- a job taken comes into the worker's hands, and a job run leaves them
  have htake : e.takes + across Control.unrun {t} = e.runs + across Control.unrun new := by
    cases ha with
    | takeNext hs =>
      rename_i taken changes
      cases taken <;> simp
    | isRunningTask =>
      split_ifs <;> simp
    | _ => simp
  have hclaim : e.claims = 0 ∧ cleaners {t} = e.finishesCancel + cleaners new := by
    cases ha with
    | takeNext hs =>
      rename_i taken changes
      cases taken <;> simp
    | isRunningTask =>
      split_ifs <;> simp
    | _ => simp
  simp only [cleaners, across_singleton] at htake hclaim
  constructor
  · rw [tally_cons, tally_cons, ht, across_add, ← add_assoc, ← add_assoc, htake]
    abel
  · rw [tally_cons, tally_cons, hc, cleaners, across_add, hclaim.1, hclaim.2]
    abel

end Claims

/-- Claimed tasks are accounted for in every reachable state. -/
theorem Service.Run.claims {cfg : Config} {tr : List (Event W J)} {s : Service W J}
    (h : Service.Run cfg tr s) : Claims tr s.threads :=
  Pool.invariant (P := fun tr _ ts => Claims tr ts) ⟨rfl, rfl⟩ (fun _ h hc => h.call hc)
    (fun _ h ha => h.action ha) h

/-- Internal steps accept no task and claim none for cancellation. -/
theorem Service.Internal.accepts_claims {s s' : Service W J} {es : List (Event W J)}
    (h : Service.Internal s es s') :
    tally Event.accepts es = 0 ∧ tally Event.claims es = 0 := by
  have hQ : ∀ e ∈ es, e.accepts = 0 ∧ e.claims = 0 := by
    refine Path.forall_mem ?_ h
    rintro _ _ _ ⟨ha⟩
    cases ha <;> exact ⟨rfl, rfl⟩
  exact ⟨tally_eq_zero fun e he => (hQ e he).1, tally_eq_zero fun e he => (hQ e he).2⟩

/-- The taken tasks are the running ones and those that have been run. -/
theorem Service.Run.takes_eq {cfg : Config} {tr : List (Event W J)} {s : Service W J}
    (h : Service.Run cfg tr s) : (tally Event.takes tr).map Prod.fst =
      s.shared.inner.running_tasks.val + tally Event.finishesRun tr := by
  -- a worker either holds its job or is inside the call that consumed it
  have hsplit : (across Control.unrun s.threads).map Prod.fst + across Control.inRun s.threads =
      workers s.threads := by
    rw [across, across, map_total, ← total_add_distrib, workers, across]
    congr 1
    funext t
    cases t.control <;> simp
  rw [h.claims.takes, Multiset.map_add, h.consumption.runs, ← add_assoc, hsplit,
    h.ledger.workers_eq]

/-- The tasks claimed for cancellation are the cancelling ones and those that have been
cancelled. -/
theorem Service.Run.claims_eq {cfg : Config} {tr : List (Event W J)} {s : Service W J}
    (h : Service.Run cfg tr s) : tally Event.claims tr =
      s.shared.inner.cancelling.val + tally Event.finishesCancel tr := by
  rw [h.claims.claims, h.ledger.cleaners_eq]

/-- A queued task has been neither taken nor claimed. -/
theorem Service.Run.queued_fresh {cfg : Config} {tr : List (Event W J)} {s : Service W J}
    (h : Service.Run cfg tr s) {id : ℕ} (hid : id ∈ s.shared.inner.queue.keys) :
    id ∉ (tally Event.takes tr).map Prod.fst ∧ id ∉ tally Event.claims tr := by
  rw [h.takes_eq, h.claims_eq]
  have hn := h.ledger.nodup
  obtain ⟨rest, hrest⟩ := Multiset.exists_cons_of_mem hid
  rw [h.ledger.ids, hrest] at hn
  simp only [Multiset.cons_add, Multiset.nodup_cons, Multiset.mem_add, not_or] at hn ⊢
  obtain ⟨⟨⟨⟨⟨-, hrun⟩, hcan⟩, hfrun⟩, hfcan⟩, -⟩ := hn
  exact ⟨⟨hrun, hfrun⟩, hcan, hfcan⟩

/-! ## Drain -/

/-- Nothing is queued, running, being cancelled or reserved, and a service that has left `Running`
is terminated. -/
structure Drained (inner : RayonExecutorServiceInner J) : Prop where
  queue : inner.queue.length = 0
  running : inner.running = 0
  running_tasks : inner.running_tasks = ∅
  cancelling : inner.cancelling = ∅
  scheduled : inner.scheduled = 0
  terminated : inner.lifecycle ≠ .running → inner.Terminated

/-- A reachable service without threads has drained. -/
theorem Service.Run.drained {cfg : Config} {tr : List (Event W J)} {s : Service W J}
    (h : Service.Run cfg tr s) (hn : 1 ≤ cfg.num_threads) (h0 : s.threads = 0) :
    Drained s.shared.inner := by
  have hl := h.ledger
  have hr := h.reservations
  have hw := hl.workers_eq
  have hc := hl.cleaners_eq
  have hconserved := hr.conserved
  have hexact := hr.exact
  rw [h.config.2] at hconserved
  simp only [h0, workers, cleaners, promised, active, across_zero, Multiset.card_zero] at *
  -- with nobody working and nothing promised, work conservation leaves no queued task
  have hq : s.shared.inner.queue.length = 0 := by omega
  have hrun : s.shared.inner.running = 0 := by rw [hl.running, Finset.card_def, hw]; rfl
  have hcan : s.shared.inner.cancelling = ∅ := Finset.val_eq_zero.1 hc
  exact
    { queue := hq
      running := hrun
      running_tasks := Finset.val_eq_zero.1 hw
      cancelling := hcan
      scheduled := hexact
      terminated := fun hlife =>
        ⟨hlife, by rw [RayonExecutorServiceInner.occupied, hq, hrun, hcan]; rfl⟩ }

/-- Draining, from the state `s` reached by the history `tr`. -/
structure Drains (tr : List (Event W J)) (s : Service W J) : Prop where
  bounded : ∀ es s', Service.Internal s es s' → es.length ≤ s.fuel
  /-- Some continuation goes to the end. -/
  complete : ∃ es s', Service.Internal s es s' ∧ s'.Stuck
  drained : ∀ es s', Service.Internal s es s' → s'.Stuck → Drained s'.shared.inner
  /-- A task that is queued at the start is taken by a worker, run, and finished. -/
  queued : ∀ es s', Service.Internal s es s' → s'.Stuck →
    ∀ id job, (id, job) ∈ s.shared.inner.queue.toMultiset →
      .takeNext (some (id, job)) ∈ es ∧ .run id job ∈ es ∧
        ∃ dispatch, .finishRunning id dispatch ∈ es
  /-- Without a cancellation so far, every accepted task has been run at the end. -/
  graceful : tally Event.claims tr = 0 → ∀ es s', Service.Internal s es s' → s'.Stuck →
    tally Event.finishesRun (es.reverse ++ tr) = accepted tr

/-- A queued task is run in every continuation that goes to the end. -/
theorem Service.Run.queued_run {cfg : Config} {tr es : List (Event W J)} {s s' : Service W J}
    (h : Service.Run cfg tr s) (hn : 1 ≤ cfg.num_threads) (hp : Service.Internal s es s')
    (h0 : s'.threads = 0) {id : ℕ} {job : J}
    (hq : (id, job) ∈ s.shared.inner.queue.toMultiset) :
    .takeNext (some (id, job)) ∈ es ∧ .run id job ∈ es ∧
      ∃ dispatch, .finishRunning id dispatch ∈ es := by
  have hr : Service.Run cfg (es.reverse ++ tr) s' := h.append (hp.mono .act)
  have hdr := hr.drained hn h0
  have hids := hr.ledger.ids
  have hjobs := hr.ledger.jobs
  have hrun := hr.takes_eq
  have hcan := hr.claims_eq
  have hcons := hr.consumption.cancels
  have htaken := hr.claims.takes
  have hq0 : s'.shared.inner.queue.toMultiset = 0 := Multiset.card_eq_zero.1 hdr.queue
  simp only [hdr.running_tasks, hdr.cancelling, OrderedMap.keys_eq_zero_of_length hdr.queue, h0,
    hq0, held, across_zero, Finset.empty_val, zero_add] at hids hjobs hrun hcan hcons htaken
  -- the task was accepted before, so it is finished now, and not by a cancellation
  obtain ⟨htake, hclaim⟩ := h.queued_fresh (OrderedMap.mem_keys_of_mem hq)
  have hacc : (id, job) ∈ tally Event.accepts tr := by
    rw [h.ledger.jobs, add_assoc, add_assoc]
    exact Multiset.mem_add.2 (Or.inl hq)
  have hnot : id ∉ tally Event.finishesCancel (es.reverse ++ tr) := by
    rw [← hcan, tally_append, tally_reverse, hp.accepts_claims.2, zero_add]
    exact hclaim
  have hruns : (id, job) ∈ tally Event.runs (es.reverse ++ tr) := by
    have hmem : (id, job) ∈ tally Event.accepts (es.reverse ++ tr) := by
      rw [tally_append]
      exact Multiset.mem_add.2 (Or.inr hacc)
    rw [hjobs] at hmem
    refine (Multiset.mem_add.1 hmem).resolve_right fun hcancel => hnot ?_
    rw [← hcons]
    exact Multiset.mem_map_of_mem Prod.fst hcancel
  have hfin : id ∈ tally Event.finishesRun (es.reverse ++ tr) := by
    rw [← hrun, htaken]
    exact Multiset.mem_map_of_mem Prod.fst hruns
  -- none of the three had happened before, so each is an event of the continuation
  refine ⟨?_, ?_, ?_⟩
  · obtain ⟨e, he, ha⟩ := exists_mem_of_tally_append (f := Event.takes) (htaken ▸ hruns)
      fun hm => htake (Multiset.mem_map_of_mem Prod.fst hm)
    rw [Event.eq_takeNext_of_mem ha] at he
    exact he
  · obtain ⟨e, he, ha⟩ := exists_mem_of_tally_append hruns fun hm => htake <| by
      rw [h.claims.takes, Multiset.map_add]
      exact Multiset.mem_add.2 (Or.inr (Multiset.mem_map_of_mem Prod.fst hm))
    rw [Event.eq_run_of_mem ha] at he
    exact he
  · obtain ⟨e, he, ha⟩ := exists_mem_of_tally_append hfin fun hm => htake <| by
      rw [h.takes_eq]
      exact Multiset.mem_add.2 (Or.inr hm)
    obtain ⟨dispatch, rfl⟩ := Event.exists_finishRunning_of_mem ha
    exact ⟨dispatch, he⟩

/-- Every continuation by internal steps is finite, and one that goes to the end has drained the
service and run every queued task. -/
theorem drain {cfg : Config} {tr : List (Event W J)} {s : Service W J}
    (h : Service.Run cfg tr s) (hn : 1 ≤ cfg.num_threads) : Drains tr s where
  bounded es s' hp := by
    have := Path.length_le (μ := Service.fuel) Service.fuel_lt hp
    omega
  complete := exists_path_stuck (μ := Service.fuel) Service.fuel_lt s
  drained es s' hp hs :=
    Service.Run.drained (h.append (hp.mono .act)) hn hs.threads
  queued es s' hp hs id job hq := h.queued_run hn hp hs.threads hq
  graceful hclaims es s' hp hs := by
    have hr : Service.Run cfg (es.reverse ++ tr) s' := h.append (hp.mono .act)
    have hdr := hr.drained hn hs.threads
    have hids := hr.ledger.ids
    have hcan := hr.claims_eq
    simp only [hdr.running_tasks, hdr.cancelling, OrderedMap.keys_eq_zero_of_length hdr.queue,
      Finset.empty_val, zero_add] at hids hcan
    -- nothing has been claimed, neither before nor by internal steps
    rw [tally_append, tally_reverse, hp.accepts_claims.2, hclaims, add_zero] at hcan
    rw [← hcan, add_zero] at hids
    rw [← hids, accepted, accepted, tally_append, tally_reverse, hp.accepts_claims.1, zero_add]

/-- Every continuation drains a service with one job taken and one queued. -/
theorem drain_tiny : Drains [.takeNext (some (0, 7)), .admitJob 8 (.ok ⟨1, 0⟩), .spawn,
      .admitJob 7 (.ok ⟨0, 1⟩)]
    (⟨tinyJoined.takeNext.state, {⟨.none, .claimed 0 7⟩, ⟨.none, .dispatching 0 (.submitted 1)⟩,
      ⟨.none, .dispatching 0 (.submitted 0)⟩}⟩ : Service Watch.versioned ℕ) :=
  drain tinyJoined_run (by decide)

/-! ## The way to a worker -/

/-- A publication. -/
def Event.Publication : Event W J → Prop
  | .publishCapacity | .publishTermination _ => True
  | _ => False

/-- A publication, or the spawning of a closure. -/
def Event.Unseen : Event W J → Prop
  | .publishCapacity | .publishTermination _ | .spawn => True
  | _ => False

theorem Event.Publication.unseen {e : Event W J} (h : e.Publication) : e.Unseen := by
  cases e <;> trivial

/-- A thread makes the publications that it owes. -/
theorem exists_path_publish (st : RayonExecutorServiceState W J) (t : Thread W J)
    (ts : Multiset (Thread W J)) : ∃ es termination_tx capacity_tx,
      Service.Internal ⟨st, t ::ₘ ts⟩ es
        ⟨st.withSenders termination_tx capacity_tx, ⟨.none, t.control⟩ ::ₘ ts⟩ ∧
      ∀ e ∈ es, e.Publication := by
  have hsecond : ∀ (st : RayonExecutorServiceState W J) (terminated : Bool),
      ∃ es termination_tx capacity_tx,
        Service.Internal ⟨st, ⟨⟨false, terminated⟩, t.control⟩ ::ₘ ts⟩ es
          ⟨st.withSenders termination_tx capacity_tx, ⟨.none, t.control⟩ ::ₘ ts⟩ ∧
        ∀ e ∈ es, e.Publication := by
    intro st terminated
    cases terminated with
    | false => exact ⟨[], st.termination_tx, st.capacity_tx, .nil _, by simp⟩
    | true =>
      exact ⟨[_], st.publishTermination.termination_tx, st.capacity_tx,
        .cons (.of_eq .publishTermination rfl rfl) (.nil _), List.forall_mem_singleton.2 trivial⟩
  obtain ⟨⟨capacity_changed, terminated⟩, control⟩ := t
  cases capacity_changed with
  | false => exact hsecond st terminated
  | true =>
    obtain ⟨es, termination_tx, capacity_tx, hp, hes⟩ := hsecond st.publishCapacity terminated
    exact ⟨.publishCapacity :: es, termination_tx, capacity_tx,
      .cons (.of_eq .publishCapacity rfl rfl) hp, List.forall_mem_cons.2 ⟨trivial, hes⟩⟩

/-- A promised closure takes the task that is first in the queue. -/
theorem exists_path_takeNext {s : Service W J} {id : ℕ} {job : J} {queue : OrderedMap ℕ J}
    (hq : s.shared.inner.queue.popFirst = some ((id, job), queue)) (hn : promised s.threads ≠ 0) :
    ∃ es s', Service.Internal s (es ++ [.takeNext (some (id, job))]) s' ∧
      (∀ e ∈ es, e.Unseen) ∧ s'.shared.inner.queue = queue := by
  -- a closure takes it at once
  have htake : ∀ (st : RayonExecutorServiceState W J) (ts : Multiset (Thread W J)),
      st.inner = s.shared.inner → ∃ s', Service.Internal ⟨st, ⟨.none, .closure⟩ ::ₘ ts⟩
        [.takeNext (some (id, job))] s' ∧ s'.shared.inner.queue = queue := by
    intro st ts hinner
    have ht : st.takeNext = ⟨some (id, job), .none, { st with inner := { st.inner with
        queue := queue
        running := st.inner.running + 1
        running_tasks := insert id st.inner.running_tasks } }⟩ := by
      rw [← hinner] at hq
      unfold RayonExecutorServiceState.takeNext
      simp only [hq]
    exact ⟨_, .cons (.act (.takeNext ht)) (.nil _), rfl⟩
  -- the others that have promised one spawn it first
  obtain ⟨st, threads⟩ := s
  obtain ⟨t, ht, hpromises⟩ : ∃ t ∈ threads, t.control.promises ≠ 0 := by
    by_contra hnone
    push Not at hnone
    exact hn (Multiset.sum_eq_zero fun n hm => by
      obtain ⟨t, ht, rfl⟩ := Multiset.mem_map.1 hm
      exact hnone t ht)
  obtain ⟨ts, rfl⟩ := Multiset.exists_cons_of_mem ht
  obtain ⟨es, termination_tx, capacity_tx, hp, hpub⟩ := exists_path_publish st t ts
  have hes : ∀ e ∈ es, e.Unseen := fun e he => (hpub e he).unseen
  cases hc : t.control with
  | closure =>
    rw [hc] at hp
    obtain ⟨s', hp', hqueue⟩ := htake (st.withSenders termination_tx capacity_tx) ts rfl
    exact ⟨es, s', hp.append hp', hes, hqueue⟩
  | dispatching count ret =>
    cases count with
    | zero => simp [hc] at hpromises
    | succ count =>
      rw [hc] at hp
      obtain ⟨s', hp', hqueue⟩ := htake (st.withSenders termination_tx capacity_tx)
        (⟨.none, .dispatching count ret⟩ ::ₘ ts) rfl
      refine ⟨es ++ [.spawn], s', ?_, ?_, hqueue⟩
      · rw [List.append_assoc]
        refine hp.append (.cons (.of_eq .spawn rfl ?_) hp')
        rw [Multiset.insert_eq_cons, Multiset.cons_add, Multiset.singleton_add, Multiset.cons_swap]
      · intro e he
        rcases List.mem_append.1 he with he | he
        · exact hes e he
        · obtain rfl := List.mem_singleton.1 he
          trivial
  | _ => simp [hc] at hpromises

end RayonExecutor
