import RayonExecutor.Ownership

/-!
# Worker reservations

`scheduled` counts worker reservations. A reservation is promised by `admit`, travels as a closure
that `dispatch` still has to spawn, as a spawned closure, and as a worker, is handed to the
successor by `finish_running`, and is given back by a closure or a worker that finds the queue
empty. The invariant (`Reservations`) has three parts: the counter is exact, it is bounded by the
number of threads, and the promised closures suffice for the queued tasks and the free threads.
-/

namespace RayonExecutor

open Transition Pool

variable {W : Watch} {J : Type}

/-- The closures that a thread stands for and that have not executed `take_next`: those it has to
spawn, or itself. -/
@[simp] def Control.promises : Control W J → ℕ
  | .dispatching count _ => count
  | .closure => 1
  | _ => 0

/-- The number of promised closures that have not executed `take_next`. -/
abbrev promised (ts : Multiset (Thread W J)) : ℕ := across Control.promises ts

/-- The number of workers between `take_next` and `finish_running`. -/
abbrev active (ts : Multiset (Thread W J)) : ℕ := (workers ts).card

/-- The accounting of worker reservations. -/
structure Reservations (inner : RayonExecutorServiceInner J) (ts : Multiset (Thread W J)) :
    Prop where
  /-- A reservation is a promised closure or an active worker. -/
  exact : inner.scheduled = promised ts + active ts
  bounded : inner.scheduled ≤ inner.num_threads
  /-- Work conservation: the queued tasks, or else the free threads, have their closures. -/
  conserved : min inner.queue.length (inner.num_threads - active ts) ≤ promised ts

namespace Reservations

variable {inner inner' : RayonExecutorServiceInner J} {st st' : RayonExecutorServiceState W J}
  {ts us new : Multiset (Thread W J)}

/-- A step that touches no reservation and adds no task to the queue keeps the account. -/
theorem silent (h : Reservations inner ts) (hs : inner'.scheduled = inner.scheduled)
    (hn : inner'.num_threads = inner.num_threads)
    (hq : inner'.queue.length ≤ inner.queue.length) (hp : promised us = promised ts)
    (ha : workers us = workers ts) : Reservations inner' us := by
  obtain ⟨h1, h2, h3⟩ := h
  constructor
  · rw [hs, hp, active, ha]; exact h1
  · rw [hs, hn]; exact h2
  · rw [hn, hp, active, ha]
    exact le_trans (min_le_min_right _ hq) h3

/-- `admit` promises as many closures as it has queued tasks or free reservations for. -/
theorem admitJob (h : Reservations st.inner ts) (hl : ∃ tr, Ledger tr st ts) {bits : ℕ}
    {accept : Exit} {job : J} {outcome : AdmitOutcome}
    (ha : st.admitJob bits accept job = (outcome, st')) :
    Reservations st'.inner (afterAdmit outcome + ts) := by
  obtain ⟨tr, hl⟩ := hl
  cases RayonExecutorServiceState.admitJob_cases ha with
  | shutdown | saturated | exhausted => simpa using h
  | unwound => exact h.silent rfl rfl le_rfl (by simp) (by simp)
  | accepted _ _ _ hcount =>
    have hlen : (st.inner.queue.insert st.inner.next_task_id job).length =
        st.inner.queue.length + 1 := OrderedMap.length_insert job hl.next_not_mem
    -- the count fills up to the queue's length or to the last free reservation
    obtain ⟨h1, h2, h3⟩ := h
    rw [hlen] at hcount
    constructor <;>
      simp only [afterAdmit_ok, across_add, across_singleton, Control.promises, Control.working,
        zero_add, active, promised, workers, hlen] at * <;> omega

/-- `take_next` turns a promised closure into a worker, or gives its reservation back. -/
theorem takeNext (h : Reservations st.inner (⟨.none, .closure⟩ ::ₘ ts))
    {taken : Option (ℕ × J)} {changes : AsyncChanges}
    (hs : st.takeNext = ⟨taken, changes, st'⟩) :
    Reservations st'.inner ({⟨changes, afterTake taken⟩} + ts) := by
  obtain ⟨h1, h2, h3⟩ := h
  simp only [active, promised, across_cons, Control.promises, Control.working, zero_add]
    at h1 h2 h3
  cases RayonExecutorServiceState.takeNext_cases hs with
  | idle hinner hq =>
    subst hinner
    -- nothing is queued, so conservation asks for no closure
    constructor <;>
      simp only [RayonExecutorServiceState.notifiedWith_inner, active, promised, across_add,
        across_singleton, afterTake, Control.promises, Control.working, zero_add] <;> omega
  | @taken task_id job queue hp =>
    -- one promise less, and one queued task less
    have hlen : st.inner.queue.length = queue.length + 1 := OrderedMap.length_of_popFirst hp
    constructor <;>
      simp only [active, promised, across_add, across_singleton, afterTake, Control.promises,
        Control.working, Multiset.card_add, Multiset.card_singleton, zero_add] <;> omega

/-- `finish_running` hands the worker's reservation to a successor, or gives it back. -/
theorem finishRunning {task_id : ℕ} (h : Reservations st.inner (⟨.none, .running task_id⟩ ::ₘ ts))
    {dispatch : Bool} {changes : AsyncChanges}
    (hs : st.finishRunning task_id = ⟨dispatch, changes, st'⟩) :
    Reservations st'.inner ({⟨changes, afterFinish dispatch⟩} + ts) := by
  obtain ⟨h1, h2, h3⟩ := h
  simp only [active, promised, across_cons, Control.promises, Control.working, Multiset.card_add,
    Multiset.card_singleton, zero_add] at h1 h2 h3
  obtain ⟨inner, scheduled, rfl, hd, -, rfl⟩ := RayonExecutorServiceState.finishRunning_cases hs
  rcases hd with ⟨rfl, hq, rfl⟩ | ⟨rfl, hq, rfl⟩
  · -- the reservation is now the successor's
    constructor <;>
      simp only [RayonExecutorServiceState.notifiedWith_inner, active, promised, across_add,
        across_singleton, afterFinish, Control.promises, Control.working, if_true, zero_add] <;>
      omega
  · -- nothing is queued
    constructor <;>
      simp only [RayonExecutorServiceState.notifiedWith_inner, active, promised, across_add,
        across_singleton, afterFinish, Control.promises, Control.working, Bool.false_eq_true,
        if_false, zero_add] <;> omega

/-- The first action of an operation keeps the account. -/
theorem call (h : Reservations st.inner ts) (hl : ∃ tr, Ledger tr st ts) {bits : ℕ}
    {e : Event W J} (hc : Call bits st e st' new) : Reservations st'.inner (new + ts) := by
  cases hc with
  | admitJob ha => exact h.admitJob hl ha
  | cancel hc =>
    cases RayonExecutorServiceState.cancelPendingTask_cases hc with
    | @owned job queue hr =>
      -- a shorter queue needs no more closures
      have hlen : st.inner.queue.length = queue.length + 1 := OrderedMap.length_of_remove hr
      exact h.silent rfl rfl (by simp [hlen]) (by simp) (by simp)
    | inProgress | absent => exact h.silent rfl rfl le_rfl (by simp) (by simp)
  | stop hs =>
    obtain ⟨inner, cancelling, rfl, -, -, -, -, rfl⟩ := RayonExecutorServiceState.stop_cases hs
    exact h.silent (by simp) (by simp) (by simp) (by simp) (by simp)
  | shutdown hs =>
    obtain ⟨inner, lifecycle, rfl, -, -, rfl⟩ := RayonExecutorServiceState.shutdown_cases hs
    exact h.silent (by simp) (by simp) (by simp) (by simp) (by simp)
  | subscribeTermination | capacityChanges | lifecycle | stats | isNotRunning =>
    exact h.silent rfl rfl le_rfl (by simp) (by simp)

/-- Every action of a thread keeps the account. -/
theorem action {t : Thread W J} (h : Reservations st.inner (t ::ₘ ts)) {e : Event W J}
    (ha : Action t st e st' new) : Reservations st'.inner (new + ts) := by
  cases ha with
  | takeNext hs => exact h.takeNext hs
  | finishRunning hs => exact h.finishRunning hs
  | spawn =>
    refine h.silent rfl rfl le_rfl ?_ (by simp)
    simp only [promised, Multiset.insert_eq_cons, Multiset.cons_add, across_cons, across_singleton,
      across_add, Control.promises]
    omega
  | finishCancelling hs =>
    obtain ⟨inner, rfl, -, rfl⟩ := RayonExecutorServiceState.finishCancelling_cases hs
    exact h.silent (by simp) (by simp) (by simp) (by simp) (by simp)
  | isRunningTask =>
    refine h.silent rfl rfl le_rfl ?_ ?_ <;> split_ifs <;> simp
  | _ => exact h.silent rfl rfl le_rfl (by simp) (by simp)

end Reservations

/-- The account of reservations is right in every reachable state. -/
theorem Service.Run.reservations {cfg : Config} {tr : List (Event W J)} {s : Service W J}
    (h : Service.Run cfg tr s) : Reservations s.shared.inner s.threads :=
  Pool.invariant (P := fun _ st ts => Reservations st.inner ts)
    ⟨rfl, Nat.zero_le _, Nat.zero_le _⟩
    (fun {tr x ts _ _ _} (hr : Service.Run cfg tr ⟨x, ts⟩) h hc => h.call ⟨_, hr.ledger⟩ hc)
    (fun _ h ha => h.action ha) h

/-! ## Work conservation -/

/-- No dispatch is lost: the promised closures suffice for the queued tasks or for the threads
without a worker. So a queued task always has a promised closure or an active worker ahead of it,
and every queued task has a promised closure of its own while a reservation is free. -/
theorem work_conservation {cfg : Config} {tr : List (Event W J)} {s : Service W J}
    (h : Service.Run cfg tr s) (hn : 1 ≤ cfg.num_threads) :
    min s.shared.inner.queue.length (cfg.num_threads - active s.threads) ≤ promised s.threads ∧
      (s.shared.inner.queue.length ≠ 0 → 0 < promised s.threads ∨ 0 < active s.threads) ∧
      (s.shared.inner.scheduled < cfg.num_threads →
        s.shared.inner.queue.length ≤ promised s.threads) := by
  obtain ⟨h1, h2, h3⟩ := h.reservations
  rw [h.config.2] at h2 h3
  refine ⟨h3, fun hq => ?_, fun hfree => ?_⟩
  · by_contra hnone
    omega
  · omega

/-- A service with room for two tasks and two workers. -/
def tinyWide : Config := { tinyConfig with num_threads := 2, num_threads_lt := by decide }

/-- The wide service while a job is queued and its closure is promised. -/
def tinyPromised : Service Watch.versioned ℕ :=
  ⟨((RayonExecutorServiceState.new Watch.versioned ℕ 2 2).admitJob 64 .returned 7).2,
    {⟨.none, .dispatching 1 (.submitted 0)⟩}⟩

/-- The job has been accepted, and nothing else has happened. -/
theorem tinyPromised_run : Service.Run tinyWide [.admitJob 7 (.ok ⟨0, 1⟩)] tinyPromised :=
  have ha : (RayonExecutorServiceState.new Watch.versioned ℕ 2 2).admitJob 64 .returned 7 =
      (.ok ⟨0, 1⟩, tinyPromised.shared) := rfl
  .step .init (.first (.admitJob ha))

/-- In the wide service the queued job has a closure of its own, while a reservation is free. -/
theorem work_conservation_tiny :
    (tinyPromised.shared.inner.queue.length = 1 ∧ tinyPromised.shared.inner.scheduled = 1) ∧
    min tinyPromised.shared.inner.queue.length (tinyWide.num_threads - active tinyPromised.threads)
      ≤ promised tinyPromised.threads ∧
    (tinyPromised.shared.inner.queue.length ≠ 0 →
      0 < promised tinyPromised.threads ∨ 0 < active tinyPromised.threads) ∧
    (tinyPromised.shared.inner.scheduled < tinyWide.num_threads →
      tinyPromised.shared.inner.queue.length ≤ promised tinyPromised.threads) :=
  ⟨by decide, work_conservation tinyPromised_run (by decide)⟩

/-! ## Exact reservations -/

/-- The closures of this service that Rayon holds for work: spawned ones, until their worker has
given its reservation away. -/
def Control.outstanding : Control W J → ℕ
  | .closure | .claimed _ _ | .running _ => 1
  | _ => 0

/-- A closure in Rayon is a promised closure or an active worker. -/
theorem Control.outstanding_le (c : Control W J) :
    c.outstanding ≤ c.promises + c.working.card := by
  cases c <;> simp [Control.outstanding]

/-- The closures in Rayon are at most the promised closures and the active workers. -/
theorem outstanding_le (ts : Multiset (Thread W J)) :
    across Control.outstanding ts ≤ promised ts + active ts := by
  calc across Control.outstanding ts
      ≤ across (fun c => c.promises + c.working.card) ts :=
        total_le_total (fun t => t.control.outstanding_le) ts
    _ = promised ts + across (fun c => c.working.card) ts := total_add_distrib _ _ ts
    _ = promised ts + active ts := by rw [active, workers, across, across, card_total]

/-- The worker-reservation accounting of a reachable state. -/
structure ReservationsExact (cfg : Config) (s : Service W J) : Prop where
  scheduled : s.shared.inner.scheduled = promised s.threads + active s.threads
  running : s.shared.inner.running = s.shared.inner.running_tasks.card ∧
    s.shared.inner.running = active s.threads
  bounds : s.shared.inner.running ≤ s.shared.inner.scheduled ∧
    s.shared.inner.scheduled ≤ cfg.num_threads
  /-- Rayon never holds more closures for work than there are threads. -/
  outstanding : across Control.outstanding s.threads ≤ cfg.num_threads
  /-- The assertion at the end of `admit` holds. -/
  debug_assert : ∀ accept job admission st',
    s.shared.admitJob cfg.bits accept job = (.ok admission, st') →
    st'.inner.scheduled ≤ st'.inner.num_threads
  /-- A closure that is about to execute `take_next` has a reservation to give back. -/
  takeNext_sub : ⟨.none, .closure⟩ ∈ s.threads → 0 < s.shared.inner.scheduled
  /-- A worker that is about to execute `finish_running` is counted, and has a reservation. -/
  finishRunning_sub : ∀ task_id, ⟨.none, .running task_id⟩ ∈ s.threads →
    0 < s.shared.inner.running ∧ 0 < s.shared.inner.scheduled

/-- The reservation counters are exact in every reachable state. -/
theorem reservations_exact {cfg : Config} {tr : List (Event W J)} {s : Service W J}
    (h : Service.Run cfg tr s) : ReservationsExact cfg s := by
  have hl := h.ledger
  have hr := h.reservations
  have hcfg := h.config
  have hrun : s.shared.inner.running = active s.threads := by
    rw [hl.running, active, ← hl.workers_eq, Finset.card_val]
  have hb : s.shared.inner.scheduled ≤ cfg.num_threads := hcfg.2 ▸ hr.bounded
  exact
    { scheduled := hr.exact
      running := ⟨hl.running, hrun⟩
      bounds := by
        refine ⟨?_, hb⟩
        rw [hrun, hr.exact]
        omega
      outstanding := by
        have := outstanding_le s.threads
        have := hr.exact
        omega
      debug_assert := fun accept job admission st' ha =>
        (hr.admitJob ⟨tr, hl⟩ ha).bounded
      takeNext_sub := by
        intro hm
        have : (1 : ℕ) ≤ promised s.threads := share_le_total (f := fun t => t.control.promises) hm
        have := hr.exact
        omega
      finishRunning_sub := by
        intro task_id hm
        have hmem : task_id ∈ workers s.threads :=
          mem_total (f := fun t => t.control.working) hm (Multiset.mem_singleton_self _)
        have : 0 < active s.threads := Multiset.card_pos_iff_exists_mem.2 ⟨_, hmem⟩
        have := hr.exact
        omega }

/-- In the first run the one reservation is the worker's. -/
theorem reservations_exact_tiny : ReservationsExact tinyConfig
    ⟨tinyTaken, {⟨.none, .claimed 0 7⟩, ⟨.none, .dispatching 0 (.submitted 0)⟩}⟩ :=
  reservations_exact tinyTaken_run

end RayonExecutor
