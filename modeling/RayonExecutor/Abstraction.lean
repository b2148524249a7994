import RayonExecutor.Board
import RayonExecutor.Admission
import RayonExecutor.Progress
import RayonExecutor.Drain

/-!
# The service refines the board

The containers of the state and the hands of the threads, seen as a board (`Represents`): a task is
queued if the queue has it, taken or running if a worker is before or in `run`, and claimed or
cancelling if a canceller or a `stop` is before or in `cancel`. Each step of the service is one move
on the board, or none. So the capacity, the limit of the workers and the order of the queue are
those of the board, whatever the closures and the counters do, and every answer of the service is
one that the board gives.
-/

namespace RayonExecutor

open Transition Pool

variable {W : Watch} {J : Type}

/-! ## The relation -/

/-- The jobs that a canceller or a `stop` has claimed and not cancelled. -/
@[simp] def Control.uncancelled : Control W J → Multiset (ℕ × J)
  | .cleanup jobs _ => jobs
  | .cancelling _ jobs _ => jobs
  | _ => 0

/-- Where the tasks of the board are in the service. -/
structure Represents (st : RayonExecutorServiceState W J) (ts : Multiset (Thread W J))
    (b : Board J) : Prop where
  queue : b.queue = st.inner.queue.toMultiset
  taken : b.those Phase.taken? = across Control.unrun ts
  running : (b.those Phase.running?).map Prod.fst = across Control.inRun ts
  claimed : b.those Phase.claimed? = across Control.uncancelled ts
  cancelling : (b.those Phase.cancelling?).map Prod.fst = across Control.inCancel ts
  closed : b.closed = true ↔ st.inner.lifecycle ≠ .running
  fresh : ∀ t ∈ b.tasks, t.1 < st.inner.next_task_id

/-- The move on the board that an event is, if it is one. -/
def Event.move? : Event W J → Option (Move J)
  | .admitJob job (.ok admission) => some (.accept admission.task_id job)
  | .cancelPendingTask _ task_id (.owned job) => some (.advance task_id (.claim job))
  | .shutdown => some .close
  | .stop _ jobs => some (.stop jobs)
  | .takeNext (some (task_id, job)) => some (.take task_id job)
  | .run task_id job => some (.advance task_id (.run job))
  | .finishRunning task_id _ => some (.advance task_id .finish)
  | .cancel task_id job => some (.advance task_id (.cancel job))
  | .finishCancelling task_id => some (.advance task_id .leave)
  | _ => none

/-- A worker is before or in `run`. -/
theorem workers_eq (ts : Multiset (Thread W J)) :
    workers ts = (across Control.unrun ts).map Prod.fst + across Control.inRun ts := by
  rw [across, across, map_total, ← total_add_distrib, workers, across]
  congr 1
  funext t
  cases t.control <;> simp

/-- A canceller is before or in `cancel`. -/
theorem cleaners_eq (ts : Multiset (Thread W J)) :
    cleaners ts = (across Control.uncancelled ts).map Prod.fst + across Control.inCancel ts := by
  rw [across, across, map_total, ← total_add_distrib, cleaners, across]
  congr 1
  funext t
  cases t.control <;> simp [← Multiset.singleton_add, add_comm]

namespace Represents

variable {st st' : RayonExecutorServiceState W J} {ts us new : Multiset (Thread W J)} {b : Board J}

/-- A task is queued on the board if the queue of the service has it. -/
theorem mem_queue (h : Represents st ts b) {id : ℕ} {job : J} :
    (id, .queued job) ∈ b.tasks ↔ (id, job) ∈ st.inner.queue.toMultiset := by
  rw [← h.queue, Board.mem_queue]

theorem mem_taken (h : Represents st ts b) {id : ℕ} {job : J} :
    (id, .taken job) ∈ b.tasks ↔ (id, job) ∈ across Control.unrun ts := by
  rw [← h.taken, Board.mem_those .taken]

theorem mem_running (h : Represents st ts b) {id : ℕ} :
    (∃ job, (id, .running job) ∈ b.tasks) ↔ id ∈ across Control.inRun ts := by
  rw [← h.running, Multiset.mem_map]
  simp [← Board.mem_those .running]

theorem mem_claimed (h : Represents st ts b) {id : ℕ} {job : J} :
    (id, .claimed job) ∈ b.tasks ↔ (id, job) ∈ across Control.uncancelled ts := by
  rw [← h.claimed, Board.mem_those .claimed]

theorem mem_cancelling (h : Represents st ts b) {id : ℕ} :
    (∃ job, (id, .cancelling job) ∈ b.tasks) ↔ id ∈ across Control.inCancel ts := by
  rw [← h.cancelling, Multiset.mem_map]
  simp [← Board.mem_those .cancelling]

/-- The workers of the board are those of the service. -/
theorem busy (h : Represents st ts b) : b.busy = active ts := by
  rw [b.busy_eq, h.taken, ← Multiset.card_map Prod.fst (b.those Phase.running?), h.running, active,
    workers_eq, Multiset.card_add, Multiset.card_map]

/-- The number of running tasks is the number of busy workers of the board. -/
theorem running_eq (h : Represents st ts b) {tr : List (Event W J)} (hl : Ledger tr st ts) :
    st.inner.running = b.busy := by
  rw [hl.running, h.busy, active, ← hl.workers_eq]
  rfl

/-- The board and the service have the same number of occupied slots. -/
theorem occupied (h : Represents st ts b) {tr : List (Event W J)} (hl : Ledger tr st ts) :
    b.occupied = st.inner.occupied := by
  have hcancelling : st.inner.cancelling.card =
      (b.those Phase.claimed?).card + (b.those Phase.cancelling?).card := by
    rw [Finset.card_def, hl.cleaners_eq, cleaners_eq, Multiset.card_add, Multiset.card_map,
      h.claimed, ← Multiset.card_map Prod.fst (b.those Phase.cancelling?), h.cancelling]
  rw [b.occupied_eq, h.queue, RayonExecutorServiceInner.occupied, h.running_eq hl, hcancelling,
    OrderedMap.card_toMultiset]

/-- A step that moves no task. -/
theorem silent (h : Represents st ts b) (hq : st'.inner.queue = st.inner.queue)
    (hl : st'.inner.lifecycle ≠ .running ↔ st.inner.lifecycle ≠ .running)
    (hn : st.inner.next_task_id ≤ st'.inner.next_task_id)
    (htaken : across Control.unrun us = across Control.unrun ts)
    (hrunning : across Control.inRun us = across Control.inRun ts)
    (hclaimed : across Control.uncancelled us = across Control.uncancelled ts)
    (hcancelling : across Control.inCancel us = across Control.inCancel ts) :
    Represents st' us b where
  queue := by rw [hq, h.queue]
  taken := by rw [htaken, h.taken]
  running := by rw [hrunning, h.running]
  claimed := by rw [hclaimed, h.claimed]
  cancelling := by rw [hcancelling, h.cancelling]
  closed := h.closed.trans hl.symm
  fresh t ht := lt_of_lt_of_le (h.fresh t ht) hn

/-- A step in which one task goes on. -/
theorem replace {id : ℕ} {p p' : Phase J} {rest : Multiset (ℕ × Phase J)} {closed : Bool}
    (h : Represents st ts ⟨(id, p) ::ₘ rest, closed⟩)
    (hq : Board.count Phase.queued? id p' + st.inner.queue.toMultiset =
      Board.count Phase.queued? id p + st'.inner.queue.toMultiset)
    (hl : st'.inner.lifecycle = st.inner.lifecycle)
    (hn : st'.inner.next_task_id = st.inner.next_task_id)
    (htaken : Board.count Phase.taken? id p' + across Control.unrun ts =
      Board.count Phase.taken? id p + across Control.unrun us)
    (hrunning : (Board.count Phase.running? id p').map Prod.fst + across Control.inRun ts =
      (Board.count Phase.running? id p).map Prod.fst + across Control.inRun us)
    (hclaimed : Board.count Phase.claimed? id p' + across Control.uncancelled ts =
      Board.count Phase.claimed? id p + across Control.uncancelled us)
    (hcancelling : (Board.count Phase.cancelling? id p').map Prod.fst + across Control.inCancel ts =
      (Board.count Phase.cancelling? id p).map Prod.fst + across Control.inCancel us) :
    Represents st' us ⟨(id, p') ::ₘ rest, closed⟩ := by
  -- on both sides of each equation the share of the task is exchanged
  have hswap : ∀ {α : Type} {x x' y z z' : Multiset α}, x + y = z → x' + z = x + z' →
      x' + y = z' := by
    intro α x x' y z z' hz hz'
    refine add_left_cancel (a := x) ?_
    rw [← hz', ← hz]
    exact add_left_comm _ _ _
  obtain ⟨h1, h2, h3, h4, h5, h6, h7⟩ := h
  simp only [Board.queue, Board.those_cons, Multiset.map_add] at h1 h2 h3 h4 h5
  constructor
  · rw [Board.queue, Board.those_cons]
    exact hswap h1 hq
  · rw [Board.those_cons]
    exact hswap h2 htaken
  · rw [Board.those_cons, Multiset.map_add]
    exact hswap h3 hrunning
  · rw [Board.those_cons]
    exact hswap h4 hclaimed
  · rw [Board.those_cons, Multiset.map_add]
    exact hswap h5 hcancelling
  · rw [hl]
    exact h6
  · intro t ht
    rw [hn]
    rcases Multiset.mem_cons.1 ht with rfl | ht
    · exact h7 (id, p) (Multiset.mem_cons_self _ rest)
    · exact h7 t (Multiset.mem_cons_of_mem ht)

end Represents

/-! ## The simulation -/

/-- The board makes the move, or stays as it is when there is none. -/
def Board.Moved (capacity workers : ℕ) (b : Board J) : Option (Move J) → Board J → Prop
  | none, b' => b' = b
  | some m, b' => Board.Step capacity workers b m b'

section
variable {cfg : Config} {tr : List (Event W J)} {st st' : RayonExecutorServiceState W J}
  {ts new : Multiset (Thread W J)} {e : Event W J} {b : Board J}

/-- An accepted task comes to the board. -/
theorem Represents.accepted (h : Represents st ts b) (hl : Ledger tr st ts) {job : J} {count : ℕ} :
    Represents { st with inner := { st.inner with
        next_task_id := st.inner.next_task_id + 1
        queue := st.inner.queue.insert st.inner.next_task_id job
        scheduled := st.inner.scheduled + count } }
      (afterAdmit (.ok ⟨st.inner.next_task_id, count⟩) + ts)
      { b with tasks := (st.inner.next_task_id, .queued job) ::ₘ b.tasks } := by
  obtain ⟨tasks, closed⟩ := b
  obtain ⟨h1, h2, h3, h4, h5, h6, h7⟩ := h
  constructor
  · rw [Board.queue, Board.those_cons, OrderedMap.toMultiset_insert job hl.next_not_mem, ← h1]
    rfl
  · simpa [Board.those_cons, Board.count] using h2
  · simpa [Board.those_cons, Board.count] using h3
  · simpa [Board.those_cons, Board.count] using h4
  · simpa [Board.those_cons, Board.count] using h5
  · exact h6
  · intro t ht
    rcases Multiset.mem_cons.1 ht with rfl | ht
    · exact Nat.lt_succ_self _
    · exact lt_trans (h7 t ht) (Nat.lt_succ_self _)

/-- A `stop` claims all of the queue. -/
theorem Represents.stop (h : Represents st ts b) {report : StopReport} {jobs : List (ℕ × J)}
    {changes : AsyncChanges} (hs : st.stop = ⟨(report, jobs), changes, st'⟩) :
    Represents st' ({⟨changes, .cleanup jobs (.stop report)⟩} + ts)
      ⟨b.tasks.map fun t => (t.1, t.2.swept), true⟩ := by
  obtain ⟨inner, cancelling, rfl, -, rfl, -, -, rfl⟩ := RayonExecutorServiceState.stop_cases hs
  obtain ⟨tasks, closed⟩ := b
  obtain ⟨h1, h2, h3, h4, h5, h6, h7⟩ := h
  obtain ⟨hqueue, hclaimed⟩ := Board.those_swept tasks true closed
  constructor
  · simpa using hqueue
  · rw [Board.those_swept_of_eq (fun p => by cases p <;> rfl) tasks true closed, h2]
    simp
  · rw [Board.those_swept_of_eq (fun p => by cases p <;> rfl) tasks true closed, h3]
    simp
  · rw [hclaimed, h1, h4, across_add, across_singleton]
    rfl
  · rw [Board.those_swept_of_eq (fun p => by cases p <;> rfl) tasks true closed, h5]
    simp
  · simp
  · intro t ht
    obtain ⟨u, hu, rfl⟩ := Multiset.mem_map.1 ht
    simpa using h7 u hu

/-- The board follows the first action of an operation. -/
theorem Represents.call (h : Represents st ts b) (hl : Ledger tr st ts)
    (hcap : st.inner.task_capacity = cfg.task_capacity) (hc : Call cfg.bits st e st' new) :
    ∃ b', b.Moved cfg.task_capacity cfg.num_threads e.move? b' ∧
      Represents st' (new + ts) b' := by
  cases hc with
  | admitJob ha =>
    cases RayonExecutorServiceState.admitJob_cases ha with
    | shutdown | saturated | exhausted =>
      exact ⟨b, rfl, h.silent rfl Iff.rfl le_rfl (by simp) (by simp) (by simp) (by simp)⟩
    | unwound =>
      exact ⟨b, rfl, h.silent rfl Iff.rfl (Nat.le_succ _) (by simp) (by simp) (by simp) (by simp)⟩
    | accepted hrun hroom =>
      refine ⟨_, .accept ?_ ?_ h.fresh, h.accepted hl⟩
      · exact Bool.eq_false_iff.2 fun hclosed => h.closed.1 hclosed hrun
      · rw [h.occupied hl, ← hcap]
        exact hroom
  | @cancel _ endpoint task_id _ hd =>
    cases RayonExecutorServiceState.cancelPendingTask_cases hd with
    | @owned job queue hr =>
      have hq := OrderedMap.toMultiset_of_remove hr
      have hmem : (task_id, .queued job) ∈ b.tasks := by
        rw [h.mem_queue, hq]
        exact Multiset.mem_cons_self _ _
      obtain ⟨rest, closed, rfl⟩ := Board.exists_rest hmem
      refine ⟨_, .advance (.claim job), h.replace ?_ rfl rfl ?_ ?_ ?_ ?_⟩ <;>
        simp [Board.count, hq]
    | inProgress | absent =>
      exact ⟨b, rfl, h.silent rfl Iff.rfl le_rfl (by simp) (by simp) (by simp) (by simp)⟩
  | shutdown hs =>
    obtain ⟨inner, lifecycle, rfl, hlife, -, rfl⟩ := RayonExecutorServiceState.shutdown_cases hs
    refine ⟨_, .close, ?_⟩
    obtain ⟨h1, h2, h3, h4, h5, h6, h7⟩ := h
    refine ⟨h1.trans (by simp), h2.trans (by simp), h3.trans (by simp), h4.trans (by simp),
      h5.trans (by simp), ?_, by simpa using h7⟩
    rcases hlife with ⟨-, rfl⟩ | ⟨hnot, rfl⟩ <;> simp [*]
  | stop hs =>
    refine ⟨_, .stop ?_, h.stop hs⟩
    obtain ⟨inner, cancelling, -, -, rfl, -, -, -⟩ := RayonExecutorServiceState.stop_cases hs
    exact h.queue.symm
  | _ => exact ⟨b, rfl, h.silent rfl Iff.rfl le_rfl (by simp) (by simp) (by simp) (by simp)⟩

/-- A taken task is the first in the queue of the board, and a worker is free. -/
theorem Represents.take (h : Represents st (⟨.none, .closure⟩ ::ₘ ts) b)
    (hr : Reservations st.inner (⟨.none, .closure⟩ ::ₘ ts))
    (hn : st.inner.num_threads = cfg.num_threads) {task_id : ℕ} {job : J} {queue : OrderedMap ℕ J}
    (hp : st.inner.queue.popFirst = some ((task_id, job), queue)) :
    ∃ b', b.Moved cfg.task_capacity cfg.num_threads (some (.take task_id job)) b' ∧
      Represents { st with inner := { st.inner with
          queue := queue
          running := st.inner.running + 1
          running_tasks := insert task_id st.inner.running_tasks } }
        ({⟨.none, .claimed task_id job⟩} + ts) b' := by
  have hq := OrderedMap.toMultiset_of_popFirst hp
  have hfree : b.busy < cfg.num_threads := by
    -- the closure that takes the task has a reservation
    have hexact := hr.exact
    have hbounded := hr.bounded
    rw [promised, across_cons, Control.promises] at hexact
    rw [h.busy]
    omega
  have hmem : (task_id, .queued job) ∈ b.tasks := by
    rw [h.mem_queue, hq]
    exact Multiset.mem_cons_self _ _
  obtain ⟨rest, closed, rfl⟩ := Board.exists_rest hmem
  refine ⟨_, .take hfree fun e he => ?_, h.replace ?_ rfl rfl ?_ ?_ ?_ ?_⟩
  · have hrest := h.queue
    rw [Board.queue, Board.those_cons, hq, ← Multiset.singleton_add] at hrest
    rw [Board.queue, add_left_cancel hrest] at he
    exact OrderedMap.lt_of_popFirst hp (OrderedMap.mem_keys_of_mem he)
  all_goals simp [Board.count, hq]

/-- The board follows the actions of the threads. -/
theorem Represents.action {t : Thread W J} (h : Represents st (t ::ₘ ts) b)
    (hr : Reservations st.inner (t ::ₘ ts)) (hn : st.inner.num_threads = cfg.num_threads)
    (ha : Action t st e st' new) :
    ∃ b', b.Moved cfg.task_capacity cfg.num_threads e.move? b' ∧
      Represents st' (new + ts) b' := by
  cases ha with
  | takeNext hs =>
    cases RayonExecutorServiceState.takeNext_cases hs with
    | idle hinner =>
      subst hinner
      exact ⟨b, rfl, h.silent (by simp) (by simp) (by simp) (by simp) (by simp) (by simp)
        (by simp)⟩
    | taken hp => exact h.take hr hn hp
  | @run _ task_id job =>
    have hmem : (task_id, .taken job) ∈ b.tasks := by
      rw [h.mem_taken]
      simp
    obtain ⟨rest, closed, rfl⟩ := Board.exists_rest hmem
    refine ⟨_, .advance (.run job), h.replace rfl rfl rfl ?_ ?_ ?_ ?_⟩ <;> simp [Board.count]
  | @finishRunning _ _ task_id dispatch changes hs =>
    obtain ⟨job, hmem⟩ : ∃ job, (task_id, .running job) ∈ b.tasks := by
      rw [h.mem_running]
      simp
    obtain ⟨rest, closed, rfl⟩ := Board.exists_rest hmem
    obtain ⟨inner, scheduled, rfl, -, -, rfl⟩ := RayonExecutorServiceState.finishRunning_cases hs
    refine ⟨_, .advance (.finish job), h.replace ?_ ?_ ?_ ?_ ?_ ?_ ?_⟩ <;> simp [Board.count]
  | @cancel _ task_id job jobs ret =>
    have hmem : (task_id, .claimed job) ∈ b.tasks := by
      rw [h.mem_claimed]
      simp
    obtain ⟨rest, closed, rfl⟩ := Board.exists_rest hmem
    refine ⟨_, .advance (.cancel job), h.replace rfl rfl rfl ?_ ?_ ?_ ?_⟩ <;>
      simp [Board.count, ← Multiset.cons_coe]
  | @finishCancelling _ _ task_id jobs ret changes hs =>
    obtain ⟨job, hmem⟩ : ∃ job, (task_id, .cancelling job) ∈ b.tasks := by
      rw [h.mem_cancelling]
      simp
    obtain ⟨rest, closed, rfl⟩ := Board.exists_rest hmem
    obtain ⟨inner, rfl, -, rfl⟩ := RayonExecutorServiceState.finishCancelling_cases hs
    refine ⟨_, .advance (.leave job), h.replace ?_ ?_ ?_ ?_ ?_ ?_ ?_⟩ <;> simp [Board.count]
  | isRunningTask =>
    refine ⟨b, rfl, h.silent rfl Iff.rfl le_rfl ?_ ?_ ?_ ?_⟩ <;> split_ifs <;> simp
  | _ => exact ⟨b, rfl, h.silent rfl Iff.rfl le_rfl (by simp) (by simp) (by simp) (by simp)⟩

end

section
variable {cfg : Config} {tr : List (Event W J)} {s : Service W J} {b : Board J}

/-- The board follows every run of the service. -/
theorem Service.Run.exists_board (h : Service.Run cfg tr s) :
    ∃ b, Board.Run cfg.task_capacity cfg.num_threads (tr.filterMap Event.move?) b ∧
      Represents s.shared s.threads b := by
  have hmoved : ∀ {tr : List (Event W J)} {e : Event W J} {b b' : Board J},
      Board.Run cfg.task_capacity cfg.num_threads (tr.filterMap Event.move?) b →
      b.Moved cfg.task_capacity cfg.num_threads e.move? b' →
      Board.Run cfg.task_capacity cfg.num_threads ((e :: tr).filterMap Event.move?) b' := by
    intro tr e b b' hb hm
    cases he : e.move? with
    | none =>
      rw [he] at hm
      obtain rfl := hm
      rwa [List.filterMap_cons_none he]
    | some m =>
      rw [he] at hm
      rw [List.filterMap_cons_some he]
      exact .step hb hm
  refine Pool.invariant (P := fun tr st ts => ∃ b, Board.Run cfg.task_capacity cfg.num_threads
    (tr.filterMap Event.move?) b ∧ Represents st ts b) ?_ ?_ ?_ h
  · exact ⟨⟨0, false⟩, .init, by constructor <;> simp [Board.those, RayonExecutorServiceState.new]⟩
  · rintro tr st ts e st' new hr ⟨b, hb, hrep⟩ hc
    obtain ⟨b', hm, hrep'⟩ := hrep.call (Service.Run.ledger hr) (Service.Run.config hr).1 hc
    exact ⟨b', hmoved hb hm, hrep'⟩
  · rintro tr st t ts e st' new hr ⟨b, hb, hrep⟩ ha
    obtain ⟨b', hm, hrep'⟩ := hrep.action (Service.Run.reservations hr) (Service.Run.config hr).2 ha
    exact ⟨b', hmoved hb hm, hrep'⟩

/-! ## What the service answers -/

/-- The admission check is that of the board. -/
theorem Represents.admission (h : Represents s.shared s.threads b) (hr : Service.Run cfg tr s)
    {job : J} {outcome : AdmitOutcome} {s' : Service W J}
    (hs : Service.Step cfg s (.admitJob job outcome) s') :
    (outcome = .err .shutdown ↔ b.closed = true) ∧
      (outcome = .err .saturated ↔ b.closed = false ∧ b.occupied = cfg.task_capacity) := by
  have hocc := h.occupied hr.ledger
  have hle := hr.occupied_le
  have hcap := hr.config.1
  have hclosed := h.closed
  obtain ⟨st, ts⟩ := s
  dsimp only at hocc hle hcap hclosed
  rcases hs with hc | ⟨⟨ha⟩⟩
  · cases hc with
    | admitJob ha =>
      cases RayonExecutorServiceState.admitJob_cases ha with
      | shutdown hl => simp [hclosed.2 hl]
      | saturated hl ho =>
        have hfalse : b.closed = false := Bool.eq_false_iff.2 fun hc => hclosed.1 hc hl
        refine ⟨by simp [hfalse], iff_of_true rfl ⟨hfalse, ?_⟩⟩
        omega
      | exhausted hl ho | unwound hl ho | accepted hl ho =>
        have hfalse : b.closed = false := Bool.eq_false_iff.2 fun hc => hclosed.1 hc hl
        refine ⟨by simp [hfalse], iff_of_false (by simp) fun ⟨_, hfull⟩ => ?_⟩
        omega
  · cases ha

/-- The service runs what the workers of the board have. -/
theorem Represents.mem_running_tasks (h : Represents s.shared s.threads b)
    (hr : Service.Run cfg tr s) (id : ℕ) : id ∈ s.shared.inner.running_tasks ↔
      ∃ job, (id, .taken job) ∈ b.tasks ∨ (id, .running job) ∈ b.tasks := by
  rw [← Finset.mem_val, hr.ledger.workers_eq, workers_eq, Multiset.mem_add, ← h.mem_running,
    exists_or, Multiset.mem_map]
  simp [h.mem_taken]

/-- The cancelling tasks of the service are those that are claimed or cancelled on the board. -/
theorem Represents.mem_cancelling_tasks (h : Represents s.shared s.threads b)
    (hr : Service.Run cfg tr s) (id : ℕ) : id ∈ s.shared.inner.cancelling ↔
      ∃ job, (id, .claimed job) ∈ b.tasks ∨ (id, .cancelling job) ∈ b.tasks := by
  rw [← Finset.mem_val, hr.ledger.cleaners_eq, cleaners_eq, Multiset.mem_add, ← h.mem_cancelling,
    exists_or, Multiset.mem_map]
  simp [h.mem_claimed]

/-- A claim finds a task where the board has it. -/
theorem Represents.cancellation (h : Represents s.shared s.threads b) (hr : Service.Run cfg tr s)
    (hn : (b.tasks.map Prod.fst).Nodup) {endpoint : Endpoint} {id : ℕ}
    {disposition : CancelDisposition J} {s' : Service W J}
    (hs : Service.Step cfg s (.cancelPendingTask endpoint id disposition) s') :
    (∀ job, disposition = .owned job ↔ (id, .queued job) ∈ b.tasks) ∧
      (disposition = .inProgress ↔
        ∃ job, (id, .claimed job) ∈ b.tasks ∨ (id, .cancelling job) ∈ b.tasks) := by
  have hcancelling := h.mem_cancelling_tasks hr id
  have hqueue : ∀ {job}, (id, .queued job) ∈ b.tasks → id ∈ s.shared.inner.queue.keys :=
    fun hm => OrderedMap.mem_keys_of_mem (h.mem_queue.1 hm)
  obtain ⟨st, ts⟩ := s
  rcases hs with hc | ⟨⟨ha⟩⟩
  · cases hc with
    | cancel hd =>
      cases RayonExecutorServiceState.cancelPendingTask_cases hd with
      | @owned job queue hr =>
        have hmem : (id, .queued job) ∈ b.tasks := by
          rw [h.mem_queue, OrderedMap.toMultiset_of_remove hr]
          exact Multiset.mem_cons_self _ _
        -- a task is in one phase
        have honly : ∀ {p}, (id, p) ∈ b.tasks → p = .queued job := fun hp =>
          (Prod.mk.inj (Multiset.inj_on_of_nodup_map hn _ hp _ hmem rfl)).2
        refine ⟨fun job' => ⟨?_, fun hm => ?_⟩, iff_of_false (by simp) ?_⟩
        · rintro ⟨⟩
          exact hmem
        · rw [Phase.queued.inj (honly hm)]
        · rintro ⟨job', hm | hm⟩ <;> exact nomatch honly hm
      | inProgress hq hm =>
        exact ⟨fun job => iff_of_false (by simp) fun hm => hq (hqueue hm),
          iff_of_true rfl (hcancelling.1 hm)⟩
      | absent hq hm =>
        exact ⟨fun job => iff_of_false (by simp) fun hm => hq (hqueue hm),
          iff_of_false (by simp) fun hex => hm (hcancelling.2 hex)⟩
  · cases ha

/-- An event that the board does not see. -/
theorem Event.Unseen.move? {e : Event W J} (h : e.Unseen) : e.move? = none := by
  cases e <;> first | rfl | exact h.elim

/-- A task that may be taken is taken, with publications and closures before. -/
theorem Represents.exists_path_take (h : Represents s.shared s.threads b)
    (hr : Service.Run cfg tr s) {id : ℕ} {job : J} {b' : Board J}
    (hb : Board.Step cfg.task_capacity cfg.num_threads b (.take id job) b') :
    ∃ es s', Service.Internal s es s' ∧ es.filterMap Event.move? = [.take id job] := by
  have hqueue := h.queue
  have hbusy := h.busy
  cases hb with
  | take hfree hfirst =>
    rw [Board.queue, Board.those_cons] at hqueue
    have hmem : (id, job) ∈ s.shared.inner.queue.toMultiset := by
      rw [← hqueue]
      exact Multiset.mem_add.2 (.inl (Multiset.mem_singleton_self _))
    cases hp : s.shared.inner.queue.popFirst with
    | none =>
      have h0 : s.shared.inner.queue.toMultiset = 0 :=
        Multiset.card_eq_zero.1 (OrderedMap.popFirst_eq_none.1 hp)
      rw [h0] at hmem
      exact absurd hmem (Multiset.notMem_zero _)
    | some e =>
      obtain ⟨e, queue⟩ := e
      have hq := OrderedMap.toMultiset_of_popFirst hp
      -- the first of the queue is the task
      obtain rfl : e = (id, job) := by
        by_contra hne
        have hlt : e.1 < id := by
          rw [hq] at hmem
          have hrest := (Multiset.mem_cons.1 hmem).resolve_left (Ne.symm hne)
          exact OrderedMap.lt_of_popFirst hp (OrderedMap.mem_keys_of_mem hrest)
        have he : e ∈ s.shared.inner.queue.toMultiset := by
          rw [hq]
          exact Multiset.mem_cons_self _ _
        rw [← hqueue] at he
        refine absurd (hfirst e ((Multiset.mem_add.1 he).resolve_left fun hm => ?_)) hlt.asymm
        exact hne (Multiset.mem_singleton.1 hm)
      -- by work conservation a closure is on its way
      have hn : promised s.threads ≠ 0 := by
        have hconserved := hr.reservations.conserved
        have hlen := OrderedMap.length_of_popFirst hp
        rw [hr.config.2] at hconserved
        rw [hbusy] at hfree
        omega
      obtain ⟨es, s', hpath, hes, -⟩ := exists_path_takeNext hp hn
      refine ⟨_, s', hpath, ?_⟩
      rw [List.filterMap_append, List.filterMap_eq_nil_iff.2 fun e he => (hes e he).move?]
      rfl

/-- The service after the history `tr` and in the state `s` is the board `b`. -/
structure RefinesBoard (cfg : Config) (tr : List (Event W J)) (s : Service W J) (b : Board J) :
    Prop where
  /-- The history of the service, without what the board does not see, is one of the board. -/
  run : Board.Run cfg.task_capacity cfg.num_threads (tr.filterMap Event.move?) b
  represents : Represents s.shared s.threads b
  /-- A submission is rejected when the board is closed, and saturated when it is full. -/
  admission : ∀ job outcome s', Service.Step cfg s (.admitJob job outcome) s' →
    (outcome = .err .shutdown ↔ b.closed = true) ∧
      (outcome = .err .saturated ↔ b.closed = false ∧ b.occupied = cfg.task_capacity)
  /-- A cancel call owns what is queued, and finds in progress what is claimed and not left. -/
  cancellation : ∀ endpoint id disposition s',
    Service.Step cfg s (.cancelPendingTask endpoint id disposition) s' →
    (∀ job, disposition = .owned job ↔ (id, .queued job) ∈ b.tasks) ∧
      (disposition = .inProgress ↔
        ∃ job, (id, .claimed job) ∈ b.tasks ∨ (id, .cancelling job) ∈ b.tasks)
  /-- A task counts as running while a worker has it. -/
  isRunningTask : ∀ id answer s', Service.Step cfg s (.isRunningTask id answer) s' →
    (answer = true ↔ ∃ job, (id, .taken job) ∈ b.tasks ∨ (id, .running job) ∈ b.tasks)
  /-- The statistics count the tasks of the board. -/
  stats : ∀ stats s', Service.Step cfg s (.stats stats) s' →
    stats.task_capacity = cfg.task_capacity ∧ stats.queued = b.queue.card ∧
      stats.running = b.busy ∧ stats.queued + stats.running + stats.cancelling = b.occupied ∧
      (stats.lifecycle = .running ↔ b.closed = false) ∧
      (stats.lifecycle = .terminated ↔ b.closed = true ∧ b.occupied = 0)
  /-- Whenever the board lets a worker take a task, the service comes to it by itself. -/
  takes : ∀ id job b', Board.Step cfg.task_capacity cfg.num_threads b (.take id job) b' →
    ∃ es s', Service.Internal s es s' ∧ es.filterMap Event.move? = [.take id job]

/-- The statistics are those of the board. -/
theorem Represents.stats (h : Represents s.shared s.threads b) (hr : Service.Run cfg tr s)
    {stats : RayonExecutorServiceStats} {s' : Service W J}
    (hs : Service.Step cfg s (.stats stats) s') :
    stats.task_capacity = cfg.task_capacity ∧ stats.queued = b.queue.card ∧
      stats.running = b.busy ∧ stats.queued + stats.running + stats.cancelling = b.occupied ∧
      (stats.lifecycle = .running ↔ b.closed = false) ∧
      (stats.lifecycle = .terminated ↔ b.closed = true ∧ b.occupied = 0) := by
  have hstored := hr.stored
  have hterminated : s.shared.inner.Terminated ↔ b.closed = true ∧ b.occupied = 0 := by
    rw [h.closed, h.occupied hr.ledger]
    exact Iff.rfl
  obtain rfl : stats = s.shared.stats := by
    rcases hs with hc | ⟨⟨ha⟩⟩
    · cases hc
      rfl
    · cases ha
  refine ⟨hr.config.1, ?_, h.running_eq hr.ledger, (h.occupied hr.ledger).symm, ?_, ?_⟩
  · rw [h.queue]
    rfl
  · have hopen : b.closed = false ↔ s.shared.inner.lifecycle = .running := by
      rw [← Bool.not_eq_true, h.closed, not_not]
    rw [hopen, RayonExecutorServiceState.stats]
    split_ifs with ht
    · exact iff_of_false (by simp) ht.1
    · exact Iff.rfl
  · rw [← hterminated, RayonExecutorServiceState.stats]
    split_ifs with ht
    · exact iff_of_true rfl ht
    · exact iff_of_false hstored ht

/-- Every run of the service is one of a board, and the service answers as the board says. -/
theorem service_refines_board (h : Service.Run cfg tr s) : ∃ b, RefinesBoard cfg tr s b := by
  obtain ⟨b, hb, hrep⟩ := h.exists_board
  exact ⟨b,
    { run := hb
      represents := hrep
      admission := fun _ _ _ hs => hrep.admission h hs
      cancellation := fun _ _ _ _ hs => hrep.cancellation h (Board.Run.nodup hb) hs
      isRunningTask := by
        rintro id answer s' hs
        rw [← hrep.mem_running_tasks h]
        rcases hs with hc | ⟨⟨ha⟩⟩
        · cases hc
        · cases ha
          exact decide_eq_true_iff
      stats := fun _ _ hs => hrep.stats h hs
      takes := fun _ _ _ hs => hrep.exists_path_take h hs }⟩

/-- On the board of the first run the task is taken. -/
theorem service_refines_board_tiny : ∃ b,
    RefinesBoard tinyConfig [.takeNext (some (0, 7)), .spawn, .admitJob 7 (.ok ⟨0, 1⟩)]
      (⟨tinyTaken, {⟨.none, .claimed 0 7⟩, ⟨.none, .dispatching 0 (.submitted 0)⟩}⟩ :
        Service Watch.versioned ℕ) b := service_refines_board tinyTaken_run

/-! ## The life of a task -/

/-- What has happened to a task, latest first. -/
def taskHistory (id : ℕ) (tr : List (Event W J)) : List (Mark J) :=
  Board.history id (tr.filterMap Event.move?)

/-- The move of an event accepts what the event does. -/
theorem Event.move?_accepts (e : Event W J) :
    e.move?.elim 0 Move.accepts = e.accepts.map Prod.fst := by
  cases e with
  | admitJob job outcome => cases outcome <;> rfl
  | cancelPendingTask endpoint task_id disposition => cases disposition <;> rfl
  | takeNext taken => cases taken <;> rfl
  | _ => rfl

/-- The board accepts what the service accepts. -/
theorem tally_move_accepts (tr : List (Event W J)) :
    tally Move.accepts (tr.filterMap Event.move?) = accepted tr := by
  rw [tally_filterMap]
  induction tr with
  | nil => rfl
  | cons e tr ih => rw [tally_cons, accepted_cons, ih, e.move?_accepts]

/-- The jobs in the hands of the threads. -/
theorem held_eq (ts : Multiset (Thread W J)) :
    held ts = across Control.unrun ts + across Control.uncancelled ts := by
  rw [across, across, ← total_add_distrib, held, across]
  congr 1
  funext t
  cases t.control <;> simp

/-- The life of the task `id`, after the history `tr` and in the state `s`. -/
structure TaskLife (cfg : Config) (tr : List (Event W J)) (s : Service W J) (id : ℕ) : Prop where
  /-- Either nothing has happened to it, or it was accepted and lives one of two lives: it is taken,
  run and finished, or it is claimed, cancelled and left. -/
  life : taskHistory id tr = [] ∨ ∃ job : J,
    (taskHistory id tr).reverse <+: [.accept job, .take job, .run job, .finish] ∨
      (taskHistory id tr).reverse <+: [.accept job, .claim job, .cancel job, .leave]
  unaccepted : taskHistory id tr = [] ↔ id ∉ accepted tr
  /-- Where it is says how far it has come. -/
  queued : ∀ job, taskHistory id tr = [.accept job] ↔
    (id, job) ∈ s.shared.inner.queue.toMultiset
  running : id ∈ s.shared.inner.running_tasks ↔ ∃ job,
    taskHistory id tr = [.take job, .accept job] ∨
      taskHistory id tr = [.run job, .take job, .accept job]
  cancelling : id ∈ s.shared.inner.cancelling ↔ ∃ job,
    taskHistory id tr = [.claim job, .accept job] ∨
      taskHistory id tr = [.cancel job, .claim job, .accept job]
  /-- Who holds its job says so too. -/
  held : ∀ job, (id, job) ∈ held s.threads ↔
    taskHistory id tr = [.take job, .accept job] ∨ taskHistory id tr = [.claim job, .accept job]
  /-- When nobody is at work, its life is over. -/
  ended : s.threads = 0 → 1 ≤ cfg.num_threads → id ∈ accepted tr → ∃ job,
    taskHistory id tr = [.finish, .run job, .take job, .accept job] ∨
      taskHistory id tr = [.leave, .cancel job, .claim job, .accept job]

/-- Every task lives one life, step by step. -/
theorem task_life (h : Service.Run cfg tr s) (id : ℕ) : TaskLife cfg tr s id := by
  obtain ⟨b, hb, hrep⟩ := h.exists_board
  have htraced := Board.Run.traced hb
  have hiff : ∀ {p : Phase J}, taskHistory id tr = p.past ↔ (id, p) ∈ b.tasks := htraced.past_iff
  have haccepted : id ∈ accepted tr ↔ ∃ p, (id, p) ∈ b.tasks := by
    rw [← tally_move_accepts, ← Board.Run.accepted hb, Multiset.mem_map]
    simp
  refine
    { life := ?_
      unaccepted := ?_
      queued := fun job => hiff.trans hrep.mem_queue
      running := ?_
      cancelling := ?_
      held := ?_
      ended := ?_ }
  · by_cases hid : id ∈ accepted tr
    · obtain ⟨p, hp⟩ := haccepted.1 hid
      rw [hiff.2 hp]
      exact .inr p.past_reverse_prefix
    · refine .inl (htraced.unknown ?_)
      rwa [Board.Run.accepted hb, tally_move_accepts]
  · constructor
    · intro hnil hid
      obtain ⟨p, hp⟩ := haccepted.1 hid
      exact p.past_ne_nil ((hiff.2 hp).symm.trans hnil)
    · intro hid
      refine htraced.unknown ?_
      rwa [Board.Run.accepted hb, tally_move_accepts]
  · rw [hrep.mem_running_tasks h]
    exact exists_congr fun job => or_congr hiff.symm hiff.symm
  · rw [hrep.mem_cancelling_tasks h]
    exact exists_congr fun job => or_congr hiff.symm hiff.symm
  · intro job
    rw [held_eq, Multiset.mem_add, ← hrep.mem_taken, ← hrep.mem_claimed]
    exact or_congr hiff.symm hiff.symm
  · intro h0 hn hid
    have hdrained := h.drained hn h0
    have hrunning := hrep.mem_running_tasks h id
    have hcancelling := hrep.mem_cancelling_tasks h id
    have hqueue : s.shared.inner.queue.toMultiset = 0 := Multiset.card_eq_zero.1 hdrained.queue
    rw [hdrained.running_tasks] at hrunning
    rw [hdrained.cancelling] at hcancelling
    obtain ⟨p, hp⟩ := haccepted.1 hid
    cases p with
    | finished job => exact ⟨job, .inl (hiff.2 hp)⟩
    | cancelled job => exact ⟨job, .inr (hiff.2 hp)⟩
    | queued job =>
      rw [hrep.mem_queue, hqueue] at hp
      exact absurd hp (Multiset.notMem_zero _)
    | taken job => exact absurd (hrunning.2 ⟨job, .inl hp⟩) (Finset.notMem_empty id)
    | running job => exact absurd (hrunning.2 ⟨job, .inr hp⟩) (Finset.notMem_empty id)
    | claimed job => exact absurd (hcancelling.2 ⟨job, .inl hp⟩) (Finset.notMem_empty id)
    | cancelling job => exact absurd (hcancelling.2 ⟨job, .inr hp⟩) (Finset.notMem_empty id)

/-- The task of the first run has been taken. -/
theorem task_life_tiny :
    TaskLife tinyConfig [.takeNext (some (0, 7)), .spawn, .admitJob 7 (.ok ⟨0, 1⟩)]
      (⟨tinyTaken, {⟨.none, .claimed 0 7⟩, ⟨.none, .dispatching 0 (.submitted 0)⟩}⟩ :
        Service Watch.versioned ℕ) 0 := task_life tinyTaken_run 0

end

end RayonExecutor
