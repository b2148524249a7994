import RayonExecutor.Order

/-!
# Identifiers

A task is known to the service by a bare number that outlives it: handles keep it after the task is
gone, and the queue, the running set and the cancelling set are searched with it. What makes this
safe is that `admit` hands out every number at most once, up to the last one of its width, where it
unwinds. A task that has left the service (`Retired`) is in no container, and no later step is about
it, so its handle finds nothing and its slot stays what it is.
-/

namespace RayonExecutor

open Transition Pool

variable {W : Watch} {E : TaskEndpoint} {C T J : Type}

/-- The task has been finished by its worker or its canceller. -/
def Retired (tr : List (Event W J)) (id : ℕ) : Prop :=
  id ∈ tally Event.finishesRun tr ∨ id ∈ tally Event.finishesCancel tr

section
variable {cfg : Config} {tr : List (Event W J)} {s s' : Service W J} {e : Event W J} {id : ℕ}

/-- The next identifier grows by one where it still fits, or stays. -/
theorem Service.Step.next_task_id (h : Service.Step cfg s e s') :
    s'.shared.inner.next_task_id = s.shared.inner.next_task_id ∨
      s.shared.inner.next_task_id + 1 < 2^cfg.bits ∧
        s'.shared.inner.next_task_id = s.shared.inner.next_task_id + 1 := by
  rcases h with hc | ⟨⟨ha⟩⟩
  · cases hc with
    | admitJob ha =>
      cases RayonExecutorServiceState.admitJob_cases ha with
      | shutdown | saturated | exhausted => exact Or.inl rfl
      | unwound _ _ hid | accepted _ _ hid => exact Or.inr ⟨hid, rfl⟩
    | cancel hd =>
      cases RayonExecutorServiceState.cancelPendingTask_cases hd <;> exact Or.inl rfl
    | shutdown hs =>
      obtain ⟨_, _, rfl, -, -, rfl⟩ := RayonExecutorServiceState.shutdown_cases hs
      exact Or.inl (by simp)
    | stop hs =>
      obtain ⟨_, _, rfl, -, -, -, -, rfl⟩ := RayonExecutorServiceState.stop_cases hs
      exact Or.inl (by simp)
    | _ => exact Or.inl rfl
  · cases ha with
    | takeNext ht =>
      cases RayonExecutorServiceState.takeNext_cases ht with
      | idle hinner =>
        subst hinner
        exact Or.inl (by simp)
      | taken => exact Or.inl rfl
    | finishRunning hs =>
      obtain ⟨_, _, rfl, -, -, rfl⟩ := RayonExecutorServiceState.finishRunning_cases hs
      exact Or.inl (by simp)
    | finishCancelling hs =>
      obtain ⟨_, rfl, -, rfl⟩ := RayonExecutorServiceState.finishCancelling_cases hs
      exact Or.inl (by simp)
    | _ => exact Or.inl rfl

/-- The next identifier fits into its width. -/
theorem Service.Run.next_task_id_lt (h : Service.Run cfg tr s) :
    s.shared.inner.next_task_id < 2^cfg.bits := by
  refine h.invariant (P := fun _ s => s.shared.inner.next_task_id < 2^cfg.bits)
    (Nat.two_pow_pos _) ?_
  intro tr s e s' _ hlt hs
  rcases hs.next_task_id with heq | ⟨hnext, heq⟩
  · rwa [heq]
  · rwa [heq]

/-- A retired task is neither queued nor running nor being cancelled. -/
theorem Service.Run.not_held (h : Service.Run cfg tr s) (hid : Retired tr id) :
    id ∉ s.shared.inner.queue.keys ∧ id ∉ s.shared.inner.running_tasks ∧
      id ∉ s.shared.inner.cancelling := by
  -- the places of a task are summands of a multiset without duplicates
  have hn := h.ledger.nodup
  have hfin : id ∈ tally Event.finishesRun tr + tally Event.finishesCancel tr :=
    Multiset.mem_add.2 hid
  rw [h.ledger.ids, add_assoc, Multiset.nodup_add] at hn
  have hnot := Multiset.disjoint_right.1 hn.2.2 hfin
  simpa only [Multiset.mem_add, not_or, Finset.mem_val, and_assoc] using hnot

/-- The job of a retired task has been handed to `run` or to `cancel`. -/
theorem Service.Run.consumed_of_retired (h : Service.Run cfg tr s) (hid : Retired tr id) :
    id ∈ ran tr ∨ id ∈ cancelled tr := by
  refine hid.imp (fun hfin => ?_) fun hfin => h.cancelled_of_finished hfin
  rw [ran, h.consumption.runs]
  exact Multiset.mem_add.2 (Or.inr hfin)

/-- No step accepts, consumes or finishes a task that has retired before. -/
theorem Service.Run.not_touched (h : Service.Run cfg tr s) (h' : Service.Run cfg (e :: tr) s')
    (hid : Retired tr id) : id ∉ e.accepts.map Prod.fst ∧ id ∉ e.runs.map Prod.fst ∧
      id ∉ e.cancels.map Prod.fst ∧ id ∉ e.finishesRun := by
  have hconsumed := h.consumed_of_retired hid
  have hunconsumed : id ∉ e.runs.map Prod.fst + e.cancels.map Prod.fst := fun hm => by
    obtain ⟨hr, hc⟩ := Service.Run.unconsumed id h' hm
    exact hconsumed.elim hr hc
  rw [Multiset.mem_add, not_or] at hunconsumed
  refine ⟨fun hm => ?_, hunconsumed.1, hunconsumed.2, fun hm => ?_⟩
  · obtain ⟨hr, hc, -⟩ := h.fresh h' hm
    exact hconsumed.elim hr hc
  · -- otherwise the task would be finished twice
    have hn := h'.ledger.nodup
    rw [h'.ledger.ids, tally_cons, tally_cons, add_assoc, Multiset.nodup_add] at hn
    have heq : e.finishesRun + tally Event.finishesRun tr +
        (e.finishesCancel + tally Event.finishesCancel tr) = e.finishesRun + e.finishesCancel +
          (tally Event.finishesRun tr + tally Event.finishesCancel tr) := by abel
    have hn' := hn.2.1
    rw [heq, Multiset.nodup_add] at hn'
    exact Multiset.disjoint_left.1 hn'.2.2 (Multiset.mem_add.2 (Or.inl hm))
      (Multiset.mem_add.2 hid)

end

/-! ## Slots and handles of retired tasks -/

section
variable {cfg : Config} {tr : List (TrackedEvent W C T)} {t t' : Tracked W E C T}
  {e : TrackedEvent W C T} {id : ℕ}

/-- An event that is not about a task leaves its slot as it is. -/
theorem Tracked.Step.slots_eq (hs : Tracked.Step cfg t e t') (hr : Tracked.Run cfg tr t)
    (hid : id ∉ e.touches) : t'.slots id = t.slots id := by
  cases hs with
  | @service e s' hs ha =>
    simp only [TrackedEvent.touches, Multiset.mem_add, not_or] at hid
    obtain ⟨⟨⟨hacc, -⟩, hcan⟩, -⟩ := hid
    show Tracked.slotsAfter t.slots e id = t.slots id
    cases e with
    | admitJob job outcome =>
      rcases job with task | task <;> rcases outcome with ⟨task_id, count⟩ | error | panic
      · exact Function.update_of_ne (fun heq => hacc (by simp [heq])) _ _
      all_goals rfl
    | cancel task_id job =>
      cases job with
      | callable task => exact Function.update_of_ne (fun heq => hcan (by simp [heq])) _ _
      | runnable task => rfl
    | fallback task_id result =>
      rw [(Tracked.Run.agreement hr).slotsAfter_fallback hr.core hs.fallback_mem]
    | _ => rfl
  | invoke | publish =>
    exact Function.update_of_ne (fun heq => hid (Multiset.mem_singleton.2 heq)) _ _

/-- No event is about a task that has retired before. -/
theorem Retired.not_touched (hid : Retired (core tr) id) (h : Tracked.Run cfg tr t)
    (hs : Tracked.Step cfg t e t') : id ∉ e.touches := by
  have hr := h.core
  cases hs with
  | service hs ha =>
    obtain ⟨hacc, hrun, hcan, hfin⟩ := hr.not_touched (hr.step hs) hid
    simp only [TrackedEvent.touches, Multiset.mem_add, not_or]
    exact ⟨⟨⟨hacc, hrun⟩, hcan⟩, hfin⟩
  | @invoke task_id _ ht | @publish task_id _ _ ht =>
    -- the runner works on tasks that their workers still hold
    have hmem : task_id ∈ t.service.shared.inner.running_tasks := by
      rw [Finset.mem_def, hr.ledger.workers_eq]
      exact mem_total (f := fun th => th.control.working) ht (Multiset.mem_singleton_self _)
    exact fun hm => (hr.not_held hid).2.1 (Multiset.mem_singleton.1 hm ▸ hmem)

/-- A retired task stays retired. -/
theorem Retired.cons (h : Retired (core tr) id) : Retired (core (e :: tr)) id :=
  h.imp (mem_tally_core_cons e) (mem_tally_core_cons e)

/-- The slot of a retired task is never changed again. -/
theorem Retired.slots_eq (hid : Retired (core tr) id) (h : Tracked.Run cfg tr t)
    {es : List (TrackedEvent W C T)} (hp : Path (Tracked.Step cfg) t es t') :
    t'.slots id = t.slots id ∧ Retired (core (es.reverse ++ tr)) id := by
  induction hp generalizing tr with
  | nil => exact ⟨rfl, hid⟩
  | @cons t e t1 es t' hs _ ih =>
    obtain ⟨hslots, hid'⟩ := ih hid.cons (h.step hs)
    refine ⟨hslots.trans (hs.slots_eq h (hid.not_touched h hs)), ?_⟩
    simpa using hid'

/-- A task with a handle was accepted. -/
theorem Agreement.accepted_of_handle (ha : Agreement tr t) (hid : id ∈ t.handles) :
    id ∈ accepted (core tr) := by
  obtain ⟨task, hacc⟩ := (ha.slots id).known.1 (ha.handles id hid)
  exact Multiset.mem_map_of_mem Prod.fst hacc

/-- An unwinding submission uses up an identifier at most. -/
theorem Tracked.Step.eq_of_unwound {job : QueuedJob C T} {panic : AdmitPanic}
    (hs : Tracked.Step cfg t (.service (.admitJob job (.unwind panic))) t')
    (hlt : t.service.shared.inner.next_task_id < 2^cfg.bits) : ∃ next_task_id,
      t.service.shared.inner.next_task_id ≤ next_task_id ∧ next_task_id < 2^cfg.bits ∧
      t' = { t with service := ⟨{ t.service.shared with inner :=
        { t.service.shared.inner with next_task_id := next_task_id } }, t.service.threads⟩ } := by
  obtain ⟨⟨shared, threads⟩, slots, handles⟩ := t
  cases hs with
  | service hs ha =>
    have hslots : Tracked.slotsAfter slots
        (.admitJob job (.unwind panic) : Event W (QueuedJob C T)) = slots := by
      cases job <;> rfl
    rcases hs with hc | ⟨⟨hact⟩⟩
    · cases hc with
      | admitJob hd =>
        cases RayonExecutorServiceState.admitJob_cases hd with
        | exhausted => exact ⟨_, le_rfl, hlt, by simp [hslots, Tracked.handlesAfter]⟩
        | unwound _ _ hid =>
          exact ⟨_, Nat.le_succ _, hid, by simp [hslots, Tracked.handlesAfter]⟩
    · cases hact

end

/-! ## Freshness -/

/-- Identifiers are fresh, after the history `tr` and in the state `t`. -/
structure FreshIdentifiers (cfg : Config) (tr : List (TrackedEvent W C T))
    (t : Tracked W E C T) : Prop where
  width : t.service.shared.inner.next_task_id < 2^cfg.bits
  /-- Every identifier in a container or a handle is below the next one. -/
  below : ∀ id, id ∈ t.service.shared.inner.queue.keys ∨
    id ∈ t.service.shared.inner.running_tasks ∨ id ∈ t.service.shared.inner.cancelling ∨
    id ∈ t.handles → id < t.service.shared.inner.next_task_id
  increasing : ∀ a b, Before (Event.Accepts a) (Event.Accepts b) (core tr) → a < b
  distinct : (accepted (core tr)).Nodup
  /-- The insertion of `admit` replaces no job. -/
  inserts : ∀ job, t.service.shared.inner.next_task_id ∉ t.service.shared.inner.queue.keys ∧
    (t.service.shared.inner.queue.insert t.service.shared.inner.next_task_id job).toMultiset =
      (t.service.shared.inner.next_task_id, job) ::ₘ t.service.shared.inner.queue.toMultiset
  /-- A claim gives the job that was accepted under the identifier, the only one. -/
  claimed : ∀ id job st', t.service.shared.cancelPendingTask id = (.owned job, st') →
    (id, job) ∈ tally Event.accepts (core tr) ∧
      ∀ job', (id, job') ∈ tally Event.accepts (core tr) → job' = job
  /-- From its retirement on, nothing is claimed or running under a task's identifier, and its slot
  stays what it is. -/
  retired : ∀ id, Retired (core tr) id → ∀ es t', Path (Tracked.Step cfg) t es t' →
    t'.service.shared.cancelPendingTask id = (.absent, t'.service.shared) ∧
      t'.service.shared.isRunningTask id = false ∧ t'.slots id = t.slots id
  /-- At the last identifier an admission that passes the other checks unwinds, with no effect. -/
  exhausted : t.service.shared.inner.next_task_id + 1 = 2^cfg.bits → ∀ accept job,
    t.service.shared.admitJob cfg.bits accept job =
      (if t.service.shared.inner.lifecycle ≠ .running then .err .shutdown
        else if t.service.shared.inner.occupied ≥ t.service.shared.inner.task_capacity then
          .err .saturated
        else .unwind .taskIdExhausted, t.service.shared)
  /-- An unwinding admission changes nothing but the next identifier. -/
  unwound : ∀ job panic t', Tracked.Step cfg t (.service (.admitJob job (.unwind panic))) t' →
    ∃ next_task_id, t.service.shared.inner.next_task_id ≤ next_task_id ∧
      next_task_id < 2^cfg.bits ∧ t' = { t with service := ⟨{ t.service.shared with inner :=
        { t.service.shared.inner with next_task_id := next_task_id } }, t.service.threads⟩ }
  /-- After it, every continuation by internal steps still ends, and where one goes to the end the
  queued tasks have been run and the service has drained. -/
  usable : 1 ≤ cfg.num_threads → ∀ job panic t',
    Tracked.Step cfg t (.service (.admitJob job (.unwind panic))) t' →
    ∀ es s', Service.Internal t'.service es s' → es.length ≤ t'.service.fuel ∧
      (s'.Stuck → Drained s'.shared.inner ∧
        ∀ id job, (id, job) ∈ t.service.shared.inner.queue.toMultiset →
          .run id job ∈ es ∧ ∃ dispatch, .finishRunning id dispatch ∈ es)

/-- Identifiers are fresh in every reachable state. -/
theorem fresh_identifiers {cfg : Config} {tr : List (TrackedEvent W C T)} {t : Tracked W E C T}
    (h : Tracked.Run cfg tr t) : FreshIdentifiers cfg tr t := by
  have hr := h.core
  have hl := hr.ledger
  have hlt := hr.next_task_id_lt
  constructor
  · exact hlt
  · intro id hid
    refine hl.fresh id ?_
    rcases hid with hid | hid | hid | hid
    · exact hr.accepted_of_queued hid
    · rw [hl.ids]
      simp [hid]
    · rw [hl.ids]
      simp [hid]
    · exact (Tracked.Run.agreement h).accepted_of_handle hid
  · exact fun a b hab => hr.ordered.accepts hab
  · exact hl.nodup
  · exact fun job => ⟨hl.next_not_mem, OrderedMap.toMultiset_insert job hl.next_not_mem⟩
  · intro id job st' hc
    cases RayonExecutorServiceState.cancelPendingTask_cases hc with
    | owned hrem =>
      -- a queued job is there because it was accepted
      have hacc : (id, job) ∈ tally Event.accepts (core tr) := by
        rw [hl.jobs, OrderedMap.toMultiset_of_remove hrem]
        simp
      exact ⟨hacc, fun job' hacc' => hr.job_unique hacc' hacc⟩
  · intro id hid es t' hp
    obtain ⟨hslots, hid'⟩ := hid.slots_eq h hp
    obtain ⟨hq, hrun, hcan⟩ := (Tracked.Run.core (h.append hp)).not_held hid'
    refine ⟨?_, decide_eq_false hrun, hslots⟩
    unfold RayonExecutorServiceState.cancelPendingTask
    simp only [OrderedMap.remove_eq_none.2 hq, if_neg hcan]
  · intro hlast accept job
    unfold RayonExecutorServiceState.admitJob checkedAdd
    dsimp only
    rw [if_neg (by omega : ¬ t.service.shared.inner.next_task_id + 1 < 2^cfg.bits)]
    split_ifs <;> rfl
  · exact fun job panic t' hs => hs.eq_of_unwound hlt
  · intro hn job panic t' hs es s' hp
    have hr' := Tracked.Run.core (h.step hs)
    refine ⟨?_, fun hstuck => ⟨?_, fun id job' hq => ?_⟩⟩
    · have := Path.length_le (μ := Service.fuel) Service.fuel_lt hp
      omega
    · exact Service.Run.drained (hr'.append (hp.mono .act)) hn hstuck.threads
    · obtain ⟨_, -, -, rfl⟩ := hs.eq_of_unwound hlt
      exact (hr'.queued_run hn hp hstuck.threads hq).2

/-- In the run with a cancellation the identifiers are fresh. -/
theorem fresh_identifiers_tiny : FreshIdentifiers tinyConfig
    [.service (.cancel 0 (.callable 7)),
      .service (.cancelPendingTask .cancellationHandle 0 (.owned (.callable 7))),
      .service (.returned (.submitted 0)), .service .spawn,
      .service (.admitJob (.callable 7) (.ok ⟨0, 1⟩))]
    (⟨⟨tinyClaimed, {⟨.none, .cancelling 0 [] (.cancel .cancellationHandle 0 .cancelled)⟩,
      ⟨.none, .closure⟩}⟩, tinySlots, {0}⟩ : Tracked Watch.versioned .plain ℕ ℕ) :=
  fresh_identifiers tinyClaimed_run

end RayonExecutor
