import RayonExecutor.Cancellation

/-!
# First in, first out

Identifiers are handed out in increasing order under the lock, and a worker takes the queued task
with the least one. So the order of acceptance, the order of identifiers and the order in which
workers take tasks are the same, whatever is removed from the queue in between: every task that was
ever taken is below every task that is still queued (`Ordered`), and removing tasks from the queue
cannot break that.
-/

namespace RayonExecutor

open Transition Pool

variable {W : Watch} {J : Type}

/-- The event is the critical section of `admit` that accepts the task. -/
def Event.Accepts (id : ℕ) (e : Event W J) : Prop :=
  ∃ job count, e = .admitJob job (.ok ⟨id, count⟩)

/-- In the event `take_next` returns the task to a worker. -/
def Event.Takes (id : ℕ) (e : Event W J) : Prop := ∃ job, e = .takeNext (some (id, job))

/-- An accepting event is one that the ledger counts. -/
theorem Event.accepts_iff {id : ℕ} {e : Event W J} :
    e.Accepts id ↔ id ∈ e.accepts.map Prod.fst := by
  constructor
  · rintro ⟨job, count, rfl⟩
    simp
  · intro h
    rcases e with ⟨job, ⟨task_id, count⟩ | _ | _⟩ | _ <;> simp at h
    exact ⟨job, count, by rw [h]⟩

/-- A taking event is one that the claims count. -/
theorem Event.takes_iff {id : ℕ} {e : Event W J} : e.Takes id ↔ id ∈ e.takes.map Prod.fst := by
  constructor
  · rintro ⟨job, rfl⟩
    simp
  · intro h
    obtain ⟨⟨_, job⟩, hm, rfl⟩ := Multiset.mem_map.1 h
    exact ⟨job, Event.eq_takeNext_of_mem hm⟩

/-- A task is accepted when an event of the history accepts it. -/
theorem exists_accepts_iff {id : ℕ} {tr : List (Event W J)} :
    (∃ e ∈ tr, e.Accepts id) ↔ id ∈ accepted tr := by
  simp only [Event.accepts_iff, accepted, Multiset.mem_map, mem_tally]
  grind

/-- A task is taken when an event of the history takes it. -/
theorem exists_takes_iff {id : ℕ} {tr : List (Event W J)} :
    (∃ e ∈ tr, e.Takes id) ↔ id ∈ taken tr := by
  simp only [Event.takes_iff, taken, Multiset.mem_map, mem_tally]
  grind

/-! ## What a step does to the queue -/

/-- A queued task was queued before the step or is accepted by it, under the next identifier. -/
theorem Service.Step.queued {cfg : Config} {s s' : Service W J} {e : Event W J}
    (h : Service.Step cfg s e s') {id : ℕ} (hid : id ∈ s'.shared.inner.queue.keys) :
    id ∈ s.shared.inner.queue.keys ∨ id = s.shared.inner.next_task_id ∧ e.Accepts id := by
  rcases h with hc | ⟨⟨ha⟩⟩
  · cases hc with
    | admitJob ha =>
      cases RayonExecutorServiceState.admitJob_cases ha with
      | shutdown | saturated | exhausted | unwound => exact Or.inl hid
      | accepted =>
        refine (OrderedMap.mem_keys_insert hid).symm.imp_right fun heq => ⟨heq, ?_⟩
        exact heq ▸ ⟨_, _, rfl⟩
    | cancel hd =>
      cases RayonExecutorServiceState.cancelPendingTask_cases hd with
      | owned hr => exact Or.inl (OrderedMap.mem_keys_of_remove hr hid)
      | inProgress | absent => exact Or.inl hid
    | shutdown hs =>
      obtain ⟨_, _, rfl, -, -, rfl⟩ := RayonExecutorServiceState.shutdown_cases hs
      exact Or.inl (by simpa using hid)
    | stop hs =>
      obtain ⟨_, _, rfl, -, -, -, -, rfl⟩ := RayonExecutorServiceState.stop_cases hs
      simp at hid
    | _ => exact Or.inl hid
  · cases ha with
    | takeNext ht =>
      cases RayonExecutorServiceState.takeNext_cases ht with
      | idle hinner =>
        subst hinner
        exact Or.inl (by simpa using hid)
      | taken hp => exact Or.inl (OrderedMap.mem_keys_of_popFirst hp hid)
    | finishRunning hs =>
      obtain ⟨_, _, rfl, -, -, rfl⟩ := RayonExecutorServiceState.finishRunning_cases hs
      exact Or.inl (by simpa using hid)
    | finishCancelling hs =>
      obtain ⟨_, rfl, -, rfl⟩ := RayonExecutorServiceState.finishCancelling_cases hs
      exact Or.inl (by simpa using hid)
    | _ => exact Or.inl hid

/-- A worker takes the queued task with the least identifier. -/
theorem Service.Step.takes_least {cfg : Config} {s s' : Service W J} {b : ℕ} {job : J}
    (h : Service.Step cfg s (.takeNext (some (b, job))) s') :
    b ∈ s.shared.inner.queue.keys ∧ (∀ k ∈ s'.shared.inner.queue.keys, b < k) ∧
      ∀ a ∈ s.shared.inner.queue.keys, a ≠ b → b < a := by
  rcases h with hc | ⟨⟨ha⟩⟩
  · cases hc
  · cases ha with
    | takeNext ht =>
      cases RayonExecutorServiceState.takeNext_cases ht with
      | taken hp =>
        have hkeys := OrderedMap.keys_of_popFirst hp
        refine ⟨by simp [hkeys], fun k hk => OrderedMap.lt_of_popFirst hp hk, fun a ha hne => ?_⟩
        rw [hkeys, Multiset.mem_cons] at ha
        exact OrderedMap.lt_of_popFirst hp (ha.resolve_left hne)

/-! ## The order of identifiers -/

/-- After the history `tr`, acceptance and taking have both followed the order of identifiers, and
what is queued comes after what was taken. -/
structure Ordered (tr : List (Event W J)) (s : Service W J) : Prop where
  accepts : ∀ {a b}, Before (Event.Accepts a) (Event.Accepts b) tr → a < b
  takes : ∀ {a b}, Before (Event.Takes a) (Event.Takes b) tr → a < b
  queued : ∀ {a k}, a ∈ taken tr → k ∈ s.shared.inner.queue.keys → a < k

/-- An accepting event accepts one task, under the next identifier. -/
theorem Service.Step.accepts_next {cfg : Config} {s s' : Service W J} {e : Event W J}
    (h : Service.Step cfg s e s') {id : ℕ} (he : e.Accepts id) :
    id = s.shared.inner.next_task_id := by
  obtain ⟨job, count, rfl⟩ := he
  rcases h with hc | ⟨⟨ha⟩⟩
  · cases hc with
    | admitJob ha =>
      cases RayonExecutorServiceState.admitJob_cases ha
      rfl
  · cases ha

/-- Every step keeps the orders. -/
theorem Ordered.step {cfg : Config} {tr : List (Event W J)} {s s' : Service W J} {e : Event W J}
    (h : Ordered tr s) (hr : Service.Run cfg tr s) (hs : Service.Step cfg s e s') :
    Ordered (e :: tr) s' where
  accepts {a b} hab := by
    rcases before_cons.1 hab with hab | ⟨hb, ha⟩
    · exact h.accepts hab
    · rw [hs.accepts_next hb]
      exact hr.ledger.fresh a (exists_accepts_iff.1 ha)
  takes {a b} hab := by
    rcases before_cons.1 hab with hab | ⟨⟨job, rfl⟩, ha⟩
    · exact h.takes hab
    · exact h.queued (exists_takes_iff.1 ha) hs.takes_least.1
  queued {a k} ha hk := by
    rw [← exists_takes_iff, List.exists_mem_cons_iff] at ha
    rcases ha with ⟨job, rfl⟩ | ha
    · exact hs.takes_least.2.1 k hk
    · rw [exists_takes_iff] at ha
      rcases hs.queued hk with hk | ⟨rfl, -⟩
      · exact h.queued ha hk
      · -- a taken task was accepted, so the next identifier is above it
        exact hr.ledger.fresh a (hr.accepted_of_taken ha)

/-- The orders hold in every reachable state. -/
theorem Service.Run.ordered {cfg : Config} {tr : List (Event W J)} {s : Service W J}
    (h : Service.Run cfg tr s) : Ordered tr s := by
  refine h.invariant (P := Ordered) ?_ fun hr hP hs => hP.step hr hs
  exact ⟨fun h => absurd h not_before_nil, fun h => absurd h not_before_nil, by simp [taken]⟩

/-! ## Start order -/

/-- Workers take tasks in the order of acceptance, after the history `tr` and in the state `s`. -/
structure FifoOrder (cfg : Config) (tr : List (Event W J)) (s : Service W J) : Prop where
  /-- Of two tasks that were both taken, the one that was accepted first was taken first. -/
  order : ∀ a b, Before (Event.Accepts a) (Event.Accepts b) tr → (∃ e ∈ tr, e.Takes a) →
    (∃ e ∈ tr, e.Takes b) → Before (Event.Takes a) (Event.Takes b) tr
  /-- As long as a task is queued, no task that was accepted after it has been taken. -/
  no_overtaking : ∀ a b, Before (Event.Accepts a) (Event.Accepts b) tr →
    a ∈ s.shared.inner.queue.keys → ∀ e ∈ tr, ¬ e.Takes b
  /-- The task that a worker takes next was accepted before every other queued task. -/
  next : ∀ b job s', Service.Step cfg s (.takeNext (some (b, job))) s' →
    ∀ a ∈ s.shared.inner.queue.keys, a ≠ b → Before (Event.Accepts b) (Event.Accepts a) tr

/-- Tasks are started in the order of their acceptance. -/
theorem fifo_order {cfg : Config} {tr : List (Event W J)} {s : Service W J}
    (h : Service.Run cfg tr s) : FifoOrder cfg tr s := by
  have ho := h.ordered
  constructor
  · intro a b hab ha hb
    have hlt := ho.accepts hab
    rcases before_total ha hb with hba | hba | ⟨e, -, ⟨job, rfl⟩, job', heq⟩
    · exact hba
    · exact absurd (ho.takes hba) hlt.asymm
    · cases heq
      exact absurd hlt (lt_irrefl _)
  · intro a b hab ha e he hb
    have hlt := ho.accepts hab
    exact absurd (ho.queued (exists_takes_iff.1 ⟨e, he, hb⟩) ha) hlt.asymm
  · intro b job s' hs a ha hne
    obtain ⟨hb, -, hleast⟩ := hs.takes_least
    have hlt := hleast a ha hne
    -- both are queued, hence accepted, and in the order of their identifiers
    have hacc : ∀ {id}, id ∈ s.shared.inner.queue.keys → ∃ e ∈ tr, e.Accepts id := fun hid =>
      exists_accepts_iff.2 (h.accepted_of_queued hid)
    rcases before_total (hacc hb) (hacc ha) with hba | hab | ⟨e, -, ⟨_, _, rfl⟩, _, _, heq⟩
    · exact hba
    · exact absurd (ho.accepts hab) hlt.asymm
    · cases heq
      exact absurd hlt (lt_irrefl _)

/-- Of two tasks the one that was accepted first is taken first. -/
theorem fifo_order_tiny : FifoOrder tinyConfig
    [.takeNext (some (1, 8)), .spawn, .publishCapacity, .finishRunning 0 true, .run 0 7,
      .takeNext (some (0, 7)), .admitJob 8 (.ok ⟨1, 0⟩), .spawn, .admitJob 7 (.ok ⟨0, 1⟩)]
    ⟨tinyBoth, {⟨.none, .claimed 1 8⟩, ⟨.none, .dispatching 0 .runOne⟩,
      ⟨.none, .dispatching 0 (.submitted 1)⟩, ⟨.none, .dispatching 0 (.submitted 0)⟩}⟩ :=
  fifo_order tinyBoth_run

end RayonExecutor
