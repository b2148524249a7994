import RayonExecutor.Tracked

/-!
# Cancellation agrees with execution

A cancel call is answered from reads at different moments: the queue and the cancelling set under
one lock, then the running set under another or the slot's status under none. Each read leaves a
fact behind that no later step can undo, because it is a fact about the history: the task was
claimed for cancellation, it was taken by a worker, or its result was published. `Justified` says
which fact stands behind each point of a cancel call, and `SlotOk` ties a slot's status to the
history of its task.
-/

namespace RayonExecutor

open Transition Pool

variable {W : Watch} {E : TaskEndpoint} {C T J : Type}

/-! ## What the history says about a task -/

/-- The tasks taken by workers. -/
def taken (tr : List (Event W J)) : Multiset ℕ := (tally Event.takes tr).map Prod.fst

/-- The tasks whose job has been handed to `run`. -/
def ran (tr : List (Event W J)) : Multiset ℕ := (tally Event.runs tr).map Prod.fst

/-- The tasks whose job has been handed to `cancel`. -/
def cancelled (tr : List (Event W J)) : Multiset ℕ := (tally Event.cancels tr).map Prod.fst

section
variable (e : Event W J) (tr : List (Event W J))

@[simp] theorem ran_cons : ran (e :: tr) = e.runs.map Prod.fst + ran tr := by simp [ran]

@[simp] theorem cancelled_cons : cancelled (e :: tr) = e.cancels.map Prod.fst + cancelled tr := by
  simp [cancelled]

end

section
variable {cfg : Config} {tr : List (Event W J)} {s : Service W J} {id : ℕ}

/-- A task handed to `run` was taken. -/
theorem Service.Run.taken_of_ran (h : Service.Run cfg tr s) (hid : id ∈ ran tr) :
    id ∈ taken tr := by
  rw [taken, h.claims.takes, Multiset.map_add]
  exact Multiset.mem_add.2 (Or.inr hid)

/-- An accepted task is queued, or was taken, or was claimed. -/
theorem Service.Run.accepted_eq (h : Service.Run cfg tr s) :
    accepted tr = s.shared.inner.queue.keys + (taken tr + tally Event.claims tr) := by
  rw [h.ledger.ids, taken, h.takes_eq, h.claims_eq]
  abel

/-- A task that was taken is not claimed for cancellation, and the other way round. -/
theorem Service.Run.not_claimed (h : Service.Run cfg tr s) (hid : id ∈ taken tr) :
    id ∉ tally Event.claims tr := by
  have hn := h.ledger.nodup
  rw [h.accepted_eq] at hn
  have hle := Multiset.le_add_left (taken tr + tally Event.claims tr) s.shared.inner.queue.keys
  exact Multiset.disjoint_left.1 (Multiset.nodup_add.1 (Multiset.nodup_of_le hle hn)).2.2 hid

/-- A queued task was accepted. -/
theorem Service.Run.accepted_of_queued (h : Service.Run cfg tr s)
    (hid : id ∈ s.shared.inner.queue.keys) : id ∈ accepted tr := by
  rw [h.ledger.ids]
  simp [hid]

/-- A taken task was accepted. -/
theorem Service.Run.accepted_of_taken (h : Service.Run cfg tr s) (hid : id ∈ taken tr) :
    id ∈ accepted tr := by
  rw [taken, h.takes_eq] at hid
  rw [h.ledger.ids]
  simp only [Multiset.mem_add] at hid ⊢
  tauto

/-- No task is taken twice. -/
theorem Service.Run.taken_nodup (h : Service.Run cfg tr s) : (taken tr).Nodup := by
  refine Multiset.nodup_of_le ?_ h.ledger.nodup
  rw [h.ledger.ids, taken, h.takes_eq, Multiset.le_iff_exists_add]
  exact ⟨s.shared.inner.queue.keys + s.shared.inner.cancelling.val +
    tally Event.finishesCancel tr, by abel⟩

/-- A worker inside `job.run()` has had its job handed over. -/
theorem Service.Run.ran_of_running (h : Service.Run cfg tr s) {changes : AsyncChanges}
    (ht : ⟨changes, .running id⟩ ∈ s.threads) : id ∈ ran tr := by
  rw [ran, h.consumption.runs]
  refine Multiset.mem_add.2 (Or.inl ?_)
  exact mem_total (f := fun t => t.control.inRun) ht (Multiset.mem_singleton_self _)

/-- A finished cancellation has had its job handed over. -/
theorem Service.Run.cancelled_of_finished (h : Service.Run cfg tr s)
    (hid : id ∈ tally Event.finishesCancel tr) : id ∈ cancelled tr := by
  rw [cancelled, h.consumption.cancels]
  exact Multiset.mem_add.2 (Or.inr hid)

/-- A task whose job was handed to `cancel` was claimed for it. -/
theorem Service.Run.claimed_of_cancelled (h : Service.Run cfg tr s) (hid : id ∈ cancelled tr) :
    id ∈ tally Event.claims tr := by
  rw [cancelled, h.consumption.cancels] at hid
  rw [h.claims.claims]
  refine Multiset.mem_add.2 ((Multiset.mem_add.1 hid).imp_left fun hid => ?_)
  -- the call of `cancel` is made by a thread that has claimed the task
  obtain ⟨t, ht, hm⟩ := exists_mem_of_mem_total hid
  refine mem_total (f := fun t => t.control.cleaning) ht ?_
  cases hc : t.control <;> rw [hc] at hm <;> simp_all [Control.inCancel, Control.cleaning]

/-- The task of an accepting event has no history. -/
theorem Service.Run.fresh (h : Service.Run cfg tr s) {e : Event W J} {s' : Service W J}
    (h' : Service.Run cfg (e :: tr) s') (hid : id ∈ e.accepts.map Prod.fst) :
    id ∉ ran tr ∧ id ∉ cancelled tr ∧ id ∉ tally Event.finishesRun tr := by
  have hn := h'.ledger.nodup
  rw [accepted_cons, Multiset.nodup_add] at hn
  have hnot := Multiset.disjoint_left.1 hn.2.2 hid
  have hjobs : accepted tr = s.shared.inner.queue.keys + (held s.threads).map Prod.fst + ran tr +
      cancelled tr := by
    rw [accepted, h.ledger.jobs, Multiset.map_add, Multiset.map_add, Multiset.map_add]
    rfl
  refine ⟨fun hm => hnot ?_, fun hm => hnot ?_, fun hm => hnot ?_⟩
  · rw [hjobs]
    simp [hm]
  · rw [hjobs]
    simp [hm]
  · rw [h.ledger.ids]
    simp [hm]

/-- The task of a consuming event has not been consumed before. -/
theorem Service.Run.unconsumed (id : ℕ) {e : Event W J} {s' : Service W J}
    (h : Service.Run cfg (e :: tr) s')
    (hid : id ∈ e.runs.map Prod.fst + e.cancels.map Prod.fst) :
    id ∉ ran tr ∧ id ∉ cancelled tr := by
  -- the consuming event and the earlier ones are summands of a multiset without duplicates
  have hn := h.consumed_nodup
  have heq : (tally Event.runs (e :: tr) + tally Event.cancels (e :: tr)).map Prod.fst =
      (e.runs.map Prod.fst + e.cancels.map Prod.fst) + (ran tr + cancelled tr) := by
    simp only [tally_cons, Multiset.map_add, ran, cancelled]
    abel
  rw [heq, Multiset.nodup_add] at hn
  simpa using Multiset.disjoint_left.1 hn.2.2 hid

/-- An identifier is accepted with one job. -/
theorem Service.Run.job_unique (h : Service.Run cfg tr s) {job job' : J}
    (h1 : (id, job) ∈ tally Event.accepts tr) (h2 : (id, job') ∈ tally Event.accepts tr) :
    job = job' :=
  (Prod.mk.inj (Multiset.inj_on_of_nodup_map h.ledger.nodup _ h1 _ h2 rfl)).2

end

/-! ## The slots -/

namespace TrackedEvent

/-- The terminal result that an event publishes: the result of a call, or the cancellation at the
start of `CallableJob::cancel`. -/
@[simp] def publishes : TrackedEvent W C T → Multiset (ℕ × TaskStatus)
  | .publish task_id status => {(task_id, status)}
  | .service (.cancel task_id (.callable _)) => {(task_id, .cancelled)}
  | _ => 0

/-- The tasks that an event is about, as far as slots are concerned. -/
@[simp] def touches : TrackedEvent W C T → Multiset ℕ
  | .service e => e.accepts.map Prod.fst + e.runs.map Prod.fst + e.cancels.map Prod.fst +
    e.finishesRun
  | .invoke task_id => {task_id}
  | .publish task_id _ => {task_id}

end TrackedEvent

@[simp] theorem core_service (e : Event W (QueuedJob C T)) (tr : List (TrackedEvent W C T)) :
    core (.service e :: tr) = e :: core tr := rfl

@[simp] theorem core_invoke (id : ℕ) (tr : List (TrackedEvent W C T)) :
    core (.invoke id :: tr) = core tr := rfl

@[simp] theorem core_publish (id : ℕ) (status : TaskStatus) (tr : List (TrackedEvent W C T)) :
    core (.publish id status :: tr) = core tr := rfl

/-- The entry of a task in the table of slots, after the history `tr`. -/
structure SlotOk (E : TaskEndpoint) (tr : List (TrackedEvent W C T)) (id : ℕ)
    (entry : Option E.Slot) : Prop where
  known : entry.isSome ↔ ∃ task, (id, .callable task) ∈ tally Event.accepts (core tr)
  untouched : ∀ slot ∈ entry, id ∉ ran (core tr) → id ∉ cancelled (core tr) →
    E.status slot = .pending
  of_ran : ∀ slot ∈ entry, id ∈ ran (core tr) → E.status slot ≠ .cancelled
  of_cancelled : ∀ slot ∈ entry, id ∈ cancelled (core tr) → E.status slot = .cancelled
  finished : ∀ slot ∈ entry, id ∈ tally Event.finishesRun (core tr) → (E.status slot).Terminal
  /-- A terminal status has been published. -/
  terminal : ∀ slot ∈ entry, (E.status slot).Terminal →
    (id, E.status slot) ∈ tally TrackedEvent.publishes tr
  invoked : .invoke id ∈ tr → id ∈ ran (core tr)
  published : ∀ status, (id, status) ∈ tally TrackedEvent.publishes tr →
    id ∈ ran (core tr) ∧ status.OfCall ∨
      id ∈ cancelled (core tr) ∧ status = .cancelled

namespace SlotOk

variable {tr : List (TrackedEvent W C T)} {id : ℕ} {entry : Option E.Slot}

/-- An event that is not about the task keeps its entry right. -/
theorem frame (h : SlotOk E tr id entry) {e : TrackedEvent W C T} (he : id ∉ e.touches) :
    SlotOk E (e :: tr) id entry := by
  cases e with
  | service e =>
    simp only [TrackedEvent.touches, Multiset.mem_add, not_or] at he
    obtain ⟨⟨⟨ha, hr⟩, hc⟩, hf⟩ := he
    have hacc : ∀ job, (id, job) ∉ e.accepts := fun job hm =>
      ha (Multiset.mem_map_of_mem Prod.fst hm)
    have hpub : ∀ status, (id, status) ∉ TrackedEvent.publishes (.service e) := by
      intro status hm
      cases e with
      | cancel task_id job =>
        cases job with
        | callable task =>
          obtain ⟨rfl, -⟩ := Prod.mk.inj (Multiset.mem_singleton.1 hm)
          simp at hc
        | runnable task => simp at hm
      | _ => simp at hm
    obtain ⟨h1, h2, h3, h4, h5, h6, h7, h8⟩ := h
    constructor <;> simp only [core_service, ran_cons, cancelled_cons, tally_cons, Multiset.mem_add,
      hr, hc, hf, hacc, hpub, false_or, List.mem_cons, reduceCtorEq] <;> assumption
  | invoke task_id | publish task_id status =>
    have hne : id ≠ task_id := fun h => he (Multiset.mem_singleton.2 h)
    obtain ⟨h1, h2, h3, h4, h5, h6, h7, h8⟩ := h
    constructor <;> simp only [core_invoke, core_publish, tally_cons, TrackedEvent.publishes,
      Multiset.mem_add, Multiset.mem_singleton, Multiset.notMem_zero, Prod.mk.injEq, hne, false_and,
      false_or, List.mem_cons, TrackedEvent.invoke.injEq, reduceCtorEq] <;> assumption

/-- An accepted callable enters with a pending slot. -/
theorem accept (h : SlotOk E tr id entry) {task : C} {count : ℕ}
    (hr : id ∉ ran (core tr)) (hc : id ∉ cancelled (core tr))
    (hf : id ∉ tally Event.finishesRun (core tr)) :
    SlotOk E (.service (.admitJob (.callable task) (.ok ⟨id, count⟩)) :: tr) id
      (some (E.accept E.fresh)) where
  known := by simp
  untouched slot hs _ _ := by
    obtain rfl := Option.some.inj hs
    exact E.status_accept
  of_ran slot _ hid := absurd hid (by simpa using hr)
  of_cancelled slot _ hid := absurd hid (by simpa using hc)
  finished slot _ hid := absurd hid (by simpa using hf)
  terminal slot hs ht := by
    obtain rfl := Option.some.inj hs
    rw [E.status_accept] at ht
    exact absurd ht (by decide)
  invoked hi := by simpa using h.invoked (by simpa using hi)
  published status hp := by
    simpa using h.published status (by simpa using hp)

/-- An accepted runnable has no slot. -/
theorem accept_runnable (h : SlotOk E tr id entry) {task : T} {outcome : AdmitOutcome} :
    SlotOk E (.service (.admitJob (.runnable task) outcome) :: tr) id entry := by
  have hacc : ∀ task' : C, (id, .callable task') ∉
      (Event.admitJob (W := W) (QueuedJob.runnable (C := C) task) outcome).accepts := by
    intro task'
    cases outcome <;> simp
  obtain ⟨h1, h2, h3, h4, h5, h6, h7, h8⟩ := h
  constructor <;> simp only [core_service, ran_cons, cancelled_cons, tally_cons, Multiset.mem_add,
    hacc, Event.runs, Event.cancels, Event.finishesRun, TrackedEvent.publishes, Multiset.map_zero,
    Multiset.notMem_zero, false_or, List.mem_cons, reduceCtorEq] <;> assumption

/-- A job handed to `run` leaves its pending slot to the runner. -/
theorem run (h : SlotOk E tr id entry) {job : QueuedJob C T} (hr : id ∉ ran (core tr))
    (hc : id ∉ cancelled (core tr)) : SlotOk E (.service (.run id job) :: tr) id entry where
  known := by simpa using h.known
  untouched slot hs hid := absurd (by simp) hid
  of_ran slot hs _ := by
    rw [h.untouched slot hs hr hc]
    decide
  of_cancelled slot _ hid := absurd hid (by simpa using hc)
  finished slot hs hid := h.finished slot hs (by simpa using hid)
  terminal slot hs ht := by simpa using h.terminal slot hs ht
  invoked _ := by simp
  published status hp := by
    refine (h.published status (by simpa using hp)).imp ?_ ?_
    · exact fun h' => ⟨by simp, h'.2⟩
    · exact fun h' => absurd h'.1 hc

/-- A callable's job handed to `cancel` publishes its cancellation. -/
theorem cancel (h : SlotOk E tr id entry) {task : C} (hr : id ∉ ran (core tr))
    (hc : id ∉ cancelled (core tr)) :
    SlotOk E (.service (.cancel id (.callable task)) :: tr) id
      (entry.map E.cancelUnstarted) := by
  have hstatus : ∀ slot ∈ entry.map E.cancelUnstarted, E.status slot = .cancelled := by
    intro slot hs
    obtain ⟨pending, hpending, rfl⟩ := Option.map_eq_some_iff.1 hs
    exact E.status_cancelUnstarted (h.untouched pending hpending hr hc)
  exact
    { known := by simpa using h.known
      untouched := fun slot _ _ hid => absurd (by simp) hid
      of_ran := fun slot _ hid => absurd hid (by simpa using hr)
      of_cancelled := fun slot hs _ => hstatus slot hs
      finished := fun slot hs _ => by
        rw [hstatus slot hs]
        decide
      terminal := fun slot hs _ => by simp [hstatus slot hs]
      invoked := fun hi => by simpa using h.invoked (by simpa using hi)
      published := fun status hp => by
        simp only [tally_cons, TrackedEvent.publishes, Multiset.mem_add, Multiset.mem_singleton,
          Prod.mk.injEq, true_and] at hp
        rcases hp with rfl | hp
        · exact Or.inr ⟨by simp, rfl⟩
        · refine (h.published status hp).imp ?_ ?_
          · exact fun h' => absurd h'.1 hr
          · exact fun h' => absurd h'.1 hc }

/-- A runnable's job handed to `cancel` has no slot. -/
theorem cancel_runnable (h : SlotOk E tr id none) {task : T} (hr : id ∉ ran (core tr)) :
    SlotOk E (.service (.cancel id (.runnable task)) :: tr) id none where
  known := by simpa using h.known
  untouched slot hs := nomatch hs
  of_ran slot hs := nomatch hs
  of_cancelled slot hs := nomatch hs
  finished slot hs := nomatch hs
  terminal slot hs := nomatch hs
  invoked hi := absurd (h.invoked (by simpa using hi)) hr
  published status hp := by
    refine (h.published status (by simpa using hp)).imp ?_ ?_
    · exact fun h' => absurd h'.1 hr
    · exact fun h' => ⟨by simp [h'.1], h'.2⟩

/-- `finish_running` is reached when the result is published. -/
theorem finishRunning (h : SlotOk E tr id entry) {dispatch : Bool}
    (ht : ∀ slot ∈ entry, (E.status slot).Terminal) :
    SlotOk E (.service (.finishRunning id dispatch) :: tr) id entry := by
  obtain ⟨h1, h2, h3, h4, h5, h6, h7, h8⟩ := h
  constructor <;> simp only [core_service, ran_cons, cancelled_cons, tally_cons, Multiset.mem_add,
    Event.accepts, Event.runs, Event.cancels, Event.finishesRun, TrackedEvent.publishes,
    Multiset.map_zero, Multiset.notMem_zero, false_or, List.mem_cons, reduceCtorEq] <;>
    try assumption
  exact fun slot hs _ => ht slot hs

/-- The runner calls the callable of a pending task. -/
theorem invoke {slot : E.Slot} (h : SlotOk E tr id (some slot)) (hr : id ∈ ran (core tr))
    (hstart : (E.start slot).1 = true) :
    SlotOk E (.invoke id :: tr) id (some (E.start slot).2) := by
  have hpending : E.status slot = .pending := by
    by_contra hne
    rw [E.start_of_not_pending hne] at hstart
    exact absurd hstart Bool.false_ne_true
  have hrunning := (E.start_of_pending hpending).2
  exact
    { known := by simpa using h.known
      untouched := fun _ _ hid => absurd hr hid
      of_ran := fun slot hs _ => by
        obtain rfl := Option.some.inj hs
        rw [hrunning]
        decide
      of_cancelled := fun slot hs hid => by
        have := h.of_cancelled _ rfl hid
        rw [hpending] at this
        contradiction
      finished := fun slot hs hid => by
        have := h.finished _ rfl hid
        rw [hpending] at this
        exact absurd this (by decide)
      terminal := fun slot hs ht => by
        obtain rfl := Option.some.inj hs
        rw [hrunning] at ht
        exact absurd ht (by decide)
      invoked := fun _ => hr
      published := fun status hp => h.published status (by simpa using hp) }

/-- The runner publishes the result of a call. -/
theorem publish {slot : E.Slot} (h : SlotOk E tr id (some slot)) (hr : id ∈ ran (core tr))
    (hrun : E.status slot = .running) {status : TaskStatus} (hstatus : status.OfCall) :
    SlotOk E (.publish id status :: tr) id (some (E.publish status slot)) := by
  -- a running status is not yet terminal, so this is the first result of the call
  have hnew := E.status_publish hrun hstatus
  exact
    { known := by simpa using h.known
      untouched := fun _ _ hid => absurd hr hid
      of_ran := fun slot hs _ => by
        obtain rfl := Option.some.inj hs
        rw [hnew]
        exact hstatus.terminal.2
      of_cancelled := fun slot hs hid => by
        have := h.of_cancelled _ rfl hid
        rw [hrun] at this
        contradiction
      finished := fun slot hs _ => by
        obtain rfl := Option.some.inj hs
        rw [hnew]
        exact hstatus.terminal.1
      terminal := fun slot hs _ => by
        obtain rfl := Option.some.inj hs
        simp [hnew]
      invoked := fun _ => hr
      published := fun status' hp => by
        simp only [tally_cons, TrackedEvent.publishes, Multiset.mem_add, Multiset.mem_singleton,
          Prod.mk.injEq, true_and] at hp
        rcases hp with rfl | hp
        · exact Or.inl ⟨hr, hstatus⟩
        · exact h.published status' hp }

end SlotOk

/-! ## The cancel calls -/

/-- What stands behind the answer of a cancel call. -/
def Return.Justified (tr : List (TrackedEvent W C T)) : Return W → Prop
  | .cancel _ task_id .cancelled => task_id ∈ tally Event.claims (core tr)
  | .cancel _ task_id .alreadyRunning => task_id ∈ taken (core tr)
  | .cancel _ task_id .alreadyFinished =>
    ∃ status, (task_id, status) ∈ tally TrackedEvent.publishes tr
  | _ => True

/-- What stands behind each point of a cancel call: its fallback is reached for an accepted
callable that was taken or has been cancelled, and asks the slot once the task is finished. -/
def Control.Justified (tr : List (TrackedEvent W C T)) : Control W (QueuedJob C T) → Prop
  | .absent _ task_id => (∃ task, (task_id, .callable task) ∈ tally Event.accepts (core tr)) ∧
      (task_id ∈ taken (core tr) ∨ task_id ∈ tally Event.finishesCancel (core tr))
  | .fallback task_id => (∃ task, (task_id, .callable task) ∈ tally Event.accepts (core tr)) ∧
      (task_id ∈ tally Event.finishesRun (core tr) ∨
        task_id ∈ tally Event.finishesCancel (core tr))
  | .dispatching _ ret | .cleanup _ ret | .cancelling _ _ ret | .returning ret => ret.Justified tr
  | _ => True

/-- What is recorded stays recorded. -/
theorem mem_tally_core_cons {α : Type} {f : Event W (QueuedJob C T) → Multiset α} {a : α}
    {tr : List (TrackedEvent W C T)} (e : TrackedEvent W C T) (h : a ∈ tally f (core tr)) :
    a ∈ tally f (core (e :: tr)) := by
  cases e with
  | service e =>
    rw [core_service, tally_cons]
    exact Multiset.mem_add.2 (Or.inr h)
  | invoke | publish => exact h

/-- A task that is recorded with its job stays recorded. -/
theorem mem_fst_core_cons {α : Type} {f : Event W (QueuedJob C T) → Multiset (ℕ × α)} {id : ℕ}
    {tr : List (TrackedEvent W C T)} (e : TrackedEvent W C T)
    (h : id ∈ (tally f (core tr)).map Prod.fst) :
    id ∈ (tally f (core (e :: tr))).map Prod.fst := by
  obtain ⟨a, ha, rfl⟩ := Multiset.mem_map.1 h
  exact Multiset.mem_map_of_mem Prod.fst (mem_tally_core_cons e ha)

/-- No later event takes the ground from under an answer. -/
theorem Return.Justified.cons {tr : List (TrackedEvent W C T)} (ret : Return W)
    (h : ret.Justified tr) (e : TrackedEvent W C T) : ret.Justified (e :: tr) := by
  rcases ret with _ | _ | ⟨_, _, _ | _ | _⟩ | _ | _ | _
  · trivial
  · trivial
  · exact mem_tally_core_cons e h
  · exact mem_fst_core_cons e h
  · obtain ⟨status, hp⟩ := h
    refine ⟨status, ?_⟩
    rw [tally_cons]
    exact Multiset.mem_add.2 (Or.inr hp)
  · trivial
  · trivial
  · trivial

/-- No later event takes the ground from under a thread. -/
theorem Control.Justified.cons {tr : List (TrackedEvent W C T)}
    (control : Control W (QueuedJob C T)) (h : control.Justified tr) (e : TrackedEvent W C T) :
    control.Justified (e :: tr) := by
  cases control with
  | absent endpoint task_id =>
    obtain ⟨⟨task, ha⟩, ht⟩ := h
    exact ⟨⟨task, mem_tally_core_cons e ha⟩,
      ht.imp (mem_fst_core_cons e) (mem_tally_core_cons e)⟩
  | fallback task_id =>
    obtain ⟨⟨task, ha⟩, ht⟩ := h
    exact ⟨⟨task, mem_tally_core_cons e ha⟩,
      ht.imp (mem_tally_core_cons e) (mem_tally_core_cons e)⟩
  | dispatching _ ret | cleanup _ ret | cancelling _ _ ret | returning ret =>
    exact Return.Justified.cons ret h e
  | closure | claimed | running | subscribed => trivial

/-- The invariant of a service with tracked tasks. -/
structure Agreement (tr : List (TrackedEvent W C T)) (t : Tracked W E C T) : Prop where
  slots : ∀ id, SlotOk E tr id (t.slots id)
  handles : ∀ id ∈ t.handles, (t.slots id).isSome
  threads : ∀ th ∈ t.service.threads, th.control.Justified tr

namespace Agreement

variable {cfg : Config} {tr : List (TrackedEvent W C T)} {t : Tracked W E C T}

/-- A finished task has a terminal status. -/
theorem terminal (h : Agreement tr t) (hr : Service.Run cfg (core tr) t.service) {id : ℕ}
    {slot : E.Slot} (hs : t.slots id = some slot)
    (hf : id ∈ tally Event.finishesRun (core tr) ∨ id ∈ tally Event.finishesCancel (core tr)) :
    (E.status slot).Terminal := by
  rcases hf with hf | hf
  · exact (h.slots id).finished slot hs hf
  · rw [(h.slots id).of_cancelled slot hs (hr.cancelled_of_finished hf)]
    decide

/-- The first action of an operation starts a thread with ground to stand on. -/
theorem call (h : Agreement tr t) (hr : Service.Run cfg (core tr) t.service)
    {e : Event W (QueuedJob C T)} {st' : RayonExecutorServiceState W (QueuedJob C T)}
    {new : Multiset (Thread W (QueuedJob C T))} (hc : Call cfg.bits t.service.shared e st' new)
    (ha : t.Allows e) : ∀ th ∈ new, th.control.Justified (.service e :: tr) := by
  cases hc with
  | admitJob hd =>
    rename_i outcome
    cases outcome <;> simp [Control.Justified, Return.Justified]
  | @cancel st' endpoint task_id disposition hd =>
    simp only [Multiset.mem_singleton, forall_eq]
    cases RayonExecutorServiceState.cancelPendingTask_cases hd with
    | owned => simp [Control.Justified, Return.Justified]
    | inProgress _ hm =>
      -- another caller or a stop loop has claimed the task
      have : task_id ∈ tally Event.claims (core tr) := by
        rw [hr.claims_eq]
        exact Multiset.mem_add.2 (Or.inl hm)
      exact mem_tally_core_cons _ this
    | absent hq hcan =>
      -- the task was accepted, and is neither queued nor being cancelled
      obtain ⟨task, hacc⟩ := (h.slots task_id).known.1 (h.handles task_id ha)
      have hid : task_id ∈ accepted (core tr) := Multiset.mem_map_of_mem Prod.fst hacc
      refine Control.Justified.cons (.absent endpoint task_id) ⟨⟨task, hacc⟩, ?_⟩ _
      rw [hr.ledger.ids] at hid
      rw [taken, hr.takes_eq]
      simp only [Multiset.mem_add, Finset.mem_val] at hid ⊢
      tauto
  | _ => simp [Control.Justified, Return.Justified]

/-- An action leaves its thread with ground to stand on. -/
theorem action (h : Agreement tr t) (hr : Service.Run cfg (core tr) t.service)
    {e : Event W (QueuedJob C T)} {th : Thread W (QueuedJob C T)}
    {st' : RayonExecutorServiceState W (QueuedJob C T)}
    {new : Multiset (Thread W (QueuedJob C T))} (hth : th ∈ t.service.threads)
    (hact : Action th t.service.shared e st' new) (ha : t.Allows e) :
    ∀ u ∈ new, u.control.Justified (.service e :: tr) := by
  have hj := h.threads th hth
  cases hact with
  | @status _ task_id status =>
    -- the slot of a cancelled task says so, hence a status that is not terminal means a worker
    obtain ⟨slot, hs, rfl⟩ := ha
    obtain ⟨-, ht⟩ := hj
    simp only [Multiset.mem_singleton, forall_eq]
    refine Control.Justified.cons (.returning _) ?_ _
    by_cases hterm : (E.status slot).Terminal
    · rw [cancellationResultForStatus_of_terminal hterm]
      exact ⟨_, (h.slots task_id).terminal slot hs hterm⟩
    · rw [cancellationResultForStatus_of_not_terminal hterm]
      exact ht.resolve_right fun hf => hterm (h.terminal hr hs (Or.inr hf))
  | @isRunningTask _ task_id =>
    -- a taken task that is not running any more has finished
    obtain ⟨hacc, ht⟩ := hj
    simp only [Multiset.mem_singleton, forall_eq]
    by_cases hrun : t.service.shared.isRunningTask task_id = true
    · rw [if_pos hrun]
      refine Control.Justified.cons (.returning _) ?_ _
      have hmem : task_id ∈ t.service.shared.inner.running_tasks := of_decide_eq_true hrun
      change task_id ∈ taken (core tr)
      rw [taken, hr.takes_eq]
      exact Multiset.mem_add.2 (Or.inl hmem)
    · rw [if_neg hrun]
      refine Control.Justified.cons (.fallback _) ⟨hacc, ht.imp_left fun htaken => ?_⟩ _
      have hmem : task_id ∉ t.service.shared.inner.running_tasks :=
        fun hm => hrun (decide_eq_true hm)
      rw [taken, hr.takes_eq] at htaken
      exact (Multiset.mem_add.1 htaken).resolve_left hmem
  | @fallback _ task_id result =>
    obtain ⟨slot, hs, rfl⟩ := ha
    have hterm := h.terminal hr hs hj.2
    simp only [Multiset.mem_singleton, forall_eq]
    refine Control.Justified.cons (.returning _) ?_ _
    rw [E.cancel_of_terminal hterm]
    exact ⟨_, (h.slots task_id).terminal slot hs hterm⟩
  | takeNext hs =>
    rename_i taken changes
    cases taken <;> simp [Control.Justified, Return.Justified]
  | spawn =>
    simp only [Multiset.insert_eq_cons, Multiset.mem_cons, Multiset.mem_singleton, forall_eq_or_imp,
      forall_eq]
    exact ⟨Control.Justified.cons (.dispatching _ _) hj _, trivial⟩
  | publishCapacity | publishTermination =>
    simp only [Multiset.mem_singleton, forall_eq]
    exact hj.cons _ _
  | cancel =>
    simp only [Multiset.mem_singleton, forall_eq]
    exact Control.Justified.cons (.cancelling _ _ _) hj _
  | finishCancelling =>
    simp only [Multiset.mem_singleton, forall_eq]
    exact Control.Justified.cons (.cleanup _ _) hj _
  | _ => simp [Control.Justified, Return.Justified]

/-- A thread that asks the slot asks a terminal one. -/
theorem fallback_terminal (h : Agreement tr t) (hr : Service.Run cfg (core tr) t.service) {id : ℕ}
    {changes : AsyncChanges} (hth : ⟨changes, .fallback id⟩ ∈ t.service.threads) :
    ∃ slot, t.slots id = some slot ∧ (E.status slot).Terminal := by
  obtain ⟨hacc, hf⟩ := h.threads _ hth
  obtain ⟨slot, hs⟩ := Option.isSome_iff_exists.1 ((h.slots id).known.2 hacc)
  exact ⟨slot, hs, h.terminal hr hs hf⟩

/-- The fallback of the cancellation handle changes no slot. -/
theorem slotsAfter_fallback (h : Agreement tr t) (hr : Service.Run cfg (core tr) t.service)
    {id : ℕ} {changes : AsyncChanges} (hth : ⟨changes, .fallback id⟩ ∈ t.service.threads)
    (result : CancelResult) :
    Tracked.slotsAfter t.slots (.fallback id result : Event W (QueuedJob C T)) = t.slots := by
  obtain ⟨slot, hs, hterm⟩ := h.fallback_terminal hr hth
  rw [Tracked.slotsAfter, hs, Option.map_some, E.cancel_of_terminal hterm, ← hs,
    Function.update_eq_self]

end Agreement

/-- A fallback is executed by a thread that has come to it. -/
theorem Service.Step.fallback_mem {cfg : Config} {s s' : Service W J} {id : ℕ}
    {result : CancelResult} (h : Service.Step cfg s (.fallback id result) s') :
    ⟨.none, .fallback id⟩ ∈ s.threads := by
  rcases h with hc | ⟨⟨ha⟩⟩
  · cases hc
  · cases ha
    exact Multiset.mem_cons_self _ _

namespace Agreement

variable {cfg : Config} {tr : List (TrackedEvent W C T)} {t : Tracked W E C T}

/-- Every action of the service keeps the slots right. -/
theorem slotsAfter (h : Agreement tr t) (hr : Service.Run cfg (core tr) t.service)
    {e : Event W (QueuedJob C T)} {s' : Service W (QueuedJob C T)}
    (hs : Service.Step cfg t.service e s') (ha : t.Allows e) (id : ℕ) :
    SlotOk E (.service e :: tr) id (Tracked.slotsAfter t.slots e id) := by
  have hr' : Service.Run cfg (e :: core tr) s' := hr.step hs
  have hid := h.slots id
  cases e with
  | admitJob job outcome =>
    cases job with
    | runnable task => exact hid.accept_runnable
    | callable task =>
      rcases outcome with ⟨task_id, count⟩ | error | panic
      · by_cases heq : id = task_id
        · subst heq
          have hmem : id ∈ (Event.accepts (.admitJob (.callable task) (.ok ⟨id, count⟩) :
              Event W (QueuedJob C T))).map Prod.fst := by simp
          obtain ⟨h1, h2, h3⟩ := hr.fresh hr' hmem
          simpa [Tracked.slotsAfter] using hid.accept h1 h2 h3
        · rw [Tracked.slotsAfter, Function.update_of_ne heq]
          exact hid.frame (by simp [heq])
      · exact hid.frame (by simp)
      · exact hid.frame (by simp)
  | run task_id job =>
    by_cases heq : id = task_id
    · subst heq
      obtain ⟨h1, h2⟩ := Service.Run.unconsumed id hr' (by simp)
      exact hid.run h1 h2
    · exact hid.frame (by simp [heq])
  | cancel task_id job =>
    by_cases heq : id = task_id
    · subst heq
      obtain ⟨h1, h2⟩ := Service.Run.unconsumed id hr' (by simp)
      cases job with
      | callable task =>
        rw [Tracked.slotsAfter, Function.update_self]
        exact hid.cancel h1 h2
      | runnable task =>
        -- the job in the hands of `cancel` is the accepted one, so there is no slot
        have hnone : t.slots id = none := by
          by_contra hne
          obtain ⟨task', hacc⟩ := hid.known.1 (Option.isSome_iff_ne_none.2 hne)
          have hacc' : (id, .runnable task) ∈ tally Event.accepts (.cancel id (.runnable task) ::
              core tr : List (Event W (QueuedJob C T))) := by
            rw [hr'.ledger.jobs]
            simp
          have := hr'.job_unique (by simpa using hacc) hacc'
          cases this
        show SlotOk E _ id (t.slots id)
        rw [hnone] at hid ⊢
        exact hid.cancel_runnable h1
    · have hslot : Tracked.slotsAfter t.slots (.cancel task_id job : Event W (QueuedJob C T)) id =
          t.slots id := by
        cases job with
        | callable task => rw [Tracked.slotsAfter, Function.update_of_ne heq]
        | runnable task => rfl
      rw [hslot]
      exact hid.frame (by simp [heq])
  | finishRunning task_id dispatch =>
    by_cases heq : id = task_id
    · subst heq
      exact hid.finishRunning ha
    · exact hid.frame (by simp [heq])
  | fallback task_id result =>
    rw [h.slotsAfter_fallback hr hs.fallback_mem]
    exact hid.frame (by simp)
  | _ => exact hid.frame (by simp)

/-- A step of the runner changes the slot of its task and nothing else. -/
theorem runner (h : Agreement tr t) {e : TrackedEvent W C T} {task_id : ℕ} {slot : E.Slot}
    (hslot : SlotOk E (e :: tr) task_id (some slot)) (he : e.touches = {task_id}) :
    Agreement (e :: tr) { t with slots := Function.update t.slots task_id (some slot) } := by
  refine ⟨fun id => ?_, fun id hid => ?_, fun th hth => (h.threads th hth).cons _ _⟩
  · show SlotOk E (e :: tr) id (Function.update t.slots task_id (some slot) id)
    by_cases heq : id = task_id
    · rw [heq, Function.update_self]
      exact hslot
    · rw [Function.update_of_ne heq]
      refine (h.slots id).frame fun hm => heq ?_
      rw [he] at hm
      exact Multiset.mem_singleton.1 hm
  · show (Function.update t.slots task_id (some slot) id).isSome
    by_cases heq : id = task_id
    · rw [heq, Function.update_self]
      rfl
    · rw [Function.update_of_ne heq]
      exact h.handles id hid

/-- Every step keeps the invariant. -/
theorem step (h : Agreement tr t) (hr : Service.Run cfg (core tr) t.service)
    {e : TrackedEvent W C T} {t' : Tracked W E C T} (hs : Tracked.Step cfg t e t') :
    Agreement (e :: tr) t' := by
  cases hs with
  | @service e s' hs ha =>
    refine ⟨h.slotsAfter hr hs ha, ?_, ?_⟩
    · -- a handle is returned for a task with a slot, and no slot is ever dropped
      have hsome : ∀ id ∈ t.handlesAfter e, (t.slots id).isSome := by
        intro id hid
        unfold Tracked.handlesAfter at hid
        split at hid
        · split_ifs at hid with hslot
          · rcases Finset.mem_insert.1 hid with rfl | hid
            · exact hslot
            · exact h.handles id hid
          · exact h.handles id hid
        · exact h.handles id hid
      intro id hid
      refine (h.slotsAfter hr hs ha id).known.2 ?_
      obtain ⟨task, hacc⟩ := (h.slots id).known.1 (hsome id hid)
      exact ⟨task, mem_tally_core_cons _ hacc⟩
    · intro th hth
      obtain ⟨service, slots, handles⟩ := t
      rcases hs with hc | ⟨⟨hact⟩⟩
      · rcases Multiset.mem_add.1 hth with hth | hth
        · exact h.call hr hc ha th hth
        · exact (h.threads th hth).cons _ _
      · rcases Multiset.mem_add.1 hth with hth | hth
        · exact h.action hr (Multiset.mem_cons_self _ _) hact ha th hth
        · exact (h.threads th (Multiset.mem_cons_of_mem hth)).cons _ _
  | @invoke task_id slot ht hslot hstart =>
    exact h.runner (SlotOk.invoke (hslot ▸ h.slots task_id) (hr.ran_of_running ht) hstart) rfl
  | @publish task_id slot status ht hslot hrun hstatus =>
    exact h.runner (SlotOk.publish (hslot ▸ h.slots task_id) (hr.ran_of_running ht) hrun hstatus)
      rfl

end Agreement

/-- The invariant holds in every reachable state. -/
theorem Tracked.Run.agreement {cfg : Config} {tr : List (TrackedEvent W C T)}
    {t : Tracked W E C T} (h : Tracked.Run cfg tr t) : Agreement tr t := by
  refine h.invariant (P := Agreement) ⟨fun id => ?_, by simp [Tracked.init], by simp [Tracked.init]⟩
    fun hr hP hs => hP.step (Tracked.Run.core hr) hs
  constructor <;> simp [Tracked.init]

/-- When a call returns, its answer stands on what has happened before. -/
theorem Agreement.returned {cfg : Config} {tr : List (TrackedEvent W C T)} {t : Tracked W E C T}
    (h : Agreement tr t) {ret : Return W} {s' : Service W (QueuedJob C T)}
    (hs : Service.Step cfg t.service (.returned ret) s') : ret.Justified tr := by
  obtain ⟨service, slots, handles⟩ := t
  rcases hs with hc | ⟨⟨hact⟩⟩
  · cases hc
  · cases hact with
    | dispatched => exact h.threads _ (Multiset.mem_cons_self _ _)
    | cleaned => exact h.threads _ (Multiset.mem_cons_self _ _)
    | returning => exact h.threads _ (Multiset.mem_cons_self _ _)

/-- Whenever a call has returned, its answer stood on what had happened before. -/
theorem Tracked.Run.returned {cfg : Config} {later earlier : List (TrackedEvent W C T)}
    {t : Tracked W E C T} {ret : Return W}
    (h : Tracked.Run cfg (later ++ .service (.returned ret) :: earlier) t) :
    ret.Justified earlier := by
  obtain ⟨_, hr⟩ := Run.exists_earlier later h
  obtain ⟨a, hra, hs⟩ := hr.exists_last
  cases hs with
  | service hs _ => exact (Tracked.Run.agreement hra).returned hs

/-- An answer keeps standing. -/
theorem Return.Justified.append {tr : List (TrackedEvent W C T)} {ret : Return W}
    (h : ret.Justified tr) (later : List (TrackedEvent W C T)) : ret.Justified (later ++ tr) := by
  induction later with
  | nil => exact h
  | cons e later ih => exact ih.cons ret e

/-- What is returned in a run is justified at the end of the run too. -/
theorem Tracked.Run.returned_later {cfg : Config} {later earlier : List (TrackedEvent W C T)}
    {t : Tracked W E C T} {ret : Return W}
    (h : Tracked.Run cfg (later ++ .service (.returned ret) :: earlier) t) :
    ret.Justified (later ++ .service (.returned ret) :: earlier) :=
  (Return.Justified.cons ret (Tracked.Run.returned h) _).append later

/-! ## Agreement -/

/-- Cancellation agrees with execution, over the history `tr` of a run that ends in `t`. -/
structure CancellationAgrees (cfg : Config) (tr : List (TrackedEvent W C T))
    (t : Tracked W E C T) : Prop where
  /-- A task for which a cancel call returns `Cancelled` is not called in the whole run, and
  nothing but a cancellation is published for it. -/
  cancelled : ∀ endpoint id, .service (.returned (.cancel endpoint id .cancelled)) ∈ tr →
    .invoke id ∉ tr ∧ ∀ status, (id, status) ∈ tally TrackedEvent.publishes tr → status = .cancelled
  /-- `AlreadyRunning` is returned after a worker has taken the task. The task is never claimed for
  cancellation or cancelled, and its job is in the hands of one worker or handed to `run` once. -/
  already_running : ∀ later earlier endpoint id,
    tr = later ++ .service (.returned (.cancel endpoint id .alreadyRunning)) :: earlier →
    (∃ job, .service (.takeNext (some (id, job))) ∈ earlier) ∧
      id ∉ tally Event.claims (core tr) ∧ id ∉ RayonExecutor.cancelled (core tr) ∧
      ((across Control.unrun t.service.threads + tally Event.runs (core tr)).map Prod.fst).count id
        = 1
  /-- `AlreadyFinished` is returned after a terminal result has been published. -/
  already_finished : ∀ later earlier endpoint id,
    tr = later ++ .service (.returned (.cancel endpoint id .alreadyFinished)) :: earlier →
    ∃ status, status.Terminal ∧ (id, status) ∈ tally TrackedEvent.publishes earlier
  /-- The endpoint's fallback is reached with a terminal slot only. -/
  fallback_reached : ∀ changes id, ⟨changes, .fallback id⟩ ∈ t.service.threads →
    ∃ slot, t.slots id = some slot ∧ (E.status slot).Terminal
  /-- The fallback answers `AlreadyFinished` and cancels nothing. -/
  fallback : ∀ id result t', Tracked.Step cfg t (.service (.fallback id result)) t' →
    result = .alreadyFinished ∧ t'.slots = t.slots

/-- Every answer of a cancel call agrees with what happens to the task. -/
theorem cancellation_agrees {cfg : Config} {tr : List (TrackedEvent W C T)}
    {t : Tracked W E C T} (h : Tracked.Run cfg tr t) : CancellationAgrees cfg tr t := by
  have ha := Tracked.Run.agreement h
  have hr := Tracked.Run.core h
  constructor
  · intro endpoint id hm
    obtain ⟨later, earlier, rfl⟩ := List.append_of_mem hm
    have hclaim := Tracked.Run.returned_later h
    -- a claimed task is never taken, hence never run
    have hran : id ∉ ran (core _) := fun hran => hr.not_claimed (hr.taken_of_ran hran) hclaim
    refine ⟨fun hi => hran ((ha.slots id).invoked hi), fun status hp => ?_⟩
    exact (((ha.slots id).published status hp).resolve_left fun hp => hran hp.1).2
  · rintro later earlier endpoint id rfl
    have htaken := Tracked.Run.returned h
    have hlater := Tracked.Run.returned_later h
    have hclaim := hr.not_claimed hlater
    refine ⟨?_, hclaim, fun hc => hclaim (hr.claimed_of_cancelled hc), ?_⟩
    · obtain ⟨⟨_, job⟩, hm, rfl⟩ := Multiset.mem_map.1 htaken
      obtain ⟨e, he, hm⟩ := mem_tally.1 hm
      obtain rfl := Event.eq_takeNext_of_mem hm
      obtain ⟨e, he, heq⟩ := List.mem_filterMap.1 he
      cases e with
      | service e => exact ⟨job, Option.some.inj heq ▸ he⟩
      | invoke | publish => cases heq
    · rw [← hr.claims.takes]
      exact Multiset.count_eq_one_of_mem hr.taken_nodup hlater
  · rintro later earlier endpoint id rfl
    obtain ⟨status, hp⟩ := Tracked.Run.returned h
    obtain ⟨a, hra⟩ := Run.exists_earlier (later ++ [_]) (by simpa using h)
    refine ⟨status, ?_, hp⟩
    rcases ((Tracked.Run.agreement hra).slots id).published status hp with ⟨-, hs⟩ | ⟨-, rfl⟩
    · exact hs.terminal.1
    · decide
  · exact fun changes id hth => ha.fallback_terminal hr hth
  · intro id result t' hs
    cases hs with
    | service hs hallow =>
      obtain ⟨slot, hslot, rfl⟩ := hallow
      obtain ⟨slot', hslot', hterm⟩ := ha.fallback_terminal hr hs.fallback_mem
      obtain rfl := Option.some.inj (hslot.symm.trans hslot')
      refine ⟨?_, ha.slotsAfter_fallback hr hs.fallback_mem (E.cancel slot).1⟩
      rw [E.cancel_of_terminal hterm]

/-! ## A run with a cancellation -/

/-- A service after it has accepted a callable. -/
def tinyTracked : RayonExecutorServiceState Watch.versioned (QueuedJob ℕ ℕ) :=
  ((RayonExecutorServiceState.new Watch.versioned (QueuedJob ℕ ℕ) 2 1).admitJob 64 .returned
    (.callable 7)).2

/-- A callable is accepted and its submission returns. -/
theorem tinySubmitted_run : Tracked.Run tinyConfig
    [.service (.returned (.submitted 0)), .service .spawn,
      .service (.admitJob (.callable 7) (.ok ⟨0, 1⟩))]
    (⟨⟨tinyTracked, {⟨.none, .closure⟩}⟩, Function.update (fun _ => none) 0 (some .pending), {0}⟩ :
      Tracked Watch.versioned .plain ℕ ℕ) := by
  have ha : (RayonExecutorServiceState.new Watch.versioned (QueuedJob ℕ ℕ) 2 1).admitJob 64
      .returned (.callable 7) = (.ok ⟨0, 1⟩, tinyTracked) := rfl
  have h1 : Tracked.Run tinyConfig [.service (.admitJob (.callable 7) (.ok ⟨0, 1⟩))]
      (⟨⟨tinyTracked, {⟨.none, .dispatching 1 (.submitted 0)⟩}⟩,
        Function.update (fun _ => none) 0 (some .pending), ∅⟩ :
        Tracked Watch.versioned .plain ℕ ℕ) :=
    .step .init (.of_eq (.first (.admitJob ha)) trivial rfl rfl)
  have h2 : Tracked.Run tinyConfig
      [.service .spawn, .service (.admitJob (.callable 7) (.ok ⟨0, 1⟩))]
      (⟨⟨tinyTracked, {⟨.none, .dispatching 0 (.submitted 0)⟩, ⟨.none, .closure⟩}⟩,
        Function.update (fun _ => none) 0 (some .pending), ∅⟩ :
        Tracked Watch.versioned .plain ℕ ℕ) :=
    .step h1 (.of_eq (.act (.of_eq .spawn rfl rfl)) trivial rfl rfl)
  exact .step h2 (.of_eq (.act (.of_eq .dispatched rfl (zero_add _).symm)) trivial rfl rfl)

/-- The service after a cancel call has claimed that callable. -/
def tinyClaimed : RayonExecutorServiceState Watch.versioned (QueuedJob ℕ ℕ) :=
  (tinyTracked.cancelPendingTask 0).2

/-- The slots after the task has been cancelled. -/
def tinySlots : ℕ → Option TaskStatus :=
  Function.update (Function.update (fun _ => none) 0 (some .pending)) 0 (some .cancelled)

/-- The cancellation handle of the accepted callable claims it. -/
theorem tinyOwned_run : Tracked.Run tinyConfig
    [.service (.cancelPendingTask .cancellationHandle 0 (.owned (.callable 7))),
      .service (.returned (.submitted 0)), .service .spawn,
      .service (.admitJob (.callable 7) (.ok ⟨0, 1⟩))]
    (⟨⟨tinyClaimed,
      {⟨.none, .cleanup [(0, .callable 7)] (.cancel .cancellationHandle 0 .cancelled)⟩,
        ⟨.none, .closure⟩}⟩, Function.update (fun _ => none) 0 (some .pending), {0}⟩ :
      Tracked Watch.versioned .plain ℕ ℕ) :=
  have hc : tinyTracked.cancelPendingTask 0 = (.owned (.callable 7), tinyClaimed) := rfl
  .step tinySubmitted_run (.of_eq (.call (Call.cancel hc)) (Finset.mem_singleton_self 0) rfl rfl)

/-- The cancellation handle has claimed the callable and published the cancellation. -/
theorem tinyClaimed_run : Tracked.Run tinyConfig
    [.service (.cancel 0 (.callable 7)),
      .service (.cancelPendingTask .cancellationHandle 0 (.owned (.callable 7))),
      .service (.returned (.submitted 0)), .service .spawn,
      .service (.admitJob (.callable 7) (.ok ⟨0, 1⟩))]
    (⟨⟨tinyClaimed, {⟨.none, .cancelling 0 [] (.cancel .cancellationHandle 0 .cancelled)⟩,
      ⟨.none, .closure⟩}⟩, tinySlots, {0}⟩ : Tracked Watch.versioned .plain ℕ ℕ) :=
  .step tinyOwned_run (.of_eq (.act (.of_eq Action.cancel rfl rfl)) trivial rfl rfl)

/-- The service after the cancelled callable has been cleaned up. -/
def tinyCancelled : RayonExecutorServiceState Watch.versioned (QueuedJob ℕ ℕ) :=
  (tinyClaimed.finishCancelling 0).state.publishCapacity

/-- The call that has claimed the callable cleans it up and returns. -/
theorem tinyCancelled_run : Tracked.Run tinyConfig
    [.service (.returned (.cancel .cancellationHandle 0 .cancelled)), .service .publishCapacity,
      .service (.finishCancelling 0), .service (.cancel 0 (.callable 7)),
      .service (.cancelPendingTask .cancellationHandle 0 (.owned (.callable 7))),
      .service (.returned (.submitted 0)), .service .spawn,
      .service (.admitJob (.callable 7) (.ok ⟨0, 1⟩))]
    (⟨⟨tinyCancelled, {⟨.none, .closure⟩}⟩, tinySlots, {0}⟩ :
      Tracked Watch.versioned .plain ℕ ℕ) := by
  have hf : tinyClaimed.finishCancelling 0 =
      ⟨(), ⟨true, false⟩, (tinyClaimed.finishCancelling 0).state⟩ := rfl
  have h1 : Tracked.Run tinyConfig _ (⟨⟨(tinyClaimed.finishCancelling 0).state,
      {⟨⟨true, false⟩, .cleanup [] (.cancel .cancellationHandle 0 .cancelled)⟩,
        ⟨.none, .closure⟩}⟩, tinySlots, {0}⟩ : Tracked Watch.versioned .plain ℕ ℕ) :=
    .step tinyClaimed_run (.of_eq (.act (.of_eq (.finishCancelling hf) rfl rfl)) trivial rfl rfl)
  have h2 : Tracked.Run tinyConfig _ (⟨⟨tinyCancelled,
      {⟨.none, .cleanup [] (.cancel .cancellationHandle 0 .cancelled)⟩, ⟨.none, .closure⟩}⟩,
      tinySlots, {0}⟩ : Tracked Watch.versioned .plain ℕ ℕ) :=
    .step h1 (.of_eq (.act (.of_eq .publishCapacity rfl rfl)) trivial rfl rfl)
  exact .step h2 (.of_eq (.act (.of_eq .cleaned rfl (zero_add _).symm)) trivial rfl rfl)

/-- A cancelled callable, whose call has returned, is never invoked. -/
theorem cancellation_agrees_tiny : CancellationAgrees tinyConfig
    [.service (.returned (.cancel .cancellationHandle 0 .cancelled)), .service .publishCapacity,
      .service (.finishCancelling 0), .service (.cancel 0 (.callable 7)),
      .service (.cancelPendingTask .cancellationHandle 0 (.owned (.callable 7))),
      .service (.returned (.submitted 0)), .service .spawn,
      .service (.admitJob (.callable 7) (.ok ⟨0, 1⟩))]
    (⟨⟨tinyCancelled, {⟨.none, .closure⟩}⟩, tinySlots, {0}⟩ :
      Tracked Watch.versioned .plain ℕ ℕ) :=
  cancellation_agrees tinyCancelled_run

end RayonExecutor
