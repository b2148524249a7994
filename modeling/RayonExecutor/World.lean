import RayonExecutor.Service

/-!
# Observers

The service with those who wait for it: blocking waiters, `await_termination` futures, and producers
that retry a saturated submission. The observers are a second pool (`World`), whose shared state is
the whole service and a clock. A step is a step of the service, a tick of the clock, the arrival of
an observer, or what an observer does next.

A blocking waiter checks the predicate and parks in one critical section. It may wake at any time:
because it was notified, because its duration is over, or for no reason. Which waiters have been
notified since they parked is the count in `Condvar`.
-/

namespace RayonExecutor

open Transition Pool

/-- `Duration::MAX`, in nanoseconds. -/
def durationMax : ℕ := (2^64 - 1) * 10^9 + 999999999

/-- A call of `wait_for_termination`, or of `wait_for_termination_timeout` with its timeout, that
has started at a moment of the clock. -/
structure Wait where
  timeout : Option ℕ
  started : ℕ
  deriving DecidableEq, Repr

/-- How an iteration of a blocking wait ends. -/
inductive Iteration
  | returned (terminated : Bool)
  | park (duration : Option ℕ)
  deriving DecidableEq, Repr

/-- An iteration of the loops of `wait_for_termination` and `wait_for_termination_timeout`, at the
moment `now` and under the lock. -/
def Wait.iteration {J : Type} (wait : Wait) (inner : RayonExecutorServiceInner J) (now : ℕ) :
    Iteration :=
  if inner.lifecycle = .running ∨ inner.occupied ≠ 0 then
    match wait.timeout with
    | none => .park none
    | some timeout =>
      let remaining := timeout - (now - wait.started)
      if remaining = 0 then .returned false else .park (some remaining)
  else .returned true

/-- The observers, at the points between two of their actions. -/
inductive Observer (W : Watch)
  /-- A blocking wait before the next iteration of its loop. -/
  | checking (wait : Wait)
  /-- A blocking wait on the condition variable, since its count was `epoch`. -/
  | parked (wait : Wait) (epoch : ℕ) (duration : Option ℕ)
  /-- An `await_termination` future that is about to look at the watch value. -/
  | polling (r : W.Receiver Bool)
  /-- An `await_termination` future that waits for a change. -/
  | pending (r : W.Receiver Bool)
  /-- A producer with a receiver of `capacity_changes` that is about to submit. -/
  | submitting (r : W.Receiver ℕ)
  /-- A producer whose submission was saturated, when the service had made `attempt` steps. It is
  awaiting `changed`. -/
  | saturated (r : W.Receiver ℕ) (attempt : ℕ)

/-- A service and a clock. The number of steps that the service has made is there to name moments
of its history. No operation reads it. -/
structure Observed (W : Watch) (J : Type) where
  service : Service W J
  now : ℕ
  steps : ℕ

/-- After a step of the service to `s'`. -/
def Observed.after {W : Watch} {J : Type} (x : Observed W J) (s' : Service W J) : Observed W J :=
  { x with service := s', steps := x.steps + 1 }

/-- The data under the mutex. -/
abbrev Observed.inner {W : Watch} {J : Type} (x : Observed W J) : RayonExecutorServiceInner J :=
  x.service.shared.inner

/-- The events of the service and of its observers. -/
inductive WorldEvent (W : Watch) (J : Type)
  | service (e : Event W J)
  | tick (now : ℕ)
  | wait (timeout : Option ℕ)
  | waited (wait : Wait) (terminated : Bool)
  | park (wait : Wait) (duration : Option ℕ)
  | wake (wait : Wait)
  | poll (terminated : Bool)
  | repoll
  | changed
  | drop

variable {W : Watch} {J : Type}

/-- A producer after an attempt: it awaits a change when the service was saturated. -/
def afterAttempt (r : W.Receiver ℕ) (attempt : ℕ) : AdmitOutcome → Multiset (Observer W)
  | .err .saturated => {.saturated r attempt}
  | _ => 0

/-- A producer goes on after a saturated attempt only. -/
theorem mem_afterAttempt {r : W.Receiver ℕ} {attempt : ℕ} {outcome : AdmitOutcome} {o : Observer W}
    (h : o ∈ afterAttempt r attempt outcome) :
    outcome = .err .saturated ∧ o = .saturated r attempt := by
  unfold afterAttempt at h
  split at h
  · exact ⟨rfl, Multiset.mem_singleton.1 h⟩
  · exact absurd h (Multiset.notMem_zero _)

/-- A step without an observer, or the arrival of one. -/
inductive Arrival (cfg : Config) :
    Observed W J → WorldEvent W J → Observed W J → Multiset (Observer W) → Prop
  | service {x : Observed W J} {e : Event W J} {s' : Service W J}
      (hs : Service.Step cfg x.service e s') :
      Arrival cfg x (.service e) (x.after s') 0
  | tick {x : Observed W J} {now : ℕ} (h : x.now ≤ now) :
      Arrival cfg x (.tick now) { x with now := now } 0
  | wait {x : Observed W J} {timeout : Option ℕ} (h : ∀ d ∈ timeout, d ≤ durationMax) :
      Arrival cfg x (.wait timeout) x {.checking ⟨timeout, x.now⟩}
  /-- `subscribe_termination` returns to `await_termination`. -/
  | awaitTermination {x : Observed W J} {r : W.Receiver Bool} {s' : Service W J}
      (hs : Service.Step cfg x.service (.returned (.receiver r)) s') :
      Arrival cfg x (.service (.returned (.receiver r))) (x.after s') {.polling r}
  /-- A producer subscribes. -/
  | capacityChanges {x : Observed W J} {r : W.Receiver ℕ} {s' : Service W J}
      (hs : Service.Step cfg x.service (.capacityChanges r) s') :
      Arrival cfg x (.service (.capacityChanges r)) (x.after s') {.submitting r}

/-- What an observer does next. -/
inductive Observation (cfg : Config) :
    Observer W → Observed W J → WorldEvent W J → Observed W J → Multiset (Observer W) → Prop
  | waited {x : Observed W J} {wait : Wait} {terminated : Bool}
      (h : wait.iteration x.inner x.now = .returned terminated) :
      Observation cfg (.checking wait) x (.waited wait terminated) x 0
  | park {x : Observed W J} {wait : Wait} {duration : Option ℕ}
      (h : wait.iteration x.inner x.now = .park duration) :
      Observation cfg (.checking wait) x (.park wait duration) x
        {.parked wait x.service.shared.terminated.notifications duration}
  | wake {x : Observed W J} {wait : Wait} {epoch : ℕ} {duration : Option ℕ} :
      Observation cfg (.parked wait epoch duration) x (.wake wait) x {.checking wait}
  /-- `wait_for` reads the value and marks it as seen. It resolves when the value is true. -/
  | poll {x : Observed W J} {r : W.Receiver Bool} :
      Observation cfg (.polling r) x (.poll (W.borrow x.service.shared.termination_tx)) x
        (if W.borrow x.service.shared.termination_tx then 0
        else {.pending (W.markUnchanged x.service.shared.termination_tx r)})
  | repoll {x : Observed W J} {r : W.Receiver Bool} :
      Observation cfg (.pending r) x .repoll x {.polling r}
  | submit {x : Observed W J} {r : W.Receiver ℕ} {job : J} {outcome : AdmitOutcome}
      {s' : Service W J} (hs : Service.Step cfg x.service (.admitJob job outcome) s') :
      Observation cfg (.submitting r) x (.service (.admitJob job outcome)) (x.after s')
        (afterAttempt r x.steps outcome)
  /-- `changed` resolves when there is an unseen change, and marks it as seen. -/
  | changed {x : Observed W J} {r : W.Receiver ℕ} {attempt : ℕ}
      (h : W.hasChanged x.service.shared.capacity_tx r = true) :
      Observation cfg (.saturated r attempt) x .changed x
        {.submitting (W.markUnchanged x.service.shared.capacity_tx r)}
  /-- A future is dropped. -/
  | dropPending {x : Observed W J} {r : W.Receiver Bool} : Observation cfg (.pending r) x .drop x 0
  | dropSaturated {x : Observed W J} {r : W.Receiver ℕ} {attempt : ℕ} :
      Observation cfg (.saturated r attempt) x .drop x 0

/-- A service with its observers. -/
abbrev World (W : Watch) (J : Type) := Pool (Observed W J) (Observer W)

namespace World

/-- A new service, with no observers. -/
abbrev init (cfg : Config) : World W J := ⟨⟨Service.init cfg, 0, 0⟩, 0⟩

/-- One step of the service, of the clock or of an observer. -/
abbrev Step (cfg : Config) : World W J → WorldEvent W J → World W J → Prop :=
  Pool.Step (Arrival cfg) (Observation cfg)

/-- The runs of a service with observers. -/
abbrev Run (cfg : Config) : List (WorldEvent W J) → World W J → Prop :=
  Transition.Run (init cfg) (Step cfg)

end World

/-- The action of the service in an event. -/
def WorldEvent.service? : WorldEvent W J → Option (Event W J)
  | .service e => some e
  | _ => none

/-- The history of the service alone. -/
abbrev inside (tr : List (WorldEvent W J)) : List (Event W J) := tr.filterMap WorldEvent.service?

/-- The arrival of an observer is at most a step of the service. -/
theorem Arrival.service_step {cfg : Config} {x y : Observed W J} {e : WorldEvent W J}
    {new : Multiset (Observer W)} (h : Arrival cfg x e y new) :
    (∃ e', e = .service e' ∧ Service.Step cfg x.service e' y.service) ∨
      e.service? = none ∧ y.service = x.service := by
  cases h with
  | service hs | awaitTermination hs | capacityChanges hs => exact Or.inl ⟨_, rfl, hs⟩
  | tick | wait => exact Or.inr ⟨rfl, rfl⟩

/-- What an observer does is at most a step of the service. -/
theorem Observation.service_step {cfg : Config} {o : Observer W} {x y : Observed W J}
    {e : WorldEvent W J} {new : Multiset (Observer W)} (h : Observation cfg o x e y new) :
    (∃ e', e = .service e' ∧ Service.Step cfg x.service e' y.service) ∨
      e.service? = none ∧ y.service = x.service := by
  cases h with
  | submit hs => exact Or.inl ⟨_, rfl, hs⟩
  | _ => exact Or.inr ⟨rfl, rfl⟩

/-- A step with observers is at most a step of the service. -/
theorem World.Step.service_step {cfg : Config} {w w' : World W J} {e : WorldEvent W J}
    (h : World.Step cfg w e w') :
    (∃ e', e = .service e' ∧ Service.Step cfg w.shared.service e' w'.shared.service) ∨
      e.service? = none ∧ w'.shared.service = w.shared.service := by
  rcases h with ha | ⟨⟨ho⟩⟩
  · exact ha.service_step
  · exact ho.service_step

/-- A run with observers is a run of the service. -/
theorem World.Run.service {cfg : Config} {tr : List (WorldEvent W J)} {w : World W J}
    (h : World.Run cfg tr w) : Service.Run cfg (inside tr) w.shared.service := by
  refine h.simulate (fun w => w.shared.service) WorldEvent.service? rfl ?_ ?_
  · intro w e w' e' hs he
    rcases World.Step.service_step hs with ⟨e'', rfl, hstep⟩ | ⟨hnone, -⟩
    · obtain rfl := Option.some.inj he
      exact hstep
    · rw [hnone] at he
      cases he
  · intro w e w' hs he
    rcases World.Step.service_step hs with ⟨e'', rfl, -⟩ | ⟨-, heq⟩
    · cases he
    · exact heq

/-- The number of steps is the length of the service's history. -/
theorem World.Run.steps {cfg : Config} {tr : List (WorldEvent W J)} {w : World W J}
    (h : World.Run cfg tr w) : w.shared.steps = (inside tr).length := by
  refine h.invariant (P := fun tr w => w.shared.steps = (inside tr).length) rfl ?_
  intro tr w e w' _ hsteps hs
  rcases hs with ha | ⟨⟨ho⟩⟩
  · cases ha with
    | service | awaitTermination | capacityChanges => exact congrArg Nat.succ hsteps
    | tick | wait => exact hsteps
  · cases ho with
    | submit => exact congrArg Nat.succ hsteps
    | _ => exact hsteps

/-! ## Iterations of a blocking wait -/

namespace Wait

variable {wait : Wait} {inner : RayonExecutorServiceInner J} {now : ℕ}

/-- The loop condition of the source is the negation of the termination predicate. -/
theorem loop_condition (inner : RayonExecutorServiceInner J) :
    (inner.lifecycle = .running ∨ inner.occupied ≠ 0) ↔ ¬ inner.Terminated := by
  unfold RayonExecutorServiceInner.Terminated
  tauto

/-- Once the predicate holds the loop is over. -/
theorem iteration_of_terminated (h : inner.Terminated) :
    wait.iteration inner now = .returned true := by
  unfold iteration
  rw [if_neg ((loop_condition inner).not.2 (not_not.2 h))]

/-- Before the predicate holds a wait parks, or its timeout is over. -/
theorem iteration_of_not_terminated (wait : Wait) (now : ℕ) (h : ¬ inner.Terminated) :
    wait.timeout = none ∧ wait.iteration inner now = .park none ∨
    ∃ timeout, wait.timeout = some timeout ∧
      (timeout ≤ now - wait.started ∧ wait.iteration inner now = .returned false ∨
        now - wait.started < timeout ∧
          wait.iteration inner now = .park (some (timeout - (now - wait.started)))) := by
  unfold iteration
  rw [if_pos ((loop_condition inner).2 h)]
  cases wait.timeout with
  | none => exact Or.inl ⟨rfl, rfl⟩
  | some timeout =>
    refine Or.inr ⟨timeout, rfl, ?_⟩
    by_cases hr : timeout - (now - wait.started) = 0
    · exact Or.inl ⟨by omega, if_pos hr⟩
    · exact Or.inr ⟨by omega, if_neg hr⟩

/-- A wait returns true exactly when the predicate holds. -/
theorem returned {answer : Bool} (h : wait.iteration inner now = .returned answer) :
    answer = true ↔ inner.Terminated := by
  constructor
  · rintro rfl
    by_contra ht
    rcases iteration_of_not_terminated wait now ht with ⟨-, hi⟩ |
      ⟨_, -, ⟨-, hi⟩ | ⟨-, hi⟩⟩ <;> simp [hi] at h
  · intro ht
    rw [iteration_of_terminated ht] at h
    exact (Iteration.returned.inj h).symm

/-- A wait returns false when the predicate does not hold and its timeout is over. -/
theorem returned_false (h : wait.iteration inner now = .returned false) :
    ¬ inner.Terminated ∧ ∃ timeout, wait.timeout = some timeout ∧ timeout ≤ now - wait.started := by
  have ht : ¬ inner.Terminated := fun ht => by simp [iteration_of_terminated ht] at h
  refine ⟨ht, ?_⟩
  rcases iteration_of_not_terminated wait now ht with ⟨-, hi⟩ | ⟨timeout, hw, ⟨hle, -⟩ | ⟨-, hi⟩⟩
  · simp [hi] at h
  · exact ⟨timeout, hw, hle⟩
  · simp [hi] at h

/-- A wait parks when the predicate does not hold, for the whole time that remains. -/
theorem parks {duration : Option ℕ} (h : wait.iteration inner now = .park duration) :
    ¬ inner.Terminated ∧ (wait.timeout = none ∧ duration = none ∨
      ∃ timeout, wait.timeout = some timeout ∧ now - wait.started < timeout ∧
        duration = some (timeout - (now - wait.started))) := by
  have ht : ¬ inner.Terminated := fun ht => by simp [iteration_of_terminated ht] at h
  refine ⟨ht, ?_⟩
  rcases iteration_of_not_terminated wait now ht with ⟨hw, hi⟩ | ⟨timeout, hw, ⟨-, hi⟩ | ⟨hlt, hi⟩⟩
  · rw [hi, Iteration.park.injEq] at h
    exact Or.inl ⟨hw, h.symm⟩
  · simp [hi] at h
  · rw [hi, Iteration.park.injEq] at h
    exact Or.inr ⟨timeout, hw, hlt, h.symm⟩

end Wait

/-! ## Small runs -/

/-- A run of the service is one without observers. -/
theorem Service.Run.world {cfg : Config} {tr : List (Event W J)} {s : Service W J}
    (h : Service.Run cfg tr s) :
    World.Run cfg (tr.map .service) ⟨⟨s, 0, tr.length⟩, 0⟩ := by
  induction h with
  | init => exact .init
  | step _ hs ih => exact ih.step (.quick (.service hs))

/-- A new service with room for two tasks, after it has been shut down. -/
def tinyShutdown : RayonExecutorServiceState Watch.versioned ℕ :=
  (RayonExecutorServiceState.new Watch.versioned ℕ 2 1).shutdown.state

/-- A waiter parks for five nanoseconds, and the service is shut down. -/
theorem tinyShutdown_run : World.Run tinyConfig
    [.service .shutdown, .park ⟨some 5, 0⟩ (some 5), .wait (some 5)]
    ⟨⟨⟨tinyShutdown, {⟨⟨true, true⟩, .returning .shutdown⟩}⟩, 0, 1⟩,
      {.parked ⟨some 5, 0⟩ 0 (some 5)}⟩ := by
  have h1 : World.Run (J := ℕ) tinyConfig [.wait (some 5)]
      ⟨⟨Service.init tinyConfig, 0, 0⟩, {(.checking ⟨some 5, 0⟩ : Observer Watch.versioned)}⟩ :=
    .step .init (.first (.wait (by simp [durationMax])))
  have h2 : World.Run (J := ℕ) tinyConfig [.park ⟨some 5, 0⟩ (some 5), .wait (some 5)]
      ⟨⟨Service.init tinyConfig, 0, 0⟩,
        {(.parked ⟨some 5, 0⟩ 0 (some 5) : Observer Watch.versioned)}⟩ :=
    .step h1 (.act (.of_eq (.park rfl) rfl rfl))
  have hs : (RayonExecutorServiceState.new Watch.versioned ℕ 2 1).shutdown =
      ⟨(), ⟨true, true⟩, tinyShutdown⟩ := rfl
  have h3 : Service.Step tinyConfig (Service.init tinyConfig) (.shutdown : Event Watch.versioned ℕ)
      ⟨tinyShutdown, {⟨⟨true, true⟩, .returning .shutdown⟩}⟩ := .first (.shutdown hs)
  exact .step h2 (.quick (.service h3))

end RayonExecutor
