import RayonExecutor.Lib.OrderedMap
import Mathlib.Data.Finset.Insert
import Mathlib.Data.Finset.Card

/-!
# The data under the service mutex

The types of `src/internal` and of the executor interface that the service state is made of, under
the source's names. A job is an element of a type `J`: the queue only stores it and hands it over.
A `BTreeMap` is an `OrderedMap`, a `BTreeSet` a `Finset`, and the counters are natural numbers, with
the width of `usize` as the parameter `bits` where the code checks for overflow.
-/

namespace RayonExecutor

/-- `ExecutorServiceLifecycle` of the executor interface. -/
inductive ExecutorServiceLifecycle
  | running
  | shuttingDown
  | stopping
  | terminated
  deriving DecidableEq, Repr

/-- The position of a lifecycle in `Running < ShuttingDown < Stopping < Terminated`. -/
def ExecutorServiceLifecycle.rank : ExecutorServiceLifecycle → ℕ
  | .running => 0
  | .shuttingDown => 1
  | .stopping => 2
  | .terminated => 3

/-- The errors of `SubmissionError` that `admit` returns. -/
inductive SubmissionError
  | shutdown
  | saturated
  deriving DecidableEq, Repr

/-- `CancelResult` of the executor interface, in the values this crate returns. -/
inductive CancelResult
  | cancelled
  | alreadyRunning
  | alreadyFinished
  deriving DecidableEq, Repr

/-- `Admission`: a reserved admission and the number of Rayon closures to dispatch. -/
structure Admission where
  task_id : ℕ
  dispatch_count : ℕ
  deriving DecidableEq, Repr

/-- `StopReport` of the executor interface. -/
structure StopReport where
  queued : ℕ
  running : ℕ
  cancelled : ℕ
  deriving DecidableEq, Repr

/-- `CancelDisposition`: who has to clean up a task that a handle wants to cancel. -/
inductive CancelDisposition (J : Type)
  | owned (job : J)
  | inProgress
  | absent
  deriving DecidableEq, Repr

/-- `RayonExecutorServiceStats`. -/
structure RayonExecutorServiceStats where
  lifecycle : ExecutorServiceLifecycle
  task_capacity : ℕ
  queued : ℕ
  running : ℕ
  cancelling : ℕ
  deriving DecidableEq, Repr

/-- `RayonExecutorServiceInner`, the data protected by the service mutex. -/
structure RayonExecutorServiceInner (J : Type) where
  lifecycle : ExecutorServiceLifecycle
  task_capacity : ℕ
  num_threads : ℕ
  next_task_id : ℕ
  running : ℕ
  running_tasks : Finset ℕ
  scheduled : ℕ
  queue : OrderedMap ℕ J
  cancelling : Finset ℕ

namespace RayonExecutorServiceInner

variable {J : Type}

/-- `occupied`: the number of accepted tasks that have not reached a terminal state. -/
def occupied (inner : RayonExecutorServiceInner J) : ℕ :=
  inner.queue.length + inner.running + inner.cancelling.card

/-- The termination predicate, which the source writes out wherever it tests it: the service is no
longer running and holds no task. -/
def Terminated (inner : RayonExecutorServiceInner J) : Prop :=
  inner.lifecycle ≠ .running ∧ inner.occupied = 0

instance (inner : RayonExecutorServiceInner J) : Decidable inner.Terminated :=
  inferInstanceAs (Decidable (_ ∧ _))

/-- The termination predicate, one container at a time. -/
theorem terminated_iff {inner : RayonExecutorServiceInner J} : inner.Terminated ↔
    inner.lifecycle ≠ .running ∧ inner.queue.length = 0 ∧ inner.running = 0 ∧
      inner.cancelling = ∅ := by
  unfold Terminated occupied
  rw [← Finset.card_eq_zero]
  constructor
  · rintro ⟨hl, ho⟩
    exact ⟨hl, by omega, by omega, by omega⟩
  · rintro ⟨hl, hq, hr, hc⟩
    exact ⟨hl, by omega⟩

end RayonExecutorServiceInner

end RayonExecutor
