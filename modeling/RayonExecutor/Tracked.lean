import RayonExecutor.Drain
import Mathlib.Logic.Function.Basic

/-!
# Tracked tasks

The service with the result slots of its callables. A job is a callable or a detached runnable; a
callable owns the sending side of a result slot, whose receiving side is the task's handle. The slot
and the runner that fills it belong to the executor interface: `TaskEndpoint` states what is used of
them. The table `Tracked.slots` holds the slot of every accepted callable under its identifier, and
`Tracked.handles` the tasks whose submission has returned a handle. Only those can be cancelled, by
any number of callers and through either endpoint.

A step is a step of the service together with its effect on the slots, or a step of the runner
inside `job.run()`: the call of the callable, or the publication of its result.
-/

namespace RayonExecutor

open Transition Pool

/-- The statuses that the runner publishes for a call. -/
def TaskStatus.OfCall (status : TaskStatus) : Prop :=
  status = .succeeded ∨ status = .failed ∨ status = .panicked

/-- A published result is terminal, and not a cancellation. -/
theorem TaskStatus.OfCall.terminal {status : TaskStatus} (h : status.OfCall) :
    status.Terminal ∧ status ≠ .cancelled := by
  rcases h with rfl | rfl | rfl <;> decide

/-- The two endpoints of a task in the executor interface: the operations on a result slot, and
what this crate relies on. -/
structure TaskEndpoint where
  Slot : Type
  /-- The slot of `TaskEndpointPair::new`. -/
  fresh : Slot
  status : Slot → TaskStatus
  /-- `TaskSlot::accept`. -/
  accept : Slot → Slot
  /-- The start of `TaskRunner::run`, which says whether the callable is called. -/
  start : Slot → Bool × Slot
  /-- The end of `TaskRunner::run` after a call. -/
  publish : TaskStatus → Slot → Slot
  /-- `TaskSlot::cancel_unstarted`. -/
  cancelUnstarted : Slot → Slot
  /-- `cancel` of the cancellation handle that the inner tracked task creates. -/
  cancel : Slot → CancelResult × Slot
  status_accept : status (accept fresh) = .pending
  /-- The runner starts a pending task. -/
  start_of_pending : ∀ {s : Slot}, status s = .pending →
    (start s).1 = true ∧ status (start s).2 = .running
  /-- The runner does not call the callable of a task that is not pending. -/
  start_of_not_pending : ∀ {s : Slot}, status s ≠ .pending → start s = (false, s)
  /-- The runner publishes the result of the call. -/
  status_publish : ∀ {s : Slot} {result : TaskStatus}, status s = .running → result.OfCall →
    status (publish result s) = result
  /-- Cancelling an unstarted task publishes the cancellation. -/
  status_cancelUnstarted : ∀ {s : Slot}, status s = .pending →
    status (cancelUnstarted s) = .cancelled
  /-- A finished task is not cancelled. -/
  cancel_of_terminal : ∀ {s : Slot}, (status s).Terminal → cancel s = (.alreadyFinished, s)

/-- The slot that is its status. -/
def TaskEndpoint.plain : TaskEndpoint where
  Slot := TaskStatus
  fresh := .pending
  status s := s
  accept s := s
  start s := if s = .pending then (true, .running) else (false, s)
  publish result _ := result
  cancelUnstarted s := if s = .pending then .cancelled else s
  cancel s := match s with
    | .pending => (.cancelled, .cancelled)
    | .running => (.alreadyRunning, .running)
    | s => (.alreadyFinished, s)
  status_accept := rfl
  start_of_pending h := by simp [h]
  start_of_not_pending h := by simp [h]
  status_publish _ _ := rfl
  status_cancelUnstarted h := by simp [h]
  cancel_of_terminal {s} h := by
    obtain ⟨hp, hr⟩ := h
    cases s <;> simp at hp hr ⊢

/-- The jobs that implement `QueuedJob`: `CallableJob` and `RunnableJob`. -/
inductive QueuedJob (C T : Type)
  | callable (task : C)
  | runnable (task : T)

/-- A service with the slots and the handles of its callables. -/
structure Tracked (W : Watch) (E : TaskEndpoint) (C T : Type) where
  service : Service W (QueuedJob C T)
  slots : ℕ → Option E.Slot
  handles : Finset ℕ

/-- The events of a service with tracked tasks. -/
inductive TrackedEvent (W : Watch) (C T : Type)
  | service (e : Event W (QueuedJob C T))
  /-- The runner calls the callable. -/
  | invoke (task_id : ℕ)
  /-- The runner publishes the result of the call. -/
  | publish (task_id : ℕ) (status : TaskStatus)

namespace Tracked

variable {W : Watch} {E : TaskEndpoint} {C T : Type}

/-- What the tasks' endpoints allow the service to do next: only a task with a handle is cancelled,
`job.run()` returns when the result is published, and the fallbacks of the two endpoints answer what
the slot says. -/
def Allows (t : Tracked W E C T) : Event W (QueuedJob C T) → Prop
  | .cancelPendingTask _ task_id _ => task_id ∈ t.handles
  | .finishRunning task_id _ => ∀ slot, t.slots task_id = some slot → (E.status slot).Terminal
  | .status task_id status => ∃ slot, t.slots task_id = some slot ∧ status = E.status slot
  | .fallback task_id result => ∃ slot, t.slots task_id = some slot ∧ result = (E.cancel slot).1
  | _ => True

/-- The effect of an action of the service on the slots: `accept`, `cancel_unstarted`, and the
fallback of the cancellation handle. -/
def slotsAfter (slots : ℕ → Option E.Slot) : Event W (QueuedJob C T) → ℕ → Option E.Slot
  | .admitJob (.callable _) (.ok admission) =>
    Function.update slots admission.task_id (some (E.accept E.fresh))
  | .cancel task_id (.callable _) =>
    Function.update slots task_id ((slots task_id).map E.cancelUnstarted)
  | .fallback task_id _ =>
    Function.update slots task_id ((slots task_id).map fun slot => (E.cancel slot).2)
  | _ => slots

/-- A submission of a callable returns its handle. The handle that `submit_callable` returns cannot
cancel, so counting it too only adds callers. -/
def handlesAfter (t : Tracked W E C T) : Event W (QueuedJob C T) → Finset ℕ
  | .returned (.submitted task_id) =>
    if (t.slots task_id).isSome then insert task_id t.handles else t.handles
  | _ => t.handles

/-- A new service has no tasks. -/
def init (cfg : Config) : Tracked W E C T := ⟨Service.init cfg, fun _ => none, ∅⟩

/-- A step of the service with its slots. -/
inductive Step (cfg : Config) : Tracked W E C T → TrackedEvent W C T → Tracked W E C T → Prop
  | service {t : Tracked W E C T} {e : Event W (QueuedJob C T)} {s' : Service W (QueuedJob C T)}
      (hs : Service.Step cfg t.service e s') (h : t.Allows e) :
      Step cfg t (.service e) ⟨s', slotsAfter t.slots e, t.handlesAfter e⟩
  | invoke {t : Tracked W E C T} {task_id : ℕ} {slot : E.Slot}
      (ht : ⟨.none, .running task_id⟩ ∈ t.service.threads) (hslot : t.slots task_id = some slot)
      (hstart : (E.start slot).1 = true) :
      Step cfg t (.invoke task_id)
        { t with slots := Function.update t.slots task_id (some (E.start slot).2) }
  | publish {t : Tracked W E C T} {task_id : ℕ} {slot : E.Slot} {status : TaskStatus}
      (ht : ⟨.none, .running task_id⟩ ∈ t.service.threads) (hslot : t.slots task_id = some slot)
      (hrun : E.status slot = .running) (hstatus : status.OfCall) :
      Step cfg t (.publish task_id status)
        { t with slots := Function.update t.slots task_id (some (E.publish status slot)) }

/-- A step of the service to a state given with its slots and handles. -/
theorem Step.of_eq {cfg : Config} {t : Tracked W E C T} {e : Event W (QueuedJob C T)}
    {s' : Service W (QueuedJob C T)} {slots : ℕ → Option E.Slot} {handles : Finset ℕ}
    (hs : Service.Step cfg t.service e s') (h : t.Allows e) (hslots : slots = slotsAfter t.slots e)
    (hhandles : handles = t.handlesAfter e) : Step cfg t (.service e) ⟨s', slots, handles⟩ :=
  hslots ▸ hhandles ▸ .service hs h

/-- The runs of a service with tracked tasks. -/
abbrev Run (cfg : Config) : List (TrackedEvent W C T) → Tracked W E C T → Prop :=
  Transition.Run (init cfg) (Step cfg)

end Tracked

/-- The action of the service in an event. -/
def TrackedEvent.service? {W : Watch} {C T : Type} :
    TrackedEvent W C T → Option (Event W (QueuedJob C T))
  | .service e => some e
  | _ => none

/-- The history of the service alone. -/
abbrev core {W : Watch} {C T : Type} (tr : List (TrackedEvent W C T)) :
    List (Event W (QueuedJob C T)) := tr.filterMap TrackedEvent.service?

/-- A run with tracked tasks is a run of the service. -/
theorem Tracked.Run.core {W : Watch} {E : TaskEndpoint} {C T : Type} {cfg : Config}
    {tr : List (TrackedEvent W C T)} {t : Tracked W E C T} (h : Tracked.Run cfg tr t) :
    Service.Run cfg (core tr) t.service := by
  refine h.simulate Tracked.service TrackedEvent.service? rfl ?_ ?_
  · rintro _ _ _ _ ⟨hs, -⟩ he
    · obtain rfl := Option.some.inj he
      exact hs
    · cases he
    · cases he
  · rintro _ _ _ ⟨-, -⟩ he
    · cases he
    · rfl
    · rfl

end RayonExecutor
