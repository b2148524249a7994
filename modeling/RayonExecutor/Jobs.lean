import RayonExecutor.Code
import RayonExecutor.Tracked

/-!
# Callable jobs

`CallableJob` of `src/internal/callable_job.rs`, down to the callable's own behaviour. What is user
code here is the call of the callable, its destructor, the destructors of panic payloads, and the
wakers of the futures that wait for the result; each may unwind (`Behaviour`). The closure that
`run` hands to the runner owns the callable in a cell and takes it out when it is called. The runner
belongs to the executor interface, so `TaskRunner` states what is relied on: a pending slot is
started, the closure called once, and its outcome published.
-/

namespace RayonExecutor

open Program

/-- What a callable job does: it calls its callable, destroys it at the end of a scope or while a
panic unwinds through that scope, drops a payload, takes the callable out of the closure's cell, and
uses its slot. -/
inductive JobEffect (T P F V : Type)
  | take
  | call (task : T)
  | dropTask (task : T)
  | dropUnwinding (task : T)
  | dropPayload (payload : P)
  | start
  | publish (outcome : Except P (Except F V))
  | cancelUnstarted

/-- How each effect of a job answers, for results of type `V` and errors of type `F`. A destructor
that unwinds while another panic does would abort the process. A publication wakes the futures that
wait for the result. -/
@[reducible] def JobEffect.Answer {T P F V : Type} : JobEffect T P F V → Type
  | .take => Option T
  | .call _ => Except P (Except F V)
  | .dropTask _ => Except P Unit
  | .dropUnwinding _ => Unit
  | .dropPayload _ => Except P Unit
  | .start => Bool
  | .publish _ => Except P Unit
  | .cancelUnstarted => Except P Unit

/-- A program of a job. -/
abbrev JobCode (T P F V α : Type) := Program (JobEffect T P F V) JobEffect.Answer P α

namespace CallableJob

variable {T P F V α : Type}

/-- A scope that owns the callable and destroys it at its end, on both exits. -/
def owning (task : T) (body : JobCode T P F V α) : JobCode T P F V α := do
  match ← body.catchUnwind with
  | .ok a =>
    resume (← perform (JobEffect.dropTask task))
    pure a
  | .error payload =>
    perform (JobEffect.dropUnwinding task)
    .unwind payload

/-- The closure `safe_task` of `run`, where `message` gives the payload of a message. -/
def safeTask (message : String → P) : JobCode T P F V (Except F V) := do
  match ← perform JobEffect.take with
  | none => .unwind (message "queued callable runs once")
  | some task =>
    match ← (owning task do resume (← perform (JobEffect.call task))).catchUnwind with
    | .ok result => pure result
    | .error payload =>
      discardPanicPayload do resume (← perform (JobEffect.dropPayload payload))
      .unwind (message "callable panicked")

/-- `cancel`, which drops the callable explicitly at its end, and on the way if a waker unwinds out
of the publication. -/
def cancel (task : T) : JobCode T P F V Unit :=
  owning task do resume (← perform JobEffect.cancelUnstarted)

end CallableJob

/-! ## Behaviours -/

/-- How the user code of a job behaves. A payload's destructor may unwind with a further payload,
which has a destructor of its own. -/
structure Behaviour (T P F V : Type) where
  call : T → Except P (Except F V)
  drop : T → Except P Unit
  dropPayload : P → Except P Unit
  /-- The wakers of the futures that wait for the result. -/
  wake : Except P Unit

/-- The cell of the closure and the slot of the job. -/
structure JobState (T : Type) (E : TaskEndpoint) where
  cell : Option T
  slot : E.Slot

section
variable {T P F V : Type} {E : TaskEndpoint}

/-- The status of the result that the runner publishes for the outcome of a task. -/
def statusOf : Except P (Except F V) → TaskStatus
  | .ok (.ok _) => .succeeded
  | .ok (.error _) => .failed
  | .error _ => .panicked

/-- The answers to the effects of a job. -/
def Behaviour.answer (b : Behaviour T P F V) :
    (e : JobEffect T P F V) → JobState T E → e.Answer × JobState T E
  | .take, x => (x.cell, { x with cell := none })
  | .call task, x => (b.call task, x)
  | .dropTask task, x => (b.drop task, x)
  | .dropUnwinding _, x => ((), x)
  | .dropPayload payload, x => (b.dropPayload payload, x)
  | .start, x => ((E.start x.slot).1, { x with slot := (E.start x.slot).2 })
  | .publish outcome, x => (b.wake, { x with slot := E.publish (statusOf outcome) x.slot })
  | .cancelUnstarted, x => (b.wake, { x with slot := E.cancelUnstarted x.slot })

/-- The status that the runner publishes is one that belongs to a call. -/
theorem statusOf_ofCall (o : Except P (Except F V)) : (statusOf o).OfCall := by
  rcases o with payload | error | value
  · exact Or.inr (Or.inr rfl)
  · exact Or.inr (Or.inl rfl)
  · exact Or.inl rfl

end

/-- `TaskRunner::run` of the executor interface, and what this crate relies on: given a pending slot
it starts it, calls the task once, catches its unwinding, and publishes the outcome. It returns
then, unless a waker unwinds out of the publication. -/
structure TaskRunner (T P F V : Type) (E : TaskEndpoint) where
  run : JobCode T P F V (Except F V) → JobCode T P F V Unit
  exec_run : ∀ (b : Behaviour T P F V) (task : JobCode T P F V (Except F V)) (x y : JobState T E)
    (es : List (JobEffect T P F V)) (o : Except P (Except F V)), E.status x.slot = .pending →
    task.exec b.answer { x with slot := (E.start x.slot).2 } = (es, y, o) →
    (run task).exec b.answer x = (.start :: es ++ [.publish o],
      { y with slot := E.publish (statusOf o) y.slot }, b.wake)

/-- The runner that does what is relied on and nothing else. -/
def TaskRunner.plain (T P F V : Type) (E : TaskEndpoint) : TaskRunner T P F V E where
  run task := do
    if ← perform JobEffect.start then
      let outcome ← task.catchUnwind
      resume (← perform (JobEffect.publish outcome))
    else pure ()
  exec_run b task x y es o hpending h := by
    have hstart := (E.start_of_pending hpending).1
    have hcatch := exec_bind_of_ok (f := fun outcome => .effect (.publish outcome) resume)
      (exec_catchUnwind h)
    simp only [perform_bind, exec, Behaviour.answer, hstart, if_true, hcatch]
    cases b.wake <;> simp [exec]

/-- `CallableJob::run`. -/
def CallableJob.run {T P F V : Type} {E : TaskEndpoint} (runner : TaskRunner T P F V E)
    (message : String → P) : JobCode T P F V Unit := runner.run (safeTask message)

/-! ## What a call does -/

section
variable {T P F V : Type} {E : TaskEndpoint}

/-- The payload with which the call of the callable unwinds, or else its destructor. -/
def Behaviour.unwinds (b : Behaviour T P F V) (task : T) : Option P :=
  match b.call task, b.drop task with
  | .error payload, _ => some payload
  | .ok _, .error payload => some payload
  | .ok _, .ok () => none

/-- The outcome of the closure: the result of the call, unless something has unwound. -/
def Behaviour.outcome (b : Behaviour T P F V) (message : String → P) (task : T) :
    Except P (Except F V) :=
  match b.call task, b.unwinds task with
  | .ok result, none => .ok result
  | _, _ => .error (message "callable panicked")

/-- The destruction of the callable at the end of a scope that ends with the outcome. -/
@[simp] def destruction {A : Type} (task : T) : Except P A → JobEffect T P F V
  | .ok _ => .dropTask task
  | .error _ => .dropUnwinding task

/-- The effects of the closure. -/
def Behaviour.effects (b : Behaviour T P F V) (task : T) : List (JobEffect T P F V) :=
  [.take, .call task, destruction task (b.call task)] ++ (b.unwinds task).toList.map .dropPayload

/-- The closure has the effects `effects` and the outcome `outcome`. -/
theorem CallableJob.exec_safeTask (b : Behaviour T P F V) (message : String → P) (task : T)
    (slot : E.Slot) : (safeTask message).exec b.answer (⟨some task, slot⟩ : JobState T E) =
      (b.effects task, ⟨none, slot⟩, b.outcome message task) := by
  unfold safeTask owning discardPanicPayload
  cases hcall : b.call task with
  | error payload =>
    -- the call has unwound: the callable is destroyed on the way, then the payload
    cases hpay : b.dropPayload payload <;>
      simp [exec, Behaviour.answer, Behaviour.effects, Behaviour.outcome, Behaviour.unwinds, hcall,
        hpay]
  | ok result =>
    cases hdrop : b.drop task with
    | ok u =>
      simp [exec, Behaviour.answer, Behaviour.effects, Behaviour.outcome, Behaviour.unwinds, hcall,
        hdrop]
    | error payload =>
      -- the destructor at the end of the scope has unwound
      cases hpay : b.dropPayload payload <;>
        simp [exec, Behaviour.answer, Behaviour.effects, Behaviour.outcome, Behaviour.unwinds,
          hcall, hdrop, hpay]

/-- `run` starts the slot, does what the closure does, and publishes the outcome. -/
theorem CallableJob.exec_run (runner : TaskRunner T P F V E) (b : Behaviour T P F V)
    (message : String → P) (task : T) {slot : E.Slot} (hslot : E.status slot = .pending) :
    (CallableJob.run runner message).exec b.answer ⟨some task, slot⟩ =
      (.start :: b.effects task ++ [.publish (b.outcome message task)],
        ⟨none, E.publish (statusOf (b.outcome message task)) (E.start slot).2⟩, b.wake) :=
  runner.exec_run b (safeTask message) ⟨some task, slot⟩ _ _ _ hslot
    (exec_safeTask b message task _)

/-- Whether an effect is the call of the callable. -/
def JobEffect.isCall : JobEffect T P F V → Bool
  | .call _ => true
  | _ => false

/-- Whether an effect destroys the callable. -/
def JobEffect.destroys : JobEffect T P F V → Bool
  | .dropTask _ => true
  | .dropUnwinding _ => true
  | _ => false

/-- The payload that an effect drops. -/
def JobEffect.dropped? : JobEffect T P F V → Option P
  | .dropPayload payload => some payload
  | _ => none

/-- Whether an effect takes the callable out of its cell. -/
def JobEffect.isTake : JobEffect T P F V → Bool
  | .take => true
  | _ => false

/-- Effects that are no drops of payloads are the first three of the closure. -/
theorem Behaviour.filter_effects (b : Behaviour T P F V) (task : T) {p : JobEffect T P F V → Bool}
    (hp : ∀ payload, p (.dropPayload payload) = false) : (b.effects task).filter p =
      [.take, .call task, destruction task (b.call task)].filter p := by
  have hpayloads : ((b.unwinds task).toList.map JobEffect.dropPayload).filter p = [] := by
    refine List.filter_eq_nil_iff.2 fun e he => ?_
    obtain ⟨payload, -, rfl⟩ := List.mem_map.1 he
    simp [hp]
  rw [Behaviour.effects, List.filter_append, hpayloads, List.append_nil]

/-- The closure drops the payload that has unwound. -/
theorem Behaviour.dropped_effects (b : Behaviour T P F V) (task : T) :
    (b.effects task).filterMap JobEffect.dropped? = (b.unwinds task).toList := by
  unfold Behaviour.effects
  rw [List.filterMap_append]
  cases b.call task <;> cases b.unwinds task <;> rfl

/-- How a callable job classifies its callable and releases its resources. -/
structure ClassifiesAndReleases (runner : TaskRunner T P F V E) (b : Behaviour T P F V)
    (message : String → P) (task : T) (slot : E.Slot) : Prop where
  /-- The closure ends in the result of the call if nothing has unwound, and otherwise unwinds with
  the static payload. -/
  closure : (CallableJob.safeTask message).exec b.answer (⟨some task, slot⟩ : JobState T E) =
    (b.effects task, ⟨none, slot⟩, b.outcome message task)
  returns : ∀ result, b.call task = .ok result → b.drop task = .ok () →
    b.outcome message task = .ok result
  unwinds : (∃ payload, b.call task = .error payload ∨ b.drop task = .error payload) →
    b.outcome message task = .error (message "callable panicked")
  /-- `run` has the effects of the closure and then publishes its outcome. It returns, unless a
  waker of the result unwinds out of the publication. -/
  run : ∃ published, (CallableJob.run runner message).exec b.answer ⟨some task, slot⟩ =
      (.start :: b.effects task ++ [.publish (b.outcome message task)],
        ⟨none, published⟩, b.wake) ∧
    E.status published = statusOf (b.outcome message task)
  /-- The callable is called once. -/
  called : (b.effects task).filter JobEffect.isCall = [.call task]
  /-- The callable is destroyed once. -/
  destroyed : ((b.effects task).filter JobEffect.destroys).length = 1
  /-- The payload that has unwound is dropped once, and no other payload is. -/
  dropped : (b.effects task).filterMap JobEffect.dropped? = (b.unwinds task).toList
  /-- The cell is emptied once, when it is full. -/
  taken : (b.effects task).filter JobEffect.isTake = [.take]
  /-- `cancel` publishes the cancellation, then destroys the callable and does nothing else,
  whether the destructor returns or unwinds. -/
  cancel : ∀ cell, (CallableJob.cancel task).exec b.answer (⟨cell, slot⟩ : JobState T E) =
      ([.cancelUnstarted, destruction task b.wake], ⟨cell, E.cancelUnstarted slot⟩,
        b.wake.bind fun _ => b.drop task) ∧
    E.status (E.cancelUnstarted slot) = .cancelled

/-- A callable job classifies every behaviour of its callable and releases its resources once. -/
theorem classifies_and_releases (runner : TaskRunner T P F V E) (b : Behaviour T P F V)
    (message : String → P) (task : T) {slot : E.Slot} (hslot : E.status slot = .pending) :
    ClassifiesAndReleases runner b message task slot where
  closure := CallableJob.exec_safeTask b message task slot
  returns result hcall hdrop := by simp [Behaviour.outcome, Behaviour.unwinds, hcall, hdrop]
  unwinds := by
    rintro ⟨payload, h | h⟩
    · simp [Behaviour.outcome, h]
    · cases hcall : b.call task <;> simp [Behaviour.outcome, Behaviour.unwinds, hcall, h]
  run := ⟨_, CallableJob.exec_run runner b message task hslot,
    E.status_publish (E.start_of_pending hslot).2 (statusOf_ofCall _)⟩
  called := by
    rw [b.filter_effects task fun _ => rfl]
    cases b.call task <;> rfl
  destroyed := by
    rw [b.filter_effects task fun _ => rfl]
    cases b.call task <;> rfl
  dropped := b.dropped_effects task
  taken := by
    rw [b.filter_effects task fun _ => rfl]
    cases b.call task <;> rfl
  cancel cell := by
    refine ⟨?_, E.status_cancelUnstarted hslot⟩
    unfold CallableJob.cancel CallableJob.owning
    cases hwake : b.wake with
    | error payload => simp [exec, Behaviour.answer, destruction, hwake, Except.bind]
    | ok u =>
      cases hdrop : b.drop task <;>
        simp [exec, Behaviour.answer, destruction, hwake, hdrop, Except.bind]

end

/-- Callables that panic with a payload whose destructor panics as well. -/
def nestedBehaviour : Behaviour ℕ String ℕ ℕ where
  call _ := .error "outer"
  drop _ := .ok ()
  dropPayload payload := .error (payload ++ " inner")
  wake := .ok ()

/-- A callable that panics so is reported as panicked, with its payload dropped once. -/
theorem classifies_and_releases_tiny : ClassifiesAndReleases (TaskRunner.plain ℕ String ℕ ℕ .plain)
    nestedBehaviour id 7 TaskStatus.pending :=
  classifies_and_releases _ nestedBehaviour id 7 rfl

end RayonExecutor
