import RayonExecutor.Answers

/-!
# What a `Cancelled` answer shows

A result has two parts. The executor interface stores the terminal status of a task first and sends
the result after it, and only then does `TaskSlot::cancel_unstarted` return, or the runner.
`Sending` adds these moments to the service with tracked tasks: between the two parts `status` is
terminal, and `try_get` may still be pending.

A cancel call that claims its task itself returns `Cancelled` when `cancel_unstarted` is over. A
call that finds the task in the hands of another canceller, or of a stop loop, returns `Cancelled`
from the cancelling set alone. It shows the cancellation if the owner has returned from
`cancel_unstarted` by then (`cancelled_visible`). Otherwise it may show neither part.
-/

namespace RayonExecutor

open Transition Pool

variable {W : Watch} {E : TaskEndpoint} {C T : Type}

/-! ## The two parts of a result -/

/-- A service with tracked tasks, the tasks whose result has been sent, and those for which
`cancel_unstarted` has returned. -/
structure Sending (W : Watch) (E : TaskEndpoint) (C T : Type) where
  tracked : Tracked W E C T
  sent : Finset ℕ
  returned : Finset ℕ

/-- The events of a service with tracked tasks, in which `cancel` and `publish` store the status. -/
inductive SendingEvent (W : Watch) (C T : Type)
  | tracked (e : TrackedEvent W C T)
  /-- The result of the task is sent. -/
  | send (task_id : ℕ)
  /-- `cancel_unstarted` returns. -/
  | cancelUnstarted (task_id : ℕ)

/-- A thread is inside `job.cancel()` for the task. -/
def Tracked.Cancels (t : Tracked W E C T) (task_id : ℕ) : Prop :=
  ∃ jobs ret, ⟨.none, .cancelling task_id jobs ret⟩ ∈ t.service.threads

/-- A worker is inside `job.run()` for the task. -/
def Tracked.Runs (t : Tracked W E C T) (task_id : ℕ) : Prop :=
  ⟨.none, .running task_id⟩ ∈ t.service.threads

namespace Sending

/-- What the inside of the jobs allows the service to do next: `job.run()` returns when the result
is sent, and `job.cancel()` when `cancel_unstarted` has returned. -/
def Allows (x : Sending W E C T) : TrackedEvent W C T → Prop
  | .service (.finishRunning task_id _) => (x.tracked.slots task_id).isSome → task_id ∈ x.sent
  | .service (.finishCancelling task_id) => (x.tracked.slots task_id).isSome → task_id ∈ x.returned
  | _ => True

/-- A step of the service with tracked tasks, or one inside the publication of a result. -/
inductive Step (cfg : Config) :
    Sending W E C T → SendingEvent W C T → Sending W E C T → Prop
  | tracked {x : Sending W E C T} {e : TrackedEvent W C T} {t' : Tracked W E C T}
      (hs : Tracked.Step cfg x.tracked e t') (h : x.Allows e) :
      Step cfg x (.tracked e) { x with tracked := t' }
  | send {x : Sending W E C T} {task_id : ℕ} {slot : E.Slot}
      (ht : x.tracked.Runs task_id ∨ x.tracked.Cancels task_id)
      (hslot : x.tracked.slots task_id = some slot) (hterm : (E.status slot).Terminal) :
      Step cfg x (.send task_id) { x with sent := insert task_id x.sent }
  | cancelUnstarted {x : Sending W E C T} {task_id : ℕ} (ht : x.tracked.Cancels task_id)
      (hsent : task_id ∈ x.sent) :
      Step cfg x (.cancelUnstarted task_id) { x with returned := insert task_id x.returned }

/-- The runs of a service with tracked tasks whose results are sent. -/
abbrev Run (cfg : Config) : List (SendingEvent W C T) → Sending W E C T → Prop :=
  Transition.Run ⟨Tracked.init cfg, ∅, ∅⟩ (Step cfg)

end Sending

/-- The event of a service with tracked tasks, whose statuses are its results. -/
def SendingEvent.tracked? : SendingEvent W C T → Option (TrackedEvent W C T)
  | .tracked e => some e
  | _ => none

/-- The history without the inside of the publications. -/
abbrev outline (tr : List (SendingEvent W C T)) : List (TrackedEvent W C T) :=
  tr.filterMap SendingEvent.tracked?

section
variable {cfg : Config} {tr : List (SendingEvent W C T)} {x x' : Sending W E C T} {id : ℕ}
  {e : SendingEvent W C T}

/-- A run is a run of the service with tracked tasks. -/
theorem Sending.Run.erased (h : Sending.Run cfg tr x) : Tracked.Run cfg (outline tr) x.tracked := by
  refine h.simulate Sending.tracked SendingEvent.tracked? rfl ?_ ?_
  · rintro _ _ _ _ ⟨hs, -⟩ he
    · obtain rfl := Option.some.inj he
      exact hs
    · cases he
    · cases he
  · rintro _ _ _ ⟨-, -⟩ he
    · cases he
    · rfl
    · rfl

/-- A thread inside `job.cancel()` has had the job handed over. -/
theorem Tracked.Cancels.cancelled {tr : List (TrackedEvent W C T)} {t : Tracked W E C T}
    (h : t.Cancels id) (hr : Tracked.Run cfg tr t) : id ∈ cancelled (core tr) := by
  obtain ⟨jobs, ret, hth⟩ := h
  rw [RayonExecutor.cancelled, (Tracked.Run.core hr).consumption.cancels]
  refine Multiset.mem_add.2 (Or.inl ?_)
  exact mem_total (f := fun t => t.control.inCancel) hth (Multiset.mem_singleton_self id)

/-- Where `cancel_unstarted` has returned, the result is sent and the job has been handed to
`cancel`. -/
theorem Sending.Run.of_returned (h : Sending.Run cfg tr x) :
    ∀ id ∈ x.returned, id ∈ x.sent ∧ id ∈ cancelled (core (outline tr)) := by
  refine h.invariant (P := fun tr x => ∀ id ∈ x.returned,
    id ∈ x.sent ∧ id ∈ cancelled (core (outline tr))) (by simp) ?_
  intro tr x e x' (h : Sending.Run cfg tr x) ih hs id hid
  cases hs with
  | @tracked e t' hs hallow =>
    obtain ⟨hsent, hcancelled⟩ := ih id hid
    exact ⟨hsent, mem_fst_core_cons _ hcancelled⟩
  | send => exact (ih id hid).imp_left (Finset.mem_insert_of_mem ·)
  | cancelUnstarted ht hsent =>
    rcases Finset.mem_insert.1 hid with rfl | hid
    · have hcancelled := ht.cancelled (Sending.Run.erased h)
      exact ⟨hsent, hcancelled⟩
    · exact ih id hid

end

/-! ## Results that are sent at once -/

/-- An event stores no status, or it is the end of a call or the start of a cancellation. -/
theorem TrackedEvent.publishes_cases (e : TrackedEvent W C T) : e.publishes = 0 ∨
    (∃ id status, e = .publish id status) ∨
      ∃ id task, e = .service (.cancel id (.callable task)) := by
  cases e with
  | service e =>
    cases e with
    | cancel task_id job =>
      cases job with
      | callable task => exact .inr (.inr ⟨task_id, task, rfl⟩)
      | runnable => exact .inl rfl
    | _ => exact .inl rfl
  | invoke => exact .inl rfl
  | publish task_id status => exact .inr (.inl ⟨task_id, status, rfl⟩)

/-- The tasks whose status has been stored, with a status that satisfies `p`. -/
def stored (p : TaskStatus → Prop) [DecidablePred p] (tr : List (TrackedEvent W C T)) :
    Finset ℕ :=
  (((tally TrackedEvent.publishes tr).filter fun e => p e.2).map Prod.fst).toFinset

/-- The state after the history `tr` when each result is sent with its status. -/
def Sending.atOnce (tr : List (TrackedEvent W C T)) (t : Tracked W E C T) : Sending W E C T :=
  ⟨t, stored (fun _ => True) tr, stored (· = .cancelled) tr⟩

section
variable {cfg : Config} {tr : List (TrackedEvent W C T)} {t t' : Tracked W E C T} {id : ℕ}
  {e : TrackedEvent W C T}

/-- A status that is stored is among the stored ones. -/
theorem mem_stored {p : TaskStatus → Prop} [DecidablePred p] {status : TaskStatus}
    (h : (id, status) ∈ tally TrackedEvent.publishes tr) (hp : p status) : id ∈ stored p tr :=
  Multiset.mem_toFinset.2 (Multiset.mem_map.2 ⟨_, Multiset.mem_filter.2 ⟨h, hp⟩, rfl⟩)

/-- An event that stores no status sends nothing. -/
theorem Sending.atOnce_cons_of_eq_zero (he : e.publishes = 0) :
    Sending.atOnce (e :: tr) t' = { Sending.atOnce tr t with tracked := t' } := by
  unfold Sending.atOnce stored
  rw [tally_cons, he, zero_add]

/-- An event that stores a status adds its task. -/
theorem stored_cons {p : TaskStatus → Prop} [DecidablePred p] {status : TaskStatus}
    (he : e.publishes = {(id, status)}) :
    stored p (e :: tr) = if p status then insert id (stored p tr) else stored p tr := by
  unfold stored
  rw [tally_cons, he, Multiset.filter_add, Multiset.filter_singleton]
  split_ifs <;> simp

/-- Nothing that the service does is too early when each result is sent with its status. -/
theorem Sending.atOnce_allows (h : Tracked.Run cfg tr t) (hs : Tracked.Step cfg t e t') :
    (Sending.atOnce tr t).Allows e := by
  have ha := Tracked.Run.agreement h
  cases hs with
  | @service e s' hs hallow =>
    cases e with
    | finishRunning task_id dispatch =>
      intro hslot
      obtain ⟨slot, hslot⟩ := Option.isSome_iff_exists.1 hslot
      exact mem_stored ((ha.slots task_id).terminal slot hslot (hallow slot hslot)) trivial
    | finishCancelling task_id =>
      intro hslot
      obtain ⟨slot, hslot⟩ := Option.isSome_iff_exists.1 hslot
      have hcancels : t.Cancels task_id := by
        obtain ⟨⟨shared, threads⟩, slots, handles⟩ := t
        rcases hs with hc | ⟨⟨hact⟩⟩
        · cases hc
        · cases hact
          exact ⟨_, _, Multiset.mem_cons_self _ _⟩
      have hstatus := (ha.slots task_id).of_cancelled slot hslot (hcancels.cancelled h)
      refine mem_stored ((ha.slots task_id).terminal slot hslot ?_) hstatus
      rw [hstatus]
      decide
    | _ => trivial
  | invoke | publish => trivial

/-- Who has handed a job to `cancel` is inside of the call. -/
theorem Tracked.Step.cancels {job : QueuedJob C T}
    (hs : Tracked.Step cfg t (.service (.cancel id job)) t') : t'.Cancels id := by
  obtain ⟨⟨shared, threads⟩, slots, handles⟩ := t
  cases hs with
  | service hs _ =>
    rcases hs with hc | ⟨⟨hact⟩⟩
    · cases hc
    · cases hact
      exact ⟨_, _, Multiset.mem_add.2 (.inl (Multiset.mem_singleton_self _))⟩

/-- When a callable has been handed to `cancel`, its task has a slot, and that is cancelled. -/
theorem Agreement.slot_of_cancel {task : C}
    (h : Agreement (.service (.cancel id (.callable task)) :: tr) t)
    (hr : Service.Run cfg (core (.service (.cancel id (.callable task)) :: tr)) t.service) :
    ∃ slot, t.slots id = some slot ∧ E.status slot = .cancelled := by
  have ha := h.slots id
  -- the job in the hands of `cancel` was accepted
  have hacc : (id, .callable task) ∈ tally Event.accepts
      (core (.service (.cancel id (.callable task)) :: tr)) := by
    rw [hr.ledger.jobs]
    simp
  obtain ⟨slot, hslot⟩ := Option.isSome_iff_exists.1 (ha.known.2 ⟨task, hacc⟩)
  exact ⟨slot, hslot, ha.of_cancelled slot hslot (by simp)⟩

/-- Every run of the service with tracked tasks is the outline of one in which each result is sent
with its status. -/
theorem Tracked.Run.exists_sending (h : Tracked.Run cfg tr t) :
    ∃ us, Sending.Run cfg us (Sending.atOnce tr t) ∧ outline us = tr := by
  induction h with
  | init => exact ⟨[], .init, rfl⟩
  | @step tr t e t' h hs ih =>
    obtain ⟨us, hus, rfl⟩ := ih
    have hnext := hus.step (.tracked hs (Sending.atOnce_allows h hs))
    have ha := Tracked.Run.agreement (h.step hs)
    rcases e.publishes_cases with he | ⟨id, status, rfl⟩ | ⟨id, task, rfl⟩
    · rw [Sending.atOnce_cons_of_eq_zero he]
      exact ⟨_, hnext, rfl⟩
    · cases hs with
      | @publish _ slot _ ht hslot hrun hstatus =>
        obtain ⟨hterm, hne⟩ := hstatus.terminal
        have hsent : (E.status (E.publish status slot)).Terminal := by
          rwa [E.status_publish hrun hstatus]
        refine ⟨.send id :: .tracked (.publish id status) :: us, ?_, rfl⟩
        unfold Sending.atOnce
        rw [stored_cons rfl, stored_cons rfl, if_pos trivial, if_neg hne]
        exact hnext.step (.send (.inl ht) (Function.update_self ..) hsent)
    · obtain ⟨slot, hslot, hstatus⟩ := ha.slot_of_cancel (Tracked.Run.core (h.step hs))
      have hcancels := hs.cancels
      have hsend := hnext.step (.send (.inr hcancels) hslot (by rw [hstatus]; decide))
      refine ⟨.cancelUnstarted id :: .send id ::
        .tracked (.service (.cancel id (.callable task))) :: us, ?_, rfl⟩
      unfold Sending.atOnce
      rw [stored_cons rfl, stored_cons rfl, if_pos trivial, if_pos rfl]
      exact hsend.step (.cancelUnstarted hcancels (Finset.mem_insert_self _ _))

/-- To send the results separately neither adds to the histories of the service with tracked tasks
nor takes from them. -/
theorem sending_refines_tracked : (∃ us x, Sending.Run cfg us x ∧ outline us = tr ∧ x.tracked = t) ↔
    Tracked.Run cfg tr t := by
  constructor
  · rintro ⟨us, x, h, rfl, rfl⟩
    exact Sending.Run.erased h
  · intro h
    obtain ⟨us, hus, hout⟩ := Tracked.Run.exists_sending h
    exact ⟨us, _, hus, hout, rfl⟩

end

/-! ## The cancellations behind the answers -/

/-- A cancel call that will return `Cancelled`: `cancel_unstarted` has returned for its task, or the
task is among those that the call still has to clean up. -/
def Return.Settled (x : Sending W E C T) (jobs : List ℕ) : Return W → Prop
  | .cancel _ task_id .cancelled =>
    (x.tracked.slots task_id).isSome ∧ (task_id ∈ x.returned ∨ task_id ∈ jobs)
  | _ => True

/-- A thread whose result is settled by the jobs that it has left to clean up. -/
def Control.Settled (x : Sending W E C T) : Control W (QueuedJob C T) → Prop
  | .cleanup jobs ret => ret.Settled x (jobs.map Prod.fst)
  | .cancelling task_id jobs ret => ret.Settled x (task_id :: jobs.map Prod.fst)
  | .dispatching _ ret | .returning ret => ret.Settled x []
  | _ => True

/-- An event of the service after which its thread is settled. -/
def Event.Settled (x : Sending W E C T) : Event W (QueuedJob C T) → Prop
  | .cancelPendingTask _ task_id disposition =>
    (x.tracked.slots task_id).isSome ∧ (disposition = .inProgress → task_id ∈ x.returned)
  | .finishCancelling task_id => (x.tracked.slots task_id).isSome → task_id ∈ x.returned
  | .fallback _ result => result = .alreadyFinished
  | _ => True

section
variable {cfg : Config} {tr : List (SendingEvent W C T)} {x x' : Sending W E C T}
  {e : Event W (QueuedJob C T)} {id : ℕ}
  {st st' : RayonExecutorServiceState W (QueuedJob C T)} {jobs : List ℕ}
  {new : Multiset (Thread W (QueuedJob C T))}

/-- A slot stays in its table. -/
theorem Tracked.Step.isSome {tr : List (TrackedEvent W C T)} {t t' : Tracked W E C T}
    {e : TrackedEvent W C T} (hs : Tracked.Step cfg t e t') (h : Tracked.Run cfg tr t)
    (hid : (t.slots id).isSome) : (t'.slots id).isSome := by
  have ha := Tracked.Run.agreement h
  have ha' := Tracked.Run.agreement (h.step hs)
  obtain ⟨task, hacc⟩ := (ha.slots id).known.1 hid
  exact (ha'.slots id).known.2 ⟨task, mem_tally_core_cons e hacc⟩

/-- What has been accepted or has returned from `cancel_unstarted` stays so. -/
theorem Sending.Step.grows {e : SendingEvent W C T} (hs : Sending.Step cfg x e x')
    (h : Sending.Run cfg tr x) :
    (∀ id, (x.tracked.slots id).isSome → (x'.tracked.slots id).isSome) ∧
      x.returned ⊆ x'.returned := by
  cases hs with
  | tracked hs => exact ⟨fun id => hs.isSome (Sending.Run.erased h), Finset.Subset.refl _⟩
  | send => exact ⟨fun id hid => hid, Finset.Subset.refl _⟩
  | cancelUnstarted => exact ⟨fun id hid => hid, Finset.subset_insert _ _⟩

/-- A result stays settled. -/
theorem Return.Settled.step {ret : Return W} (h : ret.Settled x jobs) {e : SendingEvent W C T}
    (hs : Sending.Step cfg x e x') (hr : Sending.Run cfg tr x) : ret.Settled x' jobs := by
  obtain ⟨hslots, hreturned⟩ := hs.grows hr
  rcases ret with _ | _ | ⟨_, _, _ | _ | _⟩ | _ | _ | _
  case cancel.cancelled => exact ⟨hslots _ h.1, h.2.imp_left (hreturned ·)⟩
  all_goals trivial

/-- A thread stays settled. -/
theorem Control.Settled.step {control : Control W (QueuedJob C T)} (h : control.Settled x)
    {e : SendingEvent W C T} (hs : Sending.Step cfg x e x') (hr : Sending.Run cfg tr x) :
    control.Settled x' := by
  cases control
  case dispatching | cleanup | cancelling | returning => exact Return.Settled.step h hs hr
  all_goals trivial

/-- A job that is cleaned up has settled its task. -/
theorem Return.Settled.cleaned {task_id : ℕ} {ret : Return W}
    (h : ret.Settled x (task_id :: jobs))
    (hreturned : (x.tracked.slots task_id).isSome → task_id ∈ x.returned) : ret.Settled x jobs := by
  rcases ret with _ | _ | ⟨_, id, _ | _ | _⟩ | _ | _ | _
  case cancel.cancelled =>
    refine ⟨h.1, ?_⟩
    rcases h.2 with hid | hid
    · exact .inl hid
    · rcases List.mem_cons.1 hid with rfl | hid
      · exact .inl (hreturned h.1)
      · exact .inr hid
  all_goals trivial

/-- A started operation is settled. -/
theorem Call.settled {bits : ℕ} (hc : Call bits st e st' new) (he : e.Settled x) :
    ∀ u ∈ new, u.control.Settled x := by
  cases hc with
  | admitJob ha =>
    rename_i outcome
    cases outcome <;> simp [Control.Settled, Return.Settled]
  | @cancel _ endpoint task_id disposition hd =>
    simp only [Multiset.mem_singleton, forall_eq]
    obtain ⟨hslot, hin⟩ := he
    cases disposition with
    | owned job => exact ⟨hslot, .inr List.mem_cons_self⟩
    | inProgress => exact ⟨hslot, .inl (hin rfl)⟩
    | absent => trivial
  | _ => simp [Control.Settled, Return.Settled]

/-- An action leaves its thread settled. -/
theorem Action.settled {th : Thread W (QueuedJob C T)} (ha : Action th st e st' new)
    (he : e.Settled x) (h : th.control.Settled x) : ∀ u ∈ new, u.control.Settled x := by
  cases ha with
  | publishCapacity | publishTermination | cancel =>
    simp only [Multiset.mem_singleton, forall_eq]
    exact h
  | finishCancelling =>
    simp only [Multiset.mem_singleton, forall_eq]
    exact Return.Settled.cleaned h he
  | spawn =>
    simp only [Multiset.insert_eq_cons, Multiset.mem_cons, Multiset.mem_singleton, forall_eq_or_imp,
      forall_eq]
    exact ⟨h, trivial⟩
  | @status _ task_id status =>
    simp only [Multiset.mem_singleton, forall_eq]
    cases status <;> trivial
  | @fallback _ task_id result =>
    simp only [Multiset.mem_singleton, forall_eq]
    obtain rfl : result = .alreadyFinished := he
    trivial
  | isRunningTask =>
    simp only [Multiset.mem_singleton, forall_eq]
    split_ifs <;> trivial
  | @takeNext _ _ taken => cases taken <;> simp [Control.Settled, Return.Settled]
  | _ => simp [Control.Settled, Return.Settled]

/-- A settled thread that returns has nothing left to clean up. -/
theorem Action.settled_returned {th : Thread W (QueuedJob C T)} {ret : Return W}
    (ha : Action th st (.returned ret) st' new) (h : th.control.Settled x) : ret.Settled x [] := by
  cases ha <;> exact h

end

/-! ## Visible cancellations -/

/-- A step that does not answer for a claimed task before its owner has returned from
`cancel_unstarted`. -/
def Sending.Prompt (x : Sending W E C T) : SendingEvent W C T → Prop
  | .tracked (.service (.cancelPendingTask _ task_id .inProgress)) => task_id ∈ x.returned
  | _ => True

/-- The runs of prompt steps. -/
abbrev Sending.PromptRun (cfg : Config) : List (SendingEvent W C T) → Sending W E C T → Prop :=
  Transition.Run ⟨Tracked.init cfg, ∅, ∅⟩ fun x e x' => Sending.Step cfg x e x' ∧ x.Prompt e

/-- What a handle shows of its task: `is_done` and `try_get` of the executor interface, from the
slot and from whether the result has been sent. Nothing is said of `is_done` between the two. -/
structure TaskView (E : TaskEndpoint) where
  isDone : E.Slot → Bool → Bool
  /-- Whether `try_get` is `Ready`. -/
  isReady : E.Slot → Bool → Bool
  isDone_of_terminal : ∀ {s : E.Slot}, (E.status s).Terminal → isDone s true = true
  isDone_of_not_terminal : ∀ {s : E.Slot}, ¬ (E.status s).Terminal → isDone s false = false
  isReady_of_terminal : ∀ {s : E.Slot}, (E.status s).Terminal → isReady s true = true
  /-- A result that has not been sent is not there. -/
  isReady_of_not_sent : ∀ {s : E.Slot}, isReady s false = false

/-- The view that computes `is_done` from the status, and `try_get` from the result. -/
def TaskView.plain (E : TaskEndpoint) : TaskView E where
  isDone s _ := decide (E.status s).Terminal
  isReady _ sent := sent
  isDone_of_terminal h := decide_eq_true h
  isDone_of_not_terminal h := decide_eq_false h
  isReady_of_terminal _ := rfl
  isReady_of_not_sent := rfl

/-- The task is seen to be cancelled. -/
def Sending.Shows (x : Sending W E C T) (view : TaskView E) (task_id : ℕ) : Prop :=
  ∃ slot, x.tracked.slots task_id = some slot ∧ E.status slot = .cancelled ∧
    view.isDone slot (decide (task_id ∈ x.sent)) = true ∧
    view.isReady slot (decide (task_id ∈ x.sent)) = true

section
variable {cfg : Config} {tr : List (SendingEvent W C T)} {x x' : Sending W E C T} {id : ℕ}
  {view : TaskView E} {endpoint : Endpoint}

/-- A run of prompt steps is a run. -/
theorem Sending.PromptRun.run (h : Sending.PromptRun cfg tr x) : Sending.Run cfg tr x := by
  induction h with
  | init => exact .init
  | step _ hs ih => exact ih.step hs.1

/-- Where `cancel_unstarted` has returned, the task is seen to be cancelled. -/
theorem Sending.Run.shows (h : Sending.Run cfg tr x) (hslot : (x.tracked.slots id).isSome)
    (hid : id ∈ x.returned) (view : TaskView E) : x.Shows view id := by
  obtain ⟨hsent, hcancelled⟩ := Sending.Run.of_returned h id hid
  obtain ⟨slot, hslot⟩ := Option.isSome_iff_exists.1 hslot
  have ha := Tracked.Run.agreement (Sending.Run.erased h)
  have hstatus := (ha.slots id).of_cancelled slot hslot hcancelled
  have hterm : (E.status slot).Terminal := by
    rw [hstatus]
    decide
  refine ⟨slot, hslot, hstatus, ?_, ?_⟩ <;> rw [decide_eq_true hsent]
  · exact view.isDone_of_terminal hterm
  · exact view.isReady_of_terminal hterm

/-- Before its result is sent, a task is not seen to be cancelled. -/
theorem Sending.not_shows (hid : id ∉ x.sent) : ¬ x.Shows view id := by
  rintro ⟨slot, -, -, -, hready⟩
  rw [decide_eq_false hid, view.isReady_of_not_sent] at hready
  exact Bool.false_ne_true hready

/-- The events of the service in a prompt step are settled. -/
theorem Sending.Run.settled {e : Event W (QueuedJob C T)} {s' : Service W (QueuedJob C T)}
    (h : Sending.Run cfg tr x) (hs : Service.Step cfg x.tracked.service e s')
    (hallow : x.tracked.Allows e) (hsend : x.Allows (.service e))
    (hp : x.Prompt (.tracked (.service e))) : e.Settled x := by
  have ha := Tracked.Run.agreement (Sending.Run.erased h)
  cases e with
  | cancelPendingTask endpoint task_id disposition =>
    refine ⟨ha.handles task_id hallow, ?_⟩
    rintro rfl
    exact hp
  | finishCancelling task_id => exact hsend
  | fallback task_id result =>
    obtain ⟨slot, hslot, rfl⟩ := hallow
    obtain ⟨slot', hslot', hterm⟩ :=
      ha.fallback_terminal (Tracked.Run.core (Sending.Run.erased h)) hs.fallback_mem
    obtain rfl := Option.some.inj (hslot.symm.trans hslot')
    exact congrArg Prod.fst (E.cancel_of_terminal hterm)
  | _ => trivial

/-- In a run of prompt steps every thread is settled. -/
theorem Sending.PromptRun.settled (h : Sending.PromptRun cfg tr x) :
    ∀ th ∈ x.tracked.service.threads, th.control.Settled x := by
  induction h with
  | init => simp [Tracked.init]
  | @step tr x e x' h hs ih =>
    obtain ⟨hs, hp⟩ := hs
    have hr := Sending.PromptRun.run h
    -- the threads are settled before the step is over, and stay so
    suffices hold : ∀ th ∈ x'.tracked.service.threads, th.control.Settled x from
      fun th hth => (hold th hth).step hs hr
    cases hs with
    | @tracked e t' hs hsend =>
      cases hs with
      | @service e s' hs hallow =>
        have he := Sending.Run.settled hr hs hallow hsend hp
        obtain ⟨⟨⟨shared, threads⟩, slots, handles⟩, sent, returned⟩ := x
        intro th hth
        rcases hs with hc | ⟨⟨hact⟩⟩
        · rcases Multiset.mem_add.1 hth with hth | hth
          · exact hc.settled he th hth
          · exact ih th hth
        · rcases Multiset.mem_add.1 hth with hth | hth
          · exact hact.settled he (ih _ (Multiset.mem_cons_self _ _)) th hth
          · exact ih th (Multiset.mem_cons_of_mem hth)
      | invoke | publish => exact ih
    | send | cancelUnstarted => exact ih

/-- A call that returns `Cancelled` in a run of prompt steps has the cancellation behind it. -/
theorem Sending.PromptRun.returned (h : Sending.PromptRun cfg tr x) (hs : Sending.Step cfg x
      (.tracked (.service (.returned (.cancel endpoint id .cancelled)))) x') :
    (x'.tracked.slots id).isSome ∧ id ∈ x'.returned := by
  have hsettled := Sending.PromptRun.settled h
  obtain ⟨hslots, hreturned⟩ := hs.grows (Sending.PromptRun.run h)
  obtain ⟨⟨⟨shared, threads⟩, slots, handles⟩, sent, returned⟩ := x
  cases hs with
  | tracked hs _ =>
    cases hs with
    | service hs _ =>
      rcases hs with hc | ⟨⟨hact⟩⟩
      · cases hc
      · have hret := hact.settled_returned (hsettled _ (Multiset.mem_cons_self _ _))
        exact ⟨hslots id hret.1, hreturned (hret.2.resolve_right List.not_mem_nil)⟩

/-- A run of the service in which nobody is answered for a claimed task, and no job returns, is one
of prompt steps. -/
theorem Tracked.Run.prompt {tr : List (TrackedEvent W C T)} {t : Tracked W E C T}
    (h : Tracked.Run cfg tr t)
    (hp : ∀ e ∈ tr, ∀ x : Sending W E C T, x.Allows e ∧ x.Prompt (.tracked e)) :
    Sending.PromptRun cfg (tr.map .tracked) ⟨t, ∅, ∅⟩ := by
  induction h with
  | init => exact .init
  | @step tr t e t' _ hs ih =>
    obtain ⟨hallow, hprompt⟩ := hp e List.mem_cons_self ⟨t, ∅, ∅⟩
    exact .step (ih fun a ha => hp a (List.mem_cons_of_mem e ha)) ⟨.tracked hs hallow, hprompt⟩

end

/-- When a `Cancelled` answer says that the cancellation is visible. -/
structure CancelledVisible (cfg : Config) (view : TaskView E) (x : Sending W E C T) : Prop where
  /-- At each return of `Cancelled` the task is seen to be cancelled. -/
  visible : ∀ endpoint id x', Sending.Step cfg x
    (.tracked (.service (.returned (.cancel endpoint id .cancelled)))) x' → x'.Shows view id
  /-- The condition is needed: while the result of a claimed task has not been sent, the next call
  that asks for it may return `Cancelled` with the task not seen to be cancelled. -/
  needed : ∀ endpoint id, id ∈ x.tracked.handles →
    id ∈ x.tracked.service.shared.inner.cancelling → id ∉ x.sent → ∃ x1,
      Sending.Step cfg x (.tracked (.service (.cancelPendingTask endpoint id .inProgress))) x1 ∧
      Sending.Step cfg x1 (.tracked (.service (.returned (.cancel endpoint id .cancelled)))) x ∧
      ¬ x.Shows view id

/-- In every run in which a claimed task is answered for only when its owner has returned from
`cancel_unstarted`, a call that returns `Cancelled` returns with the cancellation visible. -/
theorem cancelled_visible (view : TaskView E) {cfg : Config} {tr : List (SendingEvent W C T)}
    {x : Sending W E C T} (h : Sending.PromptRun cfg tr x) : CancelledVisible cfg view x where
  visible endpoint id x' hs := by
    obtain ⟨hslot, hreturned⟩ := Sending.PromptRun.returned h hs
    exact Sending.Run.shows ((Sending.PromptRun.run h).step hs) hslot hreturned view
  needed endpoint id hid hc hsent := by
    obtain ⟨t1, hs, -, hret⟩ := Tracked.Run.answers_in_progress
      (Sending.Run.erased (Sending.PromptRun.run h)) endpoint hid hc
    exact ⟨{ x with tracked := t1 }, .tracked hs trivial, .tracked hret.step trivial,
      Sending.not_shows hsent⟩

/-- The task of the cancellation handle, whose call has returned from `cancel_unstarted`, is about
to be answered `Cancelled` to its handle. -/
def tinyPrompt : Sending Watch.versioned .plain ℕ ℕ :=
  ⟨⟨⟨tinyClaimed, {⟨.none, .returning (.cancel .handle 0 .cancelled)⟩,
    ⟨.none, .cancelling 0 [] (.cancel .cancellationHandle 0 .cancelled)⟩, ⟨.none, .closure⟩}⟩,
    tinySlots, {0}⟩, {0}, {0}⟩

/-- The handle asks after the cancellation handle has published the cancellation. -/
theorem tinyPrompt_run : Sending.PromptRun tinyConfig
    [.tracked (.service (.cancelPendingTask .handle 0 .inProgress)), .cancelUnstarted 0, .send 0,
      .tracked (.service (.cancel 0 (.callable 7))),
      .tracked (.service (.cancelPendingTask .cancellationHandle 0 (.owned (.callable 7)))),
      .tracked (.service (.returned (.submitted 0))), .tracked (.service .spawn),
      .tracked (.service (.admitJob (.callable 7) (.ok ⟨0, 1⟩)))] tinyPrompt := by
  have hc : tinyClaimed.cancelPendingTask 0 = (.inProgress, tinyClaimed) := rfl
  have hcancels : ∃ jobs ret, ⟨.none, .cancelling 0 jobs ret⟩ ∈
      ({⟨.none, .cancelling 0 [] (.cancel .cancellationHandle 0 .cancelled)⟩, ⟨.none, .closure⟩} :
        Multiset (Thread Watch.versioned (QueuedJob ℕ ℕ))) := ⟨_, _, Multiset.mem_cons_self _ _⟩
  have h1 := Tracked.Run.prompt tinyClaimed_run (by simp [Sending.Allows, Sending.Prompt])
  have h2 := h1.step ⟨.send (.inr hcancels) rfl (by decide), trivial⟩
  have h3 := h2.step ⟨.cancelUnstarted hcancels (Finset.mem_insert_self _ _), trivial⟩
  exact h3.step ⟨.tracked (.of_eq (.call (Call.cancel hc)) (Finset.mem_singleton_self 0) rfl rfl)
    trivial, Finset.mem_insert_self _ _⟩

/-- The handle returns `Cancelled`, and shows the cancellation. -/
theorem cancelled_visible_tiny : CancelledVisible tinyConfig (.plain .plain) tinyPrompt ∧
    ∃ x, Sending.Step tinyConfig tinyPrompt
      (.tracked (.service (.returned (.cancel .handle 0 .cancelled)))) x ∧
      x.Shows (.plain .plain) 0 := by
  have hvisible : CancelledVisible tinyConfig (.plain .plain) tinyPrompt :=
    cancelled_visible _ tinyPrompt_run
  have hs : Sending.Step tinyConfig tinyPrompt
      (.tracked (.service (.returned (.cancel .handle 0 .cancelled)))) _ :=
    .tracked (.service (.act (.of_eq .returning rfl rfl)) trivial) trivial
  exact ⟨hvisible, _, hs, hvisible.visible _ _ _ hs⟩

/-- The task that the cancellation handle has claimed, and whose job it has not yet handed to
`cancel`. -/
def tinyUnsettled : Sending Watch.versioned .plain ℕ ℕ :=
  ⟨⟨⟨tinyClaimed, {⟨.none, .cleanup [(0, .callable 7)] (.cancel .cancellationHandle 0 .cancelled)⟩,
    ⟨.none, .closure⟩}⟩, Function.update (fun _ => none) 0 (some .pending), {0}⟩, ∅, ∅⟩

/-- The handle comes between the claim and the cancellation through the cancellation handle: it
returns `Cancelled`, and the task is still pending. -/
theorem cancelled_invisible : Sending.Run tinyConfig
      [.tracked (.service (.returned (.cancel .handle 0 .cancelled))),
        .tracked (.service (.cancelPendingTask .handle 0 .inProgress)),
        .tracked (.service (.cancelPendingTask .cancellationHandle 0 (.owned (.callable 7)))),
        .tracked (.service (.returned (.submitted 0))), .tracked (.service .spawn),
        .tracked (.service (.admitJob (.callable 7) (.ok ⟨0, 1⟩)))] tinyUnsettled ∧
    tinyUnsettled.tracked.slots 0 = some .pending ∧
    (TaskView.plain .plain).isDone TaskStatus.pending (0 ∈ tinyUnsettled.sent : Bool) = false ∧
    (TaskView.plain .plain).isReady TaskStatus.pending (0 ∈ tinyUnsettled.sent : Bool) = false := by
  have h1 : Sending.PromptRun tinyConfig _ tinyUnsettled :=
    Tracked.Run.prompt tinyOwned_run (by simp [Sending.Allows, Sending.Prompt])
  obtain ⟨t1, hs, -, hret⟩ := Tracked.Run.answers_in_progress tinyOwned_run .handle
    (Finset.mem_singleton_self 0) (by decide)
  have h2 := (Sending.PromptRun.run h1).step (.tracked hs trivial)
  exact ⟨h2.step (.tracked hret.step trivial), rfl, rfl, rfl⟩

end RayonExecutor
