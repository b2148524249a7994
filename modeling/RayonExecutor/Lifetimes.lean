import RayonExecutor.Termination
import RayonExecutor.Drain

/-!
# Lifetimes

The pool and the state are reference counted. A clone of the service owns both, a handle of a
tracked task owns the state, and so does the closure of a cancellation handle. A spawned closure
owns both: the pool until `run_one` returns, and the state until it moves it to the closure that it
spawns. Any other operation borrows the value that it is called on, and so does an
`await_termination` future, so that value cannot be dropped meanwhile. Users may drop their values
at any other time: that is no shutdown and joins nothing.

What is lost by it is nothing. The pool is dropped only when no task is queued or running, and the
state only when every accepted task is finished (`nothing_lost`).
-/

namespace RayonExecutor

open Transition Pool

variable {W : Watch} {J : Type}

/-! ## Owners -/

/-- What keeps the state of an operation alive. -/
inductive Keeper
  /-- A clone of the service that the operation borrows. -/
  | clone
  /-- A handle that it borrows. -/
  | handle
  /-- The clones of the pool and the state that a closure owns. -/
  | closure
  deriving DecidableEq, Repr

/-- The operation that returns. -/
@[simp] def Return.keeper : Return W → Keeper
  | .runOne => .closure
  | .cancel _ _ _ => .handle
  | .submitted _ | .shutdown | .stop _ | .receiver _ => .clone

/-- What keeps the state alive at a point of the code. Only submissions and closures dispatch. -/
@[simp] def Control.keeper : Control W J → Keeper
  | .closure | .claimed _ _ | .running _ | .dispatching _ .runOne => .closure
  | .absent _ _ | .fallback _ => .handle
  | .subscribed _ | .dispatching _ _ => .clone
  | .cleanup _ ret | .cancelling _ _ ret | .returning ret => ret.keeper

/-- The value that a public operation is called on. -/
def Event.keeper : Event W J → Keeper
  | .cancelPendingTask _ _ _ => .handle
  | _ => .clone

/-- A `run_one` that has only to return. It has moved the state to the closure that it has spawned,
or it drops it now. -/
def Thread.spent : Thread W J → Bool
  | ⟨⟨false, false⟩, .dispatching 0 .runOne⟩ | ⟨⟨false, false⟩, .returning .runOne⟩ => true
  | _ => false

/-- A service with the values that its users hold. -/
structure Owned (W : Watch) (J : Type) where
  service : Service W J
  /-- The clones of the service. -/
  clones : ℕ
  /-- The handles of tracked tasks, and the cancellation handles. -/
  handles : ℕ
  /-- The `await_termination` futures. -/
  awaits : ℕ

/-- The threads that a keeper keeps the state alive for. -/
def keptBy (keeper : Keeper) (ts : Multiset (Thread W J)) : Multiset (Thread W J) :=
  ts.filter fun t => t.control.keeper = keeper

namespace Owned

/-- The users' values of a kind. -/
@[simp] def values (o : Owned W J) : Keeper → ℕ
  | .clone => o.clones
  | .handle => o.handles
  | .closure => 0

/-- The reference count of the pool. -/
def poolOwners (o : Owned W J) : ℕ := o.clones + (keptBy .closure o.service.threads).card

/-- The reference count of the state, without a `run_one` that has only to return. -/
def stateOwners (o : Owned W J) : ℕ := o.clones + o.handles +
  ((keptBy .closure o.service.threads).filter fun t => t.spent = false).card

end Owned

/-- What happens to a service and to the values of its users. -/
inductive OwnedEvent (W : Watch) (J : Type)
  | call (e : Event W J)
  | act (e : Event W J)
  | clone
  | cancellationHandle
  | await
  | awaited
  | dropClone
  | dropHandle

/-- One step. An operation needs a value to be called on, and the last value of a kind is not
dropped while an operation or a future borrows it. -/
inductive Owned.Step (cfg : Config) : Owned W J → OwnedEvent W J → Owned W J → Prop
  | call {st st' : RayonExecutorServiceState W J} {e : Event W J}
      {ts new : Multiset (Thread W J)} {clones handles awaits : ℕ}
      (h : Call cfg.bits st e st' new)
      (hvalue : 0 < Owned.values ⟨⟨st, ts⟩, clones, handles, awaits⟩ e.keeper) :
      Step cfg ⟨⟨st, ts⟩, clones, handles, awaits⟩ (.call e)
        ⟨⟨st', new + ts⟩, clones, handles, awaits⟩
  /-- A submission may leave a handle, when it is that of a tracked callable. -/
  | act {s s' : Service W J} {e : Event W J} {clones handles awaits given : ℕ}
      (h : Pool.Act Action s e s')
      (hgiven : given = 0 ∨ given = 1 ∧ ∃ task_id, e = .returned (.submitted task_id)) :
      Step cfg ⟨s, clones, handles, awaits⟩ (.act e) ⟨s', clones, handles + given, awaits⟩
  | clone {o : Owned W J} (h : 0 < o.clones) :
      Step cfg o .clone { o with clones := o.clones + 1 }
  | cancellationHandle {o : Owned W J} (h : 0 < o.handles) :
      Step cfg o .cancellationHandle { o with handles := o.handles + 1 }
  | await {o : Owned W J} (h : 0 < o.clones) : Step cfg o .await { o with awaits := o.awaits + 1 }
  | awaited {o : Owned W J} (h : 0 < o.awaits) :
      Step cfg o .awaited { o with awaits := o.awaits - 1 }
  | dropClone {o : Owned W J} (h : 0 < o.clones)
      (hlast : o.clones = 1 → keptBy .clone o.service.threads = 0 ∧ o.awaits = 0) :
      Step cfg o .dropClone { o with clones := o.clones - 1 }
  | dropHandle {o : Owned W J} (h : 0 < o.handles)
      (hlast : o.handles = 1 → keptBy .handle o.service.threads = 0) :
      Step cfg o .dropHandle { o with handles := o.handles - 1 }

/-- The runs from the service that is built. -/
abbrev Owned.Run (cfg : Config) : List (OwnedEvent W J) → Owned W J → Prop :=
  Transition.Run ⟨Service.init cfg, 1, 0, 0⟩ (Owned.Step cfg)

/-- The action of the service in an event. -/
def OwnedEvent.service? : OwnedEvent W J → Option (Event W J)
  | .call e | .act e => some e
  | _ => none

section
variable {cfg : Config} {tr : List (OwnedEvent W J)} {o o' : Owned W J} {e : OwnedEvent W J}

/-- The service runs as it would without counting. -/
theorem Owned.Run.service (h : Owned.Run cfg tr o) :
    Service.Run cfg (tr.filterMap OwnedEvent.service?) o.service := by
  refine h.simulate Owned.service OwnedEvent.service? rfl ?_ ?_
  · intro o e o' e' hs he
    cases hs with
    | call h =>
      obtain rfl := Option.some.inj he
      exact .call h
    | act h =>
      obtain rfl := Option.some.inj he
      exact .act h
    | _ => cases he
  · intro o e o' hs he
    cases hs with
    | call | act => cases he
    | _ => rfl

/-! ## Who keeps what alive -/

/-- A public operation is kept alive by the value that it is called on. -/
theorem Call.keeper {bits : ℕ} {st st' : RayonExecutorServiceState W J} {e : Event W J}
    {new : Multiset (Thread W J)} (h : Call bits st e st' new) :
    ∀ t ∈ new, t.control.keeper = e.keeper := by
  cases h with
  | admitJob ha =>
    rename_i outcome
    cases outcome <;> simp [Event.keeper]
  | cancel hd =>
    rename_i disposition
    cases disposition <;> simp [Event.keeper]
  | _ => simp [Event.keeper]

/-- A thread is kept alive by the value that kept it before, and the closures that it spawns own
theirs. -/
theorem Action.keeper {t : Thread W J} {st st' : RayonExecutorServiceState W J} {e : Event W J}
    {new : Multiset (Thread W J)} (h : Action t st e st' new) :
    ∀ u ∈ new, u.control.keeper = t.control.keeper ∨ u.control.keeper = .closure := by
  cases h with
  | @spawn _ count ret => cases ret <;> simp
  | takeNext hs =>
    rename_i taken changes
    cases taken <;> simp
  | isRunningTask => split_ifs <;> simp
  | _ => simp

/-- Every thread is a closure's, or borrows a value that is there. So does every future. -/
structure Kept (o : Owned W J) : Prop where
  threads : ∀ t ∈ o.service.threads,
    t.control.keeper = .closure ∨ 0 < o.values t.control.keeper
  awaits : 0 < o.awaits → 0 < o.clones

/-- No thread borrows a value of a kind if none is kept by it. -/
theorem keeper_ne_of_keptBy {keeper : Keeper} {ts : Multiset (Thread W J)}
    (h : keptBy keeper ts = 0) {t : Thread W J} (ht : t ∈ ts) : t.control.keeper ≠ keeper :=
  Multiset.filter_eq_nil.1 h t ht

/-- More values keep as much alive. -/
theorem Owned.values_pos {o o' : Owned W J} (hclones : o.clones ≤ o'.clones)
    (hhandles : o.handles ≤ o'.handles) {keeper : Keeper} (h : 0 < o.values keeper) :
    0 < o'.values keeper := by
  cases keeper with
  | clone => exact lt_of_lt_of_le h hclones
  | handle => exact lt_of_lt_of_le h hhandles
  | closure => exact h

/-- There is no value to borrow when the users have none. -/
theorem Owned.values_eq_zero {o : Owned W J} (hclones : o.clones = 0) (hhandles : o.handles = 0)
    (keeper : Keeper) : o.values keeper = 0 := by
  cases keeper with
  | clone => exact hclones
  | handle => exact hhandles
  | closure => rfl

/-- In every run a value is kept while it is borrowed. -/
theorem Owned.Run.kept (h : Owned.Run cfg tr o) : Kept o := by
  refine h.invariant (P := fun _ o => Kept o) ⟨by simp, by simp⟩ ?_
  rintro tr o e o' - ⟨hthreads, hawaits⟩ hs
  cases hs with
  | call hc hvalue =>
    refine ⟨fun t ht => ?_, hawaits⟩
    rcases Multiset.mem_add.1 ht with ht | ht
    · rw [hc.keeper t ht]
      exact .inr hvalue
    · exact hthreads t ht
  | act ha _ =>
    obtain ⟨ha⟩ := ha
    refine ⟨fun u hu => ?_, hawaits⟩
    rcases Multiset.mem_add.1 hu with hu | hu
    · rcases ha.keeper u hu with hk | hk
      · rw [hk]
        exact (hthreads _ (Multiset.mem_cons_self _ _)).imp_right
          (Owned.values_pos (by simp) (by simp))
      · exact .inl hk
    · exact (hthreads u (Multiset.mem_cons_of_mem hu)).imp_right
        (Owned.values_pos (by simp) (by simp))
  | clone hpos =>
    exact ⟨fun t ht => (hthreads t ht).imp_right (Owned.values_pos (by simp) (by simp)),
      fun _ => Nat.succ_pos _⟩
  | cancellationHandle hpos =>
    exact ⟨fun t ht => (hthreads t ht).imp_right (Owned.values_pos (by simp) (by simp)),
      hawaits⟩
  | await hpos => exact ⟨hthreads, fun _ => hpos⟩
  | awaited hpos => exact ⟨hthreads, fun _ => hawaits hpos⟩
  | dropClone hpos hlast =>
    refine ⟨fun t ht => (hthreads t ht).imp_right fun hvalue => ?_, fun hawait => ?_⟩
    · cases hk : t.control.keeper with
      | clone =>
        -- the last clone is not dropped while the thread borrows it
        have hne : o.clones ≠ 1 := fun h1 => keeper_ne_of_keptBy (hlast h1).1 ht hk
        show 0 < o.clones - 1
        omega
      | handle | closure =>
        rw [hk] at hvalue
        exact hvalue
    · have hne : o.clones ≠ 1 := fun h1 => by
        rw [(hlast h1).2] at hawait
        exact lt_irrefl 0 hawait
      show 0 < o.clones - 1
      omega
  | dropHandle hpos hlast =>
    refine ⟨fun t ht => (hthreads t ht).imp_right fun hvalue => ?_, hawaits⟩
    cases hk : t.control.keeper with
    | handle =>
      have hne : o.handles ≠ 1 := fun h1 => keeper_ne_of_keptBy (hlast h1) ht hk
      show 0 < o.handles - 1
      omega
    | clone | closure =>
      rw [hk] at hvalue
      exact hvalue

/-! ## What is lost -/

/-- A closure is not promised, and no task is run, but for a clone or a closure. -/
theorem Control.promises_working {control : Control W J} (hclone : control.keeper ≠ .clone)
    (hclosure : control.keeper ≠ .closure) : control.promises = 0 ∧ control.working = 0 := by
  cases control with
  | dispatching count ret => cases ret <;> simp at hclone hclosure
  | closure | claimed | running => simp at hclosure
  | _ => exact ⟨rfl, rfl⟩

/-- The pool is dropped only when nothing is queued, running or scheduled. -/
theorem Owned.Run.pool_dropped (h : Owned.Run cfg tr o) (hn : 1 ≤ cfg.num_threads)
    (hpool : o.poolOwners = 0) : o.service.shared.inner.queue.length = 0 ∧
      o.service.shared.inner.running = 0 ∧ o.service.shared.inner.scheduled = 0 := by
  have hservice := h.service
  have hreserved := hservice.reservations
  obtain ⟨hclones, hclosures⟩ := Nat.add_eq_zero_iff.1 hpool
  -- the threads that are left are those of cancel calls
  have hthreads : ∀ t ∈ o.service.threads, t.control.promises = 0 ∧ t.control.working = 0 := by
    intro t ht
    have hclosure := keeper_ne_of_keptBy (Multiset.card_eq_zero.1 hclosures) ht
    refine t.control.promises_working (fun hk => ?_) hclosure
    have hpos := (h.kept.threads t ht).resolve_left hclosure
    rw [hk, Owned.values, hclones] at hpos
    exact lt_irrefl 0 hpos
  have hpromised : promised o.service.threads = 0 := Multiset.sum_eq_zero fun n hm => by
    obtain ⟨t, ht, rfl⟩ := Multiset.mem_map.1 hm
    exact (hthreads t ht).1
  have hworkers : workers o.service.threads = 0 := Multiset.sum_eq_zero fun n hm => by
    obtain ⟨t, ht, rfl⟩ := Multiset.mem_map.1 hm
    exact (hthreads t ht).2
  have hactive : active o.service.threads = 0 := by rw [active, hworkers, Multiset.card_zero]
  have hexact := hreserved.exact
  have hconserved := hreserved.conserved
  have hrunning := hservice.ledger.running
  rw [Finset.card_def, hservice.ledger.workers_eq, hworkers, Multiset.card_zero] at hrunning
  rw [hservice.config.2] at hconserved
  exact ⟨by omega, hrunning, by omega⟩

/-- The state is dropped only when nobody is left but a `run_one` that returns. -/
theorem Owned.Run.state_dropped (h : Owned.Run cfg tr o) (hstate : o.stateOwners = 0) :
    ∀ t ∈ o.service.threads, t.spent = true := by
  obtain ⟨hvalues, hclosures⟩ := Nat.add_eq_zero_iff.1 hstate
  obtain ⟨hclones, hhandles⟩ := Nat.add_eq_zero_iff.1 hvalues
  intro t ht
  have hspent := Multiset.filter_eq_nil.1 (Multiset.card_eq_zero.1 hclosures) t
  have hk := (h.kept.threads t ht).resolve_right fun hpos =>
    absurd (Owned.values_eq_zero hclones hhandles _) hpos.ne'
  exact Bool.of_not_eq_false (hspent (Multiset.mem_filter.2 ⟨ht, hk⟩))

/-- A thread that is not spent keeps the state alive. -/
theorem Owned.Run.alive (h : Owned.Run cfg tr o) {t : Thread W J} (ht : t ∈ o.service.threads)
    (hspent : t.spent = false) : 0 < o.stateOwners :=
  Nat.pos_of_ne_zero fun hstate =>
    Bool.false_ne_true (hspent.symm.trans (h.state_dropped hstate t ht))

/-- All that a spent thread does is to return. -/
theorem Action.of_spent {t : Thread W J} {st st' : RayonExecutorServiceState W J} {e : Event W J}
    {new : Multiset (Thread W J)} (h : Action t st e st' new) (hspent : t.spent = true) :
    e = .returned .runOne ∧ st' = st ∧ new = 0 := by
  cases h with
  | @dispatched _ ret => cases ret <;> first | exact ⟨rfl, rfl, rfl⟩ | cases hspent
  | @returning _ ret => cases ret <;> first | exact ⟨rfl, rfl, rfl⟩ | cases hspent
  | @spawn _ count ret => cases ret <;> cases hspent
  | @publishCapacity _ terminated control => cases terminated <;> cases hspent
  | _ => cases hspent

/-- When only spent threads are left, they return. -/
theorem Service.Run.returned {us : List (Event W J)} {st : RayonExecutorServiceState W J}
    {ts : Multiset (Thread W J)} (h : Service.Run cfg us ⟨st, ts⟩)
    (hspent : ∀ t ∈ ts, t.spent = true) : ∃ us', Service.Run cfg us' ⟨st, 0⟩ := by
  induction ts using Multiset.induction generalizing us with
  | empty => exact ⟨us, h⟩
  | cons t ts ih =>
    have ht := hspent t (Multiset.mem_cons_self t ts)
    have hact : Action t st (.returned .runOne) st 0 := by
      unfold Thread.spent at ht
      split at ht
      · exact .dispatched
      · exact .returning
      · cases ht
    have hrun := h.step (.act (.of_eq hact rfl (zero_add ts).symm))
    exact ih hrun fun u hu => hspent u (Multiset.mem_cons_of_mem hu)

/-- A thread that spawns a closure keeps the pool alive. -/
theorem Owned.Run.spawned (h : Owned.Run cfg tr o) {s' : Service W J}
    (hs : Pool.Act Action o.service .spawn s') : 0 < o.poolOwners := by
  refine Nat.pos_of_ne_zero fun hpool => ?_
  obtain ⟨hclones, hclosures⟩ := Nat.add_eq_zero_iff.1 hpool
  have hkept := h.kept.threads
  obtain ⟨⟨st, ts⟩, clones, handles, awaits⟩ := o
  dsimp only at hs hclosures hclones hkept
  cases hs with
  | @act t _ _ _ _ ts ha =>
    have ht : t ∈ t ::ₘ ts := Multiset.mem_cons_self t ts
    have hclosure := keeper_ne_of_keptBy (Multiset.card_eq_zero.1 hclosures) ht
    have hpos := (hkept t ht).resolve_left hclosure
    cases ha with
    | @spawn _ count ret =>
      cases ret <;> simp [hclones] at hpos hclosure

/-- The threads go on without the users, who only give up what they have. -/
theorem Owned.internal {es : List (OwnedEvent W J)} (hp : Path (Owned.Step cfg) o es o')
    (hes : ∀ e ∈ es, ∀ e', e ≠ .call e') :
    Service.Internal o.service (es.filterMap OwnedEvent.service?) o'.service := by
  induction hp with
  | nil => exact .nil _
  | cons hs _ ih =>
    obtain ⟨he, hrest⟩ := List.forall_mem_cons.1 hes
    cases hs with
    | call => exact absurd rfl (he _)
    | act ha => exact .cons ha (ih hrest)
    | _ => exact ih hrest

/-- What is lost when users drop their values, after the history `tr` and in the state `o`. -/
structure NothingLost (cfg : Config) (tr : List (OwnedEvent W J)) (o : Owned W J) : Prop where
  /-- Nobody works on a state that has been dropped, nor spawns into such a pool. -/
  alive : ∀ t ∈ o.service.threads, t.spent = false → 0 < o.stateOwners
  spawned : ∀ s', Pool.Act Action o.service .spawn s' → 0 < o.poolOwners
  /-- The state outlives every `await_termination` future. -/
  awaited : 0 < o.awaits → 0 < o.stateOwners
  /-- The pool is dropped only when it has nothing to do. -/
  pool : o.poolOwners = 0 → o.service.shared.inner.queue.length = 0 ∧
    o.service.shared.inner.running = 0 ∧ o.service.shared.inner.scheduled = 0
  /-- The state is dropped only when every accepted task is finished. Then a `run_one` may still
  return, and nothing else happens. -/
  state : o.stateOwners = 0 → Drained o.service.shared.inner ∧
    accepted (tr.filterMap OwnedEvent.service?) =
      tally Event.finishesRun (tr.filterMap OwnedEvent.service?) +
        tally Event.finishesCancel (tr.filterMap OwnedEvent.service?)
  final : o.stateOwners = 0 → ∀ e o', Owned.Step cfg o e o' →
    e = .act (.returned .runOne) ∧ o'.service.shared = o.service.shared ∧ o'.stateOwners = 0
  /-- Whatever the users drop, and whenever, what is queued is run. -/
  abandoned : ∀ es o', Path (Owned.Step cfg) o es o' → (∀ e ∈ es, ∀ e', e ≠ .call e') →
    o'.service.Stuck → Drained o'.service.shared.inner ∧
      ∀ id job, (id, job) ∈ o.service.shared.inner.queue.toMultiset → .act (.run id job) ∈ es

/-- Nothing is lost when values are dropped. -/
theorem nothing_lost (h : Owned.Run cfg tr o) (hn : 1 ≤ cfg.num_threads) :
    NothingLost cfg tr o where
  alive _ ht := h.alive ht
  spawned _ hs := h.spawned hs
  awaited hawait := by
    have hclones := h.kept.awaits hawait
    rw [Owned.stateOwners]
    omega
  pool := h.pool_dropped hn
  state hstate := by
    obtain ⟨us, hus⟩ := h.service.returned (h.state_dropped hstate)
    have hdrained := hus.drained hn rfl
    refine ⟨hdrained, ?_⟩
    rw [h.service.ledger.ids, OrderedMap.keys_eq_zero_of_length hdrained.queue,
      hdrained.running_tasks, hdrained.cancelling, Finset.empty_val, zero_add, zero_add, zero_add]
  final hstate e o' hs := by
    have hspent := h.state_dropped hstate
    have hawaits := h.kept.awaits
    obtain ⟨hvalues, hclosures⟩ := Nat.add_eq_zero_iff.1 hstate
    obtain ⟨hclones, hhandles⟩ := Nat.add_eq_zero_iff.1 hvalues
    cases hs with
    | call _ hvalue => exact absurd (Owned.values_eq_zero hclones hhandles _) hvalue.ne'
    | @act s s' e clones handles awaits given ha hgiven =>
      obtain @⟨t, st, e, st', new, ts, ha⟩ := ha
      obtain ⟨rfl, rfl, rfl⟩ := ha.of_spent (hspent t (Multiset.mem_cons_self t ts))
      refine ⟨rfl, rfl, ?_⟩
      have hnone : given = 0 := hgiven.resolve_right fun ⟨_, _, he⟩ => by cases he
      have hrest : (keptBy .closure ts).filter (fun t => t.spent = false) = 0 :=
        Multiset.filter_eq_nil.2 fun u hu => by
          simp [hspent u (Multiset.mem_cons_of_mem (Multiset.mem_of_mem_filter hu))]
      rw [Owned.stateOwners, zero_add, hrest, hnone]
      exact Nat.add_eq_zero_iff.2 ⟨hvalues, rfl⟩
    | _ => omega
  abandoned es o' hp hes hstuck := by
    have hinternal := Owned.internal hp hes
    refine ⟨Service.Run.drained (h.service.append (hinternal.mono .act)) hn hstuck.threads, ?_⟩
    intro id job hq
    obtain ⟨-, hrun, -⟩ := h.service.queued_run hn hinternal hstuck.threads hq
    obtain ⟨e, he, hrun⟩ := List.mem_filterMap.1 hrun
    cases e with
    | call e' => exact absurd rfl (hes _ he e')
    | act e' =>
      obtain rfl := Option.some.inj hrun
      exact he
    | _ => cases hrun

end

/-- A job is accepted, and its closure spawned. Then the only clone of the service is dropped, while
the handle is kept. -/
theorem tinyDropped_run : Owned.Run tinyConfig
    [.dropClone, .act (.returned (.submitted 0)), .act .spawn, .call (.admitJob 7 (.ok ⟨0, 1⟩))]
    ⟨⟨tinyAdmitted, {⟨.none, .closure⟩}⟩, 0, 1, 0⟩ := by
  have ha : (RayonExecutorServiceState.new Watch.versioned ℕ 2 1).admitJob 64 .returned 7 =
      (.ok ⟨0, 1⟩, tinyAdmitted) := rfl
  have h1 : Owned.Run tinyConfig [.call (.admitJob 7 (.ok ⟨0, 1⟩))]
      ⟨⟨tinyAdmitted, {⟨.none, .dispatching 1 (.submitted 0)⟩} + 0⟩, 1, 0, 0⟩ :=
    .step .init (.call (.admitJob ha) (by decide))
  have hspawn : Pool.Act Action
      ⟨tinyAdmitted, {⟨.none, .dispatching 1 (.submitted 0)⟩} + 0⟩ .spawn
      ⟨tinyAdmitted, {⟨.none, .dispatching 0 (.submitted 0)⟩, ⟨.none, .closure⟩} + 0⟩ :=
    .of_eq .spawn rfl rfl
  have hreturned : Pool.Act Action
      ⟨tinyAdmitted, {⟨.none, .dispatching 0 (.submitted 0)⟩, ⟨.none, .closure⟩} + 0⟩
      (.returned (.submitted 0)) ⟨tinyAdmitted, 0 + {⟨.none, .closure⟩}⟩ :=
    .of_eq .dispatched rfl rfl
  have h2 := h1.step (.act hspawn (.inl rfl))
  have h3 := h2.step (.act hreturned (.inr ⟨rfl, 0, rfl⟩))
  exact .step h3 (.dropClone (by decide) fun _ => ⟨rfl, rfl⟩)

/-- A task is run although the last clone of its service has been dropped. -/
theorem nothing_lost_tiny : NothingLost tinyConfig
    [.dropClone, .act (.returned (.submitted 0)), .act .spawn, .call (.admitJob 7 (.ok ⟨0, 1⟩))]
    ⟨⟨tinyAdmitted, {⟨.none, .closure⟩}⟩, 0, 1, 0⟩ := nothing_lost tinyDropped_run (by decide)

end RayonExecutor
