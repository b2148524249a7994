import RayonExecutor.Cancellation
import RayonExecutor.Lib.Halting

/-!
# Every accepted callable gets its result

A result is published when the runner has called the callable, or by the cleanup of a cancellation.
Nothing is published twice for a task, and what is published stays in its slot (`Results`). Once
callers stop, the threads and the runners inside of them come to an end, and then every callable
that was ever accepted has its result: `get` returns, an awaited handle resolves, and `is_done` is
true.
-/

namespace RayonExecutor

open Transition Pool

variable {W : Watch} {E : TaskEndpoint} {C T : Type}

/-! ## One result at most -/

/-- The tasks whose result has been published. -/
def published (tr : List (TrackedEvent W C T)) : Multiset ℕ :=
  (tally TrackedEvent.publishes tr).map Prod.fst

@[simp] theorem published_cons (e : TrackedEvent W C T) (tr : List (TrackedEvent W C T)) :
    published (e :: tr) = e.publishes.map Prod.fst + published tr := by simp [published]

/-- No result is published twice, and a published one is in its slot. -/
structure Results (tr : List (TrackedEvent W C T)) (t : Tracked W E C T) : Prop where
  nodup : (published tr).Nodup
  terminal : ∀ id ∈ published tr, ∃ slot, t.slots id = some slot ∧ (E.status slot).Terminal

namespace Results

variable {cfg : Config} {tr : List (TrackedEvent W C T)} {t t' : Tracked W E C T}
  {e : TrackedEvent W C T}

/-- A task with a result has been consumed. -/
theorem consumed (ha : Agreement tr t) {id : ℕ} (hid : id ∈ published tr) :
    id ∈ ran (core tr) ∨ id ∈ cancelled (core tr) := by
  obtain ⟨⟨_, status⟩, hm, rfl⟩ := Multiset.mem_map.1 hid
  exact ((ha.slots _).published status hm).imp And.left And.left

/-- The runner does not run a task with a result. -/
theorem not_running (h : Results tr t) {id : ℕ} (hid : id ∈ published tr) {slot : E.Slot}
    (hslot : t.slots id = some slot) : E.status slot ≠ .running := by
  obtain ⟨slot', hslot', hterminal⟩ := h.terminal id hid
  obtain rfl := Option.some.inj (hslot.symm.trans hslot')
  exact hterminal.2

/-- A slot with a result is left alone. -/
theorem slots_eq (h : Results tr t) (ha : Agreement tr t) (hr : Tracked.Run cfg tr t)
    (hs : Tracked.Step cfg t e t') {id : ℕ} (hid : id ∈ published tr) :
    t'.slots id = t.slots id := by
  have hcore := Tracked.Run.core hr
  cases hs with
  | @service e s' hs hallow =>
    have hr' : Service.Run cfg (e :: core tr) s' := hcore.step hs
    cases e with
    | admitJob job outcome =>
      rcases job with task | task
      · rcases outcome with ⟨task_id, count⟩ | error | panic
        · refine Function.update_of_ne ?_ _ _
          rintro rfl
          obtain ⟨hran, hcancelled, -⟩ := hcore.fresh hr' (Multiset.mem_singleton_self id)
          exact (consumed ha hid).elim hran hcancelled
        · rfl
        · rfl
      · rfl
    | cancel task_id job =>
      rcases job with task | task
      · refine Function.update_of_ne ?_ _ _
        rintro rfl
        obtain ⟨hran, hcancelled⟩ := Service.Run.unconsumed id hr' (by simp)
        exact (consumed ha hid).elim hran hcancelled
      · rfl
    | fallback task_id result =>
      exact congrFun (ha.slotsAfter_fallback hcore hs.fallback_mem result) id
    | _ => rfl
  | @invoke task_id slot ht hslot hstart =>
    -- the runner starts a pending task only
    refine Function.update_of_ne ?_ _ _
    rintro rfl
    obtain ⟨slot', hslot', hterminal⟩ := h.terminal _ hid
    obtain rfl := Option.some.inj (hslot.symm.trans hslot')
    rw [E.start_of_not_pending hterminal.1] at hstart
    exact Bool.false_ne_true hstart
  | @publish task_id slot status ht hslot hrun hstatus =>
    refine Function.update_of_ne ?_ _ _
    rintro rfl
    exact h.not_running hid hslot hrun

/-- A result is published once. -/
theorem not_published (h : Results tr t) (ha : Agreement tr t) (hr : Tracked.Run cfg tr t)
    (hs : Tracked.Step cfg t e t') {id : ℕ} (hid : id ∈ e.publishes.map Prod.fst) :
    id ∉ published tr ∧ ∃ slot, t'.slots id = some slot ∧ (E.status slot).Terminal := by
  have ha' : Agreement (e :: tr) t' := ha.step (Tracked.Run.core hr) hs
  cases hs with
  | @service e s' hs hallow =>
    have hr' : Service.Run cfg (e :: core tr) s' := (Tracked.Run.core hr).step hs
    cases e with
    | cancel task_id job =>
      rcases job with task | task
      · obtain rfl : id = task_id := by simpa using hid
        obtain ⟨hran, hcancelled⟩ := Service.Run.unconsumed id hr' (by simp)
        -- the job that is cancelled is the one that was accepted
        have hacc : (id, .callable task) ∈ tally Event.accepts (core (.service (.cancel id
            (.callable task)) :: tr : List (TrackedEvent W C T))) := by
          rw [core_service, hr'.ledger.jobs]
          simp
        obtain ⟨slot, hslot⟩ := Option.isSome_iff_exists.1 ((ha'.slots id).known.2 ⟨task, hacc⟩)
        refine ⟨fun hid => (consumed ha hid).elim hran hcancelled, slot, hslot, ?_⟩
        rw [(ha'.slots id).of_cancelled slot hslot (by simp)]
        decide
      · simp at hid
    | _ => simp at hid
  | invoke => simp at hid
  | @publish task_id slot status ht hslot hrun hstatus =>
    obtain rfl : id = task_id := by simpa using hid
    refine ⟨fun hid => h.not_running hid hslot hrun, _, Function.update_self _ _ _, ?_⟩
    rw [E.status_publish hrun hstatus]
    exact hstatus.terminal.1

/-- Every step keeps the results as they should be. -/
theorem step (h : Results tr t) (ha : Agreement tr t) (hr : Tracked.Run cfg tr t)
    (hs : Tracked.Step cfg t e t') : Results (e :: tr) t' := by
  constructor
  · have hone : (e.publishes.map Prod.fst).Nodup := by
      cases e with
      | service e =>
        cases e with
        | cancel task_id job => cases job <;> simp
        | _ => simp
      | _ => simp
    rw [published_cons, Multiset.nodup_add]
    exact ⟨hone, h.nodup,
      Multiset.disjoint_left.2 fun hid => (h.not_published ha hr hs hid).1⟩
  · intro id hid
    rw [published_cons, Multiset.mem_add] at hid
    rcases hid with hid | hid
    · exact (h.not_published ha hr hs hid).2
    · rw [h.slots_eq ha hr hs hid]
      exact h.terminal id hid

end Results

/-- The results are as they should be in every reachable state. -/
theorem Tracked.Run.results {cfg : Config} {tr : List (TrackedEvent W C T)} {t : Tracked W E C T}
    (h : Tracked.Run cfg tr t) : Results tr t :=
  h.invariant (P := Results) ⟨by simp [published], by simp [published]⟩
    fun hr h hs => h.step (Tracked.Run.agreement hr) hr hs

/-! ## Every result in the end -/

/-- A step without a new operation: one of a thread, or of the runner inside of a thread. -/
def Tracked.Advance (cfg : Config) (t : Tracked W E C T) (e : TrackedEvent W C T)
    (t' : Tracked W E C T) : Prop :=
  Tracked.Step cfg t e t' ∧ ∀ e', e = .service e' → Pool.Act Action t.service e' t'.service

/-- What the runner has still to do for a slot: to call the callable, and to publish its result. -/
def callsLeft : Option E.Slot → ℕ
  | some slot => if E.status slot = .pending then 2 else if E.status slot = .running then 1 else 0
  | none => 0

/-- What the runner has still to do inside of a thread. -/
def Control.callsLeft (slots : ℕ → Option E.Slot) : Control W (QueuedJob C T) → ℕ
  | .running task_id => RayonExecutor.callsLeft (slots task_id)
  | _ => 0

/-- What threads and runners have still to do. -/
def Tracked.fuel (t : Tracked W E C T) : ℕ × ℕ :=
  (t.service.fuel, across (Control.callsLeft t.slots) t.service.threads)

section
variable {cfg : Config} {tr es : List (TrackedEvent W C T)} {t t' : Tracked W E C T}
  {e : TrackedEvent W C T}

/-- The runner has less to do after its step. -/
theorem across_callsLeft_lt {ts : Multiset (Thread W (QueuedJob C T))} {slots : ℕ → Option E.Slot}
    {task_id : ℕ} (ht : ⟨.none, .running task_id⟩ ∈ ts) {slot : E.Slot}
    (hlt : callsLeft (some slot) < callsLeft (slots task_id)) :
    across (Control.callsLeft (Function.update slots task_id (some slot))) ts <
      across (Control.callsLeft slots) ts := by
  have hcontrol : ∀ c : Control W (QueuedJob C T),
      c.callsLeft (Function.update slots task_id (some slot)) ≤ c.callsLeft slots := by
    intro c
    cases c with
    | running id =>
      by_cases hid : id = task_id
      · subst hid
        simpa [Control.callsLeft] using hlt.le
      · simp [Control.callsLeft, Function.update_of_ne hid]
    | _ => exact le_rfl
  refine Multiset.sum_lt_sum (fun th _ => hcontrol th.control) ⟨_, ht, ?_⟩
  simpa [Control.callsLeft] using hlt

/-- Every step leaves less to do. -/
theorem Tracked.Advance.fuel_lt (h : Tracked.Advance cfg t e t') :
    Prod.Lex (· < ·) (· < ·) t'.fuel t.fuel := by
  obtain ⟨hs, hact⟩ := h
  cases hs with
  | @service e s' hs hallow => exact .left _ _ (Service.fuel_lt (hact e rfl))
  | @invoke task_id slot ht hslot hstart =>
    have hpending : E.status slot = .pending := by
      by_contra hne
      rw [E.start_of_not_pending hne] at hstart
      exact Bool.false_ne_true hstart
    refine .right _ (across_callsLeft_lt ht ?_)
    simp [callsLeft, hslot, hpending, (E.start_of_pending hpending).2]
  | @publish task_id slot status ht hslot hrun hstatus =>
    refine .right _ (across_callsLeft_lt ht ?_)
    have hterminal := hstatus.terminal.1
    simp [callsLeft, hslot, hrun, E.status_publish hrun hstatus, hterminal.1, hterminal.2]

/-- As long as there are threads, one of them can go on, or the runner inside of it. -/
theorem Tracked.Run.exists_advance (h : Tracked.Run cfg tr t) (ht : t.service.threads ≠ 0) :
    ∃ e t', Tracked.Advance cfg t e t' := by
  have ha := h.agreement
  have hadvance : ∀ {th : Thread W (QueuedJob C T)} {e st new}, th ∈ t.service.threads →
      Action th t.service.shared e st new → t.Allows e → ∃ e t', Tracked.Advance cfg t e t' := by
    intro th e st new hth hact hallow
    obtain ⟨ts, hts⟩ := Multiset.exists_cons_of_mem hth
    have hstep : Pool.Act Action t.service e ⟨st, new + ts⟩ := .of_eq hact hts rfl
    refine ⟨.service e, _, .service (.act hstep) hallow, ?_⟩
    rintro e' ⟨⟩
    exact hstep
  obtain ⟨th, hth⟩ := Multiset.exists_mem_of_ne_zero ht
  have hj := ha.threads th hth
  obtain ⟨e, st, new, hact⟩ := exists_action th t.service.shared
  cases hact with
  | @finishRunning _ _ task_id dispatch changes hs =>
    -- the job returns when its result is published
    cases hslot : t.slots task_id with
    | none => exact hadvance hth (.finishRunning hs) (by simp [Tracked.Allows, hslot])
    | some slot =>
      by_cases hpending : E.status slot = .pending
      · exact ⟨_, _, .invoke hth hslot (E.start_of_pending hpending).1, by simp⟩
      · by_cases hrun : E.status slot = .running
        · exact ⟨_, _, .publish hth hslot hrun (.inl rfl), by simp⟩
        · refine hadvance hth (.finishRunning hs) ?_
          intro slot' hslot'
          obtain rfl := Option.some.inj (hslot.symm.trans hslot')
          exact ⟨hpending, hrun⟩
  | @status _ task_id status =>
    obtain ⟨slot, hslot⟩ := Option.isSome_iff_exists.1 ((ha.slots task_id).known.2 hj.1)
    exact hadvance hth .status ⟨slot, hslot, rfl⟩
  | @fallback _ task_id result =>
    obtain ⟨slot, hslot⟩ := Option.isSome_iff_exists.1 ((ha.slots task_id).known.2 hj.1)
    exact hadvance hth .fallback ⟨slot, hslot, rfl⟩
  | publishCapacity => exact hadvance hth .publishCapacity trivial
  | publishTermination => exact hadvance hth .publishTermination trivial
  | spawn => exact hadvance hth .spawn trivial
  | dispatched => exact hadvance hth .dispatched trivial
  | takeNext hs => exact hadvance hth (.takeNext hs) trivial
  | run => exact hadvance hth .run trivial
  | cancel => exact hadvance hth .cancel trivial
  | finishCancelling hs => exact hadvance hth (.finishCancelling hs) trivial
  | cleaned => exact hadvance hth .cleaned trivial
  | isRunningTask => exact hadvance hth .isRunningTask trivial
  | subscribed => exact hadvance hth .subscribed trivial
  | returning => exact hadvance hth .returning trivial

/-- The end of a service with tracked tasks, after the history `tr`. -/
structure Delivered (tr : List (TrackedEvent W C T)) (t : Tracked W E C T) : Prop where
  threads : t.service.threads = 0
  drained : Drained t.service.shared.inner
  /-- Every handle has its result, so `get` returns it and `is_done` is true. -/
  terminal : ∀ id slot, t.slots id = some slot → (E.status slot).Terminal
  /-- A result has been published for exactly the callables that were accepted. -/
  published : ∀ id, id ∈ published tr ↔ ∃ task, (id, .callable task) ∈ tally Event.accepts (core tr)

/-- Results are delivered, from the state `t` reached by the history `tr`. -/
structure ResultsDelivered (cfg : Config) (tr : List (TrackedEvent W C T)) (t : Tracked W E C T) :
    Prop where
  /-- No result is published twice. -/
  once : (published tr).Nodup
  /-- A published result stays as it is. -/
  final : ∀ e t', Tracked.Step cfg t e t' → ∀ id ∈ published tr, t'.slots id = t.slots id
  /-- Without new operations nothing goes on for ever, -/
  finite : ¬ ∃ f : ℕ → Tracked W E C T, f 0 = t ∧
    ∀ i, ∃ e, Tracked.Advance cfg (f i) e (f (i + 1))
  /-- and what ends has delivered all results. -/
  delivered : ∀ es t', Path (Tracked.Advance cfg) t es t' →
    (∀ e t'', ¬ Tracked.Advance cfg t' e t'') → Delivered (es.reverse ++ tr) t'

/-- Every accepted callable gets exactly one result. -/
theorem results_delivered (h : Tracked.Run cfg tr t) (hn : 1 ≤ cfg.num_threads) :
    ResultsDelivered cfg tr t where
  once := h.results.nodup
  final e t' hs id hid := h.results.slots_eq h.agreement h hs hid
  finite := by
    have hless : WellFounded (Prod.Lex (· < ·) (· < ·) : ℕ × ℕ → ℕ × ℕ → Prop) :=
      wellFounded_lt.prod_lex wellFounded_lt
    have hhalts : Halts (Tracked.Advance cfg) t := by
      refine halts_of_measure hless (I := fun _ => True) (μ := Tracked.fuel) ?_ trivial
      exact fun _ hs => ⟨trivial, hs.fuel_lt⟩
    exact hhalts.not_infinite
  delivered := by
    intro es t' hp hstuck
    have h' : Tracked.Run cfg (es.reverse ++ tr) t' := h.append (hp.mono And.left)
    have hthreads : t'.service.threads = 0 := by
      by_contra hne
      obtain ⟨e, t'', hadvance⟩ := h'.exists_advance hne
      exact hstuck e t'' hadvance
    have hcore := Tracked.Run.core h'
    have hdrained := hcore.drained hn hthreads
    have hterminal : ∀ id slot, t'.slots id = some slot → (E.status slot).Terminal := by
      intro id slot hslot
      obtain ⟨task, hacc⟩ := (h'.agreement.slots id).known.1 (by simp [hslot])
      -- every accepted task is finished
      refine h'.agreement.terminal hcore hslot ?_
      have hid : id ∈ accepted (core (es.reverse ++ tr)) := Multiset.mem_map_of_mem Prod.fst hacc
      rw [hcore.ledger.ids, hdrained.running_tasks, hdrained.cancelling,
        OrderedMap.keys_eq_zero_of_length hdrained.queue] at hid
      simpa using hid
    refine ⟨hthreads, hdrained, hterminal, fun id => ?_⟩
    rw [← (h'.agreement.slots id).known]
    constructor
    · intro hid
      obtain ⟨slot, hslot, -⟩ := h'.results.terminal id hid
      simp [hslot]
    · intro hsome
      obtain ⟨slot, hslot⟩ := Option.isSome_iff_exists.1 hsome
      exact Multiset.mem_map_of_mem Prod.fst
        ((h'.agreement.slots id).terminal slot hslot (hterminal id slot hslot))

/-- From the first run with a callable its result is delivered. -/
theorem results_delivered_tiny : ResultsDelivered tinyConfig
    [.service (.returned (.submitted 0)), .service .spawn,
      .service (.admitJob (.callable 7) (.ok ⟨0, 1⟩))]
    (⟨⟨tinyTracked, {⟨.none, .closure⟩}⟩, Function.update (fun _ => none) 0 (some .pending), {0}⟩ :
      Tracked Watch.versioned .plain ℕ ℕ) := results_delivered tinySubmitted_run (by decide)

end

end RayonExecutor
