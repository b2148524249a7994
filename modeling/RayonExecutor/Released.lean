import RayonExecutor.Termination
import RayonExecutor.Waiters
import RayonExecutor.Capacity
import RayonExecutor.Drain
import RayonExecutor.Lib.Halting

/-!
# Nobody is left waiting

A service that has been shut down or stopped comes to its end together with all who wait for it. An
observer goes on by itself only for a reason (`Observer.Prompted`): a parked waiter when it has been
notified since it parked, a future when its channel has a change that it has not seen. These reasons
are enough. Operations and prompted observers go on for a while, and then nobody is left
(`nobody_left_waiting`): blocking waits have returned, `await_termination` futures have resolved,
and producers have been turned away. No timeout and no spurious wakeup is needed for that.
-/

namespace RayonExecutor

open Transition Pool

variable {W : Watch} {J : Type}

/-! ## Those who go on by themselves -/

/-- The observer has a reason to go on with the event. To drop a future is none. -/
def Observer.Prompted (x : Observed W J) : Observer W → WorldEvent W J → Prop
  | _, .drop => False
  | .parked _ epoch _, _ => epoch < x.notifications
  | .pending r, _ => W.hasChanged x.service.shared.termination_tx r = true
  | _, _ => True

/-- Somebody who has begun goes on: an operation, or an observer that is prompted. A `subscribe` of
`await_termination` that returns leaves its future. -/
inductive World.Onward (cfg : Config) : World W J → WorldEvent W J → World W J → Prop
  | operation {x : Observed W J} {e : Event W J} {s' : Service W J} {os : Multiset (Observer W)}
      (ha : Pool.Act Action x.service e s') : Onward cfg ⟨x, os⟩ (.service e) ⟨x.after s', os⟩
  | subscribed {x : Observed W J} {r : W.Receiver Bool} {s' : Service W J}
      {os : Multiset (Observer W)} (ha : Pool.Act Action x.service (.returned (.receiver r)) s') :
      Onward cfg ⟨x, os⟩ (.service (.returned (.receiver r))) ⟨x.after s', {.polling r} + os⟩
  | observer {o : Observer W} {x y : Observed W J} {e : WorldEvent W J}
      {new os : Multiset (Observer W)} (ho : Observation cfg o x e y new) (hp : o.Prompted x e) :
      Onward cfg ⟨x, o ::ₘ os⟩ e ⟨y, new + os⟩

/-- Those who go on make steps of the world. -/
theorem World.Onward.step {cfg : Config} {w w' : World W J} {e : WorldEvent W J}
    (h : World.Onward cfg w e w') : World.Step cfg w e w' := by
  cases h with
  | operation ha => exact .quick (.service (.act ha))
  | subscribed ha => exact .call (.awaitTermination (.act ha))
  | observer ho => exact .act (.act ho)

/-! ## For a while -/

/-- A producer that has not been answered. -/
@[simp] def Observer.producers : Observer W → ℕ
  | .submitting _ | .saturated _ _ => 1
  | .checking _ | .parked _ _ _ | .polling _ | .pending _ => 0

/-- The steps that an observer has a reason to make while the service stays as it is. -/
def Observer.fuel (s : Service W J) : Observer W → ℕ
  | .checking _ => 1
  | .parked _ epoch _ => if epoch < s.shared.terminated.notifications then 2 else 0
  | .polling _ => 1
  | .pending r => if W.hasChanged s.shared.termination_tx r then 2 else 0
  | .submitting r => (if W.hasChanged s.shared.capacity_tx r then 2 else 0) + 1
  | .saturated r _ => if W.hasChanged s.shared.capacity_tx r then 2 else 0

/-- A producer is answered, or the observer leaves the service alone and has one step less to
make. -/
theorem Observation.fuel_lt {cfg : Config} {o : Observer W} {x y : Observed W J}
    {e : WorldEvent W J} {new : Multiset (Observer W)} (h : Observation cfg o x e y new)
    (hp : o.Prompted x e) : total Observer.producers new < o.producers ∨
      total Observer.producers new = o.producers ∧ y.service = x.service ∧
        total (Observer.fuel x.service) new < o.fuel x.service := by
  cases h with
  | waited => simp [Observer.fuel]
  | park => simp [Observer.fuel]
  | wake =>
    have hnotified : _ < x.service.shared.terminated.notifications := hp
    simp [Observer.fuel, hnotified]
  | poll => split_ifs <;> simp [Observer.fuel]
  | repoll =>
    have hchanged : W.hasChanged x.service.shared.termination_tx _ = true := hp
    simp [Observer.fuel, hchanged]
  | @submit _ r job outcome s' hs =>
    by_cases hsaturated : outcome = .err .saturated
    · -- a change that it has not seen is there after the attempt too
      subst hsaturated
      obtain rfl := hs.eq_of_rejected
      exact .inr ⟨rfl, rfl, by simp [afterAttempt, Observer.fuel]⟩
    · left
      unfold afterAttempt
      split
      · contradiction
      · exact Nat.zero_lt_one
  | changed hchanged => simp [Observer.fuel, hchanged]
  | dropPending | dropSaturated => exact absurd hp id

/-- What is left to do: for producers that want to get in, by the service, and then by its
observers. -/
def World.fuel (w : World W J) : ℕ × ℕ × ℕ := (total Observer.producers w.threads,
  w.shared.service.fuel, total (Observer.fuel w.shared.service) w.threads)

/-- What is left to do gets less when somebody goes on. -/
theorem World.Onward.fuel_lt {cfg : Config} {w w' : World W J} {e : WorldEvent W J}
    (h : World.Onward cfg w e w') :
    Prod.Lex (· < ·) (Prod.Lex (· < ·) (· < ·)) w'.fuel w.fuel := by
  cases h with
  | operation ha => exact .right _ (.left _ _ (Service.fuel_lt ha))
  | subscribed ha =>
    rw [World.fuel, World.fuel, total_add, total_singleton, Observer.producers, zero_add]
    exact .right _ (.left _ _ (Service.fuel_lt ha))
  | @observer o x y e new os ho hp =>
    rw [World.fuel, World.fuel, total_add, total_cons]
    rcases ho.fuel_lt hp with hlt | ⟨heq, hservice, hlt⟩
    · exact .left _ _ (Nat.add_lt_add_right hlt _)
    · rw [heq, hservice, total_add, total_cons]
      exact .right _ (.right _ (Nat.add_lt_add_right hlt _))

/-- Everybody comes to an end. -/
theorem World.halts (cfg : Config) (w : World W J) : Halts (World.Onward cfg) w := by
  have hless : WellFounded (Prod.Lex (· < ·) (Prod.Lex (· < ·) (· < ·)) :
      ℕ × ℕ × ℕ → ℕ × ℕ × ℕ → Prop) :=
    wellFounded_lt.prod_lex (wellFounded_lt.prod_lex wellFounded_lt)
  exact halts_of_measure hless (I := fun _ => True) (μ := World.fuel)
    (fun _ hs => ⟨trivial, hs.fuel_lt⟩) trivial

/-! ## Nobody is left -/

/-- A service that has left `Running` does not return to it. -/
theorem World.Step.closed {cfg : Config} {tr : List (WorldEvent W J)} {w w' : World W J}
    {e : WorldEvent W J} (hr : World.Run cfg tr w) (hs : World.Step cfg w e w')
    (hclosed : w.shared.inner.lifecycle ≠ .running) : w'.shared.inner.lifecycle ≠ .running := by
  rcases World.Step.service_step hs with ⟨e', -, hstep⟩ | ⟨-, heq⟩
  · have hrank := (hstep.progress.stored (World.Run.service hr).stored).2
    intro hl'
    have h0 : w'.shared.service.shared.inner.lifecycle = .running := hl'
    rw [h0] at hrank
    revert hrank hclosed
    unfold Observed.inner
    cases w.shared.service.shared.inner.lifecycle <;> simp [ExecutorServiceLifecycle.rank]
  · unfold Observed.inner
    rw [heq]
    exact hclosed

/-- A reachable world whose service has left `Running`. -/
def World.Closed (cfg : Config) (w : World W J) : Prop :=
  (∃ tr, World.Run cfg tr w) ∧ w.shared.inner.lifecycle ≠ .running

/-- A closed world goes on to closed worlds. -/
theorem World.Closed.onward {cfg : Config} {w w' : World W J} {e : WorldEvent W J}
    (h : w.Closed cfg) (hs : World.Onward cfg w e w') : w'.Closed cfg := by
  obtain ⟨⟨tr, hr⟩, hclosed⟩ := h
  exact ⟨⟨e :: tr, hr.step hs.step⟩, World.Step.closed hr hs.step hclosed⟩

/-- Once nothing is owed, a producer that awaits a change has one to see, or the service is full. -/
theorem World.Run.hasChanged_of_saturated {cfg : Config} {tr : List (WorldEvent W J)}
    {w : World W J} (h : World.Run cfg tr w) (h0 : w.shared.service.threads = 0)
    (hfull : ¬ w.shared.inner.Full) {r : W.Receiver ℕ} {attempt : ℕ}
    (ho : .saturated r attempt ∈ w.threads) :
    W.hasChanged w.shared.service.shared.capacity_tx r = true := by
  rcases (World.Run.waits h _ ho).2 with hchanged | ⟨t, ht, -⟩ | ⟨hfull', -⟩
  · exact hchanged
  · rw [h0] at ht
    exact absurd ht (Multiset.notMem_zero t)
  · exact absurd hfull' hfull

/-- While a slot is free every producer has a reason to go on. -/
theorem World.Run.exists_attempt {cfg : Config} {tr : List (WorldEvent W J)} {w : World W J}
    (h : World.Run cfg tr w) (h0 : w.shared.service.threads = 0)
    (hfull : ¬ w.shared.inner.Full) (job : J) {o : Observer W} (ho : o ∈ w.threads)
    (hproducer : o.producers ≠ 0) :
    ∃ e y new, Observation cfg o w.shared e y new ∧ o.Prompted w.shared e := by
  cases o with
  | submitting r =>
    have ha := Prod.mk.eta (p := w.shared.service.shared.admitJob cfg.bits .returned job)
    exact ⟨_, _, _, .submit (.call (.admitJob ha.symm)), trivial⟩
  | saturated r attempt =>
    exact ⟨_, _, _, .changed (World.Run.hasChanged_of_saturated h h0 hfull ho), trivial⟩
  | checking | parked | polling | pending => exact absurd rfl hproducer

/-- In a service that is over every observer has a reason to go on. -/
theorem World.Run.exists_observation {cfg : Config} {tr : List (WorldEvent W J)} {w : World W J}
    (h : World.Run cfg tr w) (h0 : w.shared.service.threads = 0)
    (ht : w.shared.inner.Terminated) (job : J) {o : Observer W} (ho : o ∈ w.threads) :
    ∃ e y new, Observation cfg o w.shared e y new ∧ o.Prompted w.shared e := by
  cases o with
  | checking wait => exact ⟨_, _, _, .waited (Wait.iteration_of_terminated ht), trivial⟩
  | parked wait epoch duration => exact ⟨_, _, _, .wake, (World.Run.notified h _ ho).2.2 ht⟩
  | polling r => exact ⟨_, _, _, .poll, trivial⟩
  | pending r =>
    refine ⟨_, _, _, .repoll, ?_⟩
    -- the value is true, so a future without a change to see would have read it
    have hv : W.borrow w.shared.service.shared.termination_tx = true :=
      ((World.Run.service h).published.owed ht).resolve_right (by simp [h0])
    by_contra hchanged
    rw [(World.Run.informed h _ ho).2 (Bool.not_eq_true _ ▸ hchanged)] at hv
    exact Bool.false_ne_true hv
  | submitting | saturated =>
    exact World.Run.exists_attempt h h0 (fun hfull => ht.1 hfull.1) job ho Nat.one_ne_zero

/-- The things that can be waited for. -/
inductive Awaited
  | wait (wait : Wait)
  | termination
  | capacity
  deriving DecidableEq, Repr

/-- What an observer waits for. -/
@[simp] def Observer.awaits : Observer W → Awaited
  | .checking wait | .parked wait _ _ => .wait wait
  | .polling _ | .pending _ => .termination
  | .submitting _ | .saturated _ _ => .capacity

/-- Whom the event lets go: a wait that returns, a future that resolves, or a producer that is
turned away. -/
@[simp] def WorldEvent.releases : WorldEvent W J → Multiset Awaited
  | .waited waiter _ => {.wait waiter}
  | .poll true => {.termination}
  | .service (.admitJob _ (.err .shutdown)) => {.capacity}
  | _ => 0

/-- Who is let go leaves, and nobody else does. -/
theorem Observation.releases {cfg : Config} {o : Observer W} {x y : Observed W J}
    {e : WorldEvent W J} {new : Multiset (Observer W)} (h : Observation cfg o x e y new)
    (hp : o.Prompted x e) (hclosed : x.inner.lifecycle ≠ .running) :
    e.releases + new.map Observer.awaits = {o.awaits} := by
  cases h with
  | poll =>
    cases W.borrow x.service.shared.termination_tx <;> simp
  | submit hs =>
    obtain rfl := hs.rejected_of_closed hclosed
    simp [afterAttempt]
  | dropPending | dropSaturated => exact absurd hp id
  | _ => simp

/-- An operation that goes on lets nobody go. -/
theorem Service.releases {s s' : Service W J} {e : Event W J} (h : Pool.Act Action s e s') :
    (WorldEvent.service e).releases = 0 := by
  obtain ⟨ha⟩ := h
  cases ha <;> rfl

/-- A step lets go whom it takes away, and brings at most the futures that it subscribes. -/
theorem World.Onward.releases {cfg : Config} {w w' : World W J} {e : WorldEvent W J}
    (h : World.Onward cfg w e w') (hclosed : w.shared.inner.lifecycle ≠ .running) :
    ∃ k, e.releases + w'.threads.map Observer.awaits =
      w.threads.map Observer.awaits + Multiset.replicate k .termination := by
  cases h with
  | operation ha =>
    refine ⟨0, ?_⟩
    rw [Service.releases ha]
    simp
  | subscribed ha => exact ⟨1, by simp [add_comm]⟩
  | observer ho hp =>
    refine ⟨0, ?_⟩
    rw [Multiset.map_add, ← add_assoc, ho.releases hp hclosed]
    simp

/-- A continuation lets go whom it takes away, and brings at most the futures that it subscribes. -/
theorem World.Closed.releases {cfg : Config} {w w' : World W J} {es : List (WorldEvent W J)}
    (h : w.Closed cfg) (hp : Path (World.Onward cfg) w es w') :
    ∃ k, tally WorldEvent.releases es + w'.threads.map Observer.awaits =
      w.threads.map Observer.awaits + Multiset.replicate k .termination := by
  induction hp with
  | nil => exact ⟨0, by simp⟩
  | cons hs _ ih =>
    obtain ⟨k, hk⟩ := hs.releases h.2
    obtain ⟨l, hl⟩ := ih (h.onward hs)
    refine ⟨k + l, ?_⟩
    rw [tally_cons, add_assoc, hl, ← add_assoc, hk, add_assoc, Multiset.replicate_add]

/-- How all who wait are released, from the world `w`. -/
structure Released (cfg : Config) (w : World W J) : Prop where
  finite : ¬ ∃ f : ℕ → World W J, f 0 = w ∧ ∀ i, ∃ e, World.Onward cfg (f i) e (f (i + 1))
  complete : ∃ es w', Path (World.Onward cfg) w es w' ∧ ∀ e w'', ¬ World.Onward cfg w' e w''
  /-- Where nobody goes on, nobody is left, and the service has terminated. -/
  nobody : ∀ es w', Path (World.Onward cfg) w es w' → (∀ e w'', ¬ World.Onward cfg w' e w'') →
    w'.threads = 0 ∧ w'.shared.service.threads = 0 ∧ w'.shared.inner.Terminated
  /-- Everybody who was there has been let go once, and so have the futures that came. -/
  released : ∀ es w', Path (World.Onward cfg) w es w' →
    (∀ e w'', ¬ World.Onward cfg w' e w'') → ∃ k, tally WorldEvent.releases es =
      w.threads.map Observer.awaits + Multiset.replicate k .termination
  /-- A wait is told of the termination, unless its timeout is over before. -/
  told : ∀ es w', Path (World.Onward cfg) w es w' →
    ∀ wait, .waited wait false ∈ es → wait.timeout ≠ none
  rejected : ∀ es w', Path (World.Onward cfg) w es w' →
    ∀ job outcome, .service (.admitJob job outcome) ∈ es → outcome = .err .shutdown

/-- After a shutdown or a stop nobody is left waiting, however the operations and the observers
interleave. -/
theorem nobody_left_waiting {cfg : Config} {tr : List (WorldEvent W J)} {w : World W J}
    (h : World.Run cfg tr w) (hclosed : w.shared.inner.lifecycle ≠ .running)
    (hn : 1 ≤ cfg.num_threads) (job : J) : Released cfg w := by
  have hw : w.Closed cfg := ⟨⟨tr, h⟩, hclosed⟩
  have hnobody : ∀ es w', Path (World.Onward cfg) w es w' →
      (∀ e w'', ¬ World.Onward cfg w' e w'') →
      w'.threads = 0 ∧ w'.shared.service.threads = 0 ∧ w'.shared.inner.Terminated := by
    intro es w' hp hstuck
    obtain ⟨⟨tr', hr'⟩, hclosed'⟩ : w'.Closed cfg :=
      hp.keeps (P := World.Closed cfg) (fun h hs => h.onward hs) hw
    have h0 : w'.shared.service.threads = 0 :=
      Service.Stuck.threads fun e s' ha => hstuck _ _ (.operation ha)
    have ht : w'.shared.inner.Terminated :=
      ((World.Run.service hr').drained hn h0).terminated hclosed'
    refine ⟨Multiset.eq_zero_of_forall_notMem fun o ho => ?_, h0, ht⟩
    obtain ⟨e, y, new, hobs, hprompted⟩ := World.Run.exists_observation hr' h0 ht job ho
    obtain ⟨x, os⟩ := w'
    obtain ⟨os, rfl⟩ := Multiset.exists_cons_of_mem ho
    exact hstuck _ _ (.observer hobs hprompted)
  exact
    { finite := (World.halts cfg w).not_infinite
      complete := (World.halts cfg w).exists_path
      nobody := hnobody
      released := by
        intro es w' hp hstuck
        obtain ⟨k, hk⟩ := hw.releases hp
        refine ⟨k, ?_⟩
        rw [(hnobody es w' hp hstuck).1, Multiset.map_zero, add_zero] at hk
        exact hk
      told := by
        intro es w' hp wait hm
        have htold : ∀ e ∈ es, ∀ wait, e = .waited wait false → wait.timeout ≠ none := by
          refine Path.forall_mem ?_ hp
          rintro w e w' hs wait rfl
          obtain ⟨-, timeout, htimeout, -⟩ := Wait.returned_false (World.Step.waited hs.step).2
          simp [htimeout]
        exact htold _ hm wait rfl
      rejected := by
        intro es w' hp job outcome hm
        have hrejected := (Run.path (P := fun w => w.shared.inner.lifecycle ≠ .running)
          (Q := fun e => ∀ job outcome, e = .service (.admitJob job outcome) →
            outcome = .err .shutdown) ?_ h (hp.mono World.Onward.step) hclosed).2
        · exact hrejected _ hm job outcome rfl
        · intro tr w e w' hr hclosed hs
          refine ⟨World.Step.closed hr hs hclosed, ?_⟩
          rintro job outcome rfl
          rcases World.Step.service_step hs with ⟨e', heq, hstep⟩ | ⟨hnone, -⟩
          · obtain rfl := WorldEvent.service.inj heq
            exact hstep.rejected_of_closed hclosed
          · cases hnone }

/-- The waiter of the first run is released. -/
theorem nobody_left_waiting_tiny : Released tinyConfig
    (⟨⟨⟨tinyShutdown, {⟨⟨true, true⟩, .returning .shutdown⟩}⟩, 0, 1⟩,
      {.parked ⟨some 5, 0⟩ 0 (some 5)}⟩ : World Watch.versioned ℕ) :=
  nobody_left_waiting tinyShutdown_run (by decide) (by decide) 7

end RayonExecutor
