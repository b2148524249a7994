import RayonExecutor.Released

/-!
# Every producer gets in

A saturated submission leaves its producer with a change to await, and every slot that is freed is
published, so no producer that goes on retrying is left outside. In whatever order the operations
and the observers go on, each producer that has subscribed is answered once (`producers_served`):
while the service runs its submission is accepted or unwinds, and after a shutdown or a stop it is
turned away. Producers do not retry for ever, since they try again for a publication only, and each
publication takes an operation.
-/

namespace RayonExecutor

open Transition Pool

variable {W : Watch} {J : Type}

/-! ## Answers -/

/-- The producers that the event answers. A saturated submission is no answer. -/
@[simp] def WorldEvent.answers : WorldEvent W J → ℕ
  | .service (.admitJob _ (.err .saturated)) => 0
  | .service (.admitJob _ _) => 1
  | _ => 0

/-- An outcome other than `Saturated` is an answer. -/
theorem WorldEvent.answers_eq_one {job : J} {outcome : AdmitOutcome}
    (h : outcome ≠ .err .saturated) :
    (.service (.admitJob job outcome) : WorldEvent W J).answers = 1 := by
  unfold WorldEvent.answers
  split <;> simp_all

/-- Who is answered leaves, and no other producer does. -/
theorem Observation.answers {cfg : Config} {o : Observer W} {x y : Observed W J}
    {e : WorldEvent W J} {new : Multiset (Observer W)} (h : Observation cfg o x e y new)
    (hp : o.Prompted x e) : e.answers + total Observer.producers new = o.producers := by
  cases h with
  | poll => split_ifs <;> simp
  | @submit _ r job outcome s' hs =>
    by_cases hsaturated : outcome = .err .saturated
    · subst hsaturated
      simp [afterAttempt]
    · rw [WorldEvent.answers_eq_one hsaturated]
      unfold afterAttempt
      split
      · contradiction
      · simp
  | dropPending | dropSaturated => exact absurd hp id
  | _ => simp

/-- An operation that goes on answers no producer. -/
theorem Service.answers {s s' : Service W J} {e : Event W J} (h : Pool.Act Action s e s') :
    (WorldEvent.service e).answers = 0 := by
  obtain ⟨ha⟩ := h
  cases ha <;> rfl

/-- A step answers the producers that it takes away. -/
theorem World.Onward.answers {cfg : Config} {w w' : World W J} {e : WorldEvent W J}
    (h : World.Onward cfg w e w') :
    e.answers + total Observer.producers w'.threads = total Observer.producers w.threads := by
  cases h with
  | operation ha => rw [Service.answers ha, zero_add]
  | subscribed ha => simp
  | observer ho hp =>
    rw [total_add, total_cons, ← add_assoc, ho.answers hp]

/-- A continuation answers the producers that it takes away. -/
theorem World.answers {cfg : Config} {w w' : World W J} {es : List (WorldEvent W J)}
    (hp : Path (World.Onward cfg) w es w') :
    tally WorldEvent.answers es + total Observer.producers w'.threads =
      total Observer.producers w.threads := by
  induction hp with
  | nil => simp
  | cons hs _ ih => rw [tally_cons, add_assoc, ih, hs.answers]

/-! ## The lifecycle -/

/-- An operation that goes on does not shut down or stop. -/
theorem Service.not_closes {s s' : Service W J} {e : Event W J} (h : Pool.Act Action s e s') :
    ¬ e.Closes := by
  obtain ⟨ha⟩ := h
  cases ha <;> exact id

/-- Nobody who goes on closes the service. -/
theorem World.Onward.not_closes {cfg : Config} {w w' : World W J} {e : WorldEvent W J}
    (h : World.Onward cfg w e w') : ∀ e' ∈ e.service?, ¬ e'.Closes := by
  rintro e' he
  cases h with
  | operation ha =>
    obtain rfl := Option.some.inj he
    exact Service.not_closes ha
  | subscribed =>
    obtain rfl := Option.some.inj he
    exact id
  | observer ho =>
    cases ho <;> cases he
    exact id

/-- After a step of those who go on the service runs if and only if it did before. -/
theorem World.Onward.running_iff {cfg : Config} {tr : List (WorldEvent W J)} {w w' : World W J}
    {e : WorldEvent W J} (hr : World.Run cfg tr w) (h : World.Onward cfg w e w') :
    w'.shared.inner.lifecycle = .running ↔ w.shared.inner.lifecycle = .running := by
  constructor
  · intro hl'
    by_contra hl
    exact World.Step.closed hr h.step hl hl'
  · intro hl
    by_contra hl'
    rcases World.Step.service_step h.step with ⟨e', rfl, hstep⟩ | ⟨-, heq⟩
    · exact h.not_closes e' rfl (hstep.closes hl hl')
    · unfold Observed.inner at hl hl'
      rw [heq] at hl'
      exact hl' hl

/-- A submission is turned away when the service does not run, and only then. -/
theorem Service.Step.shutdown_iff {cfg : Config} {s s' : Service W J} {job : J}
    {outcome : AdmitOutcome} (h : Service.Step cfg s (.admitJob job outcome) s') :
    outcome = .err .shutdown ↔ s.shared.inner.lifecycle ≠ .running := by
  refine ⟨?_, fun hl => h.rejected_of_closed hl⟩
  rintro rfl
  rcases h with hc | ⟨⟨ha⟩⟩
  · cases hc with
    | admitJob ha =>
      cases RayonExecutorServiceState.admitJob_cases ha with
      | shutdown hl => exact hl
  · cases ha

/-- A submission in a continuation is turned away with `Shutdown` if and only if the service did not
run at its start. -/
theorem World.Run.shutdown_iff {cfg : Config} {tr : List (WorldEvent W J)} {w w' : World W J}
    {es : List (WorldEvent W J)} (hr : World.Run cfg tr w)
    (hp : Path (World.Onward cfg) w es w') {job : J} {outcome : AdmitOutcome}
    (hm : .service (.admitJob job outcome) ∈ es) :
    outcome = .err .shutdown ↔ w.shared.inner.lifecycle ≠ .running := by
  induction hp generalizing tr with
  | nil => exact absurd hm List.not_mem_nil
  | cons hs _ ih =>
    rcases List.mem_cons.1 hm with rfl | hm
    · rcases World.Step.service_step hs.step with ⟨e', heq, hstep⟩ | ⟨hnone, -⟩
      · obtain rfl := WorldEvent.service.inj heq
        exact hstep.shutdown_iff
      · cases hnone
    · rw [ih (Run.step hr hs.step) hm]
      exact not_congr (hs.running_iff hr)

/-! ## Everybody is served -/

/-- A drained service has all its slots free. -/
theorem Drained.occupied {inner : RayonExecutorServiceInner J} (h : Drained inner) :
    inner.occupied = 0 := by
  simp [RayonExecutorServiceInner.occupied, h.queue, h.running, h.cancelling]

/-- A drained service has finished every task that it has accepted. -/
theorem Drained.finished {cfg : Config} {tr : List (Event W J)} {s : Service W J}
    (h : Drained s.shared.inner) (hr : Service.Run cfg tr s) :
    accepted tr = tally Event.finishesRun tr + tally Event.finishesCancel tr := by
  rw [hr.ledger.ids, OrderedMap.keys_eq_zero_of_length h.queue, h.running_tasks, h.cancelling,
    Finset.empty_val, zero_add, zero_add, zero_add]

/-- Where nobody goes on no producer is left. -/
theorem World.Run.no_producers {cfg : Config} {tr : List (WorldEvent W J)} {w : World W J}
    (h : World.Run cfg tr w) (h0 : w.shared.service.threads = 0)
    (hd : Drained w.shared.inner) (hc : 1 ≤ cfg.task_capacity) (job : J)
    (hstuck : ∀ e w', ¬ World.Onward cfg w e w') : ∀ o ∈ w.threads, o.producers = 0 := by
  intro o ho
  by_contra hproducer
  have hfull : ¬ w.shared.inner.Full := by
    rintro ⟨-, heq⟩
    rw [hd.occupied, (World.Run.service h).config.1] at heq
    omega
  obtain ⟨e, y, new, hobs, hprompted⟩ := World.Run.exists_attempt h h0 hfull job ho hproducer
  obtain ⟨x, os⟩ := w
  obtain ⟨os, rfl⟩ := Multiset.exists_cons_of_mem ho
  exact hstuck _ _ (.observer hobs hprompted)

/-- How producers are served, after the history `tr` and from the world `w`. -/
structure ProducersServed (cfg : Config) (tr : List (WorldEvent W J)) (w : World W J) : Prop where
  /-- The producers do not retry for ever. -/
  finite : ¬ ∃ f : ℕ → World W J, f 0 = w ∧ ∀ i, ∃ e, World.Onward cfg (f i) e (f (i + 1))
  complete : ∃ es w', Path (World.Onward cfg) w es w' ∧ ∀ e w'', ¬ World.Onward cfg w' e w''
  /-- Where nobody goes on, no producer is left, and every accepted task is finished. -/
  served : ∀ es w', Path (World.Onward cfg) w es w' → (∀ e w'', ¬ World.Onward cfg w' e w'') →
    (∀ o ∈ w'.threads, o.producers = 0) ∧ w'.shared.service.threads = 0 ∧
      w'.shared.inner.occupied = 0 ∧
      accepted (inside (es.reverse ++ tr)) =
        tally Event.finishesRun (inside (es.reverse ++ tr)) +
          tally Event.finishesCancel (inside (es.reverse ++ tr))
  /-- Everybody who was there has been answered once, with something else than `saturated`. -/
  answered : ∀ es w', Path (World.Onward cfg) w es w' →
    (∀ e w'', ¬ World.Onward cfg w' e w'') →
    tally WorldEvent.answers es = total Observer.producers w.threads
  /-- Nobody is turned away from a service that runs, and nobody gets into another. -/
  shutdown_iff : ∀ es w', Path (World.Onward cfg) w es w' →
    ∀ job outcome, .service (.admitJob job outcome) ∈ es →
      (outcome = .err .shutdown ↔ w.shared.inner.lifecycle ≠ .running)

/-- Every producer that retries is served, however the operations and the observers interleave. -/
theorem producers_served {cfg : Config} {tr : List (WorldEvent W J)} {w : World W J}
    (h : World.Run cfg tr w) (hn : 1 ≤ cfg.num_threads) (hc : 1 ≤ cfg.task_capacity) (job : J) :
    ProducersServed cfg tr w := by
  have hserved : ∀ es w', Path (World.Onward cfg) w es w' →
      (∀ e w'', ¬ World.Onward cfg w' e w'') →
      (∀ o ∈ w'.threads, o.producers = 0) ∧ w'.shared.service.threads = 0 ∧
        w'.shared.inner.occupied = 0 ∧
        accepted (inside (es.reverse ++ tr)) =
          tally Event.finishesRun (inside (es.reverse ++ tr)) +
            tally Event.finishesCancel (inside (es.reverse ++ tr)) := by
    intro es w' hp hstuck
    have hr' : World.Run cfg (es.reverse ++ tr) w' := Run.append h (hp.mono World.Onward.step)
    have h0 : w'.shared.service.threads = 0 :=
      Service.Stuck.threads fun e s' ha => hstuck _ _ (.operation ha)
    have hd : Drained w'.shared.inner := (World.Run.service hr').drained hn h0
    exact ⟨World.Run.no_producers hr' h0 hd hc job hstuck, h0, hd.occupied,
      hd.finished (World.Run.service hr')⟩
  exact
    { finite := (World.halts cfg w).not_infinite
      complete := (World.halts cfg w).exists_path
      served := hserved
      answered := by
        intro es w' hp hstuck
        have hleft : total Observer.producers w'.threads = 0 := by
          refine Multiset.sum_eq_zero fun n hn => ?_
          obtain ⟨o, ho, rfl⟩ := Multiset.mem_map.1 hn
          exact (hserved es w' hp hstuck).1 o ho
        have hanswers := World.answers hp
        rw [hleft, add_zero] at hanswers
        exact hanswers
      shutdown_iff := fun _ _ hp _ _ hm => World.Run.shutdown_iff h hp hm }

/-- The producer that found the only slot taken is served. -/
theorem producers_served_tiny : ProducersServed oneSlot
    [.service (.admitJob 8 (.err .saturated)), .service (.capacityChanges (0 : ℕ)),
      .service (.admitJob 7 (.ok ⟨0, 1⟩))]
    ⟨⟨⟨oneSlotFull, {⟨.none, .dispatching 1 (.submitted 0)⟩}⟩, 0, 3⟩,
      {(.saturated (0 : ℕ) 2 : Observer Watch.versioned)}⟩ :=
  producers_served oneSlotFull_run (by decide) (by decide) 8

end RayonExecutor
