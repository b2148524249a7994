import RayonExecutor.Cancellation
import RayonExecutor.Admission
import RayonExecutor.Publication

/-!
# Termination reports

`lifecycle`, `stats` and the blocking waits all recompute the termination predicate, so at any
moment they agree, and a report means that the service was shut down or stopped and that the ledger
has no unfinished task. Once it has none the ledger cannot move: every count of it is the count of
finished tasks, and nothing is accepted any more (`Service.Step.idle`).
-/

namespace RayonExecutor

open Transition Pool

variable {W : Watch} {J : Type}

/-! ## After termination -/

/-- The service was shut down or stopped, and every accepted task is finished. -/
structure AllFinished (tr : List (Event W J)) (inner : RayonExecutorServiceInner J) : Prop where
  closed : ∃ e ∈ tr, e.Closes
  finished : accepted tr = tally Event.finishesRun tr + tally Event.finishesCancel tr
  terminated : inner.Terminated

/-- The predicate means that every accepted task is finished. -/
theorem Service.Run.all_finished {cfg : Config} {tr : List (Event W J)} {s : Service W J}
    (h : Service.Run cfg tr s) (ht : s.shared.inner.Terminated) :
    AllFinished tr s.shared.inner where
  closed := h.closed ht.1
  finished := by
    obtain ⟨-, hq, hr, hc⟩ := RayonExecutorServiceInner.terminated_iff.1 ht
    have hl := h.ledger
    have hrun : s.shared.inner.running_tasks = ∅ := Finset.card_eq_zero.1 (hl.running ▸ hr)
    rw [hl.ids, OrderedMap.keys_eq_zero_of_length hq, hrun, hc, Finset.empty_val, zero_add,
      zero_add, zero_add]
  terminated := ht

/-- In a terminated service every count of the ledger is a count of finished tasks. -/
theorem Service.Run.settled {cfg : Config} {tr : List (Event W J)} {s : Service W J}
    (h : Service.Run cfg tr s) (ht : s.shared.inner.Terminated) :
    (tally Event.accepts tr).card =
        (tally Event.finishesRun tr).card + (tally Event.finishesCancel tr).card ∧
      (tally Event.takes tr).card = (tally Event.finishesRun tr).card ∧
      (tally Event.runs tr).card = (tally Event.finishesRun tr).card ∧
      (tally Event.claims tr).card = (tally Event.finishesCancel tr).card ∧
      (tally Event.cancels tr).card = (tally Event.finishesCancel tr).card := by
  obtain ⟨-, -, hr, hc⟩ := RayonExecutorServiceInner.terminated_iff.1 ht
  have hfin := congrArg Multiset.card (h.all_finished ht).finished
  have hjobs := congrArg Multiset.card h.ledger.jobs
  have htakes := congrArg Multiset.card h.takes_eq
  have hclaims := congrArg Multiset.card h.claims_eq
  have hruns := congrArg Multiset.card h.consumption.runs
  have hcancels := congrArg Multiset.card h.consumption.cancels
  have hrun := h.ledger.running
  simp only [accepted, Multiset.card_map, Multiset.card_add, Finset.card_val, hc,
    Finset.card_empty] at *
  -- the consumed jobs are at least the finished tasks, and at most the accepted ones
  refine ⟨by omega, by omega, by omega, by omega, by omega⟩

/-- An event in which no task moves. -/
structure Event.Idle (e : Event W J) : Prop where
  accepts : e.accepts = 0
  takes : e.takes = 0
  runs : e.runs = 0
  claims : e.claims = 0
  cancels : e.cancels = 0

/-- After termination no task moves. -/
theorem Service.Step.idle {cfg : Config} {tr : List (Event W J)} {s s' : Service W J}
    {e : Event W J} (hr : Service.Run cfg tr s) (h : Service.Step cfg s e s')
    (ht : s.shared.inner.Terminated) : e.Idle := by
  have hr' : Service.Run cfg (e :: tr) s' := hr.step h
  -- nothing is accepted any more, so no task can finish, and the other counts stay with it
  obtain ⟨h1, h2, h3, h4, h5⟩ := hr.settled ht
  obtain ⟨h1', h2', h3', h4', h5'⟩ := hr'.settled (h.progress.final ht)
  have haccepts : e.accepts.card = 0 := by
    rcases h.accepts_cases with h0 | ⟨-, -, -, hl, -⟩
    · rw [h0, Multiset.card_zero]
    · exact absurd hl ht.1
  simp only [tally_cons, Multiset.card_add] at h1' h2' h3' h4' h5'
  constructor <;> refine Multiset.card_eq_zero.1 ?_ <;> omega

/-- After termination every submission is rejected as shut down. -/
theorem Service.Step.rejected_of_closed {cfg : Config} {s s' : Service W J} {job : J}
    {outcome : AdmitOutcome} (h : Service.Step cfg s (.admitJob job outcome) s')
    (hl : s.shared.inner.lifecycle ≠ .running) : outcome = .err .shutdown := by
  rcases h with hc | ⟨⟨ha⟩⟩
  · cases hc with
    | admitJob ha =>
      cases RayonExecutorServiceState.admitJob_cases ha with
      | shutdown => rfl
      | saturated hrun | exhausted hrun | unwound hrun | accepted hrun => exact absurd hrun hl
  · cases ha

/-! ## Reports -/

/-- The lifecycle that a query returns. -/
def Event.observed : Event W J → Option ExecutorServiceLifecycle
  | .lifecycle answer => some answer
  | .stats answer => some answer.lifecycle
  | _ => none

/-- A query returns the lifecycle of the moment. -/
theorem Service.Step.observed {cfg : Config} {s s' : Service W J} {e : Event W J}
    {lifecycle : ExecutorServiceLifecycle} (h : Service.Step cfg s e s')
    (he : e.observed = some lifecycle) : lifecycle = s.shared.lifecycle := by
  rcases h with hc | ⟨⟨ha⟩⟩
  · cases hc <;> simp only [Event.observed, Option.some.injEq, reduceCtorEq] at he
    · exact he.symm
    · exact he.symm
  · cases ha <;> simp only [Event.observed, reduceCtorEq] at he

/-- The lifecycles that queries have returned, latest first, never moved backwards, and none is
ahead of the present one. -/
theorem Service.Run.observed {cfg : Config} {tr : List (Event W J)} {s : Service W J}
    (h : Service.Run cfg tr s) :
    (tr.filterMap Event.observed).Pairwise (fun later earlier => earlier.rank ≤ later.rank) ∧
      ∀ lifecycle ∈ tr.filterMap Event.observed, lifecycle.rank ≤ s.shared.lifecycle.rank := by
  refine h.invariant (P := fun tr s =>
    (tr.filterMap Event.observed).Pairwise (fun later earlier => earlier.rank ≤ later.rank) ∧
      ∀ lifecycle ∈ tr.filterMap Event.observed, lifecycle.rank ≤ s.shared.lifecycle.rank)
    (by simp) ?_
  intro tr s e s' hr ⟨hpair, hle⟩ hs
  have hrank := hs.rank_le (Service.Run.stored hr)
  cases he : e.observed with
  | none =>
    rw [List.filterMap_cons_none he]
    exact ⟨hpair, fun lifecycle hm => le_trans (hle lifecycle hm) hrank⟩
  | some lifecycle =>
    -- the answer is the present lifecycle, which no earlier answer is ahead of
    obtain rfl := hs.observed he
    rw [List.filterMap_cons_some he]
    refine ⟨List.pairwise_cons.2 ⟨hle, hpair⟩, ?_⟩
    exact List.forall_mem_cons.2 ⟨hrank, fun lifecycle hm => le_trans (hle lifecycle hm) hrank⟩

/-- The answer that an observer gets when it consults the service about termination. -/
def WorldEvent.answer : WorldEvent W J → Option Bool
  | .service e => e.observed.map fun lifecycle => lifecycle = .terminated
  | .waited _ terminated => some terminated
  | _ => none

/-- Every answer is the predicate of the moment. -/
theorem World.Step.answer {cfg : Config} {tr : List (WorldEvent W J)} {w w' : World W J}
    {e : WorldEvent W J} {answer : Bool} (hr : World.Run cfg tr w) (h : World.Step cfg w e w')
    (he : e.answer = some answer) : answer = true ↔ w.shared.inner.Terminated := by
  cases e with
  | service e =>
    obtain ⟨lifecycle, hobs, rfl⟩ := Option.map_eq_some_iff.1 he
    rcases World.Step.service_step h with ⟨e', heq, hs⟩ | ⟨hnone, -⟩
    · obtain rfl := WorldEvent.service.inj heq
      obtain rfl := hs.observed hobs
      rw [decide_eq_true_eq]
      exact RayonExecutorServiceState.lifecycle_eq_terminated (World.Run.service hr).stored
    · cases hnone
  | waited wait terminated =>
    obtain rfl := Option.some.inj he
    obtain ⟨-, hi⟩ := World.Step.waited h
    exact Wait.returned hi
  | _ => cases he

/-- What happens after termination: no task moves, submissions are rejected as shut down, and who
consults the service is told. -/
structure WorldEvent.Final (e : WorldEvent W J) : Prop where
  idle : ∀ e', e = .service e' → e'.Idle
  rejected : ∀ job outcome, e = .service (.admitJob job outcome) → outcome = .err .shutdown
  told : ∀ answer, e.answer = some answer → answer = true
  not_parked : ∀ wait duration, e ≠ .park wait duration

/-- After termination every step is final. -/
theorem World.Step.final {cfg : Config} {tr : List (WorldEvent W J)} {w w' : World W J}
    {e : WorldEvent W J} (hr : World.Run cfg tr w) (h : World.Step cfg w e w')
    (ht : w.shared.inner.Terminated) : e.Final where
  idle := by
    rintro e' rfl
    rcases World.Step.service_step h with ⟨e'', heq, hs⟩ | ⟨hnone, -⟩
    · obtain rfl := WorldEvent.service.inj heq
      exact hs.idle (World.Run.service hr) ht
    · cases hnone
  rejected := by
    rintro job outcome rfl
    rcases World.Step.service_step h with ⟨e'', heq, hs⟩ | ⟨hnone, -⟩
    · obtain rfl := WorldEvent.service.inj heq
      exact hs.rejected_of_closed ht.1
    · cases hnone
  told answer he := (World.Step.answer hr h he).2 ht
  not_parked := by
    rintro wait duration rfl
    exact (Wait.parks (World.Step.park h).2).1 ht

/-- Termination reports are sound, agree and are final, after the history `tr` and in the state
`w`. -/
structure ReportsFinal (cfg : Config) (tr : List (WorldEvent W J)) (w : World W J) : Prop where
  /-- A report is true: the service was shut down or stopped, and every task ever accepted is
  finished. -/
  sound : ∀ e w', World.Step cfg w e w' → e.answer = some true ∨ e = .poll true →
    AllFinished (inside tr) w.shared.inner
  /-- When the watch value is true, the service is closed and every accepted task is finished. -/
  value_sound : W.borrow w.shared.service.shared.termination_tx = true →
    AllFinished (inside tr) w.shared.inner
  /-- `lifecycle`, `stats` and the blocking waits give the same answer. -/
  agree : ∀ e w' answer, World.Step cfg w e w' → e.answer = some answer →
    (answer = true ↔ w.shared.inner.Terminated)
  /-- Once there is a report, it stays so in every continuation. -/
  final : w.shared.inner.Terminated → ∀ es w', Path (World.Step cfg) w es w' →
    (∀ e ∈ es, e.Final) ∧ w'.shared.inner.Terminated
  value_final : W.borrow w.shared.service.shared.termination_tx = true →
    ∀ es w', Path (World.Step cfg) w es w' →
      W.borrow w'.shared.service.shared.termination_tx = true
  /-- The lifecycles that queries have returned, latest first, never moved backwards. -/
  monotone : ((inside tr).filterMap Event.observed).Pairwise
    (fun later earlier => earlier.rank ≤ later.rank)

/-- Termination reports are sound, agree and are final in every reachable state. -/
theorem reports_final {cfg : Config} {tr : List (WorldEvent W J)} {w : World W J}
    (h : World.Run cfg tr w) : ReportsFinal cfg tr w where
  sound e w' hs he := by
    refine (World.Run.service h).all_finished ?_
    rcases he with he | rfl
    · exact (World.Step.answer h hs he).1 rfl
    · exact (World.Run.service h).published.sound (World.Step.poll hs)
  value_sound hv := (World.Run.service h).all_finished ((World.Run.service h).published.sound hv)
  agree e w' answer hs he := World.Step.answer h hs he
  final ht es w' hp := by
    obtain ⟨ht', hes⟩ := Run.path (P := fun w => w.shared.inner.Terminated)
      (Q := WorldEvent.Final)
      (fun hr ht hs => ⟨(World.Step.later hs).final ht, World.Step.final hr hs ht⟩) h hp ht
    exact ⟨hes, ht'⟩
  value_final hv es w' hp := World.path_borrow hp hv
  monotone := (World.Run.service h).observed.1

/-- The shutdown of a service whose one task is finished terminates it. -/
theorem reports_final_tiny : ReportsFinal tinyConfig
    ([.shutdown, .publishCapacity, .finishRunning 0 false, .run 0 7, .takeNext (some (0, 7)),
      .spawn, .admitJob 7 (.ok ⟨0, 1⟩)].map .service)
    ⟨⟨⟨tinyFinished.shutdown.state, {⟨⟨true, true⟩, .returning .shutdown⟩,
      ⟨.none, .dispatching 0 .runOne⟩, ⟨.none, .dispatching 0 (.submitted 0)⟩}⟩, 0, 7⟩, 0⟩ :=
  reports_final (Service.Run.world tinyFinished_run)

end RayonExecutor
