import RayonExecutor.Termination
import RayonExecutor.Waiters
import RayonExecutor.Waiting
import RayonExecutor.Drain

/-!
# The deadlocks that users can make

The documentation warns of two: a task, or the cleanup of one, that waits for its own service to
terminate, and tasks that occupy all workers and wait for tasks of the same pool. Both are real, and
this module says exactly when. The first cannot be broken by anything that anybody else does
(`circular_wait`). The second depends on a number: a queued task can be started without the end of
another exactly if there are more free threads than tasks that were accepted before it
(`starvation_iff`).
-/

namespace RayonExecutor

open Transition Pool

variable {W : Watch} {J : Type}

/-! ## Waiting for oneself -/

/-- The event ends the task: its `finish_running` or its `finish_cancelling`. -/
def WorldEvent.Finishes (id : ℕ) (e : WorldEvent W J) : Prop :=
  ∃ e', e = .service e' ∧ id ∈ e'.finishesRun + e'.finishesCancel

/-- Somebody learns that the service has terminated: through a query, a blocking wait or an
`await_termination` future. -/
def WorldEvent.Reports (e : WorldEvent W J) : Prop := e.answer = some true ∨ e = .poll true

/-- The tasks of `S` end only when they have been told that the service has terminated. -/
def WaitForTermination (S : Set ℕ) (es : List (WorldEvent W J)) : Prop :=
  ∀ earlier e later, es = earlier ++ e :: later → ∀ id ∈ S, e.Finishes id →
    ∃ a ∈ earlier, a.Reports

/-- An unfinished task stays unfinished until an event ends it. -/
theorem mem_unfinished_cons {id : ℕ} {e : Event W J} {tr : List (Event W J)}
    (h : id ∈ unfinished tr) (he : id ∉ e.finishesRun + e.finishesCancel) :
    id ∈ unfinished (e :: tr) := by
  rw [← Multiset.count_pos] at h ⊢
  have he0 := Multiset.count_eq_zero.2 he
  simp only [unfinished, accepted_cons, tally_cons, Multiset.count_sub, Multiset.count_add]
    at h he0 ⊢
  omega

/-- While a task is unfinished the service has not terminated. -/
theorem Service.Run.not_terminated {cfg : Config} {tr : List (Event W J)} {s : Service W J}
    (h : Service.Run cfg tr s) {id : ℕ} (hid : id ∈ unfinished tr) :
    ¬ s.shared.inner.Terminated := by
  intro ht
  rw [Multiset.card_eq_zero.1 (h.ledger.occupied_eq.symm.trans ht.2)] at hid
  exact absurd hid (Multiset.notMem_zero id)

/-- Nobody is told of termination before the service has terminated. -/
theorem World.Step.not_reports {cfg : Config} {tr : List (WorldEvent W J)} {w w' : World W J}
    {e : WorldEvent W J} (hr : World.Run cfg tr w) (hs : World.Step cfg w e w')
    (ht : ¬ w.shared.inner.Terminated) : ¬ e.Reports := by
  rintro (he | rfl)
  · exact ht ((World.Step.answer hr hs he).1 rfl)
  · exact ht ((World.Run.service hr).published.sound (World.Step.poll hs))

/-- The tasks of a circular wait, while the events `es` lead to `w'`. -/
structure Deadlocked (S : Set ℕ) (es : List (WorldEvent W J)) (w' : World W J) : Prop where
  /-- None of them ends. -/
  unfinished : ∀ e ∈ es, ∀ id ∈ S, ¬ e.Finishes id
  /-- Nobody is told that the service has terminated, whatever he asks. -/
  not_reported : ∀ e ∈ es, ¬ e.Reports
  /-- A blocking wait returns only when its timeout is over, and without a timeout never. -/
  waited : ∀ wait answer, .waited wait answer ∈ es → answer = false ∧ wait.timeout ≠ none
  not_terminated : ¬ w'.shared.inner.Terminated
  not_published : W.borrow w'.shared.service.shared.termination_tx = false

/-- A task that waits for its own service to terminate waits for ever, and so do several tasks that
do, in `run` or in the cleanup of a cancellation. Nothing that others do can end it: `shutdown`,
`stop`, idle workers and other tasks included. -/
theorem circular_wait {cfg : Config} {tr es : List (WorldEvent W J)} {w w' : World W J}
    (h : World.Run cfg tr w) (hp : Path (World.Step cfg) w es w') {S : Set ℕ}
    (hS : ∃ id ∈ S, id ∈ unfinished (inside tr)) (hwait : WaitForTermination S es) :
    Deadlocked S es w' := by
  obtain ⟨id, hid, hunfinished⟩ := hS
  induction hp generalizing tr with
  | nil w =>
    have ht := (World.Run.service h).not_terminated hunfinished
    refine ⟨by simp, by simp, by simp, ht, ?_⟩
    by_contra hv
    exact ht ((World.Run.service h).published.sound (by simpa using hv))
  | @cons w e w1 es w' hs hp ih =>
    have ht := (World.Run.service h).not_terminated hunfinished
    have hreport := World.Step.not_reports h hs ht
    -- nobody has been told anything, so no task of the set ends
    have hfinish : ∀ id ∈ S, ¬ e.Finishes id := by
      intro id hid he
      obtain ⟨a, ha, -⟩ := hwait [] e es rfl id hid he
      exact absurd ha List.not_mem_nil
    have hunfinished' : id ∈ unfinished (inside (e :: tr)) := by
      cases e with
      | service e' => exact mem_unfinished_cons hunfinished fun he => hfinish id hid ⟨e', rfl, he⟩
      | _ => exact hunfinished
    have hwait' : WaitForTermination S es := by
      rintro earlier e' later rfl id hid he
      obtain ⟨a, ha, hreports⟩ := hwait (e :: earlier) e' later rfl id hid he
      rcases List.mem_cons.1 ha with rfl | ha
      · exact absurd hreports hreport
      · exact ⟨a, ha, hreports⟩
    obtain ⟨h1, h2, h3, h4, h5⟩ := ih (h.step hs) hwait' hunfinished'
    refine ⟨List.forall_mem_cons.2 ⟨hfinish, h1⟩, List.forall_mem_cons.2 ⟨hreport, h2⟩, ?_, h4, h5⟩
    intro wait answer hm
    rcases List.mem_cons.1 hm with rfl | hm
    · cases answer with
      | true => exact absurd (.inl rfl) hreport
      | false =>
        obtain ⟨-, timeout, htimeout, -⟩ := Wait.returned_false (World.Step.waited hs).2
        exact ⟨rfl, by simp [htimeout]⟩
    · exact h3 wait answer hm

/-- The task of the first run waits for its service, and parks for ever. -/
theorem circular_wait_tiny : Deadlocked {0} [.wait none, .park ⟨none, 0⟩ none]
    (⟨⟨⟨tinyTaken, {⟨.none, .claimed 0 7⟩, ⟨.none, .dispatching 0 (.submitted 0)⟩}⟩, 0, 3⟩,
      {.parked ⟨none, 0⟩ 0 none}⟩ : World Watch.versioned ℕ) := by
  refine circular_wait (Service.Run.world tinyTaken_run)
    (.cons (.first (.wait (by simp))) (.cons (.act (.of_eq (.park rfl) rfl rfl)) (.nil _)))
    ⟨0, rfl, by decide⟩ ?_
  intro earlier e later hes id _ he
  have hmem : e ∈ [.wait none, .park ⟨none, 0⟩ none] := by simp [hes]
  obtain ⟨e', rfl, -⟩ := he
  simp at hmem

/-! ## Waiting for the pool -/

/-- The number of tasks that are queued before a task. -/
def RayonExecutorServiceInner.ahead (inner : RayonExecutorServiceInner J) (id : ℕ) : ℕ :=
  (inner.queue.keys.filter (· < id)).card

/-- Nobody finishes a run. -/
def Unfinishing (es : List (Event W J)) : Prop := tally Event.finishesRun es = 0

section
variable {cfg : Config} {tr es : List (Event W J)} {s s' : Service W J}

/-- As long as no task is finished, every task that is taken occupies one more thread. -/
theorem Service.Run.active_eq (h : Service.Run cfg tr s)
    (h' : Service.Run cfg (es.reverse ++ tr) s') (hes : Unfinishing es) :
    active s'.threads = active s.threads + (tally Event.takes es).card := by
  have hfinishes : tally Event.finishesRun es = 0 := hes
  have htakes := congrArg Multiset.card h.takes_eq
  have htakes' := congrArg Multiset.card h'.takes_eq
  simp only [tally_append, tally_reverse, Multiset.map_add, Multiset.card_add, Multiset.card_map,
    hfinishes, Multiset.card_zero, h.ledger.workers_eq, h'.ledger.workers_eq] at htakes htakes'
  unfold active
  omega

/-- The tasks of the queue that a continuation of internal steps has removed are those that it has
taken. -/
theorem Service.Run.keys_eq (h : Service.Run cfg tr s) (hp : Service.Internal s es s') :
    s.shared.inner.queue.keys = s'.shared.inner.queue.keys + taken es := by
  have hsince := Service.Run.keys_since (h.append (hp.mono .act)) h
  rwa [accepted, taken, tally_reverse, tally_reverse, tally_reverse, hp.accepts_claims.1,
    hp.accepts_claims.2, Multiset.map_zero, zero_add, add_zero, ← taken] at hsince

/-- A continuation that takes a task has taken everything that was queued before it. -/
theorem Service.Run.ahead_lt (h : Service.Run cfg tr s) (hp : Service.Internal s es s') {id : ℕ}
    (hid : id ∈ taken es) :
    s.shared.inner.ahead id < (tally Event.takes es).card := by
  have h' : Service.Run cfg (es.reverse ++ tr) s' := h.append (hp.mono .act)
  have hmem : id ∈ taken (es.reverse ++ tr) := by
    rw [taken_append, taken, tally_reverse]
    exact Multiset.mem_add.2 (.inl hid)
  -- what is left in the queue comes after the task
  have hleft : (s'.shared.inner.queue.keys.filter (· < id)) = 0 :=
    Multiset.filter_eq_nil.2 fun k hk => (h'.ordered.queued hmem hk).asymm
  have hlt : ((taken es).filter (· < id)).card < (taken es).card := by
    refine Multiset.card_lt_card (lt_of_le_of_ne (Multiset.filter_le _ _) fun heq => ?_)
    exact lt_irrefl id (Multiset.filter_eq_self.1 heq id hid)
  rw [RayonExecutorServiceInner.ahead, h.keys_eq hp, Multiset.filter_add, hleft, zero_add]
  rwa [taken, Multiset.card_map] at hlt

/-- To take a task, with publications and closures before, finishes nothing. -/
theorem unfinishing_takeNext {es : List (Event W J)} (hes : ∀ e ∈ es, e.Unseen) (id : ℕ)
    (job : J) : Unfinishing (es ++ [.takeNext (some (id, job))]) ∧
      taken (es ++ [.takeNext (some (id, job))]) = {id} := by
  have hnone : ∀ e ∈ es, e.finishesRun = 0 ∧ e.takes = 0 := by
    intro e he
    have hunseen := hes e he
    cases e <;> first | exact hunseen.elim | exact ⟨rfl, rfl⟩
  constructor
  · rw [Unfinishing, tally_append, tally_eq_zero fun e he => (hnone e he).1]
    simp
  · rw [taken, tally_append, tally_eq_zero fun e he => (hnone e he).2]
    simp

/-- A task is taken, with everything queued before it, if there are enough free threads. -/
theorem Service.Run.exists_path_taken (h : Service.Run cfg tr s) {id : ℕ}
    (hq : id ∈ s.shared.inner.queue.keys)
    (hfree : active s.threads + s.shared.inner.ahead id < cfg.num_threads) :
    ∃ es s', Service.Internal s es s' ∧ Unfinishing es ∧ id ∈ taken es := by
  induction hk : s.shared.inner.ahead id using Nat.strong_induction_on generalizing tr s with
  | _ k ih =>
    subst hk
    cases hp : s.shared.inner.queue.popFirst with
    | none =>
      rw [OrderedMap.keys_eq_zero_of_length (OrderedMap.popFirst_eq_none.1 hp)] at hq
      exact absurd hq (Multiset.notMem_zero id)
    | some e =>
      obtain ⟨⟨first, job⟩, queue⟩ := e
      have hlen := OrderedMap.length_of_popFirst hp
      have hkeys := OrderedMap.keys_of_popFirst hp
      -- work conservation: there is a closure for the first task
      have hn : promised s.threads ≠ 0 := by
        have hconserved := h.reservations.conserved
        rw [h.config.2] at hconserved
        omega
      obtain ⟨us, s', hpath, hus, hqueue⟩ := exists_path_takeNext hp hn
      obtain ⟨hes, htaken⟩ := unfinishing_takeNext hus first job
      generalize us ++ [.takeNext (some (first, job))] = es at hpath hes htaken
      have h' : Service.Run cfg (es.reverse ++ tr) s' := h.append (hpath.mono .act)
      rw [hkeys, Multiset.mem_cons] at hq
      rcases hq with rfl | hq
      · exact ⟨es, s', hpath, hes, by simp [htaken]⟩
      · -- one free thread less, and one task less to wait for
        have hactive := h.active_eq h' hes
        have hcard : (tally Event.takes es).card = 1 := by
          rw [← Multiset.card_map Prod.fst, ← taken, htaken, Multiset.card_singleton]
        have hlt : first < id := OrderedMap.lt_of_popFirst hp hq
        have hahead : s.shared.inner.ahead id = s'.shared.inner.ahead id + 1 := by
          rw [RayonExecutorServiceInner.ahead, RayonExecutorServiceInner.ahead, hkeys, hqueue,
            Multiset.filter_cons_of_pos (p := (· < id)) queue.keys hlt, Multiset.card_cons]
        obtain ⟨us, s'', hpath', hus, hid⟩ := ih _ (by omega) h' (hqueue ▸ hq) (by omega) rfl
        refine ⟨es ++ us, s'', hpath.append hpath', ?_, ?_⟩
        · rw [Unfinishing, tally_append, hes, hus, zero_add]
        · rw [taken, tally_append, Multiset.map_add]
          exact Multiset.mem_add.2 (.inr hid)

/-- Starvation of the pool in the state `s`. -/
structure Starvation (cfg : Config) (s : Service W J) : Prop where
  /-- When all workers are occupied and none of them finishes, no task is started, whatever happens
  otherwise. -/
  stalled : active s.threads = cfg.num_threads → ∀ es s', Path (Service.Step cfg) s es s' →
    Unfinishing es → taken es = 0
  /-- A queued task can be started without the end of another exactly if there are more free workers
  than tasks before it. -/
  starts_iff : ∀ id ∈ s.shared.inner.queue.keys,
    (∃ es s', Service.Internal s es s' ∧ Unfinishing es ∧ id ∈ taken es) ↔
      active s.threads + s.shared.inner.ahead id < cfg.num_threads

/-- In every reachable state, who waits for a task of the same pool from within it may do so while
`starts_iff` says that the task can be started, and deadlocks otherwise unless another task
finishes. -/
theorem starvation_iff (h : Service.Run cfg tr s) : Starvation cfg s where
  stalled := by
    intro hfull es s' hp hes
    have h' : Service.Run cfg (es.reverse ++ tr) s' := h.append hp
    have hactive := h.active_eq h' hes
    have hreserved := h'.reservations
    have hexact := hreserved.exact
    have hbounded := hreserved.bounded
    rw [h'.config.2] at hbounded
    rw [← Multiset.card_eq_zero, taken, Multiset.card_map]
    omega
  starts_iff := by
    intro id hq
    constructor
    · rintro ⟨es, s', hp, hes, hid⟩
      have h' : Service.Run cfg (es.reverse ++ tr) s' := h.append (hp.mono .act)
      have hactive := h.active_eq h' hes
      have hahead := h.ahead_lt hp hid
      have hreserved := h'.reservations
      have hexact := hreserved.exact
      have hbounded := hreserved.bounded
      rw [h'.config.2] at hbounded
      omega
    · exact h.exists_path_taken hq

/-- A job is queued, and the only worker is occupied. -/
theorem starvation_iff_tiny : Starvation tinyConfig
    ⟨tinyJoined.takeNext.state, {⟨.none, .claimed 0 7⟩, ⟨.none, .dispatching 0 (.submitted 1)⟩,
      ⟨.none, .dispatching 0 (.submitted 0)⟩}⟩ :=
  starvation_iff tinyJoined_run

end

end RayonExecutor
