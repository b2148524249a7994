import RayonExecutor.Refinement
import RayonExecutor.Drain

/-!
# The code comes to its end

What the threads of the code wait for. The lock is held only by a thread that can go on, so nobody
waits for it but for a while, and whoever cannot go on is over or in user code (`code_progress`).
Each effect leaves less to do, in the service or in its own thread (`Descends`), so the threads that
are there come to an end once nothing else starts, and at the end the service is drained
(`code_drains`).
-/

namespace RayonExecutor

open Program hiding ret
open Transition Pool Code

variable {W : Watch} {C : Client}

/-! ## Progress -/

/-- The next effect of a thread is a piece of user code. -/
def InUser (m : Code W C Unit) : Prop := ∃ u k, m = .effect (.user u) k

/-- What the threads of the code do. -/
abbrev CodeAct (cfg : Config) : Code W C Unit → SharedState W C → CodeEvent W C →
    SharedState W C → Multiset (Code W C Unit) → Prop :=
  Performs (Operation.program cfg.bits) Answers

/-- No thread can go on. -/
def CodeStuck (cfg : Config) (p : Pool (SharedState W C) (Code W C Unit)) : Prop :=
  ∀ l q, ¬ Pool.Act (CodeAct cfg) p l q

/-- The effects on the channels, on Rayon and on the executor interface do not block. -/
theorem exists_answer (o : Op W C) (x : SharedState W C) :
    ∃ r y as, Answers (.other o) x r y as := by
  cases o with
  | notifyAll => exact ⟨_, _, _, .notifyAll⟩
  | sendCapacity => exact ⟨_, _, _, .sendCapacity []⟩
  | sendTermination => exact ⟨_, _, _, .sendTermination []⟩
  | subscribeCapacity => exact ⟨_, _, _, .subscribeCapacity⟩
  | subscribeTermination => exact ⟨_, _, _, .subscribeTermination⟩
  | spawn => exact ⟨_, _, _, .spawn⟩
  | accept => exact ⟨_, _, _, .accept (.ok ())⟩
  | run => exact ⟨_, _, _, .run⟩
  | cancel => exact ⟨_, _, _, .cancel⟩
  | status => exact ⟨_, _, _, .status .pending⟩
  | fallback => exact ⟨_, _, _, .fallback .cancelled⟩
  | returned => exact ⟨_, _, _, .returned⟩

section
variable {cfg : Config} {n : ℕ} {x : SharedState W C} {m : Code W C Unit}
  {ms : Multiset (Code W C Unit)} {tr : List (CodeEvent W C)} {us : List (Event W C.Job)}
  {s : Service W C.Job} {p : Pool (SharedState W C) (Code W C Unit)}

/-- A thread can go on without user code. -/
def CanAct (cfg : Config) (x : SharedState W C) (m : Code W C Unit) : Prop :=
  ¬ InUser m ∧ ∃ l y new, CodeAct cfg m x l y new

/-- A thread can act if its next effect is none of user code and is answered. -/
theorem CanAct.effect {e : Effect W C}
    {k : Guarded.Answer UserCode.Answer Op.Answer e → Code W C Unit}
    (he : e.isUser = false) (h : ∃ r y as, Answers e x r y as) : CanAct cfg x (.effect e k) := by
  obtain ⟨r, y, as, ha⟩ := h
  refine ⟨?_, _, _, _, .effect ha⟩
  rintro ⟨u, k', heq⟩
  cases heq
  exact Bool.false_ne_true he.symm

/-- The holder of the lock can act. -/
theorem Under.canAct {a : Share W C} {st0 st : RayonExecutorServiceState W C.Job}
    (h : Under cfg.bits a st0 m st) (x : SharedState W C) : CanAct cfg x m := by
  obtain ⟨α, body, f, rfl, hbody⟩ := h
  have hwithin := hbody st.termination_tx st.capacity_tx
  cases body with
  | ret | unwind => exact .effect rfl ⟨_, _, _, .unlock⟩
  | effect e k =>
    cases e with
    | get => exact .effect rfl ⟨_, _, _, .get⟩
    | set => exact .effect rfl ⟨_, _, _, .set⟩
    | other o => exact .effect rfl (exists_answer o x)
    | lock | unlock | user => exact absurd hwithin id

/-- While the lock is free, whoever is neither over nor in user code can. -/
theorem At.canAct {a : Share W C} (h : At cfg.bits m a) (hfree : x.locked = false)
    (hended : m ≠ .ret ()) (huser : ¬ InUser m) : CanAct cfg x m := by
  rcases h.next with ⟨u, k, rfl, -⟩ | hnext
  · exact absurd ⟨u, k, rfl⟩ huser
  · cases hnext with
    | ended => exact absurd rfl hended
    | enters => exact .effect rfl ⟨_, _, _, .lock hfree⟩
    | emits => exact .effect rfl (exists_answer _ x)

/-- If some thread is neither over nor in user code, then some such thread can go on. -/
theorem Simulates.canAct (h : Simulates cfg.bits x ms n s) (hm : m ∈ ms) (hended : m ≠ .ret ())
    (huser : ¬ InUser m) : ∃ t ∈ ms, CanAct cfg x t := by
  obtain ⟨inside, outside, a, shares, rfl, hholder, hout, -⟩ := h
  generalize s.shared = st at hholder
  cases hholder with
  | free hfree =>
    -- nobody has the lock
    rw [zero_add] at hm ⊢
    obtain ⟨b, -, hat⟩ := Multiset.exists_mem_of_rel_of_mem hout hm
    exact ⟨m, hm, hat.canAct hfree hended huser⟩
  | held hlocked hunder =>
    exact ⟨_, Multiset.mem_add.2 (.inl (Multiset.mem_singleton_self _)), hunder.canAct x⟩

/-- The crate never waits for user code with its lock, nor for itself: in every reachable state in
which some thread is neither over nor in user code, such a thread can go on. -/
theorem code_progress (h : CodeRun cfg tr p) (hspawned : Spawned tr)
    (hwork : ∃ t ∈ p.threads, t ≠ .ret () ∧ ¬ InUser t) :
    ∃ t ∈ p.threads, ¬ InUser t ∧ ∃ l y new, CodeAct cfg t p.shared l y new := by
  obtain ⟨us, n, s, -, -, hsim⟩ := h.simulates hspawned
  obtain ⟨t, ht, hended, huser⟩ := hwork
  exact hsim.canAct ht hended huser

/-- A submission that has started. -/
theorem tinyStarted_run : CodeRun (C := tinyClient) tinyConfig
    [(.start (.submit (7 : ℕ)), ⟨.new Watch.versioned ℕ 2 1, false⟩)]
    ⟨⟨.new Watch.versioned ℕ 2 1, false⟩, {Operation.program 64 (.submit (7 : ℕ))}⟩ :=
  .step .init (.first .start)

/-- A submission that has started can go on. -/
theorem code_progress_tiny : ∃ t ∈ ({Operation.program 64 (.submit (7 : ℕ))} :
    Multiset (Code Watch.versioned tinyClient Unit)), ¬ InUser t ∧ ∃ l y new,
      CodeAct tinyConfig t ⟨.new Watch.versioned ℕ 2 1, false⟩ l y new := by
  refine code_progress tinyStarted_run (by simp [Spawned])
    ⟨_, Multiset.mem_singleton_self _, ?_, ?_⟩
  · intro h
    cases h
  · rintro ⟨u, k, h⟩
    cases h

/-! ## Continuations -/

/-- The service follows a continuation. -/
theorem Simulates.path (h : Simulates cfg.bits p.shared p.threads n s) (hr : Service.Run cfg us s)
    {ls : List (CodeEvent W C)} {q : Pool (SharedState W C) (Code W C Unit)}
    (hp : Path (Pool.Act (CodeAct cfg)) p ls q) :
    ∃ vs n' s', Service.Run cfg (vs ++ us) s' ∧
      vs.filterMap Event.effect? = ls.reverse.filterMap CodeEvent.event? ∧
      Simulates cfg.bits q.shared q.threads n' s' := by
  induction hp generalizing us n s with
  | nil => exact ⟨[], n, s, hr, rfl, h⟩
  | @cons _ l _ ls _ ha _ ih =>
    obtain ⟨ha⟩ := ha
    obtain ⟨n', s', hs, hsim, -⟩ := h.follows hr ha
    rcases hs with ⟨rfl, hl⟩ | ⟨e, hs, he⟩
    · obtain ⟨vs, n'', s'', hr', hvs, hsim'⟩ := ih hsim hr
      refine ⟨vs, n'', s'', hr', ?_, hsim'⟩
      rw [hvs, List.reverse_cons, List.filterMap_append, List.filterMap_cons_none hl]
      simp
    · obtain ⟨vs, n'', s'', hr', hvs, hsim'⟩ := ih hsim (hr.step hs)
      refine ⟨vs ++ [e], n'', s'', ?_, ?_, hsim'⟩
      · rw [List.append_assoc]
        exact hr'
      · rw [List.filterMap_append, hvs, List.reverse_cons, List.filterMap_append,
          List.filterMap_cons, List.filterMap_cons, he]
        rfl

/-- The threads that are there come to an end. -/
theorem Simulates.halts (h : Simulates cfg.bits p.shared p.threads n s)
    (hr : Service.Run cfg us s) : Halts (Pool.Act (CodeAct cfg)) p := by
  have hless : WellFounded Less := wellFounded_lt.prod_lex wellFounded_lt
  refine Pool.halts hless wellFounded_rest (I := fun b p => ∃ us n s, Service.Run cfg us s ∧
    b = (n, s.fuel) ∧ Simulates cfg.bits p.shared p.threads n s) ?_ ⟨us, n, s, hr, rfl, h⟩
  rintro b x t ts l y new ⟨us, n, s, hr, rfl, hsim⟩ ha
  obtain ⟨n', s', hs, hsim', hdescends⟩ := hsim.follows hr ha
  obtain ⟨us', hr'⟩ : ∃ us', Service.Run cfg us' s' := by
    rcases hs with ⟨rfl, -⟩ | ⟨e, hs, -⟩
    · exact ⟨us, hr⟩
    · exact ⟨e :: us, hr.step hs⟩
  exact ⟨_, ⟨us', n', s', hr', rfl, hsim'⟩, hdescends⟩

/-! ## The end -/

/-- A thread of the service whose code is over has only to return. -/
theorem Thread.returned_of_rest {t : Thread W C.Job} (h : t.rest = .ret ())
    (st : RayonExecutorServiceState W C.Job) : ∃ ret, Action t st (.returned ret) st 0 := by
  obtain ⟨⟨_ | _, _ | _⟩, control⟩ := t
  · cases control with
    | dispatching count ret =>
      cases count with
      | zero => exact ⟨ret, .dispatched⟩
      | succ count => exact nomatch h
    | cleanup jobs ret =>
      rcases jobs with _ | ⟨⟨task_id, job⟩, jobs⟩
      · exact ⟨ret, .cleaned⟩
      · exact nomatch h
    | absent endpoint => cases endpoint <;> exact nomatch h
    | returning ret => exact ⟨ret, .returning⟩
    | _ => exact nomatch h
  all_goals exact nomatch h

/-- Threads whose code is over return one after another. -/
theorem exists_path_returned (st : RayonExecutorServiceState W C.Job)
    {ts : Multiset (Thread W C.Job)} (h : ∀ t ∈ ts, t.rest = .ret ()) :
    ∃ es, Service.Internal ⟨st, ts⟩ es ⟨st, 0⟩ ∧ ∀ e ∈ es, ∃ ret, e = .returned ret := by
  induction ts using Multiset.induction_on with
  | empty => exact ⟨[], .nil _, by simp⟩
  | cons t ts ih =>
    obtain ⟨es, hp, hes⟩ := ih fun u hu => h u (Multiset.mem_cons_of_mem hu)
    obtain ⟨ret, ha⟩ := Thread.returned_of_rest (h t (Multiset.mem_cons_self t ts)) st
    refine ⟨.returned ret :: es, .cons (.of_eq ha rfl (zero_add ts).symm) hp, ?_⟩
    simpa using hes

/-- A thread that is over stands for threads that have only to return. -/
theorem At.rest_of_over {bits : ℕ} {a : Share W C} (h : At bits (.ret ()) a) :
    ∀ t ∈ a.2, t.rest = .ret () := by
  generalize hm : (.ret () : Code W C Unit) = m at h
  cases h with
  | start | done => exact fun t ht => absurd ht (Multiset.notMem_zero t)
  | @thread _ t h =>
    subst hm
    intro u hu
    obtain rfl := Multiset.mem_singleton.1 hu
    generalize hrest : u.rest = m at h
    cases h with
    | refl => rfl

/-- At the end the lock is free, and whoever is not in user code is over. -/
theorem Simulates.ended (h : Simulates cfg.bits x ms n s) (hstuck : CodeStuck cfg ⟨x, ms⟩) :
    x.locked = false ∧ ∀ t ∈ ms, t = .ret () ∨ InUser t := by
  have hcannot : ∀ t ∈ ms, ¬ CanAct cfg x t := by
    rintro t ht ⟨-, l, y, new, ha⟩
    obtain ⟨ts, rfl⟩ := Multiset.exists_cons_of_mem ht
    exact hstuck _ _ (.act ha)
  constructor
  · obtain ⟨inside, outside, a, shares, rfl, hholder, -, -⟩ := h
    generalize s.shared = st at hholder
    cases hholder with
    | free hfree => exact hfree
    | held hlocked hunder =>
      refine absurd (hunder.canAct x) (hcannot _ ?_)
      exact Multiset.mem_add.2 (.inl (Multiset.mem_singleton_self _))
  · intro t ht
    by_contra hneither
    obtain ⟨hended, huser⟩ := not_or.1 hneither
    obtain ⟨u, hu, hcan⟩ := h.canAct ht hended huser
    exact hcannot u hu hcan

/-- When all threads are over, the service has only to return to its callers. -/
theorem Simulates.finished (h : Simulates cfg.bits x ms n s) (hr : Service.Run cfg us s)
    (hfree : x.locked = false) (hended : ∀ t ∈ ms, t = .ret ()) :
    ∃ es, Service.Run cfg (es ++ us) ⟨x.state, 0⟩ ∧ ∀ e ∈ es, ∃ ret, e = .returned ret := by
  obtain ⟨inside, outside, a, shares, rfl, hholder, hout, hs⟩ := h
  obtain ⟨st, threads⟩ := s
  cases hholder with
  | held hlocked => exact absurd (hfree.symm.trans hlocked) Bool.false_ne_true
  | free =>
    rw [zero_add] at hs hended
    have hthreads : threads = total Prod.snd shares := by
      rw [total, ← Multiset.snd_sum]
      exact congrArg Prod.snd hs
    have hreturn : ∀ t ∈ threads, t.rest = .ret () := by
      intro t ht
      rw [hthreads] at ht
      obtain ⟨b, hb, ht⟩ := exists_mem_of_mem_total ht
      obtain ⟨m, hm, hat⟩ := Multiset.exists_mem_of_rel_of_mem (Multiset.rel_flip.2 hout) hb
      obtain rfl := hended m hm
      exact At.rest_of_over hat t ht
    obtain ⟨es, hp, hes⟩ := exists_path_returned x.state hreturn
    exact ⟨es.reverse, hr.append (hp.mono .act), fun e he => hes e (List.mem_reverse.1 he)⟩

/-- A queued job has not been consumed. -/
theorem Service.Run.unconsumed_of_queued (hr : Service.Run cfg us s) {id : ℕ} {job : C.Job}
    (hq : (id, job) ∈ s.shared.inner.queue.toMultiset) :
    (id, job) ∉ tally Event.runs us + tally Event.cancels us := by
  intro hmem
  have hn := hr.ledger.nodup
  rw [accepted, hr.ledger.jobs, add_assoc, add_assoc, Multiset.map_add, Multiset.nodup_add] at hn
  refine Multiset.disjoint_left.1 hn.2.2 (Multiset.mem_map_of_mem Prod.fst hq) ?_
  rw [Multiset.map_add]
  exact Multiset.mem_add.2 (.inr (Multiset.mem_map_of_mem Prod.fst hmem))

/-- At the end of a continuation every job is consumed that was queued at its start. -/
theorem Service.Run.consumed_of_queued {vs : List (Event W C.Job)}
    (hr : Service.Run cfg us s) {st : RayonExecutorServiceState W C.Job}
    (hr' : Service.Run cfg (vs ++ us) ⟨st, 0⟩) (hn : 1 ≤ cfg.num_threads) {id : ℕ} {job : C.Job}
    (hq : (id, job) ∈ s.shared.inner.queue.toMultiset) :
    (id, job) ∈ tally Event.runs vs + tally Event.cancels vs := by
  have haccepted : (id, job) ∈ tally Event.accepts (vs ++ us) := by
    rw [tally_append, hr.ledger.jobs, add_assoc, add_assoc]
    exact Multiset.mem_add.2 (.inr (Multiset.mem_add.2 (.inl hq)))
  have hq0 : st.inner.queue.toMultiset = 0 := Multiset.card_eq_zero.1 (hr'.drained hn rfl).queue
  rw [hr'.ledger.jobs, hq0, held, across_zero, zero_add, zero_add, tally_append, tally_append,
    add_add_add_comm] at haccepted
  exact (Multiset.mem_add.1 haccepted).resolve_right (hr.unconsumed_of_queued hq)

/-- How the code comes to its end, from the pool `p`, when no operation starts any more. -/
structure CodeDrains (cfg : Config) (p : Pool (SharedState W C) (Code W C Unit)) : Prop where
  /-- Nothing goes on for ever, and an end can be reached. -/
  finite : ¬ ∃ f : ℕ → Pool (SharedState W C) (Code W C Unit), f 0 = p ∧
    ∀ i, ∃ l, Pool.Act (CodeAct cfg) (f i) l (f (i + 1))
  complete : ∃ ls q, Path (Pool.Act (CodeAct cfg)) p ls q ∧ CodeStuck cfg q
  /-- At the end the lock is free, and whoever is left is in user code that does not answer. -/
  ended : ∀ ls q, Path (Pool.Act (CodeAct cfg)) p ls q → CodeStuck cfg q →
    q.shared.locked = false ∧ ∀ t ∈ q.threads, t = .ret () ∨ InUser t
  /-- If nobody is left, the service has drained, and its termination is published. -/
  drained : ∀ ls q, Path (Pool.Act (CodeAct cfg)) p ls q → CodeStuck cfg q →
    (∀ t ∈ q.threads, ¬ InUser t) → Drained q.shared.state.inner ∧
      (q.shared.state.inner.lifecycle ≠ .running →
        W.borrow q.shared.state.termination_tx = true)
  /-- Every job that was queued has been handed to `run` or to `cancel` meanwhile. -/
  consumed : p.shared.locked = false → ∀ ls q, Path (Pool.Act (CodeAct cfg)) p ls q →
    CodeStuck cfg q → (∀ t ∈ q.threads, ¬ InUser t) →
    ∀ e ∈ p.shared.state.inner.queue.toMultiset, e ∈ tally CodeEvent.consumes ls

/-- From every reachable state the code comes to its end, whatever the user code does. -/
theorem code_drains (h : CodeRun cfg tr p) (hspawned : Spawned tr) (hn : 1 ≤ cfg.num_threads) :
    CodeDrains cfg p := by
  obtain ⟨us, n, s, hr, heffects, hsim⟩ := h.simulates hspawned
  have hrefined : Refined cfg tr p us s := Simulates.refined hsim hr heffects
  have hhalts := hsim.halts hr
  have hended : ∀ ls q, Path (Pool.Act (CodeAct cfg)) p ls q → CodeStuck cfg q →
      q.shared.locked = false ∧ ∀ t ∈ q.threads, t = .ret () ∨ InUser t := by
    intro ls q hp hstuck
    obtain ⟨vs, n', s', hr', -, hsim'⟩ := hsim.path hr hp
    exact hsim'.ended hstuck
  -- where nobody is left, the service has only to return
  have hfinished : ∀ ls q, Path (Pool.Act (CodeAct cfg)) p ls q → CodeStuck cfg q →
      (∀ t ∈ q.threads, ¬ InUser t) → ∃ vs es,
        Service.Run cfg (es ++ vs ++ us) ⟨q.shared.state, 0⟩ ∧
        (∀ e ∈ es, ∃ ret, e = .returned ret) ∧
        vs.filterMap Event.effect? = ls.reverse.filterMap CodeEvent.event? := by
    intro ls q hp hstuck huser
    obtain ⟨vs, n', s', hr', hvs, hsim'⟩ := hsim.path hr hp
    obtain ⟨hfree, hthreads⟩ := hsim'.ended hstuck
    obtain ⟨es, hfinal, hes⟩ := hsim'.finished hr' hfree
      fun t ht => (hthreads t ht).resolve_right (huser t ht)
    exact ⟨vs, es, by rwa [List.append_assoc], hes, hvs⟩
  exact
    { finite := hhalts.not_infinite
      complete := hhalts.exists_path
      ended := hended
      drained := by
        intro ls q hp hstuck huser
        obtain ⟨vs, es, hfinal, -, -⟩ := hfinished ls q hp hstuck huser
        have hdrained := hfinal.drained hn rfl
        refine ⟨hdrained, fun hlife => ?_⟩
        exact (hfinal.published.owed (hdrained.terminated hlife)).resolve_right (by simp)
      consumed := by
        rintro hfree ls q hp hstuck huser ⟨id, job⟩ hq
        obtain ⟨vs, es, hfinal, hes, hvs⟩ := hfinished ls q hp hstuck huser
        rw [← hrefined.state hfree] at hq
        have hmem := hr.consumed_of_queued hfinal hn hq
        -- to return is to consume nothing
        have hnone : tally Event.runs es = 0 ∧ tally Event.cancels es = 0 := by
          constructor <;> refine tally_eq_zero fun e he => ?_ <;>
            obtain ⟨ret, rfl⟩ := hes e he <;> rfl
        rw [tally_append, tally_append, hnone.1, hnone.2, zero_add, zero_add,
          ← tally_consumes hvs, tally_reverse] at hmem
        exact hmem }

/-- After a job that unwinds the worker comes to its end, and a successor with the queued job. -/
theorem code_drains_tiny : CodeDrains tinyConfig
    (⟨⟨tinyQueued, false⟩, {.ret (), tinyWorker, .ret ()}⟩ :
      Pool (SharedState Watch.versioned tinyClient) _) :=
  code_drains tinyPanicked_run tinyPanicked_spawned (by decide)

end

end RayonExecutor
