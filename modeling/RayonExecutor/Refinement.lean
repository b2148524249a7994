import RayonExecutor.Points
import RayonExecutor.Drain
import RayonExecutor.Admission
import RayonExecutor.Progress
import RayonExecutor.Lib.Halting

/-!
# The code refines the service

A run of the service (`Service.Run`) has each critical section as one step, no user code, and a
thread for what is left of an operation. A run of the code (`CodeRun`) interleaves the threads
effect by effect. This module shows that the second is a case of the first. The section of a thread
becomes a step of the service when it gives the lock back: nobody else has seen the data meanwhile,
and the channels may be published to by others all the time.

What is known of the service then holds of the code, for any user code, and whichever pieces of it
unwind. The service also measures how much is left to do, so the code comes to an end.
-/

namespace RayonExecutor

open Program hiding ret
open Transition Pool Code

variable {W : Watch} {C : Client}

/-! ## The simulation -/

/-- A thread under the lock that stands for `a`. It took the lock in the state `st0`, and has made
`st` of it. What others publish meanwhile does not matter to it. -/
def Under (bits : ℕ) (a : Share W C) (st0 : RayonExecutorServiceState W C.Job)
    (m : Code W C Unit) (st : RayonExecutorServiceState W C.Job) : Prop :=
  ∃ (α : Type) (body : Code W C α) (f : Except C.Payload α → Code W C Unit),
    (m = body.catchUnwind >>= fun o => release >>= fun _ => f o) ∧
    ∀ termination_tx capacity_tx,
      Within body { st with termination_tx := termination_tx, capacity_tx := capacity_tx }
        fun o st' => Commits bits a
          { st0 with termination_tx := termination_tx, capacity_tx := capacity_tx } (f o) st'

/-- Who has the lock, with what it stands for and the state of the service: that in which the lock
was taken, with the channels as they are now. -/
inductive Holder (bits : ℕ) (x : SharedState W C) : Multiset (Code W C Unit) → Share W C →
    RayonExecutorServiceState W C.Job → Prop
  | free (h : x.locked = false) : Holder bits x 0 0 x.state
  | held {m : Code W C Unit} {a : Share W C} {inner : RayonExecutorServiceInner C.Job}
      {terminated : Condvar} (h : x.locked = true)
      (hm : Under bits a { x.state with inner := inner, terminated := terminated } m x.state) :
      Holder bits x {m} a { x.state with inner := inner, terminated := terminated }

/-- The pool of the code is where the service is, with `n` operations that are about to begin. -/
def Simulates (bits : ℕ) (x : SharedState W C) (ms : Multiset (Code W C Unit)) (n : ℕ)
    (s : Service W C.Job) : Prop :=
  ∃ inside outside a shares, ms = inside + outside ∧ Holder bits x inside a s.shared ∧
    Multiset.Rel (At bits) outside shares ∧ (n, s.threads) = a + shares.sum

/-- What happens in the code, as an event of the service. -/
def CodeEvent.event? : CodeEvent W C → Option (Event W C.Job)
  | (.start _, _) => none
  | (.performed e r, _) => Effect.event? e r

/-- The operations that are about to begin become fewer, or the service has less left to do. -/
abbrev Less : ℕ × ℕ → ℕ × ℕ → Prop := Prod.Lex (· < ·) (· < ·)

/-- The service goes down, or it stays where it is while the thread goes on. -/
def Descends (q p : ℕ × ℕ) (t : Code W C Unit) (new : Multiset (Code W C Unit)) : Prop :=
  Less q p ∨ q = p ∧ ∃ t', Rest t' t ∧ new = {t'}

/-- The service follows what a thread does: with a step, or it stays where it is. -/
def Follows (cfg : Config) (n : ℕ) (s : Service W C.Job) (t : Code W C Unit) (l : CodeEvent W C)
    (y : SharedState W C) (new ms : Multiset (Code W C Unit)) : Prop :=
  ∃ n' s', (s' = s ∧ l.event? = none ∨ ∃ e, Service.Step cfg s e s' ∧ e.effect? = l.event?) ∧
    Simulates cfg.bits y (new + ms) n' s' ∧ Descends (n', s'.fuel) (n, s.fuel) t new

/-- A move of the service goes down. -/
theorem Moves.less {cfg : Config} {a : Share W C} {new : Multiset (Thread W C.Job)}
    {st st' : RayonExecutorServiceState W C.Job} {e : Event W C.Job}
    (h : Moves cfg.bits a st e st' new) (b : Share W C) :
    Less (b.1, Service.fuel ⟨st', new + b.2⟩) (a.1 + b.1, Service.fuel ⟨st, a.2 + b.2⟩) := by
  cases h with
  | call => exact .left _ _ (by omega)
  | act ha =>
    rw [zero_add]
    exact .right _ (Service.fuel_lt (.of_eq ha (Multiset.singleton_add _ _) rfl))

/-- The data of a reachable service are fresh. -/
theorem Service.Run.inner_fresh {cfg : Config} {tr : List (Event W C.Job)} {s : Service W C.Job}
    (h : Service.Run cfg tr s) : s.shared.inner.Fresh := by
  intro id hid
  refine h.ledger.fresh id ?_
  rw [h.ledger.ids]
  simp only [Multiset.mem_add]
  exact .inl (.inl (.inl (.inl hid)))

section
variable {bits n : ℕ} {x y : SharedState W C} {inside outside new : Multiset (Code W C Unit)}
  {a : Share W C} {st : RayonExecutorServiceState W C.Job} {cfg : Config}
  {tr : List (Event W C.Job)} {s : Service W C.Job} {shares : Multiset (Share W C)}
  {t : Code W C Unit} {l : CodeEvent W C}

/-- The holder of the lock changes nothing but the data and the condition variable. -/
theorem Holder.shared_eq (h : Holder bits x inside a st) :
    st = { x.state with inner := st.inner, terminated := st.terminated } := by
  cases h <;> rfl

/-- Whoever has the lock keeps it while others publish. -/
theorem Holder.frame (h : Holder bits x inside a st) (hlocked : y.locked = x.locked)
    (hinner : y.state.inner = x.state.inner)
    (hterminated : y.state.terminated = x.state.terminated) : Holder bits y inside a
      { y.state with inner := st.inner, terminated := st.terminated } := by
  cases h with
  | free h =>
    rw [← hinner, ← hterminated]
    exact .free (hlocked.trans h)
  | held h hm =>
    refine .held (hlocked.trans h) ?_
    obtain ⟨α, body, f, hbody, hwithin⟩ := hm
    refine ⟨α, body, f, hbody, fun termination_tx capacity_tx => ?_⟩
    rw [hinner, hterminated]
    exact hwithin termination_tx capacity_tx

/-- The simulation goes on when an operation starts. -/
theorem Simulates.start (h : Simulates bits x outside n s) {op : Operation C}
    (hop : op ≠ .runOne) : Simulates bits x ({op.program bits} + outside) (n + 1) s := by
  obtain ⟨inside, outside, a, shares, rfl, hh, hout, hs⟩ := h
  refine ⟨inside, op.program bits ::ₘ outside, a, (1, 0) ::ₘ shares, ?_, hh,
    .cons (.start hop) hout, ?_⟩
  · rw [Multiset.singleton_add, Multiset.add_cons]
  · rw [Multiset.sum_cons, add_left_comm, ← hs, Prod.mk_add_mk, zero_add, add_comm]

/-- The service follows a thread that is not under the lock. -/
theorem Follows.of_outside (hr : Service.Run cfg tr s) (hh : Holder cfg.bits x inside a s.shared)
    (hcons : Multiset.Rel (At cfg.bits) (t ::ₘ outside) shares)
    (hs : (n, s.threads) = a + shares.sum)
    (ha : Performs (Operation.program cfg.bits) Answers t x l y new) :
    Follows cfg n s t l y new (inside + outside) := by
  obtain ⟨b, shares, hat, hout, rfl⟩ := Multiset.rel_cons_left.1 hcons
  rw [Multiset.sum_cons] at hs
  obtain ⟨st, threads⟩ := s
  cases ha with
  | @effect e k _ _ r as ha =>
    rcases hat.next with ⟨u, k', heq, hk⟩ | hnext
    · -- user code
      cases heq
      cases ha with
      | user r =>
        refine ⟨n, _, .inl ⟨rfl, rfl⟩, ⟨inside, k' r ::ₘ outside, a, b ::ₘ shares, ?_, hh,
          .cons (hk r) hout, ?_⟩, .inr ⟨rfl, _, .effect _ _ r, rfl⟩⟩
        · rw [Multiset.map_zero, Multiset.cons_add, zero_add, Multiset.add_cons]
        · rw [Multiset.sum_cons, hs]
    · generalize hm : Program.effect e k = m at hnext
      cases hnext with
      | ended => cases hm
      | @enters α body f hbody =>
        -- it takes the lock
        cases hm
        cases ha with
        | lock hfree =>
          cases hh with
          | held hlocked => exact absurd (hfree.symm.trans hlocked) Bool.false_ne_true
          | free =>
            refine ⟨n, _, .inl ⟨rfl, rfl⟩, ⟨_, outside, b, shares, ?_,
              .held rfl ⟨α, body, f, rfl, ?_⟩, hout, ?_⟩, .inr ⟨rfl, _, .effect _ _ (), rfl⟩⟩
            · rw [Multiset.map_zero, zero_add]
              rfl
            · exact fun _ _ => hbody _ hr.inner_fresh
            · rw [hs, zero_add]
      | @emits o k hstep =>
        cases hm
        obtain ⟨e, vs, closures, hdoes, hat', hnone, hclosures, hevent⟩ := hstep x r y as ha
        have hmoves := hdoes.moves st.inner st.terminated
        rw [← hh.shared_eq] at hmoves
        obtain ⟨rfl, rfl⟩ : n = b.1 + (a + shares.sum).1 ∧ threads = b.2 + (a + shares.sum).2 := by
          rw [add_left_comm] at hs
          exact Prod.mk.inj hs
        refine ⟨_, _, .inr ⟨e, hmoves.step _, hevent.symm⟩, ⟨inside,
          k r ::ₘ (as.map (Operation.program cfg.bits) + outside), a,
          (0, vs) ::ₘ (closures + shares), ?_, hh.frame hdoes.locked hdoes.inner hdoes.terminated,
          .cons hat' (hclosures.add hout), ?_⟩, .inl (hmoves.less _)⟩
        · rw [Multiset.cons_add, Multiset.add_cons, add_left_comm]
        · rw [Multiset.sum_cons, Multiset.sum_add]
          refine Prod.ext ?_ ?_
          · simp only [Prod.fst_add, hnone, zero_add]
          · simp only [Prod.snd_add]
            abel

/-- The service follows a thread that gives the lock back. -/
theorem Follows.release {m : Code W C Unit} {inner : RayonExecutorServiceInner C.Job}
    {terminated : Condvar} (hcommits : Commits cfg.bits a
      { x.state with inner := inner, terminated := terminated } m x.state)
    (hout : Multiset.Rel (At cfg.bits) outside shares)
    (ha : Performs (Operation.program cfg.bits) Answers (.effect .unlock fun _ => m) x l y new) :
    Follows cfg (a + shares.sum).1
      ⟨{ x.state with inner := inner, terminated := terminated }, (a + shares.sum).2⟩
      (.effect .unlock fun _ => m) l y new outside := by
  cases ha with
  | effect ha =>
    cases ha with
    | unlock =>
      have hnew : ({m} + outside : Multiset (Code W C Unit)) = 0 + m ::ₘ outside := by
        rw [Multiset.singleton_add, zero_add]
      rcases hcommits with ⟨heq, rfl, hat⟩ | ⟨e, us, he, hmoves, hat⟩
      · refine ⟨shares.sum.1, _, .inl ⟨rfl, rfl⟩, ⟨0, m ::ₘ outside, 0, (0, 0) ::ₘ shares, hnew, ?_,
          .cons hat hout, ?_⟩, .inl (.left _ _ ?_)⟩
        · rw [← heq]
          exact .free rfl
        · rw [Multiset.sum_cons, zero_add]
          simp
        · simp
      · refine ⟨shares.sum.1, _, .inr ⟨e, hmoves.step shares.sum.2, he⟩, ⟨0, m ::ₘ outside, 0,
          (0, us) ::ₘ shares, hnew, .free rfl, .cons hat hout, ?_⟩, .inl (hmoves.less shares.sum)⟩
        rw [Multiset.sum_cons, zero_add]
        simp [Prod.ext_iff]

/-- The service follows the thread under the lock. -/
theorem Follows.of_inside (hh : Holder cfg.bits x {t} a s.shared)
    (hout : Multiset.Rel (At cfg.bits) outside shares) (hs : (n, s.threads) = a + shares.sum)
    (ha : Performs (Operation.program cfg.bits) Answers t x l y new) :
    Follows cfg n s t l y new outside := by
  obtain ⟨st, threads⟩ := s
  obtain ⟨rfl, rfl⟩ : n = (a + shares.sum).1 ∧ threads = (a + shares.sum).2 := Prod.mk.inj hs
  generalize hm : ({t} : Multiset (Code W C Unit)) = inside at hh
  cases hh with
  | free => exact absurd hm (Multiset.singleton_ne_zero _)
  | @held m' _ inner terminated hlocked hunder =>
    obtain rfl := Multiset.singleton_inj.1 hm
    obtain ⟨α, body, f, rfl, hbody⟩ := hunder
    cases body with
    | ret v => exact .release (hbody _ _) hout ha
    | unwind payload => exact .release (hbody _ _) hout ha
    | effect e k =>
      cases ha with
      | effect ha =>
        cases ha with
        | get | set | notifyAll =>
          refine ⟨_, _, .inl ⟨rfl, rfl⟩, ⟨_, outside, a, shares, rfl, .held hlocked ?_, hout, rfl⟩,
            .inr ⟨rfl, _, .effect _ _ _, rfl⟩⟩
          exact ⟨α, k _, f, rfl, fun termination_tx capacity_tx => hbody termination_tx capacity_tx⟩
        | accept r =>
          refine ⟨_, _, .inl ⟨rfl, rfl⟩, ⟨_, outside, a, shares, rfl, .held hlocked ?_, hout, rfl⟩,
            .inr ⟨rfl, _, .effect _ _ _, rfl⟩⟩
          exact ⟨α, k r, f, rfl,
            fun termination_tx capacity_tx => hbody termination_tx capacity_tx r⟩
        | subscribeCapacity =>
          -- the receiver is returned after the section, and is as it is now
          refine ⟨_, _, .inr ⟨.capacityChanges (W.subscribe x.state.capacity_tx),
            .quick .capacityChanges, rfl⟩,
            ⟨_, outside, a, shares, rfl, .held hlocked ?_, hout, rfl⟩,
            .inr ⟨rfl, _, .effect _ _ _, rfl⟩⟩
          exact ⟨α, k _, f, rfl,
            fun termination_tx capacity_tx => hbody termination_tx capacity_tx _⟩
        | _ => exact absurd (hbody x.state.termination_tx x.state.capacity_tx) id

/-- The service follows any thread. -/
theorem Simulates.follows (hr : Service.Run cfg tr s) {ms : Multiset (Code W C Unit)}
    (h : Simulates cfg.bits x (t ::ₘ ms) n s)
    (ha : Performs (Operation.program cfg.bits) Answers t x l y new) :
    Follows cfg n s t l y new ms := by
  obtain ⟨inside, outside, a, shares, hms, hh, hout, hs⟩ := h
  -- the thread is the holder of the lock, or one of the others
  have hcases : inside = {t} ∧ ms = outside ∨
      ∃ rest, outside = t ::ₘ rest ∧ ms = inside + rest := by
    generalize hst : s.shared = st at hh
    cases hh with
    | free => exact .inr ⟨ms, by rw [← zero_add outside, ← hms], (zero_add ms).symm⟩
    | held =>
      rw [Multiset.singleton_add] at hms
      rcases Multiset.cons_eq_cons.1 hms with ⟨rfl, rfl⟩ | ⟨-, rest, rfl, rfl⟩
      · exact .inl ⟨rfl, rfl⟩
      · exact .inr ⟨rest, rfl, (Multiset.singleton_add _ _).symm⟩
  rcases hcases with ⟨rfl, rfl⟩ | ⟨rest, rfl, rfl⟩
  · exact .of_inside hh hout hs ha
  · exact .of_outside hr hh hout hs ha

end

/-- The history has no closure that nobody has spawned. -/
def Spawned (tr : List (CodeEvent W C)) : Prop := ∀ l ∈ tr, l.1 ≠ .start .runOne

/-- The service follows the whole run. -/
theorem CodeRun.simulates {cfg : Config} {tr : List (CodeEvent W C)}
    {p : Pool (SharedState W C) (Code W C Unit)} (h : CodeRun cfg tr p) (hspawned : Spawned tr) :
    ∃ us n s, Service.Run cfg us s ∧
      us.filterMap Event.effect? = tr.filterMap CodeEvent.event? ∧
      Simulates cfg.bits p.shared p.threads n s := by
  revert hspawned
  refine Pool.invariant (P := fun tr x ms => Spawned tr → ∃ us n s, Service.Run cfg us s ∧
    us.filterMap Event.effect? = tr.filterMap CodeEvent.event? ∧ Simulates cfg.bits x ms n s)
    ?_ ?_ ?_ h
  · intro _
    exact ⟨[], 0, Service.init cfg, .init, rfl, 0, 0, 0, 0, rfl, .free rfl, .zero, rfl⟩
  · rintro tr x ms e y new - ih ⟨⟩ hspawned
    obtain ⟨us, n, s, hr, hus, hsim⟩ := ih fun l hl => hspawned l (List.mem_cons_of_mem _ hl)
    refine ⟨us, _, s, hr, hus, hsim.start ?_⟩
    rintro rfl
    exact hspawned _ List.mem_cons_self rfl
  · rintro tr x t ms l y new - ih ha hspawned
    obtain ⟨us, n, s, hr, hus, hsim⟩ := ih fun l hl => hspawned l (List.mem_cons_of_mem _ hl)
    obtain ⟨n', s', ⟨rfl, hl⟩ | ⟨e, hs, he⟩, hsim, -⟩ := hsim.follows hr ha
    · exact ⟨us, n', _, hr, by rw [hus, List.filterMap_cons_none hl], hsim⟩
    · refine ⟨e :: us, n', s', hr.step hs, ?_, hsim⟩
      rw [List.filterMap_cons, List.filterMap_cons, hus, he]

/-- The run `us` of the service to `s` is the run of the code. -/
structure Refined (cfg : Config) (tr : List (CodeEvent W C))
    (p : Pool (SharedState W C) (Code W C Unit)) (us : List (Event W C.Job)) (s : Service W C.Job) :
    Prop where
  run : Service.Run cfg us s
  /-- Both have the same effects in the same order: the spawned closures, the jobs that are run and
  cancelled, the publications, the subscriptions, what the executor interface answers for a task
  that is absent, and the returns of submissions that are accepted, of `run_one`, of `shutdown`,
  `stop` and `subscribe_termination`. The result of a cancel call, the answer of a query and the
  rejection of a submission are not compared. -/
  effects : us.filterMap Event.effect? = tr.filterMap CodeEvent.event?
  /-- Whenever the lock is free the state is that of the service. -/
  state : p.shared.locked = false → s.shared = p.shared.state
  /-- The channels are always those of the service. -/
  termination_tx : s.shared.termination_tx = p.shared.state.termination_tx
  capacity_tx : s.shared.capacity_tx = p.shared.state.capacity_tx

/-- The service has the state of the code whenever the lock is free, and its channels always. -/
theorem Simulates.refined {cfg : Config} {tr : List (CodeEvent W C)} {us : List (Event W C.Job)}
    {s : Service W C.Job} {p : Pool (SharedState W C) (Code W C Unit)} {n : ℕ}
    (h : Simulates cfg.bits p.shared p.threads n s) (hr : Service.Run cfg us s)
    (heffects : us.filterMap Event.effect? = tr.filterMap CodeEvent.event?) :
    Refined cfg tr p us s := by
  obtain ⟨inside, outside, a, shares, -, hholder, -, -⟩ := h
  refine ⟨hr, heffects, fun hfree => ?_, ?_, ?_⟩
  · generalize s.shared = st at hholder
    cases hholder with
    | free => rfl
    | held hlocked => exact absurd (hfree.symm.trans hlocked) Bool.false_ne_true
  · rw [hholder.shared_eq]
  · rw [hholder.shared_eq]

/-- The code refines the service: each of its runs is a run of the service. -/
theorem code_refines_service {cfg : Config} {tr : List (CodeEvent W C)}
    {p : Pool (SharedState W C) (Code W C Unit)} (h : CodeRun cfg tr p) (hspawned : Spawned tr) :
    ∃ us s, Refined cfg tr p us s := by
  obtain ⟨us, n, s, hr, heffects, hsim⟩ := h.simulates hspawned
  exact ⟨us, s, hsim.refined hr heffects⟩

/-- Nobody has spawned a closure of his own in the history of the job that unwinds. -/
theorem tinyPanicked_spawned : Spawned tinyPanicked := by
  simp [Spawned, tinyPanicked, tinySubmits]

/-- The job unwinds in a run of the service. -/
theorem code_refines_service_tiny : ∃ us s, Refined tinyConfig tinyPanicked
    ⟨⟨tinyQueued, false⟩, {.ret (), tinyWorker, .ret ()}⟩ us s :=
  code_refines_service tinyPanicked_run tinyPanicked_spawned

/-! ## The numbers that are told -/

section
variable {J : Type}

/-- The number that an operation tells its caller. -/
@[simp] def Return.tells : Return W → Multiset ℕ
  | .submitted task_id => {task_id}
  | _ => 0

/-- The number that a thread will tell. -/
@[simp] def Control.tells : Control W J → Multiset ℕ
  | .dispatching _ ret | .cleanup _ ret | .cancelling _ _ ret | .returning ret => ret.tells
  | _ => 0

/-- The number that is told. -/
@[simp] def Event.tells : Event W J → Multiset ℕ
  | .returned ret => ret.tells
  | _ => 0

variable {cfg : Config} {bits : ℕ} {t : Thread W J} {st st' : RayonExecutorServiceState W J}
  {e : Event W J} {new : Multiset (Thread W J)}

/-- Who is to tell a number has just had the task accepted. -/
theorem Call.tells (h : Call bits st e st' new) :
    e.tells + across Control.tells new = e.accepts.map Prod.fst := by
  cases h with
  | admitJob ha => cases RayonExecutorServiceState.admitJob_cases ha <;> simp
  | cancel hc => cases RayonExecutorServiceState.cancelPendingTask_cases hc <;> simp
  | _ => simp

/-- A thread keeps the number until it tells it. -/
theorem Action.tells (h : Action t st e st' new) :
    e.tells + across Control.tells new = t.control.tells ∧ e.accepts = 0 := by
  cases h with
  | @takeNext _ _ taken => cases taken <;> simp
  | isRunningTask => split_ifs <;> simp
  | _ => simp

/-- Each accepted task is told to one caller, or is to be. -/
theorem Service.Run.tells {tr : List (Event W J)} {s : Service W J} (h : Service.Run cfg tr s) :
    tally Event.tells tr + across Control.tells s.threads = accepted tr := by
  refine Pool.invariant (P := fun tr _ ts => tally Event.tells tr + across Control.tells ts =
    accepted tr) rfl ?_ ?_ h
  · intro tr st ts e st' new _ ih hc
    rw [tally_cons, accepted_cons, across_add, ← ih, ← hc.tells]
    abel
  · intro tr st t ts e st' new _ ih ha
    obtain ⟨htells, haccepts⟩ := ha.tells
    rw [across_cons, ← htells] at ih
    rw [tally_cons, accepted_cons, across_add, haccepts, ← ih, Multiset.map_zero, zero_add]
    abel

end

/-! ## What the code inherits -/

/-- What the effects of the code add up to is what the events of the service add up to. -/
theorem tally_effects {M : Type} [AddCommMonoid M] (f : Event W C.Job → M)
    (hf : ∀ e : Event W C.Job, e.effect?.elim 0 f = f e) {us : List (Event W C.Job)}
    {tr : List (CodeEvent W C)} (h : us.filterMap Event.effect? = tr.filterMap CodeEvent.event?) :
    tally (fun l : CodeEvent W C => l.event?.elim 0 f) tr = tally f us := by
  calc tally (fun l : CodeEvent W C => l.event?.elim 0 f) tr
      = tally f (us.filterMap Event.effect?) := by
        rw [h, tally_filterMap]
    _ = tally f us := by
        rw [tally_filterMap]
        exact congrArg (tally · us) (funext hf)

/-- The job that an effect hands to `run` or to `cancel`. -/
def CodeEvent.consumes (l : CodeEvent W C) : Multiset (ℕ × C.Job) :=
  l.event?.elim 0 fun e => e.runs + e.cancels

/-- The jobs that the code consumes are those that the service consumes. -/
theorem tally_consumes {us : List (Event W C.Job)} {tr : List (CodeEvent W C)}
    (h : us.filterMap Event.effect? = tr.filterMap CodeEvent.event?) :
    tally CodeEvent.consumes tr = tally Event.runs us + tally Event.cancels us := by
  rw [← tally_add_distrib]
  refine tally_effects _ (fun e => ?_) h
  cases e <;> rfl

/-- The number that the code tells a caller. -/
def CodeEvent.tells (l : CodeEvent W C) : Multiset ℕ := l.event?.elim 0 Event.tells

/-- A number that the code tells is that of an accepted task. -/
theorem Service.Run.told_le {cfg : Config} {us : List (Event W C.Job)} {s : Service W C.Job}
    (hr : Service.Run cfg us s) {tr : List (CodeEvent W C)}
    (h : us.filterMap Event.effect? = tr.filterMap CodeEvent.event?) :
    tally CodeEvent.tells tr ≤ accepted us := by
  have htells : tally CodeEvent.tells tr = tally Event.tells us := by
    refine tally_effects _ (fun e => ?_) h
    cases e <;> rfl
  rw [htells, ← hr.tells]
  exact Multiset.le_add_right _ _

/-- What is known of the service, of a run of the code to the shared state `x` that is the run `us`
of the service. -/
structure CodeSafe (cfg : Config) (tr : List (CodeEvent W C)) (us : List (Event W C.Job))
    (x : SharedState W C) : Prop where
  /-- No task is handed to `run` or to `cancel` twice, nor to both. -/
  consumed : ((tally CodeEvent.consumes tr).map Prod.fst).Nodup
  /-- No task is accepted twice, and each that is accepted is unfinished or finished. -/
  accepted : (accepted us).Nodup ∧ RayonExecutor.accepted us =
    unfinished us + (tally Event.finishesRun us + tally Event.finishesCancel us)
  /-- The numbers that callers are told are those of accepted tasks, and so are those of the jobs
  that are consumed. -/
  known : tally CodeEvent.tells tr ≤ RayonExecutor.accepted us ∧
    (tally CodeEvent.consumes tr).map Prod.fst ≤ RayonExecutor.accepted us
  /-- The job of a finished task has been consumed. -/
  finished : tally Event.finishesRun us + tally Event.finishesCancel us ≤
    (tally CodeEvent.consumes tr).map Prod.fst
  /-- Whoever takes the lock finds each unfinished task in exactly one place, and nothing else
  there, and as many of them as the capacity allows. -/
  places : x.locked = false → unfinished us = x.state.inner.queue.keys +
      x.state.inner.running_tasks.val + x.state.inner.cancelling.val ∧
    (x.state.inner.queue.keys + x.state.inner.running_tasks.val +
      x.state.inner.cancelling.val).Nodup ∧ x.state.inner.occupied ≤ cfg.task_capacity
  /-- Whoever takes the lock finds the counters right. -/
  counters : x.locked = false → x.state.inner.running = x.state.inner.running_tasks.card ∧
    x.state.inner.running ≤ x.state.inner.scheduled ∧ x.state.inner.scheduled ≤ cfg.num_threads
  /-- Termination is never published early. -/
  published : x.locked = false → W.borrow x.state.termination_tx = true →
    x.state.inner.Terminated

/-- The code is safe, for any user code, and whichever pieces of it unwind. -/
theorem code_safe {cfg : Config} {tr : List (CodeEvent W C)}
    {p : Pool (SharedState W C) (Code W C Unit)} (h : CodeRun cfg tr p) (hspawned : Spawned tr) :
    ∃ us s, Refined cfg tr p us s ∧ CodeSafe cfg tr us p.shared := by
  obtain ⟨us, n, s, hr, heffects, hsim⟩ := h.simulates hspawned
  have hrefined : Refined cfg tr p us s := hsim.refined hr heffects
  have hstate := hrefined.state
  have hledger := hr.ledger
  have hconsumes := tally_consumes heffects
  refine ⟨us, s, hrefined, ?_⟩
  exact
    { consumed := by
        rw [hconsumes]
        exact hr.consumed_nodup
      accepted := by
        refine ⟨hledger.nodup, ?_⟩
        rw [hledger.unfinished_eq, hledger.ids, add_assoc _ (tally Event.finishesRun us)]
      known := by
        rw [hconsumes]
        exact ⟨hr.told_le heffects, hr.consumed_le⟩
      finished := by
        have hconsumption := hr.consumption
        rw [hconsumes, Multiset.map_add, hconsumption.runs, hconsumption.cancels]
        exact add_le_add (Multiset.le_add_left _ _) (Multiset.le_add_left _ _)
      places := by
        intro hfree
        rw [← hstate hfree, ← hledger.unfinished_eq]
        exact ⟨rfl, Multiset.nodup_of_le (Multiset.sub_le_self _ _) hledger.nodup, hr.occupied_le⟩
      counters := by
        intro hfree
        rw [← hstate hfree]
        have hreserved := hr.reservations
        have hactive : active s.threads = s.shared.inner.running_tasks.card := by
          rw [active, ← hledger.workers_eq, Finset.card_val]
        refine ⟨hledger.running, ?_, hr.config.2 ▸ hreserved.bounded⟩
        rw [hreserved.exact, hactive, hledger.running]
        omega
      published := by
        intro hfree
        rw [← hstate hfree]
        exact hr.published.sound }

/-- The task whose job has unwound is unfinished until its worker comes to `finish_running`, and so
is the one in the queue. -/
theorem code_safe_tiny : ∃ us s, Refined tinyConfig tinyPanicked
      ⟨⟨tinyQueued, false⟩, {.ret (), tinyWorker, .ret ()}⟩ us s ∧
    CodeSafe tinyConfig tinyPanicked us ⟨tinyQueued, false⟩ ∧ unfinished us = {1, 0} := by
  obtain ⟨us, s, hrefined, hsafe⟩ := code_safe tinyPanicked_run tinyPanicked_spawned
  exact ⟨us, s, hrefined, hsafe, (hsafe.places rfl).1⟩

end RayonExecutor
