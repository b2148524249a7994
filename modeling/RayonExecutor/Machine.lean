import RayonExecutor.Unwinding

/-!
# The code on its own

One thread runs a program with nobody else around: its effects on the service are those on a state
(`Machine`), and what comes from outside, the user code and the executor interface, is given call by
call (`Surroundings`), so that one piece of code may behave differently each time. A send wakes the
wakers that are registered on its channel in an order that the channel chooses. On such a machine
`notify_async_changes` makes its publications and returns, whatever the wakers do, and with isolated
wakers it invokes all of them.
-/

namespace RayonExecutor

open Program

/-- The state of the service, with the wakers that are registered on its channels and the number of
calls to the outside so far. -/
structure Machine (W : Watch) (C : Client) where
  state : RayonExecutorServiceState W C.Job
  capacity_wakers : List (Waker C)
  termination_wakers : List (Waker C)
  calls : ℕ

/-- How everything outside behaves, by the number of the call. -/
structure Surroundings (C : Client) where
  user : ℕ → (u : UserCode C) → u.Answer
  accept : ℕ → C.Job → Except C.Payload Unit
  status : ℕ → ℕ → TaskStatus
  fallback : ℕ → ℕ → CancelResult
  /-- The order in which a send wakes the registered wakers. -/
  order : ℕ → List (Waker C) → List (Waker C)
  order_perm : ∀ (call : ℕ) (wakers : List (Waker C)), (order call wakers).Perm wakers

variable {W : Watch} {C : Client} {α : Type}

namespace Machine

/-- The machine with another service state. -/
def put (x : Machine W C) (state : RayonExecutorServiceState W C.Job) : Machine W C :=
  { x with state := state }

/-- The machine after a call to the outside. -/
def called (x : Machine W C) : Machine W C := { x with calls := x.calls + 1 }

/-- Whether the second publication is a change. -/
def setsTerminated (terminated : Bool) (x : Machine W C) : Bool :=
  terminated && !W.borrow x.state.termination_tx

/-- The machine after `notify_async_changes`, in which a change takes the registered wakers. -/
def notifyAsyncChanges (changes : AsyncChanges) (x : Machine W C) : Machine W C :=
  { x with
    state := x.state.notifyAsyncChanges changes
    capacity_wakers := if changes.capacity_changed then [] else x.capacity_wakers
    termination_wakers :=
      if x.setsTerminated changes.terminated then [] else x.termination_wakers }

end Machine

/-- The effects of the crate. A send that is a change takes the registered wakers to wake them. -/
def Surroundings.answer (env : Surroundings C) : (e : Effect W C) → Machine W C →
    Guarded.Answer UserCode.Answer Op.Answer e × Machine W C
  | .lock, x => ((), x)
  | .unlock, x => ((), x)
  | .get, x => (x.state.inner, x)
  | .set inner, x => ((), x.put { x.state with inner := inner })
  | .user u, x => (env.user x.calls u, x.called)
  | .other .notifyAll, x =>
    ((), x.put { x.state with terminated := x.state.terminated.notifyAll })
  | .other .sendCapacity, x =>
    (env.order x.calls x.capacity_wakers,
      { x with state := x.state.publishCapacity, capacity_wakers := [] })
  | .other .sendTermination, x =>
    if (RayonExecutorServiceState.setTerminated (W.borrow x.state.termination_tx)).2 then
      (env.order x.calls x.termination_wakers,
        { x with state := x.state.publishTermination, termination_wakers := [] })
    else ([], x.put x.state.publishTermination)
  | .other .subscribeCapacity, x => (W.subscribe x.state.capacity_tx, x)
  | .other .subscribeTermination, x => (W.subscribe x.state.termination_tx, x)
  | .other .spawn, x => ((), x)
  | .other (.accept job), x => (env.accept x.calls job, x.called)
  | .other (.run _ _), x => ((), x)
  | .other (.cancel _ _), x => ((), x)
  | .other (.status task_id), x => (env.status x.calls task_id, x.called)
  | .other (.fallback task_id), x => (env.fallback x.calls task_id, x.called)
  | .other (.returned _), x => ((), x)

namespace Code

/-- From `x` the program returns `a` and leaves `y`. -/
def Computes (env : Surroundings C) (m : Code W C α) (x : Machine W C) (a : α)
    (y : Machine W C) : Prop := ∃ es, m.exec env.answer x = (es, y, .ok a)

/-! ## Publications -/

/-- User code leaves the machine as it is. -/
theorem answered_user {env : Surroundings C} {us : List (Performed W C)}
    (hus : ∀ ev ∈ us, Guarded.isUser ev.1 = true) {x y : Machine W C}
    (h : Answered env.answer us x y) : ∃ calls, y = { x with calls := calls } := by
  induction us generalizing x with
  | nil => exact ⟨x.calls, h.symm⟩
  | cons ev us ih =>
    obtain ⟨e, r⟩ := ev
    cases e with
    | user u =>
      obtain ⟨calls, rfl⟩ := ih (fun ev hev => hus ev (List.mem_cons_of_mem _ hev)) h.2
      exact ⟨calls, rfl⟩
    | lock | unlock | get | set | other =>
      exact absurd (hus _ List.mem_cons_self) (by simp [Guarded.isUser])

/-- A channel may wake isolated wakers in any order: their tasks are the same. -/
theorem woken_perm {wakers wakers' : List (Waker C)} {us : List (Performed W C)}
    (h : Wakes wakers us) (hp : wakers.Perm wakers') (hiso : ∀ waker ∈ wakers', waker.Isolated) :
    (woken (us.map Sigma.fst)).Perm (wakers'.map Waker.task_waker) := by
  rw [h.woken fun waker hm => hiso waker (hp.mem_iff.1 hm)]
  exact hp.map Waker.task_waker

/-- The first publication on a machine. -/
theorem SendsCapacity.answered {env : Surroundings C} {changed : Bool} {us : List (Performed W C)}
    (hus : SendsCapacity changed us) {x y : Machine W C} (h : Answered env.answer us x y) :
    (∃ calls, y = { x with
      state := if changed then x.state.publishCapacity else x.state
      capacity_wakers := if changed then [] else x.capacity_wakers
      calls := calls }) ∧
    ((∀ waker ∈ x.capacity_wakers, waker.Isolated) → (woken (us.map Sigma.fst)).Perm
      (if changed then x.capacity_wakers.map Waker.task_waker else [])) := by
  cases changed with
  | false =>
    obtain rfl : us = [] := hus
    obtain rfl : x = y := h
    exact ⟨⟨x.calls, rfl⟩, fun _ => .nil⟩
  | true =>
    obtain ⟨wakers, us, rfl, hwakes⟩ := hus
    obtain ⟨rfl, hrest⟩ := h
    have hperm := woken_perm hwakes (env.order_perm x.calls x.capacity_wakers)
    exact ⟨answered_user hwakes.user hrest, hperm⟩

/-- The second send is a change unless the value is true already. -/
theorem answer_sendTermination (env : Surroundings C) (x : Machine W C) :
    env.answer (.other .sendTermination) x =
      (if x.setsTerminated true then env.order x.calls x.termination_wakers else [],
        { x with
          state := x.state.publishTermination
          termination_wakers := if x.setsTerminated true then [] else x.termination_wakers }) := by
  rw [Surroundings.answer]
  unfold RayonExecutorServiceState.setTerminated Machine.setsTerminated
  cases W.borrow x.state.termination_tx <;> rfl

/-- The second publication on a machine. -/
theorem SendsTermination.answered {env : Surroundings C} {changed : Bool}
    {us : List (Performed W C)} (hus : SendsTermination changed us) {x y : Machine W C}
    (h : Answered env.answer us x y) :
    (∃ calls, y = { x with
      state := if changed then x.state.publishTermination else x.state
      termination_wakers := if x.setsTerminated changed then [] else x.termination_wakers
      calls := calls }) ∧
    ((∀ waker ∈ x.termination_wakers, waker.Isolated) → (woken (us.map Sigma.fst)).Perm
      (if x.setsTerminated changed then x.termination_wakers.map Waker.task_waker else [])) := by
  cases changed with
  | false =>
    obtain rfl : us = [] := hus
    obtain rfl : x = y := h
    exact ⟨⟨x.calls, rfl⟩, fun _ => .nil⟩
  | true =>
    obtain ⟨wakers, us, rfl, hwakes⟩ := hus
    obtain ⟨hwakers, hrest⟩ := h
    rw [answer_sendTermination] at hwakers hrest
    refine ⟨answered_user hwakes.user hrest, fun hiso => ?_⟩
    dsimp only at hwakers
    split_ifs at hwakers ⊢
    · subst hwakers
      have hperm := woken_perm hwakes (env.order_perm x.calls x.termination_wakers)
      exact hperm hiso
    · subst hwakers
      have hperm := woken_perm hwakes (.refl [])
      exact hperm (by simp)

/-- The tasks `ws` are those of `cs` and then those of `ts`, each part in any order. -/
def InTurn (cs ts ws : List C.Waker) : Prop := ∃ us vs, ws = us ++ vs ∧ us.Perm cs ∧ vs.Perm ts

/-- Two ways to wake the same tasks in turn. -/
theorem InTurn.perm {cs ts us vs : List C.Waker} (h : InTurn cs ts us) (h' : InTurn cs ts vs) :
    us.Perm vs := by
  obtain ⟨cs₁, ts₁, rfl, hcs₁, hts₁⟩ := h
  obtain ⟨cs₂, ts₂, rfl, hcs₂, hts₂⟩ := h'
  exact (hcs₁.trans hcs₂.symm).append (hts₁.trans hts₂.symm)

/-- `notify_async_changes` returns with its publications made, and has waked everyone who waits for
them. -/
theorem exec_notifyAsyncChanges (env : Surroundings C) (x : Machine W C) (changes : AsyncChanges) :
    ∃ es calls, (notifyAsyncChanges changes.capacity_changed changes.terminated).exec env.answer x =
      (es, { x.notifyAsyncChanges changes with calls := calls }, .ok ()) ∧
    ((∀ waker ∈ x.capacity_wakers ++ x.termination_wakers, waker.Isolated) → InTurn
      (if changes.capacity_changed then x.capacity_wakers.map Waker.task_waker else [])
      (if x.setsTerminated changes.terminated then x.termination_wakers.map Waker.task_waker
        else []) (woken es)) := by
  obtain ⟨capacity_changed, terminated⟩ := changes
  generalize hexec : (notifyAsyncChanges capacity_changed terminated).exec env.answer x = r
  obtain ⟨es, z, o⟩ := r
  obtain ⟨tr, hr, ha, rfl⟩ := exec_runs hexec
  obtain rfl : o = .ok () :=
    ((notifyAsyncChanges_returns capacity_changed terminated).of_runs hr).elim fun _ ho => ho
  obtain ⟨us, vs, rfl, hus, hvs⟩ := notifyAsyncChanges_runs hr
  obtain ⟨y, hy, hz⟩ := answered_append.1 ha
  obtain ⟨⟨calls, rfl⟩, hwoken⟩ := hus.answered hy
  -- the first publication leaves the second channel alone
  have htx : ∀ st : RayonExecutorServiceState W C.Job,
      (if capacity_changed then st.publishCapacity else st).termination_tx = st.termination_tx := by
    intro st
    cases capacity_changed <;> rfl
  obtain ⟨⟨calls', hend⟩, hwoken'⟩ := hvs.answered hz
  simp only [Machine.setsTerminated, htx] at hwoken' hend
  refine ⟨_, calls', by rw [hend]; rfl, fun hiso => ?_⟩
  simp only [List.mem_append] at hiso
  refine ⟨_, _, by rw [List.map_append, woken_append], ?_, ?_⟩
  · exact hwoken fun waker hm => hiso waker (Or.inl hm)
  · exact hwoken' fun waker hm => hiso waker (Or.inr hm)

end Code

end RayonExecutor
