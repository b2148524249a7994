import RayonExecutor.Machine

/-!
# Waiting tasks

A task that polls a future of the crate and finds nothing leaves its waker with the channel. The
crate polls the futures of the channel with a `PanicIsolatingWake` around the task's waker, so these
are all that the channel ever has to wake (`Machine.Waiting`). A send wakes its wakers one after
another, in an order of its own, and would be over at the first that unwinds. The boundary around
the whole send would then be too late for the rest of them, but the boundary in each waker is not.
-/

namespace RayonExecutor

open Program Code

variable {W : Watch} {C : Client}

/-! ## The futures -/

/-- A future: what a poll with a waker returns, and the state that it leaves. -/
abbrev Future (C : Client) (σ R : Type) := Waker C → σ → R × σ

/-- `poll_with_waker_panic_isolation`. -/
def pollWithWakerPanicIsolation {σ R : Type} (future : Future C σ R) : Future C σ R :=
  fun waker => future (.isolating waker)

/-- `WakerPanicIsolation`. -/
structure WakerPanicIsolation (C : Client) (σ R : Type) where
  future : Future C σ R

/-- `WakerPanicIsolation::poll`. -/
def WakerPanicIsolation.poll {σ R : Type} (this : WakerPanicIsolation C σ R) : Future C σ R :=
  pollWithWakerPanicIsolation this.future

/-- `CapacityChangesChanged`. The future has its receiver borrowed, and `some ()` is its result
while the service exists. -/
structure CapacityChangesChanged (W : Watch) (C : Client) where
  future : Future C (W.Receiver ℕ × Machine W C) (Option Unit)

/-- `CapacityChangesChanged::poll`. -/
def CapacityChangesChanged.poll (this : CapacityChangesChanged W C) :
    Future C (W.Receiver ℕ × Machine W C) (Option Unit) :=
  pollWithWakerPanicIsolation this.future

/-- Puts a waker in its place among the registered ones, which is at the end for a future that has
no place yet. -/
def register {A : Type} (place : Option ℕ) (waker : A) (wakers : List A) : List A :=
  match place with
  | none => wakers ++ [waker]
  | some i => wakers.set i waker

/-- The future `changed` of a receiver. -/
def receiverChanged (place : Option ℕ) : Future C (W.Receiver ℕ × Machine W C) (Option Unit) :=
  fun waker (receiver, x) =>
    if W.hasChanged x.state.capacity_tx receiver then
      (some (), W.markUnchanged x.state.capacity_tx receiver, x)
    else (none, receiver, { x with capacity_wakers := register place waker x.capacity_wakers })

/-- The future `wait_for(|terminated| *terminated)` of a receiver. -/
def receiverWaitFor (place : Option ℕ) : Future C (W.Receiver Bool × Machine W C) (Option Unit) :=
  fun waker (receiver, x) =>
    let receiver := W.markUnchanged x.state.termination_tx receiver
    if W.borrow x.state.termination_tx then (some (), receiver, x)
    else
      (none, receiver, { x with termination_wakers := register place waker x.termination_wakers })

/-- `CapacityChanges::changed`. -/
def CapacityChanges.changed (place : Option ℕ) : CapacityChangesChanged W C :=
  ⟨receiverChanged place⟩

/-- The future in `await_termination`. -/
def awaitTermination (place : Option ℕ) :
    WakerPanicIsolation C (W.Receiver Bool × Machine W C) (Option Unit) := ⟨receiverWaitFor place⟩

/-- A `PanicIsolatingWake` around the waker of a task. -/
def Waker.ofTask (waker : C.Waker) : Waker C := .isolating (.task waker)

/-- The tasks with the wakers `cs` wait for the capacity channel, and those with `ts` for
termination, when they all use the futures of the crate. -/
inductive Machine.Waiting : Machine W C → List C.Waker → List C.Waker → Prop
  | new {st : RayonExecutorServiceState W C.Job} {calls : ℕ} : Waiting ⟨st, [], [], calls⟩ [] []
  | changed {x y : Machine W C} {cs ts : List C.Waker} {place : Option ℕ} {waker : C.Waker}
      {receiver receiver' : W.Receiver ℕ} (h : Waiting x cs ts)
      (hp : (CapacityChanges.changed place).poll (.task waker) (receiver, x) =
        (none, receiver', y)) : Waiting y (register place waker cs) ts
  | awaitTermination {x y : Machine W C} {cs ts : List C.Waker} {place : Option ℕ}
      {waker : C.Waker} {receiver receiver' : W.Receiver Bool} (h : Waiting x cs ts)
      (hp : (RayonExecutor.awaitTermination place).poll (.task waker) (receiver, x) =
        (none, receiver', y)) : Waiting y cs (register place waker ts)
  /-- The future of the waiter in a place is dropped. -/
  | dropChanged {x : Machine W C} {cs ts : List C.Waker} (i : ℕ) (h : Waiting x cs ts) :
      Waiting { x with capacity_wakers := x.capacity_wakers.eraseIdx i } (cs.eraseIdx i) ts
  | dropAwaitTermination {x : Machine W C} {cs ts : List C.Waker} (i : ℕ) (h : Waiting x cs ts) :
      Waiting { x with termination_wakers := x.termination_wakers.eraseIdx i } cs (ts.eraseIdx i)
  /-- The service goes on, with no publication. -/
  | service {x : Machine W C} {cs ts : List C.Waker} {st : RayonExecutorServiceState W C.Job}
      {calls : ℕ} (h : Waiting x cs ts) (hcapacity : st.capacity_tx = x.state.capacity_tx)
      (htermination : st.termination_tx = x.state.termination_tx) :
      Waiting { x with state := st, calls := calls } cs ts
  /-- A call of `notify_async_changes`. -/
  | notified {x y : Machine W C} {cs ts : List C.Waker} {env : Surroundings C}
      {capacity_changed terminated : Bool} (h : Waiting x cs ts)
      (hn : Computes env (Code.notifyAsyncChanges capacity_changed terminated) x () y) :
      Waiting y (if capacity_changed then [] else cs)
        (if x.setsTerminated terminated then [] else ts)

/-- Registering commutes with a function of the wakers. -/
theorem map_register {A B : Type} (f : A → B) (place : Option ℕ) (waker : A) (wakers : List A) :
    register place (f waker) (wakers.map f) = (register place waker wakers).map f := by
  cases place with
  | none =>
    unfold register
    rw [List.map_append, List.map_singleton]
  | some i => exact List.map_set.symm

/-- The channels have isolated wakers only. -/
theorem Machine.Waiting.wakers {x : Machine W C} {cs ts : List C.Waker} (h : x.Waiting cs ts) :
    x.capacity_wakers = cs.map Waker.ofTask ∧ x.termination_wakers = ts.map Waker.ofTask := by
  induction h with
  | new => exact ⟨rfl, rfl⟩
  | @changed x y cs ts place waker receiver receiver' _ hp ih =>
    unfold CapacityChangesChanged.poll pollWithWakerPanicIsolation CapacityChanges.changed
      receiverChanged at hp
    dsimp only at hp
    split_ifs at hp with hc
    · simp at hp
    · obtain ⟨-, -, rfl⟩ := by simpa using hp
      refine ⟨?_, ih.2⟩
      rw [← map_register, ← ih.1]
      rfl
  | @awaitTermination x y cs ts place waker receiver receiver' _ hp ih =>
    unfold WakerPanicIsolation.poll pollWithWakerPanicIsolation RayonExecutor.awaitTermination
      receiverWaitFor at hp
    dsimp only at hp
    split_ifs at hp with hc
    · simp at hp
    · obtain ⟨-, -, rfl⟩ := by simpa using hp
      refine ⟨ih.1, ?_⟩
      rw [← map_register, ← ih.2]
      rfl
  | dropChanged i _ ih => exact ⟨by rw [ih.1, List.eraseIdx_map], ih.2⟩
  | dropAwaitTermination i _ ih => exact ⟨ih.1, by rw [ih.2, List.eraseIdx_map]⟩
  | service _ _ _ ih => exact ih
  | @notified x y cs ts env capacity_changed terminated _ hn ih =>
    obtain ⟨es, calls, hexec, -⟩ := exec_notifyAsyncChanges env x ⟨capacity_changed, terminated⟩
    obtain ⟨us, hn⟩ := hn
    obtain rfl : { x.notifyAsyncChanges ⟨capacity_changed, terminated⟩ with calls := calls } = y :=
      (Prod.mk.inj (Prod.mk.inj (hexec.symm.trans hn)).2).1
    unfold Machine.notifyAsyncChanges
    constructor
    · dsimp only
      split_ifs
      · rfl
      · exact ih.1
    · dsimp only
      split_ifs
      · rfl
      · exact ih.2

/-! ## No waker silences the others -/

/-- A call of `notify_async_changes` on a machine on which the tasks `cs` and `ts` wait: its
effects, the machine that it leaves, and how it ends. -/
structure WaitersNotified (x : Machine W C) (cs ts : List C.Waker)
    (capacity_changed terminated : Bool) (es : List (Effect W C)) (y : Machine W C)
    (o : Except C.Payload Unit) : Prop where
  /-- The call returns. -/
  returns : o = .ok ()
  /-- The data under the mutex have not changed. -/
  inner : y.state.inner = x.state.inner
  /-- The capacity generation is advanced if the first flag is set, and else untouched. -/
  generation : y.state.capacity_tx = if capacity_changed then
    W.sendModify x.state.capacity_tx (fun generation => (generation + 1) % 2^64)
    else x.state.capacity_tx
  advanced : W.borrow y.state.capacity_tx ≠ W.borrow x.state.capacity_tx ↔ capacity_changed = true
  /-- The termination value is true if the second flag is set. -/
  value : terminated = true → W.borrow y.state.termination_tx = true
  /-- The wakers of all tasks that wait for a channel that has changed are invoked, each once, and
  those that wait for capacity first. -/
  woken : InTurn (if capacity_changed then cs else [])
    (if x.setsTerminated terminated then ts else []) (woken es)
  /-- The other tasks keep waiting. -/
  waiting : y.Waiting (if capacity_changed then [] else cs)
    (if x.setsTerminated terminated then [] else ts)
  /-- Whatever unwinds instead, and in whatever order the wakers are taken, the same wakers are
  invoked and the same state is left. -/
  same : ∀ env : Surroundings C, ∃ us z,
    (notifyAsyncChanges capacity_changed terminated).exec env.answer x = (us, z, o) ∧
      (RayonExecutor.woken us).Perm (RayonExecutor.woken es) ∧ z.state = y.state

/-- The adapters return what the future that they wrap returns. -/
structure PollsForwarded (W : Watch) (C : Client) : Prop where
  isolation : ∀ {σ R : Type} (future : Future C σ R) (waker : Waker C) (x : σ),
    (WakerPanicIsolation.mk future).poll waker x = future (.isolating waker) x
  changed : ∀ (future : Future C (W.Receiver ℕ × Machine W C) (Option Unit)) (waker : Waker C)
    (x : W.Receiver ℕ × Machine W C),
    (CapacityChangesChanged.mk future).poll waker x = future (.isolating waker) x
  /-- The result is the one for the task's own waker, and so is the receiver. -/
  receiver_changed : ∀ (place : Option ℕ) (waker : Waker C) (x : W.Receiver ℕ × Machine W C),
    ((CapacityChanges.changed place).poll waker x).1 = (receiverChanged place waker x).1 ∧
      ((CapacityChanges.changed place).poll waker x).2.1 = (receiverChanged place waker x).2.1
  receiver_wait_for : ∀ (place : Option ℕ) (waker : Waker C) (x : W.Receiver Bool × Machine W C),
    ((awaitTermination place).poll waker x).1 = (receiverWaitFor place waker x).1 ∧
      ((awaitTermination place).poll waker x).2.1 = (receiverWaitFor place waker x).2.1

/-- The generation never stays the same. -/
theorem succ_mod_ne (n : ℕ) : (n + 1) % 2^64 ≠ n := by omega

/-- The channels after `notify_async_changes`. -/
theorem RayonExecutorServiceState.notifyAsyncChanges_channels {J : Type}
    (st : RayonExecutorServiceState W J) (changes : AsyncChanges) :
    (st.notifyAsyncChanges changes).inner = st.inner ∧
    (st.notifyAsyncChanges changes).capacity_tx = (if changes.capacity_changed then
      W.sendModify st.capacity_tx (fun generation => (generation + 1) % 2^64)
      else st.capacity_tx) ∧
    (changes.terminated = true →
      W.borrow (st.notifyAsyncChanges changes).termination_tx = true) := by
  obtain ⟨capacity_changed, terminated⟩ := changes
  unfold notifyAsyncChanges publishCapacity publishTermination
  refine ⟨?_, ?_, ?_⟩
  · cases capacity_changed <;> cases terminated <;> rfl
  · cases capacity_changed <;> cases terminated <;> rfl
  · rintro ⟨⟩
    dsimp only
    rw [if_pos rfl, Watch.borrow_sendIfModified]
    unfold setTerminated
    cases W.borrow _ <;> rfl

/-- A call of `notify_async_changes` wakes everyone who waits for what it changes. -/
theorem Machine.Waiting.exec {x : Machine W C} {cs ts : List C.Waker} (h : x.Waiting cs ts)
    (capacity_changed terminated : Bool) (env : Surroundings C) : ∃ es calls,
    (Code.notifyAsyncChanges capacity_changed terminated).exec env.answer x =
      (es, { x.notifyAsyncChanges ⟨capacity_changed, terminated⟩ with calls := calls }, .ok ()) ∧
    InTurn (if capacity_changed then cs else [])
      (if x.setsTerminated terminated then ts else []) (woken es) := by
  obtain ⟨es, calls, hexec, hwoken⟩ :=
    exec_notifyAsyncChanges env x ⟨capacity_changed, terminated⟩
  refine ⟨es, calls, hexec, ?_⟩
  obtain ⟨hcapacity, htermination⟩ := h.wakers
  -- every waker that is registered is isolated
  have hiso : ∀ waker ∈ x.capacity_wakers ++ x.termination_wakers, waker.Isolated := by
    intro waker hm
    rw [hcapacity, htermination, ← List.map_append] at hm
    obtain ⟨inner, -, rfl⟩ := List.mem_map.1 hm
    exact ⟨_, rfl⟩
  have htask : ∀ wakers : List C.Waker,
      (wakers.map Waker.ofTask).map Waker.task_waker = wakers := by
    intro wakers
    rw [List.map_map]
    exact List.map_id wakers
  have hturn := hwoken hiso
  rwa [hcapacity, htermination, htask, htask] at hturn

/-- Polls through the adapters. -/
theorem polls_forwarded : PollsForwarded W C where
  isolation _ _ _ := rfl
  changed _ _ _ := rfl
  receiver_changed place waker x := by
    obtain ⟨receiver, x⟩ := x
    unfold CapacityChangesChanged.poll pollWithWakerPanicIsolation CapacityChanges.changed
      receiverChanged
    dsimp only
    split_ifs <;> exact ⟨rfl, rfl⟩
  receiver_wait_for place waker x := by
    obtain ⟨receiver, x⟩ := x
    unfold WakerPanicIsolation.poll pollWithWakerPanicIsolation awaitTermination receiverWaitFor
    dsimp only
    split_ifs <;> exact ⟨rfl, rfl⟩

/-- Every call of `notify_async_changes` wakes everyone whom it has to wake, and is the same call
whatever unwinds. Polls are not changed by the isolation. -/
theorem waiters_notified {x : Machine W C} {cs ts : List C.Waker} (h : x.Waiting cs ts)
    (capacity_changed terminated : Bool) :
    (∀ env : Surroundings C, ∃ es y o,
      (notifyAsyncChanges capacity_changed terminated).exec env.answer x = (es, y, o) ∧
      WaitersNotified x cs ts capacity_changed terminated es y o) ∧
    PollsForwarded W C := by
  refine ⟨fun env => ?_, polls_forwarded⟩
  obtain ⟨es, calls, hexec, hwoken⟩ := h.exec capacity_changed terminated env
  obtain ⟨hinner, hgeneration, hvalue⟩ :=
    x.state.notifyAsyncChanges_channels ⟨capacity_changed, terminated⟩
  refine ⟨es, _, _, hexec, rfl, hinner, hgeneration, ?_, hvalue, hwoken, h.notified ⟨es, hexec⟩,
    fun env' => ?_⟩
  · change W.borrow (x.state.notifyAsyncChanges ⟨capacity_changed, terminated⟩).capacity_tx ≠ _ ↔ _
    rw [hgeneration]
    cases capacity_changed with
    | false => simp
    | true =>
      simp only [if_true, Watch.sendModify, Watch.borrow_sendIfModified, iff_true]
      exact succ_mod_ne _
  · obtain ⟨us, calls', hexec', hwoken'⟩ := h.exec capacity_changed terminated env'
    exact ⟨us, _, hexec', hwoken'.perm hwoken, rfl⟩

/-- Two tasks wait for the capacity channel and one for termination. -/
def tinyWaiting : Machine Watch.versioned tinyClient :=
  ⟨.new _ _ 2 1, [.ofTask (4 : ℕ), .ofTask (5 : ℕ)], [.ofTask (6 : ℕ)], 0⟩

/-- The three tasks have polled the futures of the crate. -/
theorem tinyWaiting_waiting : tinyWaiting.Waiting [(4 : ℕ), (5 : ℕ)] [(6 : ℕ)] := by
  let st : RayonExecutorServiceState Watch.versioned ℕ := .new _ _ 2 1
  have h0 : Machine.Waiting (⟨st, [], [], 0⟩ : Machine _ tinyClient) [] [] := .new
  have h1 : Machine.Waiting (⟨st, [.ofTask (4 : ℕ)], [], 0⟩ : Machine _ tinyClient)
      [(4 : ℕ)] [] :=
    @Machine.Waiting.changed _ _ _ _ _ _ none _ (0 : ℕ) (0 : ℕ) h0 rfl
  have h2 : Machine.Waiting (⟨st, [.ofTask (4 : ℕ), .ofTask (5 : ℕ)], [], 0⟩ :
      Machine _ tinyClient) [(4 : ℕ), (5 : ℕ)] [] :=
    @Machine.Waiting.changed _ _ _ _ _ _ none _ (0 : ℕ) (0 : ℕ) h1 rfl
  exact @Machine.Waiting.awaitTermination _ _ _ _ _ _ none _ (0 : ℕ) (0 : ℕ) h2 rfl

/-- A shutdown of the idle service wakes all three. -/
theorem waiters_notified_tiny : (∀ env : Surroundings tinyClient, ∃ es y o,
      (notifyAsyncChanges true true).exec env.answer tinyWaiting = (es, y, o) ∧
      WaitersNotified tinyWaiting [(4 : ℕ), (5 : ℕ)] [(6 : ℕ)] true true es y o) ∧
    PollsForwarded Watch.versioned tinyClient := waiters_notified tinyWaiting_waiting true true

end RayonExecutor
