import RayonExecutor.Ownership

/-!
# Bounded admission

`admit` tests the sum of three counters against the capacity. The ledger says that this sum is the
number of accepted tasks that are not finished (`unfinished`), so the limit is a limit on those, and
since only an accepted submission adds one, the limit is never passed.
-/

namespace RayonExecutor

open Transition Pool

variable {W : Watch} {J : Type}

/-- The accepted tasks for which neither `finish_running` nor `finish_cancelling` has been
executed. -/
def unfinished (tr : List (Event W J)) : Multiset ℕ :=
  accepted tr - (tally Event.finishesRun tr + tally Event.finishesCancel tr)

/-- The occupied slots are the unfinished tasks. -/
theorem Ledger.unfinished_eq {tr : List (Event W J)} {st : RayonExecutorServiceState W J}
    {ts : Multiset (Thread W J)} (h : Ledger tr st ts) : unfinished tr =
      st.inner.queue.keys + st.inner.running_tasks.val + st.inner.cancelling.val := by
  rw [unfinished, h.ids, add_assoc, add_tsub_cancel_right]

/-- The number of occupied slots is the number of unfinished tasks. -/
theorem Ledger.occupied_eq {tr : List (Event W J)} {st : RayonExecutorServiceState W J}
    {ts : Multiset (Thread W J)} (h : Ledger tr st ts) :
    st.inner.occupied = (unfinished tr).card := by
  rw [h.unfinished_eq, RayonExecutorServiceInner.occupied, h.running]
  simp

/-- What a history has accepted is unfinished or finished. -/
theorem Ledger.card_accepted {tr : List (Event W J)} {st : RayonExecutorServiceState W J}
    {ts : Multiset (Thread W J)} (h : Ledger tr st ts) : (accepted tr).card =
      st.inner.occupied + (tally Event.finishesRun tr).card +
        (tally Event.finishesCancel tr).card := by
  rw [h.ids, RayonExecutorServiceInner.occupied, h.running]
  simp

/-- The only event that accepts a task is an accepted submission, of one task, below capacity. -/
theorem Service.Step.accepts_cases {cfg : Config} {s s' : Service W J} {e : Event W J}
    (h : Service.Step cfg s e s') : e.accepts = 0 ∨ e.accepts.card = 1 ∧
      e.finishesRun = 0 ∧ e.finishesCancel = 0 ∧ s.shared.inner.lifecycle = .running ∧
      s.shared.inner.occupied < s.shared.inner.task_capacity := by
  rcases h with hc | ⟨⟨ha⟩⟩
  · cases hc with
    | admitJob ha =>
      cases RayonExecutorServiceState.admitJob_cases ha with
      | shutdown | saturated | exhausted | unwound => exact Or.inl rfl
      | accepted hl ho => exact Or.inr ⟨rfl, rfl, rfl, hl, ho⟩
    | _ => exact Or.inl rfl
  · cases ha <;> exact Or.inl rfl

/-- The occupied slots never exceed the capacity. -/
theorem Service.Run.occupied_le {cfg : Config} {tr : List (Event W J)} {s : Service W J}
    (h : Service.Run cfg tr s) : s.shared.inner.occupied ≤ cfg.task_capacity := by
  refine h.invariant (P := fun _ s => s.shared.inner.occupied ≤ cfg.task_capacity)
    (Nat.zero_le _) ?_
  intro tr s e s' (hr : Service.Run cfg tr s) ho hs
  have hb := hr.ledger.card_accepted
  have hr' : Service.Run cfg (e :: tr) s' := hr.step hs
  have ha := hr'.ledger.card_accepted
  simp only [accepted_cons, tally_cons, Multiset.card_add, Multiset.card_map] at ha
  -- only an accepted submission adds an unfinished task, and it has seen a free slot
  rcases hs.accepts_cases with h0 | ⟨h1, -, -, -, hlt⟩
  · rw [h0, Multiset.card_zero] at ha
    omega
  · rw [hr.config.1] at hlt
    omega

/-- A rejected submission changes nothing. -/
theorem Service.Step.eq_of_rejected {cfg : Config} {s s' : Service W J} {job : J}
    {error : SubmissionError} (h : Service.Step cfg s (.admitJob job (.err error)) s') :
    s' = s := by
  rcases h with hc | ⟨⟨ha⟩⟩
  · cases hc with
    | admitJob ha =>
      cases RayonExecutorServiceState.admitJob_cases ha with
      | shutdown | saturated => simp
  · cases ha

/-- Exact bounded admission, after the history `tr` and in the state `s`. -/
structure BoundedAdmission (cfg : Config) (tr : List (Event W J)) (s : Service W J) : Prop where
  /-- A task occupies a slot from its acceptance until it is finished. -/
  occupied : s.shared.inner.occupied = (unfinished tr).card
  bounded : s.shared.inner.occupied ≤ cfg.task_capacity
  /-- Neither addition of `occupied` overflows `usize`. -/
  no_overflow : s.shared.inner.queue.length + s.shared.inner.running < 2^cfg.bits ∧
    s.shared.inner.occupied < 2^cfg.bits
  /-- A submission is accepted exactly when the service runs and has a free slot, as long as the
  identifiers last and the job's own `accept` returns. -/
  accepted_iff : ∀ accept job outcome st', s.shared.admitJob cfg.bits accept job = (outcome, st') →
    ((∃ admission, outcome = .ok admission) ↔ s.shared.inner.lifecycle = .running ∧
      (unfinished tr).card < cfg.task_capacity ∧
      s.shared.inner.next_task_id + 1 < 2^cfg.bits ∧ accept = .returned)
  shutdown_iff : ∀ accept job outcome st', s.shared.admitJob cfg.bits accept job = (outcome, st') →
    (outcome = .err .shutdown ↔ s.shared.inner.lifecycle ≠ .running)
  saturated_iff : ∀ accept job outcome st', s.shared.admitJob cfg.bits accept job = (outcome, st') →
    (outcome = .err .saturated ↔ s.shared.inner.lifecycle = .running ∧
      (unfinished tr).card = cfg.task_capacity)
  /-- A rejected submission changes no field and promises no closure. -/
  rejected : ∀ job error s', Service.Step cfg s (.admitJob job (.err error)) s' → s' = s

/-- Admission is exactly bounded in every reachable state. -/
theorem bounded_admission {cfg : Config} {tr : List (Event W J)} {s : Service W J}
    (h : Service.Run cfg tr s) : BoundedAdmission cfg tr s := by
  have hocc := h.ledger.occupied_eq
  have hle := h.occupied_le
  have hcap := h.config.1
  have hlt := cfg.task_capacity_lt
  exact
    { occupied := hocc
      bounded := hle
      no_overflow := by
        -- both sums are at most the capacity, which is a `usize`
        refine ⟨?_, by omega⟩
        have : s.shared.inner.queue.length + s.shared.inner.running ≤
            s.shared.inner.occupied := Nat.le_add_right _ _
        omega
      accepted_iff := by
        intro accept job outcome st' ha
        rw [← hocc, ← hcap]
        cases RayonExecutorServiceState.admitJob_cases ha with
        | shutdown hl => simp [hl]
        | saturated hl ho => simp [ho]
        | exhausted hl ho hid => simp [hid]
        | unwound => simp
        | accepted hl ho hid => simp [hl, ho, hid]
      shutdown_iff := by
        intro accept job outcome st' ha
        cases RayonExecutorServiceState.admitJob_cases ha with
        | shutdown hl | saturated hl | exhausted hl | unwound hl | accepted hl => simp [hl]
      saturated_iff := by
        intro accept job outcome st' ha
        rw [← hocc, ← hcap]
        cases RayonExecutorServiceState.admitJob_cases ha with
        | shutdown hl => simp [hl]
        | saturated hl ho =>
          simp only [hl, true_and, true_iff]
          omega
        | exhausted _ ho | unwound _ ho | accepted _ ho => simp [ho.ne]
      rejected := fun _ _ _ hs => hs.eq_of_rejected }

/-- In the first run one of the two slots is occupied. -/
theorem bounded_admission_tiny : BoundedAdmission tinyConfig
    [.takeNext (some (0, 7)), .spawn, .admitJob 7 (.ok ⟨0, 1⟩)]
    ⟨tinyTaken, {⟨.none, .claimed 0 7⟩, ⟨.none, .dispatching 0 (.submitted 0)⟩}⟩ :=
  bounded_admission tinyTaken_run

end RayonExecutor
