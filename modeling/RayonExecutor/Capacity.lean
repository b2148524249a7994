import RayonExecutor.Admission
import RayonExecutor.Progress
import RayonExecutor.World

/-!
# Retrying producers

A producer subscribes to the capacity generation before it submits. When the submission is saturated
it awaits a change. The four operations that free a slot or leave `Running` (`Event.Frees`) all owe
a publication when they release the lock, and a publication is unseen by every producer that has
subscribed. So a producer that awaits a change has one to see, or will have one, or nothing has been
freed since it was turned away (`Observer.Waits`).
-/

namespace RayonExecutor

open Transition Pool

variable {W : Watch} {J : Type}

/-! ## What the service owes to the capacity channel -/

/-- The operations that can free a slot or leave `Running`. -/
def Event.Frees : Event W J → Prop
  | .finishRunning _ _ | .finishCancelling _ | .shutdown | .stop _ _ => True
  | _ => False

/-- Some operation has a publication of the capacity generation to make. -/
def CapacityOwed (ts : Multiset (Thread W J)) : Prop := ∃ t ∈ ts, t.changes.capacity_changed = true

/-- An operation that can free a slot owes the publication. -/
theorem Service.Step.owes_capacity {cfg : Config} {s s' : Service W J} {e : Event W J}
    (h : Service.Step cfg s e s') (he : e.Frees) : CapacityOwed s'.threads := by
  rcases h with hc | ⟨⟨ha⟩⟩
  · cases hc with
    | shutdown hs =>
      obtain ⟨_, _, -, -, rfl, -⟩ := RayonExecutorServiceState.shutdown_cases hs
      exact ⟨_, Multiset.mem_add.2 (Or.inl (Multiset.mem_singleton_self _)), rfl⟩
    | stop hs =>
      obtain ⟨_, _, -, -, -, -, rfl, -⟩ := RayonExecutorServiceState.stop_cases hs
      exact ⟨_, Multiset.mem_add.2 (Or.inl (Multiset.mem_singleton_self _)), rfl⟩
    | _ => exact absurd he id
  · cases ha with
    | finishRunning hs =>
      obtain ⟨_, _, -, -, rfl, -⟩ := RayonExecutorServiceState.finishRunning_cases hs
      exact ⟨_, Multiset.mem_add.2 (Or.inl (Multiset.mem_singleton_self _)), rfl⟩
    | finishCancelling hs =>
      obtain ⟨_, -, rfl, -⟩ := RayonExecutorServiceState.finishCancelling_cases hs
      exact ⟨_, Multiset.mem_add.2 (Or.inl (Multiset.mem_singleton_self _)), rfl⟩
    | _ => exact absurd he id

/-- Only these operations free a slot. -/
theorem Service.Step.frees_of_lt {cfg : Config} {tr : List (Event W J)} {s s' : Service W J}
    {e : Event W J} (hr : Service.Run cfg tr s) (h : Service.Step cfg s e s')
    (hlt : s'.shared.inner.occupied < s.shared.inner.occupied) : e.Frees := by
  have hr' : Service.Run cfg (e :: tr) s' := hr.step h
  have hold := hr.ledger.card_accepted
  have hnew := hr'.ledger.card_accepted
  simp only [accepted_cons, tally_cons, Multiset.card_add, Multiset.card_map] at hnew
  -- the accepted tasks do not get fewer, so one more of them is finished
  have hfinished : e.finishesRun.card + e.finishesCancel.card ≠ 0 := by omega
  cases e <;> trivial

/-- Only these operations free a slot or leave `Running`. -/
theorem Service.Step.frees {cfg : Config} {tr : List (Event W J)} {s s' : Service W J}
    {e : Event W J} (hr : Service.Run cfg tr s) (h : Service.Step cfg s e s')
    (hf : s'.shared.inner.occupied < s.shared.inner.occupied ∨
      s.shared.inner.lifecycle = .running ∧ s'.shared.inner.lifecycle ≠ .running) : e.Frees := by
  rcases hf with hlt | ⟨hl, hl'⟩
  · exact h.frees_of_lt hr hlt
  · have hc := h.closes hl hl'
    cases e <;> trivial

/-- An action publishes the generation that its thread owes, or leaves the capacity channel and
what is owed alone. -/
theorem Action.capacity_tx {t : Thread W J} {st st' : RayonExecutorServiceState W J}
    {e : Event W J} {new : Multiset (Thread W J)} (h : Action t st e st' new) :
    st'.capacity_tx = W.sendModify st.capacity_tx (fun generation => (generation + 1) % 2^64) ∨
      st'.capacity_tx = st.capacity_tx ∧ t.changes.capacity_changed = false := by
  rcases h.frame_or_publish with ⟨hnone, hf⟩ | ⟨-, -, rfl⟩ | ⟨hchanges, -, rfl⟩
  · exact Or.inr ⟨hf.capacity_tx, hnone ▸ rfl⟩
  · exact Or.inl rfl
  · exact Or.inr ⟨rfl, hchanges ▸ rfl⟩

/-- A step either makes a publication, or leaves the capacity channel alone and owes what was
owed. -/
theorem Service.Step.capacity_tx {cfg : Config} {s s' : Service W J} {e : Event W J}
    (h : Service.Step cfg s e s') :
    s'.shared.capacity_tx =
        W.sendModify s.shared.capacity_tx (fun generation => (generation + 1) % 2^64) ∨
      s'.shared.capacity_tx = s.shared.capacity_tx ∧
        (CapacityOwed s.threads → CapacityOwed s'.threads) := by
  rcases h with hc | ⟨⟨ha⟩⟩
  · refine Or.inr ⟨hc.frame.capacity_tx, ?_⟩
    rintro ⟨t, ht, howed⟩
    exact ⟨t, Multiset.mem_add.2 (Or.inr ht), howed⟩
  · refine ha.capacity_tx.imp_right fun ⟨htx, hnot⟩ => ⟨htx, ?_⟩
    rintro ⟨t, ht, howed⟩
    rcases Multiset.mem_cons.1 ht with rfl | ht
    · rw [hnot] at howed
      contradiction
    · exact ⟨t, Multiset.mem_add.2 (Or.inr ht), howed⟩

/-! ## Producers -/

/-- The service runs and has no free slot. -/
def RayonExecutorServiceInner.Full (inner : RayonExecutorServiceInner J) : Prop :=
  inner.lifecycle = .running ∧ inner.occupied = inner.task_capacity

/-- The step number `attempt` was a saturated submission, and no operation after it has freed a
slot or left `Running`. -/
def QuietSince (attempt : ℕ) (tr : List (Event W J)) : Prop :=
  ∃ later earlier job, tr = later ++ .admitJob job (.err .saturated) :: earlier ∧
    earlier.length = attempt ∧ ∀ e ∈ later, ¬ e.Frees

/-- A full service stays full over a step that frees nothing. -/
theorem Service.Step.full {cfg : Config} {tr : List (Event W J)} {s s' : Service W J}
    {e : Event W J} (hr : Service.Run cfg tr s) (h : Service.Step cfg s e s') (he : ¬ e.Frees)
    (hfull : s.shared.inner.Full) : s'.shared.inner.Full := by
  have hr' : Service.Run cfg (e :: tr) s' := hr.step h
  obtain ⟨hge, hrunning⟩ := not_or.1 fun hf => he (h.frees hr hf)
  -- the occupied slots do not get fewer, and cannot get more
  have hle := hr'.occupied_le
  obtain ⟨hl, hocc⟩ := hfull
  refine ⟨by_contra fun hl' => hrunning ⟨hl, hl'⟩, le_antisymm ?_ ?_⟩
  · rw [hr'.config.1]
    exact hle
  · rw [hr'.config.1, ← hr.config.1, ← hocc]
    exact not_lt.1 hge

/-- A producer's receiver belongs to the channel. While it awaits a change, there is one to see, one
is owed, or the service has been full ever since its attempt. -/
def Observer.Waits (tr : List (Event W J)) (s : Service W J) : Observer W → Prop
  | .submitting r => W.Issued s.shared.capacity_tx r
  | .saturated r attempt => W.Issued s.shared.capacity_tx r ∧
      (W.hasChanged s.shared.capacity_tx r = true ∨ CapacityOwed s.threads ∨
        s.shared.inner.Full ∧ QuietSince attempt tr)
  | _ => True

/-- No step of the service puts a producer in the wrong. -/
theorem Observer.Waits.step {cfg : Config} {tr : List (Event W J)} {s s' : Service W J}
    {e : Event W J} (hr : Service.Run cfg tr s) (h : Service.Step cfg s e s') {o : Observer W}
    (ho : o.Waits tr s) : o.Waits (e :: tr) s' := by
  have hissued : ∀ r, W.Issued s.shared.capacity_tx r → W.Issued s'.shared.capacity_tx r := by
    intro r hi
    rcases h.capacity_tx with htx | ⟨htx, -⟩
    · rw [htx]
      exact Watch.issued_sendModify _ hi
    · rw [htx]
      exact hi
  cases o with
  | submitting r => exact hissued r ho
  | saturated r attempt =>
    obtain ⟨hi, hwait⟩ := ho
    refine ⟨hissued r hi, ?_⟩
    rcases h.capacity_tx with htx | ⟨htx, howed⟩
    · -- every publication is unseen by this receiver
      left
      rw [htx]
      exact Watch.hasChanged_sendModify _ hi
    · rw [htx]
      rcases hwait with hchanged | howed' | ⟨hfull, later, earlier, job, rfl, hlen, hquiet⟩
      · exact Or.inl hchanged
      · exact Or.inr (Or.inl (howed howed'))
      · right
        by_cases he : e.Frees
        · exact Or.inl (h.owes_capacity he)
        · refine Or.inr ⟨h.full hr he hfull, e :: later, earlier, job, rfl, hlen, ?_⟩
          exact List.forall_mem_cons.2 ⟨he, hquiet⟩
  | _ => trivial

/-- A submission is saturated in a full service, and changes nothing. -/
theorem Service.Step.full_of_saturated {cfg : Config} {tr : List (Event W J)} {s s' : Service W J}
    {job : J} (hr : Service.Run cfg tr s)
    (h : Service.Step cfg s (.admitJob job (.err .saturated)) s') : s.shared.inner.Full := by
  have hle := hr.occupied_le
  have hcap := hr.config.1
  rcases h with hc | ⟨⟨ha⟩⟩
  · cases hc with
    | admitJob ha =>
      cases RayonExecutorServiceState.admitJob_cases ha with
      | saturated hl ho => exact ⟨hl, le_antisymm (hcap ▸ hle) ho⟩
  · cases ha

/-- A step of the service seen by all observers. -/
theorem Observer.Waits.service {cfg : Config} {tr : List (WorldEvent W J)} {x : Observed W J}
    {e : Event W J} {s' : Service W J} (hr : Service.Run cfg (inside tr) x.service)
    (h : Service.Step cfg x.service e s') {o : Observer W} (ho : o.Waits (inside tr) x.service) :
    o.Waits (inside (.service e :: tr)) s' := ho.step hr h

/-- A receiver subscribed by the query belongs to the channel. -/
theorem Service.Step.issued_capacityChanges {cfg : Config} {s s' : Service W J}
    {r : W.Receiver ℕ} (h : Service.Step cfg s (.capacityChanges r) s') :
    W.Issued s'.shared.capacity_tx r := by
  rcases h with hc | ⟨⟨ha⟩⟩
  · cases hc
    exact W.issued_subscribe _
  · cases ha

/-- Every arrival leaves the producers in the right. -/
theorem Arrival.waits {cfg : Config} {tr : List (WorldEvent W J)} {x y : Observed W J}
    {e : WorldEvent W J} {new : Multiset (Observer W)}
    (hr : Service.Run cfg (inside tr) x.service) (h : Arrival cfg x e y new) :
    (∀ o : Observer W, o.Waits (inside tr) x.service → o.Waits (inside (e :: tr)) y.service) ∧
      ∀ o ∈ new, o.Waits (inside (e :: tr)) y.service := by
  cases h with
  | service hs => exact ⟨fun o ho => ho.service hr hs, by simp⟩
  | awaitTermination hs => exact ⟨fun o ho => ho.service hr hs, by simp [Observer.Waits]⟩
  | capacityChanges hs =>
    refine ⟨fun o ho => ho.service hr hs, fun o ho => ?_⟩
    obtain rfl := Multiset.mem_singleton.1 ho
    exact hs.issued_capacityChanges
  | tick | wait => exact ⟨fun o ho => ho, by simp [Observer.Waits]⟩

/-- Everything that an observer does leaves the producers in the right. -/
theorem Observation.waits {cfg : Config} {tr : List (WorldEvent W J)} {o : Observer W}
    {x y : Observed W J} {e : WorldEvent W J} {new : Multiset (Observer W)}
    (hr : Service.Run cfg (inside tr) x.service) (hsteps : x.steps = (inside tr).length)
    (ho : o.Waits (inside tr) x.service) (h : Observation cfg o x e y new) :
    (∀ u : Observer W, u.Waits (inside tr) x.service → u.Waits (inside (e :: tr)) y.service) ∧
      ∀ u ∈ new, u.Waits (inside (e :: tr)) y.service := by
  cases h with
  | @submit _ r job outcome s' hs =>
    refine ⟨fun u hu => hu.service hr hs, fun u hu => ?_⟩
    obtain ⟨rfl, rfl⟩ := mem_afterAttempt hu
    obtain rfl := hs.eq_of_rejected
    -- the attempt is the last step, so nothing has happened since
    exact ⟨ho, Or.inr (Or.inr
      ⟨hs.full_of_saturated hr, [], inside tr, job, rfl, hsteps.symm, by simp⟩)⟩
  | changed =>
    refine ⟨fun u hu => hu, fun u hu => ?_⟩
    obtain rfl := Multiset.mem_singleton.1 hu
    exact W.issued_markUnchanged ho.1
  | poll =>
    refine ⟨fun u hu => hu, ?_⟩
    split_ifs <;> simp [Observer.Waits]
  | _ => exact ⟨fun u hu => hu, by simp [Observer.Waits]⟩

/-- Every producer of a reachable state is in the right. -/
theorem World.Run.waits {cfg : Config} {tr : List (WorldEvent W J)} {w : World W J}
    (h : World.Run cfg tr w) : ∀ o ∈ w.threads, o.Waits (inside tr) w.shared.service :=
  Pool.local_invariant (L := fun tr x o => o.Waits (inside tr) x.service)
    (fun hr ha => ⟨fun o _ => (ha.waits (World.Run.service hr)).1 o,
      (ha.waits (World.Run.service hr)).2⟩)
    (fun hr ho ha =>
      have hw := ha.waits (World.Run.service hr) (World.Run.steps hr) ho
      ⟨fun u _ => hw.1 u, hw.2⟩) h

/-! ## No missed capacity change -/

/-- No producer misses a capacity change, after the history `tr` and in the state `w`. -/
structure NoMissedChange (cfg : Config) (tr : List (WorldEvent W J)) (w : World W J) : Prop where
  /-- If a producer awaits a change after a saturated submission, has none to see, and no operation
  has one to publish, then nothing has been freed since that submission: the service runs and has no
  free slot. -/
  saturated : ∀ r attempt, .saturated r attempt ∈ w.threads →
    W.hasChanged w.shared.service.shared.capacity_tx r = false →
    ¬ CapacityOwed w.shared.service.threads →
    w.shared.inner.lifecycle = .running ∧ w.shared.inner.occupied = cfg.task_capacity ∧
      QuietSince attempt (inside tr)
  /-- A step that frees a slot or leaves `Running` leaves a publication to make. -/
  owed : ∀ e w', World.Step cfg w e w' →
    (w'.shared.inner.occupied < w.shared.inner.occupied ∨
      w.shared.inner.lifecycle = .running ∧ w'.shared.inner.lifecycle ≠ .running) →
    CapacityOwed w'.shared.service.threads
  /-- What is owed stays owed, until a publication gives every producer a change to see. -/
  published : ∀ e w', World.Step cfg w e w' → CapacityOwed w.shared.service.threads →
    CapacityOwed w'.shared.service.threads ∨
      ∀ r, .submitting r ∈ w.threads ∨ (∃ attempt, .saturated r attempt ∈ w.threads) →
        W.hasChanged w'.shared.service.shared.capacity_tx r = true

/-- No producer misses a capacity change in any reachable state. -/
theorem no_missed_change {cfg : Config} {tr : List (WorldEvent W J)} {w : World W J}
    (h : World.Run cfg tr w) : NoMissedChange cfg tr w where
  saturated r attempt hm hchanged howed := by
    obtain ⟨-, hwait⟩ := World.Run.waits h _ hm
    rcases hwait with hc | hc | ⟨⟨hl, hocc⟩, hquiet⟩
    · rw [hc] at hchanged
      contradiction
    · exact absurd hc howed
    · exact ⟨hl, hocc.trans (World.Run.service h).config.1, hquiet⟩
  owed e w' hs hf := by
    rcases World.Step.service_step hs with ⟨e', rfl, hstep⟩ | ⟨-, heq⟩
    · exact hstep.owes_capacity (hstep.frees (World.Run.service h) hf)
    · unfold Observed.inner at hf
      rw [heq] at hf
      rcases hf with hlt | ⟨hl, hl'⟩
      · exact absurd hlt (lt_irrefl _)
      · exact absurd hl hl'
  published e w' hs howed := by
    rcases World.Step.service_step hs with ⟨e', rfl, hstep⟩ | ⟨-, heq⟩
    · rcases hstep.capacity_tx with htx | ⟨-, hkeep⟩
      · refine Or.inr fun r hm => ?_
        rw [htx]
        refine Watch.hasChanged_sendModify _ ?_
        rcases hm with hm | ⟨attempt, hm⟩
        · exact World.Run.waits h _ hm
        · exact (World.Run.waits h _ hm).1
      · exact Or.inl (hkeep howed)
    · rw [heq]
      exact Or.inl howed

/-! ## A run with a saturated producer -/

/-- A service with room for one task. -/
def oneSlot : Config := { tinyConfig with task_capacity := 1, task_capacity_lt := by decide }

/-- The state of the service with one slot after it has accepted a job. -/
def oneSlotFull : RayonExecutorServiceState Watch.versioned ℕ :=
  ((RayonExecutorServiceState.new Watch.versioned ℕ 1 1).admitJob 64 .returned 7).2

/-- The slot is taken, a producer subscribes, and its submission is saturated. -/
theorem oneSlotFull_run : World.Run oneSlot
    [.service (.admitJob 8 (.err .saturated)), .service (.capacityChanges (0 : ℕ)),
      .service (.admitJob 7 (.ok ⟨0, 1⟩))]
    ⟨⟨⟨oneSlotFull, {⟨.none, .dispatching 1 (.submitted 0)⟩}⟩, 0, 3⟩,
      {(.saturated (0 : ℕ) 2 : Observer Watch.versioned)}⟩ := by
  have ha : (RayonExecutorServiceState.new Watch.versioned ℕ 1 1).admitJob 64 .returned 7 =
      (.ok ⟨0, 1⟩, oneSlotFull) := rfl
  have hsat : oneSlotFull.admitJob 64 .returned 8 = (.err .saturated, oneSlotFull) := rfl
  have h1 : World.Run oneSlot [.service (.admitJob 7 (.ok ⟨0, 1⟩))]
      (⟨⟨⟨oneSlotFull, {⟨.none, .dispatching 1 (.submitted 0)⟩}⟩, 0, 1⟩, 0⟩ :
        World Watch.versioned ℕ) :=
    .step .init (.quick (.service (.first (.admitJob ha))))
  have h2 : World.Run oneSlot
      [.service (.capacityChanges (0 : ℕ)), .service (.admitJob 7 (.ok ⟨0, 1⟩))]
      (⟨⟨⟨oneSlotFull, {⟨.none, .dispatching 1 (.submitted 0)⟩}⟩, 0, 2⟩,
        {.submitting (0 : ℕ)}⟩ : World Watch.versioned ℕ) :=
    .step h1 (.first (.capacityChanges (.quick .capacityChanges)))
  exact .step h2 (.act (.of_eq (.submit (.quick (.admitJob hsat))) rfl rfl))

/-- In that run nothing has been freed since the producer was turned away. -/
theorem no_missed_change_tiny : NoMissedChange oneSlot
    [.service (.admitJob 8 (.err .saturated)), .service (.capacityChanges (0 : ℕ)),
      .service (.admitJob 7 (.ok ⟨0, 1⟩))]
    ⟨⟨⟨oneSlotFull, {⟨.none, .dispatching 1 (.submitted 0)⟩}⟩, 0, 3⟩,
      {(.saturated (0 : ℕ) 2 : Observer Watch.versioned)}⟩ := no_missed_change oneSlotFull_run

end RayonExecutor
