import RayonExecutor.Endpoints

/-!
# What a finished task is told

A cancel call that finds its task in the hands of another canceller, or of a stop loop, returns
`Cancelled` at once, without a look at the slot. The owner publishes the cancellation after it has
claimed the task, and retires the task after it has cleaned up, so the result may have been visible
for long by then. A call for a task with a result returns `AlreadyFinished` unless that task is
still being cleaned up (`finished_answer`).
-/

namespace RayonExecutor

open Transition Pool

variable {W : Watch} {E : TaskEndpoint} {C T : Type}

/-! ## Results stay -/

section
variable {cfg : Config} {tr : List (TrackedEvent W C T)} {t t' : Tracked W E C T} {id : ℕ}
  {slot : E.Slot}

/-- The job of a task with a result has been handed over. -/
theorem Agreement.consumed_of_terminal (h : Agreement tr t) (hslot : t.slots id = some slot)
    (hterm : (E.status slot).Terminal) : id ∈ ran (core tr) ∨ id ∈ cancelled (core tr) := by
  have hpub := (h.slots id).terminal slot hslot hterm
  exact ((h.slots id).published _ hpub).imp And.left And.left

/-- No step changes a slot with a result. -/
theorem Tracked.Step.slot_of_terminal (hs : Tracked.Step cfg t e t') (h : Tracked.Run cfg tr t)
    (hslot : t.slots id = some slot) (hterm : (E.status slot).Terminal) :
    t'.slots id = some slot := by
  have ha := Tracked.Run.agreement h
  have hr := Tracked.Run.core h
  have hconsumed := ha.consumed_of_terminal hslot hterm
  by_cases hid : id ∈ e.touches
  · cases hs with
    | @service e s' hs hallow =>
      have hr' := hr.step hs
      simp only [TrackedEvent.touches, Multiset.mem_add] at hid
      rcases hid with ((hid | hid) | hid) | hid
      · obtain ⟨h1, h2, -⟩ := hr.fresh hr' hid
        exact absurd hconsumed (not_or.2 ⟨h1, h2⟩)
      · exact absurd hconsumed
          (not_or.2 (Service.Run.unconsumed id hr' (Multiset.mem_add.2 (Or.inl hid))))
      · exact absurd hconsumed
          (not_or.2 (Service.Run.unconsumed id hr' (Multiset.mem_add.2 (Or.inr hid))))
      · obtain ⟨dispatch, rfl⟩ := Event.exists_finishRunning_of_mem hid
        exact hslot
    | @invoke task_id slot' ht hslot' hstart =>
      obtain rfl := Multiset.mem_singleton.1 hid
      obtain rfl := Option.some.inj (hslot.symm.trans hslot')
      have hne : E.status slot ≠ .pending := hterm.1
      rw [E.start_of_not_pending hne] at hstart
      exact absurd hstart Bool.false_ne_true
    | @publish task_id slot' status ht hslot' hrun hstatus =>
      obtain rfl := Multiset.mem_singleton.1 hid
      obtain rfl := Option.some.inj (hslot.symm.trans hslot')
      exact absurd hrun hterm.2
  · rw [hs.slots_eq h hid, hslot]

end

/-! ## Claimed tasks -/

section
variable {cfg : Config} {tr : List (TrackedEvent W C T)} {t : Tracked W E C T} {id : ℕ}

/-- A task that is being cancelled is not queued. -/
theorem Tracked.Run.cancelPendingTask_of_cancelling (h : Tracked.Run cfg tr t)
    (hc : id ∈ t.service.shared.inner.cancelling) :
    t.service.shared.cancelPendingTask id = (.inProgress, t.service.shared) := by
  have hl := (Tracked.Run.core h).ledger
  have hq : id ∉ t.service.shared.inner.queue.keys := fun hq => (hl.not_mem_of_queued hq).2 hc
  unfold RayonExecutorServiceState.cancelPendingTask
  simp only [OrderedMap.remove_eq_none.2 hq, if_pos hc]

/-- A call for a task that is being cancelled starts, and returns `Cancelled` when its thread acts
next. -/
theorem Tracked.Run.answers_in_progress (h : Tracked.Run cfg tr t) (endpoint : Endpoint)
    (hid : id ∈ t.handles) (hc : id ∈ t.service.shared.inner.cancelling) : ∃ t1,
      Tracked.Step cfg t (.service (.cancelPendingTask endpoint id .inProgress)) t1 ∧
      t1.slots = t.slots ∧ Tracked.Follow cfg
        (t1, {⟨.none, .returning (.cancel endpoint id .cancelled)⟩})
        (true, .service (.returned (.cancel endpoint id .cancelled))) (t, 0) := by
  refine ⟨_, Tracked.step_cancelPendingTask.2
    ⟨_, Tracked.Run.cancelPendingTask_of_cancelling h hc, hid, rfl⟩, rfl, ?_⟩
  refine (Tracked.follow_own_iff rfl).2 ⟨_, _, rfl, ⟨.returning, trivial⟩, ?_⟩
  rw [zero_add]
  rfl

end

/-! ## Finished tasks -/

/-- A step that changes neither the state of the service nor a slot. -/
def Tracked.Unchanged (t t' : Tracked W E C T) : Prop :=
  t'.service.shared = t.service.shared ∧ t'.slots = t.slots

/-- A call of the task's handle, started from this state, returns `AlreadyFinished` and changes
nothing, whatever the others do before it returns. -/
def Tracked.AnswersFinished (cfg : Config) (t : Tracked W E C T) (id : ℕ) : Prop :=
  ∀ disposition t1, Tracked.Step cfg t (.service (.cancelPendingTask .handle id disposition)) t1 →
    t.Unchanged t1 ∧ ∀ es t2 own, Path (Tracked.Follow cfg)
      (t1, {⟨.none, afterClaim .handle id disposition⟩}) es (t2, own) →
    -- it has at most two actions, always one more until it has returned, and they all answer so
    (es.filter Prod.fst).length ≤ 2 ∧
    (own ≠ 0 → ∃ e t3 own', Tracked.Follow cfg (t2, own) (true, e) (t3, own')) ∧
    ∀ e t3 own', Tracked.Follow cfg (t2, own) (true, e) (t3, own') → t2.Unchanged t3 ∧
      ∀ ret, e = .service (.returned ret) → ret = .cancel .handle id .alreadyFinished

section
variable {cfg : Config} {tr : List (TrackedEvent W C T)} {t t' : Tracked W E C T} {id : ℕ}
  {slot : E.Slot} {own own' : Multiset (Thread W (QueuedJob C T))} {mine : Bool}
  {e : TrackedEvent W C T}

/-- The stages of a call whose task is not there any more, with the number of its actions that are
left. -/
inductive FinishedStage (id : ℕ) : ℕ → Multiset (Thread W (QueuedJob C T)) → Prop
  | absent : FinishedStage id 2 {⟨.none, .absent .handle id⟩}
  | returning : FinishedStage id 1 {⟨.none, .returning (.cancel .handle id .alreadyFinished)⟩}
  | returned : FinishedStage id 0 0

/-- Nobody else changes what is left of the call. -/
theorem Tracked.Follow.own_eq (h : Tracked.Follow cfg (t, own) (false, e) (t', own')) :
    own' = own := by
  cases h with
  | service hf _ => exact hf.own_eq
  | runner => rfl

/-- An action of the call is one of its threads'. -/
theorem Tracked.Follow.own_ne (h : Tracked.Follow cfg (t, own) (true, e) (t', own')) :
    own ≠ 0 := by
  cases h with
  | service hf _ => exact hf.own_ne

/-- The threads that are followed are threads of the service. -/
theorem Tracked.Follow.own_le (h : Tracked.Follow cfg (t, own) (mine, e) (t', own'))
    (hown : own ≤ t.service.threads) : own' ≤ t'.service.threads := by
  cases h with
  | service hf _ => exact hf.own_le.2
  | runner hs he =>
    cases hs with
    | service => cases he
    | invoke | publish => exact hown

/-- The next action of a call for a task with a result. -/
theorem FinishedStage.step {n : ℕ} (h : FinishedStage id n own) (hown : own ≤ t.service.threads)
    (hslot : t.slots id = some slot) (hterm : (E.status slot).Terminal)
    (hf : Tracked.Follow cfg (t, own) (true, e) (t', own')) :
    (∃ m, n = m + 1 ∧ FinishedStage id m own') ∧ t.Unchanged t' ∧
      ∀ ret, e = .service (.returned ret) → ret = .cancel .handle id .alreadyFinished := by
  obtain ⟨rest, hrest⟩ := Multiset.le_iff_exists_add.1 hown
  cases h with
  | absent =>
    obtain ⟨ev, st, rfl, ⟨hact, hallow⟩, rfl⟩ := (Tracked.follow_own_iff hrest).1 hf
    cases hact
    obtain ⟨slot', hslot', rfl⟩ := hallow
    obtain rfl := Option.some.inj (hslot.symm.trans hslot')
    rw [cancellationResultForStatus_of_terminal hterm]
    exact ⟨⟨1, rfl, .returning⟩, ⟨rfl, rfl⟩, by simp⟩
  | returning =>
    obtain ⟨ev, st, rfl, ⟨hact, -⟩, rfl⟩ := (Tracked.follow_own_iff hrest).1 hf
    cases hact
    refine ⟨⟨0, rfl, .returned⟩, ⟨rfl, rfl⟩, fun ret hret => ?_⟩
    simpa using hret.symm
  | returned => exact absurd rfl hf.own_ne

/-- A call for a finished task has a next action until it has returned. -/
theorem FinishedStage.exists_step {n : ℕ} (h : FinishedStage id n own)
    (hown : own ≤ t.service.threads) (hslot : t.slots id = some slot) (hne : own ≠ 0) :
    ∃ e t' own', Tracked.Follow cfg (t, own) (true, e) (t', own') := by
  obtain ⟨rest, hrest⟩ := Multiset.le_iff_exists_add.1 hown
  cases h with
  | absent =>
    exact ⟨_, _, _, (Tracked.follow_own_iff hrest).2
      ⟨_, _, rfl, ⟨.status, slot, hslot, rfl⟩, rfl⟩⟩
  | returning =>
    exact ⟨_, _, _, (Tracked.follow_own_iff hrest).2 ⟨_, _, rfl, ⟨.returning, trivial⟩, rfl⟩⟩
  | returned => exact absurd rfl hne

/-- A call for a task with a result goes through its stages, whatever the others do meanwhile. -/
theorem FinishedStage.path {n : ℕ} (h : FinishedStage id n own) (hr : Tracked.Run cfg tr t)
    (hown : own ≤ t.service.threads) (hslot : t.slots id = some slot)
    (hterm : (E.status slot).Terminal) {es : List (Bool × TrackedEvent W C T)}
    (hp : Path (Tracked.Follow cfg) (t, own) es (t', own')) :
    t'.slots id = some slot ∧ own' ≤ t'.service.threads ∧
      ∃ m, (es.filter Prod.fst).length + m = n ∧ FinishedStage id m own' := by
  generalize ha : (t, own) = a at hp
  generalize hb : (t', own') = b at hp
  induction hp generalizing n tr t own with
  | nil =>
    obtain ⟨rfl, rfl⟩ : t = t' ∧ own = own' := by simpa using ha.trans hb.symm
    exact ⟨hslot, hown, n, by simp, h⟩
  | @cons _ e c es _ hf _ ih =>
    subst ha
    obtain ⟨t1, own1⟩ := c
    obtain ⟨mine, e⟩ := e
    have hslot1 := hf.step.slot_of_terminal hr hslot hterm
    cases mine with
    | true =>
      obtain ⟨⟨m, rfl, h1⟩, -, -⟩ := h.step hown hslot hterm hf
      obtain ⟨hs, ho, k, hk, hm⟩ := ih h1 (hr.step hf.step) (hf.own_le hown) hslot1 rfl hb
      refine ⟨hs, ho, k, ?_, hm⟩
      rw [List.filter_cons_of_pos rfl, List.length_cons]
      omega
    | false =>
      obtain rfl := hf.own_eq
      obtain ⟨hs, ho, k, hk, hm⟩ := ih h (hr.step hf.step) (hf.own_le hown) hslot1 rfl hb
      exact ⟨hs, ho, k, by simpa using hk, hm⟩

/-- A task with a result that is not being cleaned up is in no hands but its worker's. -/
theorem Tracked.Run.cancelPendingTask_of_terminal (h : Tracked.Run cfg tr t)
    (hslot : t.slots id = some slot) (hterm : (E.status slot).Terminal)
    (hc : id ∉ t.service.shared.inner.cancelling) :
    t.service.shared.cancelPendingTask id = (.absent, t.service.shared) := by
  have hr := Tracked.Run.core h
  have hq : id ∉ t.service.shared.inner.queue.keys := by
    intro hq
    -- a queued task has not been handed over
    obtain ⟨htaken, hclaim⟩ := hr.queued_fresh hq
    rcases (Tracked.Run.agreement h).consumed_of_terminal hslot hterm with hid | hid
    · exact htaken (hr.taken_of_ran hid)
    · exact hclaim (hr.claimed_of_cancelled hid)
  unfold RayonExecutorServiceState.cancelPendingTask
  simp only [OrderedMap.remove_eq_none.2 hq, if_neg hc]

/-- While a task is being cleaned up, a call for it is answered `Cancelled`. -/
theorem Tracked.Run.not_answersFinished (h : Tracked.Run cfg tr t) (hid : id ∈ t.handles)
    (hc : id ∈ t.service.shared.inner.cancelling) : ¬ t.AnswersFinished cfg id := by
  intro hfin
  obtain ⟨t1, hs, -, hret⟩ := Tracked.Run.answers_in_progress h .handle hid hc
  obtain ⟨-, hpath⟩ := hfin _ _ hs
  obtain ⟨-, -, hans⟩ := hpath [] t1 _ (.nil _)
  have := (hans _ _ _ hret).2 _ rfl
  simp at this

end

/-- A call of the handle for a task with a result returns `AlreadyFinished` and changes nothing if
and only if the task is not being cleaned up. -/
theorem finished_answer {cfg : Config} {tr : List (TrackedEvent W C T)} {t : Tracked W E C T}
    {id : ℕ} {slot : E.Slot} (h : Tracked.Run cfg tr t) (hid : id ∈ t.handles)
    (hslot : t.slots id = some slot) (hterm : (E.status slot).Terminal) :
    t.AnswersFinished cfg id ↔ id ∉ t.service.shared.inner.cancelling := by
  refine ⟨fun hfin hc => Tracked.Run.not_answersFinished h hid hc hfin, fun hc => ?_⟩
  intro disposition t1 hs
  have hr1 := h.step hs
  have hclaim := Tracked.Run.cancelPendingTask_of_terminal h hslot hterm hc
  obtain ⟨st, hd, -, rfl⟩ := Tracked.step_cancelPendingTask.1 hs
  obtain ⟨rfl, rfl⟩ := Prod.mk.inj (hclaim.symm.trans hd)
  refine ⟨⟨rfl, rfl⟩, fun es t2 own hp => ?_⟩
  have hstage : FinishedStage id 2
      ({⟨.none, .absent .handle id⟩} : Multiset (Thread W (QueuedJob C T))) := .absent
  obtain ⟨hslot2, hown2, m, hm, hstage2⟩ :=
    hstage.path hr1 (Multiset.le_add_right _ _) hslot hterm hp
  refine ⟨by omega, hstage2.exists_step hown2 hslot2, fun e t3 own' hf => ?_⟩
  exact (hstage2.step hown2 hslot2 hterm hf).2

/-- A call for a task that its worker has not retired yet is answered by the result. -/
theorem finished_answer_tiny : tinyPublished.AnswersFinished tinyConfig 0 ↔
    0 ∉ tinyPublished.service.shared.inner.cancelling :=
  finished_answer tinyPublished_run (Finset.mem_singleton_self 0) rfl (by decide)

/-- The handle of a cancelled task is answered `Cancelled` while the call that has cancelled the
task through the cancellation handle is still destroying the captured values. -/
theorem finished_answered_cancelled :
    Tracked.Run tinyConfig
      [.service (.returned (.cancel .handle 0 .cancelled)),
        .service (.cancelPendingTask .handle 0 .inProgress), .service (.cancel 0 (.callable 7)),
        .service (.cancelPendingTask .cancellationHandle 0 (.owned (.callable 7))),
        .service (.returned (.submitted 0)), .service .spawn,
        .service (.admitJob (.callable 7) (.ok ⟨0, 1⟩))]
      (⟨⟨tinyClaimed, {⟨.none, .cancelling 0 [] (.cancel .cancellationHandle 0 .cancelled)⟩,
        ⟨.none, .closure⟩}⟩, tinySlots, {0}⟩ : Tracked Watch.versioned .plain ℕ ℕ) ∧
    tinySlots 0 = some .cancelled ∧ TaskStatus.cancelled.Terminal ∧
    ¬ (⟨⟨tinyClaimed, {⟨.none, .cancelling 0 [] (.cancel .cancellationHandle 0 .cancelled)⟩,
      ⟨.none, .closure⟩}⟩, tinySlots, {0}⟩ : Tracked Watch.versioned .plain ℕ ℕ).AnswersFinished
        tinyConfig 0 := by
  have hid : (0 : ℕ) ∈ ({0} : Finset ℕ) := Finset.mem_singleton_self 0
  have hc : 0 ∈ tinyClaimed.inner.cancelling := by decide
  obtain ⟨t1, hs, -, hret⟩ := Tracked.Run.answers_in_progress tinyClaimed_run .handle hid hc
  exact ⟨.step (.step tinyClaimed_run hs) hret.step, rfl, by decide,
    Tracked.Run.not_answersFinished tinyClaimed_run hid hc⟩

end RayonExecutor
