import RayonExecutor.Answers
import RayonExecutor.Delivery

/-!
# Successive answers

Cancel calls for one task that do not overlap, among any others. They are answered `Cancelled` if
the task was claimed, or `AlreadyRunning` if it was taken, until one is answered `AlreadyFinished`.
At that moment the task is in nobody's hands, unless in those of a worker that has published its
result and has not retired it (`Return.Over`). So later calls are answered `AlreadyFinished` too,
with one exception: for a task in those hands the cancellation handle, which asks for the running
tasks first, can take back what the handle has said (`successive_answers`).
-/

namespace RayonExecutor

open Transition Pool

variable {W : Watch} {E : TaskEndpoint} {C T J : Type}

/-! ## What is over -/

/-- The task was taken, or its cancellation is over. -/
def Gone (tr : List (Event W J)) (id : ℕ) : Prop :=
  id ∈ taken tr ∨ id ∈ tally Event.finishesCancel tr

section
variable {cfg : Config} {tr : List (Event W J)} {s : Service W J} {id : ℕ}

/-- A retired task is gone. -/
theorem Service.Run.gone_of_retired (h : Service.Run cfg tr s) (hid : Retired tr id) :
    Gone tr id := by
  refine hid.imp_left fun hid => ?_
  rw [taken, h.takes_eq]
  exact Multiset.mem_add.2 (.inr hid)

/-- A task that is gone is running or retired. -/
theorem Service.Run.running_or_retired (h : Service.Run cfg tr s) (hid : Gone tr id) :
    id ∈ s.shared.inner.running_tasks ∨ Retired tr id := by
  rcases hid with htaken | hfinished
  · rw [taken, h.takes_eq] at htaken
    exact (Multiset.mem_add.1 htaken).imp_right .inl
  · exact .inr (.inr hfinished)

end

/-- What is gone stays so. -/
theorem Gone.cons {id : ℕ} {tr : List (TrackedEvent W C T)} (h : Gone (core tr) id)
    (e : TrackedEvent W C T) : Gone (core (e :: tr)) id :=
  h.imp (mem_fst_core_cons e) (mem_tally_core_cons e)

/-- What stands behind an `AlreadyFinished` besides a result: for the handle the task is gone, for
the cancellation handle it is retired. -/
def Return.Over (tr : List (TrackedEvent W C T)) : Return W → Prop
  | .cancel .handle task_id .alreadyFinished => Gone (core tr) task_id
  | .cancel .cancellationHandle task_id .alreadyFinished => Retired (core tr) task_id
  | _ => True

/-- What stands behind the answer that a thread is about to give. -/
def Control.Over (tr : List (TrackedEvent W C T)) : Control W (QueuedJob C T) → Prop
  | .dispatching _ ret | .cleanup _ ret | .cancelling _ _ ret | .returning ret => ret.Over tr
  | _ => True

section
variable {cfg : Config} {tr : List (TrackedEvent W C T)} {t t' : Tracked W E C T}
  {e : Event W (QueuedJob C T)} {st st' : RayonExecutorServiceState W (QueuedJob C T)}
  {new : Multiset (Thread W (QueuedJob C T))} {id : ℕ}

/-- What stands behind an answer stays, whatever happens later. -/
theorem Return.Over.cons {ret : Return W} (h : ret.Over tr) (e : TrackedEvent W C T) :
    ret.Over (e :: tr) := by
  rcases ret with _ | _ | ⟨_ | _, _, _ | _ | _⟩ | _ | _ | _
  case cancel.handle.alreadyFinished => exact Gone.cons h e
  case cancel.cancellationHandle.alreadyFinished => exact Retired.cons h
  all_goals trivial

/-- What stands behind the answer of a thread stays, whatever happens later. -/
theorem Control.Over.cons {control : Control W (QueuedJob C T)} (h : control.Over tr)
    (e : TrackedEvent W C T) : control.Over (e :: tr) := by
  cases control
  case dispatching | cleanup | cancelling | returning => exact Return.Over.cons h e
  all_goals trivial

/-- A started operation has no `AlreadyFinished` to give yet. -/
theorem Call.over {bits : ℕ} (hc : Call bits st e st' new) (tr : List (TrackedEvent W C T)) :
    ∀ u ∈ new, u.control.Over tr := by
  cases hc with
  | @admitJob _ _ _ outcome =>
    cases outcome <;> simp [Control.Over, Return.Over]
  | @cancel _ endpoint _ disposition =>
    cases disposition <;> cases endpoint <;> simp [Control.Over, Return.Over]
  | _ => simp [Control.Over, Return.Over]

/-- An action finds an `AlreadyFinished` for a task that is over. -/
theorem Action.over {th : Thread W (QueuedJob C T)} (ha : Action th st e st' new)
    (hj : th.control.Justified tr) (h : th.control.Over tr) : ∀ u ∈ new, u.control.Over tr := by
  cases ha with
  | @status _ task_id status =>
    simp only [Multiset.mem_singleton, forall_eq]
    cases status <;> first | exact trivial | exact hj.2
  | @isRunningTask _ task_id =>
    simp only [Multiset.mem_singleton, forall_eq]
    split_ifs <;> trivial
  | @fallback _ task_id result =>
    simp only [Multiset.mem_singleton, forall_eq]
    cases result <;> first | exact trivial | exact hj.2
  | spawn =>
    simp only [Multiset.insert_eq_cons, Multiset.mem_cons, Multiset.mem_singleton,
      forall_eq_or_imp, forall_eq]
    exact ⟨h, trivial⟩
  | @takeNext _ _ taken => cases taken <;> simp [Control.Over, Return.Over]
  | publishCapacity | publishTermination | cancel | finishCancelling =>
    simp only [Multiset.mem_singleton, forall_eq]
    exact h
  | _ => simp [Control.Over, Return.Over]

/-- Every thread that is about to answer `AlreadyFinished` does so for a task that is over. -/
theorem Tracked.Run.over (h : Tracked.Run cfg tr t) :
    ∀ th ∈ t.service.threads, th.control.Over tr := by
  refine h.invariant (P := fun tr t => ∀ th ∈ t.service.threads, th.control.Over tr)
    (by simp [Tracked.init]) ?_
  intro tr t e t' hr ih hs
  cases hs with
  | @service e s' hs _ =>
    have hj := (Tracked.Run.agreement hr).threads
    intro th hth
    refine Control.Over.cons ?_ _
    obtain ⟨⟨shared, threads⟩, slots, handles⟩ := t
    rcases hs with hc | ⟨⟨hact⟩⟩
    · rcases Multiset.mem_add.1 hth with hth | hth
      · exact hc.over tr th hth
      · exact ih th hth
    · rcases Multiset.mem_add.1 hth with hth | hth
      · exact hact.over (hj _ (Multiset.mem_cons_self _ _)) (ih _ (Multiset.mem_cons_self _ _))
          th hth
      · exact ih th (Multiset.mem_cons_of_mem hth)
  | invoke | publish => exact fun th hth => (ih th hth).cons _

/-- Every call that has returned has its task gone or retired behind its answer. -/
theorem Tracked.Run.returned_over {ret : Return W} (h : Tracked.Run cfg tr t)
    (hm : .service (.returned ret) ∈ tr) : ret.Over tr := by
  revert hm
  refine h.invariant (P := fun tr _ => .service (.returned ret) ∈ tr → ret.Over tr)
    (fun hm => absurd hm List.not_mem_nil) ?_
  intro tr t e t' hr ih hs hm
  refine Return.Over.cons ?_ _
  rcases List.mem_cons.1 hm with rfl | hm
  · have hover := Tracked.Run.over hr
    obtain ⟨⟨shared, threads⟩, slots, handles⟩ := t
    cases hs with
    | service hs _ =>
      rcases hs with hc | ⟨⟨hact⟩⟩
      · cases hc
      · have hth := hover _ (Multiset.mem_cons_self _ _)
        cases hact <;> exact hth
  · exact ih hm

/-- A call for a task that is gone finds it absent. -/
theorem Gone.absent (hid : Gone (core tr) id) (h : Tracked.Run cfg tr t) :
    t.service.shared.cancelPendingTask id = (.absent, t.service.shared) := by
  rcases h.core.running_or_retired hid with hrun | hretired
  · exact Tracked.Run.cancelPendingTask_of_running h hrun
  · obtain ⟨hq, -, hc⟩ := h.core.not_held hretired
    unfold RayonExecutorServiceState.cancelPendingTask
    simp only [OrderedMap.remove_eq_none.2 hq, if_neg hc]

end

/-! ## One call after another -/

/-- A call through the endpoint that starts in this state can give the answer, in some order of what
it does and what the others do. -/
def Tracked.MayAnswer (cfg : Config) (t : Tracked W E C T) (endpoint : Endpoint) (id : ℕ)
    (result : CancelResult) : Prop :=
  ∃ disposition t1 es t2 own t3,
    Tracked.Step cfg t (.service (.cancelPendingTask endpoint id disposition)) t1 ∧
    Path (Tracked.Follow cfg) (t1, {⟨.none, afterClaim endpoint id disposition⟩}) es (t2, own) ∧
    Tracked.Follow cfg (t2, own) (true, .service (.returned (.cancel endpoint id result))) (t3, 0)

/-- The answers of a call that has found its task absent when the history was `tr`. -/
def LateAnswer (tr : List (TrackedEvent W C T)) (endpoint : Endpoint) (id : ℕ) :
    CancelResult → Prop
  | .alreadyFinished => True
  | .alreadyRunning => endpoint = .cancellationHandle ∧ ¬ Retired (core tr) id
  | .cancelled => False

/-- The stages of a call that starts when its task has a result. -/
inductive LateStage (tr : List (TrackedEvent W C T)) (endpoint : Endpoint) (id : ℕ) :
    Multiset (Thread W (QueuedJob C T)) → Prop
  | absent : LateStage tr endpoint id {⟨.none, .absent endpoint id⟩}
  | fallback (h : endpoint = .cancellationHandle) : LateStage tr endpoint id {⟨.none, .fallback id⟩}
  | returning {result : CancelResult} (h : LateAnswer tr endpoint id result) :
      LateStage tr endpoint id {⟨.none, .returning (.cancel endpoint id result)⟩}
  | returned : LateStage tr endpoint id 0

section
variable {cfg : Config} {tr tr' : List (TrackedEvent W C T)} {t t' : Tracked W E C T} {id : ℕ}
  {slot : E.Slot} {own own' : Multiset (Thread W (QueuedJob C T))} {endpoint : Endpoint}
  {e : TrackedEvent W C T}

/-- The next action of a late call, for a task with a result. -/
theorem LateStage.step (h : LateStage tr endpoint id own) (hr : Tracked.Run cfg tr' t)
    (hlater : Retired (core tr) id → Retired (core tr') id) (hown : own ≤ t.service.threads)
    (hslot : t.slots id = some slot) (hterm : (E.status slot).Terminal)
    (hf : Tracked.Follow cfg (t, own) (true, e) (t', own')) :
    LateStage tr endpoint id own' ∧ ∀ ret, e = .service (.returned ret) →
      ∃ result, ret = .cancel endpoint id result ∧ LateAnswer tr endpoint id result := by
  obtain ⟨rest, hrest⟩ := Multiset.le_iff_exists_add.1 hown
  cases h with
  | absent =>
    obtain ⟨ev, st, rfl, ⟨hact, hallow⟩, rfl⟩ := (Tracked.follow_own_iff hrest).1 hf
    cases hact with
    | status =>
      obtain ⟨slot', hslot', rfl⟩ := hallow
      obtain rfl := Option.some.inj (hslot.symm.trans hslot')
      rw [cancellationResultForStatus_of_terminal hterm]
      exact ⟨.returning trivial, by simp⟩
    | isRunningTask =>
      refine ⟨?_, by simp⟩
      split_ifs with hrun
      · -- a running task has not been retired, so it had not been before
        have hmem : id ∈ t.service.shared.inner.running_tasks := of_decide_eq_true hrun
        exact .returning ⟨rfl, fun hretired => (hr.core.not_held (hlater hretired)).2.1 hmem⟩
      · exact .fallback rfl
  | fallback hendpoint =>
    obtain ⟨ev, st, rfl, ⟨hact, hallow⟩, rfl⟩ := (Tracked.follow_own_iff hrest).1 hf
    cases hact
    obtain ⟨slot', hslot', rfl⟩ := hallow
    obtain rfl := Option.some.inj (hslot.symm.trans hslot')
    rw [E.cancel_of_terminal hterm]
    subst hendpoint
    exact ⟨.returning trivial, by simp⟩
  | returning hresult =>
    obtain ⟨ev, st, rfl, ⟨hact, -⟩, rfl⟩ := (Tracked.follow_own_iff hrest).1 hf
    cases hact
    refine ⟨.returned, fun ret hret => ⟨_, ?_, hresult⟩⟩
    simpa using hret.symm
  | returned => exact absurd rfl hf.own_ne

/-- A late call goes through its stages, whatever the others do meanwhile. -/
theorem LateStage.path (h : LateStage tr endpoint id own) (hr : Tracked.Run cfg tr' t)
    (hlater : Retired (core tr) id → Retired (core tr') id) (hown : own ≤ t.service.threads)
    (hslot : t.slots id = some slot) (hterm : (E.status slot).Terminal)
    {es : List (Bool × TrackedEvent W C T)}
    (hp : Path (Tracked.Follow cfg) (t, own) es (t', own'))
    {result : CancelResult} {t3 : Tracked W E C T}
    (hf : Tracked.Follow cfg (t', own') (true, .service (.returned (.cancel endpoint id result)))
      (t3, 0)) : LateAnswer tr endpoint id result := by
  generalize ha : (t, own) = a at hp
  generalize hb : (t', own') = b at hp
  induction hp generalizing tr' t own with
  | nil =>
    obtain ⟨rfl, rfl⟩ : t = t' ∧ own = own' := by simpa using ha.trans hb.symm
    obtain ⟨result', hret, hresult⟩ := (h.step hr hlater hown hslot hterm hf).2 _ rfl
    obtain ⟨-, -, rfl⟩ := Return.cancel.inj hret
    exact hresult
  | @cons _ e c es _ hs _ ih =>
    subst ha
    obtain ⟨t1, own1⟩ := c
    obtain ⟨mine, e⟩ := e
    have hlater1 : Retired (core tr) id → Retired (core (e :: tr')) id := fun hid =>
      (hlater hid).cons
    have hslot1 := hs.step.slot_of_terminal hr hslot hterm
    cases mine with
    | true =>
      exact ih (h.step hr hlater hown hslot hterm hs).1 (hr.step hs.step) hlater1
        (hs.own_le hown) hslot1 rfl hb
    | false =>
      obtain rfl := hs.own_eq
      exact ih h (hr.step hs.step) hlater1 (hs.own_le hown) hslot1 rfl hb

/-- A call that starts after an `AlreadyFinished` gives a late answer. -/
theorem Gone.late_answer (hid : Gone (core tr) id) (h : Tracked.Run cfg tr t)
    (hpub : id ∈ published tr) {result : CancelResult}
    (hcall : t.MayAnswer cfg endpoint id result) : LateAnswer tr endpoint id result := by
  obtain ⟨disposition, t1, es, t2, own, t3, hs, hp, hf⟩ := hcall
  obtain ⟨slot, hslot, hterm⟩ := (Tracked.Run.results h).terminal id hpub
  have hr1 := h.step hs
  obtain ⟨st, hd, -, rfl⟩ := Tracked.step_cancelPendingTask.1 hs
  obtain ⟨rfl, rfl⟩ := Prod.mk.inj ((hid.absent h).symm.trans hd)
  exact LateStage.absent.path hr1 (fun hid => hid.cons) (Multiset.le_add_right _ _) hslot hterm
    hp hf

/-- Whoever is followed, a path is one of the service. -/
theorem Tracked.Follow.path {es : List (Bool × TrackedEvent W C T)}
    {a b : Tracked W E C T × Multiset (Thread W (QueuedJob C T))}
    (hp : Path (Tracked.Follow cfg) a es b) :
    Path (Tracked.Step cfg) a.1 (es.map Prod.snd) b.1 := by
  induction hp with
  | nil => exact .nil _
  | cons hs _ ih => exact .cons hs.step ih

/-- A call that can give an answer ends a run that goes on from here. -/
theorem Tracked.MayAnswer.exists_run {result : CancelResult}
    (hcall : t.MayAnswer cfg endpoint id result) (h : Tracked.Run cfg tr t) :
    ∃ (es : List (TrackedEvent W C T)) (t3 : Tracked W E C T), Tracked.Run cfg
      (.service (.returned (.cancel endpoint id result)) :: es ++ tr) t3 := by
  obtain ⟨disposition, t1, es, t2, own, t3, hs, hp, hf⟩ := hcall
  have hr := ((h.step hs).append (Tracked.Follow.path hp)).step hf.step
  rw [List.append_cons, ← List.cons_append] at hr
  exact ⟨_, t3, hr⟩

/-- A thread that comes to its end alone is followed to its end. -/
theorem Tracked.Alone.path {th : Thread W (QueuedJob C T)} {ret : Return W}
    (h : Tracked.Alone cfg t th ret t') : ∃ es t2 own,
      Path (Tracked.Follow cfg) (t, {th}) es (t2, own) ∧
        Tracked.Follow cfg (t2, own) (true, .service (.returned ret)) (t', 0) := by
  induction h with
  | last hf => exact ⟨[], _, _, .nil _, hf⟩
  | next hf _ ih =>
    obtain ⟨es, t2, own, hp, hlast⟩ := ih
    exact ⟨_, t2, own, .cons hf hp, hlast⟩

/-- A call that is executed with nobody in between can give its answer. -/
theorem Tracked.Executes.mayAnswer {result : CancelResult}
    (h : t.Executes cfg endpoint id result t') : t.MayAnswer cfg endpoint id result := by
  obtain ⟨disposition, t1, hs, halone⟩ := h
  obtain ⟨es, t2, own, hp, hf⟩ := halone.path
  exact ⟨disposition, t1, es, t2, own, t', hs, hp, hf⟩

/-- No answer says that a task was claimed and another that it was taken. -/
theorem Tracked.Run.not_both (h : Tracked.Run cfg tr t) {first second : Endpoint}
    (hclaimed : .service (.returned (.cancel first id .cancelled)) ∈ tr)
    (htaken : .service (.returned (.cancel second id .alreadyRunning)) ∈ tr) : False := by
  obtain ⟨later, earlier, rfl⟩ := List.append_of_mem hclaimed
  have hclaim := Tracked.Run.returned_later h
  obtain ⟨later', earlier', heq⟩ := List.append_of_mem htaken
  rw [heq] at h hclaim
  exact h.core.not_claimed (Tracked.Run.returned_later h) hclaim

end

/-- The answers of cancel calls that start in the state `t`, after the history `tr`. -/
structure SuccessiveAnswers (cfg : Config) (tr : List (TrackedEvent W C T))
    (t : Tracked W E C T) : Prop where
  /-- A call repeats the answer of a call that has returned before it starts, or says that the task
  is finished, unless it takes an `AlreadyFinished` of the handle back: then it is a call of the
  cancellation handle, for a task that is still in the hands of its worker. -/
  forward : ∀ first second id earlier later,
    .service (.returned (.cancel first id earlier)) ∈ tr → t.MayAnswer cfg second id later →
    later = earlier ∨ later = .alreadyFinished ∨
      earlier = .alreadyFinished ∧ later = .alreadyRunning ∧ first = .handle ∧
        second = .cancellationHandle ∧ id ∈ t.service.shared.inner.running_tasks
  /-- For such a task it can do so. -/
  back : ∀ id ∈ t.handles, id ∈ t.service.shared.inner.running_tasks →
    t.MayAnswer cfg .cancellationHandle id .alreadyRunning

/-- Answers do not go back through one endpoint, nor from the cancellation handle to the handle. -/
theorem successive_answers {cfg : Config} {tr : List (TrackedEvent W C T)} {t : Tracked W E C T}
    (h : Tracked.Run cfg tr t) : SuccessiveAnswers cfg tr t where
  forward first second id earlier later hm hcall := by
    obtain ⟨es, t3, hr⟩ := hcall.exists_run h
    have hearlier : .service (.returned (.cancel first id earlier)) ∈
        .service (.returned (.cancel second id later)) :: es ++ tr :=
      List.mem_append_right _ hm
    have hlater : (.service (.returned (.cancel second id later)) : TrackedEvent W C T) ∈
        .service (.returned (.cancel second id later)) :: es ++ tr := List.mem_cons_self
    cases earlier with
    | cancelled =>
      cases later with
      | cancelled | alreadyFinished => simp
      | alreadyRunning => exact (Tracked.Run.not_both hr hearlier hlater).elim
    | alreadyRunning =>
      cases later with
      | alreadyRunning | alreadyFinished => simp
      | cancelled => exact (Tracked.Run.not_both hr hlater hearlier).elim
    | alreadyFinished =>
      have hover := Tracked.Run.returned_over h hm
      have hpub : id ∈ published tr := by
        obtain ⟨before, after, rfl⟩ := List.append_of_mem hm
        obtain ⟨status, hp⟩ := Tracked.Run.returned_later h
        exact Multiset.mem_map_of_mem Prod.fst hp
      have hgone : Gone (core tr) id := by
        cases first with
        | handle => exact hover
        | cancellationHandle => exact h.core.gone_of_retired hover
      have hanswer := hgone.late_answer h hpub hcall
      cases later with
      | cancelled => exact hanswer.elim
      | alreadyFinished => simp
      | alreadyRunning =>
        obtain ⟨hsecond, hretired⟩ := hanswer
        cases first with
        | cancellationHandle => exact absurd hover hretired
        | handle =>
          have hrun := (h.core.running_or_retired hgone).resolve_right hretired
          exact .inr (.inr ⟨rfl, rfl, rfl, hsecond, hrun⟩)
  back id hid hrun := by
    obtain ⟨slot, hslot⟩ := Option.isSome_iff_exists.1 ((Tracked.Run.agreement h).handles id hid)
    have hexec : t.Executes cfg .cancellationHandle id .alreadyRunning _ :=
      (Tracked.executes_iff hid hslot).2
        ⟨_, _, (Tracked.Run.cancelTask_of_running slot h hrun).2, rfl⟩
    exact hexec.mayAnswer

/-- The handle of a task that is published and not retired is told that the task is finished. -/
theorem tinyAnswered_run : Tracked.Run tinyConfig
    (.service (.returned (.cancel .handle 0 .alreadyFinished)) :: .service (.status 0 .succeeded) ::
      .service (.cancelPendingTask .handle 0 .absent) :: tinyPublishedHistory) tinyPublished := by
  have h1 : Tracked.Run tinyConfig
      (.service (.cancelPendingTask .handle 0 .absent) :: tinyPublishedHistory)
      (⟨⟨tinyTracked.takeNext.state, {⟨.none, .absent .handle 0⟩, ⟨.none, .running 0⟩}⟩,
        tinyPublished.slots, {0}⟩ : Tracked Watch.versioned .plain ℕ ℕ) :=
    .step tinyPublished_run
      (Tracked.step_cancelPendingTask.2 ⟨_, rfl, Finset.mem_singleton_self 0, rfl⟩)
  have h2 : Tracked.Run tinyConfig (.service (.status 0 .succeeded) ::
      .service (.cancelPendingTask .handle 0 .absent) :: tinyPublishedHistory)
      (⟨⟨tinyTracked.takeNext.state,
        {⟨.none, .returning (.cancel .handle 0 .alreadyFinished)⟩, ⟨.none, .running 0⟩}⟩,
        tinyPublished.slots, {0}⟩ : Tracked Watch.versioned .plain ℕ ℕ) :=
    .step h1 (.of_eq (.act (.of_eq .status rfl rfl)) ⟨_, rfl, rfl⟩ rfl rfl)
  exact .step h2 (.of_eq (.act (.of_eq .returning rfl (zero_add _).symm)) trivial rfl rfl)

/-- After the handle has answered `AlreadyFinished` the cancellation handle may still answer
`AlreadyRunning`. -/
theorem successive_answers_tiny : SuccessiveAnswers tinyConfig
    (.service (.returned (.cancel .handle 0 .alreadyFinished)) :: .service (.status 0 .succeeded) ::
      .service (.cancelPendingTask .handle 0 .absent) :: tinyPublishedHistory) tinyPublished :=
  successive_answers tinyAnswered_run

end RayonExecutor
