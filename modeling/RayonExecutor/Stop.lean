import RayonExecutor.Admission
import RayonExecutor.Order
import RayonExecutor.Progress
import RayonExecutor.Unwinding

/-!
# Stopping

The critical section of `stop` takes the whole queue and leaves `Running`, so from then on nothing
is accepted, nothing is queued and nothing is taken. Whoever came first has counted the jobs: a
worker that took one, an individual cancel call that claimed one, or the report of the stop call
that claimed the rest. Each stop call then works through its jobs on its own thread, one at a time,
while all others go on (`Cleans`).
-/

namespace RayonExecutor

open Transition Pool

variable {W : Watch} {J : Type}

namespace Event

/-- The critical section of `stop`. -/
def Stops : Event W J → Prop
  | .stop _ _ => True
  | _ => False

/-- The task that an individual cancel call has claimed. -/
@[simp] def claimsOne : Event W J → Multiset ℕ
  | .cancelPendingTask _ task_id (.owned _) => {task_id}
  | _ => 0

/-- The number of tasks that the report of a stop call says it has cancelled. -/
@[simp] def reports : Event W J → ℕ
  | .stop report _ => report.cancelled
  | _ => 0

/-- The job handed to `cancel`. -/
@[simp] def cancels? : Event W J → Option (ℕ × J)
  | .cancel task_id job => some (task_id, job)
  | _ => none

/-- The task whose reservation is released. -/
@[simp] def finishesCancel? : Event W J → Option ℕ
  | .finishCancelling task_id => some task_id
  | _ => none

end Event

section
variable {cfg : Config} {tr later earlier : List (Event W J)} {s s' : Service W J}
  {e : Event W J} {report : StopReport} {jobs : List (ℕ × J)}

/-! ## After the first stop -/

/-- The critical section of `stop` takes every queued job and says so. -/
theorem Service.Step.stop (h : Service.Step cfg s (.stop report jobs) s') :
    jobs = s.shared.inner.queue.entries ∧
      report = ⟨s.shared.inner.queue.length, s.shared.inner.running,
        s.shared.inner.queue.length⟩ ∧
      s'.shared.inner.lifecycle = .stopping ∧ s'.shared.inner.queue.keys = 0 ∧
      ∃ changes, s'.threads = {⟨changes, .cleanup jobs (.stop report)⟩} + s.threads := by
  rcases h with hc | ⟨⟨ha⟩⟩
  · cases hc with
    | stop hs =>
      obtain ⟨_, _, rfl, -, rfl, rfl, -, rfl⟩ := RayonExecutorServiceState.stop_cases hs
      exact ⟨rfl, rfl, by simp, by simp, _, rfl⟩
  · cases ha

/-- After a stop the queue is empty and the service is not running. -/
theorem Service.Run.stopped (h : Service.Run cfg tr s) (hstop : ∃ e ∈ tr, e.Stops) :
    s.shared.inner.lifecycle ≠ .running ∧ s.shared.inner.queue.keys = 0 := by
  revert hstop
  refine h.invariant (P := fun tr s => (∃ e ∈ tr, e.Stops) →
    s.shared.inner.lifecycle ≠ .running ∧ s.shared.inner.queue.keys = 0) (by simp) ?_
  rintro tr s e s' hr ih hs ⟨e', he', hstop⟩
  rw [List.mem_cons] at he'
  rcases he' with rfl | he'
  · cases e' with
    | stop report jobs =>
      obtain ⟨-, -, hl, hq, -⟩ := hs.stop
      exact ⟨by rw [hl]; decide, hq⟩
    | _ => exact absurd hstop id
  · obtain ⟨hl, hq⟩ := ih ⟨e', he', hstop⟩
    have hrank := (hs.progress.stored (Service.Run.stored hr)).2
    refine ⟨fun hl' => hl ?_, Multiset.eq_zero_of_forall_notMem fun id hid => ?_⟩
    · rw [hl'] at hrank
      revert hrank
      cases s.shared.inner.lifecycle <;> simp [ExecutorServiceLifecycle.rank]
    · rcases hs.queued hid with hid | ⟨-, haccepts⟩
      · rw [hq] at hid
        exact absurd hid (Multiset.notMem_zero _)
      · -- only a running service accepts
        obtain ⟨job, count, rfl⟩ := haccepts
        rcases hs.accepts_cases with h0 | ⟨-, -, -, hl', -⟩
        · exact absurd h0 (Multiset.singleton_ne_zero _)
        · exact hl hl'

/-- After a stop no worker takes a job. -/
theorem Service.Run.takes_after_stop
    (h : Service.Run cfg (later ++ .stop report jobs :: earlier) s) :
    tally Event.takes later = 0 := by
  induction later generalizing s with
  | nil => rfl
  | cons e later ih =>
    obtain ⟨a, hr, hs⟩ := h.exists_last
    obtain ⟨-, hq⟩ := Service.Run.stopped hr ⟨.stop report jobs, by simp, trivial⟩
    rw [tally_cons, ih hr, add_zero]
    refine Multiset.eq_zero_of_forall_notMem fun ⟨id, job⟩ htake => ?_
    -- what a worker takes was queued
    obtain rfl := Event.eq_takeNext_of_mem htake
    have hid := hs.takes_least.1
    rw [hq] at hid
    exact absurd hid (Multiset.notMem_zero _)

/-- A job that runs after a stop was taken before it. -/
theorem Service.Run.ran_after_stop (h : Service.Run cfg (later ++ .stop report jobs :: earlier) s)
    {id : ℕ} {job : J} (hrun : .run id job ∈ later) : id ∈ taken earlier := by
  have hran : id ∈ ran (later ++ .stop report jobs :: earlier) := by
    refine Multiset.mem_map.2 ⟨(id, job), mem_tally.2 ⟨.run id job, ?_, ?_⟩, rfl⟩
    · exact List.mem_append_left _ hrun
    · exact Multiset.mem_singleton_self _
  have htaken := h.taken_of_ran hran
  unfold taken at htaken ⊢
  rw [tally_append, Service.Run.takes_after_stop h, tally_cons, zero_add] at htaken
  simpa using htaken

/-- The state in which a stop call of the history executed its critical section. -/
theorem Service.Run.exists_stop (h : Service.Run cfg (later ++ .stop report jobs :: earlier) s) :
    ∃ a b, Service.Run cfg earlier a ∧ Service.Step cfg a (.stop report jobs) b := by
  obtain ⟨b, hb⟩ := h.exists_earlier
  obtain ⟨a, ha, hs⟩ := hb.exists_last
  exact ⟨a, b, ha, hs⟩

/-- What a report says. -/
structure StopReport.Counts (report : StopReport) (jobs : List (ℕ × J))
    (earlier : List (Event W J)) : Prop where
  queued : report.queued = jobs.length
  cancelled : report.cancelled = jobs.length
  /-- The tasks claimed by workers and unfinished. -/
  running : report.running + (tally Event.finishesRun earlier).card = (taken earlier).card

/-- A report counts the jobs of its call, and the tasks of the workers at that moment. -/
theorem Service.Run.counts (h : Service.Run cfg earlier s)
    (hs : Service.Step cfg s (.stop report jobs) s') : report.Counts jobs earlier := by
  obtain ⟨rfl, rfl, -⟩ := hs.stop
  refine ⟨rfl, rfl, ?_⟩
  have htaken := congrArg Multiset.card h.takes_eq
  rw [Multiset.card_add] at htaken
  rw [taken, htaken, h.ledger.running]
  rfl

/-- The tasks claimed for cancellation are those of the individual calls and of the reports. -/
theorem Service.Run.card_claims (h : Service.Run cfg tr s) : (tally Event.claims tr).card =
    (tally Event.claimsOne tr).card + tally Event.reports tr := by
  refine h.invariant (P := fun tr _ => (tally Event.claims tr).card =
    (tally Event.claimsOne tr).card + tally Event.reports tr) rfl ?_
  intro tr s e s' hr ih hs
  have hone : e.claims.card = e.claimsOne.card + e.reports := by
    cases e with
    | stop report jobs =>
      obtain ⟨rfl, rfl, -⟩ := hs.stop
      simp [OrderedMap.length]
    | cancelPendingTask endpoint task_id disposition => cases disposition <;> rfl
    | _ => rfl
  simp only [tally_cons, Multiset.card_add, ih, hone]
  omega

/-! ## One stop call -/

/-- What a thread has to do that goes through jobs: the calls of `cancel`, the releases of
reservations, and what it returns. -/
inductive Cleans : Control W J → List (ℕ × J) → List ℕ → Return W → Prop
  | cleanup {jobs : List (ℕ × J)} {ret : Return W} :
      Cleans (.cleanup jobs ret) jobs (jobs.map Prod.fst) ret
  | cancelling {task_id : ℕ} {jobs : List (ℕ × J)} {ret : Return W} :
      Cleans (.cancelling task_id jobs ret) jobs (task_id :: jobs.map Prod.fst) ret

/-- An action of a thread that goes through jobs does one of the things that it has to do, or makes
a publication, or is the return. -/
theorem Cleans.action {t : Thread W J} {cs : List (ℕ × J)} {fs : List ℕ} {ret : Return W}
    (h : Cleans t.control cs fs ret) {st st' : RayonExecutorServiceState W J}
    {new : Multiset (Thread W J)} (ha : Action t st e st' new) :
    new = 0 ∧ e = .returned ret ∧ cs = [] ∧ fs = [] ∨
    ∃ t' cs' fs', new = {t'} ∧ Cleans t'.control cs' fs' ret ∧
      cs = e.cancels?.toList ++ cs' ∧ fs = e.finishesCancel?.toList ++ fs' := by
  cases ha with
  | publishCapacity | publishTermination => exact Or.inr ⟨_, cs, fs, rfl, h, rfl, rfl⟩
  | cancel =>
    cases h with
    | cleanup => exact Or.inr ⟨_, _, _, rfl, .cancelling, rfl, rfl⟩
  | finishCancelling =>
    cases h with
    | cancelling => exact Or.inr ⟨_, _, _, rfl, .cleanup, rfl, rfl⟩
  | cleaned =>
    cases h with
    | cleanup => exact Or.inl ⟨rfl, rfl, rfl, rfl⟩
  | _ => cases h

/-- When a thread that goes through jobs is over, it has done all that it had to do in order, and
returned. -/
theorem Cleans.path {t : Thread W J} {cs : List (ℕ × J)} {fs : List ℕ} {ret : Return W}
    (h : Cleans t.control cs fs ret) {es : List (Bool × Event W J)}
    (hp : Path (Follow (Call cfg.bits) Action) (s, {t}) es (s', 0)) :
    (ownActions es).filterMap Event.cancels? = cs ∧
      (ownActions es).filterMap Event.finishesCancel? = fs ∧ .returned ret ∈ ownActions es := by
  generalize ha : (s, ({t} : Multiset (Thread W J))) = a at hp
  generalize hb : (s', (0 : Multiset (Thread W J))) = b at hp
  induction hp generalizing s t cs fs with
  | nil =>
    obtain ⟨-, h0⟩ : s = s' ∧ ({t} : Multiset (Thread W J)) = 0 := by simpa using ha.trans hb.symm
    exact absurd h0 (Multiset.singleton_ne_zero _)
  | @cons _ e c es _ hf hp ih =>
    subst ha
    obtain ⟨s1, own1⟩ := c
    obtain ⟨mine, e⟩ := e
    cases mine with
    | false =>
      obtain rfl := hf.own_eq
      exact ih h rfl hb
    | true =>
      obtain ⟨rest, -, hact, -⟩ := hf.own_singleton
      rcases h.action hact with ⟨rfl, rfl, rfl, rfl⟩ | ⟨t', cs', fs', rfl, h', rfl, rfl⟩
      · rw [ownActions_own, Follow.ownActions_eq_nil hp]
        exact ⟨rfl, rfl, List.mem_singleton_self _⟩
      · obtain ⟨hcs, hfs, hret⟩ := ih h' rfl hb
        rw [ownActions_own, List.filterMap_cons, List.filterMap_cons, hcs, hfs]
        refine ⟨?_, ?_, List.mem_cons_of_mem _ hret⟩
        · cases e.cancels? <;> rfl
        · cases e.finishesCancel? <;> rfl

/-- A task whose cancellation is finished was cancelled once and released once, and has no
reservation. -/
theorem Service.Run.cancelled_once (h : Service.Run cfg tr s) {id : ℕ}
    (hid : id ∈ tally Event.finishesCancel tr) :
    ((tally Event.cancels tr).map Prod.fst).count id = 1 ∧
      (tally Event.finishesCancel tr).count id = 1 ∧ id ∉ s.shared.inner.cancelling := by
  have hcancels := Multiset.nodup_of_le (Multiset.le_add_left _ _)
    (Multiset.map_add _ _ _ ▸ h.consumed_nodup)
  have hle := h.consumption.cancels ▸ Multiset.le_add_left (tally Event.finishesCancel tr)
    (across Control.inCancel s.threads)
  have hfinish := Multiset.nodup_of_le hle hcancels
  refine ⟨Multiset.count_eq_one_of_mem hcancels (Multiset.mem_of_le hle hid),
    Multiset.count_eq_one_of_mem hfinish hid, fun hc => ?_⟩
  -- the reserved and the finished are separate summands of what was accepted
  have hn := h.ledger.nodup
  rw [h.ledger.ids, Multiset.nodup_add] at hn
  refine Multiset.disjoint_left.1 hn.2.2 ?_ hid
  exact Multiset.mem_add.2 (Or.inl (Multiset.mem_add.2 (Or.inr hc)))

end

/-- A stop call has returned, with the actions `own` of its thread, after the history `tr`. -/
structure StopReturned (report : StopReport) (jobs : List (ℕ × J)) (own tr : List (Event W J))
    (s : Service W J) : Prop where
  /-- The call has handed every job that it took to `cancel`, in order. -/
  cancelled : own.filterMap Event.cancels? = jobs
  /-- The call has released every reservation. -/
  released : own.filterMap Event.finishesCancel? = jobs.map Prod.fst
  returned : .returned (.stop report) ∈ own
  /-- Nobody else has cancelled or released these tasks, and no reservation is left. -/
  once : ∀ id ∈ jobs.map Prod.fst, ((tally Event.cancels tr).map Prod.fst).count id = 1 ∧
    (tally Event.finishesCancel tr).count id = 1 ∧ id ∉ s.shared.inner.cancelling

/-- Stopping, after the history `tr` and in the state `s`. -/
structure StopFinal {C : Client} (cfg : Config) (tr : List (Event W C.Job))
    (s : Service W C.Job) : Prop where
  /-- After a stop the queue is empty. -/
  queue : (∃ e ∈ tr, e.Stops) → s.shared.inner.queue.length = 0
  /-- After it nothing is taken, and what runs was taken before. -/
  taken : ∀ later report jobs earlier, tr = later ++ .stop report jobs :: earlier →
    tally Event.takes later = 0 ∧ ∀ id job, .run id job ∈ later → id ∈ taken earlier
  /-- Each report counts the jobs that its call took and the unfinished tasks of the workers. -/
  report : ∀ later report jobs earlier, tr = later ++ .stop report jobs :: earlier →
    report.Counts jobs earlier
  /-- All reports but the first are empty. -/
  empty : ∀ later report jobs earlier, tr = later ++ .stop report jobs :: earlier →
    (∃ e ∈ earlier, e.Stops) → report.queued = 0 ∧ report.cancelled = 0
  /-- Every accepted task was taken by a worker, claimed by an individual cancel call, or counted
  as cancelled in one report. -/
  sum : (∃ e ∈ tr, e.Stops) → (accepted tr).card =
    (RayonExecutor.taken tr).card + (tally Event.claimsOne tr).card + tally Event.reports tr
  /-- However a stop call is interleaved with others, it has cancelled and released all its jobs
  when it is over. -/
  returned : ∀ report jobs s1, Service.Step cfg s (.stop report jobs) s1 →
    ∃ t, s1.threads = {t} + s.threads ∧ ∀ es s2,
      Path (Follow (Call cfg.bits) Action) (s1, {t}) es (s2, 0) →
      StopReturned report jobs (ownActions es)
        ((es.map Prod.snd).reverse ++ .stop report jobs :: tr) s2
  /-- Whichever of the jobs unwind, `stop` goes through all of them and returns its report. -/
  unwinding : ∀ (us : List (Performed W C)) o, Code.stop.Runs us o →
    ∃ vs ws report jobs, us = vs ++ ws ∧ Code.stopState.Runs vs (.ok (report, jobs)) ∧
      Code.CleansUp jobs ws ∧ (ws.map Sigma.fst).filterMap Code.cancels? = jobs ∧ o = .ok report

/-- Stop is final, and its reports add up. -/
theorem stop_final {C : Client} {cfg : Config} {tr : List (Event W C.Job)}
    {s : Service W C.Job} (h : Service.Run cfg tr s) : StopFinal cfg tr s where
  queue hstop := by
    rw [← OrderedMap.card_keys, (Service.Run.stopped h hstop).2, Multiset.card_zero]
  taken later report jobs earlier heq := by
    subst heq
    exact ⟨Service.Run.takes_after_stop h, fun id job hrun => Service.Run.ran_after_stop h hrun⟩
  report later report jobs earlier heq := by
    subst heq
    obtain ⟨a, b, ha, hs⟩ := Service.Run.exists_stop h
    exact Service.Run.counts ha hs
  empty later report jobs earlier heq hstop := by
    subst heq
    obtain ⟨a, b, ha, hs⟩ := Service.Run.exists_stop h
    obtain ⟨-, rfl, -⟩ := Service.Step.stop hs
    have hlen : a.shared.inner.queue.length = 0 := by
      rw [← OrderedMap.card_keys, (Service.Run.stopped ha hstop).2, Multiset.card_zero]
    exact ⟨hlen, hlen⟩
  sum hstop := by
    rw [Service.Run.accepted_eq h, (Service.Run.stopped h hstop).2, zero_add, Multiset.card_add,
      Service.Run.card_claims h, add_assoc]
  returned report jobs s1 hs := by
    obtain ⟨-, -, -, -, changes, hthreads⟩ := Service.Step.stop hs
    refine ⟨_, hthreads, fun es s2 hp => ?_⟩
    obtain ⟨hcancelled, hreleased, hreturned⟩ := Cleans.path .cleanup hp
    have hr2 := (h.step hs).append (Follow.path hp (hthreads ▸ Multiset.le_add_right _ _)).1
    refine ⟨hcancelled, hreleased, hreturned, fun id hid => Service.Run.cancelled_once hr2 ?_⟩
    -- the release of this thread is in the history
    rw [← hreleased] at hid
    obtain ⟨e, he, hfinish⟩ := List.mem_filterMap.1 hid
    have hmem := List.mem_reverse.2 (mem_of_mem_ownActions he)
    refine mem_tally.2 ⟨e, List.mem_append_left _ hmem, ?_⟩
    cases e <;> simp at hfinish
    simp [hfinish]
  unwinding us o hr := by
    obtain ⟨vs, ws, report, jobs, rfl, hstop, hclean, rfl⟩ := Code.stop_runs hr
    exact ⟨vs, ws, report, jobs, rfl, hstop, hclean, hclean.cancels, rfl⟩

/-- The state after one job has been accepted and the service stopped. -/
def tinyStopped : RayonExecutorServiceState Watch.versioned ℕ := tinyAdmitted.stop.state

/-- A job is accepted, and the service is stopped while the submission goes on. -/
theorem tinyStopped_run : Service.Run tinyConfig
    [.stop ⟨1, 0, 1⟩ [(0, 7)], .admitJob 7 (.ok ⟨0, 1⟩)]
    ⟨tinyStopped, {⟨⟨true, false⟩, .cleanup [(0, 7)] (.stop ⟨1, 0, 1⟩)⟩,
      ⟨.none, .dispatching 1 (.submitted 0)⟩}⟩ := by
  have ha : (RayonExecutorServiceState.new Watch.versioned ℕ 2 1).admitJob 64 .returned 7 =
      (.ok ⟨0, 1⟩, tinyAdmitted) := rfl
  have h1 : Service.Run tinyConfig [.admitJob 7 (.ok ⟨0, 1⟩)]
      ⟨tinyAdmitted, {⟨.none, .dispatching 1 (.submitted 0)⟩}⟩ :=
    .step .init (.first (.admitJob ha))
  have hs : tinyAdmitted.stop = ⟨(⟨1, 0, 1⟩, [(0, 7)]), ⟨true, false⟩, tinyStopped⟩ := rfl
  exact .step h1 (.call (Call.stop hs))

/-- The one job was taken by the stop call. -/
theorem stop_final_tiny : StopFinal (C := tinyClient) tinyConfig
    [.stop ⟨1, 0, 1⟩ [(0, 7)], .admitJob 7 (.ok ⟨0, 1⟩)]
    ⟨tinyStopped, {⟨⟨true, false⟩, .cleanup [(0, 7)] (.stop ⟨1, 0, 1⟩)⟩,
      ⟨.none, .dispatching 1 (.submitted 0)⟩}⟩ := stop_final tinyStopped_run

end RayonExecutor
