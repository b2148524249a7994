import RayonExecutor.Drain

/-!
# The service without `async-wait`

The feature adds the two senders, the body of `notify_async_changes`, and the operations
`await_termination` and `capacity_changes` with what they call. Without it the other operations are
the same code, in which a thread has nothing to publish. Here this service is the one of the feature
with its events taken out (`SilentRun`); its senders stay as they are created, and nobody has them.

The feature only observes (`async_wait_only_observes`): a run with it, without what is its own, is a
run of the service without it, with the same critical sections in the same states, and every run
without it comes from one with it. What is proved of either about the tasks holds of the other.
-/

namespace RayonExecutor

open Transition Pool

variable {W : Watch} {J : Type}

/-! ## The silent service -/

/-- What is left of an action without the feature. -/
def Event.plain? : Event W J → Option (Event W J)
  | .subscribeTermination | .capacityChanges _ | .publishCapacity | .publishTermination _
  | .checkTerminated _ | .returned (.receiver _) => none
  | e => some e

/-- A thread that has nothing to publish. -/
def Thread.silent (t : Thread W J) : Thread W J := ⟨.none, t.control⟩

/-- An action that does not need the feature. Its threads have nothing to publish. -/
def Silenced (act : RayonExecutorServiceState W J → Event W J → RayonExecutorServiceState W J →
    Multiset (Thread W J) → Prop) (st : RayonExecutorServiceState W J) (e : Event W J)
    (st' : RayonExecutorServiceState W J) (ts : Multiset (Thread W J)) : Prop :=
  e.plain? = some e ∧ ∃ new, act st e st' new ∧ ts = new.map Thread.silent

/-- One atomic action of any caller or thread, without the feature. -/
abbrev Service.SilentStep (cfg : Config) : Service W J → Event W J → Service W J → Prop :=
  Pool.Step (Silenced (Call cfg.bits)) fun t => Silenced (Action t)

/-- The runs of the service without the feature. -/
abbrev Service.SilentRun (cfg : Config) : List (Event W J) → Service W J → Prop :=
  Transition.Run (Service.init cfg) (Service.SilentStep cfg)

/-- Whether a point of the code is there without the feature. -/
def Control.plain : Control W J → Bool
  | .subscribed _ | .returning (.receiver _) => false
  | _ => true

/-- A thread without what the feature adds to it. -/
def Thread.silent? (t : Thread W J) : Option (Thread W J) :=
  if t.control.plain then some t.silent else none

/-- A service without what the feature adds to it. -/
def Service.silence (s : Service W J) : Service W J :=
  ⟨s.shared.withSenders (W.channel false) (W.channel 0), s.threads.filterMap Thread.silent?⟩

/-! ## The feature taken out -/

section
variable {bits : ℕ} {t : Thread W J} {st st' : RayonExecutorServiceState W J} {e e' : Event W J}
  {new : Multiset (Thread W J)}

/-- What is left of an action is the action. -/
theorem Event.eq_of_plain? (h : e.plain? = some e') : e' = e := by
  unfold Event.plain? at h
  split at h
  all_goals first | cases h; rfl | cases h

/-- An operation that needs no feature does not use the senders. -/
theorem Call.withSenders (h : Call bits st e st' new) (he : e.plain? = some e)
    (termination_tx : W.Sender Bool) (capacity_tx : W.Sender ℕ) :
    Call bits (st.withSenders termination_tx capacity_tx) e
      (st'.withSenders termination_tx capacity_tx) new := by
  cases h with
  | admitJob ha => exact .admitJob (by rw [st.admitJob_withSenders, ha])
  | cancel hc => exact .cancel (by rw [st.cancelPendingTask_withSenders, hc])
  | shutdown hs => exact .shutdown (by rw [st.shutdown_withSenders, hs]; rfl)
  | stop hs => exact .stop (by rw [st.stop_withSenders, hs]; rfl)
  | subscribeTermination | capacityChanges => cases he
  | lifecycle => exact .lifecycle
  | stats => exact .stats
  | isNotRunning => exact .isNotRunning

/-- A plain action does not depend on the senders. -/
theorem Action.withSenders (h : Action t st e st' new) (he : e.plain? = some e)
    (termination_tx : W.Sender Bool) (capacity_tx : W.Sender ℕ) :
    Action t (st.withSenders termination_tx capacity_tx) e
      (st'.withSenders termination_tx capacity_tx) new := by
  cases h with
  | publishCapacity | publishTermination | subscribed => cases he
  | takeNext ht => exact .takeNext (by rw [st.takeNext_withSenders, ht]; rfl)
  | finishRunning hf => exact .finishRunning (by rw [st.finishRunning_withSenders, hf]; rfl)
  | finishCancelling hf =>
    exact .finishCancelling (by rw [st.finishCancelling_withSenders, hf]; rfl)
  | spawn => exact .spawn
  | dispatched => exact .dispatched
  | run => exact .run
  | cancel => exact .cancel
  | cleaned => exact .cleaned
  | status => exact .status
  | isRunningTask => exact .isRunningTask
  | fallback => exact .fallback
  | returning => exact .returning

/-- The operation returns no receiver. -/
@[simp] def Return.Plain : Return W → Prop
  | .receiver _ => False
  | _ => True

/-- Only a subscription ends with a receiver. -/
@[simp] def Control.Proper : Control W J → Prop
  | .dispatching _ ret | .cleanup _ ret | .cancelling _ _ ret => ret.Plain
  | _ => True

theorem Call.proper (h : Call bits st e st' new) : ∀ u ∈ new, u.control.Proper := by
  cases h with
  | admitJob ha => cases RayonExecutorServiceState.admitJob_cases ha <;> simp
  | cancel hc => cases RayonExecutorServiceState.cancelPendingTask_cases hc <;> simp
  | _ => simp

theorem Action.proper (h : Action t st e st' new) (ht : t.control.Proper) :
    ∀ u ∈ new, u.control.Proper := by
  cases h with
  | publishCapacity | publishTermination | spawn | cancel | finishCancelling => simpa using ht
  | @takeNext _ _ taken => cases taken <;> simp
  | isRunningTask => split_ifs <;> simp
  | _ => simp

/-- The threads of a plain operation are there without the feature. -/
theorem Call.plain (h : Call bits st e st' new) (he : e.plain? = some e) :
    ∀ u ∈ new, u.control.plain = true := by
  cases h with
  | subscribeTermination | capacityChanges => cases he
  | admitJob ha => cases RayonExecutorServiceState.admitJob_cases ha <;> simp [Control.plain]
  | cancel hc => cases RayonExecutorServiceState.cancelPendingTask_cases hc <;> simp [Control.plain]
  | _ => simp [Control.plain]

/-- The threads that a plain action leaves are plain, and the thread that acts owes nothing. -/
theorem Action.plain (h : Action t st e st' new) (he : e.plain? = some e) :
    t.silent? = some t ∧ ∀ u ∈ new, u.control.plain = true := by
  cases h with
  | publishCapacity | publishTermination | subscribed => cases he
  | @returning _ ret => cases ret <;> first | exact ⟨rfl, by simp⟩ | cases he
  | @takeNext _ _ taken => cases taken <;> exact ⟨rfl, by simp [Control.plain]⟩
  | isRunningTask => split_ifs <;> exact ⟨rfl, by simp [Control.plain]⟩
  | _ => exact ⟨rfl, by simp [Control.plain]⟩

/-- Plain threads are all left without the feature, with nothing to publish. -/
theorem filterMap_silent? {ts : Multiset (Thread W J)} (h : ∀ u ∈ ts, u.control.plain = true) :
    ts.filterMap Thread.silent? = ts.map Thread.silent := by
  induction ts using Multiset.induction with
  | empty => rfl
  | cons t ts ih =>
    obtain ⟨ht, hts⟩ := Multiset.forall_mem_cons.1 h
    have hsome : t.silent? = some t.silent := if_pos ht
    rw [Multiset.filterMap_cons_some _ _ _ hsome, ih hts, Multiset.map_cons]

/-- A subscription leaves nothing. -/
theorem Call.of_plain?_none (h : Call bits st e st' new) (he : e.plain? = none) :
    st' = st ∧ new.filterMap Thread.silent? = 0 := by
  cases h with
  | subscribeTermination | capacityChanges => exact ⟨rfl, rfl⟩
  | _ => cases he

/-- A publication leaves its thread, and the thread of a receiver is not there. -/
theorem Action.of_plain?_none (h : Action t st e st' new) (he : e.plain? = none)
    (ht : t.control.Proper) (termination_tx : W.Sender Bool) (capacity_tx : W.Sender ℕ) :
    st'.withSenders termination_tx capacity_tx = st.withSenders termination_tx capacity_tx ∧
      new.filterMap Thread.silent? = Multiset.filterMap Thread.silent? {t} := by
  cases h with
  | publishCapacity | publishTermination | subscribed => exact ⟨rfl, rfl⟩
  | @dispatched _ ret | @cleaned _ ret => cases ret <;> first | exact ht.elim | cases he
  | @returning _ ret => cases ret <;> first | exact ⟨rfl, rfl⟩ | cases he
  | _ => cases he

/-! ## Runs with the feature -/

variable {cfg : Config} {s s' : Service W J} {tr : List (Event W J)}

/-- A run with the feature, without what is its own, is a run without it. -/
theorem Service.Run.silence (h : Service.Run cfg tr s) :
    Service.SilentRun cfg (tr.filterMap Event.plain?) s.silence ∧
      ∀ t ∈ s.threads, t.control.Proper := by
  refine h.invariant (P := fun tr s => Service.SilentRun cfg (tr.filterMap Event.plain?) s.silence ∧
    ∀ t ∈ s.threads, t.control.Proper) ⟨.init, by simp⟩ ?_
  rintro tr s e s' - ⟨ih, hproper⟩ hs
  cases hs with
  | @call st _ st' new ts hc =>
    refine ⟨?_, fun t ht => (Multiset.mem_add.1 ht).elim (hc.proper t) (hproper t)⟩
    rw [Service.silence, Multiset.filterMap_add]
    cases he : e.plain? with
    | none =>
      obtain ⟨rfl, hnew⟩ := hc.of_plain?_none he
      rw [List.filterMap_cons_none he, hnew, zero_add]
      exact ih
    | some e' =>
      obtain rfl := Event.eq_of_plain? he
      rw [List.filterMap_cons_some he, filterMap_silent? (hc.plain he)]
      exact ih.step (.call ⟨he, new, hc.withSenders he _ _, rfl⟩)
  | act ha =>
    obtain @⟨t, st, _, st', new, ts, ha⟩ := ha
    have ht := hproper t (Multiset.mem_cons_self t ts)
    refine ⟨?_, fun u hu => (Multiset.mem_add.1 hu).elim (ha.proper ht u)
      fun hu => hproper u (Multiset.mem_cons_of_mem hu)⟩
    rw [Service.silence, ← Multiset.singleton_add, Multiset.filterMap_add] at ih
    rw [Service.silence, Multiset.filterMap_add]
    cases he : e.plain? with
    | none =>
      obtain ⟨hst, hnew⟩ := ha.of_plain?_none he ht (W.channel false) (W.channel 0)
      rw [List.filterMap_cons_none he, hst, hnew]
      exact ih
    | some e' =>
      obtain rfl := Event.eq_of_plain? he
      obtain ⟨hself, hnew⟩ := ha.plain he
      rw [List.filterMap_cons_some he, filterMap_silent? hnew]
      have hsingle : Multiset.filterMap Thread.silent? {t} = {t} :=
        Multiset.filterMap_cons_some _ _ _ hself
      rw [hsingle, Multiset.singleton_add] at ih
      exact ih.step (.act (.act ⟨he, new, ha.withSenders he _ _, rfl⟩))

/-! ## Runs without the feature -/

/-- The threads make the publications that they owe. -/
theorem exists_path_silent (st : RayonExecutorServiceState W J) (new ts : Multiset (Thread W J)) :
    ∃ es termination_tx capacity_tx, Service.Internal ⟨st, new + ts⟩ es
        ⟨st.withSenders termination_tx capacity_tx, new.map Thread.silent + ts⟩ ∧
      es.filterMap Event.plain? = [] := by
  induction new using Multiset.induction generalizing st ts with
  | empty => exact ⟨[], st.termination_tx, st.capacity_tx, .nil _, rfl⟩
  | cons t new ih =>
    obtain ⟨es, termination_tx, capacity_tx, hp, hes⟩ := exists_path_publish st t (new + ts)
    obtain ⟨us, termination_tx', capacity_tx', hp', hus⟩ :=
      ih (st.withSenders termination_tx capacity_tx) (t.silent ::ₘ ts)
    refine ⟨es ++ us, termination_tx', capacity_tx', ?_, ?_⟩
    · rw [Multiset.add_cons, Multiset.add_cons] at hp'
      rw [Multiset.cons_add, Multiset.map_cons, Multiset.cons_add]
      exact hp.append hp'
    · rw [List.filterMap_append, hus, List.append_nil]
      refine List.filterMap_eq_nil_iff.2 fun e he => ?_
      have hpub := hes e he
      cases e <;> first | rfl | exact hpub.elim

/-- A state with its own senders is itself. -/
theorem RayonExecutorServiceState.Frame.withSenders (h : st.Frame st') :
    st'.withSenders st.termination_tx st.capacity_tx = st' := by
  rw [← h.termination_tx, ← h.capacity_tx]
  rfl

/-- After a step, the threads publish at once. -/
theorem Service.Run.publish {us : List (Event W J)} {ts : Multiset (Thread W J)}
    {termination_tx : W.Sender Bool} {capacity_tx : W.Sender ℕ}
    (h : Service.Run cfg us ⟨st.withSenders termination_tx capacity_tx, new + ts⟩)
    (hst : st.withSenders (W.channel false) (W.channel 0) = st)
    (hnew : ∀ u ∈ new, u.control.plain = true) (hts : ts.filterMap Thread.silent? = ts) :
    ∃ vs s', Service.Run cfg vs s' ∧ vs.filterMap Event.plain? = us.filterMap Event.plain? ∧
      s'.silence = ⟨st, new.map Thread.silent + ts⟩ ∧ s'.threads = new.map Thread.silent + ts := by
  obtain ⟨es, termination_tx', capacity_tx', hp, hes⟩ :=
    exists_path_silent (st.withSenders termination_tx capacity_tx) new ts
  have hsilent : (new.map Thread.silent).filterMap Thread.silent? = new.map Thread.silent := by
    rw [filterMap_silent? fun u hu => ?_, Multiset.map_map]
    · rfl
    · obtain ⟨v, hv, rfl⟩ := Multiset.mem_map.1 hu
      exact hnew v hv
  refine ⟨es.reverse ++ us, _, h.append (hp.mono .act), ?_, ?_, rfl⟩
  · rw [List.filterMap_append, List.filterMap_reverse, hes, List.reverse_nil, List.nil_append]
  · rw [Service.silence, Multiset.filterMap_add, hsilent, hts]
    exact congrArg (Pool.mk · _) hst

/-- A run without the feature is one with it in which every thread publishes at once. -/
theorem Service.SilentRun.exists_run (h : Service.SilentRun cfg tr s) :
    ∃ us s', Service.Run cfg us s' ∧ us.filterMap Event.plain? = tr ∧ s'.silence = s ∧
      s'.threads = s.threads := by
  induction h with
  | init => exact ⟨[], _, .init, rfl, rfl, rfl⟩
  | step _ hs ih =>
    obtain ⟨us, ⟨st, ts⟩, hr, rfl, hsilence, hthreads⟩ := ih
    cases hs with
    | @call st₀ e st' _ ts₀ hc =>
      obtain ⟨he, new, hc, rfl⟩ := hc
      obtain rfl : ts = ts₀ := hthreads
      obtain ⟨rfl, hts⟩ := Pool.mk.inj hsilence
      have hr' := hr.step (.call (hc.withSenders he st.termination_tx st.capacity_tx))
      obtain ⟨vs, s', hv, hvs, hs'⟩ :=
        Service.Run.publish hr' hc.frame.withSenders (hc.plain he) hts
      exact ⟨vs, s', hv, hvs.trans (List.filterMap_cons_some he), hs'⟩
    | act ha =>
      obtain @⟨t, st₀, e, st', _, ts₀, ha⟩ := ha
      obtain ⟨he, new, ha, rfl⟩ := ha
      obtain rfl : ts = t ::ₘ ts₀ := hthreads
      obtain ⟨rfl, hts⟩ := Pool.mk.inj hsilence
      obtain ⟨hself, hnew⟩ := ha.plain he
      have hr' := hr.step (.act (.act (ha.withSenders he st.termination_tx st.capacity_tx)))
      have hts₀ : ts₀.filterMap Thread.silent? = ts₀ := by
        rw [Multiset.filterMap_cons_some _ _ _ hself] at hts
        exact (Multiset.cons_inj_right t).1 hts
      have hframe := ha.frame_or_publish.resolve_right fun h => by
        rcases h with ⟨-, rfl, -⟩ | ⟨-, ⟨_, rfl⟩, -⟩ <;> cases he
      obtain ⟨vs, s', hv, hvs, hs'⟩ := Service.Run.publish hr' hframe.2.withSenders hnew hts₀
      exact ⟨vs, s', hv, hvs.trans (List.filterMap_cons_some he), hs'⟩

/-- Nothing that the feature adds runs a task or cancels one. -/
theorem tally_plain? (tr : List (Event W J)) :
    tally Event.runs (tr.filterMap Event.plain?) + tally Event.cancels (tr.filterMap Event.plain?) =
      tally Event.runs tr + tally Event.cancels tr := by
  have hplain : ∀ e : Event W J, (e.plain?.elim 0 fun e => e.runs + e.cancels) =
      e.runs + e.cancels := by
    intro e
    cases e with
    | returned ret => cases ret <;> rfl
    | _ => rfl
  rw [← tally_add_distrib, ← tally_add_distrib, tally_filterMap]
  exact congrArg (tally · tr) (funext hplain)

/-- What the feature adds. -/
structure OnlyObserves (W : Watch) (J : Type) (cfg : Config) : Prop where
  /-- What happens with the feature happens without it. -/
  erased : ∀ (tr : List (Event W J)) s, Service.Run cfg tr s →
    Service.SilentRun cfg (tr.filterMap Event.plain?) s.silence
  /-- What happens without the feature happens with it. -/
  observed : ∀ (tr : List (Event W J)) s, Service.SilentRun cfg tr s →
    ∃ us s', Service.Run cfg us s' ∧ us.filterMap Event.plain? = tr ∧ s'.silence = s ∧
      s'.threads = s.threads
  /-- Without the feature no task is run or cancelled twice, and nothing is left behind. -/
  consumed : ∀ (tr : List (Event W J)) s, Service.SilentRun cfg tr s →
    ((tally Event.runs tr + tally Event.cancels tr).map Prod.fst).Nodup
  drained : ∀ (tr : List (Event W J)) s, Service.SilentRun cfg tr s → 1 ≤ cfg.num_threads →
    s.threads = 0 → Drained s.shared.inner

/-- The feature only observes. -/
theorem async_wait_only_observes (cfg : Config) : OnlyObserves W J cfg where
  erased _ _ h := h.silence.1
  observed _ _ h := h.exists_run
  consumed tr s h := by
    obtain ⟨us, s', hr, rfl, -⟩ := h.exists_run
    rw [tally_plain?]
    exact hr.consumed_nodup
  drained tr s h hn h0 := by
    obtain ⟨us, s', hr, -, rfl, hthreads⟩ := h.exists_run
    exact hr.drained hn (hthreads.trans h0)

end

end RayonExecutor
