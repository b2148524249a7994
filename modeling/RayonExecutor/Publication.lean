import RayonExecutor.Waiters

/-!
# Publication of termination

The predicate is decided under the lock and published after it, by one of five operations or by a
subscriber. Duplicate publications change nothing, and a subscriber that comes after the publication
repairs what it might have missed. A receiver therefore has a change to see, or the value that it
has seen is the current one (`Observer.Informed`).
-/

namespace RayonExecutor

open Transition Pool

variable {W : Watch} {J : Type}

/-! ## Receivers -/

/-- A step leaves the termination channel alone, or makes a publication. -/
theorem Service.Step.termination_tx {cfg : Config} {s s' : Service W J} {e : Event W J}
    (h : Service.Step cfg s e s') : s'.shared.termination_tx = s.shared.termination_tx ∨
      s'.shared.termination_tx = W.sendIfModified s.shared.termination_tx
        RayonExecutorServiceState.setTerminated := by
  rcases h with hc | ⟨⟨ha⟩⟩
  · exact Or.inl hc.frame.termination_tx
  · by_cases he : ∀ modified, e ≠ .publishTermination modified
    · exact Or.inl (ha.termination_tx he)
    · push Not at he
      obtain ⟨modified, rfl⟩ := he
      cases ha
      exact Or.inr rfl

/-- Receivers of the channel stay receivers of it. -/
theorem Service.Step.issued_termination {cfg : Config} {s s' : Service W J} {e : Event W J}
    (h : Service.Step cfg s e s') {r : W.Receiver Bool} (hr : W.Issued s.shared.termination_tx r) :
    W.Issued s'.shared.termination_tx r := by
  rcases h.termination_tx with htx | htx
  · rw [htx]
    exact hr
  · rw [htx]
    exact W.issued_sendIfModified _ hr

/-- A receiver that has no change to see has seen the value if it is true: no step of the service
changes that. -/
theorem Service.Step.unchanged_termination {cfg : Config} {s s' : Service W J} {e : Event W J}
    (h : Service.Step cfg s e s') {r : W.Receiver Bool} (hr : W.Issued s.shared.termination_tx r)
    (hseen : W.hasChanged s.shared.termination_tx r = false →
      W.borrow s.shared.termination_tx = false)
    (hc : W.hasChanged s'.shared.termination_tx r = false) :
    W.borrow s'.shared.termination_tx = false := by
  rcases h.termination_tx with htx | htx
  · rw [htx] at hc ⊢
    exact hseen hc
  · rw [htx] at hc ⊢
    cases hv : W.borrow s.shared.termination_tx with
    | true =>
      -- the value was true before, so this publication is no change
      have hnot : (RayonExecutorServiceState.setTerminated
          (W.borrow s.shared.termination_tx)).2 = false := by
        rw [hv]
        rfl
      rw [W.hasChanged_of_not_modified hnot] at hc
      rw [hseen hc] at hv
      contradiction
    | false =>
      have hmodified : (RayonExecutorServiceState.setTerminated
          (W.borrow s.shared.termination_tx)).2 = true := by
        rw [hv]
        rfl
      rw [W.hasChanged_of_modified hr hmodified] at hc
      contradiction

/-- The receiver that an operation returns belongs to the channel. -/
def Return.Issued (tx : W.Sender Bool) : Return W → Prop
  | .receiver r => W.Issued tx r
  | _ => True

/-- The receiver that a thread holds belongs to the channel. -/
def Control.Issued (tx : W.Sender Bool) : Control W J → Prop
  | .subscribed r => W.Issued tx r
  | .dispatching _ ret | .cleanup _ ret | .cancelling _ _ ret | .returning ret => ret.Issued tx
  | _ => True

/-- The receivers of all threads belong to the channel. -/
theorem Service.Run.issued {cfg : Config} {tr : List (Event W J)} {s : Service W J}
    (h : Service.Run cfg tr s) :
    ∀ t ∈ s.threads, t.control.Issued s.shared.termination_tx := by
  have hkeep : ∀ {s s' : Service W J} {e : Event W J}, Service.Step cfg s e s' →
      ∀ control : Control W J, control.Issued s.shared.termination_tx →
        control.Issued s'.shared.termination_tx := by
    intro s s' e hs control hi
    cases control with
    | subscribed r => exact hs.issued_termination hi
    | dispatching _ ret | cleanup _ ret | cancelling _ _ ret | returning ret =>
      cases ret with
      | receiver r => exact hs.issued_termination hi
      | _ => trivial
    | _ => trivial
  refine Pool.local_invariant (L := fun _ st t => t.control.Issued st.termination_tx) ?_ ?_ h
  · intro tr st ts e st' new hr hc
    refine ⟨fun t _ => hkeep (Pool.Step.call hc : Service.Step cfg ⟨st, ts⟩ e _) t.control, ?_⟩
    cases hc with
    | admitJob ha =>
      rename_i outcome
      cases outcome <;> simp [Control.Issued, Return.Issued]
    | cancel hd =>
      rename_i disposition
      cases disposition <;> simp [Control.Issued, Return.Issued]
    | subscribeTermination => simpa [Control.Issued] using W.issued_subscribe st.termination_tx
    | _ => simp [Control.Issued, Return.Issued]
  · intro tr st t ts e st' new hr hi ha
    have hs : Service.Step cfg ⟨st, t ::ₘ ts⟩ e ⟨st', new + ts⟩ := .act (.act ha)
    refine ⟨fun u _ => hkeep hs u.control, ?_⟩
    have hi' := hkeep hs t.control hi
    cases ha with
    | takeNext hd =>
      rename_i taken changes
      cases taken <;> simp [Control.Issued, Return.Issued]
    | isRunningTask =>
      split_ifs <;> simp [Control.Issued, Return.Issued]
    | spawn =>
      simp only [Multiset.insert_eq_cons, Multiset.mem_cons, Multiset.mem_singleton,
        forall_eq_or_imp, forall_eq]
      exact ⟨hi', trivial⟩
    | publishCapacity | publishTermination | cancel | finishCancelling | subscribed =>
      -- the rest of the operation returns what it returned before
      intro u hu
      obtain rfl := Multiset.mem_singleton.1 hu
      exact hi'
    | _ => simp [Control.Issued, Return.Issued]

/-- A receiver that is returned belongs to the channel. -/
theorem Service.Step.issued_returned {cfg : Config} {tr : List (Event W J)} {s s' : Service W J}
    {r : W.Receiver Bool} (hr : Service.Run cfg tr s)
    (h : Service.Step cfg s (.returned (.receiver r)) s') :
    W.Issued s'.shared.termination_tx r := by
  refine h.issued_termination ?_
  have hi := hr.issued
  rcases h with hc | ⟨⟨ha⟩⟩
  · cases hc
  · cases ha with
    | dispatched => exact hi _ (Multiset.mem_cons_self _ _)
    | cleaned => exact hi _ (Multiset.mem_cons_self _ _)
    | returning => exact hi _ (Multiset.mem_cons_self _ _)

/-- A true value stays true. -/
theorem Service.Step.borrow_termination {cfg : Config} {s s' : Service W J} {e : Event W J}
    (h : Service.Step cfg s e s') (hv : W.borrow s.shared.termination_tx = true) :
    W.borrow s'.shared.termination_tx = true := by
  rcases h.termination_tx with htx | htx
  · rw [htx, hv]
  · rw [htx, Watch.borrow_sendIfModified, hv]
    rfl

/-- A publication says whether it changed the value. -/
theorem Service.Step.publishTermination {cfg : Config} {s s' : Service W J} {modified : Bool}
    (h : Service.Step cfg s (.publishTermination modified) s') :
    s'.shared.termination_tx = W.sendIfModified s.shared.termination_tx
        RayonExecutorServiceState.setTerminated ∧
      (RayonExecutorServiceState.setTerminated (W.borrow s.shared.termination_tx)).2 =
        modified := by
  rcases h with hc | ⟨⟨ha⟩⟩
  · cases hc
  · cases ha
    exact ⟨rfl, rfl⟩

/-! ## Futures -/

/-- The receiver of an `await_termination` future belongs to the channel. While the future waits,
there is a change to see, or the value is false. -/
def Observer.Informed (s : Service W J) : Observer W → Prop
  | .polling r => W.Issued s.shared.termination_tx r
  | .pending r => W.Issued s.shared.termination_tx r ∧
      (W.hasChanged s.shared.termination_tx r = false → W.borrow s.shared.termination_tx = false)
  | _ => True

/-- No step of the service leaves a future uninformed. -/
theorem Observer.Informed.step {cfg : Config} {s s' : Service W J} {e : Event W J}
    (h : Service.Step cfg s e s') {o : Observer W} (ho : o.Informed s) : o.Informed s' := by
  cases o with
  | polling r => exact h.issued_termination ho
  | pending r => exact ⟨h.issued_termination ho.1, h.unchanged_termination ho.1 ho.2⟩
  | _ => trivial

/-- No step of others leaves a future uninformed. -/
theorem Observer.Informed.later {cfg : Config} {x y : Observed W J} (h : x.Later cfg y)
    {o : Observer W} (ho : o.Informed x.service) : o.Informed y.service := by
  rcases h.service with heq | ⟨e, hs⟩
  · rw [heq]
    exact ho
  · exact ho.step hs

/-- A future arrives informed. -/
theorem Arrival.informed {cfg : Config} {tr : List (WorldEvent W J)} {x y : Observed W J}
    {e : WorldEvent W J} {new : Multiset (Observer W)}
    (hr : Service.Run cfg (inside tr) x.service) (h : Arrival cfg x e y new) :
    ∀ o ∈ new, o.Informed y.service := by
  cases h with
  | awaitTermination hs =>
    intro o ho
    obtain rfl := Multiset.mem_singleton.1 ho
    exact hs.issued_returned hr
  | _ => simp [Observer.Informed]

/-- A future stays informed. -/
theorem Observation.informed {cfg : Config} {o : Observer W} {x y : Observed W J}
    {e : WorldEvent W J} {new : Multiset (Observer W)} (h : Observation cfg o x e y new)
    (ho : o.Informed x.service) : ∀ u ∈ new, u.Informed y.service := by
  cases h with
  | poll =>
    intro u hu
    split_ifs at hu with hv
    · simp at hu
    · obtain rfl := Multiset.mem_singleton.1 hu
      -- the future waits because it has read false
      exact ⟨W.issued_markUnchanged ho, fun _ => by simpa using hv⟩
  | repoll =>
    intro u hu
    obtain rfl := Multiset.mem_singleton.1 hu
    exact ho.1
  | submit =>
    intro u hu
    obtain ⟨-, rfl⟩ := mem_afterAttempt hu
    trivial
  | _ => simp [Observer.Informed]

/-- Every future of a reachable state is informed. -/
theorem World.Run.informed {cfg : Config} {tr : List (WorldEvent W J)} {w : World W J}
    (h : World.Run cfg tr w) : ∀ o ∈ w.threads, o.Informed w.shared.service :=
  Pool.local_invariant (L := fun _ x o => o.Informed x.service)
    (fun hr ha => ⟨fun _ _ ho => ho.later ha.later, ha.informed (World.Run.service hr)⟩)
    (fun _ ho ha => ⟨fun _ _ hu => hu.later ha.later, ha.informed ho⟩) h

/-- A future resolves with the value that it reads. -/
theorem World.Step.poll {cfg : Config} {w w' : World W J} {value : Bool}
    (h : World.Step cfg w (.poll value) w') :
    W.borrow w.shared.service.shared.termination_tx = value := by
  rcases h with ha | ⟨⟨ho⟩⟩
  · cases ha
  · cases ho
    rfl

/-- From a state where the predicate holds, it holds after every continuation. -/
theorem World.path_final {cfg : Config} {w w' : World W J} {es : List (WorldEvent W J)}
    (hp : Path (World.Step cfg) w es w') (ht : w.shared.inner.Terminated) :
    w'.shared.inner.Terminated :=
  hp.keeps (P := fun w => w.shared.inner.Terminated)
    (fun ht hs => (World.Step.later hs).final ht) ht

/-- From a state where the value is true, it is true after every continuation. -/
theorem World.path_borrow {cfg : Config} {w w' : World W J} {es : List (WorldEvent W J)}
    (hp : Path (World.Step cfg) w es w')
    (hv : W.borrow w.shared.service.shared.termination_tx = true) :
    W.borrow w'.shared.service.shared.termination_tx = true := by
  refine hp.keeps (P := fun w => W.borrow w.shared.service.shared.termination_tx = true) ?_ hv
  intro w e w' hv hs
  rcases World.Step.service_step hs with ⟨_, _, hstep⟩ | ⟨_, heq⟩
  · exact hstep.borrow_termination hv
  · rw [heq]
    exact hv

/-! ## Published exactly once -/

/-- Some operation has computed under the lock that the service is terminated, and has its
publication to make. -/
def TerminationOwed (ts : Multiset (Thread W J)) : Prop := ∃ t ∈ ts, t.changes.terminated = true

/-- Termination is published once, not early and not lost, after the history `tr` and in the state
`w`. -/
structure PublishedOnce (cfg : Config) (tr : List (WorldEvent W J)) (w : World W J) : Prop where
  /-- A true value means that the predicate holds, now and after every continuation. -/
  never_early : W.borrow w.shared.service.shared.termination_tx = true →
    w.shared.inner.Terminated ∧ ∀ es w', Path (World.Step cfg) w es w' →
      w'.shared.inner.Terminated ∧ W.borrow w'.shared.service.shared.termination_tx = true
  /-- When the predicate holds, the value is true or a publication is to be made. -/
  never_lost : w.shared.inner.Terminated →
    W.borrow w.shared.service.shared.termination_tx = true ∨
      TerminationOwed w.shared.service.threads
  /-- At most one publication changes the value. -/
  once : tally Event.publications (inside tr) ≤ 1
  /-- The others are seen by no receiver. -/
  unseen : ∀ w', World.Step cfg w (.service (.publishTermination false)) w' →
    ∀ r, W.hasChanged w'.shared.service.shared.termination_tx r =
      W.hasChanged w.shared.service.shared.termination_tx r
  /-- Every receiver sees true once the predicate holds and no publication is to be made. -/
  sees : w.shared.inner.Terminated → ¬ TerminationOwed w.shared.service.threads →
    W.borrow w.shared.service.shared.termination_tx = true
  /-- A waiting future is woken then: it has a change to see. -/
  not_stranded : w.shared.inner.Terminated → ¬ TerminationOwed w.shared.service.threads →
    ∀ r, .pending r ∈ w.threads → W.hasChanged w.shared.service.shared.termination_tx r = true
  /-- A future resolves only when the predicate holds. -/
  resolves : ∀ w', World.Step cfg w (.poll true) w' → w.shared.inner.Terminated

/-- Termination is published exactly once, not early and not lost, in every reachable state. -/
theorem published_once {cfg : Config} {tr : List (WorldEvent W J)} {w : World W J}
    (h : World.Run cfg tr w) : PublishedOnce cfg tr w := by
  have hp := (World.Run.service h).published
  have hsees : w.shared.inner.Terminated → ¬ TerminationOwed w.shared.service.threads →
      W.borrow w.shared.service.shared.termination_tx = true :=
    fun ht hnot => (hp.owed ht).resolve_right hnot
  exact
    { never_early := fun hv => ⟨hp.sound hv, fun es w' hpath =>
        ⟨World.path_final hpath (hp.sound hv), World.path_borrow hpath hv⟩⟩
      never_lost := hp.owed
      once := by
        rw [hp.once]
        split_ifs <;> omega
      unseen := by
        intro w' hs r
        rcases World.Step.service_step hs with ⟨e', he, hstep⟩ | ⟨hnone, -⟩
        · obtain rfl := WorldEvent.service.inj he
          obtain ⟨htx, hnot⟩ := hstep.publishTermination
          rw [htx]
          exact W.hasChanged_of_not_modified hnot
        · cases hnone
      sees := hsees
      not_stranded := by
        intro ht hnot r hm
        -- without a change to see the future would have seen the true value
        by_contra hc
        have hv := hsees ht hnot
        rw [(World.Run.informed h _ hm).2 (by simpa using hc)] at hv
        contradiction
      resolves := fun w' hs => hp.sound (World.Step.poll hs) }

/-- In the first run the predicate holds, and the publication of the shutdown is to be made. -/
theorem published_once_tiny : PublishedOnce tinyConfig
    [.service .shutdown, .park ⟨some 5, 0⟩ (some 5), .wait (some 5)]
    ⟨⟨⟨tinyShutdown, {⟨⟨true, true⟩, .returning .shutdown⟩}⟩, 0, 1⟩,
      {.parked ⟨some 5, 0⟩ 0 (some 5)}⟩ := published_once tinyShutdown_run

end RayonExecutor
