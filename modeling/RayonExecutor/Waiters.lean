import RayonExecutor.Progress
import RayonExecutor.World

/-!
# Blocking waits

A waiter that finds the predicate false parks in the critical section in which it looked, so no step
comes between. The step that makes the predicate true notifies in its own critical section, and the
predicate stays true. Hence a waiter that is still parked when the predicate holds has been notified
since it parked (`Observer.Notified`), and its next check ends the wait.
-/

namespace RayonExecutor

open Transition Pool

variable {W : Watch} {J : Type}

/-- What a step leaves behind is later: the clock has not gone back, and the service has made at
most one step. -/
structure Observed.Later (cfg : Config) (x y : Observed W J) : Prop where
  now : x.now ≤ y.now
  service : y.service = x.service ∨ ∃ e, Service.Step cfg x.service e y.service

/-- The arrival of an observer. -/
theorem Arrival.later {cfg : Config} {x y : Observed W J} {e : WorldEvent W J}
    {new : Multiset (Observer W)} (h : Arrival cfg x e y new) : x.Later cfg y where
  now := by
    cases h with
    | tick hnow => exact hnow
    | _ => exact le_rfl
  service := h.service_step.symm.imp And.right fun ⟨e', _, hs⟩ => ⟨e', hs⟩

/-- What an observer does. -/
theorem Observation.later {cfg : Config} {o : Observer W} {x y : Observed W J}
    {e : WorldEvent W J} {new : Multiset (Observer W)} (h : Observation cfg o x e y new) :
    x.Later cfg y where
  now := by cases h <;> exact le_rfl
  service := h.service_step.symm.imp And.right fun ⟨e', _, hs⟩ => ⟨e', hs⟩

/-- Later the predicate still holds, if it did. -/
theorem Observed.Later.final {cfg : Config} {x y : Observed W J} (h : x.Later cfg y)
    (ht : x.inner.Terminated) : y.inner.Terminated := by
  rcases h.service with heq | ⟨e, hs⟩
  · unfold Observed.inner
    rw [heq]
    exact ht
  · exact hs.progress.final ht

/-- The number of notifications of the condition variable. -/
abbrev Observed.notifications (x : Observed W J) : ℕ := x.service.shared.terminated.notifications

/-- Later there are at least as many notifications. -/
theorem Observed.Later.notified {cfg : Config} {x y : Observed W J} (h : x.Later cfg y) :
    x.notifications ≤ y.notifications := by
  rcases h.service with heq | ⟨e, hs⟩
  · unfold Observed.notifications
    rw [heq]
  · exact hs.progress.notified

/-- A step that makes the predicate true notifies. -/
theorem Observed.Later.woken {cfg : Config} {x y : Observed W J} (h : x.Later cfg y)
    (ht : ¬ x.inner.Terminated) (ht' : y.inner.Terminated) : x.notifications < y.notifications := by
  rcases h.service with heq | ⟨e, hs⟩
  · unfold Observed.inner at ht ht'
    rw [heq] at ht'
    exact absurd ht' ht
  · exact (hs.progress.woken ht ht').1

/-- A blocking wait has started in the past, with a timeout that is a duration. -/
def Wait.Ok (wait : Wait) (now : ℕ) : Prop :=
  wait.started ≤ now ∧ ∀ d ∈ wait.timeout, d ≤ durationMax

/-- A blocking waiter is in order. One that is parked while the predicate holds has been notified
since it parked. -/
def Observer.Notified (x : Observed W J) : Observer W → Prop
  | .checking wait => wait.Ok x.now
  | .parked wait epoch _ => wait.Ok x.now ∧ epoch ≤ x.notifications ∧
      (x.inner.Terminated → epoch < x.notifications)
  | _ => True

/-- No step of others puts a waiter out of order. -/
theorem Observer.Notified.later {cfg : Config} {x y : Observed W J} (h : x.Later cfg y)
    {o : Observer W} (ho : o.Notified x) : o.Notified y := by
  cases o with
  | checking wait => exact ⟨le_trans ho.1 h.now, ho.2⟩
  | parked wait epoch duration =>
    obtain ⟨hok, hle, hlt⟩ := ho
    refine ⟨⟨le_trans hok.1 h.now, hok.2⟩, le_trans hle h.notified, fun ht' => ?_⟩
    -- if the predicate has only now become true, the step has notified
    by_cases ht : x.inner.Terminated
    · exact lt_of_lt_of_le (hlt ht) h.notified
    · exact lt_of_le_of_lt hle (h.woken ht ht')
  | _ => trivial

/-- An observer arrives in order. -/
theorem Arrival.notified {cfg : Config} {x y : Observed W J} {e : WorldEvent W J}
    {new : Multiset (Observer W)} (h : Arrival cfg x e y new) : ∀ o ∈ new, o.Notified y := by
  cases h with
  | wait htimeout =>
    intro o ho
    obtain rfl := Multiset.mem_singleton.1 ho
    exact ⟨le_rfl, htimeout⟩
  | _ => simp [Observer.Notified]

/-- An observer stays in order. -/
theorem Observation.notified {cfg : Config} {o : Observer W} {x y : Observed W J}
    {e : WorldEvent W J} {new : Multiset (Observer W)} (h : Observation cfg o x e y new)
    (ho : o.Notified x) : ∀ u ∈ new, u.Notified y := by
  cases h with
  | park hpark =>
    intro u hu
    obtain rfl := Multiset.mem_singleton.1 hu
    -- it has found the predicate false in the critical section in which it parks
    exact ⟨ho, le_rfl, fun ht => absurd ht (Wait.parks hpark).1⟩
  | wake =>
    intro u hu
    obtain rfl := Multiset.mem_singleton.1 hu
    exact ho.1
  | submit =>
    intro u hu
    obtain ⟨-, rfl⟩ := mem_afterAttempt hu
    trivial
  | poll =>
    split_ifs <;> simp [Observer.Notified]
  | _ => simp [Observer.Notified]

/-- Every observer of a reachable state is in order. -/
theorem World.Run.notified {cfg : Config} {tr : List (WorldEvent W J)} {w : World W J}
    (h : World.Run cfg tr w) : ∀ o ∈ w.threads, o.Notified w.shared :=
  Pool.local_invariant (L := fun _ x o => o.Notified x)
    (fun _ ha => ⟨fun _ _ ho => ho.later ha.later, ha.notified⟩)
    (fun _ ho ha => ⟨fun _ _ hu => hu.later ha.later, ha.notified ho⟩) h

/-- A step with observers leads to something later. -/
theorem World.Step.later {cfg : Config} {w w' : World W J} {e : WorldEvent W J}
    (h : World.Step cfg w e w') : w.shared.Later cfg w'.shared := by
  rcases h with ha | ⟨⟨ho⟩⟩
  · exact ha.later
  · exact ho.later

/-- A wait that returns was about to look. -/
theorem World.Step.waited {cfg : Config} {w w' : World W J} {wait : Wait} {result : Bool}
    (h : World.Step cfg w (.waited wait result) w') : .checking wait ∈ w.threads ∧
      wait.iteration w.shared.inner w.shared.now = .returned result := by
  rcases h with ha | ⟨⟨ho⟩⟩
  · cases ha
  · cases ho with
    | waited hi => exact ⟨Multiset.mem_cons_self _ _, hi⟩

/-- A wait that parks was about to look. -/
theorem World.Step.park {cfg : Config} {w w' : World W J} {wait : Wait} {duration : Option ℕ}
    (h : World.Step cfg w (.park wait duration) w') : .checking wait ∈ w.threads ∧
      wait.iteration w.shared.inner w.shared.now = .park duration := by
  rcases h with ha | ⟨⟨ho⟩⟩
  · cases ha
  · cases ho with
    | park hi => exact ⟨Multiset.mem_cons_self _ _, hi⟩

/-! ## No lost wakeup -/

/-- Blocking waits lose no wakeup, in the state `w`. -/
structure NoLostWakeup (cfg : Config) (w : World W J) : Prop where
  /-- While the predicate holds, every parked waiter has been notified since it parked. -/
  notified : w.shared.inner.Terminated → ∀ wait epoch duration,
    .parked wait epoch duration ∈ w.threads → epoch < w.shared.notifications
  /-- A step that makes the predicate true notifies all waiters. -/
  notifies : ∀ e w', World.Step cfg w e w' → ¬ w.shared.inner.Terminated →
    w'.shared.inner.Terminated → w.shared.notifications < w'.shared.notifications
  /-- A wait returns true exactly when the predicate holds at its last check. -/
  returns : ∀ wait result w', World.Step cfg w (.waited wait result) w' →
    (result = true ↔ w.shared.inner.Terminated)
  /-- A wait returns false only when it has a timeout and that has elapsed since it started. -/
  times_out : ∀ wait w', World.Step cfg w (.waited wait false) w' →
    ∃ timeout, wait.timeout = some timeout ∧ timeout ≤ durationMax ∧
      wait.started + timeout ≤ w.shared.now
  /-- A wait parks without a duration when it has no timeout, and else for a positive duration that
  is what remains of the timeout. -/
  parks : ∀ wait duration w', World.Step cfg w (.park wait duration) w' →
    ¬ w.shared.inner.Terminated ∧ (wait.timeout = none ∧ duration = none ∨
      ∃ timeout d, wait.timeout = some timeout ∧ duration = some d ∧ 0 < d ∧
        w.shared.now + d = wait.started + timeout)

/-- No wakeup of a blocking wait is lost in any reachable state. -/
theorem no_lost_wakeup {cfg : Config} {tr : List (WorldEvent W J)} {w : World W J}
    (h : World.Run cfg tr w) : NoLostWakeup cfg w where
  notified ht wait epoch duration hm := (World.Run.notified h _ hm).2.2 ht
  notifies e w' hs ht ht' := (World.Step.later hs).woken ht ht'
  returns wait result w' hs := by
    obtain ⟨-, hi⟩ := World.Step.waited hs
    exact Wait.returned hi
  times_out wait w' hs := by
    obtain ⟨hm, hi⟩ := World.Step.waited hs
    obtain ⟨hstarted, hmax⟩ := World.Run.notified h _ hm
    obtain ⟨-, timeout, hw, hle⟩ := Wait.returned_false hi
    exact ⟨timeout, hw, hmax timeout hw, by omega⟩
  parks wait duration w' hs := by
    obtain ⟨hm, hi⟩ := World.Step.park hs
    obtain ⟨hstarted, -⟩ := World.Run.notified h _ hm
    obtain ⟨ht, hp⟩ := Wait.parks hi
    refine ⟨ht, hp.imp_right ?_⟩
    rintro ⟨timeout, hw, hlt, hd⟩
    exact ⟨timeout, _, hw, hd, by omega, by omega⟩

/-- The waiter of the first run has been notified by the shutdown. -/
theorem no_lost_wakeup_tiny : NoLostWakeup tinyConfig
    ⟨⟨⟨tinyShutdown, {⟨⟨true, true⟩, .returning .shutdown⟩}⟩, 0, 1⟩,
      {.parked ⟨some 5, 0⟩ 0 (some 5)}⟩ := no_lost_wakeup tinyShutdown_run

end RayonExecutor
