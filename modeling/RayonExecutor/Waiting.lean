import RayonExecutor.Order
import RayonExecutor.Admission

/-!
# Bounded waiting

An accepted task is behind the tasks that are queued at that moment, and behind no others. Until it
is taken, exactly these are taken or claimed for cancellation (`bounded_waiting`), so fewer than
`task_capacity` tasks are taken before it, whatever is submitted and cancelled meanwhile.
-/

namespace RayonExecutor

open Transition Pool

variable {W : Watch} {J : Type}

/-! ## The queue as a function of the history -/

/-- The accepted tasks that have been neither taken nor claimed for cancellation. -/
def queued (tr : List (Event W J)) : Multiset ℕ :=
  accepted tr - (taken tr + tally Event.claims tr)

/-- What two histories accept, one after the other. -/
theorem accepted_append (later earlier : List (Event W J)) :
    accepted (later ++ earlier) = accepted later + accepted earlier := by
  rw [accepted, tally_append, Multiset.map_add, accepted, accepted]

/-- What two histories take, one after the other. -/
theorem taken_append (later earlier : List (Event W J)) :
    taken (later ++ earlier) = taken later + taken earlier := by
  rw [taken, tally_append, Multiset.map_add, taken, taken]

section
variable {cfg : Config} {tr later earlier : List (Event W J)} {s s0 : Service W J} {id count : ℕ}
  {job : J}

/-- The tasks that have been neither taken nor claimed are those in the queue. -/
theorem Service.Run.queued_eq (h : Service.Run cfg tr s) :
    queued tr = s.shared.inner.queue.keys := by
  rw [queued, h.accepted_eq, add_tsub_cancel_right]

/-- The queue changes by what is accepted, taken and claimed. -/
theorem Service.Run.keys_since (h : Service.Run cfg (later ++ earlier) s)
    (h0 : Service.Run cfg earlier s0) : accepted later + s0.shared.inner.queue.keys =
      s.shared.inner.queue.keys + (taken later + tally Event.claims later) := by
  have heq := h.accepted_eq
  rw [accepted_append, h0.accepted_eq, taken_append, tally_append] at heq
  -- what the earlier history has taken and claimed is on both sides
  refine add_right_cancel (b := taken earlier + tally Event.claims earlier) ?_
  rw [add_assoc, heq]
  abel

/-- Since a task was accepted the queue has changed by what has been accepted, taken and claimed. -/
theorem Service.Run.queued_since
    (h : Service.Run cfg (later ++ .admitJob job (.ok ⟨id, count⟩) :: earlier) s) :
    accepted later + ({id} + queued earlier) =
      s.shared.inner.queue.keys + (taken later + tally Event.claims later) := by
  obtain ⟨_, hnew⟩ := Run.exists_earlier later h
  obtain ⟨s0, h0, -⟩ := hnew.exists_last
  have hsince : accepted (later ++ [.admitJob job (.ok ⟨id, count⟩)]) + _ = _ :=
    Service.Run.keys_since (by simpa using h) h0
  simpa [accepted_append, taken_append, taken, add_assoc, Service.Run.queued_eq h0] using hsince

/-- Tasks that were accepted later are behind the task, and tasks that were accepted earlier ahead
of it. -/
theorem Service.Run.lt_of_accepted
    (h : Service.Run cfg (later ++ .admitJob job (.ok ⟨id, count⟩) :: earlier) s) :
    (∀ k ∈ accepted later, id < k) ∧ ∀ k ∈ accepted earlier, k < id := by
  constructor
  · intro k hk
    obtain ⟨e, he, hacc⟩ := exists_accepts_iff.2 hk
    obtain ⟨after, before, rfl⟩ := List.append_of_mem he
    refine h.ordered.accepts ⟨after, before, earlier, _, _, ?_, ⟨job, count, rfl⟩, hacc⟩
    simp
  · intro k hk
    obtain ⟨e, he, hacc⟩ := exists_accepts_iff.2 hk
    obtain ⟨after, before, rfl⟩ := List.append_of_mem he
    exact h.ordered.accepts ⟨later, after, before, _, _, rfl, hacc, job, count, rfl⟩

/-- While a task is queued, those that were ahead of it at first are still ahead, or have been taken
or claimed. -/
theorem Service.Run.ahead
    (h : Service.Run cfg (later ++ .admitJob job (.ok ⟨id, count⟩) :: earlier) s)
    (hid : id ∈ s.shared.inner.queue.keys) : queued earlier =
      s.shared.inner.queue.keys.filter (· < id) +
        (taken later + (tally Event.claims later).filter (· < id)) := by
  obtain ⟨hbehind, hahead⟩ := h.lt_of_accepted
  have hsince := congrArg (Multiset.filter (· < id)) h.queued_since
  have h1 : (accepted later).filter (· < id) = 0 :=
    Multiset.filter_eq_nil.2 fun k hk => (hbehind k hk).not_gt
  have h2 : ({id} : Multiset ℕ).filter (· < id) = 0 :=
    Multiset.filter_eq_nil.2 fun k hk => by simp [Multiset.mem_singleton.1 hk]
  have h3 : (queued earlier).filter (· < id) = queued earlier :=
    Multiset.filter_eq_self.2 fun k hk =>
      hahead k (Multiset.mem_of_le (Multiset.sub_le_self _ _) hk)
  -- workers take what is ahead of a queued task only
  have h4 : (taken later).filter (· < id) = taken later := by
    refine Multiset.filter_eq_self.2 fun k hk => h.ordered.queued ?_ hid
    rw [taken_append]
    exact Multiset.mem_add.2 (.inl hk)
  simpa only [Multiset.filter_add, h1, h2, h3, h4, zero_add] using hsince

/-- A task is accepted while fewer tasks than the capacity are queued. -/
theorem Service.Run.card_queued_lt
    (h : Service.Run cfg (later ++ .admitJob job (.ok ⟨id, count⟩) :: earlier) s) :
    (queued earlier).card < cfg.task_capacity := by
  obtain ⟨_, hnew⟩ := Run.exists_earlier later h
  obtain ⟨s0, h0, hs⟩ := hnew.exists_last
  have hcap := (Service.Run.config h0).1
  rw [Service.Run.queued_eq h0, OrderedMap.card_keys, ← hcap]
  rcases Service.Step.accepts_cases hs with hnone | ⟨-, -, -, -, hlt⟩
  · simp at hnone
  · refine lt_of_le_of_lt ?_ hlt
    unfold RayonExecutorServiceInner.occupied
    omega

end

/-! ## Bounded waiting -/

/-- How long a task waits, over the history `tr` of a run that ends in `s`. -/
structure BoundedWaiting (cfg : Config) (tr : List (Event W J)) (s : Service W J) : Prop where
  /-- While a task is queued, of those that were queued when it was accepted each is still ahead of
  it or has been taken or claimed for cancellation, and nobody else has been taken. -/
  waiting : ∀ later earlier job id count, tr = later ++ .admitJob job (.ok ⟨id, count⟩) :: earlier →
    id ∈ s.shared.inner.queue.keys → queued earlier =
      s.shared.inner.queue.keys.filter (· < id) +
        (taken later + (tally Event.claims later).filter (· < id))
  /-- From its acceptance until a worker takes it, exactly these have been taken or claimed. -/
  started : ∀ later mid earlier job job' id count,
    tr = later ++ .takeNext (some (id, job')) ::
      (mid ++ .admitJob job (.ok ⟨id, count⟩) :: earlier) →
    queued earlier = taken mid + (tally Event.claims mid).filter (· < id)
  /-- The tasks that are queued when a task is accepted are fewer than the capacity. -/
  bounded : ∀ later earlier job id count, tr = later ++ .admitJob job (.ok ⟨id, count⟩) :: earlier →
    (queued earlier).card < cfg.task_capacity

/-- The wait of every task is bounded by the queue that it joins. -/
theorem bounded_waiting {cfg : Config} {tr : List (Event W J)} {s : Service W J}
    (h : Service.Run cfg tr s) : BoundedWaiting cfg tr s where
  waiting later earlier job id count heq hid := by
    subst heq
    exact h.ahead hid
  started later mid earlier job job' id count heq := by
    subst heq
    obtain ⟨_, htaken⟩ := Run.exists_earlier later h
    obtain ⟨s0, h0, hs⟩ := htaken.exists_last
    obtain ⟨hid, -, hleast⟩ := Service.Step.takes_least hs
    have hnone : s0.shared.inner.queue.keys.filter (· < id) = 0 := by
      refine Multiset.filter_eq_nil.2 fun k hk hlt => ?_
      exact (hleast k hk hlt.ne).asymm hlt
    rw [Service.Run.ahead h0 hid, hnone, zero_add]
  bounded later earlier job id count heq := by
    subst heq
    exact h.card_queued_lt

/-- The second of two jobs has waited for the first. -/
theorem bounded_waiting_tiny : BoundedWaiting tinyConfig
    [.takeNext (some (0, 7)), .admitJob 8 (.ok ⟨1, 0⟩), .spawn, .admitJob 7 (.ok ⟨0, 1⟩)]
    ⟨tinyJoined.takeNext.state, {⟨.none, .claimed 0 7⟩, ⟨.none, .dispatching 0 (.submitted 1)⟩,
      ⟨.none, .dispatching 0 (.submitted 0)⟩}⟩ :=
  bounded_waiting tinyJoined_run

end RayonExecutor
