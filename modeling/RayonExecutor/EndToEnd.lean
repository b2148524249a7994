import RayonExecutor.Refinement
import RayonExecutor.Abstraction

/-!
# From the code to the board

The code refines the service, which refines the board. Together: whatever the interleaving, the user
code and its panics, the jobs are handed to `run` and to `cancel` in the order in which a board lets
them be, whoever has the lock finds the tasks of that board, and each caller that is told a number
has a task of its own there (`code_refines_board`).
-/

namespace RayonExecutor

open Program hiding ret
open Transition Pool Code

/-! ## The calls of jobs -/

section
variable {W : Watch} {J : Type}

/-- The call of a job. -/
def Event.called? : Event W J → Option (ℕ × Mark J)
  | .run task_id job => some (task_id, .run job)
  | .cancel task_id job => some (task_id, .cancel job)
  | _ => none

/-- The call of a job, on the board. -/
def Move.called? : Move J → Option (ℕ × Mark J)
  | .advance id (.run job) => some (id, .run job)
  | .advance id (.cancel job) => some (id, .cancel job)
  | _ => none

/-- The board has the calls of the service. -/
theorem filterMap_called? (tr : List (Event W J)) :
    (tr.filterMap Event.move?).filterMap Move.called? = tr.filterMap Event.called? := by
  rw [List.filterMap_filterMap]
  congr 1
  funext e
  cases e with
  | admitJob job outcome => cases outcome <;> rfl
  | cancelPendingTask endpoint task_id disposition => cases disposition <;> rfl
  | takeNext taken => cases taken <;> rfl
  | _ => rfl

end

/-! ## The code and the board -/

variable {W : Watch} {C : Client}

/-- The call of a job, in the code. -/
def CodeEvent.called? (l : CodeEvent W C) : Option (ℕ × Mark C.Job) := l.event?.bind Event.called?

/-- The calls of jobs are effects of the code. -/
theorem filterMap_effect? {us : List (Event W C.Job)} {tr : List (CodeEvent W C)}
    (h : us.filterMap Event.effect? = tr.filterMap CodeEvent.event?) :
    us.filterMap Event.called? = tr.filterMap CodeEvent.called? := by
  have hcalled : ∀ e : Event W C.Job, e.effect?.bind Event.called? = e.called? := by
    intro e
    cases e <;> rfl
  calc us.filterMap Event.called?
      = (us.filterMap Event.effect?).filterMap Event.called? := by
        rw [List.filterMap_filterMap]
        exact congrArg (us.filterMap ·) (funext fun e => (hcalled e).symm)
    _ = tr.filterMap CodeEvent.called? := by
        rw [h, List.filterMap_filterMap]
        rfl

/-- The board of a run of the code: the moves `ms` lead to it. -/
structure CodeBoard (cfg : Config) (tr : List (CodeEvent W C)) (x : SharedState W C)
    (ms : List (Move C.Job)) (b : Board C.Job) : Prop where
  run : Board.Run cfg.task_capacity cfg.num_threads ms b
  bounded : b.occupied ≤ cfg.task_capacity ∧ b.busy ≤ cfg.num_threads
  /-- The code calls the jobs as the board does, in the same order. -/
  called : ms.filterMap Move.called? = tr.filterMap CodeEvent.called?
  /-- No two callers are told the same number, and each is told that of a task. -/
  told : (tally CodeEvent.tells tr).Nodup ∧
    ∀ id ∈ tally CodeEvent.tells tr, ∃ p, (id, p) ∈ b.tasks
  /-- Whoever takes the lock finds the tasks of the board. -/
  queue : x.locked = false → x.state.inner.queue.toMultiset = b.queue
  running : x.locked = false → ∀ id, id ∈ x.state.inner.running_tasks ↔
    ∃ job, (id, .taken job) ∈ b.tasks ∨ (id, .running job) ∈ b.tasks
  cancelling : x.locked = false → ∀ id, id ∈ x.state.inner.cancelling ↔
    ∃ job, (id, .claimed job) ∈ b.tasks ∨ (id, .cancelling job) ∈ b.tasks
  occupied : x.locked = false → x.state.inner.occupied = b.occupied
  /-- Whoever takes the lock finds the service closed when the board is, and terminated when the
  board is empty too. -/
  closed : x.locked = false → (x.state.inner.lifecycle ≠ .running ↔ b.closed = true)
  terminated : x.locked = false →
    (x.state.inner.Terminated ↔ b.closed = true ∧ b.occupied = 0)

/-- Every run of the code is one of a board. -/
theorem code_refines_board {cfg : Config} {tr : List (CodeEvent W C)}
    {p : Pool (SharedState W C) (Code W C Unit)} (h : CodeRun cfg tr p) (hspawned : Spawned tr) :
    ∃ ms b, CodeBoard cfg tr p.shared ms b := by
  obtain ⟨us, n, s, hr, heffects, hsim⟩ := h.simulates hspawned
  obtain ⟨b, hb, hrep⟩ := hr.exists_board
  have hcalled := filterMap_effect? heffects
  have hstate := (hsim.refined hr heffects).state
  have htold := hr.told_le heffects
  refine ⟨us.filterMap Event.move?, b, ?_⟩
  exact
    { run := hb
      bounded := Board.Run.bounded hb
      called := (filterMap_called? us).trans hcalled
      told := by
        refine ⟨Multiset.nodup_of_le htold hr.ledger.nodup, fun id hid => ?_⟩
        have haccepted := Multiset.mem_of_le htold hid
        rw [← tally_move_accepts, ← Board.Run.accepted hb] at haccepted
        obtain ⟨⟨_, p⟩, hp, rfl⟩ := Multiset.mem_map.1 haccepted
        exact ⟨p, hp⟩
      queue := by
        intro hfree
        rw [← hstate hfree, hrep.queue]
      running := by
        intro hfree id
        rw [← hstate hfree]
        exact hrep.mem_running_tasks hr id
      cancelling := by
        intro hfree id
        rw [← hstate hfree]
        exact hrep.mem_cancelling_tasks hr id
      occupied := by
        intro hfree
        rw [← hstate hfree, hrep.occupied hr.ledger]
      closed := by
        intro hfree
        rw [← hstate hfree, hrep.closed]
      terminated := by
        intro hfree
        rw [← hstate hfree, hrep.closed, hrep.occupied hr.ledger]
        exact Iff.rfl }

/-- The board of the code whose first job has unwound has one task in the queue. -/
theorem code_refines_board_tiny : ∃ ms b,
    CodeBoard tinyConfig tinyPanicked ⟨tinyQueued, false⟩ ms b ∧ b.queue = {(1, (8 : ℕ))} := by
  obtain ⟨ms, b, hb⟩ := code_refines_board tinyPanicked_run tinyPanicked_spawned
  exact ⟨ms, b, hb, (hb.queue rfl).symm⟩

end RayonExecutor
