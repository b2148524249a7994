import RayonExecutor.Lib.Run
import RayonExecutor.Lib.Pool

/-!
# The board

What the service is for, without locks, closures, threads and counters: a board with the tasks that
were accepted, each in one phase of its life. A task is queued, taken by a worker, run and finished,
or it is claimed while it is queued, cancelled and left. The tasks depend on each other in three
ways only: a task is accepted when there is room, it is taken when it is the first in the queue and
a worker is free, and a `stop` claims all of the queue at once.

The history of a task is determined by its phase (`Board.Run.marks`).
-/

namespace RayonExecutor

open Transition Pool

/-- The phases of a task. -/
inductive Phase (J : Type)
  | queued (job : J)
  | taken (job : J)
  | running (job : J)
  | finished (job : J)
  | claimed (job : J)
  | cancelling (job : J)
  | cancelled (job : J)
  deriving DecidableEq, Repr

/-- What happens to a task. -/
inductive Mark (J : Type)
  | accept (job : J)
  | take (job : J)
  | run (job : J)
  | finish
  | claim (job : J)
  | cancel (job : J)
  | leave
  deriving DecidableEq, Repr

variable {J : Type}

namespace Phase

/-- What has happened to a task in the phase, latest first. -/
@[simp] def past : Phase J → List (Mark J)
  | .queued job => [.accept job]
  | .taken job => [.take job, .accept job]
  | .running job => [.run job, .take job, .accept job]
  | .finished job => [.finish, .run job, .take job, .accept job]
  | .claimed job => [.claim job, .accept job]
  | .cancelling job => [.cancel job, .claim job, .accept job]
  | .cancelled job => [.leave, .cancel job, .claim job, .accept job]

/-- The slots of the capacity that a task occupies. -/
@[simp] def slots : Phase J → ℕ
  | .queued _ | .taken _ | .running _ | .claimed _ | .cancelling _ => 1
  | .finished _ | .cancelled _ => 0

/-- The workers that a task occupies. -/
@[simp] def workers : Phase J → ℕ
  | .taken _ | .running _ => 1
  | .queued _ | .finished _ | .claimed _ | .cancelling _ | .cancelled _ => 0

/-- Every task was accepted. -/
theorem past_ne_nil (p : Phase J) : p.past ≠ [] := by
  cases p <;> simp

/-- The past says which phase it is. -/
theorem past_injective : Function.Injective (past (J := J)) := by
  intro p q h
  cases p <;> cases q <;> simp_all

/-- The steps of one task by itself. -/
inductive Advance : Phase J → Mark J → Phase J → Prop
  | run (job : J) : Advance (.taken job) (.run job) (.running job)
  | finish (job : J) : Advance (.running job) .finish (.finished job)
  | claim (job : J) : Advance (.queued job) (.claim job) (.claimed job)
  | cancel (job : J) : Advance (.claimed job) (.cancel job) (.cancelling job)
  | leave (job : J) : Advance (.cancelling job) .leave (.cancelled job)

/-- A task that is queued is claimed by a `stop`, and the others stay as they are. -/
def swept : Phase J → Phase J
  | .queued job => .claimed job
  | p => p

/-- The job of a task that is queued. -/
@[simp] def queued? : Phase J → Option J
  | .queued job => some job
  | .taken _ | .running _ | .finished _ | .claimed _ | .cancelling _ | .cancelled _ => none

/-- The job of a task that a worker has taken and not run. -/
@[simp] def taken? : Phase J → Option J
  | .taken job => some job
  | .queued _ | .running _ | .finished _ | .claimed _ | .cancelling _ | .cancelled _ => none

/-- The job of a task that is run. -/
@[simp] def running? : Phase J → Option J
  | .running job => some job
  | .queued _ | .taken _ | .finished _ | .claimed _ | .cancelling _ | .cancelled _ => none

/-- The job of a task that is claimed and not cancelled. -/
@[simp] def claimed? : Phase J → Option J
  | .claimed job => some job
  | .queued _ | .taken _ | .running _ | .finished _ | .cancelling _ | .cancelled _ => none

/-- The job of a task that is cancelled. -/
@[simp] def cancelling? : Phase J → Option J
  | .cancelling job => some job
  | .queued _ | .taken _ | .running _ | .finished _ | .claimed _ | .cancelled _ => none

/-- The functions that give the job of a task in one phase, each with its phase. -/
inductive Knows : (Phase J → Option J) → (J → Phase J) → Prop
  | queued : Knows queued? .queued
  | taken : Knows taken? .taken
  | running : Knows running? .running
  | claimed : Knows claimed? .claimed
  | cancelling : Knows cancelling? .cancelling

/-- A function that knows a phase gives the job of a task in that phase, and no other job. -/
theorem Knows.eq_some {f : Phase J → Option J} {q : J → Phase J} (h : Knows f q) (p : Phase J)
    (job : J) : f p = some job ↔ p = q job := by
  cases h <;> cases p <;> simp

variable {p p' : Phase J} {mark : Mark J}

/-- What happens is added to the past. -/
theorem Advance.past (h : p.Advance mark p') : p'.past = mark :: p.past := by
  cases h <;> rfl

/-- A task by itself needs no more slots and no more workers. -/
theorem Advance.le (h : p.Advance mark p') : p'.slots ≤ p.slots ∧ p'.workers ≤ p.workers := by
  cases h <;> simp

/-- A task lives one of two lives, and is somewhere in it. -/
theorem past_reverse_prefix (p : Phase J) : ∃ job : J,
    p.past.reverse <+: [.accept job, .take job, .run job, .finish] ∨
      p.past.reverse <+: [.accept job, .claim job, .cancel job, .leave] := by
  cases p with
  | queued job | taken job | running job | finished job =>
    exact ⟨job, .inl (by simp [List.cons_prefix_cons])⟩
  | claimed job | cancelling job | cancelled job =>
    exact ⟨job, .inr (by simp [List.cons_prefix_cons])⟩

/-- A task that is swept keeps its slot, and no worker comes or goes. -/
theorem swept_slots (p : Phase J) : p.swept.slots = p.slots ∧ p.swept.workers = p.workers := by
  cases p <;> exact ⟨rfl, rfl⟩

/-- Only queued tasks are swept. -/
theorem swept_past (p : Phase J) :
    p.swept.past = (p.queued?.map Mark.claim).toList ++ p.past := by
  cases p <;> rfl

end Phase

/-- The accepted tasks, by their numbers, and whether the board accepts no more of them. -/
structure Board (J : Type) where
  tasks : Multiset (ℕ × Phase J)
  closed : Bool

/-- What happens on a board. -/
inductive Move (J : Type)
  | accept (id : ℕ) (job : J)
  | take (id : ℕ) (job : J)
  | advance (id : ℕ) (mark : Mark J)
  | close
  | stop (jobs : List (ℕ × J))

/-- What a move means for a task. -/
def Move.marks (id : ℕ) : Move J → List (Mark J)
  | .accept task_id job => if task_id = id then [.accept job] else []
  | .take task_id job => if task_id = id then [.take job] else []
  | .advance task_id mark => if task_id = id then [mark] else []
  | .close => []
  | .stop jobs => jobs.filterMap fun e => if e.1 = id then some (.claim e.2) else none

/-- The task that a move accepts. -/
def Move.accepts : Move J → Multiset ℕ
  | .accept id _ => {id}
  | _ => 0

namespace Board

/-- The occupied slots. -/
def occupied (b : Board J) : ℕ := total (fun t => t.2.slots) b.tasks

/-- The workers that have a task. -/
def busy (b : Board J) : ℕ := total (fun t => t.2.workers) b.tasks

/-- The jobs of the tasks in some phase, with their numbers. -/
def those (f : Phase J → Option J) (b : Board J) : Multiset (ℕ × J) :=
  b.tasks.filterMap fun t => (f t.2).map fun job => (t.1, job)

/-- The queue. -/
abbrev queue (b : Board J) : Multiset (ℕ × J) := b.those Phase.queued?

section those
variable {f : Phase J → Option J} {b : Board J} {id : ℕ} {job : J} {p : Phase J}
  {tasks rest : Multiset (ℕ × Phase J)} {closed : Bool}

/-- What a task counts. -/
def count (f : Phase J → Option J) (id : ℕ) (p : Phase J) : Multiset (ℕ × J) :=
  (f p).elim 0 fun job => {(id, job)}

/-- One task after another. -/
theorem those_cons (f : Phase J → Option J) (id : ℕ) (p : Phase J)
    (rest : Multiset (ℕ × Phase J)) (closed : Bool) :
    those f ⟨(id, p) ::ₘ rest, closed⟩ = count f id p + those f ⟨rest, closed⟩ := by
  rw [those, those, count]
  cases h : f p with
  | none => simp [Multiset.filterMap_cons_none, h]
  | some job => simp [h]

/-- The tasks that are counted are those in the phase. -/
theorem mem_those {q : J → Phase J} (hf : Phase.Knows f q) :
    (id, job) ∈ b.those f ↔ (id, q job) ∈ b.tasks := by
  rw [those, Multiset.mem_filterMap]
  constructor
  · rintro ⟨⟨k, p⟩, ht, heq⟩
    obtain ⟨job', hp, heq⟩ := Option.map_eq_some_iff.1 heq
    obtain ⟨rfl, rfl⟩ := Prod.mk.inj heq
    obtain rfl := (hf.eq_some p job').1 hp
    exact ht
  · exact fun ht => ⟨_, ht, by simp [(hf.eq_some _ job).2 rfl]⟩

/-- A board with a task. -/
theorem exists_rest (h : (id, p) ∈ b.tasks) : ∃ rest closed, b = ⟨(id, p) ::ₘ rest, closed⟩ := by
  obtain ⟨rest, hrest⟩ := Multiset.exists_cons_of_mem h
  exact ⟨rest, b.closed, by rw [← hrest]⟩

/-- A job is in the queue if its task is queued. -/
theorem mem_queue : (id, job) ∈ b.queue ↔ (id, .queued job) ∈ b.tasks :=
  mem_those .queued

/-- Every task that is counted is one of the tasks. -/
theorem those_keys_le (f : Phase J → Option J) (b : Board J) :
    (b.those f).map Prod.fst ≤ b.tasks.map Prod.fst := by
  obtain ⟨tasks, closed⟩ := b
  induction tasks using Multiset.induction_on with
  | empty => simp [those]
  | cons t tasks ih =>
    obtain ⟨id, p⟩ := t
    rw [those_cons, Multiset.map_add, Multiset.map_cons, ← Multiset.singleton_add]
    refine add_le_add ?_ ih
    cases h : f p <;> simp [count, h]

end those

/-- The workers have the tasks that are taken or run. -/
theorem busy_eq (b : Board J) :
    b.busy = (b.those Phase.taken?).card + (b.those Phase.running?).card := by
  obtain ⟨tasks, closed⟩ := b
  induction tasks using Multiset.induction_on with
  | empty => rfl
  | cons t tasks ih =>
    obtain ⟨id, p⟩ := t
    rw [busy] at ih
    rw [busy, total_cons, ih, those_cons, those_cons]
    cases p <;> simp [count] <;> omega

/-- Whoever is neither finished nor cancelled occupies a slot. -/
theorem occupied_eq (b : Board J) : b.occupied = b.queue.card + b.busy +
    ((b.those Phase.claimed?).card + (b.those Phase.cancelling?).card) := by
  obtain ⟨tasks, closed⟩ := b
  induction tasks using Multiset.induction_on with
  | empty => rfl
  | cons t tasks ih =>
    obtain ⟨id, p⟩ := t
    rw [occupied, busy_eq] at ih
    rw [occupied, total_cons, ih, busy_eq]
    simp only [queue, those_cons]
    cases p <;> simp [count] <;> omega

/-- What is left of the queue when it is swept, and where it goes. -/
theorem those_swept (tasks : Multiset (ℕ × Phase J)) (closed closed' : Bool) :
    queue ⟨tasks.map fun t => (t.1, t.2.swept), closed⟩ = 0 ∧
      those Phase.claimed? ⟨tasks.map fun t => (t.1, t.2.swept), closed⟩ =
        queue ⟨tasks, closed'⟩ + those Phase.claimed? ⟨tasks, closed'⟩ := by
  induction tasks using Multiset.induction_on with
  | empty => exact ⟨rfl, rfl⟩
  | cons t tasks ih =>
    obtain ⟨id, p⟩ := t
    obtain ⟨hq, hc⟩ := ih
    simp only [Multiset.map_cons, queue, those_cons] at *
    rw [hq, hc]
    cases p <;> simp [count, Phase.swept]

/-- A `stop` leaves the phases as they are that it neither empties nor fills. -/
theorem those_swept_of_eq {f : Phase J → Option J} (hf : ∀ p, f p.swept = f p)
    (tasks : Multiset (ℕ × Phase J)) (closed closed' : Bool) :
    those f ⟨tasks.map fun t => (t.1, t.2.swept), closed⟩ = those f ⟨tasks, closed'⟩ := by
  rw [those, those, Multiset.filterMap_map]
  simp only [Function.comp_def, hf]

/-- The moves on a board for `capacity` tasks and `workers` workers. -/
inductive Step (capacity workers : ℕ) : Board J → Move J → Board J → Prop
  /-- Tasks are numbered in the order in which they are accepted. -/
  | accept {b : Board J} {id : ℕ} {job : J} (hopen : b.closed = false)
      (hroom : b.occupied < capacity) (hnew : ∀ t ∈ b.tasks, t.1 < id) :
      Step capacity workers b (.accept id job) { b with tasks := (id, .queued job) ::ₘ b.tasks }
  | take {closed : Bool} {id : ℕ} {job : J} {rest : Multiset (ℕ × Phase J)}
      (hfree : busy ⟨(id, .queued job) ::ₘ rest, closed⟩ < workers)
      (hfirst : ∀ e ∈ Board.queue ⟨rest, closed⟩, id < e.1) :
      Step capacity workers ⟨(id, .queued job) ::ₘ rest, closed⟩ (.take id job)
        ⟨(id, .taken job) ::ₘ rest, closed⟩
  | advance {closed : Bool} {id : ℕ} {p p' : Phase J} {mark : Mark J}
      {rest : Multiset (ℕ × Phase J)} (h : p.Advance mark p') :
      Step capacity workers ⟨(id, p) ::ₘ rest, closed⟩ (.advance id mark)
        ⟨(id, p') ::ₘ rest, closed⟩
  | close {b : Board J} : Step capacity workers b .close { b with closed := true }
  | stop {b : Board J} {jobs : List (ℕ × J)} (h : (jobs : Multiset (ℕ × J)) = b.queue) :
      Step capacity workers b (.stop jobs)
        ⟨b.tasks.map fun t => (t.1, t.2.swept), true⟩

/-- The runs of a board, which is empty and open at first. -/
abbrev Run (capacity workers : ℕ) : List (Move J) → Board J → Prop :=
  Transition.Run ⟨0, false⟩ (Step capacity workers)

section
variable {capacity workers : ℕ} {tr : List (Move J)} {b b' : Board J} {m : Move J}

/-- There are no more unfinished tasks than slots, and no more tasks at work than workers. -/
theorem Run.bounded (h : Run capacity workers tr b) :
    b.occupied ≤ capacity ∧ b.busy ≤ workers := by
  refine h.invariant (P := fun _ b => b.occupied ≤ capacity ∧ b.busy ≤ workers)
    ⟨Nat.zero_le _, Nat.zero_le _⟩ ?_
  rintro tr b m b' - ⟨hslots, hworkers⟩ hs
  cases hs with
  | accept _ hroom =>
    simp only [occupied, busy, total_cons, Phase.slots, Phase.workers] at *
    omega
  | take hfree =>
    simp only [occupied, busy, total_cons, Phase.slots, Phase.workers] at *
    omega
  | advance h =>
    obtain ⟨hs, hw⟩ := h.le
    simp only [occupied, busy, total_cons] at *
    omega
  | close => exact ⟨hslots, hworkers⟩
  | stop =>
    simp only [occupied, busy, total, Multiset.map_map, Function.comp_def,
      (Phase.swept_slots _).1, (Phase.swept_slots _).2] at *
    exact ⟨hslots, hworkers⟩

/-- No number is given twice. -/
theorem Run.nodup (h : Run capacity workers tr b) : (b.tasks.map Prod.fst).Nodup := by
  refine h.invariant (P := fun _ b => (b.tasks.map Prod.fst).Nodup) Multiset.nodup_zero ?_
  rintro tr b m b' - hn hs
  cases hs with
  | accept _ _ hnew =>
    rw [Multiset.map_cons]
    refine Multiset.nodup_cons.2 ⟨fun hm => ?_, hn⟩
    obtain ⟨t, ht, heq⟩ := Multiset.mem_map.1 hm
    exact absurd (hnew t ht) (by simp [heq])
  | take => simpa using hn
  | advance => simpa using hn
  | close => exact hn
  | stop => simpa using hn

/-- The marks of a task in a history, latest first. -/
def history (id : ℕ) (tr : List (Move J)) : List (Mark J) := tr.flatMap (Move.marks id)

/-- The history of every task is the past of its phase. -/
structure Traced (tr : List (Move J)) (b : Board J) : Prop where
  known : ∀ {id p}, (id, p) ∈ b.tasks → history id tr = p.past
  unknown : ∀ {id}, id ∉ b.tasks.map Prod.fst → history id tr = []

/-- The history of a task says which phase it is in. -/
theorem Traced.past_iff (h : Traced tr b) {id : ℕ} {p : Phase J} :
    history id tr = p.past ↔ (id, p) ∈ b.tasks := by
  refine ⟨fun heq => ?_, h.known⟩
  by_cases hid : id ∈ b.tasks.map Prod.fst
  · obtain ⟨⟨_, q⟩, hq, rfl⟩ := Multiset.mem_map.1 hid
    obtain rfl := Phase.past_injective ((h.known hq).symm.trans heq)
    exact hq
  · rw [h.unknown hid] at heq
    exact absurd heq.symm p.past_ne_nil

/-- The history of a board stays traced when one task comes or goes on, while the others are as they
were. -/
theorem Traced.of_rest {id : ℕ} {p : Phase J} {mark : Mark J} {closed : Bool}
    {rest : Multiset (ℕ × Phase J)} (hid : id ∉ rest.map Prod.fst)
    (hknown : ∀ {k q}, (k, q) ∈ rest → history k tr = q.past)
    (hunknown : ∀ {k}, k ≠ id → k ∉ rest.map Prod.fst → history k tr = [])
    (hpast : p.past = mark :: history id tr)
    (hm : ∀ k, m.marks k = if id = k then [mark] else []) :
    Traced (m :: tr) ⟨(id, p) ::ₘ rest, closed⟩ := by
  have hcons : ∀ k, history k (m :: tr) = (if id = k then [mark] else []) ++ history k tr :=
    fun k => congrArg (· ++ history k tr) (hm k)
  constructor
  · intro k q hk
    rw [hcons]
    rcases Multiset.mem_cons.1 hk with heq | hk
    · obtain ⟨rfl, rfl⟩ := Prod.mk.inj heq
      rw [if_pos rfl, hpast]
      rfl
    · have hne : id ≠ k := by
        rintro rfl
        exact hid (Multiset.mem_map.2 ⟨_, hk, rfl⟩)
      rw [if_neg hne, hknown hk]
      rfl
  · intro k hk
    rw [Multiset.map_cons, Multiset.mem_cons, not_or] at hk
    rw [hcons, if_neg (Ne.symm hk.1), hunknown hk.1 hk.2]
    rfl

/-- A new task comes. -/
theorem Traced.accept (h : Traced tr b) {id : ℕ} (hnew : ∀ t ∈ b.tasks, t.1 < id) (job : J) :
    Traced (.accept id job :: tr) { b with tasks := (id, .queued job) ::ₘ b.tasks } := by
  have hid : id ∉ b.tasks.map Prod.fst := by
    intro hm
    obtain ⟨t, ht, heq⟩ := Multiset.mem_map.1 hm
    exact absurd (hnew t ht) (by simp [heq])
  refine Traced.of_rest hid h.known (fun _ => h.unknown) ?_ fun _ => rfl
  rw [h.unknown hid]
  rfl

/-- A task goes on. -/
theorem Traced.replace {id : ℕ} {p p' : Phase J} {mark : Mark J} {closed : Bool}
    {rest : Multiset (ℕ × Phase J)} (h : Traced tr ⟨(id, p) ::ₘ rest, closed⟩)
    (hn : (((id, p) ::ₘ rest).map Prod.fst).Nodup) (hpast : p'.past = mark :: p.past)
    (hm : ∀ k, m.marks k = if id = k then [mark] else []) :
    Traced (m :: tr) ⟨(id, p') ::ₘ rest, closed⟩ := by
  rw [Multiset.map_cons, Multiset.nodup_cons] at hn
  refine Traced.of_rest hn.1 (fun hk => h.known (Multiset.mem_cons_of_mem hk)) ?_ ?_ hm
  · intro k hne hk
    refine h.unknown ?_
    rw [Multiset.map_cons, Multiset.mem_cons, not_or]
    exact ⟨hne, hk⟩
  · rw [hpast, h.known (Multiset.mem_cons_self _ _)]

/-- A stop claims a job once. -/
theorem marks_stop {jobs : List (ℕ × J)} (hn : (jobs.map Prod.fst).Nodup) {id : ℕ} {job : J}
    (h : (id, job) ∈ jobs) : (Move.stop jobs).marks id = [.claim job] := by
  obtain ⟨before, after, rfl⟩ := List.append_of_mem h
  simp only [List.map_append, List.map_cons, List.nodup_append, List.nodup_cons] at hn
  obtain ⟨-, ⟨hafter, -⟩, hbefore⟩ := hn
  have hnone : ∀ l : List (ℕ × J), id ∉ l.map Prod.fst →
      l.filterMap (fun e => if e.1 = id then some (Mark.claim e.2) else none) = [] := by
    intro l hl
    refine List.filterMap_eq_nil_iff.2 fun e he => if_neg ?_
    rintro rfl
    exact hl (List.mem_map_of_mem he)
  rw [Move.marks, List.filterMap_append, List.filterMap_cons, hnone _ hafter,
    hnone before fun hm => hbefore id hm id List.mem_cons_self rfl]
  simp

/-- The history of a board stays traced when a `stop` claims the queued tasks. -/
theorem Traced.stop (h : Traced tr b) (hn : (b.tasks.map Prod.fst).Nodup) {jobs : List (ℕ × J)}
    (hjobs : (jobs : Multiset (ℕ × J)) = b.queue) :
    Traced (.stop jobs :: tr) ⟨b.tasks.map fun t => (t.1, t.2.swept), true⟩ := by
  have hmem : ∀ {id job}, (id, job) ∈ jobs ↔ (id, .queued job) ∈ b.tasks := by
    intro id job
    rw [← mem_queue, ← hjobs, Multiset.mem_coe]
  have hkeys : (jobs.map Prod.fst).Nodup := by
    have hle : (b.queue.map Prod.fst).Nodup := Multiset.nodup_of_le (b.those_keys_le _) hn
    rwa [← hjobs, Multiset.map_coe, Multiset.coe_nodup] at hle
  have hnone : ∀ {id}, (∀ job, (id, .queued job) ∉ b.tasks) → (Move.stop jobs).marks id = [] := by
    intro id hnot
    refine List.filterMap_eq_nil_iff.2 fun e he => if_neg ?_
    rintro rfl
    exact hnot e.2 (hmem.1 he)
  constructor
  · intro id p hp
    obtain ⟨⟨k, q⟩, hq, heq⟩ := Multiset.mem_map.1 hp
    obtain ⟨rfl, rfl⟩ := Prod.mk.inj heq
    have hmarks : (Move.stop jobs).marks k = (q.queued?.map Mark.claim).toList := by
      cases q with
      | queued job => exact marks_stop hkeys (hmem.2 hq)
      | _ =>
        refine hnone fun job hm => ?_
        exact absurd (Multiset.inj_on_of_nodup_map hn _ hq _ hm rfl) (by simp)
    rw [q.swept_past, ← h.known hq, ← hmarks]
    rfl
  · intro id hid
    have hid' : id ∉ b.tasks.map Prod.fst := by simpa using hid
    have hmarks : (Move.stop jobs).marks id = [] :=
      hnone fun job hm => hid' (Multiset.mem_map_of_mem Prod.fst hm)
    rw [history, List.flatMap_cons, hmarks, List.nil_append]
    exact h.unknown hid'

/-- In every run the history of a task is the past of its phase. -/
theorem Run.traced (h : Run capacity workers tr b) : Traced tr b := by
  refine h.invariant (P := Traced) ⟨by simp, fun _ => rfl⟩ ?_
  intro tr b m b' hr h hs
  have hn := Board.Run.nodup hr
  cases hs with
  | accept _ _ hnew => exact h.accept hnew _
  | take => exact h.replace hn rfl fun _ => rfl
  | advance hadv => exact h.replace hn hadv.past fun _ => rfl
  | close => exact ⟨h.known, h.unknown⟩
  | stop hjobs => exact h.stop hn hjobs

/-- The tasks are those that were accepted. -/
theorem Run.accepted (h : Run capacity workers tr b) :
    b.tasks.map Prod.fst = tally Move.accepts tr := by
  refine h.invariant (P := fun tr b => b.tasks.map Prod.fst = tally Move.accepts tr) rfl ?_
  rintro tr b m b' - ih hs
  rw [tally_cons, ← ih]
  cases hs <;> simp [Move.accepts, ← Multiset.singleton_add]

end

end Board

end RayonExecutor
