import RayonExecutor.Lib.Mutex

/-!
# Threads that re-enter

Threads run operations over data behind a mutex that is not re-entrant. A thread is a stack of
programs (`Stack`): it runs the innermost, and each of the others has come to a piece of foreign
code that has called the next. Foreign code may call any operations, one after another, do what it
likes with a panic that comes out of one, and answer anything in the end. The other effects may be
answered anything as well, and a new thread may start at any time.

If all operations are `Free`, then in every reachable state no thread that has the lock is about to
run foreign code or to lock again, and each can go on until it gives the lock back
(`StackRun.guarded`, `StackRun.exists_act`).
-/

open Transition Pool Guarded

namespace Program

variable {A D U O P : Type} {V : U → Type} {R : O → Type}

/-- The data, and whether the mutex is locked. -/
structure Locked (D : Type) where
  data : D
  locked : Bool

/-- A thread: whether it has the lock, the program that it runs, and the programs that wait for that
one, innermost first. -/
structure Stack (D U O P : Type) (V : U → Type) (R : O → Type) where
  held : Bool
  top : Program (Guarded D U O) (Answer V R) P Unit
  below : List (Program (Guarded D U O) (Answer V R) P Unit)

/-- What a thread does: it performs an effect, or its foreign code calls an operation, or an
operation is over and leaves to the foreign code that has called it. -/
inductive Stack.Event (A D U O : Type)
  | start (a : A)
  | performed (e : Guarded D U O)
  | call (a : A)
  | leave

namespace Stack

/-- A thread starts with an operation. -/
inductive Starts (program : A → Program (Guarded D U O) (Answer V R) P Unit) :
    Locked D → Event A D U O → Locked D → Multiset (Stack D U O P V R) → Prop
  | start {x : Locked D} {a : A} : Starts program x (.start a) x {⟨false, program a, []⟩}

/-- The actions of a thread. -/
inductive Act (program : A → Program (Guarded D U O) (Answer V R) P Unit) : Stack D U O P V R →
    Locked D → Event A D U O → Locked D → Multiset (Stack D U O P V R) → Prop
  | lock {held : Bool} {k : Unit → Program (Guarded D U O) (Answer V R) P Unit}
      {below : List (Program (Guarded D U O) (Answer V R) P Unit)} {x : Locked D}
      (h : x.locked = false) : Act program ⟨held, .effect .lock k, below⟩ x (.performed .lock)
        { x with locked := true } {⟨true, k (), below⟩}
  | unlock {held : Bool} {k : Unit → Program (Guarded D U O) (Answer V R) P Unit}
      {below : List (Program (Guarded D U O) (Answer V R) P Unit)} {x : Locked D} :
      Act program ⟨held, .effect .unlock k, below⟩ x (.performed .unlock)
        { x with locked := false } {⟨false, k (), below⟩}
  | get {held : Bool} {k : D → Program (Guarded D U O) (Answer V R) P Unit}
      {below : List (Program (Guarded D U O) (Answer V R) P Unit)} {x : Locked D} :
      Act program ⟨held, .effect .get k, below⟩ x (.performed .get) x {⟨held, k x.data, below⟩}
  | set {held : Bool} {d : D} {k : Unit → Program (Guarded D U O) (Answer V R) P Unit}
      {below : List (Program (Guarded D U O) (Answer V R) P Unit)} {x : Locked D} :
      Act program ⟨held, .effect (.set d) k, below⟩ x (.performed (.set d))
        { x with data := d } {⟨held, k (), below⟩}
  | user {held : Bool} {u : U} {k : V u → Program (Guarded D U O) (Answer V R) P Unit}
      {below : List (Program (Guarded D U O) (Answer V R) P Unit)} {x : Locked D} (r : V u) :
      Act program ⟨held, .effect (.user u) k, below⟩ x (.performed (.user u)) x
        {⟨held, k r, below⟩}
  | other {held : Bool} {o : O} {k : R o → Program (Guarded D U O) (Answer V R) P Unit}
      {below : List (Program (Guarded D U O) (Answer V R) P Unit)} {x : Locked D} (r : R o) :
      Act program ⟨held, .effect (.other o) k, below⟩ x (.performed (.other o)) x
        {⟨held, k r, below⟩}
  | call {held : Bool} {u : U} {k : V u → Program (Guarded D U O) (Answer V R) P Unit}
      {below : List (Program (Guarded D U O) (Answer V R) P Unit)} {x : Locked D} (a : A) :
      Act program ⟨held, .effect (.user u) k, below⟩ x (.call a) x
        {⟨held, program a, .effect (.user u) k :: below⟩}
  | leave {held : Bool} {o : Except P Unit} {m : Program (Guarded D U O) (Answer V R) P Unit}
      {below : List (Program (Guarded D U O) (Answer V R) P Unit)} {x : Locked D} :
      Act program ⟨held, Program.resume o, m :: below⟩ x .leave x {⟨held, m, below⟩}

/-- The effect that a thread is about to perform. -/
def next (t : Stack D U O P V R) : Option (Guarded D U O) :=
  match t.top with
  | .effect e _ => some e
  | _ => none

/-- How many locks the thread has. -/
def locks (t : Stack D U O P V R) : ℕ := t.held.toNat

end Stack

/-- The runs of threads over data that are not locked in the beginning. -/
abbrev StackRun (program : A → Program (Guarded D U O) (Answer V R) P Unit) (d : D) :
    List (Stack.Event A D U O) → Pool (Locked D) (Stack D U O P V R) → Prop :=
  Run ⟨⟨d, false⟩, 0⟩ (Pool.Step (Stack.Starts program) (Stack.Act program))

/-! ## The invariant -/

/-- The thread is safe, if it has the lock with the data `d` or does not have it, and so is every
program that waits below, whatever its foreign code answers. -/
structure Stack.Ok (I : D → Prop) (d : D) (t : Stack D U O P V R) : Prop where
  top : t.top.Safe I (if t.held then some d else none) fun h _ => h = none
  below : ∀ m ∈ t.below, m.Free I

section Stack.Ok
variable {I : D → Prop} {d : D} {t : Stack D U O P V R}

/-- The data do not matter to a thread that does not have the lock. -/
theorem Stack.Ok.of_not_held (h : t.Ok I d) (hheld : t.held = false) (d' : D) : t.Ok I d' where
  top := by
    have htop := h.top
    rw [hheld] at htop ⊢
    exact htop
  below := h.below

/-- A thread that has the lock does not come to foreign code or to the lock. -/
theorem Stack.Ok.held_eq_false (h : t.Ok I d)
    (hnext : t.next = some .lock ∨ ∃ u, t.next = some (.user u)) : t.held = false := by
  obtain ⟨held, top, below⟩ := t
  have htop := h.top
  cases held with
  | false => rfl
  | true =>
    cases top with
    | ret | unwind => simp [Stack.next] at hnext
    | effect e k =>
      rcases hnext with hlock | ⟨u, huser⟩
      · obtain rfl : e = .lock := Option.some.inj hlock
        exact absurd htop.1 (Option.some_ne_none d)
      · obtain rfl : e = .user u := Option.some.inj huser
        exact absurd htop.1 (Option.some_ne_none d)

/-- A thread that has the lock can go on, if the other effects are answered at all. -/
theorem Stack.Ok.exists_act (h : t.Ok I d) (hheld : t.held = true) (hanswer : ∀ o, Nonempty (R o))
    (program : A → Program (Guarded D U O) (Answer V R) P Unit) (x : Locked D) :
    ∃ e y new, Stack.Act program t x e y new := by
  obtain ⟨held, top, below⟩ := t
  obtain rfl : held = true := hheld
  have htop := h.top
  cases top with
  | ret | unwind => exact absurd htop (Option.some_ne_none d)
  | effect e k =>
    cases e with
    | lock | user => exact absurd htop.1 (Option.some_ne_none d)
    | unlock => exact ⟨_, _, _, .unlock⟩
    | get => exact ⟨_, _, _, .get⟩
    | set d => exact ⟨_, _, _, .set⟩
    | other o =>
      obtain ⟨r⟩ := hanswer o
      exact ⟨_, _, _, .other r⟩

end Stack.Ok

/-- All threads are safe, exactly one has the lock if it is locked, and the data satisfy their
invariant if it is not. -/
structure Stacks (I : D → Prop) (x : Locked D) (ts : Multiset (Stack D U O P V R)) : Prop where
  ok : ∀ t ∈ ts, t.Ok I x.data
  locks : total Stack.locks ts = x.locked.toNat
  data : x.locked = false → I x.data

section Stacks
variable {I : D → Prop} {x y : Locked D} {t t' : Stack D U O P V R}
  {ts : Multiset (Stack D U O P V R)}

/-- If one thread has the lock, no other has it. -/
theorem Stacks.not_held (h : Stacks I x (t ::ₘ ts)) (hheld : t.held = true) :
    ∀ u ∈ ts, u.held = false := by
  intro u hu
  have hle := share_le_total (f := Stack.locks) hu
  have hlocks := h.locks
  rw [total_cons] at hlocks
  unfold Stack.locks at hle hlocks
  rw [hheld] at hlocks
  have hx := x.locked.toNat_le
  rw [Bool.toNat_true] at hlocks
  have hzero : u.held.toNat = 0 := by omega
  exact Bool.toNat_eq_zero.1 hzero

/-- If a thread has the lock, it is locked. -/
theorem Stacks.locked_of_held (h : Stacks I x (t ::ₘ ts)) (hheld : t.held = true) :
    x.locked = true := by
  have hlocks := h.locks
  rw [total_cons] at hlocks
  unfold Stack.locks at hlocks
  rw [hheld, Bool.toNat_true] at hlocks
  refine Bool.of_not_eq_false fun hx => ?_
  rw [hx, Bool.toNat_false] at hlocks
  omega

/-- What a step of one thread has to keep. -/
theorem Stacks.replace (h : Stacks I x (t ::ₘ ts)) (hok : t'.Ok I y.data)
    (hrest : y.data = x.data ∨ t.held = true)
    (hlocks : t'.locks + x.locked.toNat = t.locks + y.locked.toNat)
    (hdata : y.locked = false → I y.data) : Stacks I y ({t'} + ts) where
  ok u hu := by
    rcases Multiset.mem_add.1 hu with hu | hu
    · rwa [Multiset.mem_singleton.1 hu]
    · have hold := h.ok u (Multiset.mem_cons_of_mem hu)
      rcases hrest with hsame | hheld
      · rwa [hsame]
      · exact hold.of_not_held (h.not_held hheld u hu) _
  locks := by
    have htotal := h.locks
    rw [total_cons] at htotal
    rw [total_add, total_singleton]
    omega
  data := hdata

/-- Every action keeps the invariant, if all operations are free. -/
theorem Stacks.act {program : A → Program (Guarded D U O) (Answer V R) P Unit}
    (hfree : ∀ a, (program a).Free I) {e : Stack.Event A D U O}
    {new : Multiset (Stack D U O P V R)} (h : Stacks I x (t ::ₘ ts))
    (hs : Stack.Act program t x e y new) : Stacks I y (new + ts) := by
  have hok := h.ok t (Multiset.mem_cons_self t ts)
  have htop := hok.top
  cases hs with
  | @lock held k below _ hunlocked =>
    obtain rfl : held = false := hok.held_eq_false (.inl rfl)
    have hk := htop.2 x.data (h.data hunlocked)
    refine h.replace ⟨hk, hok.below⟩ (.inl rfl) ?_ fun hy => absurd hy.symm Bool.false_ne_true
    rw [hunlocked]
    rfl
  | @unlock held k below =>
    obtain ⟨d, hsome, hd, hk⟩ := htop
    obtain ⟨rfl, rfl⟩ : held = true ∧ x.data = d := by simpa using hsome
    refine h.replace ⟨hk, hok.below⟩ (.inl rfl) ?_ fun _ => hd
    rw [h.locked_of_held rfl]
    rfl
  | @get held k below =>
    obtain ⟨d, hsome, hk⟩ := htop
    obtain ⟨rfl, rfl⟩ : held = true ∧ x.data = d := by simpa using hsome
    exact h.replace ⟨hk, hok.below⟩ (.inl rfl) rfl h.data
  | @set held d k below =>
    obtain rfl : held = true := by simpa using htop.1
    have hlocked : x.locked = true := h.locked_of_held rfl
    refine h.replace ⟨htop.2, hok.below⟩ (.inr rfl) rfl fun hy => ?_
    exact absurd (hy.symm.trans hlocked) Bool.false_ne_true
  | @user held u k below _ r =>
    obtain rfl : held = false := hok.held_eq_false (.inr ⟨u, rfl⟩)
    exact h.replace ⟨htop.2 r, hok.below⟩ (.inl rfl) rfl h.data
  | other r => exact h.replace ⟨htop r, hok.below⟩ (.inl rfl) rfl h.data
  | @call held u k below _ a =>
    -- the foreign code waits, without the lock, while the operation runs
    obtain rfl : held = false := hok.held_eq_false (.inr ⟨u, rfl⟩)
    refine h.replace ⟨hfree a, fun m hm => ?_⟩ (.inl rfl) rfl h.data
    rcases List.mem_cons.1 hm with rfl | hm
    · exact htop
    · exact hok.below m hm
  | @leave held o m below =>
    have hnone : (if held = true then some x.data else none) = none := by
      cases o <;> exact htop
    obtain rfl : held = false := by simpa using hnone
    have hm := hok.below m List.mem_cons_self
    exact h.replace ⟨hm, fun n hn => hok.below n (List.mem_cons_of_mem _ hn)⟩ (.inl rfl) rfl h.data

/-- The invariant of every reachable state. -/
theorem StackRun.stacks {program : A → Program (Guarded D U O) (Answer V R) P Unit}
    (hfree : ∀ a, (program a).Free I) {d : D} (hd : I d) {tr : List (Stack.Event A D U O)}
    {p : Pool (Locked D) (Stack D U O P V R)} (h : StackRun program d tr p) :
    Stacks I p.shared p.threads := by
  refine Pool.invariant (P := fun _ x ts => Stacks I x ts) ⟨by simp, rfl, fun _ => hd⟩ ?_ ?_ h
  · rintro tr x ts e y new - hx ⟨⟩
    refine ⟨fun t ht => ?_, ?_, hx.data⟩
    · rcases Multiset.mem_add.1 ht with ht | ht
      · rw [Multiset.mem_singleton.1 ht]
        exact ⟨hfree _, by simp⟩
      · exact hx.ok t ht
    · rw [total_add, total_singleton, hx.locks]
      exact Nat.zero_add _
  · intro tr x t ts e y new _ hx hact
    exact hx.act hfree hact

/-- No thread runs foreign code while it has the lock, and none locks twice. -/
theorem StackRun.guarded {program : A → Program (Guarded D U O) (Answer V R) P Unit}
    (hfree : ∀ a, (program a).Free I) {d : D} (hd : I d) {tr : List (Stack.Event A D U O)}
    {p : Pool (Locked D) (Stack D U O P V R)} (h : StackRun program d tr p)
    {t : Stack D U O P V R} (ht : t ∈ p.threads)
    (hnext : t.next = some .lock ∨ ∃ u, t.next = some (.user u)) : t.held = false :=
  ((h.stacks hfree hd).ok t ht).held_eq_false hnext

/-- A thread that has the lock can go on. -/
theorem StackRun.exists_act {program : A → Program (Guarded D U O) (Answer V R) P Unit}
    (hfree : ∀ a, (program a).Free I) {d : D} (hd : I d) {tr : List (Stack.Event A D U O)}
    {p : Pool (Locked D) (Stack D U O P V R)} (h : StackRun program d tr p)
    {t : Stack D U O P V R} (ht : t ∈ p.threads) (hheld : t.held = true)
    (hanswer : ∀ o, Nonempty (R o)) : ∃ e y new, Stack.Act program t p.shared e y new :=
  ((h.stacks hfree hd).ok t ht).exists_act hheld hanswer program p.shared

end Stacks

end Program
