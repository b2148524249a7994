import RayonExecutor.Lib.Run
import Mathlib.Algebra.BigOperators.Group.Multiset.Basic
import Mathlib.Algebra.Order.BigOperators.Group.Multiset
import Mathlib.Algebra.Order.Group.Nat

/-!
# Pools of threads over a shared state

A pool is a shared state and the multiset of threads that are in the middle of an operation. A
thread is only what it still has to do, so a finished operation leaves no thread and threads with
the same rest are interchangeable. `call` starts an operation, with its first atomic action, from
any state; `act` is the next atomic action of a thread that is already there. Any number of threads
interleave in any order.

The threads enter an invariant through totals (`Pool.total`): sums over all threads of what one
thread contributes. An action of one thread changes a total only by that thread's share, so an
invariant on the shared state and the totals is proved one action at a time, without a word about
the other threads.
-/

/-- A shared state and the threads that work on it. -/
structure Pool (σ τ : Type*) where
  shared : σ
  threads : Multiset τ

namespace Pool

open Transition

variable {σ τ ε : Type*}

/-- One action of one thread. -/
inductive Act (act : τ → σ → ε → σ → Multiset τ → Prop) : Pool σ τ → ε → Pool σ τ → Prop
  | act {t : τ} {x : σ} {e : ε} {y : σ} {new ts : Multiset τ} (h : act t x e y new) :
      Act act ⟨x, t ::ₘ ts⟩ e ⟨y, new + ts⟩

/-- A step of the pool: a new operation starts, or a thread acts. -/
inductive Step (call : σ → ε → σ → Multiset τ → Prop) (act : τ → σ → ε → σ → Multiset τ → Prop) :
    Pool σ τ → ε → Pool σ τ → Prop
  | call {x : σ} {e : ε} {y : σ} {new ts : Multiset τ} (h : call x e y new) :
      Step call act ⟨x, ts⟩ e ⟨y, new + ts⟩
  | act {p : Pool σ τ} {e : ε} {p' : Pool σ τ} (h : Act act p e p') : Step call act p e p'

/-- An action of a thread that is among the threads. -/
theorem Act.of_eq {act : τ → σ → ε → σ → Multiset τ → Prop} {t : τ} {x : σ} {e : ε} {y : σ}
    {new ts us vs : Multiset τ} (h : act t x e y new) (hts : ts = t ::ₘ us) (hvs : vs = new + us) :
    Act act ⟨x, ts⟩ e ⟨y, vs⟩ := hts ▸ hvs ▸ .act h

/-- An operation starts in a pool without threads. -/
theorem Step.first {call : σ → ε → σ → Multiset τ → Prop}
    {act : τ → σ → ε → σ → Multiset τ → Prop} {x : σ} {e : ε} {y : σ} {new : Multiset τ}
    (h : call x e y new) : Step call act ⟨x, 0⟩ e ⟨y, new⟩ := by
  simpa using (Step.call h : Step call act ⟨x, 0⟩ e ⟨y, new + 0⟩)

/-- An operation that is over with its first action leaves the threads alone. -/
theorem Step.quick {call : σ → ε → σ → Multiset τ → Prop}
    {act : τ → σ → ε → σ → Multiset τ → Prop} {x : σ} {e : ε} {y : σ} {ts : Multiset τ}
    (h : call x e y 0) : Step call act ⟨x, ts⟩ e ⟨y, ts⟩ := by
  simpa using (Step.call h : Step call act ⟨x, ts⟩ e ⟨y, 0 + ts⟩)

/-- The total over all threads of what each contributes. -/
def total {M : Type*} [AddCommMonoid M] (f : τ → M) (ts : Multiset τ) : M := (ts.map f).sum

section total
variable {M : Type*} [AddCommMonoid M] (f : τ → M)

@[simp] theorem total_zero : total f 0 = 0 := by simp [total]

@[simp] theorem total_cons (t : τ) (ts : Multiset τ) : total f (t ::ₘ ts) = f t + total f ts := by
  simp [total]

@[simp] theorem total_singleton (t : τ) : total f {t} = f t := by simp [total]

@[simp] theorem total_add (ts us : Multiset τ) : total f (ts + us) = total f ts + total f us := by
  simp [total]

/-- A total of sums is the sum of the totals. -/
theorem total_add_distrib (g : τ → M) (ts : Multiset τ) :
    total (fun t => f t + g t) ts = total f ts + total g ts := Multiset.sum_map_add

end total

/-- A thread's share of a total of multisets is part of the total. -/
theorem mem_total {α : Type*} {f : τ → Multiset α} {t : τ} {ts : Multiset τ} (ht : t ∈ ts) {a : α}
    (ha : a ∈ f t) : a ∈ total f ts := by
  obtain ⟨us, rfl⟩ := Multiset.exists_cons_of_mem ht
  rw [total_cons]
  exact Multiset.mem_add.2 (Or.inl ha)

/-- An element of a total of multisets is some thread's. -/
theorem exists_mem_of_mem_total {α : Type*} {f : τ → Multiset α} {ts : Multiset τ} {a : α}
    (h : a ∈ total f ts) : ∃ t ∈ ts, a ∈ f t := by
  induction ts using Multiset.induction_on with
  | empty => simp at h
  | cons t ts ih =>
    rw [total_cons, Multiset.mem_add] at h
    rcases h with h | h
    · exact ⟨t, Multiset.mem_cons_self _ _, h⟩
    · obtain ⟨u, hu, ha⟩ := ih h
      exact ⟨u, Multiset.mem_cons_of_mem hu, ha⟩

/-- A thread's share of a numeric total is at most the total. -/
theorem share_le_total {f : τ → ℕ} {t : τ} {ts : Multiset τ} (ht : t ∈ ts) : f t ≤ total f ts := by
  obtain ⟨us, rfl⟩ := Multiset.exists_cons_of_mem ht
  rw [total_cons]
  exact Nat.le_add_right _ _

/-- A total is at most the total of larger shares. -/
theorem total_le_total {f g : τ → ℕ} (h : ∀ t, f t ≤ g t) (ts : Multiset τ) :
    total f ts ≤ total g ts := Multiset.sum_map_le_sum_map f g fun t _ => h t

/-- The image of a total of multisets is the total of the images. -/
theorem map_total {α β : Type*} (g : α → β) (f : τ → Multiset α) (ts : Multiset τ) :
    (total f ts).map g = total (fun t => (f t).map g) ts := by
  induction ts using Multiset.induction_on with
  | empty => simp
  | cons t ts ih => simp [ih]

/-- The size of a total of multisets is the total of the sizes. -/
theorem card_total {α : Type*} (f : τ → Multiset α) (ts : Multiset τ) :
    (total f ts).card = total (fun t => (f t).card) ts := by
  induction ts using Multiset.induction_on with
  | empty => simp
  | cons t ts ih => simp [ih]

/-- An element that occurs once in a total comes from exactly one thread. -/
theorem countP_eq_one_of_total {α : Type*} [DecidableEq α] (f : τ → Multiset α) {a : α}
    {ts : Multiset τ} (h : (total f ts).count a = 1) : ts.countP (fun t => a ∈ f t) = 1 := by
  induction ts using Multiset.induction_on with
  | empty => simp at h
  | cons t ts ih =>
    rw [total_cons, Multiset.count_add] at h
    by_cases ht : a ∈ f t
    · have hpos := Multiset.count_pos.2 ht
      have hts : a ∉ total f ts := Multiset.count_eq_zero.1 (by omega)
      have hzero : ts.countP (fun t => a ∈ f t) = 0 :=
        Multiset.countP_eq_zero.2 fun u hu hau => hts (mem_total hu hau)
      rw [Multiset.countP_cons_of_pos ts ht, hzero]
    · rw [Multiset.countP_cons_of_neg ts ht]
      refine ih ?_
      rw [Multiset.count_eq_zero.2 ht] at h
      omega

variable {call : σ → ε → σ → Multiset τ → Prop} {act : τ → σ → ε → σ → Multiset τ → Prop}

/-- The induction rule for runs of a pool: an invariant of the history, the shared state and the
threads, shown for each operation's start and for each thread's action. -/
theorem invariant {P : List ε → σ → Multiset τ → Prop} {x0 : σ} (h0 : P [] x0 0)
    (hcall : ∀ {tr x ts e y new}, Run ⟨x0, 0⟩ (Step call act) tr ⟨x, ts⟩ → P tr x ts →
      call x e y new → P (e :: tr) y (new + ts))
    (hact : ∀ {tr x t ts e y new}, Run ⟨x0, 0⟩ (Step call act) tr ⟨x, t ::ₘ ts⟩ →
      P tr x (t ::ₘ ts) → act t x e y new → P (e :: tr) y (new + ts))
    {tr : List ε} {p : Pool σ τ} (h : Run ⟨x0, 0⟩ (Step call act) tr p) :
    P tr p.shared p.threads := by
  refine h.invariant (P := fun tr p => P tr p.shared p.threads) h0 ?_
  intro tr s e s' hr hP hs
  cases hs with
  | call hc => exact hcall hr hP hc
  | act ha =>
    cases ha with
    | act ha => exact hact hr hP ha

/-- The rule for invariants that speak about one thread at a time: what a thread has when it enters,
and keeps under its own actions and under those of all others, every thread has. -/
theorem local_invariant {L : List ε → σ → τ → Prop} {x0 : σ}
    (hcall : ∀ {tr x ts e y new}, Run ⟨x0, 0⟩ (Step call act) tr ⟨x, ts⟩ → call x e y new →
      (∀ t ∈ ts, L tr x t → L (e :: tr) y t) ∧ ∀ t ∈ new, L (e :: tr) y t)
    (hact : ∀ {tr x t ts e y new}, Run ⟨x0, 0⟩ (Step call act) tr ⟨x, t ::ₘ ts⟩ → L tr x t →
      act t x e y new → (∀ u ∈ ts, L tr x u → L (e :: tr) y u) ∧ ∀ u ∈ new, L (e :: tr) y u)
    {tr : List ε} {p : Pool σ τ} (h : Run ⟨x0, 0⟩ (Step call act) tr p) :
    ∀ t ∈ p.threads, L tr p.shared t := by
  refine invariant (P := fun tr x ts => ∀ t ∈ ts, L tr x t) (by simp) ?_ ?_ h
  · intro tr x ts e y new hr hP hc u hu
    obtain ⟨hold, hnew⟩ := hcall hr hc
    rcases Multiset.mem_add.1 hu with hu | hu
    · exact hnew u hu
    · exact hold u hu (hP u hu)
  · intro tr x t ts e y new hr hP ha u hu
    obtain ⟨hold, hnew⟩ := hact hr (hP t (Multiset.mem_cons_self _ _)) ha
    rcases Multiset.mem_add.1 hu with hu | hu
    · exact hnew u hu
    · exact hold u hu (hP u (Multiset.mem_cons_of_mem hu))

/-- The measure of a pool: that of the shared state plus the total over the threads. -/
def measure (Φ : σ → ℕ) (φ : τ → ℕ) (p : Pool σ τ) : ℕ := Φ p.shared + total φ p.threads

/-- An action that lowers the measure of its state and its thread lowers that of the pool. -/
theorem measure_lt {Φ : σ → ℕ} {φ : τ → ℕ}
    (h : ∀ {t x e y new}, act t x e y new → Φ y + total φ new < Φ x + φ t)
    {p p' : Pool σ τ} {e : ε} (hp : Act act p e p') : measure Φ φ p' < measure Φ φ p := by
  obtain ⟨ha⟩ := hp
  have := h ha
  simp only [measure, total_add, total_cons]
  omega

/-- If every thread can always act, the pools that no action leaves are those without threads. -/
theorem threads_eq_zero_of_stuck (h : ∀ t x, ∃ e y new, act t x e y new) {p : Pool σ τ}
    (hp : ∀ e p', ¬ Act act p e p') : p.threads = 0 := by
  obtain ⟨x, ts⟩ := p
  rcases ts.empty_or_exists_mem with rfl | ⟨t, ht⟩
  · rfl
  · obtain ⟨us, rfl⟩ := Multiset.exists_cons_of_mem ht
    obtain ⟨e, y, new, ha⟩ := h t x
    exact absurd (Act.act ha) (hp _ _)

/-! ## The steps of one operation -/

/-- A step seen from some threads `own` of the pool, those of one operation: the label says whether
it was an action of theirs, and what is left of them comes with the pool that is reached. -/
inductive Follow (call : σ → ε → σ → Multiset τ → Prop)
    (act : τ → σ → ε → σ → Multiset τ → Prop) :
    Pool σ τ × Multiset τ → Bool × ε → Pool σ τ × Multiset τ → Prop
  | own {t : τ} {x : σ} {e : ε} {y : σ} {new own rest : Multiset τ} (h : act t x e y new) :
      Follow call act (⟨x, t ::ₘ own + rest⟩, t ::ₘ own) (true, e)
        (⟨y, new + own + rest⟩, new + own)
  | rest {x : σ} {e : ε} {y : σ} {own rest rest' : Multiset τ}
      (h : Step call act ⟨x, rest⟩ e ⟨y, rest'⟩) :
      Follow call act (⟨x, own + rest⟩, own) (false, e) (⟨y, own + rest'⟩, own)

section Follow
variable {p p' : Pool σ τ} {own own' : Multiset τ} {e : ε} {mine : Bool}

/-- A step stays a step when there are more threads. -/
theorem Step.add {x y : σ} {ts us : Multiset τ} (h : Step call act ⟨x, ts⟩ e ⟨y, us⟩)
    (vs : Multiset τ) : Step call act ⟨x, vs + ts⟩ e ⟨y, vs + us⟩ := by
  rcases h with hc | ⟨⟨ha⟩⟩
  · rw [add_left_comm]
    exact .call hc
  · rename_i t new ts
    have h1 : vs + t ::ₘ ts = t ::ₘ (vs + ts) := Multiset.add_cons _ _ _
    have h2 : vs + (new + ts) = new + (vs + ts) := add_left_comm _ _ _
    exact .act (Act.of_eq ha h1 h2)

/-- Whoever is followed, the steps are those of the pool. -/
theorem Follow.step (h : Follow call act (p, own) (mine, e) (p', own')) : Step call act p e p' := by
  cases h with
  | own h =>
    exact .act (Act.of_eq h (Multiset.cons_add _ _ _) (add_assoc _ _ _))
  | rest h => exact h.add _

/-- A step of the rest leaves the followed threads as they are. -/
theorem Follow.own_eq (h : Follow call act (p, own) (false, e) (p', own')) : own' = own := by
  cases h
  rfl

/-- An action of the followed threads is an action of one of them. -/
theorem Follow.own_ne (h : Follow call act (p, own) (true, e) (p', own')) : own ≠ 0 := by
  cases h
  exact Multiset.cons_ne_zero

/-- The threads that are followed are threads of the pool. -/
theorem Follow.own_le (h : Follow call act (p, own) (mine, e) (p', own')) :
    own ≤ p.threads ∧ own' ≤ p'.threads := by
  cases h <;> exact ⟨Multiset.le_add_right _ _, Multiset.le_add_right _ _⟩

/-- The action of a single thread that is followed. -/
theorem Follow.own_singleton {t : τ} (h : Follow call act (p, {t}) (true, e) (p', own')) :
    ∃ rest, p.threads = t ::ₘ rest ∧ act t p.shared e p'.shared own' ∧
      p'.threads = own' + rest := by
  generalize ho : ({t} : Multiset τ) = own at h
  cases h with
  | @own u x e y new own rest h =>
    obtain ⟨rfl, rfl⟩ := (Multiset.singleton_eq_cons_iff _).1 ho
    exact ⟨rest, by simp, by simpa using h, by simp⟩

/-- Along a path too the steps are those of the pool, and the threads that are followed are threads
of the pool. -/
theorem Follow.path {es : List (Bool × ε)}
    (h : Path (Follow call act) (p, own) es (p', own')) (hown : own ≤ p.threads) :
    Path (Step call act) p (es.map Prod.snd) p' ∧ own' ≤ p'.threads := by
  generalize ha : (p, own) = a at h
  generalize hb : (p', own') = b at h
  induction h generalizing p own with
  | nil =>
    obtain ⟨rfl, rfl⟩ : p = p' ∧ own = own' := by simpa using ha.trans hb.symm
    exact ⟨.nil _, hown⟩
  | @cons _ e c es _ hf _ ih =>
    subst ha
    obtain ⟨p1, own1⟩ := c
    obtain ⟨mine, e⟩ := e
    obtain ⟨hp, hown'⟩ := ih hf.own_le.2 rfl hb
    exact ⟨.cons hf.step hp, hown'⟩

/-- The actions of the followed threads among the steps of a path. -/
def ownActions (es : List (Bool × ε)) : List ε :=
  es.filterMap fun e => if e.1 then some e.2 else none

@[simp] theorem ownActions_nil : ownActions ([] : List (Bool × ε)) = [] := rfl

@[simp] theorem ownActions_own (e : ε) (es : List (Bool × ε)) :
    ownActions ((true, e) :: es) = e :: ownActions es := rfl

@[simp] theorem ownActions_rest (e : ε) (es : List (Bool × ε)) :
    ownActions ((false, e) :: es) = ownActions es := rfl

/-- The actions of the followed threads are steps of the path. -/
theorem mem_of_mem_ownActions {es : List (Bool × ε)} (h : e ∈ ownActions es) :
    e ∈ es.map Prod.snd := by
  obtain ⟨⟨b, a⟩, hm, ha⟩ := List.mem_filterMap.1 h
  cases b with
  | false => simp at ha
  | true =>
    obtain rfl : a = e := by simpa using ha
    exact List.mem_map.2 ⟨_, hm, rfl⟩

/-- Once no thread is left to follow, all steps are those of others. -/
theorem Follow.ownActions_eq_nil {es : List (Bool × ε)}
    (h : Path (Follow call act) (p, 0) es (p', own')) : ownActions es = [] := by
  generalize ha : (p, (0 : Multiset τ)) = a at h
  generalize hb : (p', own') = b at h
  induction h generalizing p with
  | nil => rfl
  | @cons _ e c es _ hf _ ih =>
    subst ha
    obtain ⟨p1, own1⟩ := c
    obtain ⟨mine, e⟩ := e
    cases mine with
    | true => exact absurd rfl hf.own_ne
    | false =>
      obtain rfl := hf.own_eq
      exact ih rfl hb

end Follow

end Pool
