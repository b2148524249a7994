import Mathlib.Data.Multiset.ZeroCons

/-!
# Programs that may unwind

A program returns a value, unwinds with a payload, or performs an effect and goes on with the answer
that the effect is given. Sequencing lets an unwinding program skip what comes after it, and
`catchUnwind` turns it into a program that returns. What a program can do is the set of its traces
(`Runs`), for any answers; with answers from a state it is a function (`exec`).

Some effects may be hidden from an observer, say because they are somebody else's code. A program is
`Hidden` if it has no other effects.
-/

/-- A program over the effects `E` with answers in `R`, which unwinds with payloads of type `P`. -/
inductive Program (E : Type) (R : E → Type) (P α : Type) : Type
  | ret (a : α)
  | unwind (payload : P)
  | effect (e : E) (k : R e → Program E R P α)

namespace Program

variable {E : Type} {R : E → Type} {P α β γ : Type}

/-- Sequencing: an unwinding program skips what comes after it. -/
def bind (m : Program E R P α) (f : α → Program E R P β) : Program E R P β :=
  match m with
  | .ret a => f a
  | .unwind payload => .unwind payload
  | .effect e k => .effect e fun r => (k r).bind f

instance : Monad (Program E R P) where
  pure := .ret
  bind := .bind

/-- A single effect, with its answer as the result. -/
def perform (e : E) : Program E R P (R e) := .effect e .ret

/-- `catch_unwind`: the outcome of a program as a value. -/
def catchUnwind : Program E R P α → Program E R P (Except P α)
  | .ret a => .ret (.ok a)
  | .unwind payload => .ret (.error payload)
  | .effect e k => .effect e fun r => (k r).catchUnwind

/-- `resume_unwind` on an outcome: returns or unwinds as it says. -/
def resume : Except P α → Program E R P α
  | .ok a => .ret a
  | .error payload => .unwind payload

@[simp] theorem pure_eq (a : α) : (pure a : Program E R P α) = .ret a := rfl

@[simp] theorem ret_bind (a : α) (f : α → Program E R P β) : (.ret a >>= f) = f a := rfl

@[simp] theorem unwind_bind (payload : P) (f : α → Program E R P β) :
    (.unwind payload >>= f) = .unwind payload := rfl

@[simp] theorem effect_bind (e : E) (k : R e → Program E R P α) (f : α → Program E R P β) :
    (.effect e k >>= f) = .effect e fun r => k r >>= f := rfl

@[simp] theorem perform_bind (e : E) (f : R e → Program E R P β) :
    (perform e >>= f) = .effect e f := rfl

@[simp] theorem catchUnwind_ret (a : α) :
    (.ret a : Program E R P α).catchUnwind = .ret (.ok a) := rfl

@[simp] theorem catchUnwind_unwind (payload : P) :
    (.unwind payload : Program E R P α).catchUnwind = .ret (.error payload) := rfl

@[simp] theorem catchUnwind_effect (e : E) (k : R e → Program E R P α) :
    (effect e k).catchUnwind = .effect e fun r => (k r).catchUnwind := rfl

@[simp] theorem resume_ok (a : α) : (resume (.ok a) : Program E R P α) = .ret a := rfl

@[simp] theorem resume_error (payload : P) :
    (resume (.error payload) : Program E R P α) = .unwind payload := rfl

@[simp] theorem bind_ret (m : Program E R P α) : (m >>= .ret) = m := by
  induction m with
  | ret | unwind => rfl
  | effect e k ih => exact congrArg (effect e) (funext ih)

/-- Sequencing is associative. -/
theorem bind_assoc (m : Program E R P α) (f : α → Program E R P β) (g : β → Program E R P γ) :
    (m >>= f >>= g) = m >>= fun a => f a >>= g := by
  induction m with
  | ret | unwind => rfl
  | effect e k ih => exact congrArg (effect e) (funext ih)

/-- A caught sequence catches its first part, and goes on if that has returned. -/
theorem catchUnwind_bind (m : Program E R P α) (f : α → Program E R P β) :
    (m >>= f).catchUnwind = m.catchUnwind >>= fun o => match o with
      | .ok a => (f a).catchUnwind
      | .error payload => .ret (.error payload) := by
  induction m with
  | ret | unwind => rfl
  | effect e k ih => exact congrArg (effect e) (funext ih)

/-! ## Traces -/

/-- `m.Runs tr o`: with the answers in `tr`, earliest effect first, the program ends in `o`. -/
inductive Runs : Program E R P α → List (Σ e, R e) → Except P α → Prop
  | ret {a : α} : Runs (.ret a) [] (.ok a)
  | unwind {payload : P} : Runs (.unwind payload) [] (.error payload)
  | effect {e : E} {k : R e → Program E R P α} {r : R e} {tr : List (Σ e, R e)} {o : Except P α}
      (h : Runs (k r) tr o) : Runs (.effect e k) (⟨e, r⟩ :: tr) o

@[simp] theorem runs_ret {a : α} {tr : List (Σ e, R e)} {o : Except P α} :
    (ret a : Program E R P α).Runs tr o ↔ tr = [] ∧ o = .ok a := by
  constructor
  · rintro ⟨⟩
    exact ⟨rfl, rfl⟩
  · rintro ⟨rfl, rfl⟩
    exact .ret

@[simp] theorem runs_unwind {payload : P} {tr : List (Σ e, R e)} {o : Except P α} :
    (unwind payload : Program E R P α).Runs tr o ↔ tr = [] ∧ o = .error payload := by
  constructor
  · rintro ⟨⟩
    exact ⟨rfl, rfl⟩
  · rintro ⟨rfl, rfl⟩
    exact .unwind

@[simp] theorem runs_effect {e : E} {k : R e → Program E R P α} {tr : List (Σ e, R e)}
    {o : Except P α} : (effect e k).Runs tr o ↔ ∃ r us, tr = ⟨e, r⟩ :: us ∧ (k r).Runs us o := by
  constructor
  · rintro ⟨⟩
    exact ⟨_, _, rfl, by assumption⟩
  · rintro ⟨r, us, rfl, h⟩
    exact .effect h

/-- A trace of a sequence is a trace of its first part that unwinds, or one that returns followed by
a trace of the second part. -/
theorem runs_bind {m : Program E R P α} {f : α → Program E R P β} {tr : List (Σ e, R e)}
    {o : Except P β} : (m >>= f).Runs tr o ↔ (∃ payload, m.Runs tr (.error payload) ∧
      o = .error payload) ∨ ∃ us vs a, tr = us ++ vs ∧ m.Runs us (.ok a) ∧ (f a).Runs vs o := by
  induction m generalizing tr with
  | ret a => simp
  | unwind payload => simp [eq_comm]
  | effect e k ih =>
    simp only [effect_bind, runs_effect, ih]
    constructor
    · rintro ⟨r, us, rfl, ⟨payload, h, rfl⟩ | ⟨us, vs, a, rfl, h1, h2⟩⟩
      · exact Or.inl ⟨payload, ⟨r, us, rfl, h⟩, rfl⟩
      · exact Or.inr ⟨⟨e, r⟩ :: us, vs, a, rfl, ⟨r, us, rfl, h1⟩, h2⟩
    · rintro (⟨payload, ⟨r, us, rfl, h⟩, rfl⟩ | ⟨us, vs, a, rfl, ⟨r, us, rfl, h1⟩, h2⟩)
      · exact ⟨r, us, rfl, Or.inl ⟨payload, h, rfl⟩⟩
      · exact ⟨r, us ++ vs, rfl, Or.inr ⟨us, vs, a, rfl, h1, h2⟩⟩

/-- A trace of a caught program is a trace of the program. -/
theorem runs_catchUnwind {m : Program E R P α} {tr : List (Σ e, R e)}
    {o : Except P (Except P α)} :
    m.catchUnwind.Runs tr o ↔ ∃ outcome, m.Runs tr outcome ∧ o = .ok outcome := by
  induction m generalizing tr with
  | ret a => simp
  | unwind payload => simp
  | effect e k ih =>
    simp only [catchUnwind_effect, runs_effect, ih]
    constructor
    · rintro ⟨r, us, rfl, outcome, h, rfl⟩
      exact ⟨outcome, ⟨r, us, rfl, h⟩, rfl⟩
    · rintro ⟨outcome, ⟨r, us, rfl, h⟩, rfl⟩
      exact ⟨r, us, rfl, outcome, h, rfl⟩

/-- `m.After tr n`: with the answers in `tr`, earliest effect first, the program has come to `n`. -/
inductive After : Program E R P α → List (Σ e, R e) → Program E R P α → Prop
  | nil {m : Program E R P α} : After m [] m
  | cons {e : E} {k : R e → Program E R P α} {r : R e} {tr : List (Σ e, R e)}
      {n : Program E R P α} (h : After (k r) tr n) : After (.effect e k) (⟨e, r⟩ :: tr) n

/-- What is left of a program goes on with its next effect. -/
theorem After.snoc {m : Program E R P α} {e : E} {k : R e → Program E R P α}
    {tr : List (Σ e, R e)} (h : m.After tr (.effect e k)) (r : R e) :
    m.After (tr ++ [⟨e, r⟩]) (k r) := by
  generalize hn : Program.effect e k = n at h
  induction h with
  | nil =>
    subst hn
    exact .cons .nil
  | cons _ ih => exact .cons (ih hn)

/-- A trace of what is left completes the trace. -/
theorem After.runs {m n : Program E R P α} {us vs : List (Σ e, R e)} {o : Except P α}
    (h : m.After us n) (hn : n.Runs vs o) : m.Runs (us ++ vs) o := by
  induction h with
  | nil => exact hn
  | cons _ ih => exact .effect (ih hn)

/-- The program does not unwind, whatever the answers are. -/
def Returns : Program E R P α → Prop
  | .ret _ => True
  | .unwind _ => False
  | .effect _ k => ∀ r, (k r).Returns

section Returns
variable {m : Program E R P α} {f : α → Program E R P β}

/-- Sequencing keeps a program from unwinding. -/
theorem Returns.bind (h : m.Returns) (hf : ∀ a, (f a).Returns) : (m >>= f).Returns := by
  induction m with
  | ret a => exact hf a
  | unwind payload => exact absurd h id
  | effect e k ih => exact fun r => ih r (h r)

/-- A single effect does not unwind. -/
theorem Returns.perform {e : E} {f : R e → Program E R P β} (hf : ∀ r, (f r).Returns) :
    (Program.perform e >>= f).Returns := hf

/-- A caught program does not unwind. -/
theorem Returns.catchUnwind (m : Program E R P α) : m.catchUnwind.Returns := by
  induction m with
  | ret | unwind => trivial
  | effect e k ih => exact ih

/-- There is nothing to catch in a program that does not unwind. -/
theorem Returns.catchUnwind_bind (h : m.Returns) {f : Except P α → Program E R P β} :
    (m.catchUnwind >>= f) = m >>= fun a => f (.ok a) := by
  induction m with
  | ret a => rfl
  | unwind payload => exact absurd h id
  | effect e k ih => exact congrArg (effect e) (funext fun r => ih r (h r))

/-- Every trace of a program that does not unwind ends with a value. -/
theorem Returns.of_runs (h : m.Returns) {tr : List (Σ e, R e)} {o : Except P α}
    (hr : m.Runs tr o) : ∃ a, o = .ok a := by
  induction hr with
  | ret => exact ⟨_, rfl⟩
  | unwind => exact absurd h id
  | effect _ ih => exact ih (h _)

/-- What is left of a program that does not unwind does not unwind. -/
theorem Returns.after (h : m.Returns) {n : Program E R P α} {tr : List (Σ e, R e)}
    (hn : m.After tr n) : n.Returns := by
  induction hn with
  | nil => exact h
  | cons _ ih => exact ih (h _)

/-- A trace of a sequence whose first part does not unwind. -/
theorem Returns.runs_bind (h : m.Returns) {tr : List (Σ e, R e)} {o : Except P β}
    (hr : (m >>= f).Runs tr o) :
    ∃ us vs a, tr = us ++ vs ∧ m.Runs us (.ok a) ∧ (f a).Runs vs o := by
  rcases Program.runs_bind.1 hr with ⟨payload, hm, -⟩ | hsplit
  · obtain ⟨a, ha⟩ := h.of_runs hm
    exact absurd ha (by simp)
  · exact hsplit

end Returns

/-! ## Execution over a state -/

/-- The outcome of a program whose answers come from a state: the effects in order, the last state,
and how it ends. -/
def exec {σ : Type} (answer : (e : E) → σ → R e × σ) :
    Program E R P α → σ → List E × σ × Except P α
  | .ret a, x => ([], x, .ok a)
  | .unwind payload, x => ([], x, .error payload)
  | .effect e k, x =>
    let rest := (k (answer e x).1).exec answer (answer e x).2
    (e :: rest.1, rest.2)

section exec
variable {σ : Type} {answer : (e : E) → σ → R e × σ}

/-- The execution of a sequence whose first part returns. -/
theorem exec_bind_of_ok {m : Program E R P α} {f : α → Program E R P β} {x y : σ} {es : List E}
    {a : α} (h : m.exec answer x = (es, y, .ok a)) : (m >>= f).exec answer x =
      (es ++ ((f a).exec answer y).1, ((f a).exec answer y).2) := by
  induction m generalizing x es with
  | ret b =>
    obtain ⟨rfl, rfl, rfl⟩ : [] = es ∧ x = y ∧ b = a := by simpa [exec] using h
    rfl
  | unwind payload => simp [exec] at h
  | effect e k ih =>
    simp only [exec, Prod.mk.injEq] at h
    obtain ⟨rfl, hy⟩ := h
    have := ih _ (Prod.ext rfl hy)
    simp only [effect_bind, exec, this, List.cons_append]

/-- The execution of a caught program. -/
theorem exec_catchUnwind {m : Program E R P α} {x y : σ} {es : List E} {o : Except P α}
    (h : m.exec answer x = (es, y, o)) : m.catchUnwind.exec answer x = (es, y, .ok o) := by
  induction m generalizing x es with
  | ret | unwind =>
    simp only [exec, Prod.mk.injEq] at h
    obtain ⟨rfl, rfl, rfl⟩ := h
    rfl
  | effect e k ih =>
    simp only [exec, Prod.mk.injEq] at h
    obtain ⟨rfl, hy⟩ := h
    have := ih _ (Prod.ext rfl hy)
    simp only [catchUnwind_effect, exec, this]

/-- The answers of a trace are those of a state, which they lead from `x` to `y`. -/
def Answered (answer : (e : E) → σ → R e × σ) : List (Σ e, R e) → σ → σ → Prop
  | [], x, y => x = y
  | ⟨e, r⟩ :: tr, x, y => r = (answer e x).1 ∧ Answered answer tr (answer e x).2 y

/-- A trace may be cut anywhere. -/
theorem answered_append {us vs : List (Σ e, R e)} {x z : σ} :
    Answered answer (us ++ vs) x z ↔ ∃ y, Answered answer us x y ∧ Answered answer vs y z := by
  induction us generalizing x with
  | nil => simp [Answered]
  | cons ev us ih =>
    simp only [List.cons_append, Answered, ih]
    constructor
    · rintro ⟨hr, y, hy, hz⟩
      exact ⟨y, ⟨hr, hy⟩, hz⟩
    · rintro ⟨y, ⟨hr, hy⟩, hz⟩
      exact ⟨hr, y, hy, hz⟩

/-- An execution has a trace. -/
theorem exec_runs {m : Program E R P α} {x y : σ} {es : List E} {o : Except P α}
    (h : m.exec answer x = (es, y, o)) :
    ∃ tr, m.Runs tr o ∧ Answered answer tr x y ∧ tr.map Sigma.fst = es := by
  induction m generalizing x es with
  | ret | unwind =>
    simp only [exec, Prod.mk.injEq] at h
    obtain ⟨rfl, rfl, rfl⟩ := h
    refine ⟨[], ?_, rfl, rfl⟩
    constructor
  | effect e k ih =>
    simp only [exec, Prod.mk.injEq] at h
    obtain ⟨rfl, hy⟩ := h
    obtain ⟨tr, hr, ha, hes⟩ := ih _ (Prod.ext rfl hy)
    exact ⟨⟨e, _⟩ :: tr, .effect hr, ⟨rfl, ha⟩, by rw [List.map_cons, hes]⟩

end exec

/-! ## Hidden effects -/

/-- All effects of the program are hidden ones. -/
def Hidden (hidden : E → Bool) : Program E R P α → Prop
  | .ret _ => True
  | .unwind _ => True
  | .effect e k => hidden e ∧ ∀ r, (k r).Hidden hidden

section Hidden
variable {hidden : E → Bool}

/-- Sequencing keeps effects hidden. -/
theorem Hidden.bind {m : Program E R P α} {f : α → Program E R P β} (h : m.Hidden hidden)
    (hf : ∀ a, (f a).Hidden hidden) : (m >>= f).Hidden hidden := by
  induction m with
  | ret a => exact hf a
  | unwind payload => trivial
  | effect e k ih => exact ⟨h.1, fun r => ih r (h.2 r)⟩

/-- Catching keeps effects hidden. -/
theorem Hidden.catchUnwind {m : Program E R P α} (h : m.Hidden hidden) :
    m.catchUnwind.Hidden hidden := by
  induction m with
  | ret | unwind => trivial
  | effect e k ih => exact ⟨h.1, fun r => ih r (h.2 r)⟩

/-- More may be hidden. -/
theorem Hidden.mono {hidden' : E → Bool} (hle : ∀ e, hidden e = true → hidden' e = true)
    {m : Program E R P α} (h : m.Hidden hidden) : m.Hidden hidden' := by
  induction m with
  | ret | unwind => trivial
  | effect e k ih => exact ⟨hle e h.1, fun r => ih r (h.2 r)⟩

/-- Every effect in a trace of a program of hidden effects is hidden. -/
theorem Hidden.of_runs {m : Program E R P α} (h : m.Hidden hidden) {tr : List (Σ e, R e)}
    {o : Except P α} (hr : m.Runs tr o) : ∀ ev ∈ tr, hidden ev.1 = true := by
  induction hr with
  | ret | unwind => simp
  | effect _ ih =>
    intro ev hev
    rcases List.mem_cons.1 hev with rfl | hev
    · exact h.1
    · exact ih (h.2 _) ev hev

end Hidden

/-- The program performs hidden effects, and then it is `n`, whatever they are answered. -/
inductive Leads (hidden : E → Bool) : Program E R P α → Program E R P α → Prop
  | refl (n : Program E R P α) : Leads hidden n n
  | hidden {e : E} {k : R e → Program E R P α} {n : Program E R P α} (he : hidden e = true)
      (h : ∀ r, Leads hidden (k r) n) : Leads hidden (.effect e k) n

section Leads
variable {hidden : E → Bool}

/-- What leads to a program leads to it before any continuation. -/
theorem Leads.bind {m n : Program E R P α} (h : Leads hidden m n) (f : α → Program E R P β) :
    Leads hidden (m >>= f) (n >>= f) := by
  induction h with
  | refl n => exact .refl _
  | hidden he _ ih => exact .hidden he ih

/-- Hidden effects that are caught lead to what comes after them, if their outcome does not
matter. -/
theorem Hidden.leads {m : Program E R P α} (h : m.Hidden hidden) {f : Except P α → Program E R P β}
    {n : Program E R P β} (hf : ∀ o, Leads hidden (f o) n) :
    Leads hidden (m.catchUnwind >>= f) n := by
  induction m with
  | ret a => exact hf _
  | unwind payload => exact hf _
  | effect e k ih => exact .hidden h.1 fun r => ih r (h.2 r)

end Leads

end Program
