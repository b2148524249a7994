import RayonExecutor.Lib.Pool
import RayonExecutor.Lib.Program
import Mathlib.Logic.Hydra

/-!
# Systems that come to an end

A system halts at a state if no infinite sequence of steps leads from it, and a measure into any
well-founded order shows it. A pool of programs comes to an end if a measure that is common to all
threads goes down, except where one thread performs an effect and goes on with what is left of its
program. A program is a tree of finite depth, though it may have infinitely many branches at a node,
so no number bounds the length of the executions, but none is infinite.
-/

namespace Program

variable {E : Type} {R : E → Type} {P α : Type}

/-- The first program is what is left of the second after its next effect. -/
inductive Rest : Program E R P α → Program E R P α → Prop
  | effect (e : E) (k : R e → Program E R P α) (r : R e) : Rest (k r) (.effect e k)

/-- A program does not go on forever. -/
theorem wellFounded_rest : WellFounded (Rest (E := E) (R := R) (P := P) (α := α)) := by
  refine ⟨fun m => ?_⟩
  induction m with
  | ret | unwind => exact ⟨_, fun n hn => nomatch hn⟩
  | effect e k ih =>
    refine ⟨_, fun n hn => ?_⟩
    cases hn with
    | effect _ _ r => exact ih r

end Program

namespace Transition

variable {σ ε β : Type*} {step : σ → ε → σ → Prop}

/-- The system comes to an end: there is no infinite sequence of steps from the state. -/
abbrev Halts (step : σ → ε → σ → Prop) (s : σ) : Prop := Acc (fun s' s => ∃ e, step s e s') s

/-- A system halts if each step lowers a measure, wherever an invariant holds. -/
theorem halts_of_measure {lt : β → β → Prop} (hlt : WellFounded lt) {I : σ → Prop} {μ : σ → β}
    (hμ : ∀ {s e s'}, I s → step s e s' → I s' ∧ lt (μ s') (μ s)) {s : σ} (h : I s) :
    Halts step s := by
  induction hb : μ s using hlt.induction generalizing s with
  | _ b ih =>
    subst hb
    refine ⟨_, fun s' hs => ?_⟩
    obtain ⟨e, hs⟩ := hs
    obtain ⟨h', hless⟩ := hμ h hs
    exact ih _ hless h' rfl

/-- From where it halts there is a path to a state that no step leaves. -/
theorem Halts.exists_path {s : σ} (h : Halts step s) :
    ∃ es s', Path step s es s' ∧ ∀ e s'', ¬ step s' e s'' := by
  induction h with
  | intro s _ ih =>
    by_cases hstuck : ∀ e s', ¬ step s e s'
    · exact ⟨[], s, .nil s, hstuck⟩
    · push Not at hstuck
      obtain ⟨e, s', hs⟩ := hstuck
      obtain ⟨es, s'', hpath, hstuck⟩ := ih s' ⟨e, hs⟩
      exact ⟨e :: es, s'', .cons hs hpath, hstuck⟩

/-- A state that halts has no infinite sequence of steps. -/
theorem Halts.not_infinite {s : σ} (h : Halts step s) :
    ¬ ∃ f : ℕ → σ, f 0 = s ∧ ∀ i, ∃ e, step (f i) e (f (i + 1)) := by
  induction h with
  | intro s _ ih =>
    rintro ⟨f, rfl, hf⟩
    exact ih (f 1) (hf 0) ⟨fun i => f (i + 1), rfl, fun i => hf (i + 1)⟩

end Transition

namespace Pool

open Transition Relation

variable {σ τ ε β : Type*} {act : τ → σ → ε → σ → Multiset τ → Prop}

/-- A pool halts if each action lowers a measure `b`, or leaves it and replaces its thread by a
smaller one. The measure may be chosen from step to step (`I`). -/
theorem halts {lt : β → β → Prop} (hlt : WellFounded lt) {r : τ → τ → Prop} (hr : WellFounded r)
    {I : β → Pool σ τ → Prop}
    (hact : ∀ {b x t ts e y new}, I b ⟨x, t ::ₘ ts⟩ → act t x e y new → ∃ b', I b' ⟨y, new + ts⟩ ∧
      (lt b' b ∨ b' = b ∧ ∃ t', r t' t ∧ new = {t'}))
    {b : β} {p : Pool σ τ} (h : I b p) : Halts (Act act) p := by
  -- the measure first, and then the multiset of the threads
  induction b using hlt.induction generalizing p with
  | _ b ihb =>
    obtain ⟨x, ts⟩ := p
    induction ts using hr.cutExpand.induction generalizing x with
    | _ ts iht =>
      refine ⟨_, fun q hq => ?_⟩
      obtain ⟨e, ⟨ha⟩⟩ := hq
      obtain ⟨b', hI, hb | ⟨rfl, t', ht, rfl⟩⟩ := hact h ha
      · exact ihb b' hb hI
      · refine iht _ ?_ _ hI
        rw [← Multiset.singleton_add]
        exact cutExpand_single_add ht _

end Pool
