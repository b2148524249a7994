import Mathlib.Algebra.BigOperators.Group.Multiset.Basic

/-!
# Runs of a labelled transition system

A run is a history of events, latest first, together with the state it ends in; a path is a
continuation from a given state, earliest event first. The rules here are the induction principles
the rest of a development uses: an invariant that may speak about the history, a predicate that
every later state keeps, a measure that bounds the length of a continuation, and the image of a run
under a simulation. What a history has recorded is a sum over its events (`tally`), and the order in
which two things happened is a relation on it (`Before`).
-/

namespace Transition

variable {σ ε : Type*} {init : σ} {step : σ → ε → σ → Prop}

/-- `Run init step tr s`: the history `tr`, latest event first, leads from `init` to `s`. -/
inductive Run (init : σ) (step : σ → ε → σ → Prop) : List ε → σ → Prop
  | init : Run init step [] init
  | step {tr : List ε} {s : σ} {e : ε} {s' : σ} (h : Run init step tr s) (hs : step s e s') :
      Run init step (e :: tr) s'

/-- `Path step s es s'`: the events `es`, earliest first, lead from `s` to `s'`. -/
inductive Path (step : σ → ε → σ → Prop) : σ → List ε → σ → Prop
  | nil (s : σ) : Path step s [] s
  | cons {s : σ} {e : ε} {s' : σ} {es : List ε} {s'' : σ} (hs : step s e s')
      (h : Path step s' es s'') : Path step s (e :: es) s''

/-- The induction rule for runs: what holds at the start and is kept by every step of a run holds
at its end, for a property of the history and the state. -/
theorem Run.invariant {P : List ε → σ → Prop} (h0 : P [] init)
    (hstep : ∀ {tr s e s'}, Run init step tr s → P tr s → step s e s' → P (e :: tr) s')
    {tr : List ε} {s : σ} (h : Run init step tr s) : P tr s := by
  induction h with
  | init => exact h0
  | step hr hs ih => exact hstep hr ih hs

/-- A run continued by a path is a run. -/
theorem Run.append {tr : List ε} {s s' : σ} {es : List ε} (h : Run init step tr s)
    (hp : Path step s es s') : Run init step (es.reverse ++ tr) s' := by
  induction hp generalizing tr with
  | nil => simpa using h
  | cons hs _ ih => simpa using ih (h.step hs)

/-- One path after another. -/
theorem Path.append {s s' s'' : σ} {es us : List ε} (h : Path step s es s')
    (h' : Path step s' us s'') : Path step s (es ++ us) s'' := by
  induction h with
  | nil => exact h'
  | cons hs _ ih => exact .cons hs (ih h')

/-- The last step of a run. -/
theorem Run.exists_last {tr : List ε} {e : ε} {s : σ} (h : Run init step (e :: tr) s) :
    ∃ a, Run init step tr a ∧ step a e s := by
  cases h with
  | step hr hs => exact ⟨_, hr, hs⟩

/-- An earlier part of a history is the history of a run. -/
theorem Run.exists_earlier (us : List ε) {tr : List ε} {s : σ}
    (h : Run init step (us ++ tr) s) : ∃ a, Run init step tr a := by
  induction us generalizing s with
  | nil => exact ⟨s, h⟩
  | cons e us ih =>
    obtain ⟨a, hr, -⟩ := h.exists_last
    exact ih hr

/-- A property kept by every step from a reachable state holds along every continuation, and so
does what each of those steps says about its event. -/
theorem Run.path {P : σ → Prop} {Q : ε → Prop}
    (hstep : ∀ {tr s e s'}, Run init step tr s → P s → step s e s' → P s' ∧ Q e)
    {tr : List ε} {s s' : σ} {es : List ε} (h : Run init step tr s) (hp : Path step s es s')
    (hP : P s) : P s' ∧ ∀ e ∈ es, Q e := by
  induction hp generalizing tr with
  | nil => exact ⟨hP, by simp⟩
  | cons hs _ ih =>
    obtain ⟨hP', hQ⟩ := hstep h hP hs
    obtain ⟨hP'', hQs⟩ := ih (h.step hs) hP'
    exact ⟨hP'', by simpa using ⟨hQ, hQs⟩⟩

/-- A property kept by every step holds along every path. -/
theorem Path.keeps {P : σ → Prop} (hstep : ∀ {s e s'}, P s → step s e s' → P s') {s s' : σ}
    {es : List ε} (hp : Path step s es s') (hP : P s) : P s' := by
  induction hp with
  | nil => exact hP
  | cons hs _ ih => exact ih (hstep hP hs)

/-- A measure that every step lowers bounds the length of every path. -/
theorem Path.length_le {μ : σ → ℕ} (hμ : ∀ {s e s'}, step s e s' → μ s' < μ s) {s s' : σ}
    {es : List ε} (hp : Path step s es s') : es.length + μ s' ≤ μ s := by
  induction hp with
  | nil => simp
  | cons hs _ ih =>
    have := hμ hs
    simp only [List.length_cons]
    omega

/-- What every step says about its event holds of every event of a path. -/
theorem Path.forall_mem {Q : ε → Prop} (hQ : ∀ {s e s'}, step s e s' → Q e) {s s' : σ}
    {es : List ε} (hp : Path step s es s') : ∀ e ∈ es, Q e := by
  induction hp with
  | nil => simp
  | cons hs _ ih => simpa using ⟨hQ hs, ih⟩

/-- Under a measure that every step lowers, every state has a path to one that no step leaves. -/
theorem exists_path_stuck {μ : σ → ℕ} (hμ : ∀ {s e s'}, step s e s' → μ s' < μ s) (s : σ) :
    ∃ es s', Path step s es s' ∧ ∀ e s'', ¬ step s' e s'' := by
  induction hn : μ s using Nat.strong_induction_on generalizing s with
  | _ n ih =>
    by_cases hstuck : ∀ e s'', ¬ step s e s''
    · exact ⟨[], s, .nil s, hstuck⟩
    · push Not at hstuck
      obtain ⟨e, s', hs⟩ := hstuck
      obtain ⟨es, s'', hp, hstuck⟩ := ih (μ s') (hn ▸ hμ hs) s' rfl
      exact ⟨e :: es, s'', .cons hs hp, hstuck⟩

/-- A path of a smaller relation is a path of a larger one. -/
theorem Path.mono {step' : σ → ε → σ → Prop} (hle : ∀ {s e s'}, step s e s' → step' s e s')
    {s s' : σ} {es : List ε} (hp : Path step s es s') : Path step' s es s' := by
  induction hp with
  | nil => exact .nil _
  | cons hs _ ih => exact .cons (hle hs) ih

/-- The image of a run under a simulation: each step of the larger system is one step of the
smaller one, or none when its event has no image. -/
theorem Run.simulate {σ' ε' : Type*} {init' : σ'} {step' : σ' → ε' → σ' → Prop} (f : σ → σ')
    (g : ε → Option ε') (h0 : f init = init')
    (hsome : ∀ {s e s' e'}, step s e s' → g e = some e' → step' (f s) e' (f s'))
    (hnone : ∀ {s e s'}, step s e s' → g e = none → f s' = f s)
    {tr : List ε} {s : σ} (h : Run init step tr s) :
    Run init' step' (tr.filterMap g) (f s) := by
  induction h with
  | init => rw [h0]; exact .init
  | @step tr s e s' _ hs ih =>
    cases hg : g e with
    | none => rw [List.filterMap_cons_none hg, hnone hs hg]; exact ih
    | some e' => rw [List.filterMap_cons_some hg]; exact ih.step (hsome hs hg)

/-! ## Sums over a history -/

section tally
variable {M : Type*} [AddCommMonoid M]

/-- The sum of what the events of a history contribute. -/
def tally (f : ε → M) (tr : List ε) : M := (tr.map f).sum

@[simp] theorem tally_nil (f : ε → M) : tally f [] = 0 := rfl

@[simp] theorem tally_cons (f : ε → M) (e : ε) (tr : List ε) :
    tally f (e :: tr) = f e + tally f tr := by simp [tally]

@[simp] theorem tally_append (f : ε → M) (tr us : List ε) :
    tally f (tr ++ us) = tally f tr + tally f us := by simp [tally]

@[simp] theorem tally_reverse (f : ε → M) (tr : List ε) : tally f tr.reverse = tally f tr := by
  rw [tally, tally, List.map_reverse, List.sum_reverse]

/-- A sum over the images of some of the events. -/
theorem tally_filterMap {ε' : Type*} (f : ε' → M) (g : ε → Option ε') (tr : List ε) :
    tally f (tr.filterMap g) = tally (fun e => (g e).elim 0 f) tr := by
  induction tr with
  | nil => rfl
  | cons e tr ih =>
    rw [List.filterMap_cons, tally_cons, ← ih]
    cases g e with
    | none => exact (zero_add _).symm
    | some e' => exact tally_cons f e' _

/-- The sum of sums. -/
theorem tally_add_distrib (f g : ε → M) (tr : List ε) :
    tally (fun e => f e + g e) tr = tally f tr + tally g tr := List.sum_map_add

/-- A history of events that contribute nothing sums to nothing. -/
theorem tally_eq_zero {f : ε → M} {tr : List ε} (h : ∀ e ∈ tr, f e = 0) : tally f tr = 0 := by
  refine List.sum_eq_zero fun m hm => ?_
  obtain ⟨e, he, rfl⟩ := List.mem_map.1 hm
  exact h e he

/-- A recorded element was contributed by an event. -/
theorem mem_tally {α : Type*} {f : ε → Multiset α} {tr : List ε} {a : α} :
    a ∈ tally f tr ↔ ∃ e ∈ tr, a ∈ f e := by
  induction tr with
  | nil => simp
  | cons e tr ih => simp [ih]

/-- What a history has recorded only since an earlier moment was contributed since then. -/
theorem exists_mem_of_tally_append {α : Type*} {f : ε → Multiset α} {es tr : List ε} {a : α}
    (h : a ∈ tally f (es.reverse ++ tr)) (hnot : a ∉ tally f tr) : ∃ e ∈ es, a ∈ f e := by
  rw [tally_append, Multiset.mem_add, mem_tally] at h
  obtain ⟨e, he, ha⟩ := h.resolve_right hnot
  exact ⟨e, List.mem_reverse.1 he, ha⟩

end tally

/-! ## The order of events -/

/-- In a history an event with `p` comes before an event with `q`. -/
def Before (p q : ε → Prop) (tr : List ε) : Prop :=
  ∃ later mid earlier e e', tr = later ++ e' :: (mid ++ e :: earlier) ∧ p e ∧ q e'

/-- In a history with one more event, either the two events are older, or the new one comes after
an old one. -/
theorem before_cons {p q : ε → Prop} {e : ε} {tr : List ε} :
    Before p q (e :: tr) ↔ Before p q tr ∨ q e ∧ ∃ e' ∈ tr, p e' := by
  constructor
  · rintro ⟨later, mid, earlier, a, b, heq, hp, hq⟩
    cases later with
    | nil =>
      obtain ⟨rfl, rfl⟩ := List.cons.inj heq
      exact Or.inr ⟨hq, a, by simp, hp⟩
    | cons c later =>
      obtain ⟨rfl, rfl⟩ := List.cons.inj heq
      exact Or.inl ⟨later, mid, earlier, a, b, rfl, hp, hq⟩
  · rintro (⟨later, mid, earlier, a, b, rfl, hp, hq⟩ | ⟨hq, a, ha, hp⟩)
    · exact ⟨e :: later, mid, earlier, a, b, rfl, hp, hq⟩
    · obtain ⟨mid, earlier, rfl⟩ := List.append_of_mem ha
      exact ⟨[], mid, earlier, a, e, rfl, hp, hq⟩

/-- Nothing comes before anything in an empty history. -/
theorem not_before_nil {p q : ε → Prop} : ¬ Before p q [] := by
  rintro ⟨later, mid, earlier, a, b, heq, -, -⟩
  cases later <;> cases heq

/-- Of two events of a history one comes first, unless they are one. -/
theorem before_total {p q : ε → Prop} {tr : List ε} (hp : ∃ e ∈ tr, p e) (hq : ∃ e ∈ tr, q e) :
    Before p q tr ∨ Before q p tr ∨ ∃ e ∈ tr, p e ∧ q e := by
  induction tr with
  | nil => simp at hp
  | cons c tr ih =>
    obtain ⟨a, ha, hpa⟩ := hp
    obtain ⟨b, hb, hqb⟩ := hq
    rw [List.mem_cons] at ha hb
    rcases ha with rfl | ha <;> rcases hb with rfl | hb
    · exact Or.inr (Or.inr ⟨_, List.mem_cons_self, hpa, hqb⟩)
    · exact Or.inr (Or.inl (before_cons.2 (Or.inr ⟨hpa, b, hb, hqb⟩)))
    · exact Or.inl (before_cons.2 (Or.inr ⟨hqb, a, ha, hpa⟩))
    · rcases ih ⟨a, ha, hpa⟩ ⟨b, hb, hqb⟩ with h | h | ⟨e, he, h⟩
      · exact Or.inl (before_cons.2 (Or.inl h))
      · exact Or.inr (Or.inl (before_cons.2 (Or.inl h)))
      · exact Or.inr (Or.inr ⟨e, List.mem_cons_of_mem _ he, h⟩)

end Transition
