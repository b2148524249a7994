import RayonExecutor.Lib.Pool
import RayonExecutor.Lib.Program

/-!
# Hidden effects do not matter

`Erases X m n` says that `n` is what is left of the program `m` without its hidden effects, whatever
answers those are given: the answers can decide how many hidden effects there are, and nothing else.
The answers to outer effects can decide no more than that, but these effects are visible. About the
other effects it may be assumed that their answers are `X.ok`, if in return the program performs
only those that are `X.good`.

A pool of such programs runs operations over a shared state. If every operation has an erasure, then
whatever the hidden and outer effects have been answered in a run, for any other choice of their
answers there is a run that looks the same to an observer of the visible effects and of the shared
state (`exists_run_of_choice`).
-/

namespace Program

open Transition Pool

variable {E : Type} {R : E → Type} {P α β : Type}

/-- What an erasure rests on: which effects are hidden, the answers to which others come from
outside, what the answers are like, and which effects may be performed. -/
structure Erasure (E : Type) (R : E → Type) where
  hidden : E → Bool
  outer : E → Bool
  ok : (e : E) → R e → Prop
  good : E → Prop

/-- The second program is the first without its hidden effects. -/
inductive Erases (X : Erasure E R) : Program E R P α → Program E R P α → Prop
  | ret (a : α) : Erases X (.ret a) (.ret a)
  | unwind (payload : P) : Erases X (.unwind payload) (.unwind payload)
  | hidden {e : E} {k : R e → Program E R P α} {n : Program E R P α} (he : X.hidden e = true)
      (h : ∀ r, Erases X (k r) n) : Erases X (.effect e k) n
  | visible {e : E} {k k' : R e → Program E R P α} (he : X.hidden e = false) (hgood : X.good e)
      (houter : X.outer e = true → ∀ r r', k' r = k' r')
      (h : ∀ r, X.ok e r → Erases X (k r) (k' r)) : Erases X (.effect e k) (.effect e k')

/-- The program has an erasure. -/
def Erasable (X : Erasure E R) (m : Program E R P α) : Prop := ∃ n, Erases X m n

section Erasable
variable {X : Erasure E R}

/-- The rule for visible effects. -/
theorem Erasable.effect {e : E} {k : R e → Program E R P α} (he : X.hidden e = false)
    (hgood : X.good e) (houter : X.outer e = false) (h : ∀ r, X.ok e r → Erasable X (k r)) :
    Erasable X (.effect e k) := by
  classical
  refine ⟨.effect e fun r => if hr : X.ok e r then (h r hr).choose else k r,
    .visible he hgood (fun ho => absurd ho (by simp [houter])) fun r hr => ?_⟩
  rw [dif_pos hr]
  exact (h r hr).choose_spec

/-- The rule for outer effects. -/
theorem Erases.outer {e : E} {k : R e → Program E R P α} {n : Program E R P α}
    (he : X.hidden e = false) (hgood : X.good e) (h : ∀ r, Erases X (k r) n) :
    Erases X (.effect e k) (.effect e fun _ => n) :=
  .visible he hgood (fun _ _ _ => rfl) fun r _ => h r

/-- The rule for sequences. -/
theorem Erasable.bind {m : Program E R P α} {f : α → Program E R P β} (h : Erasable X m)
    (hf : ∀ a, Erasable X (f a)) : Erasable X (m >>= f) := by
  obtain ⟨n, h⟩ := h
  choose g hg using hf
  refine ⟨n >>= g, ?_⟩
  induction h with
  | ret a => exact hg a
  | unwind payload => exact .unwind payload
  | hidden he _ ih => exact .hidden he ih
  | visible he hgood houter _ ih =>
    exact .visible he hgood (fun ho r r' => congrArg (· >>= g) (houter ho r r')) ih

/-- The rule for catching. -/
theorem Erasable.catchUnwind {m : Program E R P α} (h : Erasable X m) :
    Erasable X m.catchUnwind := by
  obtain ⟨n, h⟩ := h
  refine ⟨n.catchUnwind, ?_⟩
  induction h with
  | ret a => exact .ret _
  | unwind payload => exact .ret _
  | hidden he _ ih => exact .hidden he ih
  | visible he hgood houter _ ih =>
    exact .visible he hgood (fun ho r r' => congrArg Program.catchUnwind (houter ho r r')) ih

/-- What leads to a program has its erasure. -/
theorem Leads.erases {m m' n : Program E R P α} (h : Leads X.hidden m m') (hn : Erases X m' n) :
    Erases X m n := by
  induction h with
  | refl => exact hn
  | hidden he _ ih => exact .hidden he fun r => ih r hn

end Erasable

/-! ## Pools of operations -/

/-- What happens in a pool: an operation starts, or an effect is performed and answered. -/
inductive Happening (A E : Type) (R : E → Type)
  | start (a : A)
  | performed (e : E) (r : R e)

section pool
variable {A σ : Type} {program : A → Program E R P Unit}
  {answers : (e : E) → σ → R e → σ → Multiset A → Prop} {X : Erasure E R}

/-- An operation starts. The label has the shared state after the step. -/
inductive Starts (program : A → Program E R P Unit) :
    σ → Happening A E R × σ → σ → Multiset (Program E R P Unit) → Prop
  | start {x : σ} {a : A} : Starts program x (.start a, x) x {program a}

/-- A program performs its next effect, which may start more operations. -/
inductive Performs (program : A → Program E R P Unit)
    (answers : (e : E) → σ → R e → σ → Multiset A → Prop) : Program E R P Unit → σ →
    Happening A E R × σ → σ → Multiset (Program E R P Unit) → Prop
  | effect {e : E} {k : R e → Program E R P Unit} {x y : σ} {r : R e} {as : Multiset A}
      (h : answers e x r y as) : Performs program answers (.effect e k) x (.performed e r, y) y
        (k r ::ₘ as.map program)

/-- The runs of a pool of operations. -/
abbrev PoolRun (program : A → Program E R P Unit)
    (answers : (e : E) → σ → R e → σ → Multiset A → Prop) (x0 : σ) :
    List (Happening A E R × σ) → Pool σ (Program E R P Unit) → Prop :=
  Run ⟨x0, 0⟩ (Pool.Step (Starts program) (Performs program answers))

/-- Each thread of a pool is on its way through an operation. -/
theorem PoolRun.exists_after {x0 : σ} {tr : List (Happening A E R × σ)}
    {p : Pool σ (Program E R P Unit)} (h : PoolRun program answers x0 tr p) :
    ∀ t ∈ p.threads, ∃ a us, (program a).After us t := by
  refine Pool.local_invariant (L := fun _ _ t => ∃ a us, (program a).After us t) ?_ ?_ h
  · rintro tr x ts e y new - ⟨⟩
    refine ⟨fun t _ ht => ht, fun t ht => ?_⟩
    obtain rfl := Multiset.mem_singleton.1 ht
    exact ⟨_, _, .nil⟩
  · rintro tr x t ts e y new - ⟨a, us, ht⟩ ⟨ha⟩
    refine ⟨fun u _ hu => hu, fun u hu => ?_⟩
    rcases Multiset.mem_cons.1 hu with rfl | hu
    · exact ⟨a, _, ht.snoc _⟩
    · obtain ⟨b, -, rfl⟩ := Multiset.mem_map.1 hu
      exact ⟨b, _, .nil⟩

/-- What an observer sees of what happens: not the answer to an outer effect. -/
inductive Sight (A E : Type) (R : E → Type)
  | start (a : A)
  | performed (e : E) (r : Option (R e))

/-- What an observer sees, if anything. -/
def Happening.sight (X : Erasure E R) : Happening A E R → Option (Sight A E R)
  | .start a => some (.start a)
  | .performed e r =>
    if X.hidden e then none else some (.performed e (if X.outer e then none else some r))

/-- What an observer sees of a history. -/
def shown (X : Erasure E R) (tr : List (Happening A E R × σ)) : List (Sight A E R × σ) :=
  tr.filterMap fun l => (l.1.sight X).map (·, l.2)

/-- An observer does not see hidden effects. -/
theorem shown_cons_of_hidden {e : E} (he : X.hidden e = true) (r : R e) (x : σ)
    (tr : List (Happening A E R × σ)) : shown X ((.performed e r, x) :: tr) = shown X tr :=
  List.filterMap_cons_none (by simp [Happening.sight, he])

/-- An observer does not see the answers to outer effects. -/
theorem shown_cons_congr {us vs : List (Happening A E R × σ)} (h : shown X us = shown X vs) {e : E}
    {r r' : R e} (hr : X.outer e = true ∨ r = r') (x : σ) :
    shown X ((.performed e r, x) :: us) = shown X ((.performed e r', x) :: vs) := by
  have hsight : (Happening.performed e r : Happening A E R).sight X =
      (Happening.performed e r').sight X := by
    unfold Happening.sight
    rcases hr with houter | rfl
    · simp [houter]
    · rfl
  unfold shown at h ⊢
  rw [List.filterMap_cons, List.filterMap_cons, h, hsight]

/-- The effect is not answered by the pool. -/
def Erasure.Theirs (X : Erasure E R) (e : E) : Prop := X.hidden e = true ∨ X.outer e = true

/-- Every hidden or outer effect of the history is answered by a choice, which may look at what
happened before. -/
def Chosen (X : Erasure E R) (choice : List (Happening A E R × σ) → (e : E) → X.Theirs e → R e) :
    List (Happening A E R × σ) → Prop
  | [] => True
  | (.start _, _) :: tr => Chosen X choice tr
  | (.performed e r, _) :: tr => (∀ he, r = choice tr e he) ∧ Chosen X choice tr

/-- What is assumed of a pool: the hidden effects do nothing to the shared state, the answers to the
outer ones nothing, the others keep an invariant `I` that makes their answers `X.ok`, and all
operations have erasures. -/
structure Observable (X : Erasure E R) (program : A → Program E R P Unit)
    (answers : (e : E) → σ → R e → σ → Multiset A → Prop) (I : σ → Prop) : Prop where
  hidden : ∀ e x r y as, X.hidden e = true → (answers e x r y as ↔ y = x ∧ as = 0)
  outer : ∀ e x r r' y as, X.outer e = true → answers e x r y as → answers e x r' y as
  ok : ∀ e x r y as, X.hidden e = false → I x → answers e x r y as → X.ok e r
  keeps : ∀ e x r y as, X.hidden e = false → X.good e → I x → answers e x r y as → I y
  erasable : ∀ a, Erasable X (program a)

variable {I : σ → Prop}
  {choice : List (Happening A E R × σ) → (e : E) → X.Theirs e → R e} {x0 : σ}

/-- Any number of operations have erasures. -/
theorem Observable.exists_erased (h : Observable X program answers I) (as : Multiset A) :
    ∃ ns, Multiset.Rel (Erases X) (as.map program) ns := by
  choose n hn using h.erasable
  refine ⟨as.map n, ?_⟩
  rw [Multiset.rel_map]
  exact Multiset.rel_refl_of_refl_on fun a _ => hn a

/-- A program whose erasure has come to an effect comes to that effect, past its hidden effects. -/
theorem Erases.exists_run (h : Observable X program answers I) {m : Program E R P Unit} {e : E}
    {k' : R e → Program E R P Unit} (hm : Erases X m (.effect e k'))
    {tr : List (Happening A E R × σ)} {x : σ} {ts : Multiset (Program E R P Unit)}
    (hr : PoolRun program answers x0 tr ⟨x, m ::ₘ ts⟩) (hc : Chosen X choice tr) :
    ∃ us k, PoolRun program answers x0 us ⟨x, .effect e k ::ₘ ts⟩ ∧ Chosen X choice us ∧
      shown X us = shown X tr ∧ ∀ r, X.ok e r → Erases X (k r) (k' r) := by
  generalize hn : Program.effect e k' = n at hm
  induction hm generalizing tr with
  | ret | unwind => cases hn
  | @hidden e' k n he _ ih =>
    -- the effect is answered by the choice
    have ha := (h.hidden e' x (choice tr e' (.inl he)) x 0 he).2 ⟨rfl, rfl⟩
    have hstep := hr.step (.act (.act (.effect (k := k) ha)))
    rw [Multiset.map_zero, Multiset.cons_add, zero_add] at hstep
    obtain ⟨us, k1, hus, hchosen, hshown, hk⟩ := ih _ hstep ⟨fun _ => rfl, hc⟩ hn
    exact ⟨us, k1, hus, hchosen, hshown.trans (shown_cons_of_hidden he _ _ _), hk⟩
  | visible he hgood houter hk _ =>
    cases hn
    exact ⟨tr, _, hr, hc, rfl, hk⟩

/-- The answer to a visible effect in the other run: the choice if it is outer, and the same
otherwise. -/
theorem Observable.exists_answer (h : Observable X program answers I)
    (choice : List (Happening A E R × σ) → (e : E) → X.Theirs e → R e) {e : E}
    (he : X.hidden e = false) {x y : σ} {r : R e} {as : Multiset A} (ha : answers e x r y as)
    (tr : List (Happening A E R × σ)) : ∃ r', answers e x r' y as ∧
      (∀ he, r' = choice tr e he) ∧ (X.outer e = true ∨ r' = r) := by
  cases houter : X.outer e with
  | false =>
    refine ⟨r, ha, fun htheirs => ?_, .inr rfl⟩
    simp [Erasure.Theirs, he, houter] at htheirs
  | true =>
    exact ⟨choice tr e (.inr houter), h.outer e x r _ y as houter ha, fun _ => rfl, .inl rfl⟩

/-- For every choice of the answers to hidden and outer effects there is a run that looks like the
given one. -/
theorem exists_run_of_choice (h : Observable X program answers I) (h0 : I x0)
    (choice : List (Happening A E R × σ) → (e : E) → X.Theirs e → R e)
    {tr : List (Happening A E R × σ)} {p : Pool σ (Program E R P Unit)}
    (hr : PoolRun program answers x0 tr p) :
    ∃ us q, PoolRun program answers x0 us q ∧ Chosen X choice us ∧ shown X us = shown X tr ∧
      q.shared = p.shared := by
  -- the two runs are kept together by a pool of erased programs that is common to them
  suffices hsuff : I p.shared ∧ ∃ us qs ns, PoolRun program answers x0 us ⟨p.shared, qs⟩ ∧
      Chosen X choice us ∧ shown X us = shown X tr ∧ Multiset.Rel (Erases X) p.threads ns ∧
      Multiset.Rel (Erases X) qs ns by
    obtain ⟨-, us, qs, ns, hus, hchosen, hshown, -⟩ := hsuff
    exact ⟨us, _, hus, hchosen, hshown, rfl⟩
  refine Pool.invariant (P := fun tr x ts => I x ∧ ∃ us qs ns,
    PoolRun program answers x0 us ⟨x, qs⟩ ∧ Chosen X choice us ∧ shown X us = shown X tr ∧
      Multiset.Rel (Erases X) ts ns ∧ Multiset.Rel (Erases X) qs ns)
    ⟨h0, [], 0, 0, .init, trivial, rfl, .zero, .zero⟩ ?_ ?_ hr
  · rintro tr x ts e y new - ⟨hI, us, qs, ns, hus, hchosen, hshown, hts, hqs⟩ hs
    cases hs with
    | @start a =>
      obtain ⟨n, hn⟩ := h.erasable a
      refine ⟨hI, _, _, n ::ₘ ns, hus.step (.call (.start (a := a))), hchosen, ?_,
        Multiset.Rel.cons hn hts, Multiset.Rel.cons hn hqs⟩
      exact congrArg (List.cons (Sight.start a, x)) hshown
  · rintro tr x t ts e y new - ⟨hI, us, qs, ns, hus, hchosen, hshown, hts, hqs⟩ hact
    cases hact with
    | @effect e k _ _ r as ha =>
      obtain ⟨n, ns, hn, hrest, rfl⟩ := Multiset.rel_cons_left.1 hts
      cases hn with
      | hidden he hk =>
        -- the other run stays where it is
        obtain ⟨rfl, rfl⟩ := (h.hidden _ _ _ _ _ he).1 ha
        refine ⟨hI, us, qs, n ::ₘ ns, hus, hchosen, ?_, ?_, hqs⟩
        · rw [hshown, shown_cons_of_hidden he]
        · rw [Multiset.map_zero, Multiset.cons_add, zero_add]
          exact Multiset.Rel.cons (hk r) hrest
      | @visible _ _ k' he hgood houter hk =>
        -- the other run comes to the same effect
        obtain ⟨m, qs, hm, hrest', rfl⟩ := Multiset.rel_cons_right.1 hqs
        obtain ⟨vs, k1, hvs, hchosen', hshown', hk1⟩ := hm.exists_run h hus hchosen
        obtain ⟨r', ha', hr', hsame⟩ := h.exists_answer choice he ha vs
        have hk' : k' r' = k' r := by
          rcases hsame with ho | rfl
          · exact houter ho r' r
          · rfl
        have hn := hk r (h.ok e x r y as he hI ha)
        have hn1 := hk1 r' (h.ok e x r' y as he hI ha')
        rw [hk'] at hn1
        obtain ⟨ns', has⟩ := h.exists_erased as
        refine ⟨h.keeps e x r y as he hgood hI ha, _, _, (k' r ::ₘ ns') + ns,
          hvs.step (.act (.act (.effect ha'))), ⟨hr', hchosen'⟩, ?_, ?_, ?_⟩
        · exact shown_cons_congr (hshown'.trans hshown) hsame y
        · exact (Multiset.Rel.cons hn has).add hrest
        · exact (Multiset.Rel.cons hn1 has).add hrest'

end pool

end Program
