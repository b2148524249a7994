import RayonExecutor.Lib.Erasure

/-!
# Programs that share data behind a mutex

The effects of a program that shares data `D` behind a mutex that is not re-entrant: to lock and to
unlock it, to read and to write the data through the guard, to run a piece of foreign code (`user`),
and others. `Program.Safe` follows the program with what the thread holds, which is nothing or the
lock with known data. It asks that the data satisfy an invariant whenever the lock is free, that
foreign code run without the lock, and that the lock be taken only by a thread that does not have
it.

`Program.Critical` is the body of a critical section in which all of this can be seen from the body
alone, with nothing that comes from outside. Such sections are the common part of two questions: how
a program behaves without its foreign code (`foreignErasure`), and whether it is safe (`Free`).
-/

/-- The effects of a program with data behind a mutex. -/
inductive Guarded (D U O : Type)
  | lock
  | unlock
  | get
  | set (d : D)
  | user (u : U)
  | other (o : O)

namespace Guarded

variable {D U O P α β : Type} {V : U → Type} {A : O → Type}

/-- The answers to the effects. -/
@[reducible] def Answer (V : U → Type) (A : O → Type) : Guarded D U O → Type
  | .lock => Unit
  | .unlock => Unit
  | .get => D
  | .set _ => Unit
  | .user u => V u
  | .other o => A o

/-- Whether an effect is a piece of foreign code. -/
def isUser : Guarded D U O → Bool
  | .user _ => true
  | _ => false

end Guarded

open Guarded

namespace Program

variable {D U O P α β : Type} {V : U → Type} {A : O → Type}

/-- Takes the lock. -/
abbrev acquire : Program (Guarded D U O) (Answer V A) P Unit :=
  perform (Guarded.lock : Guarded D U O)

/-- Gives it back. -/
abbrev release : Program (Guarded D U O) (Answer V A) P Unit :=
  perform (Guarded.unlock : Guarded D U O)

/-- Reads the data through the guard. -/
abbrev read : Program (Guarded D U O) (Answer V A) P D :=
  perform (Guarded.get : Guarded D U O)

/-- Writes the data through the guard. -/
abbrev write (d : D) : Program (Guarded D U O) (Answer V A) P Unit :=
  perform (Guarded.set d : Guarded D U O)

/-- Runs a piece of foreign code. -/
abbrev foreign (u : U) : Program (Guarded D U O) (Answer V A) P (V u) :=
  perform (Guarded.user u : Guarded D U O)

/-- Performs another effect. -/
abbrev other (o : O) : Program (Guarded D U O) (Answer V A) P (A o) :=
  perform (Guarded.other o : Guarded D U O)

/-- The scope of a guard: the lock is released at its end, however that is reached. -/
def scope (body : Program (Guarded D U O) (Answer V A) P α) :
    Program (Guarded D U O) (Answer V A) P α := do
  acquire
  let outcome ← body.catchUnwind
  release
  resume outcome

/-- The scope of a body that does not unwind, in one piece. -/
theorem Returns.scope_eq {body : Program (Guarded D U O) (Answer V A) P α} (h : body.Returns) :
    Program.scope body = (do
      acquire
      let a ← body
      release
      pure a) := by
  unfold Program.scope
  rw [perform_bind, perform_bind]
  exact congrArg _ (funext fun _ => h.catchUnwind_bind)

/-- The scope of a body that does not unwind does not unwind. -/
theorem Returns.scope {body : Program (Guarded D U O) (Answer V A) P α} (h : body.Returns) :
    body.scope.Returns := by
  rw [h.scope_eq]
  exact fun _ => h.bind fun a _ => trivial

/-- A scope adds the two effects on the lock. -/
theorem Hidden.scope {hidden : Guarded D U O → Bool} (hlock : hidden .lock = true)
    (hunlock : hidden .unlock = true) {body : Program (Guarded D U O) (Answer V A) P α}
    (h : body.Hidden hidden) : body.scope.Hidden hidden := by
  refine ⟨hlock, fun _ => h.catchUnwind.bind fun o => ⟨hunlock, fun _ => ?_⟩⟩
  cases o <;> trivial

/-- The scope of a guard with what comes after it, which is told how the body has ended. -/
def scopeThen (body : Program (Guarded D U O) (Answer V A) P α)
    (f : Except P α → Program (Guarded D U O) (Answer V A) P β) :
    Program (Guarded D U O) (Answer V A) P β := do
  acquire
  let outcome ← body.catchUnwind
  release
  f outcome

/-- What comes after a scope is told how the body has ended. -/
theorem scope_bind (body : Program (Guarded D U O) (Answer V A) P α)
    (f : α → Program (Guarded D U O) (Answer V A) P β) :
    (scope body >>= f) = scopeThen body fun outcome => resume outcome >>= f := by
  unfold scope scopeThen
  simp only [bind_assoc]

/-- What comes after a scope that is caught is told how the body has ended. -/
theorem scope_catchUnwind_bind (body : Program (Guarded D U O) (Answer V A) P α)
    (f : Except P α → Program (Guarded D U O) (Answer V A) P β) :
    ((scope body).catchUnwind >>= f) = scopeThen body f := by
  have hresume : ∀ o : Except P α,
      ((resume o : Program (Guarded D U O) (Answer V A) P α).catchUnwind >>= f) = f o := by
    rintro (payload | a) <;> rfl
  unfold scope scopeThen
  simp only [perform_bind, catchUnwind_effect, effect_bind,
    (Returns.catchUnwind body).catchUnwind_bind, catchUnwind_bind, bind_assoc, hresume]

/-- The program is safe for a thread that holds the data `h`, and ends with what it holds then and
with its outcome in `Q`. The data satisfy `I` whenever the lock is free. -/
def Safe (I : D → Prop) : Option D → Program (Guarded D U O) (Answer V A) P α →
    (Option D → Except P α → Prop) → Prop
  | h, .ret a, Q => Q h (.ok a)
  | h, .unwind payload, Q => Q h (.error payload)
  | h, .effect .lock k, Q => h = none ∧ ∀ d, I d → (k ()).Safe I (some d) Q
  | h, .effect .unlock k, Q => ∃ d, h = some d ∧ I d ∧ (k ()).Safe I none Q
  | h, .effect .get k, Q => ∃ d, h = some d ∧ (k d).Safe I (some d) Q
  | h, .effect (.set d) k, Q => h ≠ none ∧ (k ()).Safe I (some d) Q
  | h, .effect (.user _) k, Q => h = none ∧ ∀ r, (k r).Safe I none Q
  | h, .effect (.other _) k, Q => ∀ r, (k r).Safe I h Q

section Safe
variable {I : D → Prop} {h : Option D} {Q : Option D → Except P α → Prop}

/-- A safe program may be asked to end in less. -/
theorem Safe.mono {m : Program (Guarded D U O) (Answer V A) P α} (hm : m.Safe I h Q)
    {Q' : Option D → Except P α → Prop} (hQ : ∀ h o, Q h o → Q' h o) : m.Safe I h Q' := by
  induction m generalizing h with
  | ret | unwind => exact hQ _ _ hm
  | effect e k ih =>
    cases e with
    | lock => exact ⟨hm.1, fun d hd => ih () (hm.2 d hd)⟩
    | unlock =>
      obtain ⟨d, hh, hd, hk⟩ := hm
      exact ⟨d, hh, hd, ih () hk⟩
    | get =>
      obtain ⟨d, hh, hk⟩ := hm
      exact ⟨d, hh, ih d hk⟩
    | set => exact ⟨hm.1, ih () hm.2⟩
    | user => exact ⟨hm.1, fun r => ih r (hm.2 r)⟩
    | other => exact fun r => ih r (hm r)

/-- The rule for sequences. -/
theorem Safe.bind {m : Program (Guarded D U O) (Answer V A) P β}
    {f : β → Program (Guarded D U O) (Answer V A) P α}
    (hm : m.Safe I h fun h' o => match o with
      | .ok b => (f b).Safe I h' Q
      | .error payload => Q h' (.error payload)) : (m >>= f).Safe I h Q := by
  induction m generalizing h with
  | ret | unwind => exact hm
  | effect e k ih =>
    cases e with
    | lock => exact ⟨hm.1, fun d hd => ih () (hm.2 d hd)⟩
    | unlock =>
      obtain ⟨d, hh, hd, hk⟩ := hm
      exact ⟨d, hh, hd, ih () hk⟩
    | get =>
      obtain ⟨d, hh, hk⟩ := hm
      exact ⟨d, hh, ih d hk⟩
    | set => exact ⟨hm.1, ih () hm.2⟩
    | user => exact ⟨hm.1, fun r => ih r (hm.2 r)⟩
    | other => exact fun r => ih r (hm r)

/-- The rule for catching. -/
theorem Safe.catchUnwind {m : Program (Guarded D U O) (Answer V A) P β}
    {Q : Option D → Except P (Except P β) → Prop} (hm : m.Safe I h fun h' o => Q h' (.ok o)) :
    m.catchUnwind.Safe I h Q := by
  induction m generalizing h with
  | ret | unwind => exact hm
  | effect e k ih =>
    cases e with
    | lock => exact ⟨hm.1, fun d hd => ih () (hm.2 d hd)⟩
    | unlock =>
      obtain ⟨d, hh, hd, hk⟩ := hm
      exact ⟨d, hh, hd, ih () hk⟩
    | get =>
      obtain ⟨d, hh, hk⟩ := hm
      exact ⟨d, hh, ih d hk⟩
    | set => exact ⟨hm.1, ih () hm.2⟩
    | user => exact ⟨hm.1, fun r => ih r (hm.2 r)⟩
    | other => exact fun r => ih r (hm r)

/-- The rule for resuming. -/
theorem Safe.resume {o : Except P α} (hQ : Q h o) :
    (Program.resume o : Program (Guarded D U O) (Answer V A) P α).Safe I h Q := by
  cases o <;> exact hQ

/-- The rule for a guard's scope: its body starts with data that satisfy the invariant, and leaves
such data on every exit. -/
theorem Safe.scope {body : Program (Guarded D U O) (Answer V A) P α}
    (hb : ∀ d, I d → body.Safe I (some d) fun h o => (∃ d', h = some d' ∧ I d') ∧ Q none o) :
    body.scope.Safe I none Q := by
  unfold Program.scope
  rw [perform_bind]
  refine ⟨rfl, fun d hd => Safe.bind (Safe.catchUnwind ((hb d hd).mono ?_))⟩
  rintro h o ⟨⟨d', rfl, hd'⟩, hQ⟩
  exact ⟨d', rfl, hd', Safe.resume hQ⟩

end Safe

/-! ## Critical sections -/

/-- The body of a critical section that keeps the invariant of the data, runs no foreign code, and
performs no other effect with an answer from outside. -/
def Critical (I : D → Prop) (outer : O → Bool) : Program (Guarded D U O) (Answer V A) P α → Prop
  | .ret _ => True
  | .unwind _ => True
  | .effect .get k => ∀ d, I d → (k d).Critical I outer
  | .effect (.set d) k => I d ∧ (k ()).Critical I outer
  | .effect (.other o) k => outer o = false ∧ ∀ r, (k r).Critical I outer
  | .effect .lock _ => False
  | .effect .unlock _ => False
  | .effect (.user _) _ => False

/-- The program is safe for a thread that does not have the lock, and never keeps it. -/
abbrev Free (I : D → Prop) (m : Program (Guarded D U O) (Answer V A) P α) : Prop :=
  m.Safe I none fun h _ => h = none

section Critical
variable {I : D → Prop} {outer : O → Bool}

/-- The rule for sequences in a critical section. -/
theorem Critical.bind {m : Program (Guarded D U O) (Answer V A) P β}
    {f : β → Program (Guarded D U O) (Answer V A) P α} (hm : m.Critical I outer)
    (hf : ∀ b, (f b).Critical I outer) : (m >>= f).Critical I outer := by
  induction m with
  | ret b => exact hf b
  | unwind payload => trivial
  | effect e k ih =>
    cases e with
    | get => exact fun d hd => ih d (hm d hd)
    | set d => exact ⟨hm.1, ih () hm.2⟩
    | other o => exact ⟨hm.1, fun r => ih r (hm.2 r)⟩
    | lock | unlock | user => exact absurd hm id

/-- The rule for reading. -/
theorem Critical.read {f : D → Program (Guarded D U O) (Answer V A) P α}
    (hf : ∀ d, I d → (f d).Critical I outer) : (Program.read >>= f).Critical I outer := hf

/-- The rule for writing. -/
theorem Critical.write {d : D} {f : Unit → Program (Guarded D U O) (Answer V A) P α} (hd : I d)
    (hf : (f ()).Critical I outer) : (Program.write d >>= f).Critical I outer := ⟨hd, hf⟩

/-- The rule for other effects. -/
theorem Critical.other {o : O} {f : A o → Program (Guarded D U O) (Answer V A) P α}
    (ho : outer o = false) (hf : ∀ r, (f r).Critical I outer) :
    (Program.other o >>= f).Critical I outer := ⟨ho, hf⟩

/-- A critical section is safe for the thread that has the lock. -/
theorem Critical.safe {m : Program (Guarded D U O) (Answer V A) P α} (hm : m.Critical I outer)
    {d : D} (hd : I d) : m.Safe I (some d) fun h _ => ∃ d', h = some d' ∧ I d' := by
  induction m generalizing d with
  | ret | unwind => exact ⟨d, rfl, hd⟩
  | effect e k ih =>
    cases e with
    | get => exact ⟨d, rfl, ih d (hm d hd) hd⟩
    | set d' => exact ⟨Option.some_ne_none d, ih () hm.2 hm.1⟩
    | other o => exact fun r => ih r (hm.2 r) hd
    | lock | unlock | user => exact absurd hm id

/-- A scope with a critical body takes the lock and gives it back. -/
theorem Critical.free {body : Program (Guarded D U O) (Answer V A) P α}
    (hb : body.Critical I outer) : body.scope.Free I :=
  Safe.scope fun _ hd => (hb.safe hd).mono fun _ _ hh => ⟨hh, rfl⟩

/-- The rule for sequences without the lock. -/
theorem Free.bind {m : Program (Guarded D U O) (Answer V A) P β}
    {f : β → Program (Guarded D U O) (Answer V A) P α} (hm : m.Free I) (hf : ∀ b, (f b).Free I) :
    (m >>= f).Free I := by
  refine Safe.bind (Safe.mono hm ?_)
  rintro h o rfl
  cases o with
  | ok b => exact hf b
  | error payload => rfl

/-- The rule for catching without the lock. -/
theorem Free.catchUnwind {m : Program (Guarded D U O) (Answer V A) P α} (hm : m.Free I) :
    m.catchUnwind.Free I := Safe.catchUnwind (Safe.mono hm fun _ _ hh => hh)

/-- The rule for other effects without the lock. -/
theorem Free.other {o : O} {f : A o → Program (Guarded D U O) (Answer V A) P α}
    (hf : ∀ r, (f r).Free I) : (Program.other o >>= f).Free I := hf

/-- Foreign code may run without the lock. -/
theorem Hidden.free {m : Program (Guarded D U O) (Answer V A) P α} (hm : m.Hidden isUser) :
    m.Free I := by
  induction m with
  | ret | unwind => rfl
  | effect e k ih =>
    cases e with
    | user u => exact ⟨rfl, fun r => ih r (hm.2 r)⟩
    | lock | unlock | get | set | other => exact absurd hm.1 (by simp [isUser])

end Critical

/-! ## Without the foreign code -/

/-- The erasure of foreign code: what is read under the lock satisfies the invariant, and so must
what is written. -/
def foreignErasure (I : D → Prop) (outer : O → Bool) : Erasure (Guarded D U O) (Answer V A) where
  hidden := isUser
  outer
    | .other o => outer o
    | _ => false
  ok
    | .get, d => I d
    | _, _ => True
  good
    | .set d => I d
    | _ => True

section foreignErasure
variable {I : D → Prop} {outer : O → Bool}

/-- A program that does nothing to the outside is its own erasure. -/
theorem Erasable.ret {a : α} : Erasable (foreignErasure I outer)
    (.ret a : Program (Guarded D U O) (Answer V A) P α) := ⟨_, .ret a⟩

/-- An outcome has an erasure. -/
theorem Erasable.resume {o : Except P α} : Erasable (foreignErasure I outer)
    (Program.resume o : Program (Guarded D U O) (Answer V A) P α) := by
  cases o with
  | ok a => exact ⟨_, .ret a⟩
  | error payload => exact ⟨_, .unwind payload⟩

/-- The rule for other effects. -/
theorem Erasable.other {o : O} {f : A o → Program (Guarded D U O) (Answer V A) P α}
    (ho : outer o = false) (hf : ∀ r, Erasable (foreignErasure I outer) (f r)) :
    Erasable (foreignErasure I outer) (Program.other o >>= f) :=
  Erasable.effect rfl trivial ho fun r _ => hf r

/-- The rule for other effects with an answer from outside. -/
theorem Erases.other {o : O} {f : A o → Program (Guarded D U O) (Answer V A) P α}
    {n : Program (Guarded D U O) (Answer V A) P α}
    (hf : ∀ r, Erases (foreignErasure I outer) (f r) n) :
    Erases (foreignErasure I outer) (Program.other o >>= f) (Program.other o >>= fun _ => n) :=
  Erases.outer rfl trivial hf

/-- A critical section has an erasure. -/
theorem Critical.erasable {m : Program (Guarded D U O) (Answer V A) P α}
    (hm : m.Critical I outer) : Erasable (foreignErasure I outer) m := by
  induction m with
  | ret | unwind => exact ⟨_, by constructor⟩
  | effect e k ih =>
    cases e with
    | get => exact Erasable.effect rfl trivial rfl fun d hd => ih d (hm d hd)
    | set d => exact Erasable.effect rfl hm.1 rfl fun _ _ => ih () hm.2
    | other o => exact Erasable.effect rfl trivial hm.1 fun r _ => ih r (hm.2 r)
    | lock | unlock | user => exact absurd hm id

/-- A scope with a critical body has an erasure. -/
theorem Critical.erasable_scope {body : Program (Guarded D U O) (Answer V A) P α}
    (hb : body.Critical I outer) : Erasable (foreignErasure I outer) body.scope :=
  Erasable.effect rfl trivial rfl fun _ _ => (hb.erasable.catchUnwind).bind fun _ =>
    Erasable.effect rfl trivial rfl fun _ _ => Erasable.resume

end foreignErasure

end Program
