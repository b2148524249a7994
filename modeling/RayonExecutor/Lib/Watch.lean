import Mathlib.Data.Bool.Basic
import Mathlib.Order.Basic
import Mathlib.Order.Nat

/-!
# Watch channels

The interface of a single-value broadcast channel: a sender stores the latest value, and each
receiver remembers which change it has seen last. The laws are the documented behaviour that
clients rely on. They do not say how changes are counted; `Watch.versioned` counts them with a
natural number, which is one channel that satisfies them.
-/

/-- A watch channel: its operations and the laws they obey. -/
structure Watch where
  /-- The sending side, which holds the current value. -/
  Sender : Type → Type
  /-- A receiving side, which holds the last change it has seen. -/
  Receiver : Type → Type
  /-- The sender of a new channel. -/
  channel : {α : Type} → α → Sender α
  /-- The current value. -/
  borrow : {α : Type} → Sender α → α
  /-- A new receiver. -/
  subscribe : {α : Type} → Sender α → Receiver α
  /-- Updates the value in place; the closure says whether the update is a change. -/
  sendIfModified : {α : Type} → Sender α → (α → α × Bool) → Sender α
  /-- Whether there is a change that the receiver has not seen. -/
  hasChanged : {α : Type} → Sender α → Receiver α → Bool
  /-- The receiver after it has seen every change so far. -/
  markUnchanged : {α : Type} → Sender α → Receiver α → Receiver α
  /-- The receiver was subscribed to this channel. -/
  Issued : {α : Type} → Sender α → Receiver α → Prop
  borrow_channel : ∀ {α : Type} (a : α), borrow (channel a) = a
  borrow_sendIfModified : ∀ {α : Type} (s : Sender α) (f : α → α × Bool),
    borrow (sendIfModified s f) = (f (borrow s)).1
  issued_subscribe : ∀ {α : Type} (s : Sender α), Issued s (subscribe s)
  issued_sendIfModified : ∀ {α : Type} {s : Sender α} {r : Receiver α} (f : α → α × Bool),
    Issued s r → Issued (sendIfModified s f) r
  issued_markUnchanged : ∀ {α : Type} {s : Sender α} {r : Receiver α},
    Issued s r → Issued s (markUnchanged s r)
  /-- A new receiver has seen every earlier change. -/
  hasChanged_subscribe : ∀ {α : Type} (s : Sender α), hasChanged s (subscribe s) = false
  hasChanged_markUnchanged : ∀ {α : Type} (s : Sender α) (r : Receiver α),
    hasChanged s (markUnchanged s r) = false
  /-- An update that is a change is unseen by every receiver. -/
  hasChanged_of_modified : ∀ {α : Type} {s : Sender α} {r : Receiver α} {f : α → α × Bool},
    Issued s r → (f (borrow s)).2 = true → hasChanged (sendIfModified s f) r = true
  /-- An update that is no change is not seen by any receiver. -/
  hasChanged_of_not_modified : ∀ {α : Type} {s : Sender α} {r : Receiver α} {f : α → α × Bool},
    (f (borrow s)).2 = false → hasChanged (sendIfModified s f) r = hasChanged s r

namespace Watch

variable (W : Watch) {α : Type}

attribute [simp] borrow_channel borrow_sendIfModified hasChanged_subscribe
  hasChanged_markUnchanged

/-- An update that is always a change. -/
def sendModify (s : W.Sender α) (f : α → α) : W.Sender α :=
  W.sendIfModified s (fun a => (f a, true))

variable {W}

/-- A receiver keeps belonging to its channel. -/
theorem issued_sendModify {s : W.Sender α} {r : W.Receiver α} (f : α → α) (h : W.Issued s r) :
    W.Issued (W.sendModify s f) r := W.issued_sendIfModified _ h

/-- Every receiver of the channel has the update unseen. -/
theorem hasChanged_sendModify {s : W.Sender α} {r : W.Receiver α} (f : α → α)
    (h : W.Issued s r) : W.hasChanged (W.sendModify s f) r = true := W.hasChanged_of_modified h rfl

/-- The channel that counts its changes: a receiver stores the count at which it last looked. -/
def versioned : Watch where
  Sender α := α × ℕ
  Receiver _ := ℕ
  channel a := (a, 0)
  borrow s := s.1
  subscribe s := s.2
  sendIfModified s f := ((f s.1).1, if (f s.1).2 then s.2 + 1 else s.2)
  hasChanged s r := s.2 != r
  markUnchanged s _ := s.2
  Issued s r := r ≤ s.2
  borrow_channel _ := rfl
  borrow_sendIfModified _ _ := rfl
  issued_subscribe _ := le_refl _
  issued_sendIfModified {_ s r} f h := by
    change r ≤ if (f s.1).2 then s.2 + 1 else s.2
    split_ifs <;> omega
  issued_markUnchanged _ := le_refl _
  hasChanged_subscribe _ := by simp
  hasChanged_markUnchanged _ _ := by simp
  hasChanged_of_modified {_ s r f} h hf := by
    simp only [hf, if_true, bne_iff_ne, ne_eq]
    omega
  hasChanged_of_not_modified hf := by simp [hf]

end Watch
