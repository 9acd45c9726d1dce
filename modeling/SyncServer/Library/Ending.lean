import Mathlib.Logic.Basic

/-! # Calls that may not return

A call returns a value, waits for something that does not come, or stops the program.
-/

universe u v

/-- How a call ends. -/
inductive Ending (ε : Type u) (α : Type v) where
  | done (a : α)
  | waits
  | faults (e : ε)
  deriving DecidableEq, Repr

namespace Ending

variable {ε : Type u} {α β : Type v}

protected def bind : Ending ε α → (α → Ending ε β) → Ending ε β
  | done a, f => f a
  | waits, _ => waits
  | faults e, _ => faults e

instance : Monad (Ending ε) where
  pure := done
  bind := Ending.bind

/-- The value behind a pointer; a null pointer is the fault. -/
def deref (e : ε) : Option α → Ending ε α
  | none => faults e
  | some a => done a

/-- Something that is waited for until it is there. -/
def await : Option α → Ending ε α
  | none => waits
  | some a => done a

@[simp] theorem pure_eq (a : α) : (pure a : Ending ε α) = done a := rfl

@[simp] theorem bind_done (a : α) (f : α → Ending ε β) : (done a >>= f) = f a := rfl

@[simp] theorem bind_waits (f : α → Ending ε β) : ((waits : Ending ε α) >>= f) = waits := rfl

@[simp] theorem bind_faults (e : ε) (f : α → Ending ε β) :
    ((faults e : Ending ε α) >>= f) = faults e := rfl

@[simp] theorem deref_none (e : ε) : deref e (none : Option α) = faults e := rfl

@[simp] theorem deref_some (e : ε) (a : α) : deref e (some a) = done a := rfl

@[simp] theorem await_none : (await none : Ending ε α) = waits := rfl

@[simp] theorem await_some (a : α) : (await (some a) : Ending ε α) = done a := rfl

theorem bind_eq_done {x : Ending ε α} {f : α → Ending ε β} {b : β} :
    (x >>= f) = done b ↔ ∃ a, x = done a ∧ f a = done b := by
  cases x with
  | done a => simp
  | waits => simp
  | faults e => simp

theorem deref_eq_done {e : ε} {o : Option α} {a : α} : deref e o = done a ↔ o = some a := by
  cases o with
  | none => simp
  | some b => simp

theorem await_eq_done {o : Option α} {a : α} :
    (await o : Ending ε α) = done a ↔ o = some a := by
  cases o with
  | none => simp
  | some b => simp

/-- The value of a call that returns. -/
def returned : Ending ε α → Option α
  | done a => some a
  | _ => none

theorem returned_eq_some {x : Ending ε α} {a : α} : x.returned = some a ↔ x = done a := by
  cases x with
  | done b => simp [returned]
  | waits => simp [returned]
  | faults e => simp [returned]

/-! ## Calls that do not stop the program -/

def Safe (x : Ending ε α) : Prop := ∀ e, x ≠ faults e

@[simp] theorem safe_done (a : α) : Safe (done a : Ending ε α) := nofun

@[simp] theorem safe_waits : Safe (waits : Ending ε α) := nofun

@[simp] theorem not_safe_faults (e : ε) : ¬Safe (faults e : Ending ε α) := fun h => h e rfl

theorem safe_bind {x : Ending ε α} {f : α → Ending ε β} :
    Safe (x >>= f) ↔ Safe x ∧ ∀ a, x = done a → Safe (f a) := by
  cases x with
  | done a => simp
  | waits => simp
  | faults e => simp

theorem safe_deref {e : ε} {o : Option α} : Safe (deref e o) ↔ o.isSome = true := by
  cases o with
  | none => simp
  | some a => simp

theorem safe_await (o : Option α) : Safe (await o : Ending ε α) := by
  cases o with
  | none => simp
  | some a => simp

instance (x : Ending ε α) : Decidable (Safe x) :=
  match x with
  | done a => .isTrue (safe_done a)
  | waits => .isTrue safe_waits
  | faults e => .isFalse (not_safe_faults e)

/-! ## What a call returns -/

/-- If the call returns, its value meets the condition. -/
def Gives (P : α → Prop) (x : Ending ε α) : Prop := ∀ a, x = done a → P a

theorem gives_done {P : α → Prop} {a : α} (h : P a) : Gives P (done a : Ending ε α) :=
  fun _ heq => done.inj heq ▸ h

theorem gives_faults (P : α → Prop) (e : ε) : Gives P (faults e : Ending ε α) :=
  fun _ heq => by cases heq

theorem gives_bind {P : β → Prop} {x : Ending ε α} {f : α → Ending ε β}
    (h : ∀ a, x = done a → Gives P (f a)) : Gives P (x >>= f) := by
  intro b hb
  obtain ⟨a, ha, hb⟩ := bind_eq_done.mp hb
  exact h a ha b hb

theorem Gives.bind {P : α → Prop} {Q : β → Prop} {x : Ending ε α} {f : α → Ending ε β}
    (h : Gives P x) (hnext : ∀ a, P a → Gives Q (f a)) : Gives Q (x >>= f) :=
  gives_bind fun a ha => hnext a (h a ha)

/-! ## Two calls that end alike -/

universe w

section

variable {γ δ : Type w}

/-- Both return, with related values, or both wait, or both stop with the same fault. -/
inductive Alike (R : α → γ → Prop) : Ending ε α → Ending ε γ → Prop where
  | done {a c} (h : R a c) : Alike R (done a) (done c)
  | waits : Alike R waits waits
  | faults (e) : Alike R (faults e) (faults e)

theorem Alike.bind {R : α → γ → Prop} {S : β → δ → Prop} {x : Ending ε α} {y : Ending ε γ}
    {f : α → Ending ε β} {g : γ → Ending ε δ} (h : Alike R x y)
    (hnext : ∀ a c, R a c → Alike S (f a) (g c)) : Alike S (x >>= f) (y >>= g) := by
  cases h with
  | done h => exact hnext _ _ h
  | waits => exact .waits
  | faults e => exact .faults e

/-- Two calls that start with the same one. -/
theorem alike_bind_self {S : β → β → Prop} {x : Ending ε α} {f g : α → Ending ε β}
    (hnext : ∀ a, x = done a → Alike S (f a) (g a)) : Alike S (x >>= f) (x >>= g) := by
  cases x with
  | done a => exact hnext a rfl
  | waits => exact .waits
  | faults e => exact .faults e

theorem Alike.returned {R : α → γ → Prop} {x : Ending ε α} {y : Ending ε γ} (h : Alike R x y)
    {a : α} (hx : x.returned = some a) : ∃ c, y.returned = some c ∧ R a c := by
  cases h with
  | done h =>
      cases hx
      exact ⟨_, rfl, h⟩
  | waits => cases hx
  | faults e => cases hx

end

end Ending
