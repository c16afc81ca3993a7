/-!
# Attempts

An attempt works on a state and may fail on the way. A failure takes nothing back: it comes with the
state that the attempt has reached by then. So if a failed attempt leaves its state as it was
(`Attempt.Atomic`), this rests on the order of its parts, and is to be proved of each attempt: what may
fail has to come before the first change.
-/

namespace Chip8

/-- Work on a state that may fail, and then keeps what it has done so far. -/
abbrev Attempt (ε σ α : Type) := EStateM ε σ α

namespace Attempt

variable {ε σ α β : Type}

/-- What comes of an attempt: its value and the next state, or why it failed. -/
def result (p : Attempt ε σ α) (s : σ) : Except ε (α × σ) :=
  match p.run s with
  | .ok a next => .ok (a, next)
  | .error e _ => .error e

/-- The state that an attempt leaves, also when it fails. -/
def left (p : Attempt ε σ α) (s : σ) : σ :=
  match p.run s with
  | .ok _ next => next
  | .error _ reached => reached

/-- A value, or a failure that is found without touching the state. -/
def ofExcept (x : Except ε α) : Attempt ε σ α :=
  match x with
  | .ok a => pure a
  | .error e => throw e

/-- An attempt on a part of a state, which is put back whatever becomes of it. A failure of the part is
told as one of the whole. -/
def onPart {ε' τ : Type} (part : σ → τ) (put : τ → σ → σ) (tell : ε → ε') (p : Attempt ε τ α) :
    Attempt ε' σ α := fun s =>
  match p.run (part s) with
  | .ok a next => .ok a (put next s)
  | .error e reached => .error (tell e) (put reached s)

theorem run_bind_ok {p : Attempt ε σ α} {f : α → Attempt ε σ β} {s next : σ} {a : α}
    (h : p.run s = .ok a next) : (p >>= f).run s = (f a).run next := by
  rw [EStateM.run_bind, h]

theorem run_bind_error {p : Attempt ε σ α} {f : α → Attempt ε σ β} {s reached : σ} {e : ε}
    (h : p.run s = .error e reached) : (p >>= f).run s = .error e reached := by
  rw [EStateM.run_bind, h]

theorem run_onPart {ε' τ : Type} (part : σ → τ) (put : τ → σ → σ) (tell : ε → ε') (p : Attempt ε τ α)
    (s : σ) :
    (onPart part put tell p).run s =
      match p.run (part s) with
      | .ok a next => .ok a (put next s)
      | .error e reached => .error (tell e) (put reached s) := rfl

/-- A failure leaves the state as it was. -/
def Atomic (p : Attempt ε σ α) : Prop :=
  ∀ {s : σ} {e : ε} {reached : σ}, p.run s = .error e reached → reached = s

end Attempt

end Chip8
