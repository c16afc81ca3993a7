import Chip8.Attempt
import Chip8.Word

/-!
# Display surfaces

The machine meets its host through four requests: turn every pixel off, draw a sprite, ask for one
key, ask for any key. `Request.Reply` gives the type of the answer to each.

A surface (`Surface`) answers a request and goes to a new state, or fails in the state that it has
reached by then. What it gives back is `ask`, what it has become is `answered`.
-/

namespace Chip8

/-- What the machine asks of its surface. -/
inductive Request
  | clear
  | draw (x y : Byte) (rows : List Byte)
  | key (index : Byte)
  | anyKey
deriving DecidableEq, Repr

/-- The answer to a request: for a drawing whether it collided, for a key whether it is held, for any
key the index of one that is held. -/
abbrev Request.Reply : Request → Type
  | .clear => Unit
  | .draw _ _ _ => Bool
  | .key _ => Bool
  | .anyKey => Option Int

/-- Why a surface cannot answer: there is none, or it has no cell to draw on. -/
inductive SurfaceFault
  | detached
  | noCells
deriving DecidableEq, Repr

/-- A kind of surface: how it answers a request. -/
class Surface (σ : Type) where
  /-- Answers a request; a surface that fails keeps what it has done by then. -/
  respond : (r : Request) → Attempt SurfaceFault σ r.Reply

namespace Surface

variable {σ : Type} [Surface σ]

/-- The answer to a request with the next state of the surface. -/
def ask (s : σ) (r : Request) : Except SurfaceFault (r.Reply × σ) := (respond r).result s

/-- The surface after a request, whether it could answer or not. -/
def answered (s : σ) (r : Request) : σ := (respond r).left s

theorem answered_of_ask_ok {s next : σ} {r : Request} {reply : r.Reply} (h : ask s r = .ok (reply, next)) :
    answered s r = next := by
  unfold ask Attempt.result at h
  unfold answered Attempt.left
  cases hrespond : (respond r).run s with
  | ok reply' next' =>
    rw [hrespond] at h
    cases h
    rfl
  | error cause reached =>
    rw [hrespond] at h
    cases h

theorem respond_of_ask_error {s : σ} {r : Request} {cause : SurfaceFault} (h : ask s r = .error cause) :
    (respond r).run s = .error cause (answered s r) := by
  unfold ask Attempt.result at h
  unfold answered Attempt.left
  cases hrespond : (respond r).run s with
  | ok reply next =>
    rw [hrespond] at h
    cases h
  | error cause' reached =>
    rw [hrespond] at h
    cases h
    rfl

end Surface

/-- The surface of a machine without a host: it answers nothing. -/
inductive Detached
  | mk
deriving DecidableEq, Repr

instance : Surface Detached where
  respond _ := throw .detached

end Chip8
