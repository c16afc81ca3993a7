import Chip8.Keypad
import Chip8.Screen
import Chip8.Surface

/-!
# The frame buffer

A surface of its own: a screen of any size and a keypad. It draws what it is asked to, and answers
key requests from the keypad. A drawing that fails has changed nothing (`FrameBuffer.drawing_eq`).
-/

namespace Chip8

/-- A screen and a keypad; the defaults are dark and released. -/
structure FrameBuffer (width height : Nat) where
  screen : Screen width height := Screen.dark
  keys : Keypad := Keypad.released
deriving DecidableEq

namespace FrameBuffer

variable {width height : Nat}

/-- Turns every pixel off. -/
def clear (fb : FrameBuffer width height) : FrameBuffer width height :=
  { fb with screen := Screen.dark }

/-- Draws a sprite on the screen, pixel by pixel; the answer says whether it collided. -/
def drawing (x y : Int) (rows : List Int) : Attempt SurfaceFault (FrameBuffer width height) Bool :=
  Attempt.onPart screen (fun screen fb => { fb with screen := screen }) (fun _ => .noCells)
    (Screen.drawRows x y rows)

/-- A frame buffer with a sprite drawn, and whether it collided. -/
def draw (fb : FrameBuffer width height) (x y : Int) (rows : List Int) :
    Except SurfaceFault (Bool × FrameBuffer width height) := (drawing x y rows).result fb

/-- A drawing as a whole. -/
theorem drawing_eq (fb : FrameBuffer width height) (x y : Int) (rows : List Int) :
    (drawing x y rows).run fb =
      match fb.screen.draw? x y rows with
      | some drawn => .ok drawn.collided { fb with screen := drawn.screen }
      | none => .error .noCells fb := by
  unfold drawing
  rw [Attempt.run_onPart, Screen.drawRows_eq]
  cases fb.screen.draw? x y rows <;> rfl

theorem draw_eq (fb : FrameBuffer width height) (x y : Int) (rows : List Int) :
    fb.draw x y rows =
      match fb.screen.draw? x y rows with
      | some drawn => .ok (drawn.collided, { fb with screen := drawn.screen })
      | none => .error .noCells := by
  unfold draw Attempt.result
  rw [drawing_eq]
  cases fb.screen.draw? x y rows <;> rfl

/-- Holds a key down. -/
def press (fb : FrameBuffer width height) (k : Int) :
    Except KeyOutside (FrameBuffer width height) :=
  (fb.keys.press k).map fun keys => { fb with keys := keys }

/-- Lets a key go. -/
def release (fb : FrameBuffer width height) (k : Int) :
    Except KeyOutside (FrameBuffer width height) :=
  (fb.keys.release k).map fun keys => { fb with keys := keys }

instance : Surface (FrameBuffer width height) where
  respond
    | .clear => modify clear
    | .draw x y rows => drawing x.toInt y.toInt (rows.map Byte.toInt)
    | .key index => return (← get).keys.isHeld index.toInt
    | .anyKey => return (← get).keys.lowest?.map fun k => (k.val : Int)

end FrameBuffer

end Chip8
