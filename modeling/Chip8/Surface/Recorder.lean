import Chip8.Surface

/-!
# A surface that records

It draws nothing. It keeps the requests it got, in order, and answers them from two settings: the one
key that is held, if any, and the collision answer for every drawing.
-/

namespace Chip8

/-- The settings and the requests so far. -/
structure Recorder where
  held : Option Int
  collide : Bool
  requests : Array Request := #[]

namespace Recorder

/-- The answer to a request. -/
def reply (s : Recorder) : (r : Request) → r.Reply
  | .clear => ()
  | .draw _ _ _ => s.collide
  | .key index => decide (s.held = some index.toInt)
  | .anyKey => s.held

/-- Keeps a request. -/
def keep (s : Recorder) (r : Request) : Recorder := { s with requests := s.requests.push r }

instance : Surface Recorder where
  respond r := do
    modify (keep · r)
    return (← get).reply r

end Recorder

end Chip8
