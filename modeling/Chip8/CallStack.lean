import Chip8.Word

/-!
# The call stack

Sixteen slots and a depth. A slot at or above the depth is dead: it keeps the address that was popped
from it until a later push writes over it. What counts is `frames`, the slots below the depth.
-/

namespace Chip8

/-- Sixteen return addresses, of which the first `depth` are live. -/
structure CallStack where
  slots : Vector Word 16
  depth : Fin 17
deriving DecidableEq

namespace CallStack

/-- No live slot, and every dead slot zero. -/
def empty : CallStack := ⟨Vector.replicate 16 0, 0⟩

/-- Stores an address in the first dead slot; the slot stays dead. -/
def store (s : CallStack) (address : Word) : CallStack :=
  { s with slots := s.slots.setIfInBounds s.depth.val address }

/-- One slot more is live. -/
def deeper (s : CallStack) : CallStack := { s with depth := ⟨min (s.depth.val + 1) 16, by omega⟩ }

/-- One slot less is live. -/
def shallower (s : CallStack) : CallStack := { s with depth := ⟨s.depth.val - 1, by omega⟩ }

/-- The address in the first dead slot. -/
def firstDead (s : CallStack) : Word := s.slots[s.depth.val]?.getD 0

/-- The live return addresses, oldest first. -/
def frames (s : CallStack) : List Word := s.slots.toList.take s.depth

theorem length_frames (s : CallStack) : s.frames.length = s.depth := by
  have hd := s.depth.isLt
  unfold frames
  rw [List.length_take, Vector.length_toList]
  omega

end CallStack

end Chip8
