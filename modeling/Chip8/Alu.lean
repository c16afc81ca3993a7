/-!
# Arithmetic

The eight-bit operations, defined on all integers: a result is reduced modulo 256, a flag is read
from the operands before they are reduced. Division and remainder round to the floor, so a right
shift of a negative number is its half rounded down.
-/

namespace Chip8.Alu

/-- The result of an operation with the flag that goes to register VF. -/
structure Flagged where
  result : Int
  flag : Bool
deriving DecidableEq, Repr

/-- Addition; the flag is the carry. -/
def add8 (a b : Int) : Flagged := ⟨(a + b) % 256, decide (255 < a + b)⟩

/-- Subtraction; the flag says that nothing was borrowed. -/
def sub8 (a b : Int) : Flagged := ⟨(a - b) % 256, decide (b ≤ a)⟩

/-- One place to the right; the flag is the bit shifted out. -/
def shr8 (a : Int) : Flagged := ⟨a / 2, decide (a % 2 = 1)⟩

/-- One place to the left; the flag is the bit shifted out of the low byte. -/
def shl8 (a : Int) : Flagged := ⟨2 * a % 256, decide (a / 128 % 2 = 1)⟩

/-- Addition that leaves no flag. -/
def addWrapping (a b : Int) : Int := (a + b) % 256

/-- The hundreds, tens and units of a number; the hundreds are not reduced. -/
def bcd (v : Int) : Int × Int × Int := (v / 100, v / 10 % 10, v % 10)

/-- The carry and the wrapped sum make up the sum of two bytes. -/
theorem add8_result (a b : Int) : (add8 a b).result = addWrapping a b := rfl

/-- A shift to the right halves, and the flag is the remainder. -/
theorem shr8_eq (a : Int) : a = 2 * (shr8 a).result + (shr8 a).flag.toInt := by
  unfold shr8
  rcases Int.emod_two_eq a with h | h <;> simp [h, Bool.toInt] <;> omega

/-- The three digits make up the number. -/
theorem bcd_eq (v : Int) : 100 * (bcd v).1 + 10 * (bcd v).2.1 + (bcd v).2.2 = v := by
  unfold bcd
  simp only
  omega

end Chip8.Alu
