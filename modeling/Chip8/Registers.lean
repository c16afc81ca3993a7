import Chip8.Attempt
import Chip8.CallStack
import Chip8.Text.Hex

/-!
# The register file

Sixteen byte registers V0 to VF, the index register I, the program counter PC and the call stack.
VF takes the flag of arithmetic and drawing. I and PC are integers: only some instructions reduce
them, and a jump or a skip may carry PC past the end of memory.

A push and a pop change the stack in two parts (`Registers.pushing`, `Registers.popping`), after a look at
the depth that may fail.
-/

namespace Chip8

/-- The registers; the defaults are the power-on state. -/
structure Registers where
  v : Vector Byte 16 := Vector.replicate 16 0
  i : Int := 0
  pc : Int := 0x200
  calls : CallStack := CallStack.empty
deriving DecidableEq

/-- A call with no free slot, or a return with no live one, at some PC. -/
inductive StackFault
  | overflow (pc : Int)
  | underflow (pc : Int)
deriving DecidableEq, Repr

/-- The text of a stack fault. -/
def StackFault.message : StackFault → String
  | .overflow pc =>
    "Stack overflow: call at $" ++ Text.Hex.padded 3 pc ++ " with 16 frames in use"
  | .underflow pc =>
    "Stack underflow: return at $" ++ Text.Hex.padded 3 pc ++ " with empty stack"

namespace Registers

/-- The register of a flag. -/
def flagIndex : Nibble := 0xF

/-- The register that a jump adds to its address. -/
def offsetIndex : Nibble := 0

/-- The value of a byte register. -/
def get (r : Registers) (x : Nibble) : Byte := r.v.get x

/-- Puts a byte into a register. -/
def set (r : Registers) (x : Nibble) (b : Byte) : Registers :=
  { r with v := r.v.set x b x.val_lt }

/-- Puts the program counter. -/
def jump (r : Registers) (pc : Int) : Registers := { r with pc := pc }

/-- Puts the index register. -/
def setIndex (r : Registers) (i : Int) : Registers := { r with i := i }

theorem get_mk (r : Registers) (x : Nat) (hx : x < 16) : r.get ⟨x, hx⟩ = r.v[x] := rfl

@[simp] theorem get_set (r : Registers) (x : Nibble) (b : Byte) (z : Nibble) :
    (r.set x b).get z = if z = x then b else r.get z := by
  rw [get_mk, get_mk, set]
  by_cases h : z = x
  · subst h
    simp
  · have hne : x.val ≠ z.val := fun he => h (Fin.ext he.symm)
    simp [h, Vector.getElem_set_ne _ _ hne]

/-- The registers from V0 up to and including `x`. -/
def upTo (r : Registers) (x : Nibble) : List Byte := r.v.toList.take (x + 1)

/-- Fills registers from V0 on with bytes; registers past the end of the bytes stay. -/
def load (r : Registers) (data : List Byte) : Registers :=
  { r with v := Vector.ofFn fun z => data[z.val]?.getD r.v[z] }

/-- Puts the low sixteen bits of an address on the call stack: into the first dead slot, which then is
live. -/
def pushing (address : Int) : Attempt StackFault Registers Unit := do
  let r ← getThe Registers
  if 16 ≤ r.calls.depth.val then throw (.overflow r.pc)
  modify fun r => { r with calls := r.calls.store (Word.ofInt address) }
  modify fun r => { r with calls := r.calls.deeper }

/-- Takes an address off the call stack: the last live slot is dead, and its address stays in it. -/
def popping : Attempt StackFault Registers Word := do
  let r ← getThe Registers
  if r.calls.depth.val = 0 then throw (.underflow r.pc)
  modify fun r => { r with calls := r.calls.shallower }
  return (← getThe Registers).calls.firstDead

/-- The registers after a push. -/
def push (r : Registers) (address : Int) : Except StackFault Registers :=
  ((pushing address).result r).map Prod.snd

/-- The address that is popped, with the registers after it. -/
def pop (r : Registers) : Except StackFault (Word × Registers) := popping.result r

end Registers

end Chip8
