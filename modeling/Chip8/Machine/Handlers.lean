import Chip8.Alu
import Chip8.Machine.Routine
import Chip8.Opcode

/-!
# The instructions at work

Each instruction has a handler, a routine that works with the operands of its word
(`Opcode.handler`, the dispatch table). A handler answers whether it has set the program counter itself.
If not, the step moves it to the next instruction, so a skip adds two and a wait takes two away.

A handler that can fail makes its check before it changes anything: a call looks for a free slot before
it jumps, a load or a drawing reads its block first, and a store checks its block before the first byte.

Arithmetic that sets a flag writes VF first and the result after it, so the result wins where both are
one register.
-/

namespace Chip8

/-- The three decimal digits of a byte, hundreds first. -/
def Byte.decimalDigits (b : Byte) : List Byte :=
  let d := Alu.bcd b.toInt
  [Byte.ofInt d.1, Byte.ofInt d.2.1, Byte.ofInt d.2.2]

/-- Moves the index register past a block, within sixteen bits. -/
def Core.advanceIndex (c : Core) (count : Nat) : Core := c.setIndex ((c.regs.i + count) % 65536)

namespace Machine.Routine

variable {σ : Type}

/-- Changes the core and lets the step move on. -/
def change (f : Core → Core) : Routine σ Bool := do
  update f
  return false

/-- Goes on at an address. -/
def goTo (address : Core → Int) : Routine σ Bool := do
  update fun c => c.jump (address c)
  return true

/-- Passes over the next instruction if a condition holds. -/
def skipIf (condition : Core → Bool) : Routine σ Bool := do
  if condition (← core) then update Core.next
  return false

/-- Puts a byte into the register `x`. -/
def load (x : Nibble) (value : Core → Byte) : Routine σ Bool := change fun c => c.set x (value c)

/-- Writes the flag of an operation to VF, then the result to a register. -/
def loadFlagged (x : Nibble) (operation : Core → Alu.Flagged) : Routine σ Bool := do
  let r := operation (← core)
  update fun c => c.set Registers.flagIndex (if r.flag then 1 else 0)
  change fun c => c.set x (Byte.ofInt r.result)

/-- Moves on to the next instruction, unless the program counter is set already. -/
def advance (p : Routine σ Bool) : Routine σ Unit := do
  let jumped ← p
  if !jumped then update Core.next

end Machine.Routine

open Machine.Routine in
/-- The handler of an instruction, with the operands of its word. -/
def Opcode.handler {σ : Type} [Surface σ] (op : Opcode) (w : Word) : Machine.Routine σ Bool :=
  let vx (c : Core) : Byte := c.regs.get w.x
  let vy (c : Core) : Byte := c.regs.get w.y
  match op with
  -- flow of control
  | .cls => do
    ask .clear
    return false
  | .ret => do
    let caller ← pop
    change fun c => c.jump caller.toNat
  | .jp => goTo fun _ => w.nnn
  | .call => do
    push
    goTo fun _ => w.nnn
  | .jpV0 => goTo fun c => w.nnn + (c.regs.get Registers.offsetIndex).toInt
  -- skips
  | .seByte => skipIf fun c => vx c == w.kk
  | .sneByte => skipIf fun c => vx c != w.kk
  | .seReg => skipIf fun c => vx c == vy c
  | .sneReg => skipIf fun c => vx c != vy c
  | .skp => do
    let held ← ask (.key (vx (← core)))
    skipIf fun _ => held
  | .sknp => do
    let held ← ask (.key (vx (← core)))
    skipIf fun _ => !held
  -- values in the word
  | .ldByte => load w.x fun _ => w.kk
  | .addByte => load w.x fun c => Byte.ofInt (Alu.addWrapping (vx c).toInt w.kk.toInt)
  | .ldI => change fun c => c.setIndex w.nnn
  | .rnd => do
    let drawn ← draw
    load w.x fun _ => drawn &&& w.kk
  -- arithmetic
  | .ldReg => load w.x vy
  | .or => load w.x fun c => vx c ||| vy c
  | .and => load w.x fun c => vx c &&& vy c
  | .xor => load w.x fun c => vx c ^^^ vy c
  | .addReg => loadFlagged w.x fun c => Alu.add8 (vx c).toInt (vy c).toInt
  | .sub => loadFlagged w.x fun c => Alu.sub8 (vx c).toInt (vy c).toInt
  | .shr => loadFlagged w.x fun c => Alu.shr8 (vx c).toInt
  | .subn => loadFlagged w.x fun c => Alu.sub8 (vy c).toInt (vx c).toInt
  | .shl => loadFlagged w.x fun c => Alu.shl8 (vx c).toInt
  -- the display
  | .drw => do
    let c ← core
    let rows ← readBlock w.n
    let hit ← ask (.draw (vx c) (vy c) rows)
    load Registers.flagIndex fun _ => if hit then 1 else 0
  -- timers, keys and blocks
  | .ldVxDt => load w.x fun c => c.timers.delay
  | .ldVxK => do
    match ← ask .anyKey with
    | some key => load w.x fun _ => Byte.ofInt key
    | none => change fun c => c.jump (c.regs.pc - 2)
  | .ldDtVx => change fun c => { c with timers := c.timers.setDelay (vx c).toInt }
  | .ldStVx => change fun c => { c with timers := c.timers.setSound (vx c).toInt }
  | .addIVx => change fun c => c.setIndex ((c.regs.i + (vx c).toInt) % 65536)
  | .ldFVx => change fun c => c.setIndex (Font.address (vx c).toInt)
  | .ldBVx => do
    writeBlock (vx (← core)).decimalDigits
    return false
  | .ldMemVx => do
    writeBlock ((← core).regs.upTo w.x)
    change fun c => c.advanceIndex (w.x + 1)
  | .ldVxMem => do
    let data ← readBlock (w.x + 1)
    update fun c => { c with regs := c.regs.load data }
    change fun c => c.advanceIndex (w.x + 1)

end Chip8
