import Chip8.Memory
import Chip8.Registers
import Chip8.Registers.Dump
import Chip8.Timers

/-!
# The core

All of the machine but its surface: registers, memory, timers, the step counter and the random
source.

A random source is a fixed stream of bytes and the number of bytes drawn from it so far.
-/

namespace Chip8

/-- A stream of bytes and the position in it. -/
structure RandomSource where
  stream : Nat → Byte
  drawn : Nat := 0

namespace RandomSource

/-- The source that goes round a list of bytes; all zeros if there are none. -/
def cycle (bytes : Array Byte) : RandomSource := { stream := fun k => bytes[k % bytes.size]?.getD 0 }

/-- The next byte, with the source moved on. -/
def next (r : RandomSource) : Byte × RandomSource := (r.stream r.drawn, { r with drawn := r.drawn + 1 })

end RandomSource

/-- The state of the machine without its surface. -/
structure Core where
  regs : Registers := {}
  memory : Memory
  timers : Timers := {}
  steps : Nat := 0
  random : RandomSource

namespace Core

/-- The power-on state: the font is loaded and all else is zero. -/
def powerOn (random : RandomSource) : Core := { memory := Memory.zeroed.loadFont, random := random }

/-- Back to power-on, but memory and the random source go on as they are. The font is written again. -/
def reset (c : Core) : Core := { memory := c.memory.loadFont, random := c.random }

/-- Loads a program image and sets the registers to power-on; timers and steps go on. -/
def load (c : Core) (image : List Byte) : Except ProgramTooLarge Core :=
  (c.memory.loadProgram image).map fun memory => { c with memory := memory, regs := {} }

/-- The start of a step: the timers count down and the step is counted. -/
def tick (c : Core) : Core := { c with timers := c.timers.tick, steps := c.steps + 1 }

/-- The word at the program counter. -/
def fetch (c : Core) : Except AccessFault Word := c.memory.read16 c.regs.pc

/-- Goes on at an address. -/
def jump (c : Core) (pc : Int) : Core := { c with regs := c.regs.jump pc }

/-- Goes on at the next instruction. -/
def next (c : Core) : Core := c.jump (c.regs.pc + 2)

/-- Goes on at the next instruction, or at the one after it. -/
def skipIf (c : Core) (condition : Bool) : Core := c.jump (c.regs.pc + if condition then 4 else 2)

/-- Puts a byte into a register. -/
def set (c : Core) (x : Nibble) (b : Byte) : Core := { c with regs := c.regs.set x b }

/-- Puts the index register. -/
def setIndex (c : Core) (i : Int) : Core := { c with regs := c.regs.setIndex i }

/-- The line that a trace shows for this state. -/
def traceLine (c : Core) : TraceLine := ⟨c.regs.dump, c.timers⟩

end Core

end Chip8
