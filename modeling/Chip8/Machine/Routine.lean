import Chip8.Attempt
import Chip8.Fault
import Chip8.Log
import Chip8.Machine.Core

/-!
# Work on a machine

A machine is a core attached to a surface. A routine is an attempt on a machine that also reports what it
does (`Course`): it changes the core, asks the surface, and reads and stores blocks. A fault ends it where
it is; no routine here takes anything back.
-/

namespace Chip8

/-- A core and the surface it draws on. -/
structure Machine (σ : Type) where
  core : Core
  surface : σ

namespace Machine

/-- A machine at work, with what it has reported so far. -/
structure Course (σ : Type) where
  machine : Machine σ
  records : List Record

/-- An attempt on a machine at work. -/
abbrev Routine (σ α : Type) := Attempt Fault (Course σ) α

namespace Course

variable {σ : Type}

/-- Puts the core. -/
def withCore (s : Course σ) (core : Core) : Course σ := { s with machine := { s.machine with core := core } }

/-- Puts the surface. -/
def withSurface (s : Course σ) (surface : σ) : Course σ :=
  { s with machine := { s.machine with surface := surface } }

/-- Appends to what was reported. -/
def reporting (s : Course σ) (records : List Record) : Course σ :=
  { s with records := s.records ++ records }

/-- Takes over what a store has made of memory, and reports what the font refused. -/
def withStored (s : Course σ) (stored : Memory.Stored) : Course σ :=
  (s.withCore { s.machine.core with memory := stored.memory }).reporting
    (stored.dropped.map Record.dropped)

end Course

namespace Routine

variable {σ : Type}

/-- The core by now. -/
def core : Routine σ Core := return (← get).machine.core

/-- Changes the core. -/
def update (f : Core → Core) : Routine σ Unit := modify fun s => s.withCore (f s.machine.core)

/-- Reports something. -/
def report (r : Record) : Routine σ Unit := modify fun s => s.reporting [r]

/-- Puts a request to the surface. -/
def ask [Surface σ] (r : Request) : Routine σ r.Reply :=
  Attempt.onPart (fun s => s.machine.surface) (fun surface s => s.withSurface surface) .surface
    (Surface.respond r)

/-- Reads the word at the program counter. -/
def fetch : Routine σ Word := do
  Attempt.ofExcept ((← core).fetch.mapError fun fault => .halt (.access fault))

/-- Reads the block at the index register. -/
def readBlock (count : Nat) : Routine σ (List Byte) := do
  let c ← core
  Attempt.ofExcept ((c.memory.readBlock c.regs.i count).mapError fun fault => .halt (.access fault))

/-- Does a store on memory, and reports what the font refused of it. -/
def store (p : Memory.Store) : Routine σ Unit :=
  Attempt.onPart (fun s => ⟨s.machine.core.memory, []⟩) (fun stored s => s.withStored stored)
    (fun fault => .halt (.access fault)) p

/-- Stores a block at the index register. -/
def writeBlock (data : List Byte) : Routine σ Unit := do
  store (.block (← core).regs.i data)

/-- Works on the registers. -/
def onRegs {α : Type} (p : Attempt StackFault Registers α) : Routine σ α :=
  Attempt.onPart (fun s => s.machine.core.regs)
    (fun regs s => s.withCore { s.machine.core with regs := regs }) (fun fault => .halt (.stack fault)) p

/-- Puts the program counter on the call stack. -/
def push : Routine σ Unit := do
  onRegs (Registers.pushing (← core).regs.pc)

/-- Takes an address off the call stack. -/
def pop : Routine σ Word := onRegs Registers.popping

/-- Draws a random byte. -/
def draw : Routine σ Byte := do
  let drawn := (← core).random.next
  update fun c => { c with random := drawn.2 }
  return drawn.1

end Routine

end Machine

end Chip8
