import Chip8.Log
import Chip8.Machine.Handlers

/-!
# The machine

One step counts the timers down, counts itself, fetches the word at PC and executes it. A word that is
no instruction is reported and skipped. A step knows the threshold of the log that it reports to, and
spares the trace of its instruction if that would not pass.

* A step that faults ends where it is. That it has then only counted is a theorem on the handlers, not a
  rule of the machine.
* A run makes steps until its limit or until the program faults. The fault is reported with the
  registers as they are then. A surface that cannot answer ends the run without a report.

## Termination

A run recurses on the number of steps left.
-/

namespace Chip8

namespace Machine

variable {σ : Type}

/-- What a step leaves: the machine, what it reported, and the fault that ended it. -/
structure Outcome (σ : Type) where
  machine : Machine σ
  records : List Record
  fault? : Option Fault

/-! ## Steps -/

namespace Routine

/-- What a routine leaves of a machine, also when it ends on a fault. -/
def outcome (p : Routine σ Unit) (m : Machine σ) : Outcome σ :=
  match p.run ⟨m, []⟩ with
  | .ok _ s => ⟨s.machine, s.records, none⟩
  | .error fault s => ⟨s.machine, s.records, some fault⟩

/-- Traces an instruction, if its trace passes a threshold, and executes it. -/
def perform [Surface σ] (threshold : Int) (op : Opcode) (w : Word) : Routine σ Unit := do
  if threshold ≤ Level.debug.rank then report (.executed (← core).regs.pc w op)
  advance (op.handler w)

/-- Executes a word, or reports it and goes on behind it. -/
def execute [Surface σ] (threshold : Int) (w : Word) : Routine σ Unit :=
  match Opcode.ofWord? w with
  | none => do
    report (.unsupported (← core).regs.pc w)
    update Core.next
  | some op => perform threshold op w

/-- One step of a machine whose log has a threshold. -/
def step [Surface σ] (threshold : Int) : Routine σ Unit := do
  update Core.tick
  execute threshold (← fetch)

end Routine

/-- Executes an instruction whose step has begun, on a surface, with its trace. -/
def perform [Surface σ] (op : Opcode) (w : Word) (c : Core) (s : σ) : Outcome σ :=
  (Routine.perform Level.debug.rank op w).outcome ⟨c, s⟩

/-- One step that reports to a log with a threshold. -/
def stepAt [Surface σ] (m : Machine σ) (threshold : Int) : Outcome σ := (Routine.step threshold).outcome m

/-- One step with its trace. -/
def step [Surface σ] (m : Machine σ) : Outcome σ := m.stepAt Level.debug.rank

/-! ## Runs -/

/-- What a run leaves: the machine, the log, and why it ended. -/
structure RunOutcome (σ : Type) where
  machine : Machine σ
  log : Log
  ending : Except SurfaceFault StopReason

/-- Makes a number of steps, or fewer if one faults. -/
def runFor [Surface σ] : Nat → Machine σ → Log → RunOutcome σ
  | 0, m, log => ⟨m, log, .ok .timeout⟩
  | n + 1, m, log =>
    let out := m.stepAt log.threshold
    let log := log.addAll out.records
    match out.fault? with
    | none => runFor n out.machine log
    | some (.halt cause) =>
      ⟨out.machine, log.add (.halted cause out.machine.core.regs.dump), .ok cause.reason⟩
    | some (.surface cause) => ⟨out.machine, log, .error cause⟩

/-- Makes at most as many steps as the limit says; none if it is negative. -/
def run [Surface σ] (m : Machine σ) (limit : Int) (log : Log) : RunOutcome σ :=
  runFor limit.toNat m log

/-- The limit of a run that sets none. -/
def defaultLimit : Int := 1000000

/-! ## Host operations -/

/-- Back to power-on; memory, surface and random source stay. -/
def reset (m : Machine σ) : Machine σ := { m with core := m.core.reset }

/-- Loads a program image, and reports it. -/
def load (m : Machine σ) (image : List Byte) : Except ProgramTooLarge (Machine σ × Record) :=
  (m.core.load image).map fun core => ({ m with core := core }, .loaded image.length)

/-- A machine at power-on, with a program image loaded unless it is empty. -/
def create (surface : σ) (random : RandomSource) (image : List Byte) :
    Except ProgramTooLarge (Machine σ × List Record) :=
  let m : Machine σ := ⟨Core.powerOn random, surface⟩
  if image = [] then .ok (m, []) else (m.load image).map fun loaded => (loaded.1, [loaded.2])

end Machine

end Chip8
