import Chip8.Memory
import Chip8.Registers
import Chip8.Surface

/-!
# Faults

What ends a step early. A stack fault or an access fault halts the program (`Halt`); a surface that
cannot answer is the host's fault and not the program's.
-/

namespace Chip8

/-- A fault of the program. -/
inductive Halt
  | stack (fault : StackFault)
  | access (fault : AccessFault)
deriving DecidableEq, Repr

/-- The text of a program fault. -/
def Halt.message : Halt → String
  | .stack fault => fault.message
  | .access fault => fault.message

/-- Anything that ends a step early. -/
inductive Fault
  | halt (cause : Halt)
  | surface (cause : SurfaceFault)
deriving DecidableEq, Repr

/-- Why a run ended: its steps were used up, or the program faulted. -/
inductive StopReason
  | timeout
  | stackFault
  | memoryFault
deriving DecidableEq, Repr

/-- The name of a reason in reports. -/
def StopReason.name : StopReason → String
  | .timeout => "TIMEOUT"
  | .stackFault => "STACK_FAULT"
  | .memoryFault => "MEMORY_FAULT"

/-- The reason that a program fault gives. -/
def Halt.reason : Halt → StopReason
  | .stack _ => .stackFault
  | .access _ => .memoryFault

end Chip8
