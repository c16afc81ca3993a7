import Chip8.Fault
import Chip8.Opcode
import Chip8.Registers.Dump

/-!
# The log

The machine reports what it does as records. A record is a cause, not a text: its level, its logger
and its message are functions of the cause. A log (`Log`) keeps the records at or above a threshold,
in the order in which they were added.
-/

namespace Chip8

/-! ## Unsupported words -/

/-- A word that is no instruction, with the address it was fetched from if that is known. -/
structure UnsupportedWord where
  word : Word
  pc : Option Int
deriving DecidableEq, Repr

/-- The text of an unsupported word. -/
def UnsupportedWord.message (u : UnsupportedWord) : String :=
  "Unsupported opcode $" ++ Text.Hex.padded 4 u.word.toNat ++
    match u.pc with
    | some pc => " at $" ++ Text.Hex.padded 3 pc
    | none => ""

/-- The instruction of a word, or the word itself as an error. -/
def Opcode.lookup (w : Word) (pc : Option Int) : Except UnsupportedWord Opcode :=
  match ofWord? w with
  | some op => .ok op
  | none => .error ⟨w, pc⟩

/-! ## Levels -/

/-- The weight of a record, from light to heavy. -/
inductive Level
  | debug
  | info
  | warning
  | error
  | critical
deriving DecidableEq, Repr

/-- Levels as numbers, so that any integer can be a threshold. -/
def Level.rank : Level → Int
  | .debug => 10
  | .info => 20
  | .warning => 30
  | .error => 40
  | .critical => 50

/-- The name of a level. -/
def Level.name : Level → String
  | .debug => "DEBUG"
  | .info => "INFO"
  | .warning => "WARNING"
  | .error => "ERROR"
  | .critical => "CRITICAL"

/-- The name of a level, filled up to seven places. -/
def Level.column (l : Level) : String :=
  l.name ++ String.ofList (List.replicate (7 - l.name.length) ' ')

/-! ## Records -/

/-- What is reported. -/
inductive Record
  | logFile (path : String)
  | loaded (size : Nat)
  | executed (pc : Int) (word : Word) (op : Opcode)
  | unsupported (pc : Int) (word : Word)
  | dropped (write : DroppedWrite)
  | halted (cause : Halt) (dump : Dump)
deriving DecidableEq

namespace Record

/-- How heavy a record is: the trace of instructions and of dropped writes is for debugging, an
unsupported word is a warning, a fault is an error. -/
def level : Record → Level
  | logFile _ => .info
  | loaded _ => .info
  | executed _ _ _ => .debug
  | unsupported _ _ => .warning
  | dropped _ => .debug
  | halted _ _ => .error

/-- The name of the logger that a record goes through. -/
def logger : Record → String
  | logFile _ => "chip8_emulator"
  | dropped _ => "chip8_emulator.mem.memory"
  | _ => "chip8_emulator.emu"

/-- The text of a record. -/
def message : Record → String
  | logFile path => "Log file: " ++ path
  | loaded size => "Loaded " ++ toString size ++ " byte program at $200"
  | executed pc word op =>
    "$" ++ Text.Hex.padded 3 pc ++ ": " ++ Text.Hex.padded 4 word.toNat ++ " " ++ op.mnemonic
  | unsupported pc word => UnsupportedWord.message ⟨word, some pc⟩ ++ ", skipping"
  | dropped write =>
    "Dropped write of $" ++ Text.Hex.padded 2 write.value.toInt ++ " to font table $"
      ++ Text.Hex.padded 3 write.address
  | halted cause dump => cause.message ++ " | " ++ dump.line

/-- The operation that a log file names as the origin of a record, with the line that reports it. Of a
halt there are two, for the two kinds of faults of a program. -/
def origin : Record → String
  | logFile _ => "setup_logging:68"
  | loaded _ => "load_program:105"
  | executed _ _ _ => "step:131"
  | unsupported _ _ => "step:126"
  | dropped _ => "write8:103"
  | halted (.stack _) _ => "run:146"
  | halted (.access _) _ => "run:149"

/-- The line of a record on the console. -/
def consoleLine (r : Record) : String := r.level.column ++ " " ++ r.message

/-- The line of a record in a log file, with the time at which it was written. -/
def fileLine (time : String) (r : Record) : String :=
  " | ".intercalate [time, r.level.column, r.logger, r.origin, r.message]

/-- The record is at or above a threshold. -/
def passes (threshold : Int) (r : Record) : Bool := decide (threshold ≤ r.level.rank)

end Record

/-! ## Collecting records -/

/-- The records that passed a threshold, oldest first. -/
structure Log where
  threshold : Int
  records : Array Record := #[]

namespace Log

/-- Keeps a record if it passes. -/
def add (log : Log) (r : Record) : Log :=
  if r.passes log.threshold then { log with records := log.records.push r } else log

/-- Keeps those of several records that pass. -/
def addAll (log : Log) (rs : List Record) : Log := rs.foldl add log

@[simp] theorem threshold_add (log : Log) (r : Record) : (log.add r).threshold = log.threshold := by
  unfold add
  split <;> rfl

@[simp] theorem threshold_addAll (rs : List Record) : ∀ log : Log,
    (log.addAll rs).threshold = log.threshold := by
  induction rs with
  | nil => exact fun _ => rfl
  | cons r rs ih => exact fun log => (ih (log.add r)).trans (threshold_add log r)

/-- Adding records appends those that pass. -/
theorem toList_addAll (rs : List Record) : ∀ log : Log,
    (log.addAll rs).records.toList = log.records.toList ++ rs.filter (Record.passes log.threshold) := by
  induction rs with
  | nil => simp [addAll]
  | cons r rs ih =>
    intro log
    have hstep := ih (log.add r)
    rw [threshold_add] at hstep
    refine hstep.trans ?_
    unfold add
    by_cases h : r.passes log.threshold <;> simp [h]

end Log

end Chip8
