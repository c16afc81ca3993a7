import Chip8.Machine.Session
import Chip8.Main
import Chip8.Opcode.Pattern
import Chip8.Proofs.Arithmetic
import Chip8.Proofs.Bounds
import Chip8.Proofs.CallReturn
import Chip8.Proofs.CommandLogs
import Chip8.Proofs.Commands
import Chip8.Proofs.Countdown
import Chip8.Proofs.DeadState
import Chip8.Proofs.DigitPrinting
import Chip8.Proofs.Dispatch
import Chip8.Proofs.DrawOrder
import Chip8.Proofs.DumpLines
import Chip8.Proofs.Effects
import Chip8.Proofs.Exchanges
import Chip8.Proofs.Faults
import Chip8.Proofs.Glyphs
import Chip8.Proofs.IntegerArithmetic
import Chip8.Proofs.KeyLiterals
import Chip8.Proofs.KeyWait
import Chip8.Proofs.LastWrites
import Chip8.Proofs.Loading
import Chip8.Proofs.LogThreshold
import Chip8.Proofs.LoggerSetup
import Chip8.Proofs.ProgramCounter
import Chip8.Proofs.Reads
import Chip8.Proofs.Redraw
import Chip8.Proofs.Resets
import Chip8.Proofs.Retries
import Chip8.Proofs.Runs
import Chip8.Proofs.SavedRegisters
import Chip8.Proofs.ScreenViews
import Chip8.Proofs.StraightLine
import Chip8.Proofs.Trace
