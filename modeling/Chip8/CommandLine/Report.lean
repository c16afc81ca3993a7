import Chip8.CommandLine.Help
import Chip8.CommandLine.Invocation
import Chip8.FrameBuffer
import Chip8.Log.Registry
import Chip8.Machine
import Chip8.Rom

/-!
# Reports

What a command leaves to see (`Report`): how it ends, the lines of its output, its complaints, and the
records that its console and its log file got.

A command loads one image, runs it on a screen of 64 times 32 cells with some keys held, and tells why
the run ended. The status is zero if the run used up its steps, one if the program faulted or could
not be loaded, two if the command line was misused. A command that can do none of this breaks off
(`Breakdown`): it has told nothing but what is in the log by then.
-/

namespace Chip8.CommandLine

/-! ## Endings -/

/-- Why a command broke off: a path was of no use, a parameter was left blank, or the display could not
answer. -/
inductive Breakdown
  | file (error : FileError)
  | blank (p : Parameter)
  | surface (fault : SurfaceFault)
deriving DecidableEq, Repr

/-- The text of a breakdown. -/
def Breakdown.message : Breakdown → String
  | .file error => error.message
  | .blank p => "argument " ++ (Switch.parameter p).name ++ ": left blank"
  | .surface _ => "the display cannot answer"

/-- How a command ends. -/
inductive Ending
  | status (n : Nat)
  | broken (cause : Breakdown)
deriving DecidableEq, Repr

/-- The exit status of an ending. -/
def Ending.exitStatus : Ending → Nat
  | .status n => n
  | .broken _ => 1

/-- What a command leaves to see. -/
structure Report where
  ending : Ending
  output : List String := []
  complaints : List String := []
  console : List Record := []
  logFile : Option (List Record) := none
deriving DecidableEq

/-! ## Commands that run nothing -/

/-- The name and the number of this program. -/
def versionLine : String := "chip8run 0.1.0"

/-- The report of a command that runs nothing. A misuse is told after the usage. -/
def EarlyExit.report : EarlyExit → Report
  | .help => { ending := .status 0, output := Help.lines }
  | .version => { ending := .status 0, output := [versionLine] }
  | .misuse error =>
    { ending := .status 2, complaints := Help.usage ++ ["chip8run: error: " ++ error.message] }

/-! ## Logging -/

/-- The path of the log file, if there is a directory for it. -/
def Settings.logPath? (s : Settings) (stamp : String) : Option String :=
  match s.logDir with
  | none => none
  | some dir =>
    if dir = "" then none
    else some ((Files.Path.ofText dir).child ("chip8_" ++ stamp ++ ".log")).text

/-- The logger that the settings ask for. -/
def Settings.loggerRequest (s : Settings) (stamp : String) : LoggerRequest :=
  { console := if s.verbose then Level.info.rank else Level.warning.rank, file := s.logPath? stamp }

/-- The records of a logger's setup: a log file is announced. -/
def announced (q : LoggerRequest) : List Record := q.file.toList.map Record.logFile

/-- The report of a command that broke off. -/
def Breakdown.report (cause : Breakdown) : Report := { ending := .broken cause }

/-- A report with what a logger makes of the records. -/
def Report.logged (r : Report) (logger : Logger) (records : List Record) : Report :=
  { r with console := logger.toConsole records, logFile := logger.toFile? records }

/-! ## Runs -/

/-- The surface of a run. -/
abbrev Display := FrameBuffer 64 32

/-- A dark screen, with the keys of the settings held. -/
def Settings.display (s : Settings) : Display := { keys := Keypad.holding s.pressed }

/-- The lines of a finished run. -/
def runLines (screen : Bool) (m : Machine Display) (reason : StopReason) : List String :=
  let stopped := "Stopped: " ++ reason.name ++ " after " ++ toString m.core.steps ++ " steps"
  stopped :: m.core.regs.dump.line :: if screen then m.surface.screen.lines "#" "." else []

/-- The report of a finished run. -/
def runReport (screen : Bool) (out : Machine.RunOutcome Display) : Report :=
  match out.ending with
  | .ok reason =>
    { ending := .status (if reason = .timeout then 0 else 1),
      output := runLines screen out.machine reason }
  | .error fault => (Breakdown.surface fault).report

/-- The complaint about an image that could not be read. -/
def complaint (rom : String) : RomError → String
  | .file error =>
    if error.trouble = .notFound then "Error: File not found: " ++ rom
    else "Error reading " ++ rom ++ ": " ++ error.message
  | .tooLarge error => "Error: " ++ error.message

/-- The report of a run whose image could not be read. A path with a null character in it could not
even be asked for. -/
def unread (rom : String) (error : RomError) : Report :=
  match error with
  | .file ⟨.nullCharacter, path⟩ => (Breakdown.file ⟨.nullCharacter, path⟩).report
  | error => { ending := .status 1, complaints := [complaint rom error] }

/-- The parameter whose blank stops the preparation of a run: keys are held before the random source is
seeded. -/
def Settings.blankInput? (s : Settings) : Option Parameter :=
  [Parameter.press, Parameter.seed].find? fun p => p ∈ s.blank

/-- The machine of a run, with the records of its construction, or the report of a run that had none. -/
def Invocation.start (i : Invocation) (random : RandomSource)
    (image : Except RomError (List Byte)) : Except Report (Machine Display × List Record) :=
  match image with
  | .error error => .error (unread i.rom error)
  | .ok data =>
    match i.settings.blankInput? with
    | some p => .error (Breakdown.blank p).report
    | none =>
      (Machine.create i.settings.display random data).mapError fun error =>
        unread i.rom (.tooLarge error)

namespace Invocation

/-- Runs an image with a logger that has already taken some records. -/
def execute (i : Invocation) (logger : Logger) (taken : List Record) (random : RandomSource)
    (image : Except RomError (List Byte)) : Report :=
  match i.start random image with
  | .error report => report.logged logger taken
  | .ok (machine, created) =>
    if Parameter.steps ∈ i.settings.blank then
      (Breakdown.blank .steps).report.logged logger (taken ++ created)
    else
      let log := ({ threshold := logger.level } : Log).addAll (taken ++ created)
      let out := machine.run i.settings.steps log
      (runReport i.settings.screen out).logged logger out.log.records.toList

/-- Runs an image among files. The log file is created before the image is read. -/
def report (i : Invocation) (files : FileTree) (stamp : String) (random : Option Int → RandomSource) :
    FileTree × Report :=
  let request := i.settings.loggerRequest stamp
  match ({ files := files } : Registry).setup request with
  | (registry, .error error) => (registry.files, (Breakdown.file error).report)
  | (registry, .ok logger) =>
    (registry.files, i.execute logger (announced request) (random i.settings.seed)
      (registry.files.readRom i.rom))

end Invocation

/-- What a command line does among files: the files that it leaves, and its report. A log file is
named after the stamp of the command. -/
def command (args : List String) (files : FileTree) (stamp : String)
    (random : Option Int → RandomSource) : FileTree × Report :=
  match Invocation.parse args with
  | .error exit => (files, exit.report)
  | .ok i => i.report files stamp random

end Chip8.CommandLine
