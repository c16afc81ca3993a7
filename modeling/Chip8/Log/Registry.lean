import Chip8.Files
import Chip8.Log

/-!
# Loggers

A logger has a name, a level of its own and handlers: a console, and a file if one was asked for. A
record reaches a handler if it passes the level of the logger and then the level of the handler.

The first request for a name configures its logger; later requests for the name get it as it is
(`Registry.setup`). Without a file nobody reads the light records, so the logger's level is then that
of its console.
-/

namespace Chip8

/-- How a logger is configured: its own level and those of its handlers. -/
structure Logger where
  name : String
  level : Int
  console : Int
  file : Option Int
deriving DecidableEq, Repr

namespace Logger

/-- The levels of the handlers, the console first. -/
def handlers (l : Logger) : List Int := l.console :: l.file.toList

/-- The records that reach the console. -/
def toConsole (l : Logger) (rs : List Record) : List Record :=
  (rs.filter (Record.passes l.level)).filter (Record.passes l.console)

/-- The records that reach the file; none if the logger has no file. -/
def toFile? (l : Logger) (rs : List Record) : Option (List Record) :=
  l.file.map fun level => (rs.filter (Record.passes l.level)).filter (Record.passes level)

end Logger

/-- What is asked of a logger; the defaults are those of the emulator's own logger. -/
structure LoggerRequest where
  name : String := "chip8_emulator"
  level : Int := 10
  console : Int := 30
  file : Option String := none
deriving DecidableEq, Repr

/-- The name under which a logger is kept: the empty name is that of the root logger. -/
def LoggerRequest.keptName (q : LoggerRequest) : String := if q.name = "" then "root" else q.name

/-- The logger that a request configures. -/
def LoggerRequest.logger (q : LoggerRequest) : Logger :=
  match q.file with
  | none => ⟨q.keptName, q.console, q.console, none⟩
  | some _ => ⟨q.keptName, q.level, q.console, some q.level⟩

/-- The loggers configured so far, and the files. -/
structure Registry where
  loggers : List Logger := []
  files : FileTree := {}

namespace Registry

/-- The logger with a name, if it is configured. -/
def find? (r : Registry) (name : String) : Option Logger := r.loggers.find? fun l => l.name == name

/-- Keeps a logger. -/
def keep (r : Registry) (l : Logger) : Registry := { r with loggers := r.loggers ++ [l] }

/-- Answers a request. A file that cannot be created leaves a logger with a console only. -/
def setup (r : Registry) (q : LoggerRequest) : Registry × Except FileError Logger :=
  match r.find? q.keptName with
  | some logger => (r, .ok logger)
  | none =>
    match q.file with
    | none => (r.keep q.logger, .ok q.logger)
    | some path =>
      match r.files.create (Files.Path.ofText path) with
      | .ok (files, _) => ({ r with files := files }.keep q.logger, .ok q.logger)
      | .error error => (r.keep { q.logger with file := none }, .error error)

/-- Answers several requests, one after the other. -/
def setupAll (r : Registry) : List LoggerRequest → Registry × List (Except FileError Logger)
  | [] => (r, [])
  | q :: qs =>
    let first := r.setup q
    let others := first.1.setupAll qs
    (others.1, first.2 :: others.2)

end Registry

/-- A place is below the current directory. -/
def FileTree.isBelow (place : List String) : Bool :=
  place.head? != some "/" && place.head? != some ".."

/-- The paths of the log files below the current directory, sorted. -/
def FileTree.logFiles (t : FileTree) : List String :=
  let places := (t.files.map Prod.fst).filter isBelow
  ((places.map fun place => "/".intercalate place).filter (·.endsWith ".log")).mergeSort (· ≤ ·)

end Chip8
