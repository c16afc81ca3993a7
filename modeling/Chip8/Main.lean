import Chip8.CommandLine.Report
import Std.Time.Format

/-!
# The program

The outer layer of the command line. What a command does among files and what it reports is decided by
`CommandLine.command`; here the system is asked for the time, for a seed and for what stands at the places
that the command line names, and gets what the command leaves: new directories and files, the lines of the
log, and the report.

A place that the system does not want to show breaks a command off before it has done anything. Double
dots are taken back by name, as everywhere in `FileTree`, so not through links.
-/

namespace Chip8.Program

/-! ## The system -/

/-- The number of an error, which may come negated. -/
def errorNumber (n : UInt32) : Nat := n.toInt32.toInt.natAbs

/-- The trouble with a number, or one with a text of its own. -/
def troubleNumbered (number : Nat) (text : String) : Files.Trouble :=
  let known : List Files.Trouble :=
    [.notFound, .alreadyExists, .notDirectory, .isDirectory, .nameTooLong]
  (known.find? fun trouble => trouble.number? = some number).getD (.other number text)

/-- What is wrong with a path when an operation on it failed. -/
def troubleOf (error : IO.Error) : Files.Trouble :=
  match error with
  | .noFileOrDirectory _ number text | .inappropriateType _ number text
  | .permissionDenied _ number text | .alreadyExists _ number text
  | .invalidArgument _ number text => troubleNumbered (errorNumber number) text
  | error => .other 5 (toString error)

/-- An operation on a path, whose errors say what is wrong with the path. -/
def attempt {α : Type} (path : Files.Path) (operation : IO α) : EIO FileError α :=
  IO.toEIO (fun error => ⟨troubleOf error, path⟩) operation

/-- The bits of a counter, spread over all of a word. -/
def spread (n : UInt64) : UInt64 :=
  let n := (n ^^^ (n >>> 30)) * 0xBF58476D1CE4E5B9
  let n := (n ^^^ (n >>> 27)) * 0x94D049BB133111EB
  n ^^^ (n >>> 31)

/-- The random bytes of a seed. -/
def bytesOf (seed : Int) : RandomSource :=
  let start := UInt64.ofNat (seed % 18446744073709551616).toNat
  { stream := fun k => (spread (start + UInt64.ofNat (k + 1) * 0x9E3779B97F4A7C15)).toUInt8 }

/-- A seed for a run that names none. -/
def newSeed : IO Int := do
  let bytes ← IO.getRandomBytes 8
  return bytes.toList.foldl (fun n b => 256 * n + b.toNat) 0

/-! ## Looking -/

/-- The path of a place. -/
def pathOf (place : List String) : Files.Path :=
  match place with
  | "/" :: names => ⟨"/", names⟩
  | names => ⟨"", names⟩

/-- Adds what stands at a place on the way of a path. Only in a directory a single dot leads anywhere. -/
def look (named : Files.Path) (files : FileTree) (place : List String) : EIO FileError FileTree := do
  let path := pathOf place
  match ← (IO.FS.realPath (path.text ++ "/.")).toBaseIO with
  | .ok _ => return { files with directories := files.directories ++ [place] }
  | .error _ =>
    match ← (attempt named (IO.FS.readBinFile path.text)).toBaseIO with
    | .ok data => return { files with files := files.files ++ [(place, data.toList)] }
    | .error error =>
      if error.trouble ∈ [.notFound, .notDirectory, .nameTooLong] then return files else throw error

/-- The places that the walk of a path meets, in order. -/
def placesOn (here : List String) : List String → List (List String)
  | [] => []
  | name :: rest =>
    let place := FileTree.placeOf here name
    place :: placesOn place rest

/-- The paths that a command line names: the log file, which is opened first, and the image. -/
def pathsNamed (args : List String) (stamp : String) : List Files.Path :=
  match CommandLine.Invocation.parse args with
  | .error _ => []
  | .ok i =>
    let paths := (i.settings.logPath? stamp).toList ++ [i.rom]
    (paths.filter fun path => '\x00' ∉ path.toList).map Files.Path.ofText

/-- What stands at the places that a command line names, as far as anything does. -/
def survey (args : List String) (stamp : String) : EIO FileError FileTree :=
  (pathsNamed args stamp).foldlM
    (fun files p => (placesOn (FileTree.startOf p.root) p.names).foldlM (look p) files) {}

/-! ## Leaving -/

/-- Creates what a command has added to the files. -/
def create (before left : FileTree) : EIO FileError Unit := do
  for place in left.directories.filter (· ∉ before.directories) do
    attempt (pathOf place) (IO.FS.createDir (pathOf place).text)
  for (place, _) in left.files.filter (· ∉ before.files) do
    attempt (pathOf place) (discard (IO.FS.Handle.mk (pathOf place).text .append))

/-- Appends lines to a file. -/
def append (path : Files.Path) (lines : List String) : EIO FileError Unit :=
  attempt path do
    let file ← IO.FS.Handle.mk path.text .append
    for line in lines do
      file.putStrLn line

/-- Appends the records of a report to the log file, if the command line names one. -/
def writeLog (args : List String) (stamp time : String) (r : CommandLine.Report) : EIO FileError Unit :=
  match CommandLine.Invocation.parse args, r.logFile with
  | .ok i, some records =>
    match i.settings.logPath? stamp with
    | some path => append (FileTree.directPath (.ofText path)) (records.map (Record.fileLine time))
    | none => return
  | _, _ => return

/-- Shows a report on the console. -/
def present (r : CommandLine.Report) : IO UInt32 := do
  for record in r.console do
    IO.eprintln record.consoleLine
  for line in r.complaints do
    IO.eprintln line
  if let .broken cause := r.ending then
    IO.eprintln cause.message
  for line in r.output do
    IO.println line
  return UInt32.ofNat r.ending.exitStatus

/-! ## Commands -/

/-- The report of a command that the system broke off. An image that is not shown cannot be read. -/
def brokenOff (args : List String) (error : FileError) : CommandLine.Report :=
  let broken := (CommandLine.Breakdown.file error).report
  match CommandLine.Invocation.parse args with
  | .ok i => if error.path = .ofText i.rom then CommandLine.unread i.rom (.file error) else broken
  | .error _ => broken

/-- Does what a command line asks for, and gives its report. -/
def perform (args : List String) (stamp time : String) (fresh : Int) :
    EIO FileError CommandLine.Report := do
  let before ← survey args stamp
  let (left, report) := CommandLine.command args before stamp fun seed => bytesOf (seed.getD fresh)
  create before left
  writeLog args stamp time report
  return report

end Chip8.Program

open Chip8.Program in
/-- The program. -/
def main (args : List String) : IO UInt32 := do
  let now ← Std.Time.PlainDateTime.now
  let stamp := now.format "uuuuMMdd_HHmmss"
  let time := now.format "uuuu-MM-dd HH:mm:ss"
  match ← (perform args stamp time (← newSeed)).toBaseIO with
  | .ok report => present report
  | .error error => present (brokenOff args error)
