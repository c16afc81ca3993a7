import Chip8.Proofs.Commands
import Chip8.Proofs.LogThreshold

/-!
# The logging of a command

A command has one course of records, all those of loading and running its machine
(`Invocation.trace`). Its logger filters them twice, by its own level and by that of each handler. The own
level is chosen so that it takes away nothing that a handler would show, so the console shows the same
with a log file and without one (`LoggerRequest.toConsole_logger`).

* `Invocation.exists_execute_eq` — the log of a command has no influence on it
* `CommandLine.logging_never_changes_run` — the four ways to log a command
-/

namespace Chip8

/-! ## Loggers -/

theorem Record.filter_passes_debug (rs : List Record) : rs.filter (passes Level.debug.rank) = rs :=
  List.filter_eq_self.mpr fun r _ => r.passes_debug

namespace LoggerRequest

variable {q : LoggerRequest}

/-- Whether there is a file or not, the console gets what is as heavy as it asks for. -/
theorem toConsole_logger (h : q.level = Level.debug.rank) (rs : List Record) :
    q.logger.toConsole rs = rs.filter (Record.passes q.console) := by
  unfold Logger.toConsole logger
  cases q.file with
  | none => simp [List.filter_filter]
  | some path => simp only [h, Record.filter_passes_debug]

theorem toFile?_logger (h : q.level = Level.debug.rank) (rs : List Record) :
    q.logger.toFile? rs = q.file.map fun _ => rs := by
  unfold Logger.toFile? logger
  cases q.file with
  | none => rfl
  | some path => simp only [h, Record.filter_passes_debug, Option.map_some]

end LoggerRequest

namespace CommandLine

variable {files : FileTree} {stamp : String} {i : Invocation} {random : RandomSource}
  {image : List Byte}

/-! ## The course of a command -/

/-- All records of loading an image and running it, also those that are only for debugging. -/
def Invocation.trace (i : Invocation) (random : RandomSource) (image : List Byte) : List Record :=
  match i.start random (.ok image) with
  | .error _ => []
  | .ok (m, created) =>
    if Parameter.steps ∈ i.settings.blank then created
    else
      (m.run i.settings.steps
        (({ threshold := Level.debug.rank } : Log).addAll created)).log.records.toList

/-- A logger filters by its own level first, so it may get the records that have passed it. -/
theorem Report.logged_filter (r : Report) (logger : Logger) (rs : List Record) :
    r.logged logger (rs.filter (Record.passes logger.level)) = r.logged logger rs := by
  unfold Report.logged Logger.toConsole Logger.toFile?
  simp [List.filter_filter]

/-- Whatever its logger, a command leaves the same report, with what the logger makes of its course. -/
theorem Invocation.exists_execute_eq (i : Invocation) (random : RandomSource) (image : List Byte) :
    ∃ r : Report, ∀ logger taken,
      i.execute logger taken random (.ok image) = r.logged logger (taken ++ i.trace random image) := by
  unfold execute trace
  rcases i.start random (.ok image) with report | ⟨m, created⟩
  · exact ⟨report, fun logger taken => by rw [List.append_nil]⟩
  by_cases hblank : Parameter.steps ∈ i.settings.blank
  · simp only [if_pos hblank]
    exact ⟨_, fun _ _ => rfl⟩
  · obtain ⟨next, records, ending, hrun⟩ := Machine.exists_runFor_eq i.settings.steps.toNat m
    refine ⟨runReport i.settings.screen ⟨next, { threshold := 0 }, ending⟩, fun logger taken => ?_⟩
    simp only [if_neg hblank, Machine.run, hrun, ← Log.addAll_append, Log.toList_addAll,
      Record.filter_passes_debug, List.nil_append, List.append_assoc]
    exact Report.logged_filter _ _ _

/-! ## Ways to log -/

/-- The invocation with other settings of its log. -/
def Invocation.withLogging (i : Invocation) (verbose : Bool) (logDir : Option String) : Invocation :=
  { i with settings := { i.settings with verbose := verbose, logDir := logDir } }

theorem Invocation.execute_withLogging (i : Invocation) (verbose : Bool) (logDir : Option String) :
    (i.withLogging verbose logDir).execute = i.execute := by
  unfold execute start
  rfl

/-- The console and the log file of a report show a course of records. -/
structure Report.Shows (r : Report) (course : List Record) (verbose : Bool) (path? : Option String) :
    Prop where
  console : r.console = (if verbose then path?.toList.map Record.logFile else []) ++
    course.filter (Record.passes (if verbose then Level.info.rank else Level.warning.rank))
  logFile : r.logFile = path?.map fun path => .logFile path :: course
  sublist : ∀ records, r.logFile = some records → r.console.Sublist records

theorem Report.shows_logged (r : Report) (course : List Record) (s : Settings) (stamp : String) :
    (r.logged (s.loggerRequest stamp).logger (announced (s.loggerRequest stamp) ++ course)).Shows
      course s.verbose (s.logPath? stamp) := by
  have hconsole := LoggerRequest.toConsole_logger (q := s.loggerRequest stamp) rfl
    (announced (s.loggerRequest stamp) ++ course)
  have hfile := LoggerRequest.toFile?_logger (q := s.loggerRequest stamp) rfl
    (announced (s.loggerRequest stamp) ++ course)
  constructor
  case console =>
    refine hconsole.trans ?_
    rw [List.filter_append]
    unfold Settings.loggerRequest announced
    congr 1
    cases s.verbose <;> cases s.logPath? stamp <;> rfl
  case logFile =>
    refine hfile.trans ?_
    unfold Settings.loggerRequest announced
    cases s.logPath? stamp <;> rfl
  case sublist =>
    -- both are what a handler makes of one list
    intro records hrecords
    obtain ⟨_, -, rfl⟩ := Option.map_eq_some_iff.mp (hfile.symm.trans hrecords)
    show List.Sublist ((s.loggerRequest stamp).logger.toConsole _) _
    rw [hconsole]
    exact List.filter_sublist

theorem Settings.logPath?_eq_none_iff {s : Settings} :
    s.logPath? stamp = none ↔ s.logDir.getD "" = "" := by
  unfold logPath?
  cases s.logDir <;> simp

/-- **Logging never changes a run.** Let the files hold an image that fits. Command lines that ask for the
same invocation but for its log end alike, with the same output and the same complaints. What they show of
one course of records is up to the log: the console shows the warnings and all that is heavier, and on
demand what is as heavy as an announcement; a log file holds the whole course after its own announcement.
There is none unless a directory is named for it, and then the files stay as they are. -/
theorem logging_never_changes_run (i : Invocation) (files : FileTree) (stamp : String)
    (random : Option Int → RandomSource) {image : List Byte}
    (hholds : files.Holds (.ofText i.rom) image) (hfits : image.length ≤ 3584) :
    ∃ ending output complaints, ∀ args verbose logDir,
      Invocation.parse args = .ok (i.withLogging verbose logDir) →
      (i.withLogging verbose logDir).settings.LogOpens files stamp →
      let left := command args files stamp random
      let path? := (i.withLogging verbose logDir).settings.logPath? stamp
      left.2.ending = ending ∧ left.2.output = output ∧ left.2.complaints = complaints ∧
      left.2.Shows (i.trace (random i.settings.seed) image) verbose path? ∧
      (path? = none ↔ logDir.getD "" = "") ∧ (path? = none → left.1 = files) := by
  obtain ⟨r, hexecute⟩ := i.exists_execute_eq (random i.settings.seed) image
  refine ⟨r.ending, r.output, r.complaints, fun args verbose logDir hparse hlog => ?_⟩
  intro left path?
  let s := (i.withLogging verbose logDir).settings
  obtain ⟨opened, hextends, hquiet, hreport⟩ := Invocation.exists_report_eq hlog
  have hrom : opened.readRom (i.withLogging verbose logDir).rom = .ok image :=
    FileTree.readRom_of_fits (hholds.of_extends hextends) hfits
  have hleft : left = (opened, r.logged (s.loggerRequest stamp).logger
      (announced (s.loggerRequest stamp) ++ i.trace (random i.settings.seed) image)) := by
    show command args files stamp random = _
    unfold command
    rw [hparse]
    refine (hreport random).trans ?_
    rw [hrom, Invocation.execute_withLogging]
    exact congrArg (opened, ·) (hexecute _ _)
  rw [hleft]
  exact ⟨rfl, rfl, rfl, r.shows_logged _ s stamp, s.logPath?_eq_none_iff, hquiet⟩

/-- A program with a word that is no instruction, run with a verbose console and a log file, and with
neither. -/
theorem loud_and_quiet :
    let files := FileTree.single "rom.ch8" [0x6A, 0x05, 0x50, 0x01, 0x12, 0x04]
    let random := fun _ : Option Int => RandomSource.cycle #[]
    let loud := command ["-v", "--log-dir=logs", "rom.ch8", "--steps=3"] files "now" random
    let quiet := command ["rom.ch8", "--steps", "3"] files "now" random
    files.Holds (.ofText "rom.ch8") [0x6A, 0x05, 0x50, 0x01, 0x12, 0x04] ∧
    loud.2.ending = quiet.2.ending ∧ loud.2.output = quiet.2.output ∧
    loud.2.logFile = some [.logFile "logs/chip8_now.log", .loaded 6, .executed 0x200 0x6A05 .ldByte,
      .unsupported 0x202 0x5001, .executed 0x204 0x1204 .jp] ∧
    loud.2.console = [.logFile "logs/chip8_now.log", .loaded 6, .unsupported 0x202 0x5001] ∧
    quiet.2.console = [.unsupported 0x202 0x5001] ∧ quiet.2.logFile = none ∧ quiet.1 = files := by
  intro files random loud quiet
  have hholds : files.Holds (.ofText "rom.ch8") [0x6A, 0x05, 0x50, 0x01, 0x12, 0x04] :=
    FileTree.find_eq_file_iff.mp (by decide +kernel)
  have hpath : (Invocation.withLogging ⟨"rom.ch8", { steps := 3 }⟩ true
      (some "logs")).settings.logPath? "now" = some "logs/chip8_now.log" := by decide +kernel
  have hcourse : Invocation.trace ⟨"rom.ch8", { steps := 3 }⟩ (.cycle #[])
      [0x6A, 0x05, 0x50, 0x01, 0x12, 0x04] = [.loaded 6, .executed 0x200 0x6A05 .ldByte,
        .unsupported 0x202 0x5001, .executed 0x204 0x1204 .jp] := by decide +kernel
  obtain ⟨ending, output, complaints, hway⟩ := logging_never_changes_run
    ⟨"rom.ch8", { steps := 3 }⟩ files "now" random hholds (by decide)
  obtain ⟨hending, houtput, -, hshows, -, -⟩ := hway ["-v", "--log-dir=logs", "rom.ch8", "--steps=3"]
    true (some "logs") rfl fun path h => by
      rw [hpath] at h
      cases h
      exact ⟨_, rfl⟩
  obtain ⟨hending', houtput', -, hshows', -, hfiles⟩ := hway ["rom.ch8", "--steps", "3"] false none rfl
    (Settings.logOpens_of_none rfl files)
  have hconsole := hshows.console
  have hfile := hshows.logFile
  have hconsole' := hshows'.console
  rw [hcourse] at hconsole hfile hconsole'
  rw [hpath] at hconsole hfile
  exact ⟨hholds, hending.trans hending'.symm, houtput.trans houtput'.symm, hfile, hconsole, hconsole',
    hshows'.logFile, hfiles rfl⟩

end CommandLine

end Chip8
