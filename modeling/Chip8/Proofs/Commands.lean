import Chip8.CommandLine.Report
import Chip8.Proofs.Loading
import Chip8.Proofs.Runs
import Chip8.Proofs.ScreenViews

/-!
# What a command reports

A command opens its log, reads its image, creates a machine with the keys held and runs it. The first two
can fail, and then nothing runs (`Report.RanNothing`). A machine that was created answers all that its
program asks, so the run ends for a reason of the program, and the report tells this run
(`Report.TellsRun`).

* `Invocation.exists_report_eq` — the files first, and then what the image makes of them
* `Invocation.tellsRun_execute` — the report of a run
* `CommandLine.command_reports_run` — every command line that asks for a run
-/

namespace Chip8

theorem Keypad.isHeld_holding (keys : List Nibble) (key : Nibble) :
    (holding keys).isHeld key.val = true ↔ key ∈ keys := by
  unfold isHeld
  rw [key?_eq_some_iff.mpr rfl]
  exact held_holding keys key

/-- Only which keys are named counts. -/
theorem Keypad.holding_congr {keys keys' : List Nibble} (h : ∀ key, key ∈ keys ↔ key ∈ keys') :
    holding keys = holding keys' := by
  have hheld : (holding keys).held = (holding keys').held := by
    apply Vector.ext
    intro k hk
    have hkey := (held_holding keys ⟨k, hk⟩).trans
      ((h ⟨k, hk⟩).trans (held_holding keys' ⟨k, hk⟩).symm)
    exact Bool.eq_iff_iff.mpr hkey
  exact congrArg mk hheld

namespace CommandLine

variable {files : FileTree} {stamp : String} {i : Invocation} {logger : Logger} {taken : List Record}
  {random : RandomSource} {image : List Byte}

/-! ## Opening the log -/

/-- The log file can be created, if the settings ask for one. -/
def Settings.LogOpens (s : Settings) (files : FileTree) (stamp : String) : Prop :=
  ∀ path, s.logPath? stamp = some path → ∃ made, files.create (.ofText path) = .ok made

theorem Settings.logOpens_of_none {s : Settings} (h : s.logPath? stamp = none) (files : FileTree) :
    s.LogOpens files stamp := by
  intro path hpath
  rw [h] at hpath
  cases hpath

/-- Opening the log takes nothing away from the files, and without a log it leaves them as they are. -/
theorem Invocation.exists_report_eq (h : i.settings.LogOpens files stamp) :
    ∃ opened, files.Extends opened ∧ (i.settings.logPath? stamp = none → opened = files) ∧
      ∀ random : Option Int → RandomSource, i.report files stamp random =
        (opened, i.execute (i.settings.loggerRequest stamp).logger
          (announced (i.settings.loggerRequest stamp)) (random i.settings.seed)
          (opened.readRom i.rom)) := by
  cases hpath : i.settings.logPath? stamp with
  | none =>
    refine ⟨files, .refl files, fun _ => rfl, fun random => ?_⟩
    unfold report Registry.setup Settings.loggerRequest
    rw [hpath]
    rfl
  | some path =>
    obtain ⟨made, hmade⟩ := h path hpath
    refine ⟨made.1, FileTree.extends_of_create hmade, nofun, fun random => ?_⟩
    unfold report Registry.setup Settings.loggerRequest
    simp only [hpath, hmade]
    rfl

/-! ## Commands that run nothing -/

/-- The report of a command that could not load its image: a complaint, and nothing in the log that a
machine has reported. -/
structure Report.RanNothing (r : Report) (complaint : String) : Prop where
  ending : r.ending = .status 1
  output : r.output = []
  complaints : r.complaints = [complaint]
  console : ∀ record ∈ r.console, ∃ path, record = .logFile path
  logFile : ∀ records, r.logFile = some records → ∀ record ∈ records, ∃ path, record = .logFile path

theorem exists_of_mem_announced {q : LoggerRequest} {record : Record} (h : record ∈ announced q) :
    ∃ path, record = .logFile path := by
  obtain ⟨path, -, rfl⟩ := List.mem_map.mp h
  exact ⟨path, rfl⟩

theorem ranNothing_logged {r : Report} {q : LoggerRequest} {complaint : String}
    (h : r = { ending := .status 1, complaints := [complaint] }) :
    (r.logged logger (announced q)).RanNothing complaint := by
  subst h
  have hpassed : ∀ level, ∀ record ∈ ((announced q).filter (Record.passes logger.level)).filter
      (Record.passes level), ∃ path, record = .logFile path := by
    intro level record hrecord
    exact exists_of_mem_announced (List.mem_of_mem_filter (List.mem_of_mem_filter hrecord))
  exact {
    ending := rfl
    output := rfl
    complaints := rfl
    console := hpassed _
    logFile := fun records hrecords => by
      obtain ⟨level, -, rfl⟩ := Option.map_eq_some_iff.mp hrecords
      exact hpassed level }

theorem Invocation.execute_of_error {error : RomError} :
    i.execute logger taken random (.error error) = (unread i.rom error).logged logger taken := rfl

/-! ## Commands that run -/

theorem Invocation.execute_of_created (hblank : i.settings.blank = []) {m : Machine Display}
    {created : List Record}
    (hcreate : Machine.create i.settings.display random image = .ok (m, created)) :
    i.execute logger taken random (.ok image) =
      let out := m.run i.settings.steps (({ threshold := logger.level } : Log).addAll (taken ++ created))
      (runReport i.settings.screen out).logged logger out.log.records.toList := by
  have hstart : i.start random (.ok image) = .ok (m, created) := by
    unfold start Settings.blankInput?
    simp only [hblank, hcreate]
    rfl
  unfold execute
  simp only [hstart, hblank]
  rfl

/-- The first line that tells a run of so many steps: why it ended. -/
def lineStopped (k : Nat) : StopReason → String
  | .timeout => "Stopped: TIMEOUT after " ++ toString k ++ " steps"
  | .stackFault => "Stopped: STACK_FAULT after " ++ toString k ++ " steps"
  | .memoryFault => "Stopped: MEMORY_FAULT after " ++ toString k ++ " steps"

theorem lineStopped_eq (k : Nat) (reason : StopReason) :
    lineStopped k reason = "Stopped: " ++ reason.name ++ " after " ++ toString k ++ " steps" := by
  cases reason <;> rfl

/-- The lines that tell a run of a machine: why it ended, the registers, and the screen on demand. -/
def linesTelling (screen : Bool) (m : Machine Display) (k : Nat) (reason : StopReason) : List String :=
  let last := m.after k
  lineStopped k reason :: last.core.regs.dump.line ::
    if screen then last.surface.screen.picture else []

theorem runReport_eq {m : Machine Display} {n k : Nat} {log : Log} {out : Machine.RunOutcome Display}
    {reason : StopReason} (hnew : m.core.steps = 0) (hlaw : m.RunLaw n k log out)
    (hreason : out.ending = .ok reason) (screen : Bool) :
    runReport screen out =
      { ending := .status (if reason = .timeout then 0 else 1),
        output := linesTelling screen m k reason } := by
  have hsteps : (m.after k).core.steps = k := by
    rw [Machine.steps_after, hnew, Nat.zero_add]
  unfold runReport runLines linesTelling
  rw [hreason]
  simp only [hlaw.machine, hsteps, lineStopped_eq, Screen.lines_eq_picture]

/-- A report tells the run of a machine, which makes `k` steps and ends for a reason. -/
structure Report.TellsRun (r : Report) (s : Settings) (m : Machine Display) (k : Nat)
    (reason : StopReason) : Prop where
  run : ∀ log, m.RunLaw s.steps.toNat k log (m.run s.steps log)
  stops : ∀ log, (m.run s.steps log).ending = .ok reason
  timeout : reason = .timeout ↔ m.Steady s.steps.toNat
  ending : r.ending = .status (if reason = .timeout then 0 else 1)
  output : r.output = linesTelling s.screen m k reason
  complaints : r.complaints = []

/-- An image that fits is run. -/
theorem Invocation.tellsRun_execute (hblank : i.settings.blank = []) (hfits : image.length ≤ 3584)
    (logger : Logger) (taken : List Record) (random : RandomSource) :
    ∃ m created k reason, Machine.create i.settings.display random image = .ok (m, created) ∧
      (i.execute logger taken random (.ok image)).TellsRun i.settings m k reason := by
  obtain ⟨core, created, hcore, hcreate⟩ :=
    Machine.create_of_fits hfits i.settings.display random
  have hnew : core.steps = 0 := (Core.imageLoaded_of_load hcore).steps
  have htotal : Surface.Total Display := FrameBuffer.total (by decide) (by decide)
  obtain ⟨k, reason, hrun⟩ := Machine.exists_runLaw
    (Machine.answered_of_total htotal ⟨core, i.settings.display⟩) i.settings.steps.toNat
  refine ⟨_, created, k, reason, hcreate, ?_⟩
  obtain ⟨hlaw, hstops⟩ := hrun (({ threshold := logger.level } : Log).addAll (taken ++ created))
  have htimeout := hlaw.timeout
  rw [hstops, Except.ok.injEq] at htimeout
  rw [execute_of_created hblank hcreate]
  unfold Machine.run
  simp only [runReport_eq hnew hlaw hstops]
  exact {
    run := fun log => (hrun log).1
    stops := fun log => (hrun log).2
    timeout := htimeout
    ending := rfl
    output := rfl
    complaints := rfl }

/-- The invocation with other keys. -/
def Invocation.withKeys (i : Invocation) (keys : List Nibble) : Invocation :=
  { i with settings := { i.settings with pressed := keys } }

/-- Of the keys that are named, a report takes only the display. -/
theorem Invocation.report_withKeys {keys : List Nibble}
    (h : ∀ key, key ∈ keys ↔ key ∈ i.settings.pressed)
    (files : FileTree) (stamp : String) (random : Option Int → RandomSource) :
    (i.withKeys keys).report files stamp random = i.report files stamp random := by
  have hdisplay : (i.withKeys keys).settings.display = i.settings.display :=
    congrArg (fun held => ({ keys := held } : Display)) (Keypad.holding_congr h)
  have hexecute : (i.withKeys keys).execute = i.execute := by
    unfold execute start
    rw [hdisplay]
    rfl
  have hrequest : (i.withKeys keys).settings.loggerRequest = i.settings.loggerRequest := rfl
  unfold report
  rw [hexecute, hrequest]
  rfl

/-! ## Command lines -/

/-- **A command reports the run of its image.** Let a command line ask for a run, and let its log file
open, if it asks for one. If there is then no file with the image, or it has more than 3584 bytes, the
status is one and nothing is run. Otherwise, as long as every parameter got a value, the report tells the
run of a machine that is created with the image on a dark screen of 64 times 32 cells with just the named
keys held. Command lines that name the same keys, in any order and any number of times, do the same. -/
theorem command_reports_run {args : List String} {i : Invocation}
    (hparse : Invocation.parse args = .ok i) (hlog : i.settings.LogOpens files stamp)
    (random : Option Int → RandomSource) :
    let left := command args files stamp random
    (left.1.Lacks (.ofText i.rom) → left.2.RanNothing ("Error: File not found: " ++ i.rom)) ∧
    (∀ image, files.Holds (.ofText i.rom) image →
      (3584 < image.length →
        left.2.RanNothing ("Error: " ++ (ProgramTooLarge.mk image.length).message)) ∧
      (image.length ≤ 3584 → i.settings.blank = [] → ∃ keys m created k reason,
        (∀ key : Nibble, keys.isHeld key.val = true ↔ key ∈ i.settings.pressed) ∧
        Machine.create (⟨Screen.dark, keys⟩ : Display) (random i.settings.seed) image =
          .ok (m, created) ∧
        left.2.TellsRun i.settings m k reason)) ∧
    ∀ args' keys, Invocation.parse args' = .ok (i.withKeys keys) →
      (∀ key, key ∈ keys ↔ key ∈ i.settings.pressed) → command args' files stamp random = left := by
  intro left
  obtain ⟨opened, hextends, -, hreport⟩ := Invocation.exists_report_eq hlog
  have hleft : left = i.report files stamp random := by
    show command args files stamp random = _
    unfold command
    rw [hparse]
  rw [hreport] at hleft
  refine ⟨fun hlacks => ?_, fun image hholds => ⟨fun hlarge => ?_, fun hfits hblank => ?_⟩,
    fun args' keys hparse' hkeys => ?_⟩
  · rw [hleft] at hlacks ⊢
    rw [FileTree.readRom_of_lacks hlacks, Invocation.execute_of_error]
    exact ranNothing_logged rfl
  · rw [hleft, FileTree.readRom_of_too_large (hholds.of_extends hextends) hlarge,
      Invocation.execute_of_error]
    exact ranNothing_logged rfl
  · rw [hleft, FileTree.readRom_of_fits (hholds.of_extends hextends) hfits]
    obtain ⟨m, created, k, reason, hcreate, htells⟩ :=
      Invocation.tellsRun_execute hblank hfits _ _ (random i.settings.seed)
    exact ⟨_, m, created, k, reason, Keypad.isHeld_holding i.settings.pressed, hcreate, htells⟩
  · rw [hleft, ← hreport]
    unfold command
    rw [hparse']
    exact Invocation.report_withKeys hkeys files stamp random

/-- The program skips a word because key 5 is held; without the key it would fault there. -/
theorem heldKeys_reported :
    let args := ["rom.ch8", "--steps=3", "--press=5", "--press", "a", "--screen"]
    let settings : Settings := { steps := 3, pressed := [5, 10], screen := true }
    let files := FileTree.single "rom.ch8" [0x6A, 0x05, 0xEA, 0x9E, 0x00, 0xEE, 0x12, 0x06]
    let random := fun _ : Option Int => RandomSource.cycle #[]
    let left := command args files "" random
    Invocation.parse args = .ok ⟨"rom.ch8", settings⟩ ∧ left.2.ending = .status 0 ∧
    (∃ keys m created, (∀ key : Nibble, keys.isHeld key.val = true ↔ key ∈ settings.pressed) ∧
      Machine.create (⟨Screen.dark, keys⟩ : Display) (.cycle #[])
        [0x6A, 0x05, 0xEA, 0x9E, 0x00, 0xEE, 0x12, 0x06] = .ok (m, created) ∧
      left.2.TellsRun settings m 3 .timeout) ∧
    left.2.output.head? = some "Stopped: TIMEOUT after 3 steps" ∧
    command ["--press", "a", "rom.ch8", "--screen", "--steps=3", "--press=5", "--press=A"] files ""
      random = left ∧
    (command ["no.ch8"] files "" random).2.RanNothing ("Error: File not found: " ++ "no.ch8") := by
  intro args settings files random left
  have hparse : Invocation.parse args = .ok ⟨"rom.ch8", settings⟩ := rfl
  have hholds : files.Holds (.ofText "rom.ch8") [0x6A, 0x05, 0xEA, 0x9E, 0x00, 0xEE, 0x12, 0x06] :=
    FileTree.find_eq_file_iff.mp (by decide +kernel)
  have hlacks : files.Lacks (.ofText "no.ch8") :=
    FileTree.find_eq_notFound_iff.mp (by decide +kernel)
  have hending : left.2.ending = .status 0 := by decide +kernel
  have hlog : settings.LogOpens files "" := Settings.logOpens_of_none rfl files
  have hparse' : Invocation.parse ["no.ch8"] = .ok ⟨"no.ch8", {}⟩ := rfl
  have hlog' : ({} : Settings).LogOpens files "" := Settings.logOpens_of_none rfl files
  obtain ⟨-, hheld, hsame⟩ := command_reports_run hparse hlog random
  obtain ⟨hmissing, -⟩ := command_reports_run hparse' hlog' random
  obtain ⟨keys, m, created, k, reason, hkeys, hcreate, htells⟩ :=
    (hheld _ hholds).2 (by decide) rfl
  obtain rfl : reason = .timeout := by
    by_contra hne
    have hone := htells.ending
    rw [if_neg hne] at hone
    cases hone.symm.trans hending
  have hsteady : m.Steady 3 := htells.timeout.mp rfl
  obtain rfl : k = 3 := by
    rcases (htells.run { threshold := 0 }).count with ⟨-, hk⟩ | ⟨j, hj, -, hfault, -⟩
    · exact hk
    · exact absurd (hsteady j hj) hfault
  have hhead : left.2.output.head? = some "Stopped: TIMEOUT after 3 steps" := by
    rw [htells.output]
    exact congrArg some (by decide : lineStopped 3 .timeout = "Stopped: TIMEOUT after 3 steps")
  exact ⟨hparse, hending, ⟨keys, m, created, hkeys, hcreate, htells⟩, hhead,
    hsame _ [10, 5, 10] rfl (by decide), hmissing hlacks⟩

end CommandLine

end Chip8
