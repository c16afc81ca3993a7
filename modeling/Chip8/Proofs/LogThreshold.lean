import Chip8.Proofs.Runs
import Chip8.Proofs.Turns

/-!
# The log threshold only filters

Only a step asks what the log keeps, and only to spare a trace that the log would not take
(`Machine.logsAlike_stepAt`). So an operation makes the same of a machine and gives the same answer
whatever the log, and may as well hand it the same records (`Session.IgnoresLog`); the threshold then says
which of these stay. Two sessions that differ in their thresholds differ in their records alone, and those
of any threshold can be picked from a session that keeps everything.

* `Machine.exists_runFor_eq` — a run, with the record of its fault
* `Session.ignoresLog_apply` — one operation
* `Session.threshold_only_filters` — whole sessions
-/

namespace Chip8

theorem Level.debug_le_rank (l : Level) : Level.debug.rank ≤ l.rank := by cases l <;> decide

/-- The threshold of debugging keeps every record. -/
theorem Record.passes_debug (r : Record) : r.passes Level.debug.rank = true :=
  decide_eq_true r.level.debug_le_rank

theorem Machine.exists_runFor_eq {σ : Type} [Surface σ] (n : Nat) : ∀ m : Machine σ,
    ∃ next records ending, ∀ log, runFor n m log = ⟨next, log.addAll records, ending⟩ := by
  induction n with
  | zero => exact fun m => ⟨m, [], .ok .timeout, fun _ => rfl⟩
  | succ n ih =>
    intro m
    rcases hfault : m.step.fault? with _ | halt | cause
    · obtain ⟨next, records, ending, hrest⟩ := ih m.step.machine
      refine ⟨next, m.step.records ++ records, ending, fun log => ?_⟩
      rw [runFor_succ_of_no_fault hfault, hrest, Log.addAll_append]
    · refine ⟨m.step.machine, m.step.records ++ [.halted halt m.core.regs.dump], .ok halt.reason,
        fun log => ?_⟩
      rw [runFor_succ_of_halt hfault, Log.addAll_append]
      rfl
    · exact ⟨m.step.machine, m.step.records, .error cause, runFor_succ_of_refusal hfault n⟩

namespace Session

variable {σ : Type}

/-! ## Operations -/

/-- What is done to a session makes the same of its machine whatever the log, gives the same answer, and
adds the same records. -/
def IgnoresLog (f : Log → Session σ × Answer) : Prop :=
  ∃ next records answer, ∀ log, f log = (⟨next, log.addAll records⟩, answer)

theorem ignoresLog_quiet (m : Machine σ) (answer : Answer) :
    IgnoresLog fun log => (⟨m, log⟩, answer) :=
  ⟨m, [], answer, fun _ => rfl⟩

theorem ignoresLog_loadImage (m : Machine σ) (image : List Byte) :
    IgnoresLog fun log => loadImage ⟨m, log⟩ image := by
  unfold loadImage
  dsimp only
  rcases m.load image with error | ⟨next, record⟩
  · exact ignoresLog_quiet m _
  · exact ⟨next, [record], .done, fun _ => rfl⟩

theorem ignoresLog_store (m : Machine σ) (p : Memory.Store) :
    IgnoresLog fun log => store ⟨m, log⟩ p := by
  unfold store
  dsimp only
  cases p.run ⟨m.core.memory, []⟩ with
  | ok _ stored =>
    exact ⟨⟨{ m.core with memory := stored.memory }, m.surface⟩,
      stored.dropped.map Record.dropped, .done, fun _ => rfl⟩
  | error cause reached =>
    exact ⟨⟨{ m.core with memory := reached.memory }, m.surface⟩,
      reached.dropped.map Record.dropped, .failed (.access cause), fun _ => rfl⟩

theorem ignoresLog_keyEvent (m : Machine σ) (surface : Except KeyFault σ) :
    IgnoresLog fun log => keyEvent ⟨m, log⟩ surface := by
  rcases surface with cause | surface
  · exact ignoresLog_quiet m _
  · exact ignoresLog_quiet ⟨m.core, surface⟩ .done

variable [Surface σ] [Keyed σ]

/-- No operation comes to depend on the log. -/
theorem ignoresLog_apply (m : Machine σ) (op : Operation) :
    IgnoresLog fun log => apply ⟨m, log⟩ op := by
  cases op with
  | step =>
    refine ⟨m.step.machine, m.step.records,
      m.step.fault?.elim .done fun cause => .failed (.fault cause), fun log => ?_⟩
    exact apply_step ⟨m, log⟩
  | run limit =>
    obtain ⟨next, records, ending, hrun⟩ := Machine.exists_runFor_eq limit.toNat m
    unfold apply
    simp only [Machine.run, hrun]
    rcases ending with cause | reason
    · exact ⟨next, records, .failed (.fault (.surface cause)), fun _ => rfl⟩
    · exact ⟨next, records, .stopped reason, fun _ => rfl⟩
  | reset => exact ignoresLog_quiet m.reset .done
  | load image => exact ignoresLog_loadImage m image
  | loadFile files path =>
    unfold apply
    dsimp only
    rcases files.readRom path with error | image
    · exact ignoresLog_quiet m _
    · exact ignoresLog_loadImage m image
  | pokeByte address value => exact ignoresLog_store m (.byte address value)
  | poke address data => exact ignoresLog_store m (.block address data)
  | setDelay value =>
    exact ignoresLog_quiet ⟨{ m.core with timers := m.core.timers.setDelay value }, m.surface⟩ .done
  | setSound value =>
    exact ignoresLog_quiet ⟨{ m.core with timers := m.core.timers.setSound value }, m.surface⟩ .done
  | press key => exact ignoresLog_keyEvent m (Keyed.press m.surface key)
  | release key => exact ignoresLog_keyEvent m (Keyed.release m.surface key)

/-! ## Whole sessions -/

/-- The machines that a host meets: the one it starts with, and the one after each operation. -/
def machines (s : Session σ) : List Operation → List (Machine σ)
  | [] => [s.machine]
  | op :: ops => s.machine :: (s.apply op).1.machines ops

/-- All that a host can tell of a session: its machines, its answers and its records. -/
structure Transcript (σ : Type) where
  machines : List (Machine σ)
  answers : List Answer
  records : List Record

/-- The transcript of a session that is created and then operated. -/
def transcript (surface : σ) (random : RandomSource) (image : List Byte) (ops : List Operation)
    (threshold : Int) : Except ProgramTooLarge (Transcript σ) :=
  (create surface random image threshold).map fun s =>
    ⟨s.machines ops, (s.applyAll ops).2, (s.applyAll ops).1.log.records.toList⟩

theorem exists_applyAll_eq (ops : List Operation) : ∀ m : Machine σ,
    ∃ seen next records answers, ∀ log, (⟨m, log⟩ : Session σ).machines ops = seen ∧
      (⟨m, log⟩ : Session σ).applyAll ops = (⟨next, log.addAll records⟩, answers) := by
  induction ops with
  | nil => exact fun m => ⟨[m], m, [], [], fun _ => ⟨rfl, rfl⟩⟩
  | cons op ops ih =>
    intro m
    obtain ⟨next, records, answer, hfirst⟩ := ignoresLog_apply m op
    obtain ⟨seen, last, records', answers, hrest⟩ := ih next
    refine ⟨m :: seen, last, records ++ records', answer :: answers, fun log => ?_⟩
    obtain ⟨hseen, hlast⟩ := hrest (log.addAll records)
    simp only [machines, applyAll, hfirst, hseen, hlast, Log.addAll_append, and_self]

/-- One failure, or one course of events whose records are filtered, stands behind all thresholds. -/
theorem exists_transcript_eq (surface : σ) (random : RandomSource) (image : List Byte)
    (ops : List Operation) :
    (∃ error, ∀ t, transcript surface random image ops t = .error error) ∨
      ∃ (seen : List (Machine σ)) (answers : List Answer) (records : List Record), ∀ t,
        transcript surface random image ops t =
          .ok ⟨seen, answers, records.filter (Record.passes t)⟩ := by
  unfold transcript create
  rcases Machine.create surface random image with error | ⟨m, created⟩
  · exact Or.inl ⟨error, fun _ => rfl⟩
  · obtain ⟨seen, next, records, answers, hops⟩ := exists_applyAll_eq ops m
    refine Or.inr ⟨seen, answers, created ++ records, fun t => ?_⟩
    obtain ⟨hseen, hleft⟩ := hops (({ threshold := t } : Log).addAll created)
    simp [Except.map, hseen, hleft, Log.toList_addAll]

/-- **The log threshold only filters.** For every program, surface and random source, and over any
operations: all machines and answers, or the failure to create one, are the same at any two thresholds,
and what is recorded at a threshold is, in order, what a session that debugs records at or above it. -/
theorem threshold_only_filters (surface : σ) (random : RandomSource) (image : List Byte)
    (ops : List Operation) :
    let seenAt := transcript surface random image ops
    (∀ t t' : Int, (seenAt t).map (fun seen => (seen.machines, seen.answers)) =
      (seenAt t').map fun seen => (seen.machines, seen.answers)) ∧
    ∀ t : Int, (seenAt t).map Transcript.records =
      (seenAt Level.debug.rank).map fun seen => seen.records.filter (Record.passes t) := by
  intro seenAt
  rcases exists_transcript_eq surface random image ops with ⟨error, h⟩ | ⟨seen, answers, records, h⟩
  · simp [seenAt, h, Except.map]
  · simp [seenAt, h, Except.map, Record.passes_debug]

end Session

end Chip8
