import Chip8.Proofs.Effects
import Chip8.Proofs.Runs
import Chip8.Proofs.Sessions
import Mathlib.Data.List.Induction

/-!
# What a timer reads

A timer loses one at the beginning of every step, whatever becomes of the step, and takes a new value
from an instruction, from the host or from a reset. So it always reads the value that it was given last,
less the steps begun since, and the other timer has no part in that.

* `Session.tracks_apply` — the events of one operation
* `Session.timer_law` — every session
-/

namespace Chip8

/-! ## Events -/

/-- One of the two timers. -/
inductive Timer
  | delay
  | sound

/-- What a timer meets: a step begins, or the timer is given a value. -/
inductive TimerEvent
  | begun
  | given (value : Byte)
deriving DecidableEq

/-- A timer after an event. -/
def TimerEvent.apply (reading : Byte) : TimerEvent → Byte
  | begun => Timers.countDown reading
  | given value => value

namespace Timer

/-- What a timer reads. -/
def reading : Timer → Timers → Byte
  | delay, t => t.delay
  | sound, t => t.sound

/-- The words that give a timer the value of their register. -/
def pattern : Timer → String
  | delay => "Fx15"
  | sound => "Fx18"

/-- The value that an operation of the host gives to a timer. -/
def given? (timer : Timer) : Operation → Option Byte
  | .reset => some 0
  | .setDelay value =>
    match timer with
    | delay => some (Byte.ofInt value)
    | sound => none
  | .setSound value =>
    match timer with
    | delay => none
    | sound => some (Byte.ofInt value)
  | _ => none

end Timer

section

variable {σ : Type}

/-- The value that the next step gives to a timer. -/
def Machine.timerGiven? (timer : Timer) (m : Machine σ) : Option Byte :=
  match m.core.fetch with
  | .ok w => if w.Fits timer.pattern then some (m.core.regs.get w.x) else none
  | .error _ => none

/-- The events of a step. -/
def Machine.stepEvents (timer : Timer) (m : Machine σ) : List TimerEvent :=
  .begun :: (m.timerGiven? timer).toList.map .given

variable [Surface σ]

/-- The events of a run: those of its steps, up to the first that faults. -/
def Machine.runEvents (timer : Timer) : Nat → Machine σ → List TimerEvent
  | 0, _ => []
  | n + 1, m => m.stepEvents timer ++
      if m.step.fault? = none then runEvents timer n m.step.machine else []

namespace Session

variable [Keyed σ]

/-- The events of an operation. -/
def timerEvents (timer : Timer) (s : Session σ) : Operation → List TimerEvent
  | .step => s.machine.stepEvents timer
  | .run limit => s.machine.runEvents timer limit.toNat
  | op => (timer.given? op).toList.map .given

/-- The events of several operations. -/
def timerHistory (timer : Timer) (s : Session σ) : List Operation → List TimerEvent
  | [] => []
  | op :: ops => s.timerEvents timer op ++ (s.apply op).1.timerHistory timer ops

end Session

end

/-! ## What events make of a timer -/

/-- From `c` to `next` a timer met some events, and all the steps among them were counted. -/
structure Timer.Tracks (timer : Timer) (c : Core) (events : List TimerEvent) (next : Core) : Prop where
  reading : timer.reading next.timers = events.foldl TimerEvent.apply (timer.reading c.timers)
  steps : next.steps = c.steps + events.count .begun

namespace Timer.Tracks

variable {timer : Timer} {c d next : Core} {events events' : List TimerEvent}

theorem append (h : timer.Tracks c events d) (h' : timer.Tracks d events' next) :
    timer.Tracks c (events ++ events') next where
  reading := by rw [h'.reading, h.reading, List.foldl_append]
  steps := by rw [h'.steps, h.steps, List.count_append, Nat.add_assoc]

/-- Nothing happens to timers that stay as they are. -/
theorem of_eq (htimers : next.timers = c.timers) (hsteps : next.steps = c.steps) :
    timer.Tracks c [] next :=
  ⟨congrArg timer.reading htimers, hsteps⟩

end Timer.Tracks

/-- The instruction that gives a timer its value. -/
def Timer.opcode : Timer → Opcode
  | delay => .ldDtVx
  | sound => .ldStVx

theorem Timer.fits_pattern_iff {timer : Timer} {w : Word} :
    w.Fits timer.pattern ↔ Opcode.ofWord? w = some timer.opcode := by
  cases timer with
  | delay => exact Word.fits_pattern_iff .ldDtVx
  | sound => exact Word.fits_pattern_iff .ldStVx

theorem Opcode.Yields.reading_eq {op : Opcode} {w : Word} {c next : Core} (h : op.Yields w c next)
    (timer : Timer) : timer.reading next.timers =
      if op = timer.opcode then c.regs.get w.x else timer.reading c.timers := by
  cases timer with
  | delay => exact h.delay_eq
  | sound => exact h.sound_eq

theorem Timer.reading_tick (timer : Timer) (c : Core) :
    timer.reading c.tick.timers = Timers.countDown (timer.reading c.timers) := by
  cases timer <;> rfl

/-- A step on any other word only counts the timer down. -/
theorem Core.StepsTo.reading_eq {c next : Core} (h : c.StepsTo next) {timer : Timer}
    (hno : ∀ w, c.fetch = .ok w → ¬ w.Fits timer.pattern) :
    timer.reading next.timers = Timers.countDown (timer.reading c.timers) := by
  cases h with
  | faulted => exact timer.reading_tick c
  | skipped => exact timer.reading_tick c
  | executed hfetch hop h =>
    have hother : ¬ _ = timer.opcode := fun heq =>
      hno _ hfetch (Timer.fits_pattern_iff.mpr (heq ▸ hop))
    rw [h.reading_eq timer, if_neg hother]
    exact timer.reading_tick c

namespace Machine

variable {σ : Type} [Surface σ]

theorem reading_step (timer : Timer) (m : Machine σ) :
    timer.reading m.step.machine.core.timers =
      (m.timerGiven? timer).getD (Timers.countDown (timer.reading m.core.timers)) := by
  by_cases h : ∃ w, m.core.fetch = .ok w ∧ w.Fits timer.pattern
  · obtain ⟨w, hfetch, hw⟩ := h
    have hop := Timer.fits_pattern_iff.mp hw
    have hgiven : m.timerGiven? timer = some (m.core.regs.get w.x) := by
      unfold timerGiven?
      rw [hfetch]
      exact if_pos hw
    rw [hgiven]
    cases timer with
    | delay | sound =>
      rw [(step_of_done hfetch hop rfl).2]
      exact Byte.ofInt_toInt _
  · have hno : ∀ w, m.core.fetch = .ok w → ¬ w.Fits timer.pattern := fun w hfetch hw =>
      h ⟨w, hfetch, hw⟩
    have hgiven : m.timerGiven? timer = none := by
      unfold timerGiven?
      cases hfetch : m.core.fetch with
      | error _ => rfl
      | ok w => exact if_neg (hno w hfetch)
    rw [hgiven]
    exact (stepsTo m).reading_eq hno

theorem tracks_step (timer : Timer) (m : Machine σ) :
    timer.Tracks m.core (m.stepEvents timer) m.step.machine.core where
  reading := by
    rw [reading_step]
    unfold stepEvents
    cases m.timerGiven? timer <;> rfl
  steps := by
    rw [(stepsTo m).steps_eq]
    unfold stepEvents
    cases m.timerGiven? timer <;> rfl

theorem tracks_runFor (timer : Timer) (n : Nat) : ∀ (m : Machine σ) (log : Log),
    timer.Tracks m.core (m.runEvents timer n) (runFor n m log).machine.core := by
  induction n with
  | zero => exact fun _ _ => .of_eq rfl rfl
  | succ n ih =>
    intro m log
    have hstep := tracks_step timer m
    unfold runEvents
    cases hfault : m.step.fault? with
    | none =>
      rw [if_pos rfl, runFor_succ_of_no_fault hfault]
      exact hstep.append (ih m.step.machine _)
    | some fault =>
      rw [if_neg nofun, List.append_nil]
      cases fault with
      | halt halt =>
        rw [runFor_succ_of_halt hfault]
        exact hstep
      | surface cause =>
        rw [runFor_succ_of_refusal hfault]
        exact hstep

end Machine

/-! ## Sessions -/

namespace Session

variable {σ : Type} {s : Session σ} {timer : Timer}

theorem tracks_loadImage (image : List Byte) :
    timer.Tracks s.machine.core [] (s.loadImage image).1.machine.core := by
  unfold loadImage Machine.load Core.load
  cases s.machine.core.memory.loadProgram image <;> exact .of_eq rfl rfl

theorem tracks_store (p : Memory.Store) :
    timer.Tracks s.machine.core [] (s.store p).1.machine.core := by
  unfold store
  cases p.run ⟨s.machine.core.memory, []⟩ <;> exact .of_eq rfl rfl

theorem tracks_keyEvent (surface : Except KeyFault σ) :
    timer.Tracks s.machine.core [] (s.keyEvent surface).1.machine.core := by
  cases surface <;> exact .of_eq rfl rfl

variable [Surface σ] [Keyed σ]

/-- What an operation makes of a timer; only a reset does not go on counting steps. -/
theorem tracks_apply {op : Operation} (hop : op ≠ .reset) :
    timer.Tracks s.machine.core (s.timerEvents timer op) (s.apply op).1.machine.core := by
  cases op with
  | step =>
    rw [machine_apply_step]
    exact Machine.tracks_step timer s.machine
  | run limit => exact Machine.tracks_runFor timer limit.toNat s.machine s.log
  | reset => exact absurd rfl hop
  | load image => exact tracks_loadImage image
  | loadFile files path =>
    unfold Session.apply
    simp only
    cases files.readRom path with
    | error e => exact .of_eq rfl rfl
    | ok image => exact tracks_loadImage image
  | pokeByte address value => exact tracks_store _
  | poke address data => exact tracks_store _
  | setDelay value => cases timer <;> exact ⟨rfl, rfl⟩
  | setSound value => cases timer <;> exact ⟨rfl, rfl⟩
  | press key => exact tracks_keyEvent _
  | release key => exact tracks_keyEvent _

theorem reading_apply (timer : Timer) (s : Session σ) (op : Operation) :
    timer.reading (s.apply op).1.machine.core.timers =
      (s.timerEvents timer op).foldl TimerEvent.apply (timer.reading s.machine.core.timers) := by
  by_cases hop : op = .reset
  · subst hop
    cases timer <;> rfl
  · exact (tracks_apply hop).reading

theorem reading_applyAll (timer : Timer) (ops : List Operation) : ∀ s : Session σ,
    timer.reading (s.applyAll ops).1.machine.core.timers =
      (s.timerHistory timer ops).foldl TimerEvent.apply (timer.reading s.machine.core.timers) := by
  induction ops with
  | nil => exact fun _ => rfl
  | cons op ops ih =>
    intro s
    refine (ih (s.apply op).1).trans ?_
    rw [reading_apply, ← List.foldl_append]
    rfl

omit [Surface σ] [Keyed σ] in
/-- Both timers are at zero when a session starts. -/
theorem timers_create {surface : σ} {random : RandomSource} {image : List Byte} {threshold : Int}
    (h : create surface random image threshold = .ok s) : s.machine.core.timers = {} := by
  rcases core_of_create h with hcore | ⟨memory, _, hcore⟩
  · rw [hcore]
    rfl
  · rw [hcore]
    rfl

end Session

/-- After any events there is a value that was given last, and the timer reads that value less the steps
begun since. -/
theorem TimerEvent.exists_last_given (start : Byte) (events : List TimerEvent) :
    ∃ before value m, .given start :: events = before ++ .given value :: List.replicate m .begun ∧
      (events.foldl apply start).toNat = value.toNat - m := by
  induction events using List.reverseRecOn with
  | nil => exact ⟨[], start, 0, rfl, rfl⟩
  | append_singleton events e ih =>
    obtain ⟨before, value, m, hsplit, hreading⟩ := ih
    rw [← List.cons_append, List.foldl_append]
    cases e with
    | begun =>
      refine ⟨before, value, m + 1, ?_, ?_⟩
      · rw [hsplit, List.replicate_succ', List.append_assoc, List.cons_append]
      · show (Timers.countDown (events.foldl apply start)).toNat = _
        rw [Timers.toNat_countDown, hreading, Nat.sub_sub]
    | given value => exact ⟨.given start :: events, value, 0, rfl, rfl⟩

/-- `Fx07` reads the delay timer after its own step has counted it down. -/
theorem Machine.delay_of_step {σ : Type} [Surface σ] {m : Machine σ} {w : Word}
    (hfetch : m.core.fetch = .ok w) (hw : w.Fits "Fx07") :
    m.step.fault? = none ∧
    m.step.machine.core.regs.get w.x = m.step.machine.core.timers.delay ∧
    m.step.machine.core.timers.delay.toNat = m.core.timers.delay.toNat - 1 := by
  have hop : Opcode.ofWord? w = some .ldVxDt := (Word.fits_pattern_iff .ldVxDt).mp hw
  obtain ⟨hfault, hmachine⟩ := step_of_done hfetch hop rfl
  refine ⟨hfault, ?_, ?_⟩
  · rw [hmachine]
    show (m.core.regs.set w.x m.core.tick.timers.delay).get w.x = _
    rw [Registers.get_set_self]
    rfl
  · rw [hmachine]
    exact Timers.toNat_countDown _

namespace Session

variable {σ : Type} [Surface σ] [Keyed σ] {s : Session σ}

/-- **A timer reads what it was given last, less the steps begun since.** That holds from the creation
of a session on, for each timer by its own events, and over every mix of operations. The events miss no
step: unless it is a reset, an operation counts as many steps as its events say. The word `Fx07` puts into
its register what its own step has left of the delay timer. -/
theorem timer_law {surface : σ} {random : RandomSource} {image : List Byte} {threshold : Int}
    (h : create surface random image threshold = .ok s) (ops : List Operation) :
    let left := (s.applyAll ops).1
    (∀ timer : Timer, ∃ before value m,
      .given 0 :: s.timerHistory timer ops = before ++ .given value :: List.replicate m .begun ∧
      (timer.reading left.machine.core.timers).toNat = value.toNat - m) ∧
    (∀ (timer : Timer) (op : Operation), op ≠ .reset →
      (left.apply op).1.machine.core.steps =
        left.machine.core.steps + (left.timerEvents timer op).count .begun) ∧
    ∀ (m : Machine σ) (w : Word), m.core.fetch = .ok w → w.Fits "Fx07" →
      m.step.fault? = none ∧
      m.step.machine.core.regs.get w.x = m.step.machine.core.timers.delay ∧
      m.step.machine.core.timers.delay.toNat = m.core.timers.delay.toNat - 1 := by
  intro left
  refine ⟨fun timer => ?_, fun timer op hop => (tracks_apply hop).steps,
    fun m w hfetch hw => Machine.delay_of_step hfetch hw⟩
  have hstart : timer.reading s.machine.core.timers = 0 := by
    rw [timers_create h]
    cases timer <;> rfl
  have hreading : timer.reading left.machine.core.timers =
      (s.timerHistory timer ops).foldl TimerEvent.apply 0 := by
    rw [← hstart]
    exact reading_applyAll timer ops s
  rw [hreading]
  exact TimerEvent.exists_last_given 0 (s.timerHistory timer ops)

/-- The host gives 300 to the delay timer. The program gives 0 to the sound timer and then faults. -/
theorem timers_after_fault :
    ∃ s ops, create ({} : FrameBuffer 8 4) (.cycle #[]) [0xF0, 0x18, 0x00, 0xEE] 30 = .ok s ∧
      ops = [.setSound 7, .setDelay 300, .run 9, .press 3] ∧
      (s.timerHistory .delay ops = [.given 44, .begun, .begun] ∧
        s.timerHistory .sound ops = [.given 7, .begun, .given 0, .begun] ∧
        (s.applyAll ops).1.machine.core.timers = ⟨42, 0⟩) ∧
      ∃ before value m,
        .given 0 :: s.timerHistory .delay ops = before ++ .given value :: List.replicate m .begun ∧
        (s.applyAll ops).1.machine.core.timers.delay.toNat = value.toNat - m := by
  have hcreate : create ({} : FrameBuffer 8 4) (.cycle #[]) [0xF0, 0x18, 0x00, 0xEE] 30 = .ok _ := rfl
  obtain ⟨hlaw, _⟩ := timer_law hcreate [.setSound 7, .setDelay 300, .run 9, .press 3]
  exact ⟨_, _, hcreate, rfl, by decide +kernel, hlaw .delay⟩

end Session

end Chip8
