import Chip8.Proofs.Runs
import Chip8.Proofs.Turns

/-!
# Faults are permanent

Whether a step halts is decided by memory and the registers, and a step that halts leaves both. So once
a program has faulted it faults again at every step, in the same way, whatever the host does to the keys
meanwhile.

* `Machine.step_fault_of_ticked` — a core that has only ticked faults as before
* `Session.idled_of_halt` — steps and key events after a fault
* `Session.fault_repeats` — with the answers, and runs after a fault
-/

namespace Chip8

namespace Machine

variable {σ : Type} [Surface σ] {m next : Machine σ} {halt : Halt}

/-- Neither the timers nor the surface take part in a fault of the program. -/
theorem step_fault_of_ticked {n : Nat} (h : m.step.fault? = some (.halt halt))
    (hnext : m.core.Ticked n next.core) : next.step.fault? = some (.halt halt) := by
  rw [step_fault_iff_halt] at h ⊢
  rw [hnext.fetch, hnext.regs]
  exact h

/-- A run from a fault makes the one step that faults again. -/
theorem run_of_halt (h : m.step.fault? = some (.halt halt)) {limit : Int} (hlimit : 1 ≤ limit)
    (log : Log) :
    (m.run limit log).ending = .ok halt.reason ∧ (m.run limit log).machine = m.step.machine := by
  obtain ⟨n, hn⟩ : ∃ n, limit.toNat = n + 1 := ⟨limit.toNat - 1, by omega⟩
  unfold run
  rw [hn, runFor_succ_of_halt h]
  exact ⟨rfl, rfl⟩

end Machine

namespace Session

section

variable {σ : Type} [Surface σ] [Keyed σ] {s : Session σ} {halt : Halt}

theorem apply_step_of_halt (h : s.machine.step.fault? = some (.halt halt)) :
    (s.apply .step).2 = .failed (.fault (.halt halt)) := by
  rw [answer_step, h]
  rfl

theorem apply_run_of_halt (h : s.machine.step.fault? = some (.halt halt)) {limit : Int}
    (hlimit : 1 ≤ limit) :
    (s.apply (.run limit)).2 = .stopped halt.reason ∧
    (s.apply (.run limit)).1.machine = s.machine.step.machine := by
  obtain ⟨hending, hmachine⟩ := Machine.run_of_halt h hlimit s.log
  refine ⟨?_, hmachine⟩
  unfold apply
  simp only [hending]

/-- After a fault every step is idle, whatever key events come between. -/
theorem idled_of_halt (h : s.machine.step.fault? = some (.halt halt)) (turns : List Turn) :
    s.machine.Idled turns (s.applyAll (turns.map Turn.operation)).1.machine :=
  idled_applyAll turns fun _ _ hidled =>
    Machine.idle_of_halt (Machine.step_fault_of_ticked h hidled.core)

end

/-- **Faults are permanent.** After a step that halts the program, every further step gives the same
answer, and steps and key events change nothing but the counts and the keys; a run makes one step more
and ends for that fault. Key events leave all but the keys of a frame buffer, and of a recorder all but
the key that it takes for held. -/
theorem fault_repeats :
    (∀ {σ : Type} [Surface σ] [Keyed σ] {s : Session σ} {halt : Halt},
      s.machine.step.fault? = some (.halt halt) → ∀ turns : List Turn,
      let faulted := s.apply .step
      let left := faulted.1.applyAll (turns.map Turn.operation)
      faulted.2 = .failed (.fault (.halt halt)) ∧
      (∀ answer, (Turn.step, answer) ∈ turns.zip left.2 → answer = faulted.2) ∧
      faulted.1.machine.Idled turns left.1.machine ∧
      ∀ limit : Int, 1 ≤ limit →
        (left.1.apply (.run limit)).2 = .stopped halt.reason ∧
        left.1.machine.Idled [.step] (left.1.apply (.run limit)).1.machine) ∧
    (∀ {width height : Nat} (fb : FrameBuffer width height) (turns : List Turn),
      (turns.foldl Keyed.turned fb).screen = fb.screen) ∧
    ∀ (s : Recorder) (turns : List Turn),
      (turns.foldl Keyed.turned s).requests = s.requests ∧
      (turns.foldl Keyed.turned s).collide = s.collide := by
  refine ⟨?_, fun fb turns => FrameBuffer.screen_turned turns fb,
    fun s turns => Recorder.requests_turned turns s⟩
  intro σ _ _ s halt h turns faulted left
  have hfirst : s.machine.Idled [.step] faulted.1.machine :=
    idled_apply fun _ => Machine.idle_of_halt h
  have hfaulted : faulted.1.machine.step.fault? = some (.halt halt) :=
    Machine.step_fault_of_ticked h hfirst.core
  have hleft : faulted.1.machine.Idled turns left.1.machine := idled_of_halt hfaulted turns
  have hanswer : faulted.2 = .failed (.fault (.halt halt)) := apply_step_of_halt h
  refine ⟨hanswer, ?_, hleft, ?_⟩
  · intro answer hmem
    obtain ⟨before, _, rfl⟩ := answer_of_mem_zip hmem
    have hbefore := idled_of_halt hfaulted before
    rw [hanswer]
    exact apply_step_of_halt (Machine.step_fault_of_ticked hfaulted hbefore.core)
  · intro limit hlimit
    have hstuck := Machine.step_fault_of_ticked hfaulted hleft.core
    obtain ⟨hstopped, hmachine⟩ := apply_run_of_halt hstuck hlimit
    refine ⟨hstopped, ?_⟩
    rw [hmachine, ← machine_apply_step]
    exact idled_apply fun _ => Machine.idle_of_halt hstuck

/-- A return with nothing to return to, with both timers running. -/
def returnsAtOnce : Session (FrameBuffer 8 4) :=
  ⟨⟨{ (Machine.ofImage [0x00, 0xEE]).core with timers := ⟨9, 2⟩ }, {}⟩, { threshold := 10 }⟩

theorem returnsAtOnce_repeats :
    returnsAtOnce.machine.step.fault? = some (.halt (.stack (.underflow 0x200))) ∧
    ∃ left, ((returnsAtOnce.apply .step).1.applyAll
        ([.press 7, .step, .release 20, .step].map Turn.operation)).1 = left ∧
      left.machine.core.regs.pc = 0x200 ∧ left.machine.core.steps = 3 ∧
      left.machine.core.timers.delay.toNat = 6 ∧ left.machine.core.timers.sound.toNat = 0 ∧
      left.machine.surface.keys.isHeld 7 = true ∧
      (left.apply (.run 5)).2 = .stopped .stackFault ∧
      (left.apply (.run 5)).1.machine.core.steps = 4 := by
  have hfault : returnsAtOnce.machine.step.fault? = some (.halt (.stack (.underflow 0x200))) := by
    decide +kernel
  obtain ⟨_, _, ⟨hcore, _⟩, hrun⟩ :=
    fault_repeats.1 hfault [.press 7, .step, .release 20, .step]
  obtain ⟨hstopped, honce⟩ := hrun 5 (by decide)
  -- the retries count on from what the first fault left
  have hsteps := hcore.steps.trans (c := 3) (by decide +kernel)
  have hrunSteps := honce.core.steps
  rw [hsteps] at hrunSteps
  exact ⟨hfault, _, rfl, (congrArg Registers.pc hcore.regs).trans (by decide +kernel), hsteps,
    hcore.delay.trans (by decide +kernel), hcore.sound.trans (by decide +kernel),
    by decide +kernel, hstopped, hrunSteps⟩

end Session

end Chip8
