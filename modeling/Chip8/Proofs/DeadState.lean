import Chip8.Proofs.CallStack
import Chip8.Proofs.TwoRuns

/-!
# Dead state

Three parts of a machine are written and never read: the sound timer, the step count, and the slots of
the call stack that are not live. A popped slot keeps its address, but only a push makes a slot live
again, and it writes the slot first. Cores that differ in no more than these parts (`Core.LiveEq`) are
told apart by nothing that a program or a log can see.

* `Core.LiveEq.inStep` — a step does the same to both
* `Machine.dead_state_never_matters` — so does every number of steps, and every run
-/

namespace Chip8

/-- The cores agree in all that is read: the call stacks in their depth and their live slots, the timers
in the delay timer. -/
structure Core.LiveEq (c c' : Core) : Prop where
  v : c.regs.v = c'.regs.v
  i : c.regs.i = c'.regs.i
  pc : c.regs.pc = c'.regs.pc
  frames : c.regs.calls.frames = c'.regs.calls.frames
  memory : c.memory = c'.memory
  delay : c.timers.delay = c'.timers.delay
  random : c.random = c'.random

namespace Core

/-- A core with other dead parts. -/
def withDead (c : Core) (calls : CallStack) (sound : Byte) (steps : Nat) : Core :=
  { c with
    regs := { c.regs with calls := calls }
    timers := { c.timers with sound := sound }
    steps := steps }

theorem LiveEq.eq_withDead {c c' : Core} (h : c.LiveEq c') :
    c' = c.withDead c'.regs.calls c'.timers.sound c'.steps := by
  obtain ⟨hv, hi, hpc, -, hmemory, hdelay, hrandom⟩ := h
  simp only [withDead, hv, hi, hpc, hmemory, hdelay, hrandom]

theorem LiveEq.dump {c c' : Core} (h : c.LiveEq c') : c.regs.dump = c'.regs.dump := by
  unfold Registers.dump
  rw [h.v, h.i, h.pc, CallStack.depth_eq_of_frames_eq h.frames]

end Core

theorem Registers.v_load_congr {r r' : Registers} (h : r.v = r'.v) (data : List Byte) :
    (r.load data).v = (r'.load data).v := by
  unfold load
  simp only [h]

namespace Opcode

variable {c : Core} {calls : CallStack}

/-- No instruction reads a dead part. -/
theorem exec_withDead (hframes : c.regs.calls.frames = calls.frames) (sound : Byte) (steps : Nat)
    (op : Opcode) (w : Word) :
    Alike Core.LiveEq (op.exec w c) (op.exec w (c.withDead calls sound steps)) := by
  cases op with
  | call =>
    unfold exec Core.call
    simp only [Core.withDead, Registers.push_eq]
    rcases CallStack.push?_of_frames_eq hframes (Word.ofInt c.regs.pc) with
      ⟨hs, ht⟩ | ⟨s, t, hs, ht, hst⟩
    · rw [hs, ht]
      exact .halted
    · rw [hs, ht]
      exact .done ⟨rfl, rfl, rfl, hst, rfl, rfl, rfl⟩
  | ret =>
    unfold exec Core.ret
    simp only [Core.withDead, Registers.pop_eq]
    rcases CallStack.pop?_of_frames_eq hframes with ⟨hs, ht⟩ | ⟨caller, s, t, hs, ht, hst⟩
    · rw [hs, ht]
      exact .halted
    · rw [hs, ht]
      exact .done ⟨rfl, rfl, rfl, hst, rfl, rfl, rfl⟩
  | drw => exact .map fun _ => .asked fun _ => ⟨rfl, rfl, rfl, hframes, rfl, rfl, rfl⟩
  | ldVxMem =>
    refine .map fun data => .done ⟨?_, ?_, ?_, ?_, rfl, rfl, rfl⟩
    · exact Registers.v_load_congr (r := c.regs) rfl data
    all_goals simp [Core.withDead, hframes]
  | ldBVx | ldMemVx =>
    unfold exec
    simp only [Core.map_writeIndexed]
    exact .map fun _ => .done ⟨rfl, rfl, rfl, hframes, rfl, rfl, rfl⟩
  | ldVxK =>
    refine .asked ?_
    rintro (_ | key)
    · exact ⟨rfl, rfl, rfl, hframes, rfl, rfl, rfl⟩
    · exact ⟨rfl, rfl, rfl, hframes, rfl, rfl, rfl⟩
  | cls | skp | sknp => exact .asked fun _ => ⟨rfl, rfl, rfl, hframes, rfl, rfl, rfl⟩
  -- the others set parts from parts that are read; the sound timer is set and stays out of it
  | _ => exact .done ⟨rfl, rfl, rfl, hframes, rfl, rfl, rfl⟩

end Opcode

theorem Core.LiveEq.inStep {c c' : Core} (h : c.LiveEq c') : c.InStep LiveEq c' := by
  have hframes := h.frames
  rw [h.eq_withDead]
  refine ⟨rfl, rfl, ?_, ?_, ?_⟩
  · exact ⟨rfl, rfl, rfl, hframes, rfl, rfl, rfl⟩
  · exact ⟨rfl, rfl, rfl, hframes, rfl, rfl, rfl⟩
  · intro w op _ _
    -- a step starts by counting; that is one more difference in dead parts
    exact Opcode.exec_withDead (c := c.tick) hframes _ _ op w

namespace Machine

variable {σ : Type} [Surface σ] {m m' : Machine σ}

/-- **Dead state never matters.** Two machines on equal surfaces agree in all but the sound timer, the
step count and the dead slots of the call stack. Then after any number of steps, those that fault
included, they agree as much; each step asks the surface the same, reports the same and faults the
same; and a run of any length ends for the same reason and leaves the same log. -/
theorem dead_state_never_matters (hcore : m.core.LiveEq m'.core) (hsurface : m.surface = m'.surface) :
    (∀ n, let now := m.after n
      let now' := m'.after n
      now.core.LiveEq now'.core ∧ now.surface = now'.surface ∧
      now.core.request? = now'.core.request? ∧ now.step.records = now'.step.records ∧
      now.step.fault? = now'.step.fault?) ∧
    ∀ limit log, (m.run limit log).ending = (m'.run limit log).ending ∧
      (m.run limit log).log = (m'.run limit log).log := by
  have hm : m.Alike Core.LiveEq m' := ⟨hcore, hsurface⟩
  constructor
  · intro n now now'
    have hn : now.Alike Core.LiveEq now' := after_alike hm fun _ _ h => h.inStep
    have hstep := step_alike hn.surface hn.core.inStep
    exact ⟨hn.core, hn.surface, hn.core.inStep.request?, hstep.records, hstep.fault⟩
  · intro limit log
    have hrun := runFor_alike Core.LiveEq.inStep Core.LiveEq.dump limit.toNat hm log
    exact ⟨hrun.ending, hrun.log⟩

/-- A call to 204 that returns to 202, where a second return finds the stack empty. -/
def returnTwice : Machine Detached := .ofImage [0x22, 0x04, 0x00, 0xEE, 0x00, 0xEE]

/-- The same after much use: it beeps, it has counted steps, and old addresses stand in every slot. -/
def returnTwiceStale : Machine Detached :=
  { returnTwice with
    core := returnTwice.core.withDead { CallStack.empty with slots := .replicate 16 0x2AA } 9 77 }

theorem returnTwice_stale :
    returnTwice.core.LiveEq returnTwiceStale.core ∧
    returnTwiceStale.core.regs.calls.slot 0 ≠ returnTwice.core.regs.calls.slot 0 ∧
    (returnTwice.after 2).step.fault? = some (.halt (.stack (.underflow 0x202))) ∧
    (returnTwiceStale.after 2).step.fault? = some (.halt (.stack (.underflow 0x202))) := by
  have hcore : returnTwice.core.LiveEq returnTwiceStale.core :=
    ⟨rfl, rfl, rfl, by decide, rfl, rfl, rfl⟩
  have hfault : (returnTwice.after 2).step.fault? = some (.halt (.stack (.underflow 0x202))) := by
    decide +kernel
  obtain ⟨_, _, _, _, hsame⟩ := (dead_state_never_matters hcore rfl).1 2
  exact ⟨hcore, by decide, hfault, hsame ▸ hfault⟩

end Machine

end Chip8
